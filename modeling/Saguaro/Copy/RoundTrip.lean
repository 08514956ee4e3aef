/-
COPY output is read back as it was written.

`copy_round_trip` says when COPY FROM returns the rows that COPY TO was given, however the
bytes are cut into chunks. In CSV format it always does. In text format the delimiter is
written with a backslash before it, so that a delimiter which names an escape, ends the NULL
string or ends the end marker is read back as something else where a field holds it
(`delimiter_read_as_escape`).

Every line is read as one record (`nextRecord_formatRow`) and `collect` says what the parser
makes of the records, so that the chunks play no role any more (`run_eq_collect`); the rest is
about single records.
-/

import Mathlib.Data.List.Infix
import Saguaro.Copy.Format

namespace Saguaro.Copy

open Result List Option CopyParser

/-! ### Options -/

/-- The options that the parser of the statement accepts, with the NULL string of the format. -/
structure CopyOptions.Accepted (options : CopyOptions) : Prop where
  valid : validateCopyOptions options = .ok ()
  null : options.nullString = (CopyOptions.defaultsFor options.format).nullString

/-- The letters that are read as control characters after a backslash. -/
def escapeLetters : List Char := ['b', 'f', 'n', 'r', 't', 'v']

/-- In text format, a field that holds the delimiter is read back if the delimiter is no escape
letter and the field is not written like NULL. -/
def CopyOptions.Legible (options : CopyOptions) : Field → Prop
  | none => True
  | some value => options.format = .text →
      (options.delimiter ∈ escapeLetters → options.delimiter ∉ value) ∧
        (options.delimiter = 'N' → value ≠ ['N'])

/-- The line of these fields is written like the end marker. -/
def CopyOptions.LikeMarker (options : CopyOptions) (fields : List Field) : Prop :=
  options.format = .text ∧ options.delimiter = '.' ∧ fields = [some ['.']]

theorem map_eq_self_iff {α : Type} {f : α → α} {l : List α} :
    l.map f = l ↔ ∀ a ∈ l, f a = a := by
  simpa using map_inj_left (l := l) (f := f) (g := id)

section Formats

variable {options : CopyOptions} {d : Char}

theorem CopyOptions.Accepted.delimiter (accepted : options.Accepted) :
    options.delimiter ≠ '\\' ∧ options.delimiter ≠ '\n' ∧ options.delimiter ≠ '\r' := by
  obtain ⟨_, eol, rest⟩ := bind_eq_ok.mp accepted.valid
  obtain ⟨_, slash, -⟩ := bind_eq_ok.mp rest
  simp only [failIf_eq_ok, isEol, Bool.or_eq_true, beq_iff_eq, not_or] at eol slash
  exact ⟨slash, eol.2, eol.1⟩

theorem CopyOptions.Accepted.quote (accepted : options.Accepted) (csv : options.format = .csv) :
    options.quote ≠ '\n' ∧ options.quote ≠ '\r' ∧ options.delimiter ≠ options.quote := by
  obtain ⟨_, -, rest⟩ := bind_eq_ok.mp accepted.valid
  obtain ⟨_, -, rest⟩ := bind_eq_ok.mp rest
  rw [if_pos csv] at rest
  obtain ⟨_, eol, differ⟩ := bind_eq_ok.mp rest
  simp only [failIf_eq_ok, isEol, Bool.or_eq_true, beq_iff_eq, not_or] at eol differ
  exact ⟨eol.2, eol.1, differ⟩

/-! ### The text format -/

/-- What a character is written as. -/
theorem escapeTextField_cons (ch : Char) (value : List Char) :
    (∃ escaped, escapeTextField d (ch :: value) = '\\' :: escaped :: escapeTextField d value ∧
      (ch = '\\' ∧ escaped = '\\' ∨ ch = '\n' ∧ escaped = 'n' ∨ ch = '\r' ∧ escaped = 'r' ∨
        ch = '\t' ∧ escaped = 't' ∨ ch = d ∧ escaped = d)) ∨
    escapeTextField d (ch :: value) = ch :: escapeTextField d value ∧ ch ≠ '\\' ∧ ch ≠ '\n' ∧
      ch ≠ '\r' ∧ ch ≠ d := by
  simp only [escapeTextField]
  split_ifs with slash newline cr tab delimiter
  · exact .inl ⟨_, rfl, .inl ⟨slash, rfl⟩⟩
  · exact .inl ⟨_, rfl, .inr (.inl ⟨newline, rfl⟩)⟩
  · exact .inl ⟨_, rfl, .inr (.inr (.inl ⟨cr, rfl⟩))⟩
  · exact .inl ⟨_, rfl, .inr (.inr (.inr (.inl ⟨tab, rfl⟩)))⟩
  · exact .inl ⟨_, rfl, .inr (.inr (.inr (.inr ⟨delimiter, delimiter⟩)))⟩
  · exact .inr ⟨rfl, slash, newline, cr, delimiter⟩

theorem parseTextFieldsFrom_escaped (raw : List Char) (escaped : Char) (chars : List Char) :
    parseTextFieldsFrom options raw ('\\' :: escaped :: chars) =
      parseTextFieldsFrom options (raw ++ ['\\', escaped]) chars := by
  rw [parseTextFieldsFrom.eq_def]
  exact if_pos rfl

variable {ch : Char}

theorem parseTextFieldsFrom_cons (slash : ch ≠ '\\') (raw chars : List Char) :
    parseTextFieldsFrom options raw (ch :: chars) = if ch = options.delimiter then
      textToken options raw :: parseTextFieldsFrom options [] chars
      else parseTextFieldsFrom options (raw ++ [ch]) chars := by
  rw [parseTextFieldsFrom.eq_def]
  exact if_neg slash

/-- A written field is one token. -/
theorem parseTextFieldsFrom_escape (value raw rest : List Char) :
    parseTextFieldsFrom options raw (escapeTextField options.delimiter value ++ rest) =
      parseTextFieldsFrom options (raw ++ escapeTextField options.delimiter value) rest := by
  induction value generalizing raw with
  | nil => simp [escapeTextField]
  | cons ch value ih =>
    rcases escapeTextField_cons (d := options.delimiter) ch value with
      ⟨escaped, wrote, -⟩ | ⟨wrote, slash, -, -, delimiter⟩
    · rw [wrote, cons_append, cons_append, parseTextFieldsFrom_escaped, ih]
      simp
    · rw [wrote, cons_append, parseTextFieldsFrom_cons slash, if_neg delimiter, ih]
      simp

theorem unescapeText_cons (slash : ch ≠ '\\') (chars : List Char) :
    unescapeText (ch :: chars) = ch :: unescapeText chars := by
  rw [unescapeText.eq_def]
  exact if_neg slash

/-- What a character after a backslash is read as. -/
def unescaped (c : Char) : Char :=
  if c = 't' then '\t' else if c = 'n' then '\n' else if c = 'r' then '\r'
  else if c = 'b' then '\x08' else if c = 'f' then '\x0c' else if c = 'v' then '\x0b' else c

theorem unescapeText_escaped (c : Char) (chars : List Char) :
    unescapeText ('\\' :: c :: chars) = unescaped c :: unescapeText chars := by
  rw [unescapeText.eq_def]
  exact if_pos rfl

theorem unescaped_eq_self {c : Char} : unescaped c = c ↔ c ∉ escapeLetters := by
  unfold unescaped
  split_ifs with t n r b f v
  · subst t; decide
  · subst n; decide
  · subst r; decide
  · subst b; decide
  · subst f; decide
  · subst v; decide
  · simp [escapeLetters, t, n, r, b, f, v]

/-- A written field is read back with the delimiter replaced by what it is an escape for. -/
theorem unescapeText_escape (slash : d ≠ '\\') (newline : d ≠ '\n') (cr : d ≠ '\r')
    (value : List Char) : unescapeText (escapeTextField d value) =
      value.map fun ch => if ch = d then unescaped d else ch := by
  induction value with
  | nil => rfl
  | cons ch value ih =>
    rw [map_cons]
    obtain ⟨escaped, wrote, how⟩ | ⟨wrote, notSlash, -, -, differs⟩ :=
      escapeTextField_cons (d := d) ch value
    · rw [wrote, unescapeText_escaped, ih]
      congr 1
      rcases how with ⟨rfl, rfl⟩ | ⟨rfl, rfl⟩ | ⟨rfl, rfl⟩ | ⟨rfl, rfl⟩ | ⟨rfl, rfl⟩
      · rw [if_neg slash.symm]
        rfl
      · rw [if_neg newline.symm]
        rfl
      · rw [if_neg cr.symm]
        rfl
      · split_ifs with tab
        · rw [← tab]
          decide
        · rfl
      · rw [if_pos rfl]
    · rw [wrote, unescapeText_cons notSlash, ih, if_neg differs]

/-- The two lines of a backslash and a letter that mean something else are written only for the
delimiter. -/
theorem escapeTextField_eq_pair {c : Char} (letter : c = 'N' ∨ c = '.') (value : List Char) :
    escapeTextField d value = ['\\', c] ↔ d = c ∧ value = [c] := by
  constructor
  · intro same
    cases value with
    | nil => cases same
    | cons ch value =>
      obtain ⟨escaped, wrote, how⟩ | ⟨wrote, notSlash, -⟩ := escapeTextField_cons (d := d) ch value
      · rw [wrote] at same
        obtain ⟨rfl, rest⟩ := cons.inj (cons.inj same).2
        have empty : value = [] := by
          cases value with
          | nil => rfl
          | cons ch' value =>
            obtain ⟨_, wrote', -⟩ | ⟨wrote', -⟩ := escapeTextField_cons (d := d) ch' value <;>
              rw [wrote'] at rest <;> cases rest
        subst empty
        rcases how with ⟨-, no⟩ | ⟨-, no⟩ | ⟨-, no⟩ | ⟨-, no⟩ | ⟨rfl, same⟩
        all_goals first
          | exact ⟨same.symm, by rw [same]⟩
          | (rcases letter with is | is <;> rw [is] at no <;> exact absurd no (by decide))
      · rw [wrote] at same
        exact absurd (cons.inj same).1 notSlash
  · rintro ⟨rfl, rfl⟩
    rcases letter with rfl | rfl <;> rfl

variable {value : List Char}

theorem not_eol_of_mem_escape (newline : d ≠ '\n') (cr : d ≠ '\r') {c : Char}
    (mem : c ∈ escapeTextField d value) : c ≠ '\n' ∧ c ≠ '\r' := by
  induction value with
  | nil => cases mem
  | cons ch value ih =>
    rcases escapeTextField_cons (d := d) ch value with
      ⟨escaped, wrote, how⟩ | ⟨wrote, -, notNewline, notCr, -⟩
    · rw [wrote] at mem
      rcases mem with _ | ⟨_, mem⟩
      · decide
      rcases mem with _ | ⟨_, mem⟩
      · rcases how with ⟨-, rfl⟩ | ⟨-, rfl⟩ | ⟨-, rfl⟩ | ⟨-, rfl⟩ | ⟨-, rfl⟩
        · decide
        · decide
        · decide
        · decide
        · exact ⟨newline, cr⟩
      · exact ih mem
    · rw [wrote] at mem
      rcases mem with _ | ⟨_, mem⟩
      · exact ⟨notNewline, notCr⟩
      · exact ih mem

section Text

variable (accepted : options.Accepted) (text : options.format = .text)

include text in
theorem fieldText_of_text (value : List Char) :
    fieldText options (some value) = escapeTextField options.delimiter value := by
  simp [fieldText, formatField, text]

include accepted text

theorem nullString_of_text : options.nullString = ['\\', 'N'] := by
  rw [accepted.null, text]
  rfl

/-- A field of either kind is one token. -/
theorem parseTextFieldsFrom_fieldText (field : Field) (rest : List Char) :
    parseTextFieldsFrom options [] (fieldText options field ++ rest) =
      parseTextFieldsFrom options (fieldText options field) rest := by
  cases field with
  | none =>
    rw [fieldText, nullString_of_text accepted text]
    exact parseTextFieldsFrom_escaped [] 'N' rest
  | some value =>
    rw [fieldText_of_text text]
    exact parseTextFieldsFrom_escape value [] rest

theorem not_eol_of_mem_fieldText {field : Field} {c : Char} (mem : c ∈ fieldText options field) :
    c ≠ '\n' ∧ c ≠ '\r' := by
  cases field with
  | none =>
    rw [fieldText, nullString_of_text accepted text] at mem
    simp only [mem_cons, not_mem_nil, or_false] at mem
    rcases mem with rfl | rfl <;> decide
  | some value =>
    rw [fieldText_of_text text] at mem
    exact not_eol_of_mem_escape accepted.delimiter.2.1 accepted.delimiter.2.2 mem

variable {fields : List Field}

theorem not_eol_of_mem_formatFields {c : Char}
    (mem : c ∈ formatFields options fields) : c ≠ '\n' ∧ c ≠ '\r' := by
  induction fields using formatFields.induct with
  | case1 => cases mem
  | case2 field => exact not_eol_of_mem_fieldText accepted text mem
  | case3 field fields notNil ih =>
    rw [formatFields] at mem
    · rcases mem_append.mp mem with mem | mem
      · exact not_eol_of_mem_fieldText accepted text mem
      rcases mem with _ | ⟨_, mem⟩
      · exact ⟨accepted.delimiter.2.1, accepted.delimiter.2.2⟩
      · exact ih mem
    · exact notNil

theorem textToken_fieldText (field : Field) :
    textToken options (fieldText options field) = field ↔ options.Legible field := by
  cases field with
  | none => simp [fieldText, textToken, CopyOptions.Legible]
  | some value =>
    obtain ⟨slash, newline, cr⟩ := accepted.delimiter
    have null := escapeTextField_eq_pair (d := options.delimiter) (.inl rfl) value
    rw [fieldText_of_text text, textToken, nullString_of_text accepted text,
      unescapeText_escape slash newline cr]
    simp only [CopyOptions.Legible, text, true_implies]
    have letters : value.map (fun ch => if ch = options.delimiter then unescaped options.delimiter
        else ch) = value ↔ (options.delimiter ∈ escapeLetters → options.delimiter ∉ value) := by
      constructor
      · intro same letter mem
        have fixed := map_eq_self_iff.mp same _ mem
        rw [if_pos rfl, unescaped_eq_self] at fixed
        exact fixed letter
      · intro free
        refine map_eq_self_iff.mpr fun ch mem => ?_
        split_ifs with at_
        · subst at_
          exact unescaped_eq_self.mpr fun letter => free letter mem
        · rfl
    split_ifs with same
    · simp [null.mp same]
    · rw [some_inj, letters]
      exact ⟨fun free => ⟨free, fun isN isValue => same (null.mpr ⟨isN, isValue⟩)⟩, And.left⟩

/-- The line of a row is split into its fields. -/
theorem parseTextFields_formatFields (some : fields ≠ []) :
    parseTextFields options (formatFields options fields) =
      fields.map fun field => textToken options (fieldText options field) := by
  unfold parseTextFields
  induction fields using formatFields.induct with
  | case1 => exact absurd rfl some
  | case2 field =>
    have one := parseTextFieldsFrom_fieldText accepted text field []
    rw [append_nil] at one
    rw [formatFields, one, parseTextFieldsFrom]
    rfl
  | case3 field fields notNil ih =>
    rw [formatFields]
    · rw [parseTextFieldsFrom_fieldText accepted text, parseTextFieldsFrom_cons accepted.delimiter.1,
        if_pos rfl, ih notNil]
      rfl
    · exact notNil

theorem formatFields_eq_endMarker :
    formatFields options fields = ['\\', '.'] ↔ options.LikeMarker fields := by
  have null := nullString_of_text accepted text
  constructor
  · intro same
    have ne : fields ≠ [] := by
      rintro rfl
      cases same
    have parsed := parseTextFields_formatFields accepted text ne
    rw [same, parseTextFields, parseTextFieldsFrom_escaped, parseTextFieldsFrom] at parsed
    obtain ⟨field, rfl⟩ := length_eq_one_iff.mp (by simpa using congrArg length parsed.symm)
    cases field with
    | none =>
      rw [formatFields, fieldText, null] at same
      exact absurd same (by decide)
    | some value =>
      rw [formatFields, fieldText_of_text text] at same
      obtain ⟨dot, rfl⟩ := (escapeTextField_eq_pair (.inr rfl) value).mp same
      exact ⟨text, dot, rfl⟩
  · rintro ⟨-, dot, rfl⟩
    rw [formatFields, fieldText_of_text text]
    exact (escapeTextField_eq_pair (.inr rfl) _).mpr ⟨dot, rfl⟩

end Text

theorem splitNewline_append {body : List Char} (none : '\n' ∉ body) (rest : List Char) :
    splitNewline (body ++ '\n' :: rest) = some (body, rest) := by
  induction body with
  | nil => simp [splitNewline]
  | cons ch body ih =>
    obtain ⟨differs, none⟩ := not_or.mp (mem_cons.not.mp none)
    rw [cons_append, splitNewline, if_neg (Ne.symm differs), ih none]
    rfl

theorem splitNewline_eq_none {body : List Char} (without : '\n' ∉ body) : splitNewline body = none := by
  induction body with
  | nil => rfl
  | cons ch body ih =>
    obtain ⟨differs, without⟩ := not_or.mp (mem_cons.not.mp without)
    rw [splitNewline, if_neg (Ne.symm differs), ih without]
    rfl

theorem stripCr_eq_self {line : List Char} (last : line.getLast? ≠ some '\r') : stripCr line = line :=
  if_neg last

/-! ### The CSV format -/

/-- A scan that goes on after some characters. -/
def afterScan (before : List Char) : Bool ⊕ (List Char × List Char) → Bool ⊕ (List Char × List Char) :=
  Sum.map id fun split => (before ++ split.1, split.2)

theorem afterScan_afterScan (first snd : List Char) (scan : Bool ⊕ (List Char × List Char)) :
    afterScan first (afterScan snd scan) = afterScan (first ++ snd) scan := by
  cases scan <;> simp [afterScan]

/-- The characters between quotes stay between quotes, and the closing quote ends them. -/
theorem scanCsv_escaped (value : List Char) {rest : List Char} (closed : rest.head? ≠ some options.quote) :
    scanCsv options true (csvEscaped options value ++ options.quote :: rest) =
      afterScan (csvEscaped options value ++ [options.quote]) (scanCsv options false rest) := by
  induction value with
  | nil =>
    cases rest with
    | nil => simp [csvEscaped, scanCsv, afterScan]
    | cons next rest =>
      have differs : next ≠ options.quote := fun same => closed (congrArg some same)
      simp [csvEscaped, scanCsv.eq_def options true, differs, afterScan]
  | cons ch value ih =>
    rw [csvEscaped]
    split_ifs with special
    · rw [append_assoc, cons_append, cons_append, nil_append, scanCsv.eq_def]
      by_cases same : options.escape = options.quote
      · have isQuote : ch = options.quote := special.elim id fun isEscape => isEscape.trans same
        simp only [same, isQuote, if_true, and_self, ih]
        exact afterScan_afterScan [options.quote, options.quote] _ _
      · simp only [same, if_true, if_false, not_false_eq_true, ne_eq, and_self, ih]
        exact afterScan_afterScan [options.escape, ch] _ _
    rw [append_assoc, cons_append, nil_append, scanCsv.eq_def]
    obtain ⟨notQuote, notEscape⟩ := not_or.mp special
    simp only [notQuote, notEscape, if_true, if_false, false_and, ih]
    exact afterScan_afterScan [ch] _ _

theorem scanCsv_cons (quote : ch ≠ options.quote) (newline : ch ≠ '\n') (chars : List Char) :
    scanCsv options false (ch :: chars) = afterScan [ch] (scanCsv options false chars) := by
  rw [scanCsv.eq_def]
  simp only [quote, newline, if_false, Bool.false_eq_true]
  rfl

theorem scanCsv_unquoted (plain : ∀ c ∈ value, c ≠ options.quote ∧ c ≠ '\n') (rest : List Char) :
    scanCsv options false (value ++ rest) = afterScan value (scanCsv options false rest) := by
  induction value with
  | nil => cases h : scanCsv options false rest <;> simp [afterScan, h]
  | cons ch value ih =>
    obtain ⟨quote, newline⟩ := plain ch (.head _)
    rw [cons_append, scanCsv_cons quote newline, ih fun c mem => plain c (.tail _ mem),
      afterScan_afterScan]
    rfl

theorem afterScan_eq_inr (prior : List Char) {content rest : List Char} {scan : Bool ⊕ (List Char × List Char)}
    (found : afterScan prior scan = .inr (content, rest)) :
    ∃ content', scan = .inr (content', rest) ∧ content = prior ++ content' := by
  cases scan with
  | inl inQuote => cases found
  | inr split =>
    cases found
    exact ⟨_, rfl, rfl⟩

/-- What a complete record is does not depend on what follows it. -/
theorem scanCsv_append {inQuote : Bool} {text content rest : List Char}
    (found : scanCsv options inQuote text = .inr (content, rest)) (more : List Char) :
    scanCsv options inQuote (text ++ more) = .inr (content, rest ++ more) := by
  fun_induction scanCsv options inQuote text generalizing content with
  | case1 | case2 | case5 => cases found
  | case3 next value doubled ih =>
    obtain ⟨content, inner, rfl⟩ := afterScan_eq_inr [options.quote, next] found
    rw [cons_append, cons_append, scanCsv.eq_def]
    simp only [doubled, if_true, and_self, ih inner, Sum.map_inr]
    rfl
  | case4 next value single ih =>
    obtain ⟨content, inner, rfl⟩ := afterScan_eq_inr [options.quote] found
    have after := ih inner
    rw [cons_append] at after
    rw [cons_append, cons_append, scanCsv.eq_def]
    simp only [single, if_true, if_false, after, Sum.map_inr]
    rfl
  | case6 ch notQuote escapes next value ih =>
    obtain ⟨content, inner, rfl⟩ := afterScan_eq_inr [ch, next] found
    rw [cons_append, cons_append, scanCsv.eq_def]
    simp only [if_neg notQuote, if_pos escapes, if_true, ih inner, Sum.map_inr]
    rfl
  | case7 ch value notQuote plain ih =>
    obtain ⟨content, inner, rfl⟩ := afterScan_eq_inr [ch] found
    rw [cons_append, scanCsv.eq_def]
    simp only [notQuote, plain, if_true, if_false, ih inner, Sum.map_inr]
    rfl
  | case8 inQuote value outside ih =>
    obtain ⟨content, inner, rfl⟩ := afterScan_eq_inr [options.quote] found
    rw [cons_append, scanCsv.eq_def]
    simp only [outside, if_true, ih inner, Sum.map_inr]
    rfl
  | case9 inQuote value outside notQuote =>
    cases found
    rw [cons_append, scanCsv.eq_def]
    simp [outside, notQuote]
  | case10 inQuote ch value outside notQuote notNewline ih =>
    obtain ⟨content, inner, rfl⟩ := afterScan_eq_inr [ch] found
    rw [cons_append, scanCsv.eq_def]
    simp only [outside, notQuote, notNewline, if_false, ih inner, Sum.map_inr]
    rfl

/-- The quoted characters are read back. -/
theorem parseCsvFieldsFrom_escaped (value read : List Char) {rest : List Char}
    (closed : rest.head? ≠ some options.quote) :
    parseCsvFieldsFrom options (.quoted read) (csvEscaped options value ++ options.quote :: rest) =
      parseCsvFieldsFrom options (.closed (read ++ value)) rest := by
  induction value generalizing read with
  | nil =>
    cases rest with
    | nil => simp [csvEscaped, parseCsvFieldsFrom]
    | cons next rest =>
      have differs : next ≠ options.quote := fun same => closed (congrArg some same)
      simp [csvEscaped, parseCsvFieldsFrom.eq_def options (.quoted read), differs]
  | cons ch value ih =>
    rw [csvEscaped]
    split_ifs with special
    · rw [append_assoc, cons_append, cons_append, nil_append, parseCsvFieldsFrom.eq_def]
      by_cases same : options.escape = options.quote
      · have isQuote : ch = options.quote := special.elim id fun isEscape => isEscape.trans same
        simp only [same, isQuote, if_true, and_self, ih]
        simp
      · simp only [same, if_true, if_false, ih]
        simp
    rw [append_assoc, cons_append, nil_append, parseCsvFieldsFrom.eq_def]
    obtain ⟨notQuote, notEscape⟩ := not_or.mp special
    simp only [notQuote, notEscape, if_false, ih]
    simp

theorem parseCsvFieldsFrom_unquoted (none : options.delimiter ∉ value)
    (read rest : List Char) : parseCsvFieldsFrom options (.unquoted read) (value ++ rest) =
      parseCsvFieldsFrom options (.unquoted (read ++ value)) rest := by
  induction value generalizing read with
  | nil => simp
  | cons ch value ih =>
    obtain ⟨differs, none⟩ := not_or.mp (mem_cons.not.mp none)
    rw [cons_append, parseCsvFieldsFrom.eq_def]
    simp only [Ne.symm differs, if_false, ih none]
    simp

theorem not_needsQuote (plain : needsQuote options value = false) :
    value ≠ options.nullString ∧ options.delimiter ∉ value ∧ options.quote ∉ value ∧ '\n' ∉ value ∧
      '\r' ∉ value := by
  simpa [needsQuote, and_assoc] using plain

section Csv

variable (accepted : options.Accepted) (csv : options.format = .csv)

include accepted csv

theorem nullString_of_csv : options.nullString = [] := by
  rw [accepted.null, csv]
  rfl

theorem head?_delimiter (rest : List Char) : (options.delimiter :: rest).head? ≠ some options.quote :=
  fun same => (accepted.quote csv).2.2 (some.inj same)

/-- After the text of a field the loop is at the end of that field. -/
theorem exists_state_fieldText (field : Field) : ∃ state, (∀ rest : List Char,
    rest.head? ≠ some options.quote → parseCsvFieldsFrom options .start (fieldText options field ++ rest) =
      parseCsvFieldsFrom options state rest) ∧ parseCsvFieldsFrom options state [] = .ok [field] ∧
    ∀ rest, parseCsvFieldsFrom options state (options.delimiter :: rest) =
      (do return field :: (← parseCsvFieldsFrom options .start rest)) := by
  have null := nullString_of_csv accepted csv
  obtain ⟨-, -, differ⟩ := accepted.quote csv
  cases field with
  | none =>
    refine ⟨.start, fun rest _ => ?_, ?_, fun rest => ?_⟩
    · rw [fieldText, null, nil_append]
    · simp [parseCsvFieldsFrom, csvToken, null]
    · rw [parseCsvFieldsFrom.eq_def]
      simp [differ, csvToken, null]
  | some value =>
    simp only [fieldText, formatField, csv, csvField]
    split_ifs with quoted
    · refine ⟨.closed value, fun rest closed => ?_, rfl, fun rest => ?_⟩
      · rw [append_assoc, cons_append, singleton_append, parseCsvFieldsFrom.eq_def]
        simp only [if_true]
        exact parseCsvFieldsFrom_escaped value [] closed
      · rw [parseCsvFieldsFrom.eq_def]
        exact if_pos rfl
    obtain ⟨notNull, noDelimiter, noQuote, -, -⟩ := not_needsQuote (Bool.not_eq_true _ ▸ quoted)
    refine ⟨.unquoted value, fun rest _ => ?_, ?_, fun rest => ?_⟩
    · cases value with
      | nil => exact absurd null.symm notNull
      | cons ch value =>
        obtain ⟨notDelimiter, noDelimiter⟩ := not_or.mp (mem_cons.not.mp noDelimiter)
        obtain ⟨notQuote, -⟩ := not_or.mp (mem_cons.not.mp noQuote)
        rw [cons_append, parseCsvFieldsFrom.eq_def]
        simp only [Ne.symm notQuote, Ne.symm notDelimiter, if_false]
        exact parseCsvFieldsFrom_unquoted noDelimiter [ch] rest
    · simp [parseCsvFieldsFrom, csvToken, notNull]
    · rw [parseCsvFieldsFrom.eq_def]
      simp [csvToken, notNull]

theorem parseCsvFields_formatFields {fields : List Field} (some : fields ≠ []) :
    parseCsvFields options (formatFields options fields) = .ok fields := by
  unfold parseCsvFields
  induction fields using formatFields.induct with
  | case1 => exact absurd rfl some
  | case2 field =>
    obtain ⟨state, reads, last, -⟩ := exists_state_fieldText accepted csv field
    have read := reads [] nofun
    rw [append_nil] at read
    rw [formatFields, read, last]
  | case3 field fields notNil ih =>
    obtain ⟨state, reads, -, next⟩ := exists_state_fieldText accepted csv field
    rw [formatFields]
    · rw [reads _ (head?_delimiter accepted csv _), next, ih notNil]
      rfl
    · exact notNil

theorem scanCsv_fieldText (field : Field) {rest : List Char} (closed : rest.head? ≠ some options.quote) :
    scanCsv options false (fieldText options field ++ rest) =
      afterScan (fieldText options field) (scanCsv options false rest) := by
  cases field with
  | none =>
    rw [fieldText, nullString_of_csv accepted csv]
    exact scanCsv_unquoted (fun _ mem => absurd mem not_mem_nil) rest
  | some value =>
    simp only [fieldText, formatField, csv, csvField]
    split_ifs with quoted
    · rw [append_assoc, cons_append, singleton_append, scanCsv.eq_def]
      simp only [if_true, if_false, Bool.false_eq_true, scanCsv_escaped value closed]
      exact afterScan_afterScan [options.quote] _ _
    · obtain ⟨-, -, noQuote, noNewline, -⟩ := not_needsQuote (Bool.not_eq_true _ ▸ quoted)
      exact scanCsv_unquoted (fun c mem => ⟨fun same => noQuote (same ▸ mem),
        fun same => noNewline (same ▸ mem)⟩) rest

/-- A record ends where its fields end. -/
theorem scanCsv_formatFields (fields : List Field) {rest : List Char}
    (closed : rest.head? ≠ some options.quote) :
    scanCsv options false (formatFields options fields ++ rest) =
      afterScan (formatFields options fields) (scanCsv options false rest) := by
  obtain ⟨-, -, differ⟩ := accepted.quote csv
  induction fields using formatFields.induct with
  | case1 => exact scanCsv_unquoted (fun _ mem => absurd mem not_mem_nil) rest
  | case2 field => exact scanCsv_fieldText accepted csv field closed
  | case3 field fields notNil ih =>
    rw [formatFields]
    · rw [append_assoc, cons_append,
        scanCsv_fieldText accepted csv field (head?_delimiter accepted csv _),
        scanCsv_cons differ accepted.delimiter.2.1, ih, afterScan_afterScan, afterScan_afterScan,
        append_assoc, singleton_append]
    · exact notNil

theorem getLast?_fieldText (field : Field) : (fieldText options field).getLast? ≠ some '\r' := by
  cases field with
  | none =>
    rw [fieldText, nullString_of_csv accepted csv]
    nofun
  | some value =>
    simp only [fieldText, formatField, csv, csvField]
    split_ifs with quoted
    · rw [getLast?_concat]
      exact fun same => (accepted.quote csv).2.1 (some.inj same)
    · obtain ⟨-, -, -, -, noCr⟩ := not_needsQuote (Bool.not_eq_true _ ▸ quoted)
      exact fun last => noCr (mem_of_getLast? last)

theorem getLast?_formatFields (fields : List Field) :
    (formatFields options fields).getLast? ≠ some '\r' := by
  induction fields using formatFields.induct with
  | case1 => nofun
  | case2 field => exact getLast?_fieldText accepted csv field
  | case3 field fields notNil ih =>
    rw [formatFields]
    · rw [getLast?_append, getLast?_cons, some_or]
      cases last : (formatFields options fields).getLast? with
      | none => exact fun same => accepted.delimiter.2.2 (some.inj same)
      | some c => exact fun same => ih (last.trans same)
    · exact notNil

end Csv

/-! ### Records -/

/-- The record that the line of a row is read as. -/
def readBack (options : CopyOptions) (fields : List Field) : CopyRecord :=
  match options.format with
  | .text => textRecord options (formatFields options fields)
  | .csv => .row (if fields = [] then [none] else fields)

section Records

variable (accepted : options.Accepted)

include accepted

/-- One line is one record, whatever follows it. -/
theorem nextRecord_formatRow (fields : List Field) (rest : List Char) (atEof : Bool) :
    nextRecord options (formatRow options fields ++ rest) atEof =
      .ok (.some (readBack options fields, rest)) := by
  rw [formatRow, append_assoc, singleton_append]
  cases format : options.format with
  | text =>
    have noEol {c : Char} (mem : c ∈ formatFields options fields) :=
      not_eol_of_mem_formatFields accepted format mem
    have noCr : (formatFields options fields).getLast? ≠ .some '\r' := fun last =>
      (noEol (mem_of_getLast? last)).2 rfl
    simp only [nextRecord, readBack, format, nextTextRecord,
      splitNewline_append (fun mem => (noEol mem).1 rfl), stripCr_eq_self noCr]
  | csv =>
    obtain ⟨newline, -, -⟩ := accepted.quote format
    have closed : ('\n' :: rest).head? ≠ .some options.quote := fun same =>
      newline (Option.some.inj same).symm
    have ends : scanCsv options false ('\n' :: rest) = .inr ([], rest) := by
      rw [scanCsv.eq_def]
      simp only [newline.symm, Bool.false_eq_true, if_true, if_false]
    have scanned := scanCsv_formatFields accepted format fields closed
    rw [ends] at scanned
    simp only [afterScan, Sum.map_inr, append_nil] at scanned
    have parsed : parseCsvFields options (formatFields options fields) =
        .ok (if fields = [] then [none] else fields) := by
      split_ifs with empty
      · subst empty
        simp [formatFields, parseCsvFields, parseCsvFieldsFrom, csvToken,
          nullString_of_csv accepted format]
      · exact parseCsvFields_formatFields accepted format empty
    simp only [nextRecord, readBack, format, nextCsvRecord, scanned,
      stripCr_eq_self (getLast?_formatFields accepted format fields), parsed]
    rfl

/-- The rows that are read back. -/
theorem readBack_eq_row {fields : List Field} : readBack options fields = .row fields ↔
    fields ≠ [] ∧ (∀ field ∈ fields, options.Legible field) ∧ ¬options.LikeMarker fields := by
  unfold readBack
  split
  · rename_i text
    rw [textRecord, ← formatFields_eq_endMarker accepted text]
    split_ifs with marker
    · simp [marker]
    · simp only [CopyRecord.row.injEq, marker, not_false_eq_true, and_true]
      rcases eq_or_ne fields [] with rfl | ne
      · simp [formatFields, parseTextFields, parseTextFieldsFrom]
      · rw [parseTextFields_formatFields accepted text ne, map_eq_self_iff]
        simp only [textToken_fieldText accepted text, ne, ne_eq, not_false_eq_true, true_and]
  · rename_i csv
    have legible : ∀ field ∈ fields, options.Legible field := by
      rintro (_ | value) -
      · trivial
      · exact fun text => nomatch csv.symm.trans text
    have noMarker : ¬options.LikeMarker fields := fun like => nomatch csv.symm.trans like.1
    rw [CopyRecord.row.injEq, and_iff_left (show _ ∧ _ from ⟨legible, noMarker⟩)]
    split_ifs with empty <;> simp [empty]

theorem readBack_eq_endMarker {fields : List Field} :
    readBack options fields = .endMarker ↔ options.LikeMarker fields := by
  unfold readBack
  split
  · rename_i text
    rw [textRecord, ← formatFields_eq_endMarker accepted text]
    split_ifs with marker <;> simp [marker]
  · rename_i csv
    exact ⟨nofun, fun like => nomatch csv.symm.trans like.1⟩

/-- The beginning of a row is not a record. -/
theorem nextRecord_of_incomplete {fields : List Field} {text gone : List Char}
    (incomplete : formatRow options fields = text ++ gone) (ne : gone ≠ []) :
    nextRecord options text false = .ok none := by
  -- the newline of the row is missing, and so is possibly more
  obtain ⟨last, rfl⟩ : ∃ last, gone = last ++ ['\n'] := by
    obtain ⟨last, c, rfl⟩ := eq_nil_or_concat gone |>.resolve_left ne
    rw [formatRow, concat_eq_append, ← append_assoc] at incomplete
    obtain ⟨-, same⟩ := append_inj' incomplete rfl
    exact ⟨last, by rw [concat_eq_append, ← same]⟩
  rw [formatRow, ← append_assoc] at incomplete
  have body := append_cancel_right incomplete
  cases format : options.format with
  | text =>
    have noNewline : '\n' ∉ text := fun mem => by
      have inBody : '\n' ∈ formatFields options fields := body ▸ mem_append_left last mem
      exact (not_eol_of_mem_formatFields accepted format inBody).1 rfl
    simp [nextRecord, format, nextTextRecord, splitNewline_eq_none noNewline]
  | csv =>
    have whole := scanCsv_formatFields accepted format fields
      (show ([] : List Char).head? ≠ some options.quote from nofun)
    rw [append_nil, body] at whole
    cases scanned : scanCsv options false text with
    | inl inQuote => simp [nextRecord, format, nextCsvRecord, scanned]
    | inr split =>
      rw [scanCsv_append scanned last] at whole
      cases whole

end Records

end Formats

/-! ### The stream -/

namespace CopyParser

theorem nextRecord_nil (options : CopyOptions) (atEof : Bool) : nextRecord options [] atEof = .ok none := by
  cases format : options.format <;> simp [nextRecord, format, nextTextRecord, nextCsvRecord, splitNewline,
    scanCsv]

/-- A text without a complete record stays in the buffer. -/
theorem extractFrom_none {parser : CopyParser} {atEof : Bool} {text : List Char}
    (none : nextRecord parser.options text atEof = .ok none) (fuel : Nat) :
    parser.extractFrom atEof fuel text = .ok ([], { parser with buffer := text }) := by
  cases fuel with
  | zero => rfl
  | succ fuel => simp [extractFrom, none, pure, Except.pure]

/-- Where a text that begins some rows ends: within the first one, or after it. -/
theorem split_first {first rest text more : List Char} (wire : first ++ rest = text ++ more) :
    (∃ gone, first = text ++ gone ∧ gone ≠ [] ∧ more = gone ++ rest) ∨
      ∃ text', text = first ++ text' ∧ rest = text' ++ more := by
  rcases append_eq_append_iff.mp wire with ⟨text', rfl, after⟩ | ⟨gone, rfl, after⟩
  · exact .inr ⟨text', rfl, after⟩
  rcases eq_or_ne gone [] with rfl | ne
  · exact .inr ⟨[], by simp, by simpa using after.symm⟩
  · exact .inl ⟨gone, rfl, ne, after⟩

theorem length_formatRow (options : CopyOptions) (fields : List Field) :
    0 < (formatRow options fields).length := by
  simp [formatRow]

/-- What the parser makes of the records of the whole input. -/
def collect (columns : Nat) : Bool → List CopyRecord → Result (List (List Field))
  | _, [] => .ok []
  | _, .endMarker :: records => if records = [] then .ok [] else .error afterMarker
  | true, .row _ :: records => collect columns false records
  | false, .row fields :: records => do
      let row ← fieldsToRow columns fields
      let rows ← collect columns false records
      .ok (row :: rows)

section Lines

variable {options : CopyOptions} {columns : Nat} {lines : List (List Field)} {skip : Bool}

/-- How far `extract` gets with the beginning of some lines, when `more` follows. -/
inductive Extracted (options : CopyOptions) (columns : Nat) (lines : List (List Field))
    (skip : Bool) (more : List Char) (atEof : Bool) :
    Result (List (List Field) × CopyParser) → Prop where
  | failed {e : DbError} (all : collect columns skip (lines.map (readBack options)) = .error e) :
      Extracted options columns lines skip more atEof (.error e)
  | going {done : List (List Field)} (rest : List (List Field)) {left : List Char} {skip' : Bool}
      (all : collect columns skip (lines.map (readBack options)) =
        (do return done ++ (← collect columns skip' (rest.map (readBack options)))))
      (wire : rest.flatMap (formatRow options) = left ++ more)
      (ends : atEof = true → rest = [] ∧ left = []) :
      Extracted options columns lines skip more atEof
        (.ok (done, ⟨options, columns, left, skip', false⟩))
  | marked {done : List (List Field)} {skip' : Bool}
      (all : collect columns skip (lines.map (readBack options)) =
        if more = [] then .ok done else .error afterMarker) :
      Extracted options columns lines skip more atEof
        (.ok (done, ⟨options, columns, [], skip', true⟩))

variable {buffer text more : List Char}

section Extracted

variable {line fields : List Field} {atEof : Bool} {out : Result (List (List Field) × CopyParser)}

/-- The header line is passed over. -/
theorem Extracted.header (next : Extracted options columns lines false more atEof out)
    (read : readBack options line = .row fields) :
    Extracted options columns (line :: lines) true more atEof out := by
  cases next with
  | failed all => exact .failed (by rw [map_cons, read, collect, all])
  | going rest all wire ends => exact .going rest (by rw [map_cons, read, collect, all]) wire ends
  | marked all => exact .marked (by rw [map_cons, read, collect, all])

/-- A row of the right width comes before those of the other lines. -/
theorem Extracted.cons {row : List Field} (next : Extracted options columns lines false more atEof out)
    (read : readBack options line = .row fields) (typed : fieldsToRow columns fields = .ok row) :
    Extracted options columns (line :: lines) false more atEof
      (do let (rows, parser) ← out; return (row :: rows, parser)) := by
  cases next with
  | failed all => exact .failed (by rw [map_cons, read, collect, typed, all]; rfl)
  | going rest all wire ends =>
    refine .going rest ?_ wire ends
    rw [map_cons, read, collect, typed, all]
    cases collect columns _ _ <;> rfl
  | marked all =>
    refine .marked ?_
    rw [map_cons, read, collect, typed, all]
    split_ifs <;> rfl

end Extracted

/-- Only an empty list of lines is written as nothing. -/
theorem flatMap_formatRow_eq_nil : lines.flatMap (formatRow options) = [] ↔ lines = [] := by
  cases lines with
  | nil => simp
  | cons line lines => simp [formatRow]

variable (accepted : options.Accepted)

include accepted

/-- From the beginning of some lines the parser takes those that are complete. -/
theorem extractFrom_lines (old : List Char)
    (wire : lines.flatMap (formatRow options) = text ++ more) {atEof : Bool}
    (atEnd : atEof = true → more = []) {fuel : Nat} (big : text.length ≤ fuel) :
    Extracted options columns lines skip more atEof
      ((mk options columns old skip false).extractFrom atEof fuel text) := by
  induction lines generalizing text fuel skip with
  | nil =>
    obtain ⟨rfl, rfl⟩ := append_eq_nil_iff.mp wire.symm
    rw [extractFrom_none (nextRecord_nil options atEof) fuel]
    exact .going [] rfl rfl fun _ => ⟨rfl, rfl⟩
  | cons line lines ih =>
    rw [flatMap_cons] at wire
    rcases split_first wire with ⟨gone, incomplete, isMissing, rfl⟩ | ⟨text', rfl, wire'⟩
    · have partly : atEof = false := by
        by_contra eof
        exact isMissing (append_eq_nil_iff.mp (atEnd (Bool.not_eq_false _ ▸ eof))).1
      subst partly
      rw [extractFrom_none (nextRecord_of_incomplete accepted incomplete isMissing) fuel]
      refine .going (line :: lines) ?_ (by rw [flatMap_cons, wire]) nofun
      cases collect columns skip _ <;> rfl
    have taken := length_formatRow options line
    rw [length_append] at big
    obtain ⟨fuel, rfl⟩ : ∃ n, fuel = n + 1 := ⟨fuel - 1, by omega⟩
    have shorter : text'.length ≤ fuel := by omega
    simp only [extractFrom, nextRecord_formatRow accepted line text' atEof, ok_bind]
    cases read : readBack options line with
    | endMarker =>
      dsimp only
      have lost : lines.map (readBack options) = [] ↔ text' ++ more = [] := by
        rw [← wire', flatMap_formatRow_eq_nil, map_eq_nil_iff]
      split_ifs with after
      · refine .failed ?_
        rw [map_cons, read, collect, if_neg fun none => after (append_eq_nil_iff.mp (lost.mp none)).1]
      · rw [not_not] at after
        subst after
        refine .marked ?_
        rw [map_cons, read, collect]
        simp only [lost, nil_append]
    | row fields =>
      dsimp only
      cases skip with
      | true =>
        rw [if_pos rfl]
        exact (ih wire' shorter).header read
      | false =>
        rw [if_neg Bool.false_ne_true]
        cases typed : fieldsToRow columns fields with
        | error e => exact .failed (by rw [map_cons, read, collect, typed]; rfl)
        | ok row =>
          rw [ok_bind]
          exact (ih wire' shorter).cons read typed

omit accepted in
/-- After the end marker nothing but empty chunks may come. -/
theorem run_marked (chunks : List (List Char)) :
    (mk options columns [] skip true).run chunks =
      if chunks.flatten = [] then .ok [] else .error afterMarker := by
  induction chunks with
  | nil =>
    rw [run, flatten_nil, if_pos rfl]
    rfl
  | cons chunk chunks ih =>
    rw [run, push, if_pos rfl]
    rcases eq_or_ne chunk [] with rfl | ne
    · rw [if_pos rfl, ok_bind]
      dsimp only
      rw [ih, flatten_cons, nil_append]
      split_ifs <;> rfl
    · simp [ne]

/-- **The chunks do not matter.** The parser returns what the records of the lines give. -/
theorem run_eq_collect {chunks : List (List Char)}
    (wire : lines.flatMap (formatRow options) = buffer ++ chunks.flatten) :
    (mk options columns buffer skip false).run chunks =
      collect columns skip (lines.map (readBack options)) := by
  induction chunks generalizing buffer lines skip with
  | nil =>
    have read : Extracted options columns lines skip _ true _ :=
      extractFrom_lines accepted buffer wire (fun _ => rfl) le_rfl
    rw [run, finish, extract]
    generalize (mk options columns buffer skip false).extractFrom true buffer.length buffer = out
      at read
    cases read with
    | failed all =>
      rw [all]
      rfl
    | going rest all wire ends =>
      obtain ⟨rfl, rfl⟩ := ends rfl
      rw [all]
      simp [collect, pure, Except.pure]
    | marked all =>
      rw [all]
      rfl
  | cons chunk chunks ih =>
    rw [flatten_cons, ← append_assoc] at wire
    have read : Extracted options columns lines skip _ false _ :=
      extractFrom_lines accepted (buffer ++ chunk) wire (absurd · Bool.false_ne_true) le_rfl
    rw [run, push, if_neg Bool.false_ne_true, extract]
    generalize (mk options columns (buffer ++ chunk) skip false).extractFrom false
      (buffer ++ chunk).length (buffer ++ chunk) = out at read
    cases read with
    | failed all =>
      rw [all]
      rfl
    | going rest all wire ends =>
      rw [all, ← ih wire]
      rfl
    | marked all =>
      show (do return _ ++ (← (mk options columns [] _ true).run chunks)) = _
      rw [all, run_marked]
      split_ifs
      · exact congrArg Except.ok (append_nil _)
      · rfl

end Lines

/-- The records of some rows give these rows if each is read back. -/
theorem collect_rows {columns : Nat} {options : CopyOptions} {rows : List (List Field)}
    (lengths : ∀ row ∈ rows, row.length = columns) :
    collect columns false (rows.map (readBack options)) = .ok rows ↔
      ∀ row ∈ rows, readBack options row = .row row := by
  induction rows with
  | nil => simp [collect]
  | cons row rows ih =>
    have next := ih fun row mem => lengths row (.tail _ mem)
    have length := lengths row (.head _)
    rw [map_cons, forall_mem_cons, ← next]
    cases read : readBack options row with
    | endMarker =>
      rw [collect]
      split_ifs <;> simp
    | row fields =>
      rw [collect, fieldsToRow, CopyRecord.row.injEq]
      split_ifs with differs
      · refine ⟨nofun, ?_⟩
        rintro ⟨rfl, -⟩
        exact absurd length differs
      · rw [ok_bind]
        cases collect columns false (rows.map (readBack options)) with
        | error e => simp
        | ok out => simp

/-- A header line is skipped unless it is taken for the end marker. -/
theorem collect_header {columns : Nat} {record : CopyRecord} {options : CopyOptions}
    {rows : List (List Field)} (lengths : ∀ row ∈ rows, row.length = columns) :
    collect columns true (record :: rows.map (readBack options)) = .ok rows ↔
      (rows ≠ [] → record ≠ .endMarker) ∧ ∀ row ∈ rows, readBack options row = .row row := by
  cases record with
  | row fields =>
    rw [collect, collect_rows lengths]
    simp
  | endMarker =>
    rw [collect]
    cases rows with
    | nil => simp
    | cons row rows => simp

end CopyParser

/-- The condition under which COPY output is read back: every row has a field, its fields are
legible, and no line is written like the end marker. A header that is written so only matters
when rows follow it. -/
def CopyOptions.Readable (options : CopyOptions) (names : List (List Char))
    (rows : List (List Field)) : Prop :=
  (options.header = true → rows ≠ [] → ¬options.LikeMarker (names.map some)) ∧
    ∀ row ∈ rows, row ≠ [] ∧ (∀ field ∈ row, options.Legible field) ∧ ¬options.LikeMarker row

/-- **COPY output is read back.** Under options that the parser of the statement accepts, the
rows that COPY TO writes, with or without a header line, come back from COPY FROM if and only if
they are readable, whatever the chunks. -/
theorem copy_round_trip {options : CopyOptions} (accepted : options.Accepted)
    (names : List (List Char)) {rows : List (List Field)}
    (lengths : ∀ row ∈ rows, row.length = names.length) {chunks : List (List Char)}
    (wire : chunks.flatten = copyTo options names rows) :
    copyFrom options names.length chunks = .ok rows ↔ options.Readable names rows := by
  unfold copyFrom CopyParser.new CopyOptions.Readable
  unfold copyTo formatHeader at wire
  simp only [← readBack_eq_row accepted]
  split_ifs at wire with header
  · have lines : (names.map some :: rows).flatMap (formatRow options) = [] ++ chunks.flatten := by
      rw [wire, flatMap_cons, nil_append]
    rw [header, run_eq_collect accepted lines, map_cons, collect_header lengths,
      ← readBack_eq_endMarker accepted]
    simp only [true_implies, ne_eq]
  · rw [Bool.not_eq_true] at header
    have lines : rows.flatMap (formatRow options) = [] ++ chunks.flatten := wire.symm
    rw [header, run_eq_collect accepted lines, collect_rows lengths]
    simp only [Bool.false_eq_true, false_implies, true_and]

/-- CSV with a header, in which quotes, escapes and newlines are data. -/
def semicolons : CopyOptions := ⟨.csv, ';', [], true, '|', '\\'⟩

theorem copy_round_trip_quoted : semicolons.Accepted ∧
    semicolons.Readable [['a'], ['b']] [[some ['|', '\n'], none]] ∧
    copyFrom semicolons 2 [['a', ';', 'b', '\n', '|', '\\'], ['|', '\n', '|', ';', '\n']] =
      .ok [[some ['|', '\n'], none]] := by
  have accepted : semicolons.Accepted := ⟨rfl, rfl⟩
  have readable : semicolons.Readable [['a'], ['b']] [[some ['|', '\n'], none]] := by
    simp [CopyOptions.Readable, CopyOptions.Legible, CopyOptions.LikeMarker, semicolons]
  exact ⟨accepted, readable,
    (copy_round_trip accepted [['a'], ['b']] (by decide) (by decide)).mpr readable⟩

/-- Three delimiters that validation accepts. A field `n` comes back as a newline, a field `N` as
NULL, and the row of a single dot is taken for the end marker. -/
theorem delimiter_read_as_escape : (CopyOptions.mk .text 'n' ['\\', 'N'] false '"' '"').Accepted ∧
    (CopyOptions.mk .text 'N' ['\\', 'N'] false '"' '"').Accepted ∧
    (CopyOptions.mk .text '.' ['\\', 'N'] false '"' '"').Accepted ∧
    copyFrom ⟨.text, 'n', ['\\', 'N'], false, '"', '"'⟩ 1
      [copyTo ⟨.text, 'n', ['\\', 'N'], false, '"', '"'⟩ [['a']] [[some ['n']]]] =
        .ok [[some ['\n']]] ∧ copyFrom ⟨.text, 'N', ['\\', 'N'], false, '"', '"'⟩ 1
      [copyTo ⟨.text, 'N', ['\\', 'N'], false, '"', '"'⟩ [['a']] [[some ['N']]]] = .ok [[none]] ∧
    copyFrom ⟨.text, '.', ['\\', 'N'], false, '"', '"'⟩ 1
      [copyTo ⟨.text, '.', ['\\', 'N'], false, '"', '"'⟩ [['a']] [[some ['.']]]] = .ok [] := by
  refine ⟨⟨rfl, rfl⟩, ⟨rfl, rfl⟩, ⟨rfl, rfl⟩, ?_, ?_, ?_⟩ <;> rfl

end Saguaro.Copy
