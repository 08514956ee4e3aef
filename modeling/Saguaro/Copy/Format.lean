/-
The text and CSV formats of COPY (`crates/executor/src/copy.rs`, the options in
`crates/common/src/copy.rs` and `crates/parser/src/convert/dml.rs`).

Three scanners have to agree with the writer: the one that finds the end of a record, the
one that splits the record into fields and the one that removes escapes. All columns are
text columns here, so a parsed field is its text. The bytes are the characters that they
encode: `extract` works on the longest valid prefix, and a chunk ends after any character.
-/

import Saguaro.Common.Error

namespace Saguaro.Copy

open Result

inductive CopyFormat where
  | text
  | csv
  deriving DecidableEq

structure CopyOptions where
  format : CopyFormat
  delimiter : Char
  nullString : List Char
  header : Bool
  /-- CSV only. -/
  quote : Char
  /-- CSV only. -/
  escape : Char

/-- `CopyOptions::defaults_for`. -/
def CopyOptions.defaultsFor : CopyFormat → CopyOptions
  | .text => ⟨.text, '\t', ['\\', 'N'], false, '"', '"'⟩
  | .csv => ⟨.csv, ',', [], false, '"', '"'⟩

def isEol (ch : Char) : Bool := ch == '\r' || ch == '\n'

def unsupported (message : String) : DbError := .parse .syntaxError message

def validateCopyOptions (options : CopyOptions) : Result Unit := do
  failIf (isEol options.delimiter = true)
    (unsupported "COPY DELIMITER may not be a carriage return or newline")
  failIf (options.delimiter = '\\') (unsupported "COPY DELIMITER may not be a backslash")
  if options.format = .csv then
    failIf (isEol options.quote = true)
      (unsupported "COPY QUOTE may not be a carriage return or newline")
    failIf (options.delimiter = options.quote)
      (unsupported "COPY DELIMITER and QUOTE must be different")

/-- A field of a record, `none` for NULL. -/
abbrev Field := Option (List Char)

def malformed (message : String) : DbError := .execute .badCopyFileFormat message

def invalidValue (message : String) : DbError := .execute .invalidTextRepresentation message

/-! ### Output -/

def escapeTextField (delimiter : Char) : List Char → List Char
  | [] => []
  | ch :: value =>
    (if ch = '\\' then ['\\', '\\']
      else if ch = '\n' then ['\\', 'n']
      else if ch = '\r' then ['\\', 'r']
      else if ch = '\t' then ['\\', 't']
      else if ch = delimiter then ['\\', ch]
      else [ch]) ++ escapeTextField delimiter value

section Options

variable (options : CopyOptions)

def needsQuote (value : List Char) : Bool :=
  value == options.nullString || value.contains options.delimiter || value.contains options.quote ||
    value.contains '\n' || value.contains '\r'

/-- The characters between the quotes of a CSV field. -/
def csvEscaped : List Char → List Char
  | [] => []
  | ch :: value =>
    (if ch = options.quote ∨ ch = options.escape then [options.escape, ch] else [ch]) ++
      csvEscaped value

def csvField (value : List Char) : List Char :=
  if needsQuote options value then options.quote :: csvEscaped options value ++ [options.quote]
  else value

def formatField (value : List Char) : List Char :=
  match options.format with
  | .text => escapeTextField options.delimiter value
  | .csv => csvField options value

def fieldText : Field → List Char
  | none => options.nullString
  | some value => formatField options value

/-- Fields with delimiters between them. -/
def formatFields : List Field → List Char
  | [] => []
  | [field] => fieldText options field
  | field :: fields => fieldText options field ++ options.delimiter :: formatFields fields

def formatRow (values : List Field) : List Char := formatFields options values ++ ['\n']

def formatHeader (names : List (List Char)) : List Char := formatRow options (names.map some)

/-- What COPY TO sends. -/
def copyTo (names : List (List Char)) (rows : List (List Field)) : List Char :=
  (if options.header then formatHeader options names else []) ++ rows.flatMap (formatRow options)

/-! ### The text format -/

inductive CopyRecord where
  | row (fields : List Field)
  | endMarker

def unescapeText : List Char → List Char
  | [] => []
  | ch :: chars =>
    if ch = '\\' then
      match chars with
      | [] => ['\\']
      | escaped :: chars =>
        (if escaped = 't' then '\t'
          else if escaped = 'n' then '\n'
          else if escaped = 'r' then '\r'
          else if escaped = 'b' then '\x08'
          else if escaped = 'f' then '\x0c'
          else if escaped = 'v' then '\x0b'
          -- a backslash, and an escape that is not recognised
          else escaped) :: unescapeText chars
    else ch :: unescapeText chars

def textToken (raw : List Char) : Field :=
  if raw = options.nullString then none else some (unescapeText raw)

/-- The loop of `parse_text_fields`, with the characters of the current token. -/
def parseTextFieldsFrom (raw : List Char) : List Char → List Field
  | [] => [textToken options raw]
  | ch :: chars =>
    if ch = '\\' then
      match chars with
      | [] => [textToken options (raw ++ ['\\'])]
      | escaped :: chars => parseTextFieldsFrom (raw ++ ['\\', escaped]) chars
    else if ch = options.delimiter then
      textToken options raw :: parseTextFieldsFrom [] chars
    else parseTextFieldsFrom (raw ++ [ch]) chars

def parseTextFields (line : List Char) : List Field := parseTextFieldsFrom options [] line

/-- `strip_suffix('\r')`, or the line itself. -/
def stripCr (line : List Char) : List Char :=
  if line.getLast? = some '\r' then line.dropLast else line

/-- The characters before the first newline, and those after it. -/
def splitNewline : List Char → Option (List Char × List Char)
  | [] => none
  | ch :: chars =>
    if ch = '\n' then some ([], chars)
    else (splitNewline chars).map fun split => (ch :: split.1, split.2)

def textRecord (line : List Char) : CopyRecord :=
  if line = ['\\', '.'] then .endMarker else .row (parseTextFields options line)

/-- The next record and what follows it. -/
def nextTextRecord (text : List Char) (atEof : Bool) : Option (CopyRecord × List Char) :=
  match splitNewline text with
  | some (line, rest) => some (textRecord options (stripCr line), rest)
  | none =>
    if atEof ∧ text ≠ [] then some (textRecord options (stripCr text), []) else none

/-! ### The CSV format -/

/-- Where the loop of `parse_csv_fields` stands. -/
inductive CsvState where
  | start
  | quoted (value : List Char)
  | closed (value : List Char)
  | unquoted (raw : List Char)

def csvToken (raw : List Char) : Field := if raw = options.nullString then none else some raw

def parseCsvFieldsFrom : CsvState → List Char → Result (List Field)
  | .start, [] => .ok [csvToken options []]
  | .quoted _, [] => .error (malformed "unterminated CSV quoted field")
  | .closed value, [] => .ok [some value]
  | .unquoted raw, [] => .ok [csvToken options raw]
  | .start, ch :: chars =>
    if ch = options.quote then parseCsvFieldsFrom (.quoted []) chars
    else if ch = options.delimiter then do
      return csvToken options [] :: (← parseCsvFieldsFrom .start chars)
    else parseCsvFieldsFrom (.unquoted [ch]) chars
  | .quoted value, ch :: chars =>
    if ch = options.quote then
      match chars with
      | [] => .ok [some value]
      | next :: rest =>
        if options.escape = options.quote ∧ next = options.quote then
          parseCsvFieldsFrom (.quoted (value ++ [options.quote])) rest
        else parseCsvFieldsFrom (.closed value) (next :: rest)
    else if ch = options.escape then
      match chars with
      | [] => .error (malformed "unterminated CSV escape")
      | next :: rest => parseCsvFieldsFrom (.quoted (value ++ [next])) rest
    else parseCsvFieldsFrom (.quoted (value ++ [ch])) chars
  | .closed value, ch :: chars =>
    if ch = options.delimiter then do return some value :: (← parseCsvFieldsFrom .start chars)
    else .error (malformed "unexpected data after CSV closing quote")
  | .unquoted raw, ch :: chars =>
    if ch = options.delimiter then do
      return csvToken options raw :: (← parseCsvFieldsFrom .start chars)
    else parseCsvFieldsFrom (.unquoted (raw ++ [ch])) chars

def parseCsvFields (content : List Char) : Result (List Field) := parseCsvFieldsFrom options .start content

/-- The scan of `next_csv_record`: the characters before the first newline outside quotes and
those after it, or whether the text ends within quotes. -/
def scanCsv (inQuote : Bool) : List Char → Bool ⊕ (List Char × List Char)
  | [] => .inl inQuote
  | ch :: chars =>
    if inQuote then
      if ch = options.quote then
        match chars with
        | [] => .inl false
        | next :: rest =>
          if options.escape = options.quote ∧ next = options.quote then
            (scanCsv true rest).map id fun split => (ch :: next :: split.1, split.2)
          else (scanCsv false (next :: rest)).map id fun split => (ch :: split.1, split.2)
      else if ch = options.escape ∧ options.escape ≠ options.quote then
        match chars with
        | [] => .inl true
        | next :: rest =>
          (scanCsv true rest).map id fun split => (ch :: next :: split.1, split.2)
      else (scanCsv true chars).map id fun split => (ch :: split.1, split.2)
    else if ch = options.quote then
      (scanCsv true chars).map id fun split => (ch :: split.1, split.2)
    else if ch = '\n' then .inr ([], chars)
    else (scanCsv false chars).map id fun split => (ch :: split.1, split.2)

def nextCsvRecord (text : List Char) (atEof : Bool) : Result (Option (List Field × List Char)) :=
  match scanCsv options false text with
  | .inr (content, rest) => do return some (← parseCsvFields options (stripCr content), rest)
  | .inl inQuote =>
    if atEof ∧ text ≠ [] then
      if inQuote then .error (malformed "unterminated CSV quoted field")
      else do return some (← parseCsvFields options (stripCr text), [])
    else .ok none

/-! ### The parser -/

def nextRecord (text : List Char) (atEof : Bool) : Result (Option (CopyRecord × List Char)) :=
  match options.format with
  | .text => .ok (nextTextRecord options text atEof)
  | .csv => do
      return (← nextCsvRecord options text atEof).map fun record => (.row record.1, record.2)

end Options

/-- `fields_to_row` for text columns. -/
def fieldsToRow (columns : Nat) (fields : List Field) : Result (List Field) :=
  if fields.length ≠ columns then
    .error (malformed s!"COPY row has {fields.length} fields, expected {columns}")
  else .ok fields

structure CopyParser where
  options : CopyOptions
  columns : Nat
  buffer : List Char
  skipHeader : Bool
  sawEndMarker : Bool

namespace CopyParser

def new (columns : Nat) (options : CopyOptions) : CopyParser :=
  ⟨options, columns, [], options.header, false⟩

def afterMarker : DbError := malformed "COPY data follows the \\. end marker"

/-- The loop of `extract` over the decoded text. A record takes at least one character, so
`fuel` need not exceed the length of the text. -/
def extractFrom (parser : CopyParser) (atEof : Bool) :
    Nat → List Char → Result (List (List Field) × CopyParser)
  | 0, text => .ok ([], { parser with buffer := text })
  | fuel + 1, text => do
      match ← nextRecord parser.options text atEof with
      | none => return ([], { parser with buffer := text })
      | some (.endMarker, rest) =>
        if rest ≠ [] then .error afterMarker
        else return ([], { parser with buffer := [], sawEndMarker := true })
      | some (.row fields, rest) =>
        if parser.skipHeader then
          extractFrom { parser with skipHeader := false } atEof fuel rest
        else
          let row ← fieldsToRow parser.columns fields
          let (rows, parser) ← extractFrom parser atEof fuel rest
          return (row :: rows, parser)

def extract (parser : CopyParser) (atEof : Bool) : Result (List (List Field) × CopyParser) := do
  let (rows, parser) ← extractFrom parser atEof parser.buffer.length parser.buffer
  if atEof ∧ parser.buffer ≠ [] then .error (invalidValue "COPY data is not valid UTF-8")
  else return (rows, parser)

def push (parser : CopyParser) (chunk : List Char) : Result (List (List Field) × CopyParser) :=
  if parser.sawEndMarker then
    if chunk = [] then .ok ([], parser) else .error afterMarker
  else { parser with buffer := parser.buffer ++ chunk }.extract false

def finish (parser : CopyParser) : Result (List (List Field)) := do return (← parser.extract true).1

/-- The rows of some chunks and of the end of the input. -/
def run (parser : CopyParser) : List (List Char) → Result (List (List Field))
  | [] => parser.finish
  | chunk :: chunks => do
      let (rows, parser) ← parser.push chunk
      return rows ++ (← parser.run chunks)

end CopyParser

/-- COPY FROM, with the input in chunks. -/
def copyFrom (options : CopyOptions) (columns : Nat) (chunks : List (List Char)) :
    Result (List (List Field)) := (CopyParser.new columns options).run chunks

end Saguaro.Copy
