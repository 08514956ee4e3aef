/-
Recovery rebuilds every page.

`recovery_rebuilds_every_page`: after any run and any crash, redo from the stored boundary
succeeds and leaves each page as its kept records built it, provided that a page which the
crash tears is redone from a base record. A page whose records after the boundary start
with a delta is not: the boundary is one position for all pages, and a page that was not
flushed by the checkpoint can hold it back to before the last flush of another. Then redo
meets the delta on a page that it has just zeroed (`torn_page_stops_recovery`).
-/

import Saguaro.Recovery.Invariant

namespace Saguaro.Recovery

open Storage Buffer Wal Result List Option World Block Transition

variable {fmt : PageFormat} {χ : Type}

/-! ### One record -/

section Record

variable {disk : PageKey → Option (Page fmt)} {frames : Frames fmt} {key : PageKey} {e : WalEntry χ}
  {rs : List (WalEntry χ)} {last : Page fmt} {i j : Nat}

/-- A record that the page carries is passed over. -/
theorem applyRedo_of_lt (whole : Built rs last) (at_ : rs[i]? = some e)
    (built : Built (rs.take j) (fetchForRedo disk frames key).data) (less : i < j) :
    applyRedo disk frames key e = .ok (frames.insert key (fetchForRedo disk frames key)) := by
  obtain ⟨s, q, -, -, newer, redone⟩ := whole.next at_
  obtain ⟨plain, norm, -⟩ := applies_of_redo newer redone
  have carried : e.record.lsn ≤ pageLsn (fetchForRedo disk frames key).data :=
    built.lsn_le (mem_of_getElem? (by rwa [getElem?_take_of_lt less]))
  simp only [applyRedo, norm, ok_bind, built.trusted, applyPhysicalRedo, carried, if_true]
  rfl

/-- The next record of a page is applied, and a base record is applied to a torn page. -/
theorem applyRedo_next (whole : Built rs last) (at_ : rs[i]? = some e)
    (page : Built (rs.take i) (fetchForRedo disk frames key).data ∨
      isValid (fetchForRedo disk frames key).data = false ∧ isBase e.record.kind = true)
    (room : (fetchForRedo disk frames key).dirtyMeta.generation + 1 < 2 ^ 64) :
    ∃ q : Page fmt, Built (rs.take (i + 1)) q ∧ applyRedo disk frames key e = .ok (frames.insert key
        { fetchForRedo disk frames key with
          data := q, dirty := true
          dirtyMeta := Frame.publishMeta (fetchForRedo disk frames key).dirtyMeta
            ⟨e.replayFrom, e.record.lsn⟩ }) := by
  obtain ⟨s, q, prior, after, newer, redone⟩ := whole.next at_
  refine ⟨q, after, ?_⟩
  have start : ∃ d, (if isValid (fetchForRedo disk frames key).data then
        (fetchForRedo disk frames key).data else zero _) = d ∧ pageLsn d < e.record.lsn ∧
      redo d e.record.lsn e.record.kind = .ok q := by
    rcases page with built | ⟨torn, base⟩
    · obtain rfl := built.unique prior
      exact ⟨_, built.trusted, newer, redone⟩
    have zero : pageLsn (zero fmt.pageSize) < e.record.lsn :=
      pageLsn_zero.trans_lt (Nat.zero_lt_of_lt newer)
    exact ⟨_, if_neg (by simp [torn]), zero, (redo_base base zero newer).trans redone⟩
  obtain ⟨d, trusted, older, applies⟩ := start
  obtain ⟨plain, norm, appl⟩ := applies_of_redo older applies
  simp only [applyRedo, norm, ok_bind, trusted, appl, if_true, Frame.publishMutation, room]
  rfl

end Record

/-! ### The redo loop -/

/-- The page that recovery finds, at its `j`th record: as the first `j` built it, or torn and
about to be rebuilt. From there on all records are replayed. -/
structure Start (rs : List (WalEntry χ)) (redoLsn : Nat) (disk : Option (Page fmt)) (j : Nat) : Prop where
  le : j ≤ rs.length
  replayed : ∀ i e, rs[i]? = some e → j ≤ i → redoLsn ≤ e.replayFrom
  page : Built (rs.take j) (disk.getD (zero _)) ∨ ∃ page e, disk = some page ∧
    isValid page = false ∧ rs[j]? = some e ∧ isBase e.record.kind = true ∧
    ∀ i e', rs[i]? = some e' → i < j → e'.replayFrom < redoLsn

/-- A page when redo has come past its first `i` records. -/
inductive Redone (rs : List (WalEntry χ)) (redoLsn : Nat) (disk : Option (Page fmt)) (j i : Nat) :
    Option (Frame (Page fmt)) → Prop where
  | untouched : (∀ i' e, rs[i']? = some e → i' < i → e.replayFrom < redoLsn) →
      Redone rs redoLsn disk j i none
  | carried (f : Frame (Page fmt)) : i ≤ j → Built (rs.take j) (disk.getD (zero _)) →
      f = .new (disk.getD (zero _)) false true → Redone rs redoLsn disk j i (some f)
  | applied (f : Frame (Page fmt)) (e : WalEntry χ) : j < i → f.dirty = true →
      Built (rs.take i) f.data → rs[j]? = some e → f.dirtyMeta.recLsn = some e.replayFrom →
      f.dirtyMeta.generation ≤ i → Redone rs redoLsn disk j i (some f)

section Loop

variable {disk : PageKey → Option (Page fmt)} {frames : Frames fmt} {key : PageKey} {e : WalEntry χ}
  {rs log : List (WalEntry χ)} {last : Page fmt} {i j redoLsn : Nat}

/-- One replayed record of a page. -/
theorem Redone.next (start : Start rs redoLsn (disk key) j) (whole : Built rs last)
    (redone : Redone rs redoLsn (disk key) j i (frames.lookup key)) (at_ : rs[i]? = some e)
    (replay : redoLsn ≤ e.replayFrom) (room : i + 1 < 2 ^ 64) :
    ∃ f, applyRedo disk frames key e = .ok (frames.insert key f) ∧
      Redone rs redoLsn (disk key) j (i + 1) (some f) := by
  obtain ⟨lt, -⟩ := List.getElem?_eq_some_iff.mp at_
  generalize found : frames.lookup key = frame at redone
  -- the first replayed record, or one that the page already carries
  have fresh (f : Frame (Page fmt)) (fetched : fetchForRedo disk frames key = f)
      (new : f = .new ((disk key).getD (zero _)) false true) (le : i ≤ j) :
      ∃ f, applyRedo disk frames key e = .ok (frames.insert key f) ∧
        Redone rs redoLsn (disk key) j (i + 1) (some f) := by
    have data : (fetchForRedo disk frames key).data = (disk key).getD (zero _) := by
      rw [fetched, new]
      rfl
    rcases lt_or_eq_of_le le with less | rfl
    · rcases start.page with built | ⟨_, _, -, -, -, -, prior⟩
      · exact ⟨_, applyRedo_of_lt whole at_ (data ▸ built) less,
          .carried _ less built (fetched.trans new)⟩
      · exact absurd replay (not_le.mpr (prior i e at_ less))
    have page : Built (rs.take i) (fetchForRedo disk frames key).data ∨
        isValid (fetchForRedo disk frames key).data = false ∧ isBase e.record.kind = true := by
      rcases start.page with built | ⟨page, e', here, torn, at', base, -⟩
      · exact .inl (data ▸ built)
      cases at_.symm.trans at'
      rw [data, here]
      exact .inr ⟨torn, base⟩
    have gen : (fetchForRedo disk frames key).dirtyMeta.generation = 0 := by
      rw [fetched, new]
      rfl
    obtain ⟨q, built, appl⟩ := applyRedo_next whole at_ page (by rw [gen]; decide)
    refine ⟨_, appl, .applied _ e (Nat.lt_succ_self i) rfl built at_ ?_ ?_⟩
    · rw [fetched, new]
      rfl
    · exact (congrArg (· + 1) gen).trans_le (Nat.succ_le_succ (Nat.zero_le i))
  cases redone with
  | untouched prior =>
    have le : i ≤ j := by
      by_contra less
      obtain ⟨e', at'⟩ : ∃ e', rs[j]? = some e' :=
        ⟨_, List.getElem?_eq_getElem (lt_trans (Nat.lt_of_not_le less) lt)⟩
      exact not_le.mpr (prior j e' at' (Nat.lt_of_not_le less)) (start.replayed j e' at' le_rfl)
    exact fresh _ (by rw [fetchForRedo, found]; rfl) rfl le
  | carried f le built new => exact fresh f (by rw [fetchForRedo, found]; rfl) new le
  | applied f first less dirty built at' recLsn gen =>
    have fetched : fetchForRedo disk frames key = f := by
      rw [fetchForRedo, found]
      rfl
    have page : Built (rs.take i) (fetchForRedo disk frames key).data := fetched ▸ built
    obtain ⟨q, after, appl⟩ := applyRedo_next whole at_ (.inl page) (by rw [fetched]; omega)
    refine ⟨_, appl, .applied _ first (Nat.lt_succ_of_lt less) rfl after at' ?_ ?_⟩
    · rw [fetched, Frame.publishMeta, recLsn]
      rfl
    · rw [fetched]
      exact Nat.succ_le_succ gen

/-- A record before the boundary is passed over. -/
theorem Redone.pass {d : Option (Page fmt)} {frame : Option (Frame (Page fmt))}
    (redone : Redone rs redoLsn d j i frame) (start : Start rs redoLsn d j) (at_ : rs[i]? = some e)
    (early : e.replayFrom < redoLsn) : Redone rs redoLsn d j (i + 1) frame := by
  cases redone with
  | untouched prior =>
    refine .untouched fun i' e' at' less => ?_
    rcases lt_or_eq_of_le (Nat.le_of_lt_succ less) with less | rfl
    · exact prior i' e' at' less
    · cases at_.symm.trans at'
      exact early
  | carried f le built new =>
    refine .carried f (Nat.lt_of_not_le fun ge => ?_) built new
    exact not_le.mpr early (start.replayed i e at_ ge)
  | applied f first less =>
    exact absurd (start.replayed i e at_ less.le) (not_le.mpr early)

theorem lt_lsn (ord : rs.Pairwise (·.record.lsn ≤ ·.replayFrom))
    (inside : ∀ e ∈ rs, e.replayFrom < e.record.lsn) (at_ : rs[i]? = some e) : i < e.record.lsn := by
  induction i generalizing e with
  | zero => exact Nat.zero_lt_of_lt (inside e (mem_of_getElem? at_))
  | succ i ih =>
    obtain ⟨lt, rfl⟩ := List.getElem?_eq_some_iff.mp at_
    have prior := ih (List.getElem?_eq_getElem (Nat.lt_of_succ_lt lt))
    have later := pairwise_iff_getElem.mp ord i (i + 1) (Nat.lt_of_succ_lt lt) lt (Nat.lt_succ_self i)
    have here := inside _ (getElem_mem lt)
    omega

/-- The whole loop: every page ends with all its records. -/
theorem redoLoop_ok {starts : PageKey → Nat} (ord : log.Pairwise (·.record.lsn ≤ ·.replayFrom))
    (inside : ∀ e ∈ log, e.replayFrom < e.record.lsn ∧ e.record.lsn < 2 ^ 64)
    (start : ∀ key, Start (records key log) redoLsn (disk key) (starts key))
    (whole : ∀ key, ∃ last : Page fmt, Built (records key log) last)
    (done rest : List (WalEntry χ)) (split : log = done ++ rest)
    (redone : ∀ key, Redone (records key log) redoLsn (disk key) (starts key) (records key done).length
      (frames.lookup key)) : ∃ frames', redoLoop disk redoLsn frames rest = .ok frames' ∧
      ∀ key, Redone (records key log) redoLsn (disk key) (starts key) (records key log).length
        (frames'.lookup key) := by
  induction rest generalizing done frames with
  | nil =>
    rw [append_nil] at split
    exact ⟨frames, rfl, split ▸ redone⟩
  | cons e rest ih =>
    have split' : log = (done ++ [e]) ++ rest := by rw [split, append_assoc]; rfl
    have counted (key : PageKey) : (records key (done ++ [e])).length =
        (records key done).length + if pageKey e.record.kind = some key then 1 else 0 := by
      rw [records, filter_append, length_append]
      by_cases here : pageKey e.record.kind = some key <;> simp [records, here]
    unfold redoLoop
    cases page : pageKey e.record.kind with
    | none =>
      refine ih (done ++ [e]) split' fun key => ?_
      rw [counted, page, if_neg (by simp)]
      exact redone key
    | some key =>
      have cut : records key log = records key done ++ e :: records key rest := by
        rw [split, records, filter_append, filter_cons_of_pos (by simpa using page)]
        rfl
      have at_ : (records key log)[(records key done).length]? = some e := by
        rw [cut]
        simp
      have others (k : PageKey) (other : k ≠ key) :
          (records k (done ++ [e])).length = (records k done).length := by
        rw [counted, page, if_neg fun same => other (some.inj same).symm]
        rfl
      have here : (records key (done ++ [e])).length = (records key done).length + 1 := by
        rw [counted, page, if_pos rfl]
      simp only
      split
      · rename_i early
        refine ih (done ++ [e]) split' fun k => ?_
        by_cases other : k = key
        · subst other
          rw [here]
          exact (redone k).pass (start k) at_ early
        · rw [others k other]
          exact redone k
      rename_i late
      have mem : e ∈ log := split ▸ mem_append_right _ (.head _)
      have room : (records key done).length + 1 < 2 ^ 64 :=
        lt_of_le_of_lt (lt_lsn (ord.sublist filter_sublist)
          (fun e mem => (inside e (mem_of_mem_filter mem)).1) at_) (inside e mem).2
      obtain ⟨last, built⟩ := whole key
      obtain ⟨f, appl, next⟩ := (redone key).next (start key) built at_ (Nat.le_of_not_lt late) room
      rw [appl, ok_bind]
      refine ih (done ++ [e]) split' fun k => ?_
      by_cases other : k = key
      · subst other
        rw [here, AList.lookup_insert]
        exact next
      · rw [others k other, AList.lookup_insert_ne other]
        exact redone k

end Loop

/-! ### Restarts -/

/-- A test that fails for all elements once it fails for one keeps a prefix of a list. -/
theorem filter_eq_take {α : Type} {p : α → Bool} {l : List α}
    (down : l.Pairwise fun a b => p b = true → p a = true) : ∃ m, l.filter p = l.take m ∧
      ∀ i a, l[i]? = some a → (p a = true ↔ i < m) := by
  induction l with
  | nil => exact ⟨0, rfl, nofun⟩
  | cons a l ih =>
    obtain ⟨first, rest⟩ := pairwise_cons.mp down
    obtain ⟨m, same, bound⟩ := ih rest
    cases holds : p a with
    | true =>
      refine ⟨m + 1, by rw [filter_cons_of_pos holds, same, take_succ_cons], ?_⟩
      intro i b at_
      cases i with
      | zero =>
        cases at_
        simpa using holds
      | succ i => exact (bound i b at_).trans (Nat.succ_lt_succ_iff).symm
    | false =>
      have none : ∀ b ∈ l, p b = false := fun b mem => by
        by_contra other
        exact absurd (first b mem (by simpa using other)) (by simp [holds])
      refine ⟨0, ?_, ?_⟩
      · rw [filter_cons_of_neg (by simp [holds]), take_zero]
        exact filter_eq_nil_iff.mpr fun b mem => by simp [none b mem]
      intro i b at_
      rcases mem_cons.mp (mem_of_getElem? at_) with rfl | mem
      · simp [holds]
      · simp [none b mem]

section Restart

variable {w : World fmt χ} {crash : Crash fmt} {key : PageKey}

theorem records_kept : records key (w.kept crash) =
    (records key w.log).filter fun e => e.record.lsn ≤ crash.endLsn := filter_comm ..

/-- The records of a page that the crash leaves. -/
theorem World.Inv.kept (inv : w.Inv) (crash : Crash fmt) (key : PageKey) :
    ∃ m, records key (w.kept crash) = (records key w.log).take m ∧
      ∀ i e, (records key w.log)[i]? = some e → (e.record.lsn ≤ crash.endLsn ↔ i < m) := by
  have down : (records key w.log).Pairwise fun a b =>
      decide (b.record.lsn ≤ crash.endLsn) = true → decide (a.record.lsn ≤ crash.endLsn) = true := by
    refine ((inv.ordered.sublist filter_sublist).imp_of_mem ?_)
    intro a b _ mem le kept
    have inside := inv.inside b (mem_of_mem_filter mem)
    simp only [decide_eq_true_eq] at kept ⊢
    omega
  obtain ⟨m, same, bound⟩ := filter_eq_take down
  exact ⟨m, records_kept.trans same, fun i e at_ => by simpa using bound i e at_⟩

/-- The image of a page after a crash. -/
theorem World.CanCrash.disk (can : w.CanCrash crash) (key : PageKey) :
    w.crashDisk crash key = w.disk key ∨
      (∃ image ∈ w.writes key, w.crashDisk crash key = some image) ∨
      ∃ page, w.writes key ≠ [] ∧ isValid page = false ∧ w.crashDisk crash key = some page := by
  unfold crashDisk
  split
  · exact .inl rfl
  rename_i key' left found
  obtain rfl : key' = key := by simpa using find?_some found
  have mem := mem_of_find?_eq_some found
  cases left with
  | landed image => exact .inr (.inl ⟨image, can.landed mem, rfl⟩)
  | torn page => exact .inr (.inr ⟨page, (can.torn mem).1, (can.torn mem).2, rfl⟩)

/-- A page that the crash leaves intact. -/
theorem World.Inv.start_of_landed (inv : w.Inv) (can : w.CanCrash crash) {b j : Nat}
    (landed : Landed (records key w.log) w.durableLsn j ((w.crashDisk crash key).getD (zero _)))
    (from_ : b ≤ j) (redone : ∀ i e, (records key w.log)[i]? = some e → b ≤ i →
      w.pageRedoLsn ≤ e.replayFrom) :
    Start (records key (w.kept crash)) w.pageRedoLsn (w.crashDisk crash key) j := by
  obtain ⟨m, same, bound⟩ := inv.kept crash key
  have inside : j ≤ m := by
    cases j with
    | zero => exact Nat.zero_le m
    | succ j =>
      have at_ := getElem?_eq_getElem (Nat.lt_of_succ_le landed.le)
      refine (bound j _ at_).mp ((landed.durable _ ?_).trans can.durable)
      exact mem_of_getElem? (by rw [getElem?_take_of_lt (Nat.lt_succ_self j)]; exact at_)
  rw [same]
  refine ⟨?_, fun i e at_ le => ?_, .inl ?_⟩
  · rw [length_take]
    exact le_min inside landed.le
  · obtain ⟨-, at_⟩ : i < m ∧ (records key w.log)[i]? = some e := by
      simpa [getElem?_take] using at_
    exact redone i e at_ (from_.trans le)
  · rw [take_take, min_eq_left inside]
    exact landed.built

/-- The kept records of a page follow each other. -/
theorem World.Inv.kept_replayFrom_le (inv : w.Inv) {i j : Nat} {e e' : WalEntry χ}
    (first : (records key (w.kept crash))[i]? = some e)
    (snd : (records key (w.kept crash))[j]? = some e') (le : i ≤ j) :
    e.replayFrom ≤ e'.replayFrom := by
  obtain ⟨m, same, -⟩ := inv.kept crash key
  rw [same] at first snd
  simp only [getElem?_take, ite_none_right_eq_some] at first snd
  exact inv.replayFrom_le first.2 snd.2 le

/-- A torn page, which is redone from a base record. -/
theorem World.Inv.start_of_torn (inv : w.Inv) (can : w.CanCrash crash) (mended : w.Mended crash)
    {b : Nat} {e : WalEntry χ} {page : Page fmt} (first : (records key w.log)[b]? = some e)
    (held : w.pageRedoLsn ≤ e.replayFrom) (dur : e.record.lsn ≤ w.durableLsn)
    (torn : w.crashDisk crash key = some page) (invalid : isValid page = false) :
    ∃ j, Start (records key (w.kept crash)) w.pageRedoLsn (w.crashDisk crash key) j := by
  have kept : e ∈ records key (w.kept crash) := by
    rw [records_kept]
    exact mem_filter.mpr ⟨mem_of_getElem? first, by simpa using dur.trans can.durable⟩
  obtain ⟨e', found⟩ : ∃ e', (records key (w.kept crash)).find? (w.pageRedoLsn ≤ ·.replayFrom) =
      some e' := by
    refine isSome_iff_exists.mp (List.find?_isSome.mpr ⟨e, kept, ?_⟩)
    simpa using held
  have base : isBase e'.record.kind = true := by
    refine mended key page torn invalid e' ?_
    rw [records, filter_comm, List.head?_filter]
    exact found
  obtain ⟨here, a, lt, rfl, prior⟩ := List.find?_eq_some_iff_getElem.mp found
  simp only [decide_eq_true_eq, Bool.not_eq_true', decide_eq_false_iff_not, not_le] at here prior
  have at_ := List.getElem?_eq_getElem lt
  refine ⟨a, lt.le, fun i e at' le => here.trans (inv.kept_replayFrom_le at_ at' le),
    .inr ⟨page, _, torn, invalid, at_, base, fun i e at' less => ?_⟩⟩
  obtain ⟨_, rfl⟩ := List.getElem?_eq_some_iff.mp at'
  exact prior i less

/-- Whatever a crash leaves of a page, redo has a place to start. -/
theorem World.Inv.start (inv : w.Inv) (can : w.CanCrash crash) (mended : w.Mended crash)
    (key : PageKey) :
    ∃ j, Start (records key (w.kept crash)) w.pageRedoLsn (w.crashDisk crash key) j := by
  have clean (clean : Clean (w.view key)) :
      ∃ j, Start (records key (w.kept crash)) w.pageRedoLsn (w.crashDisk crash key) j := by
    have same : w.crashDisk crash key = w.disk key := by
      have synced : w.writes key = [] := clean.writes
      rcases can.disk key with same | ⟨image, mem, -⟩ | ⟨_, due, -⟩
      · exact same
      · simp [synced] at mem
      · exact absurd synced due
    refine ⟨_, inv.start_of_landed can (by rw [same]; exact clean.disk) le_rfl fun i e at_ le => ?_⟩
    obtain ⟨lt, -⟩ := List.getElem?_eq_some_iff.mp at_
    exact absurd le (not_le.mpr lt)
  rcases inv.pages key with ⟨-, isClean⟩ | ⟨_, -, -, -, isClean⟩ | ⟨f, b, e, found, isDirty, dirty⟩
  · exact clean isClean
  · exact clean isClean
  have redone : ∀ i e', (records key w.log)[i]? = some e' → b ≤ i →
      w.pageRedoLsn ≤ e'.replayFrom := fun i e' at_ le =>
    dirty.stored.trans (inv.replayFrom_le dirty.first at_ le)
  rcases can.disk key with same | ⟨image, mem, same⟩ | ⟨page, due, invalid, same⟩
  · rcases dirty.disk with ⟨j, from_, landed⟩ | ⟨page, torn, invalid, dur⟩
    · exact ⟨j, inv.start_of_landed can (by rw [same]; exact landed) from_ redone⟩
    · exact inv.start_of_torn can mended dirty.first dirty.stored dur (same.trans torn) invalid
  · obtain ⟨j, newer, landed⟩ := dirty.writes image mem
    exact ⟨j, inv.start_of_landed can (by rw [same]; exact landed) newer.le redone⟩
  obtain ⟨image, mem⟩ := exists_mem_of_ne_nil _ due
  obtain ⟨j, newer, landed⟩ := dirty.writes image mem
  have inside : ((records key w.log).take j)[b]? = some e := by
    rw [List.getElem?_take_of_lt newer]
    exact dirty.first
  have dur := landed.durable e (mem_of_getElem? inside)
  exact inv.start_of_torn can mended dirty.first dirty.stored dur same invalid

/-- A page when redo is done. -/
theorem Redone.view {rs : List (WalEntry χ)} {redoLsn endLsn j : Nat} {disk : Option (Page fmt)}
    {frame : Option (Frame (Page fmt))} (start : Start rs redoLsn disk j)
    (dur : ∀ e ∈ rs, e.record.lsn ≤ endLsn) (redone : Redone rs redoLsn disk j rs.length frame) :
    View.Inv ⟨rs, endLsn, frame, none, disk, [], redoLsn, none⟩ ∧
      Built rs (frame.getD (.new (disk.getD (zero _)) false true)).data := by
  have clean (le : rs.length ≤ j) (built : Built (rs.take j) (disk.getD (zero _))) :
      Clean ⟨rs, endLsn, frame, none, disk, [], redoLsn, none⟩ ∧ Built rs (disk.getD (zero _)) := by
    rw [take_of_length_le le] at built
    exact ⟨⟨.whole built dur, rfl, rfl⟩, built⟩
  cases redone with
  | untouched prior =>
    have le : rs.length ≤ j := by
      by_contra less
      have at_ := List.getElem?_eq_getElem (Nat.lt_of_not_le less)
      exact not_le.mpr (prior j _ at_ (Nat.lt_of_not_le less)) (start.replayed j _ at_ le_rfl)
    rcases start.page with built | ⟨_, e, -, -, at_, -⟩
    · obtain ⟨isClean, whole⟩ := clean le built
      exact ⟨.absent rfl isClean, whole⟩
    · obtain ⟨lt, -⟩ := List.getElem?_eq_some_iff.mp at_
      exact absurd le (not_le.mpr lt)
  | carried f le built new =>
    obtain ⟨isClean, whole⟩ := clean le built
    subst new
    exact ⟨.clean _ rfl ⟨rfl, rfl⟩ (.inl rfl) isClean, whole⟩
  | applied f e less isDirty built at_ recLsn gen =>
    rw [take_length] at built
    refine ⟨.dirty f j e rfl isDirty ?_, built⟩
    refine ⟨built, at_, recLsn, start.replayed j e at_ le_rfl, nofun, ?_, nofun, trivial⟩
    rcases start.page with intact | ⟨page, e', torn, invalid, at', -⟩
    · exact .inl ⟨j, le_rfl, start.le, intact, fun e mem => dur e (mem_of_mem_take mem)⟩
    · cases at_.symm.trans at'
      exact .inr ⟨page, torn, invalid, dur e (mem_of_getElem? at_)⟩

/-- Recovery succeeds, and leaves the server as a run could have. -/
theorem World.Inv.restart (inv : w.Inv) (can : w.CanCrash crash) (mended : w.Mended crash) :
    ∃ frames, w.recover crash = .ok frames ∧ (w.restarted crash frames).Inv ∧
      ∀ key, Built (records key (w.kept crash)) ((w.restarted crash frames).page key) := by
  choose starts start using inv.start can mended
  have kept : ∀ e ∈ w.kept crash, e ∈ w.log ∧ e.record.lsn ≤ crash.endLsn := fun e mem => by
    simpa [World.kept] using mem
  have ord : (w.kept crash).Pairwise (·.record.lsn ≤ ·.replayFrom) :=
    inv.ordered.sublist filter_sublist
  have whole : ∀ key, ∃ last : Page fmt, Built (records key (w.kept crash)) last := by
    intro key
    obtain ⟨m, same, -⟩ := inv.kept crash key
    have built : ∃ last : Page fmt, Built (records key w.log) last := by
      obtain ⟨-, isClean⟩ | ⟨_, -, -, -, isClean⟩ | ⟨f, b, e, found, isDirty, dirty⟩ := inv.pages key
      · exact ⟨_, take_length ▸ isClean.disk.built⟩
      · exact ⟨_, take_length ▸ isClean.disk.built⟩
      · exact ⟨_, dirty.current⟩
    obtain ⟨last, built⟩ := built
    exact same ▸ built.take m
  have clean : ∀ key, Redone (records key (w.kept crash)) w.pageRedoLsn (w.crashDisk crash key)
      (starts key) 0 ((∅ : Frames fmt).lookup key) := fun key => .untouched nofun
  obtain ⟨frames, recov, redone⟩ := redoLoop_ok ord (fun e mem => ⟨(inv.inside e (kept e mem).1).1,
      (inv.inside e (kept e mem).1).2.trans_lt inv.bounded⟩)
    start whole [] (w.kept crash) rfl clean
  have done (key : PageKey) := (redone key).view (start key) fun e mem =>
    (kept e (mem_of_mem_filter mem)).2
  refine ⟨frames, recov, ?_, fun key => (done key).2⟩
  exact
    { ordered := ord
      inside := fun e mem => ⟨(inv.inside e (kept e mem).1).1, (kept e mem).2⟩
      bounded := can.written.trans_lt inv.bounded
      durable := le_rfl
      stored := inv.stored.trans can.durable
      next := nofun
      pages := fun key => (done key).1 }

end Restart

/-! ### Runs -/

theorem World.Inv.fresh : (fresh : World fmt χ).Inv where
  ordered := .nil
  inside := nofun
  bounded := Nat.two_pow_pos 64
  durable := le_rfl
  stored := le_rfl
  next := nofun
  pages _ := .absent rfl ⟨.whole .nil nofun, rfl, rfl⟩

theorem World.Inv.step {w w' : World fmt χ} {event : Event fmt χ} (inv : w.Inv)
    (crashes : World.Crashes World.Mended w event) (taken : w.step event = some w') : w'.Inv := by
  cases event with
  | load key data =>
    simp only [World.step, ite_none_right_eq_some] at taken
    obtain ⟨⟨gone, -⟩, ⟨⟩⟩ := taken
    exact inv.load gone
  | newPage key =>
    simp only [World.step, ite_none_right_eq_some] at taken
    obtain ⟨⟨gone, unlogged⟩, ⟨⟩⟩ := taken
    exact inv.newPage gone unlogged
  | change key edit txnId size => exact inv.change taken
  | append txnId kind size =>
    simp only [World.step, ite_none_right_eq_some] at taken
    obtain ⟨⟨notPage, pos, fits⟩, ⟨⟩⟩ := taken
    exact inv.append pos fits notPage
  | flushWal =>
    cases taken
    exact inv.flushWal
  | dropClean key =>
    obtain ⟨f, found, taken⟩ := bind_eq_some_iff.mp taken
    obtain ⟨⟨notDirty, -⟩, ⟨⟩⟩ := ite_none_right_eq_some.mp taken
    exact inv.dropClean found notDirty
  | reserve key =>
    obtain ⟨f, found, taken⟩ := bind_eq_some_iff.mp taken
    obtain ⟨⟨dirty, -⟩, ⟨⟩⟩ := ite_none_right_eq_some.mp taken
    exact inv.reserve found dirty
  | stealWrite key =>
    obtain ⟨f, found, taken⟩ := bind_eq_some_iff.mp taken
    split at taken
    · rename_i flying
      cases taken
      exact inv.stealWrite found flying
    · cases taken
  | finishSteal key =>
    simp only [World.step] at taken
    split at taken
    · rename_i flying synced
      cases taken
      exact inv.finishSteal flying synced
    · cases taken
  | abortSteal key =>
    obtain ⟨f, found, taken⟩ := bind_eq_some_iff.mp taken
    split at taken
    · rename_i flying
      cases taken
      exact inv.abortSteal found (by rw [flying]; nofun)
    · rename_i flying
      cases taken
      exact inv.abortSteal found (by rw [flying]; nofun)
    · cases taken
  | capture key =>
    obtain ⟨f, found, taken⟩ := bind_eq_some_iff.mp taken
    obtain ⟨⟨dirty, -⟩, taken⟩ := ite_none_right_eq_some.mp taken
    obtain ⟨g, cap, ⟨⟩⟩ := bind_eq_some_iff.mp taken
    exact inv.capture found dirty (toOption_eq_some.mp cap)
  | writeCaptured key =>
    simp only [World.step] at taken
    split at taken
    · rename_i flying
      cases taken
      exact inv.writeCaptured flying
    · cases taken
  | finishCheckpoint key =>
    obtain ⟨f, found, taken⟩ := bind_eq_some_iff.mp taken
    split at taken
    · rename_i flying synced
      obtain ⟨g, fin, ⟨⟩⟩ := bind_eq_some_iff.mp taken
      exact inv.finishCheckpoint found flying synced (toOption_eq_some.mp fin)
    · cases taken
  | abortCheckpoint key =>
    obtain ⟨f, found, taken⟩ := bind_eq_some_iff.mp taken
    split at taken
    · rename_i flying
      cases taken
      exact inv.abortCheckpoint found (by rw [flying]; nofun)
    · rename_i flying
      cases taken
      exact inv.abortCheckpoint found (by rw [flying]; nofun)
    · cases taken
  | sync key =>
    simp only [World.step] at taken
    split at taken
    · rename_i due
      cases taken
      exact inv.sync due
    · cases taken
  | takeBoundary =>
    obtain ⟨bound, made, ⟨⟩⟩ := bind_eq_some_iff.mp taken
    exact inv.takeBoundary (toOption_eq_some.mp made)
  | storeControl =>
    obtain ⟨bound, due, ⟨⟩⟩ := bind_eq_some_iff.mp taken
    exact inv.storeControl due
  | restart crash =>
    obtain ⟨frames, recov, ⟨⟩⟩ := bind_eq_some_iff.mp taken
    obtain ⟨frames', recov', kept, -⟩ := inv.restart crashes.1 crashes.2
    cases (toOption_eq_some.mp recov).symm.trans recov'
    exact kept

/-! ### Torn pages -/

/-- Pages of 64 bytes whose checksum is the sum of their bytes. -/
abbrev PageFormat.summed : PageFormat :=
  .short fun bytes => bytes.foldl (fun sum byte => sum + byte.toUInt32) 0

def Event.isRestart : Event fmt χ → Bool
  | .restart _ => true
  | _ => false

/-- A crash when the first half of a write has reached the disk. -/
def tornWrite (w : World fmt χ) (key : PageKey) : Crash fmt where
  endLsn := w.durableLsn
  left := [(key, .torn (ofBytes
    (((w.writes key).headD (zero _)).toBytes.take (fmt.pageSize / 2) ++
      ((w.disk key).getD (zero _)).toBytes.drop (fmt.pageSize / 2))))]

theorem canCrash_tornWrite {w : World fmt χ} {key : PageKey} (durable : w.durableLsn ≤ w.writtenLsn)
    (pending : w.writes key ≠ []) (torn : (tornWrite w key).left.all fun left => !isValid left.2.page) :
    w.CanCrash (tornWrite w key) where
  durable := le_rfl
  written := durable
  landed mem := by cases mem_singleton.mp mem
  torn mem := by
    have invalid := all_eq_true.mp torn _ mem
    rw [Bool.not_eq_true'] at invalid
    cases mem_singleton.mp mem
    exact ⟨pending, invalid⟩

/-- **Recovery rebuilds every page.** In a run in which every torn page is redone from a base
record, a dirty frame holds what the records of its page produce; and after any such crash,
redo from the stored boundary succeeds, and each page is what its kept records produce. -/
theorem recovery_rebuilds_every_page {events : List (Event fmt χ)} {w : World fmt χ}
    (run : Transition.Run World.step (World.Crashes World.Mended) World.fresh events w) :
    (∀ key f, w.frames.lookup key = some f → f.dirty = true → logged fmt key w.log = .ok f.data) ∧
      ∀ crash, w.CanCrash crash → w.Mended crash → ∃ frames, w.recover crash = .ok frames ∧
        ∀ key, logged fmt key (w.kept crash) = .ok ((w.restarted crash frames).page key) := by
  have inv : w.Inv := run.invariant (fun _ _ _ inv crashes taken => inv.step crashes taken) .fresh
  constructor
  · intro key f found isDirty
    obtain ⟨b, e, dirty⟩ := (inv.pages key).of_dirty found isDirty
    exact dirty.current.replay
  · intro crash can mended
    obtain ⟨frames, recovered, -, built⟩ := inv.restart can mended
    exact ⟨frames, recovered, fun key => (built key).replay⟩

/-- Page (1, 0) gets a row and is flushed by a checkpoint. It gets another row, logged as a
full image, and is being written when the crash comes. -/
def flushedAlone : List (Event PageFormat.summed Empty) :=
  [.newPage (1, 0), .change (1, 0) .init 7 10, .change (1, 0) (.insert [1] false) 7 10,
    .capture (1, 0), .writeCaptured (1, 0), .sync (1, 0), .finishCheckpoint (1, 0), .takeBoundary,
    .storeControl, .change (1, 0) (.insert [2] true) 7 10, .reserve (1, 0), .stealWrite (1, 0)]

theorem recovery_rebuilds_every_page_torn : ∃ (w : World PageFormat.summed Empty) (crash : Crash _)
    (page : Page _) (frames : Frames _), w.CanCrash crash ∧ w.Mended crash ∧
      w.crashDisk crash (1, 0) = some page ∧ isValid page = false ∧ w.recover crash = .ok frames ∧
      ∀ key, logged _ key (w.kept crash) = .ok ((w.restarted crash frames).page key) := by
  obtain ⟨w, alone, durable, pending, torn, base⟩ : ∃ w : World PageFormat.summed Empty,
      Transition.Run World.step (fun _ event => event.isRestart = false) World.fresh flushedAlone w ∧
      w.durableLsn ≤ w.writtenLsn ∧ w.writes (1, 0) ≠ [] ∧
      ((tornWrite w (1, 0)).left.all fun left => !isValid left.2.page) = true ∧
      ((w.kept (tornWrite w (1, 0))).filter (w.pageRedoLsn ≤ ·.replayFrom)).all
        (fun entry => isBase entry.record.kind) = true :=
    Transition.Run.evaluated (by decide +kernel)
  have can := canCrash_tornWrite durable pending torn
  have mended : w.Mended (tornWrite w (1, 0)) := by
    intro key page _ _ entry first
    refine all_eq_true.mp base entry (mem_of_mem_filter (mem_of_head? first))
  have run : Transition.Run World.step (World.Crashes World.Mended) World.fresh flushedAlone w :=
    alone.mono fun _ event fine => by
      cases event with
      | restart => cases fine
      | _ => exact True.intro
  obtain ⟨frames, recovered, pages⟩ := (recovery_rebuilds_every_page run).2 _ can mended
  have invalid := all_eq_true.mp torn _ (.head _)
  rw [Bool.not_eq_true'] at invalid
  exact ⟨w, _, _, frames, can, mended, rfl, invalid, recovered, pages⟩

/-- **The log before the data, and the data before the boundary.** In every run, a page image
on its way to disk holds the first records of its page, which are durable, and no later record
starts before the redo boundary. -/
theorem log_before_data {events : List (Event fmt χ)} {w : World fmt χ}
    (run : Transition.Run World.step (World.Crashes World.Mended) World.fresh events w) {key : PageKey}
    {image : Page fmt} (written : image ∈ w.writes key) :
    ∃ n, replay (zero _) (((records key w.log).take n).map fun e => (e.record.lsn, e.record.kind)) = .ok image ∧
      (∀ e ∈ (records key w.log).take n, e.record.lsn ≤ w.durableLsn) ∧
      ∀ e ∈ (records key w.log).drop n, w.pageRedoLsn ≤ e.replayFrom := by
  have inv : w.Inv := run.invariant (fun _ _ _ inv crashes taken => inv.step crashes taken) .fresh
  have unclean (clean : Clean (w.view key)) : False := by
    simp [show w.writes key = [] from clean.writes] at written
  cases inv.pages key with
  | absent _ clean => exact (unclean clean).elim
  | clean _ _ _ _ clean => exact (unclean clean).elim
  | dirty f b e _ _ dirty =>
    obtain ⟨n, lt, landed⟩ := dirty.writes image written
    refine ⟨n, landed.built.replay, landed.durable, fun e' mem => ?_⟩
    obtain ⟨k, at_⟩ := mem_iff_getElem?.mp mem
    rw [getElem?_drop] at at_
    exact dirty.stored.trans (inv.replayFrom_le dirty.first at_ (lt.le.trans (Nat.le_add_right n k)))

/-- The write of a steal holds the page's records, all of them durable. -/
theorem log_before_data_stolen : ∃ (w : World PageFormat.summed Empty) (image : Page _) (n : Nat),
    image ∈ w.writes (1, 0) ∧
    replay (zero _) (((records (1, 0) w.log).take n).map fun e => (e.record.lsn, e.record.kind)) =
      .ok image ∧
    (∀ e ∈ (records (1, 0) w.log).take n, e.record.lsn ≤ w.durableLsn) ∧
    ∀ e ∈ (records (1, 0) w.log).drop n, w.pageRedoLsn ≤ e.replayFrom := by
  obtain ⟨w, alone, pending⟩ : ∃ w : World PageFormat.summed Empty,
      Transition.Run World.step (fun _ event => event.isRestart = false) World.fresh flushedAlone w ∧
      w.writes (1, 0) ≠ [] := Transition.Run.evaluated (by decide +kernel)
  obtain ⟨image, mem⟩ := exists_mem_of_ne_nil _ pending
  obtain ⟨n, held⟩ := log_before_data (alone.mono fun _ event fine => by
    cases event with
    | restart => cases fine
    | _ => exact True.intro) mem
  exact ⟨w, image, n, mem, held⟩

/-- Page (1, 0) gets a row, while page (1, 1) is dirty. A checkpoint flushes the first page and
skips the second, which therefore sets the redo boundary. The first page gets another row,
logged as a full image, and is being written when the crash comes. -/
def flushedBehind : List (Event PageFormat.summed Empty) :=
  [.newPage (1, 0), .change (1, 0) .init 7 10, .newPage (1, 1), .change (1, 1) .init 7 10,
    .change (1, 0) (.insert [1] false) 7 10, .capture (1, 0), .writeCaptured (1, 0), .sync (1, 0),
    .finishCheckpoint (1, 0), .takeBoundary, .storeControl, .change (1, 0) (.insert [2] true) 7 10,
    .reserve (1, 0), .stealWrite (1, 0)]

/-- The redo boundary lies before the first row of page (1, 0): its record is redone on the
zeroed page, and recovery fails. -/
theorem torn_page_stops_recovery : ∃ (w : World PageFormat.summed Empty) (crash : Crash _)
    (e : DbError), Transition.Run World.step (fun _ event => event.isRestart = false) World.fresh
      flushedBehind w ∧ w.CanCrash crash ∧ w.recover crash = .error e := by
  obtain ⟨w, run, durable, pending, torn, fails⟩ : ∃ w : World PageFormat.summed Empty,
      Transition.Run World.step (fun _ event => event.isRestart = false) World.fresh flushedBehind w ∧
      w.durableLsn ≤ w.writtenLsn ∧ w.writes (1, 0) ≠ [] ∧
      ((tornWrite w (1, 0)).left.all fun left => !isValid left.2.page) = true ∧
      (w.recover (tornWrite w (1, 0))).isOk = false := Transition.Run.evaluated (by decide +kernel)
  cases recovered : w.recover (tornWrite w (1, 0)) with
  | ok frames =>
    rw [recovered] at fails
    cases fails
  | error e => exact ⟨w, _, e, run, canCrash_tornWrite durable pending torn, recovered⟩

end Saguaro.Recovery
