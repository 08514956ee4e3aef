/-
When the memo of an Apply node cannot be noticed.

The memo finds a result under the engine's equality of correlation values, which does not
tell `1 mon` from `30 days` or `1.0` from `1.00`; a template that passes such a value on gives
the row of the first outer value for the second (`equal_intervals_share_result`). The memo is
not noticed, whatever the template, the kind of node, the budget and the order of the calls,
exactly when outer rows with equal correlation values have the same ones and meet the same
database (`memo_transparent`).

`Recorded` says that each entry is a result of the template for an outer row of the node; one
lemma for each function of the memo keeps it, `recallEntry_eq` reads a hit off it, and the two
operators then run in step with their copies that have no memo.
-/

import Saguaro.Executor.Apply

namespace Saguaro.Executor

open Result List

namespace ApplyMemo

variable {P : List Value → MemoPayload → Prop} {memo : ApplyMemo} {key : List Value}
  {payload : MemoPayload}

/-- Every entry is among the results that `P` allows. -/
def Recorded (P : List Value → MemoPayload → Prop) (memo : ApplyMemo) : Prop :=
  ∀ e ∈ memo.entries, P e.key e.payload

theorem Recorded.new (budget : Budget) : Recorded P (.new budget) :=
  fun _ mem => absurd mem not_mem_nil

section

variable (valid : Recorded P memo)

include valid

/-- Touching entries changes neither their keys nor their payloads. -/
theorem Recorded.map {f : MemoEntry → MemoEntry}
    (same : ∀ e, (f e).key = e.key ∧ (f e).payload = e.payload) :
    ∀ e ∈ memo.entries.map f, P e.key e.payload := by
  intro e mem
  obtain ⟨e', mem', rfl⟩ := mem_map.mp mem
  rw [(same e').1, (same e').2]
  exact valid e' mem'

theorem Recorded.tick : Recorded P memo.tick.2 := by
  unfold ApplyMemo.tick
  split
  · exact valid
  · exact valid.map fun _ => ⟨rfl, rfl⟩

theorem Recorded.get : Recorded P (memo.get key).2 := by
  unfold ApplyMemo.get
  dsimp only
  split
  · exact valid.tick
  · refine Recorded.map valid.tick fun e => ?_
    split <;> exact ⟨rfl, rfl⟩

/-- A hit is an entry under an equal key. -/
theorem get_eq_some (hit : (memo.get key).1 = some payload) :
    ∃ key', keyEq key' key = true ∧ P key' payload := by
  unfold get at hit
  dsimp only at hit
  split at hit
  · cases hit
  rename_i entry found
  cases hit
  have equal := List.find?_some found
  exact ⟨entry.key, equal, valid.tick entry (mem_of_find?_eq_some found)⟩

theorem Recorded.evict {smaller : ApplyMemo}
    (evicted : memo.evict = some smaller) : Recorded P smaller := by
  obtain ⟨entry, -, rfl⟩ := Option.map_eq_some_iff.mp evicted
  exact fun e mem => valid e (mem_filter.mp mem).1

theorem Recorded.ask : Recorded P memo.ask.2 := valid

end

theorem Recorded.growFor (fuel : Nat) (valid : Recorded P memo) :
    Recorded P (memo.growFor fuel).2 := by
  induction fuel generalizing memo with
  | zero => exact valid.ask
  | succ fuel ih =>
    unfold growFor
    dsimp only
    split
    · exact valid.ask
    split
    · exact valid.ask
    · exact ih (valid.ask.evict ‹_›)

theorem Recorded.growMap (fuel : Nat) (valid : Recorded P memo) :
    Recorded P (memo.growMap fuel).2 := by
  induction fuel generalizing memo with
  | zero =>
    unfold growMap
    dsimp only
    split
    · exact valid.ask
    split
    · exact valid.ask.ask.ask
    · exact valid.ask.ask
  | succ fuel ih =>
    unfold growMap
    dsimp only
    split
    · exact valid.ask
    split
    · exact valid.ask.ask.ask
    split
    · rename_i same evicted
      cases same
      exact ih (valid.ask.ask.evict evicted)
    · exact valid.ask.ask

theorem Recorded.put (valid : Recorded P memo) {used : Nat} (res : P key payload)
    (repl : ∀ key' payload', P key' payload' → keyEq key' key = true → P key' payload) :
    Recorded P (memo.put key payload used) := by
  unfold ApplyMemo.put
  split
  · intro e mem
    obtain ⟨e', mem', rfl⟩ := mem_map.mp mem
    split
    · exact repl _ _ (valid e' mem') ‹_›
    · exact valid e' mem'
  intro e mem
  rcases mem_append.mp mem with mem | mem
  · exact valid e mem
  · cases mem_singleton.mp mem
    exact res

theorem Recorded.insert (valid : Recorded P memo) (res : P key payload)
    (repl : ∀ key' payload', P key' payload' → keyEq key' key = true → P key' payload) :
    Recorded P (memo.insert key payload).2 := by
  have grown := valid.growFor memo.entries.length
  unfold ApplyMemo.insert
  generalize memo.growFor memo.entries.length = g at grown
  obtain ⟨_ | _, memo₁⟩ := g
  · exact grown
  have roomy := grown.growMap memo₁.entries.length
  dsimp only at roomy ⊢
  generalize memo₁.growMap memo₁.entries.length = g at roomy
  obtain ⟨_ | _, memo₂⟩ := g
  · exact roomy
  · exact Recorded.put (Recorded.tick roomy) res repl

end ApplyMemo

open ApplyMemo

/-! ### The memo around a computation -/

variable {P : List Value → MemoPayload → Prop} {memo : Option ApplyMemo} {key : List Value}
  {compute : Result MemoPayload}

/-- A node without a memo records nothing. -/
def Records (P : List Value → MemoPayload → Prop) (memo : Option ApplyMemo) : Prop :=
  ∀ m ∈ memo, Recorded P m

/-- The computation gives every recorded result of an equal key, so the memo is not noticed. -/
theorem recallEntry_eq (valid : Records P memo)
    (agree : ∀ key' payload, P key' payload → keyEq key' key = true → compute = .ok payload) :
    (recallEntry memo key compute).1 = compute := by
  cases memo with
  | none => rfl
  | some memo =>
    unfold recallEntry
    dsimp only
    split
    · rename_i payload memo' hit
      have found : (memo.get key).1 = some payload := by rw [hit]
      obtain ⟨key', equal, noted⟩ := get_eq_some (valid memo rfl) found
      exact (agree key' payload noted equal).symm
    · cases compute <;> rfl

theorem recallEntry_records (valid : Records P memo)
    (agree : ∀ key' payload, P key' payload → keyEq key' key = true → compute = .ok payload)
    (keep : ∀ payload, compute = .ok payload → P key payload) :
    Records P (recallEntry memo key compute).2 := by
  cases memo with
  | none => exact valid
  | some memo =>
    have got : Recorded P (memo.get key).2 := (valid memo rfl).get
    unfold recallEntry
    dsimp only
    split
    · rename_i hit
      rw [hit] at got
      rintro m ⟨rfl⟩
      exact got
    rename_i miss
    rw [miss] at got
    cases compute with
    | error e =>
      rintro m ⟨rfl⟩
      exact got
    | ok payload =>
      rintro m ⟨rfl⟩
      refine got.insert (keep payload rfl) fun key' payload' noted equal => ?_
      cases agree key' payload' noted equal
      exact noted

theorem recallEntry_eq_pair (valid : Records P memo)
    (agree : ∀ key' payload, P key' payload → keyEq key' key = true → compute = .ok payload) :
    recallEntry memo key compute = (compute, (recallEntry memo key compute).2) :=
  Prod.ext (recallEntry_eq valid agree) rfl

/-- Without a memo the computation is always made. -/
theorem recallEntry_none : recallEntry none key compute = (compute, none) := rfl

/-! ### Nodes with and without a memo -/

variable {Database : Type} {functions : Functions} {execute : Database → PhysicalPlan → Produced}

/-- Outer rows whose correlation values the memo takes for the same have them in the same
representation, and their templates would read the same database. -/
def Alike (functions : Functions) (correlations : List BoundExpr)
    (all : Set (Pull Database)) : Prop :=
  ∀ p ∈ all, ∀ q ∈ all, ∀ a b x y, p.outer = .ok a → q.outer = .ok b →
    correlationKey functions correlations a = .ok x →
    correlationKey functions correlations b = .ok y → keyEq x y = true →
    x = y ∧ p.database = q.database

/-- A result of the template for an outer row: what the entries of a memo are. -/
def Answer (functions : Functions) (correlations : List BoundExpr) (all : Set (Pull Database))
    (fresh : Database → List Value → Result MemoPayload) (key : List Value)
    (payload : MemoPayload) : Prop := ∃ p ∈ all, ∃ outer, p.outer = .ok outer ∧
    correlationKey functions correlations outer = .ok key ∧ fresh p.database key = .ok payload

section Answers

variable {correlations : List BoundExpr} {all : Set (Pull Database)} {pull : Pull Database} {outer : ExecRow}

theorem Alike.agree (alike : Alike functions correlations all)
    (fresh : Database → List Value → Result MemoPayload) (mem : pull ∈ all)
    (ok : pull.outer = .ok outer) (keyed : correlationKey functions correlations outer = .ok key)
    (key' : List Value) (payload : MemoPayload)
    (answer : Answer functions correlations all fresh key' payload)
    (equal : keyEq key' key = true) : fresh pull.database key = .ok payload := by
  obtain ⟨p, mem', outer', ok', keyed', res⟩ := answer
  obtain ⟨rfl, same⟩ := alike p mem' pull mem _ _ _ _ ok' ok keyed' keyed equal
  rw [← same]
  exact res

end Answers

namespace ApplyOp

variable {op : ApplyOp Database} {all : Set (Pull Database)}

/-- The operator without its memo: it runs the template for every outer row. -/
def bare (op : ApplyOp Database) : ApplyOp Database := { op with memo := none }

/-- What the entries of the operator's memo are. -/
abbrev Entry (functions : Functions) (execute : Database → PhysicalPlan → Produced)
    (all : Set (Pull Database)) (op : ApplyOp Database) : List Value → MemoPayload → Prop :=
  Answer functions op.correlations all (freshPayload execute op.subplan op.kind)

/-- One call: the same result, and the operators stay in step. -/
theorem next_bare (inputs : ∀ p ∈ op.input, p ∈ all)
    (alike : Alike functions op.correlations all)
    (valid : Records (op.Entry functions execute all) op.memo) :
    (op.next functions execute).1 = (op.bare.next functions execute).1 ∧
      (op.next functions execute).2.bare = (op.bare.next functions execute).2 ∧
      Records (op.Entry functions execute all) (op.next functions execute).2.memo := by
  obtain ⟨input, subplan, correlations, kind, memo⟩ := op
  cases input with
  | nil => exact ⟨rfl, rfl, valid⟩
  | cons pull rest =>
    unfold ApplyOp.next
    dsimp only [bare]
    cases ok : pull.outer with
    | error e => exact ⟨rfl, rfl, valid⟩
    | ok outer =>
      dsimp only
      cases keyed : correlationKey functions correlations outer with
      | error e => exact ⟨rfl, rfl, valid⟩
      | ok key =>
        have mem : pull ∈ all := inputs pull (.head _)
        have agree := alike.agree (freshPayload execute subplan kind) mem ok keyed
        dsimp only
        rw [recallEntry_eq valid agree, recallEntry_none]
        refine ⟨rfl, rfl, recallEntry_records valid agree fun payload res => ?_⟩
        exact ⟨pull, mem, outer, ok, keyed, res⟩

theorem next_fields (functions : Functions) (execute : Database → PhysicalPlan → Produced)
    (op : ApplyOp Database) : (op.next functions execute).2.subplan = op.subplan ∧
    (op.next functions execute).2.correlations = op.correlations ∧
    (op.next functions execute).2.kind = op.kind ∧
    (op.next functions execute).2.input = op.input.tail := by
  obtain ⟨input, subplan, correlations, kind, memo⟩ := op
  unfold ApplyOp.next
  cases input with
  | nil => exact ⟨rfl, rfl, rfl, rfl⟩
  | cons pull rest =>
    dsimp only
    split
    · exact ⟨rfl, rfl, rfl, rfl⟩
    · split <;> exact ⟨rfl, rfl, rfl, rfl⟩

end ApplyOp

namespace LateralApplyOp

variable {op : LateralApplyOp Database} {all : Set (Pull Database)} {subplan : PhysicalPlan}
  {correlations : List BoundExpr}

def bare (op : LateralApplyOp Database) : LateralApplyOp Database := { op with memo := none }

/-- The operator runs this template, and its memo holds results for the rows of `all`. -/
structure Tracks (functions : Functions) (execute : Database → PhysicalPlan → Produced)
    (subplan : PhysicalPlan) (correlations : List BoundExpr) (all : Set (Pull Database))
    (op : LateralApplyOp Database) : Prop where
  template : op.subplan = subplan
  keys : op.correlations = correlations
  records : Records (Answer functions correlations all (freshRows execute subplan)) op.memo

/-- Reading on in the current rows does not look at the memo. -/
theorem scanCurrent_bare : op.bare.scanCurrent functions =
    ((op.scanCurrent functions).1, (op.scanCurrent functions).2.bare) := by
  obtain ⟨input, subplan, correlations, leftJoin, cond, innerWidth, memo, outer, reader,
    matched⟩ := op
  rcases reader with _ | reader
  · rfl
  cases outer with
  | none => cases reader <;> rfl
  | some outer =>
    unfold scanCurrent
    dsimp only [bare]
    generalize scanReader functions cond outer reader = scanned
    obtain ⟨_ | _ | combined, rest⟩ := scanned
    · rfl
    · cases leftJoin <;> cases matched <;> rfl
    · rfl

theorem scanCurrent_frame (functions : Functions) (op : LateralApplyOp Database) :
    (op.scanCurrent functions).2.subplan = op.subplan ∧
    (op.scanCurrent functions).2.correlations = op.correlations ∧
    (op.scanCurrent functions).2.memo = op.memo ∧
    (op.scanCurrent functions).2.input = op.input := by
  obtain ⟨input, subplan, correlations, leftJoin, cond, innerWidth, memo, outer, reader,
    matched⟩ := op
  rcases reader with _ | reader
  · exact ⟨rfl, rfl, rfl, rfl⟩
  cases outer with
  | none => cases reader <;> exact ⟨rfl, rfl, rfl, rfl⟩
  | some outer =>
    unfold scanCurrent
    dsimp only
    generalize scanReader functions cond outer reader = scanned
    obtain ⟨_ | _ | combined, rest⟩ := scanned
    · exact ⟨rfl, rfl, rfl, rfl⟩
    · dsimp only
      split <;> exact ⟨rfl, rfl, rfl, rfl⟩
    · exact ⟨rfl, rfl, rfl, rfl⟩

theorem Tracks.scanCurrent (tracks : op.Tracks functions execute subplan correlations all) :
    (op.scanCurrent functions).2.Tracks functions execute subplan correlations all := by
  obtain ⟨same, same', memo, -⟩ := scanCurrent_frame functions op
  exact ⟨same.trans tracks.template, same'.trans tracks.keys, memo ▸ tracks.records⟩

theorem Tracks.withInput (tracks : op.Tracks functions execute subplan correlations all)
    (input : List (Pull Database)) :
    { op with input := input }.Tracks functions execute subplan correlations all :=
  ⟨tracks.template, tracks.keys, tracks.records⟩

theorem loadOuter_bare {pull : Pull Database} (mem : pull ∈ all)
    (alike : Alike functions correlations all)
    (tracks : op.Tracks functions execute subplan correlations all) :
    op.bare.loadOuter functions execute pull =
        ((op.loadOuter functions execute pull).1, (op.loadOuter functions execute pull).2.bare) ∧
      (op.loadOuter functions execute pull).2.Tracks functions execute subplan correlations all ∧
      (op.loadOuter functions execute pull).2.input = op.input := by
  obtain ⟨input, template, _, leftJoin, cond, innerWidth, memo, now, reader, matched⟩ := op
  obtain ⟨rfl, rfl, records⟩ := tracks
  unfold loadOuter
  dsimp only [bare]
  cases ok : pull.outer with
  | error e => exact ⟨rfl, ⟨rfl, rfl, records⟩, rfl⟩
  | ok outer =>
    dsimp only
    cases keyed : correlationKey functions _ outer with
    | error e => exact ⟨rfl, ⟨rfl, rfl, records⟩, rfl⟩
    | ok key =>
      have agree := alike.agree (freshRows execute template) mem ok keyed
      have kept := recallEntry_records records agree fun payload res =>
        ⟨pull, mem, outer, ok, keyed, res⟩
      dsimp only
      rw [recallEntry_none, recallEntry_eq_pair records agree]
      generalize (recallEntry memo key _).2 = memo' at kept
      generalize freshRows execute _ pull.database key = res
      rcases res with _ | _ | _ | rows <;> exact ⟨rfl, ⟨rfl, rfl, kept⟩, rfl⟩

/-- The loop over the input keeps in step with the loop that runs the template each time. -/
theorem advance_bare (input : List (Pull Database)) (inputs : ∀ p ∈ input, p ∈ all)
    (alike : Alike functions correlations all)
    (tracks : op.Tracks functions execute subplan correlations all) :
    op.bare.advance functions execute input =
        ((op.advance functions execute input).1, (op.advance functions execute input).2.bare) ∧
      (op.advance functions execute input).2.Tracks functions execute subplan correlations all ∧
      ∀ p ∈ (op.advance functions execute input).2.input, p ∈ all := by
  induction input generalizing op with
  | nil => exact ⟨rfl, tracks.withInput [], nofun⟩
  | cons pull rest ih =>
    have later : ∀ p ∈ rest, p ∈ all := fun p mem => inputs p (.tail _ mem)
    obtain ⟨same, loaded, kept⟩ := loadOuter_bare (inputs pull (.head _)) alike
      (tracks.withInput rest)
    have same : { op.bare with input := rest }.loadOuter functions execute pull = _ := same
    unfold advance
    rw [same]
    generalize { op with input := rest }.loadOuter functions execute pull = load at loaded kept
    obtain ⟨_ | _, op'⟩ := load
    · exact ⟨rfl, loaded, kept ▸ later⟩
    dsimp only
    rw [scanCurrent_bare]
    have scanned := loaded.scanCurrent
    have frame := (scanCurrent_frame functions op').2.2.2
    generalize op'.scanCurrent functions = scan at scanned frame
    obtain ⟨_ | out, op''⟩ := scan
    · exact ih later scanned
    · exact ⟨rfl, scanned, (frame.trans kept) ▸ later⟩

theorem next_bare (inputs : ∀ p ∈ op.input, p ∈ all)
    (alike : Alike functions correlations all)
    (tracks : op.Tracks functions execute subplan correlations all) :
    op.bare.next functions execute =
        ((op.next functions execute).1, (op.next functions execute).2.bare) ∧
      (op.next functions execute).2.Tracks functions execute subplan correlations all ∧
      ∀ p ∈ (op.next functions execute).2.input, p ∈ all := by
  unfold next
  rw [scanCurrent_bare]
  have scanned := tracks.scanCurrent
  have frame := (scanCurrent_frame functions op).2.2.2
  generalize op.scanCurrent functions = scan at scanned frame
  obtain ⟨_ | out, op'⟩ := scan
  · exact advance_bare op'.input (frame ▸ inputs) alike scanned
  · exact ⟨rfl, scanned, frame ▸ inputs⟩

end LateralApplyOp

namespace ApplyNode

/-- A node and its copy without a memo, at the same place of the same input. -/
inductive InStep (functions : Functions) (execute : Database → PhysicalPlan → Produced)
    (all : Set (Pull Database)) : ApplyNode Database → ApplyNode Database → Prop where
  | apply (op : ApplyOp Database) (inputs : ∀ p ∈ op.input, p ∈ all)
      (alike : Alike functions op.correlations all)
      (valid : Records (op.Entry functions execute all) op.memo) :
      InStep functions execute all (.apply op) (.apply op.bare)
  | lateral (op : LateralApplyOp Database) {subplan : PhysicalPlan}
      {correlations : List BoundExpr} (inputs : ∀ p ∈ op.input, p ∈ all)
      (alike : Alike functions correlations all)
      (tracks : op.Tracks functions execute subplan correlations all) :
      InStep functions execute all (.lateral op) (.lateral op.bare)

variable {node bare : ApplyNode Database} {all : Set (Pull Database)}

theorem InStep.next (step : InStep functions execute all node bare) :
    (node.next functions execute).1 = (bare.next functions execute).1 ∧
      InStep functions execute all (node.next functions execute).2
        (bare.next functions execute).2 := by
  cases step with
  | apply op inputs alike valid =>
    obtain ⟨res, copy, kept⟩ := ApplyOp.next_bare inputs alike valid
    obtain ⟨template, keys, kind, input⟩ := ApplyOp.next_fields functions execute op
    refine ⟨res, ?_⟩
    simp only [ApplyNode.next, ← copy]
    refine .apply _ (fun p mem => inputs p (mem_of_mem_tail (input ▸ mem))) ?_ ?_
    · rw [keys]
      exact alike
    · rw [ApplyOp.Entry, template, keys, kind]
      exact kept
  | lateral op inputs alike tracks =>
    obtain ⟨same, kept, rest⟩ := LateralApplyOp.next_bare inputs alike tracks
    simp only [ApplyNode.next, same, true_and]
    exact .lateral _ rest alike kept

theorem InStep.openWith (step : InStep functions execute all node bare)
    {input : List (Pull Database)} (inputs : ∀ p ∈ input, p ∈ all) :
    InStep functions execute all (node.openWith input) (bare.openWith input) := by
  cases step with
  | apply op _ alike valid =>
    exact .apply { op with input } inputs alike valid
  | lateral op _ alike tracks =>
    exact .lateral { op with input, currentReader := none, currentOuter := none } inputs
      alike ⟨tracks.template, tracks.keys, tracks.records⟩

/-- Nodes in step return the same to every list of calls. -/
theorem InStep.results (step : InStep functions execute all node bare)
    (calls : List (Call Database)) (inputs : ∀ p ∈ pulls calls, p ∈ all) :
    node.results functions execute calls = bare.results functions execute calls := by
  induction calls generalizing node bare with
  | nil => rfl
  | cons call calls ih =>
    have later : ∀ p ∈ pulls calls, p ∈ all := fun p mem => inputs p <| by
      rw [pulls, flatMap_cons]
      exact mem_append_right _ mem
    cases call with
    | reopen input =>
      have here : ∀ p ∈ input, p ∈ all := fun p mem => inputs p <| by
        rw [pulls, flatMap_cons]
        exact mem_append_left _ mem
      exact ih (step.openWith here) later
    | next =>
      obtain ⟨res, rest⟩ := step.next
      exact congrArg₂ List.cons res (ih rest later)

end ApplyNode

/-- A memo as it is built records nothing. -/
theorem newMemo_records (subplan : PhysicalPlan) (reserved : Bool) (budget : Budget) :
    Records P (newMemo subplan reserved budget) := by
  unfold newMemo
  split
  · exact nofun
  split
  · rintro m ⟨rfl⟩
    exact .new budget
  · exact nofun

/-- With outer rows that are alike a node and its copy without a memo return the same. -/
theorem Alike.results {all : Set (Pull Database)} {node : ApplyNode Database}
    (alike : Alike functions node.correlations all) {calls : List (Call Database)}
    (drawn : ∀ p ∈ node.input ++ pulls calls, p ∈ all) (reserved : Bool) (budget : Budget) :
    (node.withMemo (newMemo node.subplan reserved budget)).results functions execute calls =
      (node.withMemo none).results functions execute calls := by
  have inputs : ∀ p ∈ node.input, p ∈ all := fun p mem => drawn p (mem_append_left _ mem)
  have step : ApplyNode.InStep functions execute all
      (node.withMemo (newMemo node.subplan reserved budget)) (node.withMemo none) := by
    cases node with
    | apply op =>
      exact .apply { op with memo := _ } inputs alike
        (newMemo_records op.subplan reserved budget)
    | lateral op =>
      exact .lateral { op with memo := _ } inputs alike
        ⟨rfl, rfl, newMemo_records op.subplan reserved budget⟩
  exact step.results calls fun p mem => drawn p (mem_append_right _ mem)

/-! ### A template that tells the outer rows apart -/

/-- Every request is granted. -/
def plenty : Budget := ⟨fun _ => true, 0⟩

/-- `SELECT` of the first `width` correlation values. -/
def selectSlots (width : Nat) : PhysicalPlan :=
  .operator "Projection" ((range width).map .outerRef) []

/-- The template `selectSlots` with the values put in. -/
def selectValues (key : List Value) : PhysicalPlan :=
  .operator "Projection" (key.map .literal) []

theorem selectValues_inj {x y : List Value} (same : selectValues x = selectValues y) : x = y := by
  injection same with _ literals
  exact map_inj_right (fun _ _ => BoundExpr.literal.inj) |>.mp literals

theorem substituteExprs_slots (key : List Value) (slots : List Nat)
    (inside : ∀ slot ∈ slots, slot < key.length) :
    substituteExprs key (slots.map .outerRef) =
      .ok ((slots.map fun slot => key[slot]?.getD .null).map .literal) := by
  induction slots with
  | nil => rfl
  | cons slot rest ih =>
    have here : slot < key.length := inside slot (.head _)
    simp only [map_cons, substituteExprs, substituteExpr, getElem?_eq_getElem here,
      ih fun s mem => inside s (.tail _ mem), ok_bind, Option.getD_some]

theorem substituteTemplate_selectSlots (key : List Value) :
    substituteTemplate key (selectSlots key.length) = .ok (selectValues key) := by
  have values : (range key.length).map (fun slot => key[slot]?.getD .null) = key := by
    refine ext_getElem (by simp) fun i _ inside => ?_
    simp [getElem?_eq_getElem inside]
  simp only [selectSlots, substituteTemplate, substituteTemplates, ok_bind,
    substituteExprs_slots key _ fun slot mem => mem_range.mp mem, values, selectValues]

theorem selectSlots_stable (width : Nat) : planHasVolatileExprs (selectSlots width) = false := by
  have stable (slots : List Nat) : exprsHaveSequence (slots.map .outerRef) = false := by
    induction slots with
    | nil => rfl
    | cons slot rest ih => simp only [map_cons, exprsHaveSequence, exprHasSequence, ih, Bool.or_self]
  simp only [selectSlots, planHasVolatileExprs, plansHaveVolatileExprs, stable, Bool.or_self]

theorem length_of_correlationKey {correlations : List BoundExpr} {outer : ExecRow}
    (keyed : correlationKey functions correlations outer = .ok key) :
    key.length = correlations.length := by
  unfold correlationKey at keyed
  induction correlations generalizing key with
  | nil =>
    cases keyed
    rfl
  | cons expr rest ih =>
    rw [mapM_cons] at keyed
    obtain ⟨value, -, keyed⟩ := bind_eq_ok.mp keyed
    obtain ⟨values, found, keyed⟩ := bind_eq_ok.mp keyed
    cases keyed
    rw [length_cons, length_cons, ih found]

/-- With room for everything, the second of two outer rows with equal correlation values is
given the result of the first. -/
theorem results_of_equal_keys {p q : Pull Database} {a b : ExecRow} {x y : List Value}
    {subplan : PhysicalPlan} {correlations : List BoundExpr} {first second : Value}
    (stable : planHasVolatileExprs subplan = false) (pa : p.outer = .ok a) (qb : q.outer = .ok b)
    (ax : correlationKey functions correlations a = .ok x)
    (bx : correlationKey functions correlations b = .ok y) (equal : keyEq x y = true)
    (one : freshPayload execute subplan .scalar p.database x = .ok (.scalar first))
    (two : freshPayload execute subplan .scalar q.database y = .ok (.scalar second))
    (transparent : (ApplyNode.apply ⟨[p, q], subplan, correlations, .scalar,
        newMemo subplan true plenty⟩).results functions execute [.next, .next] =
      (ApplyNode.apply ⟨[p, q], subplan, correlations, .scalar, none⟩).results functions execute
        [.next, .next]) : first = second := by
  have kept (payload : MemoPayload) : recallEntry (some (.new plenty)) x (.ok payload) =
      (.ok payload, some ⟨[⟨x, payload, 2⟩], 2, ⟨fun _ => true, 4⟩⟩) := rfl
  have hit (payload : MemoPayload) (compute : Result MemoPayload) :
      (recallEntry (some ⟨[⟨x, payload, 2⟩], 2, ⟨fun _ => true, 4⟩⟩) y compute).1 =
        .ok payload := by
    simp only [recallEntry, ApplyMemo.get, ApplyMemo.tick, Nat.reduceAdd, Nat.reducePow,
      Nat.reduceLT, if_true, find?_cons_of_pos, equal]
  simp only [newMemo, stable, Bool.false_eq_true, if_false, if_true, ApplyNode.results,
    ApplyNode.next, ApplyOp.next, pa, qb, ax, bx, one, two, kept, hit, recallEntry_none,
    ok_bind, appendedValue] at transparent
  simpa using transparent

/-- The memo of an Apply or lateral Apply node cannot be noticed, by any template, any database
that it reads, any budget and any calls over outer rows of `all`, if and only if the rows with
equal correlation values are alike. -/
theorem memo_transparent (functions : Functions) (correlations : List BoundExpr)
    (all : Set (Pull Database)) :
    (∀ (execute : Database → PhysicalPlan → Produced) (node : ApplyNode Database)
        (calls : List (Call Database)) (reserved : Bool) (budget : Budget),
      node.correlations = correlations → (∀ p ∈ node.input ++ pulls calls, p ∈ all) →
      (node.withMemo (newMemo node.subplan reserved budget)).results functions execute calls =
        (node.withMemo none).results functions execute calls) ↔
      Alike functions correlations all := by
  constructor
  · intro transparent p hp q hq a b x y pa qb ax bx equal
    classical
    -- only the first row's template, on the first row's database, gives `true`
    let execute (database : Database) (plan : PhysicalPlan) : Produced :=
      ⟨[⟨[.boolean (decide (p.database = database ∧ selectValues x = plan))]⟩], none⟩
    have answer (database : Database) (key : List Value) (width : key.length = correlations.length) :
        freshPayload execute (selectSlots correlations.length) .scalar database key =
          .ok (.scalar (.boolean (decide (p.database = database ∧ selectValues x =
            selectValues key)))) := by
      rw [freshPayload, runTemplate, ← width, substituteTemplate_selectSlots]
      rfl
    have same := results_of_equal_keys (selectSlots_stable _) pa qb ax bx equal
      (answer _ _ (length_of_correlationKey ax)) (answer _ _ (length_of_correlationKey bx))
      (transparent execute (.apply ⟨[p, q], _, correlations, .scalar, none⟩) [.next, .next] true
        plenty rfl fun r mem => ?_)
    · simp only [true_and, decide_true, Value.boolean, Value.scalar.injEq,
        Scalar.boolean.injEq] at same
      obtain ⟨database, values⟩ := of_decide_eq_true same.symm
      exact ⟨selectValues_inj values, database⟩
    · simp only [ApplyNode.input, pulls, flatMap_cons, flatMap_nil, append_nil, mem_cons,
        not_mem_nil, or_false] at mem
      rcases mem with rfl | rfl
      · exact hp
      · exact hq
  · intro alike execute node calls reserved budget keys drawn
    subst keys
    exact alike.results drawn reserved budget

/-- The functions of the evaluator do not matter below. -/
def noFunctions : Functions := ⟨fun _ _ _ => .ok .null, fun _ _ => .ok .null⟩

/-- Runs `SELECT` lists without `FROM`. -/
def executeSelect (_ : Unit) : PhysicalPlan → Produced
  | .operator _ exprs _ =>
    match exprs.mapM (evalExpr noFunctions ⟨⟨[]⟩, none⟩) with
    | .ok values => ⟨[⟨values⟩], none⟩
    | .error failure => ⟨[], some failure⟩
  | .apply _ _ _ => ⟨[], none⟩

/-- `(SELECT o.x)` in the SELECT list of a query over `o`. -/
def selectOuter : ApplyNode Unit :=
  .apply ⟨[], .operator "Projection" [.outerRef 0] [], [.inputRef 0], .scalar, none⟩

def outerRow (value : Value) : Pull Unit := ⟨.ok ⟨⟨[value]⟩, none⟩, ()⟩

theorem memo_transparent_repeated :
    (selectOuter.withMemo (newMemo selectOuter.subplan true plenty)).results noFunctions
        executeSelect [.reopen [outerRow (.integer 7), outerRow (.integer 7)], .next, .next] =
      (selectOuter.withMemo none).results noFunctions executeSelect
        [.reopen [outerRow (.integer 7), outerRow (.integer 7)], .next, .next] := by
  refine (memo_transparent noFunctions [.inputRef 0] {outerRow (.integer 7)}).mpr ?_
    executeSelect selectOuter _ true plenty rfl ?_
  · rintro p rfl q rfl a b x y pa qb ax bx -
    cases pa.symm.trans qb
    cases ax.symm.trans bx
    exact ⟨rfl, rfl⟩
  · intro p mem
    simpa [ApplyNode.input, selectOuter, pulls] using mem

/-- The outer rows `1 mon` and `30 days` have equal correlation values. With the memo the
second one is given the value of the first, which is displayed differently. -/
theorem equal_intervals_share_result :
    (selectOuter.withMemo (newMemo selectOuter.subplan true plenty)).results noFunctions
        executeSelect [.reopen [outerRow (.interval ⟨1, 0, 0⟩), outerRow (.interval ⟨0, 30, 0⟩)],
          .next, .next] = [.ok (some ⟨⟨[.interval ⟨1, 0, 0⟩, .interval ⟨1, 0, 0⟩]⟩, none⟩),
       .ok (some ⟨⟨[.interval ⟨0, 30, 0⟩, .interval ⟨1, 0, 0⟩]⟩, none⟩)] ∧
    (selectOuter.withMemo none).results noFunctions
        executeSelect [.reopen [outerRow (.interval ⟨1, 0, 0⟩), outerRow (.interval ⟨0, 30, 0⟩)],
          .next, .next] = [.ok (some ⟨⟨[.interval ⟨1, 0, 0⟩, .interval ⟨1, 0, 0⟩]⟩, none⟩),
       .ok (some ⟨⟨[.interval ⟨0, 30, 0⟩, .interval ⟨0, 30, 0⟩]⟩, none⟩)] ∧
    Interval.formatInterval ⟨1, 0, 0⟩ = "1 mon" ∧
    Interval.formatInterval ⟨0, 30, 0⟩ = "30 days" := by
  decide +kernel

end Saguaro.Executor
