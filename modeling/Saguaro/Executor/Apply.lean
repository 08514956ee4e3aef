/-
The dependent join (`crates/executor/src/ops/apply.rs`): for each outer row the subquery
template is run with the correlation values of that row, and its result is kept in a memo
under those values.

* `ApplyMemo` keeps the least recently used order and gives entries up while its memory
  reservation cannot grow. How the reservation, the capacity of the hash map and the
  allocator answer is a `Budget`: any sequence of answers.
* `ApplyOp` is the scalar, EXISTS and IN form, `LateralApplyOp` the one that appends rows.
* What running a plan gives is a parameter `execute`: the rows until the plan ends or fails,
  for the contents of the database at that moment. A plan in the source of an UPDATE or DELETE
  runs while the statement writes, so two outer rows may meet different contents.

Cancellation and failures of spill files are left out, and a tape is the list of its records.
-/

import Saguaro.Executor.Expr

namespace Saguaro.Executor

open Result

/-- The answers of `try_grow`, of the test that the map is full and of `try_reserve`, in the
order in which they are asked. -/
structure Budget where
  answers : Nat → Bool
  asked : Nat

def Budget.ask (budget : Budget) : Bool × Budget :=
  (budget.answers budget.asked, { budget with asked := budget.asked + 1 })

/-- A result of the template. A tape of the source is the list of its records. -/
inductive MemoPayload where
  | scalar (value : Value)
  | column (values : List Value)
  | rows (rows : List Row)
  deriving DecidableEq

structure MemoEntry where
  key : List Value
  payload : MemoPayload
  lastUsed : Nat
  deriving DecidableEq

structure ApplyMemo where
  entries : List MemoEntry
  access : Nat
  budget : Budget

namespace ApplyMemo

def new (budget : Budget) : ApplyMemo := ⟨[], 0, budget⟩

/-- The entries in the order of their last use. -/
def byUse (memo : ApplyMemo) : List MemoEntry :=
  memo.entries.mergeSort fun a b => decide (a.lastUsed ≤ b.lastUsed)

/-- The next access number; when the counter is used up the entries are numbered anew. -/
def tick (memo : ApplyMemo) : Nat × ApplyMemo :=
  if memo.access + 1 < 2 ^ 64 then (memo.access + 1, { memo with access := memo.access + 1 })
  else
    let used (entry : MemoEntry) := memo.byUse.findIdx (keyEq entry.key ·.key) + 1
    let entries := memo.entries.map fun entry => { entry with lastUsed := used entry }
    (entries.length + 1, { memo with entries, access := entries.length + 1 })

def get (memo : ApplyMemo) (key : List Value) : Option MemoPayload × ApplyMemo :=
  let (used, memo) := memo.tick
  match memo.entries.find? (keyEq ·.key key) with
  | none => (none, memo)
  | some entry =>
    let touch (e : MemoEntry) := if keyEq e.key key then { e with lastUsed := used } else e
    (some entry.payload, { memo with entries := memo.entries.map touch })

/-- The entry used longest ago. -/
def victim (memo : ApplyMemo) : Option MemoEntry := memo.byUse.head?

/-- Gives up one entry, or is `none` when there is none. -/
def evict (memo : ApplyMemo) : Option ApplyMemo := memo.victim.map fun entry =>
    { memo with entries := memo.entries.filter fun e => !keyEq e.key entry.key }

/-- One answer of the environment. -/
def ask (memo : ApplyMemo) : Bool × ApplyMemo :=
  (memo.budget.ask.1, { memo with budget := memo.budget.ask.2 })

/-- `while !self.reservation.try_grow(charge)`: an entry is given up for each refusal. `fuel` is
the number of entries, after which a refusal finds no victim. -/
def growFor : Nat → ApplyMemo → Bool × ApplyMemo
  | 0, memo => memo.ask
  | fuel + 1, memo =>
    let (granted, memo) := memo.ask
    if granted then (true, memo)
    else match memo.evict with
      | none => (false, memo)
      | some smaller => growFor fuel smaller

/-- The loop that makes room in the hash map: it ends when the map has room, or when the
growth of the map is granted, and then with what the allocator says. -/
def growMap : Nat → ApplyMemo → Bool × ApplyMemo
  | fuel, memo =>
    let (full, memo) := memo.ask
    if !full then (true, memo)
    else
      let (granted, memo) := memo.ask
      if granted then memo.ask
      else match fuel, memo.evict with
        | fuel + 1, some smaller => growMap fuel smaller
        | _, _ => (false, memo)

/-- `HashMap::insert`: an equal key keeps its place and its representation. -/
def put (memo : ApplyMemo) (key : List Value) (payload : MemoPayload) (used : Nat) : ApplyMemo :=
  if memo.entries.any (keyEq ·.key key) then
    { memo with entries := memo.entries.map fun e =>
        if keyEq e.key key then ⟨e.key, payload, used⟩ else e }
  else { memo with entries := memo.entries ++ [⟨key, payload, used⟩] }

def insert (memo : ApplyMemo) (key : List Value) (payload : MemoPayload) : Bool × ApplyMemo :=
  match memo.growFor memo.entries.length with
  | (false, memo) => (false, memo)
  | (true, memo) =>
    match memo.growMap memo.entries.length with
    | (false, memo) => (false, memo)
    | (true, memo) =>
      let (used, memo) := memo.tick
      (true, memo.put key payload used)

end ApplyMemo

/-! ### The template's result -/

/-- What an executor produces: rows, then its end or a failure. -/
structure Produced where
  rows : List Row
  failure : Option DbError

namespace Produced

/-- One call of `next`. -/
def next (p : Produced) : Result (Option (Row × Produced)) :=
  match p.rows, p.failure with
  | row :: rest, _ => .ok (some (row, { p with rows := rest }))
  | [], some failure => .error failure
  | [], none => .ok none

/-- All rows, read to the end. -/
def drain (p : Produced) : Result (List Row) :=
  match p.failure with
  | some failure => .error failure
  | none => .ok p.rows

end Produced

def singleValue (row : Row) : Result Value :=
  match row.values with
  | [value] => .ok value
  | _ => .error (.internal
      "subquery used as a value produced a row with the wrong number of columns")

/-- The values of a column that is read one row at a time: a row of the wrong shape stops it
before a later failure is met. -/
def columnOf : List Row → Option DbError → Result (List Value)
  | [], some failure => .error failure
  | [], none => .ok []
  | row :: rest, failure => do
      let value ← singleValue row
      let values ← columnOf rest failure
      .ok (value :: values)

inductive ApplyKind where
  | scalar
  | exists (negated : Bool)
  | inList (operand : BoundExpr) (negated : Bool)
  | lateral

/-- The part of `subplan_result` that runs the inner executor. -/
def payloadOf (kind : ApplyKind) (inner : Produced) : Result MemoPayload :=
  match kind with
  | .scalar => do
      match ← inner.next with
      | none => .ok (.scalar .null)
      | some (row, inner) =>
        match ← inner.next with
        | some _ => .error (.execute .cardinalityViolation
            "more than one row returned by a subquery used as an expression")
        | none => do
            let value ← singleValue row
            .ok (.scalar value)
  | .exists negated => do
      let first ← inner.next
      .ok (.scalar (.boolean (first.isSome ^^ negated)))
  | .inList _ _ => do
      let values ← columnOf inner.rows inner.failure
      .ok (.column values)
  | .lateral => .error (.internal "lateral apply was routed to the scalar apply executor")

/-- What the input executor returns to one call of `next`, with the contents of the database
that the template would read at that moment. -/
structure Pull (Database : Type) where
  outer : Result ExecRow
  database : Database

variable {Database : Type}

/-- The correlation values of an outer row. -/
def correlationKey (functions : Functions) (correlations : List BoundExpr) (outer : ExecRow) :
    Result (List Value) := correlations.mapM (evalExpr functions outer)

/-- Runs the template for one tuple of correlation values. -/
def runTemplate (execute : Database → PhysicalPlan → Produced) (subplan : PhysicalPlan)
    (database : Database) (key : List Value) : Result Produced := do
  let plan ← substituteTemplate key subplan
  .ok (execute database plan)

/-- The memo around a computation: a hit is returned, a computed result is kept. This is the
frame of `subplan_result` and of `inner_rows`. -/
def recallEntry (memo : Option ApplyMemo) (key : List Value) (compute : Result MemoPayload) :
    Result MemoPayload × Option ApplyMemo :=
  match memo with
  | none => (compute, none)
  | some memo =>
    match memo.get key with
    | (some payload, memo) => (.ok payload, some memo)
    | (none, memo) =>
      match compute with
      | .error e => (.error e, some memo)
      | .ok payload => (.ok payload, some (memo.insert key payload).2)

/-! ### `ApplyOp` -/

structure ApplyOp (Database : Type) where
  input : List (Pull Database)
  subplan : PhysicalPlan
  correlations : List BoundExpr
  kind : ApplyKind
  memo : Option ApplyMemo

/-- `ApplyOp::new` and `LateralApplyOp::new`: no memo for a template with a sequence function,
nor when the reservation is refused. -/
def newMemo (subplan : PhysicalPlan) (reserved : Bool) (budget : Budget) : Option ApplyMemo :=
  if planHasVolatileExprs subplan then none
  else if reserved then some (.new budget) else none

def freshPayload (execute : Database → PhysicalPlan → Produced) (subplan : PhysicalPlan)
    (kind : ApplyKind) (database : Database) (key : List Value) : Result MemoPayload := do
  let inner ← runTemplate execute subplan database key
  payloadOf kind inner

/-- The verdict of `in_membership`: a match is true; otherwise a NULL operand or element makes
it NULL. -/
def membershipLoop (operand : Value) : List Value → Bool → Result (Bool × Bool)
  | [], sawNull => .ok (false, sawNull)
  | value :: rest, sawNull =>
    if value = .null then membershipLoop operand rest true
    else do
      let equal ← compareValues operand .eq value
      if equal = .boolean true then .ok (true, sawNull) else membershipLoop operand rest sawNull

def inMembership (operand : Value) (column : List Value) (negated : Bool) : Result Value :=
  if operand = .null then .ok .null
  else do
    match ← membershipLoop operand column false with
    | (true, _) => .ok (.boolean !negated)
    | (false, true) => .ok .null
    | (false, false) => .ok (.boolean negated)

/-- The value appended to the outer row. -/
def appendedValue (functions : Functions) (kind : ApplyKind) (outer : ExecRow) :
    MemoPayload → Result Value
  | .scalar value =>
    match kind with
    | .scalar => .ok value
    | .exists _ => .ok value
    | _ => .error (.internal "apply result shape mismatch")
  | .column column =>
    match kind with
    | .inList operand negated => do
        let operand ← evalExpr functions outer operand
        inMembership operand column negated
    | _ => .error (.internal "apply result shape mismatch")
  | .rows _ => .error (.internal "apply result shape mismatch")

def ApplyOp.next (functions : Functions) (execute : Database → PhysicalPlan → Produced)
    (op : ApplyOp Database) : Result (Option ExecRow) × ApplyOp Database :=
  match op.input with
  | [] => (.ok none, op)
  | pull :: rest =>
    let op := { op with input := rest }
    match pull.outer with
    | .error e => (.error e, op)
    | .ok outer =>
      match correlationKey functions op.correlations outer with
      | .error e => (.error e, op)
      | .ok key =>
        let (entry, memo) := recallEntry op.memo key
          (freshPayload execute op.subplan op.kind pull.database key)
        let result := do
          let entry ← entry
          let appended ← appendedValue functions op.kind outer entry
          .ok (some ⟨⟨outer.row.values ++ [appended]⟩, outer.identity⟩)
        (result, { op with memo })

/-! ### `LateralApplyOp` -/

structure LateralApplyOp (Database : Type) where
  input : List (Pull Database)
  subplan : PhysicalPlan
  correlations : List BoundExpr
  leftJoin : Bool
  condition : Option BoundExpr
  innerWidth : Nat
  memo : Option ApplyMemo
  currentOuter : Option ExecRow
  currentReader : Option (List Row)
  currentMatched : Bool

def freshRows (execute : Database → PhysicalPlan → Produced) (subplan : PhysicalPlan)
    (database : Database) (key : List Value) : Result MemoPayload := do
  let inner ← runTemplate execute subplan database key
  let rows ← inner.drain
  .ok (.rows rows)

namespace LateralApplyOp

/-- The rows of the template still to be combined with the outer row, up to the next one that
meets the condition. -/
def scanReader (functions : Functions) (condition : Option BoundExpr) (outer : ExecRow) :
    List Row → Result (Option ExecRow) × List Row
  | [] => (.ok none, [])
  | inner :: rest =>
    let combined : ExecRow := ⟨⟨outer.row.values ++ inner.values⟩, outer.identity⟩
    match condition with
    | none => (.ok (some combined), rest)
    | some expr =>
      match predicateMatches functions expr combined with
      | .error e => (.error e, rest)
      | .ok true => (.ok (some combined), rest)
      | .ok false => scanReader functions condition outer rest

/-- The part of `next` before an outer row is pulled: what it returns, or nothing when the
reader is used up. -/
def scanCurrent (functions : Functions) (op : LateralApplyOp Database) :
    Option (Result (Option ExecRow)) × LateralApplyOp Database :=
  match op.currentReader with
  | none => (none, op)
  | some reader =>
    match op.currentOuter with
    | none =>
      match reader with
      | [] => (some (.error (.internal "lateral Apply reader lost its outer row")),
          { op with currentReader := none })
      | _ :: rest => (some (.error (.internal "lateral Apply reader has no outer row")),
          { op with currentReader := some rest })
    | some outer =>
      match scanReader functions op.condition outer reader with
      | (.error e, rest) => (some (.error e), { op with currentReader := some rest })
      | (.ok (some combined), rest) =>
        (some (.ok (some combined)), { op with currentReader := some rest, currentMatched := true })
      | (.ok none, _) =>
        let done := { op with currentReader := none, currentOuter := none }
        if op.leftJoin && !op.currentMatched then
          let padding := List.replicate op.innerWidth .null
          (some (.ok (some ⟨⟨outer.row.values ++ padding⟩, outer.identity⟩)), done)
        else (none, done)

/-- Takes an outer row and its template rows as the current ones. -/
def loadOuter (functions : Functions) (execute : Database → PhysicalPlan → Produced)
    (op : LateralApplyOp Database) (pull : Pull Database) : Result Unit × LateralApplyOp Database :=
  match pull.outer with
  | .error e => (.error e, op)
  | .ok outer =>
    match correlationKey functions op.correlations outer with
    | .error e => (.error e, op)
    | .ok key =>
      match recallEntry op.memo key (freshRows execute op.subplan pull.database key) with
      | (.error e, memo) => (.error e, { op with memo })
      | (.ok (.rows rows), memo) =>
        (.ok (), { op with
          memo, currentOuter := some outer, currentReader := some rows, currentMatched := false })
      | (.ok _, memo) => (.error (.internal "apply result shape mismatch"), { op with memo })

/-- The loop of `next` from a point where no reader is open, over the rows left in the
input. -/
def advance (functions : Functions) (execute : Database → PhysicalPlan → Produced) :
    List (Pull Database) → LateralApplyOp Database →
      Result (Option ExecRow) × LateralApplyOp Database
  | [], op => (.ok none, { op with input := [] })
  | pull :: rest, op =>
    match loadOuter functions execute { op with input := rest } pull with
    | (.error e, op) => (.error e, op)
    | (.ok (), op) =>
      match op.scanCurrent functions with
      | (some outcome, op) => (outcome, op)
      | (none, op) => advance functions execute rest op

def next (functions : Functions) (execute : Database → PhysicalPlan → Produced)
    (op : LateralApplyOp Database) : Result (Option ExecRow) × LateralApplyOp Database :=
  match op.scanCurrent functions with
  | (some outcome, op) => (outcome, op)
  | (none, op) => advance functions execute op.input op

end LateralApplyOp

/-! ### A node and its calls -/

/-- An Apply node as its parent sees it. -/
inductive ApplyNode (Database : Type) where
  | apply (op : ApplyOp Database)
  | lateral (op : LateralApplyOp Database)

/-- The calls of a parent. `reopen` is `open`: it starts the input again, with the rows that it
then gives; the memo survives it. -/
inductive Call (Database : Type) where
  | reopen (input : List (Pull Database))
  | next

namespace ApplyNode

def openWith (node : ApplyNode Database) (input : List (Pull Database)) : ApplyNode Database :=
  match node with
  | apply op => .apply { op with input }
  | lateral op => .lateral { op with input, currentReader := none, currentOuter := none }

def next (functions : Functions) (execute : Database → PhysicalPlan → Produced) :
    ApplyNode Database → Result (Option ExecRow) × ApplyNode Database
  | apply op => let (result, op) := op.next functions execute; (result, .apply op)
  | lateral op => let (result, op) := op.next functions execute; (result, .lateral op)

/-- What the calls of `next` in a list of calls return. -/
def results (functions : Functions) (execute : Database → PhysicalPlan → Produced) :
    ApplyNode Database → List (Call Database) → List (Result (Option ExecRow))
  | _, [] => []
  | node, .reopen input :: calls => results functions execute (node.openWith input) calls
  | node, .next :: calls =>
    let (result, node) := node.next functions execute
    result :: results functions execute node calls

def input : ApplyNode Database → List (Pull Database)
  | apply op => op.input
  | lateral op => op.input

def subplan : ApplyNode Database → PhysicalPlan
  | apply op => op.subplan
  | lateral op => op.subplan

def correlations : ApplyNode Database → List BoundExpr
  | apply op => op.correlations
  | lateral op => op.correlations

/-- The node with another memo. -/
def withMemo (node : ApplyNode Database) (memo : Option ApplyMemo) : ApplyNode Database :=
  match node with
  | apply op => .apply { op with memo }
  | lateral op => .lateral { op with memo }

end ApplyNode

/-- The outer rows of a list of calls. -/
def pulls (calls : List (Call Database)) : List (Pull Database) := calls.flatMap fun
    | .reopen input => input
    | .next => []

end Saguaro.Executor
