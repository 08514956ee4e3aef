/-
Bound expressions and their evaluation (`crates/planner/src/expr.rs`,
`crates/executor/src/expr.rs`), and the substitution of correlation values into a subquery
template (`substitute_template` in `crates/executor/src/ops/apply.rs`, `rewrite_plan_exprs`
in `crates/planner/src/rewrite.rs`).

The node kinds that a modelled operator looks at have a constructor of their own; the others
are `node` with the results of their operands given to a parameter, so that a node may leave
an operand unevaluated. Plans are trees of operators with expressions: what an operator does
is again a parameter of the results.
-/

import Saguaro.Common.Value
import Saguaro.Common.Error

namespace Saguaro.Executor

open Result

inductive BinOp where
  | add
  | sub
  | mul
  | div
  | mod
  | eq
  | neq
  | lt
  | ltEq
  | gt
  | gtEq
  | and
  | or
  | concat
  | isDistinctFrom
  | isNotDistinctFrom
  deriving DecidableEq

/-- The node kinds without a constructor of their own. The sequence functions are told apart
because a template that has one is never memoised. -/
inductive NodeKind where
  | nextval
  | currval
  | setval
  | other (name : String)
  deriving DecidableEq

def NodeKind.isSequence : NodeKind → Bool
  | nextval => true
  | currval => true
  | setval => true
  | other _ => false

/-- `planner::BoundExpr`. `inputRef` is also `LocalRef`. -/
inductive BoundExpr where
  | literal (value : Value)
  | inputRef (slot : Nat)
  | outerRef (slot : Nat)
  | binaryOp (left : BoundExpr) (op : BinOp) (right : BoundExpr)
  | node (kind : NodeKind) (args : List BoundExpr)

/-! ### Evaluation -/

def datatypeMismatch {α : Type} (message : String) : Result α :=
  .error (.execute .datatypeMismatch message)

/-- Two values of one variant. -/
def sameVariant : Value → Value → Bool
  | .scalar a, .scalar b => a.discriminant == b.discriminant
  | .array _, .array _ => true
  | _, _ => false

def compareValues (left : Value) (op : BinOp) (right : Value) : Result Value :=
  if left = .null ∨ right = .null then .ok .null
  else if sameVariant left right then
    let ordering := left.cmp right
    match op with
    | .eq => .ok (.boolean ordering.isEq)
    | .neq => .ok (.boolean !ordering.isEq)
    | .lt => .ok (.boolean ordering.isLT)
    | .ltEq => .ok (.boolean ordering.isLE)
    | .gt => .ok (.boolean ordering.isGT)
    | .gtEq => .ok (.boolean ordering.isGE)
    | _ => datatypeMismatch "operator is not a comparison operator"
  else datatypeMismatch "comparison operands have different types"

def booleanOrNull (value : Value) (operator : String) : Result (Option Bool) :=
  match value with
  | .scalar .null => .ok none
  | .scalar (.boolean b) => .ok (some b)
  | _ => datatypeMismatch (operator ++ " operands must be boolean")

def sqlAnd (left right : Value) : Result Value := do
  let left ← booleanOrNull left "AND"
  let right ← booleanOrNull right "AND"
  match left, right with
  | some false, _ => .ok (.boolean false)
  | _, some false => .ok (.boolean false)
  | some true, some true => .ok (.boolean true)
  | _, _ => .ok .null

def sqlOr (left right : Value) : Result Value := do
  let left ← booleanOrNull left "OR"
  let right ← booleanOrNull right "OR"
  match left, right with
  | some true, _ => .ok (.boolean true)
  | _, some true => .ok (.boolean true)
  | some false, some false => .ok (.boolean false)
  | _, _ => .ok .null

def evalIsDistinct (left right : Value) (isNot : Bool) : Result Value := do
  let equal ←
    if left = .null ∧ right = .null then pure true
    else if left = .null ∨ right = .null then pure false
    else do
      let equal ← compareValues left .eq right
      pure (equal == .boolean true)
  .ok (.boolean (if isNot then equal else !equal))

/-- What is not modelled of the evaluator: arithmetic and concatenation, and the remaining
node kinds, each a function of the results of its operands. -/
structure Functions where
  arithmetic : BinOp → Value → Value → Result Value
  node : NodeKind → List (Result Value) → Result Value

def evalBinary (functions : Functions) (left : Value) (op : BinOp) (right : Value) : Result Value :=
  match op with
  | .eq | .neq | .lt | .ltEq | .gt | .gtEq => compareValues left op right
  | .and => sqlAnd left right
  | .or => sqlOr left right
  | .isDistinctFrom => evalIsDistinct left right false
  | .isNotDistinctFrom => evalIsDistinct left right true
  | .add | .sub | .mul | .div | .mod | .concat => functions.arithmetic op left right

mutual

/-- `eval_expr`. -/
def evalExpr (functions : Functions) (row : ExecRow) : BoundExpr → Result Value
  | .literal value => .ok value
  | .inputRef slot =>
    match row.row.values[slot]? with
    | some value => .ok value
    | none => .error (.internal s!"input slot {slot} is out of bounds")
  | .outerRef _ => .error (.internal "outer reference reached the executor")
  | .binaryOp left op right => do
      let left ← evalExpr functions row left
      let right ← evalExpr functions row right
      evalBinary functions left op right
  | .node kind args => functions.node kind (evalArgs functions row args)

def evalArgs (functions : Functions) (row : ExecRow) : List BoundExpr → List (Result Value)
  | [] => []
  | arg :: rest => evalExpr functions row arg :: evalArgs functions row rest

end

def predicateMatches (functions : Functions) (expr : BoundExpr) (row : ExecRow) : Result Bool := do
  let value ← evalExpr functions row expr
  pure (value == .boolean true)

/-! ### Plans and templates -/

/-- A physical plan. `apply` is the dependent join; its template `subplan` has outer
references of its own, to the slots of `correlations`. -/
inductive PhysicalPlan where
  | operator (name : String) (exprs : List BoundExpr) (sources : List PhysicalPlan)
  | apply (input subplan : PhysicalPlan) (correlations : List BoundExpr)

mutual

/-- The rewriting of one expression by `substitute_template`: an outer reference becomes the
literal of its slot. -/
def substituteExpr (key : List Value) : BoundExpr → Result BoundExpr
  | .literal value => .ok (.literal value)
  | .inputRef slot => .ok (.inputRef slot)
  | .outerRef slot =>
    match key[slot]? with
    | some value => .ok (.literal value)
    | none => .error (.internal s!"correlation slot {slot} out of bounds")
  | .binaryOp left op right => do
      let left ← substituteExpr key left
      let right ← substituteExpr key right
      .ok (.binaryOp left op right)
  | .node kind args => do
      let args ← substituteExprs key args
      .ok (.node kind args)

def substituteExprs (key : List Value) : List BoundExpr → Result (List BoundExpr)
  | [] => .ok []
  | expr :: rest => do
      let expr ← substituteExpr key expr
      let rest ← substituteExprs key rest
      .ok (expr :: rest)

end

mutual

/-- `substitute_template`. The template of a nested `apply` is not entered: its outer
references are the nested node's. -/
def substituteTemplate (key : List Value) : PhysicalPlan → Result PhysicalPlan
  | .operator name exprs sources => do
      let sources ← substituteTemplates key sources
      let exprs ← substituteExprs key exprs
      .ok (.operator name exprs sources)
  | .apply input subplan correlations => do
      let input ← substituteTemplate key input
      let correlations ← substituteExprs key correlations
      .ok (.apply input subplan correlations)

def substituteTemplates (key : List Value) : List PhysicalPlan → Result (List PhysicalPlan)
  | [] => .ok []
  | plan :: rest => do
      let plan ← substituteTemplate key plan
      let rest ← substituteTemplates key rest
      .ok (plan :: rest)

end

mutual

def exprHasSequence : BoundExpr → Bool
  | .literal _ => false
  | .inputRef _ => false
  | .outerRef _ => false
  | .binaryOp left _ right => exprHasSequence left || exprHasSequence right
  | .node kind args => kind.isSequence || exprsHaveSequence args

def exprsHaveSequence : List BoundExpr → Bool
  | [] => false
  | expr :: rest => exprHasSequence expr || exprsHaveSequence rest

end

mutual

/-- `plan_has_volatile_exprs`: a sequence function anywhere in the plan, the templates of
nested `apply` nodes included. -/
def planHasVolatileExprs : PhysicalPlan → Bool
  | .operator _ exprs sources => exprsHaveSequence exprs || plansHaveVolatileExprs sources
  | .apply input subplan correlations =>
    planHasVolatileExprs input || planHasVolatileExprs subplan || exprsHaveSequence correlations

def plansHaveVolatileExprs : List PhysicalPlan → Bool
  | [] => false
  | plan :: rest => planHasVolatileExprs plan || plansHaveVolatileExprs rest

end

end Saguaro.Executor
