import CheckedPass.Eval.Operand
/-!
# Operators on sets
-/

namespace CheckedPass

namespace Value

/-- Whether every element of `xs` is one of `ys`. -/
def included (xs ys : List Value) : Bool :=
  xs.all fun x => x ∈ ys

/-- Membership of a value that can be compared; the set is checked first. -/
def inSet (op : Operator) (x set : Value) : EvalResult Bool := do
  let elems ← set.asSet op
  x.demandComparable op
  return x ∈ elems

end Value

namespace SetOp

def operator (op : SetOp) : Operator :=
  .eager (.binary (.set op))

/-- What `f` makes of two sets. -/
def onSets (op : SetOp) (v w : Value) (f : List Value → List Value → Value) : EvalResult Value := do
  let xs ← v.asSet op.operator
  let ys ← w.asSet op.operator
  return f xs ys

def apply (op : SetOp) (v w : Value) : EvalResult Value :=
  match op with
  | .eq => op.onSets v w fun xs ys => .bool (xs = ys)
  | .neq => op.onSets v w fun xs ys => .bool (xs ≠ ys)
  | .subset => op.onSets v w fun xs ys => .bool (Value.included xs ys)
  | .superset => op.onSets v w fun xs ys => .bool (Value.included ys xs)
  | .properSubset =>
    op.onSets v w fun xs ys => .bool (Value.included xs ys && xs.length < ys.length)
  | .properSuperset =>
    op.onSets v w fun xs ys => .bool (Value.included ys xs && ys.length < xs.length)
  | .disjoint => op.onSets v w fun xs ys => .bool (xs.all fun x => x ∉ ys)
  | .union => op.onSets v w fun xs ys => .set (Ascending.union xs ys)
  | .inter => op.onSets v w fun xs ys => .set (xs.filter fun x => x ∈ ys)
  | .diff => op.onSets v w fun xs ys => .set (xs.filter fun x => x ∉ ys)
  | .mem => do return .bool (← v.inSet op.operator w)
  | .notMem => do return .bool (!(← v.inSet op.operator w))

end SetOp

end CheckedPass
