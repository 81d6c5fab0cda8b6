import CheckedPass.Eval.Operand
/-!
# Operators on maps
-/

namespace CheckedPass

namespace Value

/-- Equality of two maps that can be compared. -/
def equalMaps (op : Operator) (v w : Value) : EvalResult Bool := do
  discard (v.asMap op)
  discard (w.asMap op)
  v.equals op w

/-- Whether a value that can be compared is a key; the map is checked first. -/
def inMap (op : Operator) (k map : Value) : EvalResult Bool := do
  let entries ← map.asMap op
  k.demandComparable op
  return (Ascending.get? k entries).isSome

end Value

namespace MapOp

def operator (op : MapOp) : Operator :=
  .eager (.binary (.map op))

def apply (op : MapOp) (v w : Value) : EvalResult Value :=
  match op with
  | .eq => do return .bool (← v.equalMaps op.operator w)
  | .neq => do return .bool (!(← v.equalMaps op.operator w))
  | .mem => do return .bool (← v.inMap op.operator w)
  | .notMem => do return .bool (!(← v.inMap op.operator w))
  | .merge => do
    let m ← v.asMap op.operator
    let n ← w.asMap op.operator
    return .map (Ascending.putAll m n)
  | .subtract => do
    let m ← v.asMap op.operator
    let removed ← w.asSet op.operator
    return .map (m.filter fun p => p.1 ∉ removed)
  | .select => do
    let m ← v.asMap op.operator
    w.demandComparable op.operator
    match Ascending.get? w m with
    | some x => return x
    | none => .error (.invalid op.operator (.missingKey w))

end MapOp

/-- Binds a key to a value. -/
def TernaryOp.updateMap (v k x : Value) : EvalResult Value := do
  let op : Operator := .eager (.ternary .mapUpdate)
  let m ← v.asMap op
  k.demandComparable op
  return .map (Ascending.put k x m)

end CheckedPass
