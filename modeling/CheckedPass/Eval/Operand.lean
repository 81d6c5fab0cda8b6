import CheckedPass.Eval.Error
import CheckedPass.Value.Form
/-!
# Operands

An operator takes its operands apart by the kind it expects, and refuses any other kind.
-/

namespace CheckedPass.Value

/-- The truth value wanted at `site`. -/
def asBool (site : Site) : Value → EvalResult Bool
  | .bool b => .ok b
  | v => .error (.typeMismatch site (.kind .bool) (.kind v.kind))

def asInt (op : Operator) : Value → EvalResult Int
  | .int n => .ok n
  | v => .error (.unexpected op (.kind .int) v)

def asSeq (op : Operator) : Value → EvalResult (List Value)
  | .seq elems => .ok elems
  | v => .error (.unexpected op (.kind .seq) v)

def asSet (op : Operator) : Value → EvalResult (List Value)
  | .set elems => .ok elems
  | v => .error (.unexpected op (.kind .set) v)

def asMultiset (op : Operator) : Value → EvalResult (List (Value × Nat))
  | .multiset counts => .ok counts
  | v => .error (.unexpected op (.kind .multiset) v)

def asMap (op : Operator) : Value → EvalResult (List (Value × Value))
  | .map entries => .ok entries
  | v => .error (.unexpected op (.kind .map) v)

/-- Refuses a value that cannot be compared for equality. -/
def demandComparable (op : Operator) (v : Value) : EvalResult Unit :=
  if v.isFirstOrder then .ok () else .error (.unexpected op .comparable v)

/-- Equality of values that can be compared; the first operand is checked first. -/
def equals (op : Operator) (v w : Value) : EvalResult Bool := do
  v.demandComparable op
  w.demandComparable op
  return v = w

end CheckedPass.Value
