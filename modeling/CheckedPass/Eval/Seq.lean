import CheckedPass.Eval.Operand
/-!
# Operators on sequences

Positions count from zero. An index names an element; a bound names a cut, of which there is one
more than there are elements.
-/

namespace CheckedPass

namespace Value

/-- The position that `i` names among `length` elements. -/
def index (op : Operator) (i : Int) (length : Nat) : EvalResult Nat :=
  if 0 ≤ i ∧ i < length then .ok i.toNat else .error (.invalid op (.indexOutOfRange i length))

/-- The cut that `b` names among `length` elements. -/
def bound (op : Operator) (b : Int) (length : Nat) : EvalResult Nat :=
  if 0 ≤ b ∧ b ≤ length then .ok b.toNat else .error (.invalid op (.boundOutOfRange b length))

/-- Equality of two sequences that can be compared. -/
def equalSeqs (op : Operator) (v w : Value) : EvalResult Bool := do
  discard (v.asSeq op)
  discard (w.asSeq op)
  v.equals op w

/-- Two sequences that can be compared. -/
def comparableSeqs (op : Operator) (v w : Value) : EvalResult (List Value × List Value) := do
  let xs ← v.asSeq op
  let ys ← w.asSeq op
  v.demandComparable op
  w.demandComparable op
  return (xs, ys)

/-- Whether `ys` is no shorter than `xs` and has its elements at the same places. -/
def startsWith (ys xs : List Value) : Bool :=
  xs.length ≤ ys.length && (xs.zip ys).all fun p => p.1 = p.2

/-- Membership among elements that can be compared; the sequence is checked first for its kind and
last for its elements. -/
def inSeq (op : Operator) (x seq : Value) : EvalResult Bool := do
  let elems ← seq.asSeq op
  x.demandComparable op
  seq.demandComparable op
  return x ∈ elems

end Value

namespace SeqOp

def operator (op : SeqOp) : Operator :=
  .eager (.binary (.seq op))

def apply (op : SeqOp) (v w : Value) : EvalResult Value :=
  match op with
  | .eq => do return .bool (← v.equalSeqs op.operator w)
  | .neq => do return .bool (!(← v.equalSeqs op.operator w))
  | .begins => do
    let (xs, ys) ← v.comparableSeqs op.operator w
    return .bool (Value.startsWith ys xs)
  | .properlyBegins => do
    let (xs, ys) ← v.comparableSeqs op.operator w
    return .bool (Value.startsWith ys xs && xs.length < ys.length)
  | .concat => do
    let xs ← v.asSeq op.operator
    let ys ← w.asSeq op.operator
    return .seq (xs ++ ys)
  | .mem => do return .bool (← v.inSeq op.operator w)
  | .notMem => do return .bool (!(← v.inSeq op.operator w))
  | .select => do
    let xs ← v.asSeq op.operator
    let i ← w.asInt op.operator
    let n ← Value.index op.operator i xs.length
    match xs[n]? with
    | some x => return x
    | none => .error (.invalid op.operator (.indexOutOfRange i xs.length))
  | .take => do
    let xs ← v.asSeq op.operator
    let n ← Value.bound op.operator (← w.asInt op.operator) xs.length
    return .seq (xs.take n)
  | .drop => do
    let xs ← v.asSeq op.operator
    let n ← Value.bound op.operator (← w.asInt op.operator) xs.length
    return .seq (xs.drop n)

end SeqOp

/-- Replaces the element at an index. -/
def TernaryOp.updateSeq (v i x : Value) : EvalResult Value := do
  let op : Operator := .eager (.ternary .seqUpdate)
  let xs ← v.asSeq op
  let n ← Value.index op (← i.asInt op) xs.length
  return .seq (xs.set n x)

/-- What lies between two cuts, the first not after the second. -/
def TernaryOp.subseq (v lo hi : Value) : EvalResult Value := do
  let op : Operator := .eager (.ternary .seqSubseq)
  let xs ← v.asSeq op
  let m ← Value.bound op (← lo.asInt op) xs.length
  let n ← Value.bound op (← hi.asInt op) xs.length
  if n < m then .error (.invalid op (.emptyRange m n)) else return .seq ((xs.drop m).take (n - m))

end CheckedPass
