import CheckedPass.Eval.Operand
/-!
# Operators on multisets

A multiset lists its elements with their multiplicities; an element that is not listed has
multiplicity zero.
-/

namespace CheckedPass

namespace Value

/-- The multiplicity of `x`. -/
def count (counts : List (Value × Nat)) (x : Value) : Nat :=
  (Ascending.get? x counts).getD 0

/-- The number of elements, each as often as it occurs. -/
def total : List (Value × Nat) → Nat
  | [] => 0
  | (_, n) :: rest => n + total rest

/-- Adds `n` more of `x`. -/
def addCopies (counts : List (Value × Nat)) (x : Value) (n : Nat) : List (Value × Nat) :=
  Ascending.put x (count counts x + n) counts

/-- The sum of multiplicities, element by element. -/
def sumCounts (xs ys : List (Value × Nat)) : List (Value × Nat) :=
  ys.foldl (fun acc p => addCopies acc p.1 p.2) xs

/-- The smaller of the two multiplicities, for elements that `ys` has. -/
def minCounts (xs ys : List (Value × Nat)) : List (Value × Nat) :=
  xs.filterMap fun p =>
    let m := count ys p.1
    if m = 0 then none else some (p.1, min p.2 m)

/-- What is left of `xs` after taking `ys` away. -/
def diffCounts (xs ys : List (Value × Nat)) : List (Value × Nat) :=
  xs.filterMap fun p =>
    let m := count ys p.1
    if m < p.2 then some (p.1, p.2 - m) else none

/-- Whether `ys` has each element of `xs` at least as often. -/
def includedCounts (xs ys : List (Value × Nat)) : Bool :=
  xs.all fun p => p.2 ≤ count ys p.1

/-- Membership of a value that can be compared; the multiset is checked first. -/
def inMultiset (op : Operator) (x multiset : Value) : EvalResult Bool := do
  let counts ← multiset.asMultiset op
  x.demandComparable op
  return (Ascending.get? x counts).isSome

end Value

namespace MultisetOp

def operator (op : MultisetOp) : Operator :=
  .eager (.binary (.multiset op))

/-- What `f` makes of two multisets. -/
def onMultisets (op : MultisetOp) (v w : Value)
    (f : List (Value × Nat) → List (Value × Nat) → Value) : EvalResult Value := do
  let xs ← v.asMultiset op.operator
  let ys ← w.asMultiset op.operator
  return f xs ys

def apply (op : MultisetOp) (v w : Value) : EvalResult Value :=
  match op with
  | .eq => op.onMultisets v w fun xs ys => .bool (xs = ys)
  | .neq => op.onMultisets v w fun xs ys => .bool (xs ≠ ys)
  | .subset => op.onMultisets v w fun xs ys => .bool (Value.includedCounts xs ys)
  | .superset => op.onMultisets v w fun xs ys => .bool (Value.includedCounts ys xs)
  | .properSubset =>
    op.onMultisets v w fun xs ys => .bool (Value.includedCounts xs ys && xs ≠ ys)
  | .properSuperset =>
    op.onMultisets v w fun xs ys => .bool (Value.includedCounts ys xs && xs ≠ ys)
  | .disjoint =>
    op.onMultisets v w fun xs ys => .bool (xs.all fun p => (Ascending.get? p.1 ys).isNone)
  | .union => op.onMultisets v w fun xs ys => .multiset (Value.sumCounts xs ys)
  | .inter => op.onMultisets v w fun xs ys => .multiset (Value.minCounts xs ys)
  | .diff => op.onMultisets v w fun xs ys => .multiset (Value.diffCounts xs ys)
  | .mem => do return .bool (← v.inMultiset op.operator w)
  | .notMem => do return .bool (!(← v.inMultiset op.operator w))
  | .count => do
    let counts ← v.asMultiset op.operator
    w.demandComparable op.operator
    return .int (Value.count counts w)

end MultisetOp

/-- Sets the multiplicity of the second operand in the first; multiplicity zero removes it. -/
def TernaryOp.updateMultiset (v x n : Value) : EvalResult Value := do
  let op : Operator := .eager (.ternary .multisetUpdate)
  let counts ← v.asMultiset op
  x.demandComparable op
  let n ← n.asInt op
  if n < 0 then .error (.invalid op .negativeMultiplicity)
  else if n = 0 then return .multiset (Ascending.erase x counts)
  else return .multiset (Ascending.put x n.toNat counts)

end CheckedPass
