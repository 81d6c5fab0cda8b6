/-!
# Operators

The operators an expression may apply. A connective decides by its first operand whether the
second one is evaluated at all; every other operator works on evaluated operands. Binary
operators are grouped by the kind of operands they expect.
-/

namespace CheckedPass

/-- Short-circuit connectives. -/
inductive Connective where
  | and
  | or
  | imp
  deriving DecidableEq, Repr

inductive UnaryOp where
  | not
  | bitNot
  | seqLength
  | setCard
  | multisetCard
  | mapCard
  deriving DecidableEq, Repr

inductive NumericOp where
  | lt
  | le
  | ge
  | gt
  | add
  | sub
  | mul
  | div
  | mod
  deriving DecidableEq, Repr

inductive EqualityOp where
  | eq
  | neq
  deriving DecidableEq, Repr

inductive BitOp where
  | and
  | or
  | xor
  | shl
  | shr
  deriving DecidableEq, Repr

inductive SetOp where
  | eq
  | neq
  | subset
  | superset
  | properSubset
  | properSuperset
  | disjoint
  | union
  | inter
  | diff
  | mem
  | notMem
  deriving DecidableEq, Repr

inductive MultisetOp where
  | eq
  | neq
  | subset
  | superset
  | properSubset
  | properSuperset
  | disjoint
  | union
  | inter
  | diff
  | mem
  | notMem
  /-- The multiplicity of the second operand in the first. -/
  | count
  deriving DecidableEq, Repr

inductive SeqOp where
  | eq
  | neq
  /-- The first operand begins the second. -/
  | begins
  /-- The first operand begins the second and is shorter. -/
  | properlyBegins
  | concat
  | mem
  | notMem
  | select
  | take
  | drop
  deriving DecidableEq, Repr

inductive MapOp where
  | eq
  | neq
  | mem
  | notMem
  | merge
  | subtract
  | select
  deriving DecidableEq, Repr

inductive BinaryOp where
  | numeric (op : NumericOp)
  | iff
  /-- Equality over any values that can be compared. -/
  | equality (op : EqualityOp)
  | bits (op : BitOp)
  | set (op : SetOp)
  | multiset (op : MultisetOp)
  | seq (op : SeqOp)
  | map (op : MapOp)
  deriving DecidableEq, Repr

inductive TernaryOp where
  | seqUpdate
  | seqSubseq
  | multisetUpdate
  | mapUpdate
  deriving DecidableEq, Repr

/-- The collections a display can build. -/
inductive Collection where
  | seq
  | set
  | multiset
  | map
  deriving DecidableEq, Repr

/-- Operators on evaluated operands. -/
inductive EagerOp where
  | unary (op : UnaryOp)
  | binary (op : BinaryOp)
  | ternary (op : TernaryOp)
  /-- Builds a collection from its elements. -/
  | display (kind : Collection)
  /-- Applies the first operand to the remaining ones. -/
  | call
  deriving DecidableEq, Repr

inductive Operator where
  | lazy (op : Connective)
  | eager (op : EagerOp)
  deriving DecidableEq, Repr

/-- How many operands an operator takes. -/
inductive Arity where
  | exactly (n : Nat)
  | atLeast (n : Nat)
  deriving DecidableEq, Repr

namespace Arity

def accepts : Arity → Nat → Bool
  | .exactly n, count => count = n
  | .atLeast n, count => n ≤ count

/-- The fewest operands accepted. -/
def least : Arity → Nat
  | .exactly n => n
  | .atLeast n => n

end Arity

def EagerOp.arity : EagerOp → Arity
  | .unary _ => .exactly 1
  | .binary _ => .exactly 2
  | .ternary _ => .exactly 3
  | .display _ => .atLeast 0
  | .call => .atLeast 1

def Operator.arity : Operator → Arity
  | .lazy _ => .exactly 2
  | .eager op => op.arity

namespace BinaryOp

/-- The operator that a negated one negates; any other operator itself. -/
def positive : BinaryOp → BinaryOp
  | .equality .neq => .equality .eq
  | .set .neq => .set .eq
  | .set .notMem => .set .mem
  | .multiset .neq => .multiset .eq
  | .multiset .notMem => .multiset .mem
  | .seq .neq => .seq .eq
  | .seq .notMem => .seq .mem
  | .map .neq => .map .eq
  | .map .notMem => .map .mem
  | op => op

def isNegated (op : BinaryOp) : Bool :=
  op.positive ≠ op

end BinaryOp

end CheckedPass
