import CheckedPass.Expr.Fraction
import CheckedPass.Text.Basic
/-!
# Literals

The scalars that an expression can spell out, their text and their order.
-/

namespace CheckedPass

inductive Literal where
  | unit
  | bool (b : Bool)
  | int (n : Int)
  | real (f : Fraction)
  | char (c : Char)
  /-- A magnitude that may be too large for the width; evaluation refuses such a literal. -/
  | bitVector (width : UInt32) (magnitude : Nat)
  | ordinal (n : Nat)
  deriving DecidableEq

namespace Literal

/-- The place of the literal's kind in the order of literals. -/
def place : Literal → Nat
  | .unit => 0
  | .bool _ => 1
  | .int _ => 2
  | .real _ => 3
  | .char _ => 4
  | .bitVector _ _ => 5
  | .ordinal _ => 6

/-- By kind, then by content. -/
def order : Literal → Literal → Ordering
  | .unit, .unit => .eq
  | .bool a, .bool b => compare a b
  | .int a, .int b => compare a b
  | .real a, .real b => compare a b
  | .char a, .char b => compare a b
  | .bitVector w a, .bitVector v b => (compare w v).then (compare a b)
  | .ordinal a, .ordinal b => compare a b
  | a, b => compare a.place b.place

instance : Ord Literal where
  compare := order

private theorem order_eq_iff {a b : Literal} : a.order b = .eq ↔ a = b := by
  cases a <;> cases b <;> simp [order, place, Ordering.then_eq_eq]

instance : Std.LawfulEqOrd Literal where
  compare_self := order_eq_iff.mpr rfl
  eq_of_compare := order_eq_iff.mp

def text : Literal → String
  | .unit => "()"
  | .bool b => if b then "true" else "false"
  | .int n => toString n
  | .real f => f.text ++ "r"
  | .char c => Text.quoted c
  | .bitVector width magnitude => toString magnitude ++ "bv" ++ toString width.toNat
  | .ordinal n => toString n ++ "ord"

end Literal

end CheckedPass
