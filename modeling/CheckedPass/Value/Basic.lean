import CheckedPass.Expr.Basic
/-!
# Values

What expressions evaluate to. Sets, multisets, maps and captured environments are lists in
ascending order of their elements or keys, so equal contents have one representation.
-/

namespace CheckedPass

inductive Value where
  | unit
  | bool (b : Bool)
  | char (c : Char)
  | int (n : Int)
  | real (q : Rat)
  | ordinal (n : Nat)
  /-- The magnitude of a well-formed bit-vector lies below two to the width. -/
  | bitVector (width : UInt32) (magnitude : Nat)
  | seq (elems : List Value)
  | set (elems : List Value)
  /-- Elements with their multiplicities. -/
  | multiset (counts : List (Value × Nat))
  | map (entries : List (Value × Value))
  /-- A function with the environment it was made in. -/
  | closure (env : List (String × Value)) (params : List String) (body : Expr)

/-- Names with their values, in ascending order of the names. -/
abbrev Env := List (String × Value)

/-- What sort of value it is. -/
inductive Kind where
  | unit
  | bool
  | char
  | int
  | real
  | ordinal
  | bitVector
  | seq
  | set
  | multiset
  | map
  | closure
  deriving DecidableEq, Repr

instance : Ord Kind where
  compare a b := compare a.ctorIdx b.ctorIdx

instance : Std.LawfulEqOrd Kind where
  compare_self := Nat.compare_eq_eq.mpr rfl
  eq_of_compare {a b} h := by
    rw [← Kind.ofNat_ctorIdx a, ← Kind.ofNat_ctorIdx b, Nat.compare_eq_eq.mp h]

def Kind.text : Kind → String
  | .unit => "unit"
  | .bool => "bool"
  | .char => "char"
  | .int => "int"
  | .real => "real"
  | .ordinal => "ordinal"
  | .bitVector => "bitvector"
  | .seq => "seq"
  | .set => "set"
  | .multiset => "multiset"
  | .map => "map"
  | .closure => "closure"

/-- Two to the width: the number of bit-vectors of that width. -/
def modulus (width : UInt32) : Nat :=
  Nat.pow 2 width.toNat

def Value.kind : Value → Kind
  | .unit => .unit
  | .bool _ => .bool
  | .char _ => .char
  | .int _ => .int
  | .real _ => .real
  | .ordinal _ => .ordinal
  | .bitVector _ _ => .bitVector
  | .seq _ => .seq
  | .set _ => .set
  | .multiset _ => .multiset
  | .map _ => .map
  | .closure _ _ _ => .closure

end CheckedPass
