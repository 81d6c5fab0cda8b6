/-!
# JSON values

A number is an integer, or a decimal fraction that is written with a point.
-/

namespace CheckedPass

inductive Json where
  | null
  | bool (b : Bool)
  | int (n : Int)
  /-- The number `mantissa / 10 ^ scale`, spelled with a fractional part. -/
  | decimal (mantissa : Int) (scale : Nat)
  | str (s : String)
  | arr (items : List Json)
  | obj (fields : List (String × Json))
  deriving Inhabited

namespace Json

def asBool? : Json → Option Bool
  | .bool b => some b
  | _ => none

def asString? : Json → Option String
  | .str s => some s
  | _ => none

/-- A natural number below `bound`, written as an integer. -/
def asNatBelow? (bound : Nat) : Json → Option Nat
  | .int n => if 0 ≤ n ∧ n < bound then some n.toNat else none
  | _ => none

def asUInt32? (j : Json) : Option UInt32 :=
  (j.asNatBelow? 4294967296).map UInt32.ofNat

def asUInt64? (j : Json) : Option UInt64 :=
  (j.asNatBelow? 18446744073709551616).map UInt64.ofNat

/-- The items, all decoded. -/
def listOf? {α : Type} (decode : Json → Option α) : Json → Option (List α)
  | .arr items => items.mapM decode
  | _ => none

/-- The value of a field. -/
def field? (name : String) : List (String × Json) → Option Json
  | [] => none
  | (key, j) :: rest => if key = name then some j else field? name rest

/-- A tag without content: its name, or an object that holds nothing under its name. -/
def asTag? : Json → Option String
  | .str tag => some tag
  | .obj [(tag, .null)] => some tag
  | _ => none

end Json

end CheckedPass
