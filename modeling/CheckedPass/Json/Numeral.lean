import CheckedPass.Expr.Fraction
import CheckedPass.Json.Basic
/-!
# Numbers of any size as JSON

A natural number is the list of its digits to base two to the 32, the least significant first. An
integer is its sign and its absolute value, a fraction its numerator and its denominator.
-/

namespace CheckedPass

/-- The base of the digits. -/
def digitBase : Nat := 4294967296

/-- The digits of `n`, the least significant first, without zeros at the end. -/
def digitsOf (n : Nat) : List Nat :=
  if n = 0 then []
  else (n % digitBase) :: digitsOf (n / digitBase)
termination_by n
decreasing_by
  rename_i h
  exact Nat.div_lt_self (Nat.pos_of_ne_zero h) (by decide)

/-- The number with these digits. -/
def ofDigits : List Nat → Nat
  | [] => 0
  | d :: ds => d + digitBase * ofDigits ds

def natToJson (n : Nat) : Json :=
  .arr ((digitsOf n).map fun d : Nat => .int d)

def natOfJson? (j : Json) : Option Nat :=
  (j.listOf? (Json.asNatBelow? digitBase)).map ofDigits

def intToJson (n : Int) : Json :=
  .arr [.int n.sign, natToJson n.natAbs]

/-- The sign counts as it is given, but zero has none. -/
def intOfJson? : Json → Option Int
  | .arr [.int sign, digits] =>
    if sign = -1 ∨ sign = 0 ∨ sign = 1 then (natOfJson? digits).map fun n => sign * n else none
  | _ => none

def fractionToJson (f : Fraction) : Json :=
  .arr [intToJson f.num, intToJson f.den]

/-- The terms are kept as they are given. -/
def fractionOfJson? : Json → Option Fraction
  | .arr [num, den] =>
    match intOfJson? num, intOfJson? den with
    | some num, some den => if h : den ≠ 0 then some ⟨num, den, h⟩ else none
    | _, _ => none
  | _ => none

end CheckedPass
