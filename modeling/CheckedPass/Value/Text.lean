import CheckedPass.Text.Basic
import CheckedPass.Value.Basic
/-!
# The text of values
-/

namespace CheckedPass.Value

/-- How often an element of that multiplicity is written. A multiplicity of two to the 64 or more
cannot be written out, and then the element is left out. -/
def shownCopies (count : Nat) : Nat :=
  if count < 18446744073709551616 then count else 0

mutual

def text : Value → String
  | .unit => "()"
  | .bool b => if b then "true" else "false"
  | .char c => Text.quoted c
  | .int n => toString n
  | .real q => Fraction.spell q.num q.den ++ "r"
  | .ordinal n => toString n ++ "ord"
  | .bitVector width magnitude => toString magnitude ++ "bv" ++ toString width.toNat
  | .seq elems => "[" ++ Text.join ", " (texts elems) ++ "]"
  | .set elems => "\x7b" ++ Text.join ", " (texts elems) ++ "\x7d"
  | .multiset counts => "multiset\x7b" ++ Text.join ", " (countTexts counts) ++ "\x7d"
  | .map entries => "map[" ++ Text.join ", " (entryTexts entries) ++ "]"
  | .closure _ params _ => "<closure (" ++ Text.join " " params ++ ")>"

def texts : List Value → List String
  | [] => []
  | v :: vs => text v :: texts vs

/-- Each element as often as it occurs. -/
def countTexts : List (Value × Nat) → List String
  | [] => []
  | (v, n) :: vs => List.replicate (shownCopies n) (text v) ++ countTexts vs

def entryTexts : List (Value × Value) → List String
  | [] => []
  | (k, v) :: vs => (text k ++ " := " ++ text v) :: entryTexts vs

end

end CheckedPass.Value
