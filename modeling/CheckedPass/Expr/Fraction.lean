/-!
# Fractions

A fraction as it is spelled in an expression: a numerator over a non-zero denominator, not
necessarily in lowest terms. The number it stands for is a `Rat`.
-/

namespace CheckedPass

structure Fraction where
  num : Int
  den : Int
  den_ne_zero : den ≠ 0
  deriving DecidableEq

/-- There is no fraction over zero. -/
inductive ZeroDenominator where
  | zeroDenominator
  deriving DecidableEq, Repr

def ZeroDenominator.message : ZeroDenominator → String
  | .zeroDenominator => "denominator == 0"

namespace Fraction

/-- The number that the fraction stands for. -/
def toRat (f : Fraction) : Rat :=
  Rat.divInt f.num f.den

/-- The spelling in lowest terms with a positive denominator. -/
def ofRat (q : Rat) : Fraction :=
  ⟨q.num, q.den, by exact_mod_cast q.den_nz⟩

/-- The fraction in lowest terms. -/
def reduce (num den : Int) : Except ZeroDenominator Fraction :=
  if den = 0 then .error .zeroDenominator else .ok (ofRat (Rat.divInt num den))

/-- Lowest terms and a positive denominator. -/
def IsReduced (f : Fraction) : Prop :=
  0 < f.den ∧ Int.gcd f.num f.den = 1

instance (f : Fraction) : Decidable f.IsReduced :=
  inferInstanceAs (Decidable (_ ∧ _))

/-- A denominator of one is not written. -/
def spell (num den : Int) : String :=
  if den = 1 then toString num else toString num ++ "/" ++ toString den

def text (f : Fraction) : String :=
  spell f.num f.den

end Fraction

/-- Numbers by size. -/
def compareNumbers (a b : Rat) : Ordering :=
  if a < b then .lt else if b < a then .gt else .eq

namespace Fraction

/-- By the numbers that the fractions stand for. Fractions in lowest terms are thus ordered by size
alone. Two spellings of one number are equal in size; they are told apart by their terms, so that
only equal fractions compare as equal. -/
def order (f g : Fraction) : Ordering :=
  (compareNumbers f.toRat g.toRat).then ((compare f.num g.num).then (compare f.den g.den))

instance : Ord Fraction where
  compare := order

instance : Std.LawfulEqOrd Fraction where
  compare_self {f} := by
    simp [compare, order, compareNumbers, compareOfLessAndEq]
  eq_of_compare {f g} h := by
    obtain ⟨n, d, _⟩ := f
    obtain ⟨m, e, _⟩ := g
    have h' := (Ordering.then_eq_eq.mp h).2
    simp only [Ordering.then_eq_eq, Std.LawfulEqOrd.compare_eq_iff_eq] at h'
    obtain ⟨rfl, rfl⟩ := h'
    rfl

end Fraction

end CheckedPass
