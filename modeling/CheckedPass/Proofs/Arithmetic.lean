import CheckedPass.Proofs.WellFormed
import Mathlib.Algebra.GroupWithZero.Nat
/-!
# Arithmetic of integers and bit-vectors

Division of integers is Euclidean. The remainder is taken modulo the size of the divisor, so what is
left is a multiple of the divisor, and dividing that is exact whatever the signs are.

Bit-vectors are kept as magnitudes, natural numbers without a bound of their own. On magnitudes
within the width every operator is the one on words of that many bits.
-/

namespace CheckedPass

/-- `a` divided by `b` is `q` with remainder `r`. -/
structure IsEuclidean (a b q r : Int) : Prop where
  eq : a = b * q + r
  nonneg : 0 ≤ r
  lt : r < b.natAbs

private theorem isEuclidean_iff {a b q r : Int} (hb : b ≠ 0) :
    IsEuclidean a b q r ↔ a / b = q ∧ a % b = r := by
  have hsplit : IsEuclidean a b q r ↔ r + b * q = a ∧ 0 ≤ r ∧ r < b.natAbs := by
    constructor
    · intro h
      exact ⟨by rw [h.eq, Int.add_comm], h.nonneg, h.lt⟩
    · intro h
      exact ⟨by rw [← h.1, Int.add_comm], h.2.1, h.2.2⟩
  rw [hsplit]
  rcases Int.lt_or_gt_of_ne hb with hneg | hpos
  · rw [Int.ediv_emod_unique' hneg, Int.ofNat_natAbs_of_nonpos (Int.le_of_lt hneg)]
  · rw [Int.ediv_emod_unique hpos, Int.natAbs_of_nonneg (Int.le_of_lt hpos)]

namespace NumericOp

private theorem remainder_eq_emod (a b : Int) : remainder a b = a % b := by
  rw [remainder, Int.fmod_eq_emod_of_nonneg _ (Int.natCast_nonneg _)]
  rcases Int.natAbs_eq b with hb | hb
  · rw [← hb]
  · conv => rhs; rw [hb, Int.emod_neg]

private theorem quotient_eq_ediv {a b : Int} (hb : b ≠ 0) : quotient a b = a / b := by
  -- What is divided is a multiple of the divisor, so truncation has nothing to cut off.
  have hmultiple : a - remainder a b = b * (a / b) := by
    have hdef := Int.mul_ediv_add_emod a b
    rw [remainder_eq_emod]
    omega
  rw [quotient, hmultiple, Int.mul_tdiv_cancel_left _ hb]

end NumericOp

/-- Division of integers succeeds exactly for divisors other than zero, with the quotient and the
remainder of Euclidean division, which are determined. -/
theorem integer_division_is_euclidean (a b : Int) :
    (b ≠ 0 → ∃ q r : Int, (BinaryOp.numeric .div).apply (.int a) (.int b) = .ok (.int q) ∧
      (BinaryOp.numeric .mod).apply (.int a) (.int b) = .ok (.int r) ∧ IsEuclidean a b q r ∧
      ∀ q' r', IsEuclidean a b q' r' → q' = q ∧ r' = r) ∧
    (b = 0 → (BinaryOp.numeric .div).apply (.int a) (.int b) =
        .error (.invalid NumericOp.div.operator .divisionByZero) ∧
      (BinaryOp.numeric .mod).apply (.int a) (.int b) =
        .error (.invalid NumericOp.mod.operator .divisionByZero)) := by
  constructor
  · intro hb
    have hdiv : (BinaryOp.numeric .div).apply (.int a) (.int b) =
        .ok (.int (NumericOp.quotient a b)) := if_neg hb
    have hmod : (BinaryOp.numeric .mod).apply (.int a) (.int b) =
        .ok (.int (NumericOp.remainder a b)) := if_neg hb
    rw [NumericOp.quotient_eq_ediv hb] at hdiv
    rw [NumericOp.remainder_eq_emod] at hmod
    refine ⟨a / b, a % b, hdiv, hmod, (isEuclidean_iff hb).mpr ⟨rfl, rfl⟩, ?_⟩
    intro q r h
    obtain ⟨hq, hr⟩ := (isEuclidean_iff hb).mp h
    exact ⟨hq.symm, hr.symm⟩
  · intro hb
    exact ⟨if_pos hb, if_pos hb⟩

example : (BinaryOp.numeric .div).apply (.int (-7)) (.int (-2)) = .ok (.int 4) ∧
    (BinaryOp.numeric .mod).apply (.int (-7)) (.int (-2)) = .ok (.int 1) := by decide

section Words

variable {width : UInt32} {a n : Nat}

/-- The operator yields a bit-vector of that width and with magnitude `n`, which is the word `z`. -/
structure YieldsWord (width : UInt32) (z : BitVec width.toNat) (n : Nat)
    (result : EvalResult Value) : Prop where
  eq : result = .ok (.bitVector width n)
  lt : n < 2 ^ width.toNat
  word : n = z.toNat

private theorem yieldsWord_ok {z : BitVec width.toNat} (h : n = z.toNat) :
    YieldsWord width z n (.ok (.bitVector width n)) :=
  ⟨rfl, h ▸ z.isLt, h⟩

/-- The word with that magnitude. -/
def word (width : UInt32) (a : Nat) : BitVec width.toNat :=
  BitVec.ofNat width.toNat a

private theorem toNat_word (ha : a < 2 ^ width.toNat) : (word width a).toNat = a := by
  rw [word, BitVec.toNat_ofNat, Nat.mod_eq_of_lt ha]

private theorem difference_mod {a b m : Nat} (hb : b ≤ a + m) :
    (a + m - b) % m = (((a : Int) - b) % (m : Nat)).toNat := by
  -- The magnitude of a difference; the modulus that is added first makes up for what `b` exceeds
  -- `a` by, and falls away in the reduction.
  have hcast : ((a + m - b : Nat) : Int) = (a : Int) - b + m := by omega
  have hmod : (((a + m - b) % m : Nat) : Int) = ((a : Int) - b) % (m : Nat) := by
    rw [Int.natCast_emod, hcast, Int.add_emod_right]
  rw [← hmod, Int.toNat_natCast]

private theorem mask_xor (ha : a < 2 ^ width.toNat) :
    (modulus width - 1) ^^^ a = (~~~word width a).toNat := by
  have hmask : (BitVec.allOnes width.toNat).toNat = modulus width - 1 := BitVec.toNat_allOnes
  rw [← BitVec.allOnes_xor, BitVec.toNat_xor, hmask, toNat_word ha]

namespace NumericOp

private theorem arithmetic_sameWidth (op : NumericOp) (width : UInt32) (a b : Nat) :
    op.arithmetic (.bitVector width a) (.bitVector width b) = op.onBitVectors width a b :=
  if_pos rfl

private theorem apply_of_widths_ne (op : NumericOp) {other : UInt32} (h : other ≠ width)
    (a c : Nat) :
    (BinaryOp.numeric op).apply (.bitVector width a) (.bitVector other c) =
      .error (Value.mismatched op.operator (.bitVector width a) (.bitVector other c)) := by
  have hwidths : ¬width = other := Ne.symm h
  cases op with
  | lt | le | ge | gt =>
    simp only [BinaryOp.apply, apply, Value.compareNumeric, if_neg hwidths]
    rfl
  | _ => exact if_neg hwidths

end NumericOp

namespace BitOp

private theorem magnitude_sameWidth (op : BitOp) (width : UInt32) (b : Nat) :
    op.magnitude width (.bitVector width b) = .ok b :=
  if_pos rfl

private theorem apply_of_widths_ne {op : BitOp} (hl : op ≠ .shl) (hr : op ≠ .shr) {other : UInt32}
    (h : other ≠ width) (a c : Nat) :
    (BinaryOp.bits op).apply (.bitVector width a) (.bitVector other c) =
      .error (.unexpected op.operator (.kind .bitVector) (.bitVector other c)) := by
  have hmagnitude : op.magnitude width (.bitVector other c) = .error _ := if_neg h
  cases op with
  | shl => exact absurd rfl hl
  | shr => exact absurd rfl hr
  | _ =>
    simp only [BinaryOp.apply, apply, hmagnitude]
    rfl

end BitOp

/-- The value asks for a shift by `k` places: an integer, or a bit-vector of any width. -/
inductive AsksForShift : Value → Int → Prop where
  | int (k : Int) : AsksForShift (.int k) k
  | bitVector (width : UInt32) (magnitude : Nat) :
    AsksForShift (.bitVector width magnitude) magnitude

/-- A shift by `k` places succeeds exactly if they are at most as many as the word has, and then
yields the word `z` of magnitude `n`. -/
structure ShiftsWord (width : UInt32) (k : Int) (z : BitVec width.toNat) (n : Nat)
    (result : EvalResult Value) : Prop where
  succeeds : (∃ r, result = .ok r) ↔ 0 ≤ k ∧ k ≤ width.toNat
  yields : 0 ≤ k → k ≤ width.toNat → YieldsWord width z n result

private theorem BitOp.shiftAmount_locates (op : BitOp) (width : UInt32) {v : Value} {k : Int}
    (h : AsksForShift v k) : Value.Locates k (width.toNat + 1) (op.shiftAmount width v) := by
  cases h with
  | int k => exact Value.locates_ite (by omega)
  | bitVector other magnitude => exact Value.locates_ite (by omega)

private theorem shiftsWord_of_amount {op : BitOp} {v : Value} {k : Int} (h : AsksForShift v k)
    {f : Nat → Nat} {z : BitVec width.toNat} (hz : f k.toNat = z.toNat) :
    ShiftsWord width k z (f k.toNat)
      (do return .bitVector width (f (← op.shiftAmount width v))) where
  succeeds := by
    apply (op.shiftAmount_locates width h).map_succeeds_iff.trans
    omega
  yields := by
    intro hnonneg hle
    have hamount : op.shiftAmount width v = .ok k.toNat :=
      (op.shiftAmount_locates width h k.toNat).mpr ⟨by omega, by omega⟩
    rw [hamount]
    exact yieldsWord_ok hz

end Words

/-- On two magnitudes of one width the operators are those on words. -/
structure WordLaws (width : UInt32) (a b : Nat) : Prop where
  add : YieldsWord width (word width a + word width b) ((a + b) % 2 ^ width.toNat)
    ((BinaryOp.numeric .add).apply (.bitVector width a) (.bitVector width b))
  /-- Before the reduction nothing is taken away from less. -/
  sub : b ≤ a + modulus width ∧
    YieldsWord width (word width a - word width b) (((a : Int) - b) % (2 ^ width.toNat : Nat)).toNat
      ((BinaryOp.numeric .sub).apply (.bitVector width a) (.bitVector width b))
  mul : YieldsWord width (word width a * word width b) (a * b % 2 ^ width.toNat)
    ((BinaryOp.numeric .mul).apply (.bitVector width a) (.bitVector width b))
  div : b ≠ 0 → YieldsWord width (word width a / word width b) (a / b)
    ((BinaryOp.numeric .div).apply (.bitVector width a) (.bitVector width b))
  mod : b ≠ 0 → YieldsWord width (word width a % word width b) (a % b)
    ((BinaryOp.numeric .mod).apply (.bitVector width a) (.bitVector width b))
  and : YieldsWord width (word width a &&& word width b) (a &&& b)
    ((BinaryOp.bits .and).apply (.bitVector width a) (.bitVector width b))
  or : YieldsWord width (word width a ||| word width b) (a ||| b)
    ((BinaryOp.bits .or).apply (.bitVector width a) (.bitVector width b))
  xor : YieldsWord width (word width a ^^^ word width b) (a ^^^ b)
    ((BinaryOp.bits .xor).apply (.bitVector width a) (.bitVector width b))
  not : YieldsWord width (~~~word width a) (2 ^ width.toNat - 1 - a)
    (UnaryOp.bitNot.apply (.bitVector width a))
  shl : ∀ (v : Value) (k : Int), AsksForShift v k →
    ShiftsWord width k (word width a <<< k.toNat) (a * 2 ^ k.toNat % 2 ^ width.toNat)
      ((BinaryOp.bits .shl).apply (.bitVector width a) v)
  shr : ∀ (v : Value) (k : Int), AsksForShift v k →
    ShiftsWord width k (word width a >>> k.toNat) (a / 2 ^ k.toNat)
      ((BinaryOp.bits .shr).apply (.bitVector width a) v)
  /-- A second operand of another width is refused, by every operator but the shifts. -/
  widths : ∀ (other : UInt32) (c : Nat), other ≠ width →
    (∀ op : NumericOp, ∃ error,
      (BinaryOp.numeric op).apply (.bitVector width a) (.bitVector other c) = .error error) ∧
    (∀ op : BitOp, op ≠ .shl → op ≠ .shr → ∃ error,
      (BinaryOp.bits op).apply (.bitVector width a) (.bitVector other c) = .error error)

/-- The operators on bit-vectors are those on words of that width, at every width. -/
theorem bitVector_operators_are_word_operators {width : UInt32} {a b : Nat}
    (ha : a < 2 ^ width.toNat) (hb : b < 2 ^ width.toNat) : WordLaws width a b := by
  have hx := toNat_word ha
  have hy := toNat_word hb
  have hmodulus : modulus width = 2 ^ width.toNat := rfl
  have harith : ∀ op : NumericOp,
      op.arithmetic (.bitVector width a) (.bitVector width b) = op.onBitVectors width a b :=
    fun op => op.arithmetic_sameWidth width a b
  have hbits : ∀ op : BitOp, op.magnitude width (.bitVector width b) = .ok b :=
    fun op => op.magnitude_sameWidth width b
  constructor
  case add =>
    simp only [BinaryOp.apply, NumericOp.apply, harith]
    exact yieldsWord_ok (by rw [BitVec.toNat_add, hx, hy])
  case sub =>
    have hle : b ≤ a + modulus width := by omega
    refine ⟨hle, ?_⟩
    simp only [BinaryOp.apply, NumericOp.apply, harith, NumericOp.onBitVectors, if_pos hle]
    rw [hmodulus, difference_mod (hmodulus ▸ hle)]
    apply yieldsWord_ok
    rw [BitVec.toNat_sub, hx, hy, ← difference_mod (hmodulus ▸ hle)]
    congr 1
    omega
  case mul =>
    simp only [BinaryOp.apply, NumericOp.apply, harith]
    exact yieldsWord_ok (by rw [BitVec.toNat_mul, hx, hy])
  case div =>
    intro hzero
    simp only [BinaryOp.apply, NumericOp.apply, harith, NumericOp.onBitVectors, if_neg hzero]
    exact yieldsWord_ok (by rw [BitVec.toNat_udiv, hx, hy])
  case mod =>
    intro hzero
    simp only [BinaryOp.apply, NumericOp.apply, harith, NumericOp.onBitVectors, if_neg hzero]
    exact yieldsWord_ok (by rw [BitVec.toNat_umod, hx, hy])
  case and =>
    simp only [BinaryOp.apply, BitOp.apply, hbits]
    exact yieldsWord_ok (by rw [BitVec.toNat_and, hx, hy])
  case or =>
    simp only [BinaryOp.apply, BitOp.apply, hbits]
    exact yieldsWord_ok (by rw [BitVec.toNat_or, hx, hy])
  case xor =>
    simp only [BinaryOp.apply, BitOp.apply, hbits]
    exact yieldsWord_ok (by rw [BitVec.toNat_xor, hx, hy])
  case not =>
    have hnot : (~~~word width a).toNat = 2 ^ width.toNat - 1 - a := by
      rw [BitVec.toNat_not, hx]
    simp only [UnaryOp.apply, mask_xor ha, hnot]
    exact yieldsWord_ok hnot.symm
  case shl =>
    intro v k hv
    rw [← Nat.shiftLeft_eq]
    apply shiftsWord_of_amount (f := fun n => (a <<< n) % modulus width) hv
    rw [BitVec.toNat_shiftLeft, hx, hmodulus]
  case shr =>
    intro v k hv
    rw [← Nat.shiftRight_eq_div_pow]
    apply shiftsWord_of_amount (f := fun n => a >>> n) hv
    rw [BitVec.toNat_ushiftRight, hx]
  case widths =>
    intro other c hne
    exact ⟨fun op => ⟨_, op.apply_of_widths_ne hne a c⟩,
      fun op hl hr => ⟨_, BitOp.apply_of_widths_ne hl hr hne a c⟩⟩

/-- A difference wraps around, a shift by the whole width leaves nothing, and there is one word of
width zero. -/
theorem bitVector_operators_are_word_operators_wrapping :
    7 < 2 ^ (4 : UInt32).toNat ∧ 12 < 2 ^ (4 : UInt32).toNat ∧ WordLaws 4 7 12 ∧
      (BinaryOp.numeric .sub).apply (.bitVector 4 7) (.bitVector 4 12) = .ok (.bitVector 4 11) ∧
      AsksForShift (.bitVector 9 4) 4 ∧
      (BinaryOp.bits .shl).apply (.bitVector 4 7) (.bitVector 9 4) = .ok (.bitVector 4 0) ∧
      0 < 2 ^ (0 : UInt32).toNat ∧ WordLaws 0 0 0 ∧
      UnaryOp.bitNot.apply (.bitVector 0 0) = .ok (.bitVector 0 0) := by
  have ha : 7 < 2 ^ (4 : UInt32).toNat := by decide
  have hb : 12 < 2 ^ (4 : UInt32).toNat := by decide
  have hzero : 0 < 2 ^ (0 : UInt32).toNat := by decide
  exact ⟨ha, hb, bitVector_operators_are_word_operators ha hb, by decide, .bitVector 9 4, by decide,
    hzero, bitVector_operators_are_word_operators hzero hzero, by decide⟩

end CheckedPass
