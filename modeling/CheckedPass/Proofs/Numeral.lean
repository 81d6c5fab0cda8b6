import CheckedPass.Json.Numeral
import Mathlib.Data.List.DropRight
import Mathlib.Data.Nat.Digits.Lemmas
/-!
# Numbers are read as they were written

A number is written with the digits of its magnitude to base two to the 32, the least significant
first and the last of them not zero, and it is read back from them. Digits that are read may end in
zeros; these are all that is lost when the number is written again.
-/

namespace CheckedPass

namespace Json

variable {α : Type}

theorem asNatBelow?_eq_some {bound n : Nat} {j : Json} :
    j.asNatBelow? bound = some n ↔ j = .int n ∧ n < bound := by
  cases j with
  | int m =>
    simp only [asNatBelow?, Option.ite_none_right_eq_some, Option.some.injEq, Json.int.injEq]
    omega
  | _ => simp [asNatBelow?]

private theorem listOf?_arr_eq_some {decode : Json → Option α} {items : List Json} {as : List α} :
    (Json.arr items).listOf? decode = some as ↔
      List.Forall₂ (fun item a => decode item = some a) items as := by
  rw [listOf?]
  induction items generalizing as with
  | nil => simp [eq_comm]
  | cons item items ih =>
    simp only [List.mapM_cons, Option.bind_eq_bind, Option.bind_eq_some_iff, Option.pure_def,
      Option.some.injEq, ih, List.forall₂_cons_left_iff]
    constructor
    · rintro ⟨a, ha, as, has, rfl⟩
      exact ⟨a, as, ha, has, rfl⟩
    · rintro ⟨a, as, ha, has, rfl⟩
      exact ⟨a, ha, as, has, rfl⟩

theorem listOf?_arr_map {decode : Json → Option α} {encode : α → Json} {as : List α}
    (h : ∀ a ∈ as, decode (encode a) = some a) :
    (Json.arr (as.map encode)).listOf? decode = some as :=
  listOf?_arr_eq_some.mpr (List.forall₂_map_left_iff.mpr (List.forall₂_same.mpr h))

end Json

private theorem digitsOf_eq_digits (n : Nat) : digitsOf n = Nat.digits digitBase n := by
  fun_induction digitsOf n with
  | case1 => simp
  | case2 n hn ih => rw [Nat.digits_def' (by decide) (Nat.pos_of_ne_zero hn), ih]

private theorem ofDigits_eq_ofDigits (ds : List Nat) : ofDigits ds = Nat.ofDigits digitBase ds := by
  induction ds with
  | nil => rfl
  | cons d ds ih => rw [ofDigits, Nat.ofDigits_cons, ih]

private theorem digitsOf_lt {n d : Nat} (h : d ∈ digitsOf n) : d < digitBase := by
  rw [digitsOf_eq_digits] at h
  exact Nat.digits_lt_base (by decide) h

private theorem digitsOf_ofDigits {ds : List Nat} (h : ∀ d ∈ ds, d < digitBase) :
    digitsOf (ofDigits ds) = ds.rdropWhile (· = 0) := by
  rw [digitsOf_eq_digits, ofDigits_eq_ofDigits]
  -- the induction takes digits off at the end, where the zeros are
  induction ds using List.reverseRecOn with
  | nil => simp
  | append_singleton ds d ih =>
    by_cases hd : d = 0
    · subst hd
      rw [Nat.ofDigits_append_zero, List.rdropWhile_concat_pos _ _ _ (by simp)]
      exact ih fun d hd => h d (List.mem_append_left _ hd)
    · rw [List.rdropWhile_concat_neg _ _ _ (by simpa using hd)]
      exact Nat.digits_ofDigits _ (by decide) _ h (by simpa using hd)

/-- The digits of `n` to base two to the 32, the least significant first and the last not zero. -/
structure IsNumeral (n : Nat) (ds : List Nat) : Prop where
  below : ∀ d ∈ ds, d < 2 ^ 32
  last_ne : ∀ h : ds ≠ [], ds.getLast h ≠ 0
  value : Nat.ofDigits (2 ^ 32) ds = n

inductive NaturalWritten (n : Nat) : Json → Prop where
  | digits {ds : List Nat} (h : IsNumeral n ds) :
    NaturalWritten n (.arr (ds.map fun d : Nat => .int d))

inductive IntegerWritten (n : Int) : Json → Prop where
  | signed {magnitude : Json} (h : NaturalWritten n.natAbs magnitude) :
    IntegerWritten n (.arr [.int n.sign, magnitude])

inductive FractionWritten (f : Fraction) : Json → Prop where
  | terms {num den : Json} (hnum : IntegerWritten f.num num) (hden : IntegerWritten f.den den) :
    FractionWritten f (.arr [num, den])

private theorem isNumeral_digitsOf (n : Nat) : IsNumeral n (digitsOf n) where
  below _ := digitsOf_lt
  last_ne h := by
    simp only [digitsOf_eq_digits] at h ⊢
    exact Nat.getLast_digit_ne_zero _ (Nat.digits_ne_nil_iff_ne_zero.mp h)
  value := by
    rw [digitsOf_eq_digits]
    exact Nat.ofDigits_digits digitBase n

private theorem IsNumeral.eq_digitsOf {n : Nat} {ds : List Nat} (h : IsNumeral n ds) :
    ds = digitsOf n := by
  rw [digitsOf_eq_digits, ← h.value]
  exact (Nat.digits_ofDigits digitBase (by decide) ds h.below h.last_ne).symm

theorem naturalWritten_iff {n : Nat} {j : Json} : NaturalWritten n j ↔ j = natToJson n := by
  constructor
  · rintro ⟨h⟩
    rw [h.eq_digitsOf, natToJson]
  · rintro rfl
    exact .digits (isNumeral_digitsOf n)

theorem integerWritten_iff {n : Int} {j : Json} : IntegerWritten n j ↔ j = intToJson n := by
  constructor
  · rintro ⟨h⟩
    rw [naturalWritten_iff.mp h, intToJson]
  · rintro rfl
    exact .signed (naturalWritten_iff.mpr rfl)

theorem fractionWritten_iff {f : Fraction} {j : Json} :
    FractionWritten f j ↔ j = fractionToJson f := by
  constructor
  · rintro ⟨hnum, hden⟩
    rw [integerWritten_iff.mp hnum, integerWritten_iff.mp hden, fractionToJson]
  · rintro rfl
    exact .terms (integerWritten_iff.mpr rfl) (integerWritten_iff.mpr rfl)

theorem natOfJson?_natToJson (n : Nat) : natOfJson? (natToJson n) = some n := by
  have hdigits : (natToJson n).listOf? (Json.asNatBelow? digitBase) = some (digitsOf n) :=
    Json.listOf?_arr_map fun d hd => Json.asNatBelow?_eq_some.mpr ⟨rfl, digitsOf_lt hd⟩
  rw [natOfJson?, hdigits, Option.map_some, ofDigits_eq_ofDigits, digitsOf_eq_digits,
    Nat.ofDigits_digits]

theorem intOfJson?_intToJson (n : Int) : intOfJson? (intToJson n) = some n := by
  have hsign : n.sign = -1 ∨ n.sign = 0 ∨ n.sign = 1 := by
    rcases Int.sign_trichotomy n with h | h | h <;> simp [h]
  rw [intToJson, intOfJson?, if_pos hsign, natOfJson?_natToJson]
  exact congrArg some (Int.sign_mul_natAbs n)

theorem fractionOfJson?_fractionToJson (f : Fraction) :
    fractionOfJson? (fractionToJson f) = some f := by
  simp [fractionToJson, fractionOfJson?, intOfJson?_intToJson, f.den_ne_zero]

/-- Zeros at the end of the digits that were read are not written again. -/
theorem natToJson_of_natOfJson? {ds : List Nat} {n : Nat}
    (h : natOfJson? (.arr (ds.map fun d : Nat => .int d)) = some n) :
    natToJson n = .arr ((ds.rdropWhile (· = 0)).map fun d : Nat => .int d) := by
  obtain ⟨ds', hread, rfl⟩ := Option.map_eq_some_iff.mp h
  rw [Json.listOf?_arr_eq_some, List.forall₂_map_left_iff] at hread
  simp only [Json.asNatBelow?_eq_some, Json.int.injEq, Int.natCast_inj] at hread
  have heq : List.Forall₂ Eq ds ds' := hread.imp fun _ _ h => h.1
  rw [List.forall₂_eq_eq_eq] at heq
  subst heq
  have hlt : ∀ d ∈ ds, d < digitBase := fun d hd => (List.forall₂_same.mp hread d hd).2
  rw [natToJson, digitsOf_ofDigits hlt]

end CheckedPass
