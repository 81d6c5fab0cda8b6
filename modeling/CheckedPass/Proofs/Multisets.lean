import CheckedPass.Proofs.Sets
/-!
# Multisets

On well-formed multisets the operators work on multiplicities, value by value. A multiset lists the
values it has with their multiplicities, and looks others up as zero; since no operator ever lists a
multiplicity of zero, what is listed and what is counted come to the same.
-/

namespace CheckedPass

namespace Value

variable {xs ys : List (Value × Nat)} {x : Value}

theorem count_of_get? {o : Option Nat} (h : Ascending.get? x xs = o) : count xs x = o.getD 0 := by
  rw [count, h]

private theorem count_cons (p : Value × Nat) (xs : List (Value × Nat)) (x : Value) :
    count (p :: xs) x = if x = p.1 then p.2 else count xs x := by
  by_cases h : x = p.1 <;> simp [count, Ascending.get?, h]

theorem count_eq_zero (h : x ∉ Ascending.keys xs) : count xs x = 0 :=
  count_of_get? (Ascending.get?_eq_none_iff.mpr h)

private theorem count_of_mem (hxs : (Ascending.keys xs).Nodup) {p : Value × Nat} (hp : p ∈ xs) :
    count xs p.1 = p.2 :=
  count_of_get? (Ascending.get?_of_mem hxs hp)

theorem count_put (x : Value) (n : Nat) (xs : List (Value × Nat)) (y : Value) :
    count (Ascending.put x n xs) y = if y = x then n else count xs y := by
  by_cases h : y = x <;> simp [count, Ascending.get?_put, h]

private theorem count_erase (x : Value) (xs : List (Value × Nat)) (y : Value) :
    count (Ascending.erase x xs) y = if y = x then 0 else count xs y := by
  have hget := Ascending.get?_filter (fun k => decide (k ≠ x)) y xs
  by_cases h : y = x <;> simp_all [count, Ascending.erase]

private theorem count_sumCounts (xs : List (Value × Nat)) (hys : (Ascending.keys ys).Nodup)
    (x : Value) : count (sumCounts xs ys) x = count xs x + count ys x := by
  induction ys generalizing xs with
  | nil => rfl
  | cons p ys ih =>
    obtain ⟨hp, hrest⟩ := List.nodup_cons.mp hys
    have hstep : sumCounts xs (p :: ys) = sumCounts (addCopies xs p.1 p.2) ys := rfl
    rw [hstep, ih _ hrest, addCopies, count_put, count_cons]
    by_cases hx : x = p.1
    · have hzero : count ys p.1 = 0 := count_eq_zero hp
      simp [hx, hzero]
    · simp [hx]

private theorem count_minCounts (hxs : (Ascending.keys xs).Nodup) (ys : List (Value × Nat))
    (x : Value) : count (minCounts xs ys) x = min (count xs x) (count ys x) := by
  have hget : Ascending.get? x (minCounts xs ys) = (Ascending.get? x xs).bind fun n =>
      if count ys x = 0 then none else some (min n (count ys x)) := by
    rw [minCounts, Ascending.get?_filterMap hxs]
    · simp [apply_ite]
    · grind
  rw [count_of_get? hget]
  cases hx : Ascending.get? x xs with
  | none => simp [count_of_get? hx]
  | some n => by_cases hy : count ys x = 0 <;> simp [count_of_get? hx, hy]

private theorem count_diffCounts (hxs : (Ascending.keys xs).Nodup) (ys : List (Value × Nat))
    (x : Value) : count (diffCounts xs ys) x = count xs x - count ys x := by
  have hget : Ascending.get? x (diffCounts xs ys) = (Ascending.get? x xs).bind fun n =>
      if count ys x < n then some (n - count ys x) else none := by
    rw [diffCounts, Ascending.get?_filterMap hxs]
    · simp [apply_ite]
    · grind
  rw [count_of_get? hget]
  cases hx : Ascending.get? x xs with
  | none => simp [count_of_get? hx]
  | some n =>
    by_cases hy : count ys x < n
    · simp [count_of_get? hx, hy]
    · have hzero : n - count ys x = 0 := by omega
      simp [count_of_get? hx, hy, hzero]

private theorem get?_eq_ite_count (h : (multiset xs).isWellFormed = true) (x : Value) :
    Ascending.get? x xs = if count xs x = 0 then none else some (count xs x) := by
  cases hx : Ascending.get? x xs with
  | none => simp [count_of_get? hx]
  | some n =>
    have hn : n ≠ 0 := ((isWellFormed_multiset.mp h).all _ (Ascending.mem_of_get? hx)).2
    simp [count_of_get? hx, hn]

private theorem isSome_get?_iff (h : (multiset xs).isWellFormed = true) :
    (Ascending.get? x xs).isSome = true ↔ 0 < count xs x := by
  rw [get?_eq_ite_count h]
  by_cases hx : count xs x = 0
  · simp [hx]
  · simp only [hx, if_false, Option.isSome_some, true_iff]
    omega

private theorem eq_iff_count (hxs : (multiset xs).isWellFormed = true)
    (hys : (multiset ys).isWellFormed = true) : xs = ys ↔ ∀ x, count xs x = count ys x := by
  constructor
  · intro heq x
    rw [heq]
  · intro h
    have hascends := (isWellFormed_multiset.mp hxs).ascending trivial
    have hascends' := (isWellFormed_multiset.mp hys).ascending trivial
    refine Ascending.eq_of_get? hascends hascends' fun x => ?_
    rw [get?_eq_ite_count hxs, get?_eq_ite_count hys, h x]

private theorem ne_iff_count (hxs : (multiset xs).isWellFormed = true)
    (hys : (multiset ys).isWellFormed = true) : xs ≠ ys ↔ ∃ x, count xs x ≠ count ys x := by
  rw [ne_eq, eq_iff_count hxs hys, not_forall]

private theorem sumCounts_minCounts_diffCounts (hxs : (multiset xs).isWellFormed = true)
    (ys : List (Value × Nat)) : sumCounts (minCounts xs ys) (diffCounts xs ys) = xs := by
  have hkeys := (isWellFormed_multiset.mp hxs).nodup_keys
  have hinter := minCounts_isWellFormed hxs ys
  have hdiff := diffCounts_isWellFormed hxs ys
  rw [eq_iff_count (sumCounts_isWellFormed hinter hdiff) hxs]
  intro x
  rw [count_sumCounts _ (isWellFormed_multiset.mp hdiff).nodup_keys, count_minCounts hkeys,
    count_diffCounts hkeys]
  omega

private theorem includedCounts_iff (hxs : (Ascending.keys xs).Nodup) (ys : List (Value × Nat)) :
    includedCounts xs ys = true ↔ ∀ x, count xs x ≤ count ys x := by
  simp only [includedCounts, List.all_eq_true, decide_eq_true_iff]
  constructor
  · intro h x
    cases hx : Ascending.get? x xs with
    | none => simp [count_of_get? hx]
    | some n => simpa [count_of_get? hx] using h _ (Ascending.mem_of_get? hx)
  · intro h p hp
    rw [← count_of_mem hxs hp]
    exact h p.1

private theorem disjointCounts_iff (hxs : (multiset xs).isWellFormed = true)
    (hys : (multiset ys).isWellFormed = true) :
    (xs.all fun p => (Ascending.get? p.1 ys).isNone) = true ↔
      ∀ x, ¬(0 < count xs x ∧ 0 < count ys x) := by
  simp only [List.all_eq_true, ← isSome_get?_iff hxs, ← isSome_get?_iff hys]
  constructor
  · rintro h x ⟨hx, hy⟩
    obtain ⟨n, hn⟩ := Option.isSome_iff_exists.mp hx
    have hnone := h _ (Ascending.mem_of_get? hn)
    simp_all
  · intro h p hp
    have hx := Ascending.get?_of_mem (isWellFormed_multiset.mp hxs).nodup_keys hp
    have hnot := h p.1
    simp_all

theorem keys_sumCounts (xs ys : List (Value × Nat)) :
    Ascending.keys (sumCounts xs ys) =
      Ascending.union (Ascending.keys xs) (Ascending.keys ys) := by
  induction ys generalizing xs with
  | nil => rfl
  | cons p ys ih =>
    have hstep : sumCounts xs (p :: ys) = sumCounts (addCopies xs p.1 p.2) ys := rfl
    have hkeys : Ascending.keys (p :: ys) = p.1 :: Ascending.keys ys := rfl
    rw [hstep, ih, addCopies, Ascending.keys_put, hkeys]
    rfl

private theorem total_put (h : Ascending.isAscending (Ascending.keys xs) = true) (x : Value)
    (n : Nat) : total (Ascending.put x n xs) + count xs x = total xs + n := by
  induction xs with
  | nil => simp [Ascending.put, total, count, Ascending.get?]
  | cons p rest ih =>
    obtain ⟨j, w⟩ := p
    simp only [Ascending.put]
    split
    · rename_i hlt
      have hzero : count ((j, w) :: rest) x = 0 := count_eq_zero (Ascending.not_mem_of_lt h hlt)
      simp only [total, hzero]
      omega
    · rename_i heq
      have hx : x = j := Std.LawfulEqOrd.eq_of_compare heq
      simp only [total, count_cons, hx, if_true]
      omega
    · rename_i hgt
      have hx : x ≠ j := by
        intro hx
        rw [hx, Std.ReflOrd.compare_self] at hgt
        cases hgt
      have hrest := ih (Ascending.isAscending_of_sublist (List.sublist_cons_self _ _) h)
      simp only [total, count_cons, hx, if_false]
      omega

theorem total_sumCounts (hxs : Ascending.isAscending (Ascending.keys xs) = true)
    (ys : List (Value × Nat)) : total (sumCounts xs ys) = total xs + total ys := by
  induction ys generalizing xs with
  | nil => rfl
  | cons p ys ih =>
    have hstep : sumCounts xs (p :: ys) = sumCounts (addCopies xs p.1 p.2) ys := rfl
    have hkeys : Ascending.isAscending (Ascending.keys (addCopies xs p.1 p.2)) = true := by
      rw [addCopies, Ascending.keys_put]
      exact Ascending.isAscending_insert p.1 hxs
    have hput := total_put hxs p.1 (count xs p.1 + p.2)
    rw [hstep, ih hkeys, addCopies, total]
    omega

/-- How often `x` is in `m`, as the operator counts; never, if it does not count. -/
def multiplicity (m x : Value) : Nat :=
  match (BinaryOp.multiset .count).apply m x with
  | .ok (.int n) => n.toNat
  | _ => 0

/-- The operator counts every value that can be compared, and as often as `f` says. -/
def HasCounts (f : Value → Nat) (m : Value) : Prop :=
  ∀ x, x.isFirstOrder = true → (BinaryOp.multiset .count).apply m x = .ok (.int (f x))

theorem hasCounts_multiset {f : Value → Nat} (h : ∀ x, count xs x = f x) :
    HasCounts f (multiset xs) := by
  intro x hx
  simp only [BinaryOp.apply, MultisetOp.apply, asMultiset, demandComparable_eq_ok hx, ← h x]
  rfl

private theorem multiplicity_eq (h : (multiset xs).isWellFormed = true) (x : Value) :
    (multiset xs).multiplicity x = count xs x := by
  by_cases hx : x.isFirstOrder = true
  · rw [multiplicity, hasCounts_multiset (fun _ => rfl) x hx]
    rfl
  · have hkey : x ∉ Ascending.keys xs := by
      intro hmem
      obtain ⟨n, helem, -⟩ := (isWellFormed_multiset.mp h).of_mem_keys hmem
      exact hx helem.firstOrder
    have hdemand : x.demandComparable MultisetOp.count.operator = .error _ := if_neg hx
    simp only [multiplicity, BinaryOp.apply, MultisetOp.apply, asMultiset, hdemand,
      count_eq_zero hkey]
    rfl

private theorem multiset_mem_apply (xs : List (Value × Nat)) (hx : x.isFirstOrder = true) :
    (BinaryOp.multiset .mem).apply x (multiset xs) =
      .ok (.bool (Ascending.get? x xs).isSome) := by
  simp only [BinaryOp.apply, MultisetOp.apply, inMultiset, asMultiset, demandComparable_eq_ok hx]
  rfl

private theorem multisetUpdate_apply (xs : List (Value × Nat)) (hx : x.isFirstOrder = true)
    (n : Nat) :
    TernaryOp.multisetUpdate.apply (multiset xs) x (.int n) =
      .ok (.multiset (if n = 0 then Ascending.erase x xs else Ascending.put x n xs)) := by
  let op : Operator := .eager (.ternary .multisetUpdate)
  have hsteps : TernaryOp.multisetUpdate.apply (multiset xs) x (.int n) =
      if (n : Int) < 0 then .error (.invalid op .negativeMultiplicity)
      else if (n : Int) = 0 then .ok (.multiset (Ascending.erase x xs))
      else .ok (.multiset (Ascending.put x (n : Int).toNat xs)) := by
    simp only [TernaryOp.apply, TernaryOp.updateMultiset, asMultiset, asInt,
      demandComparable_eq_ok hx]
    rfl
  have hneg : ¬(n : Int) < 0 := by omega
  rw [hsteps, if_neg hneg]
  by_cases hn : n = 0 <;> simp [hn]

/-- A well-formed multiset, in which the operator counts each value as often as `f` says. -/
structure IsMultisetOf (f : Value → Nat) (m : Value) : Prop where
  wellFormed : m.isWellFormed = true
  count : HasCounts f m

private theorem isMultisetOf_multiset {f : Value → Nat} (h : (multiset xs).isWellFormed = true)
    (hf : ∀ x, count xs x = f x) : IsMultisetOf f (multiset xs) :=
  ⟨h, hasCounts_multiset hf⟩

end Value

open Value

/-- The laws of multiplicities, for the operators on two multisets. -/
structure MultisetLaws (a b : Value) : Prop where
  count : IsMultisetOf a.multiplicity a ∧ IsMultisetOf b.multiplicity b
  union : Yields (IsMultisetOf fun x => a.multiplicity x + b.multiplicity x)
    ((BinaryOp.multiset .union).apply a b)
  inter : Yields (IsMultisetOf fun x => min (a.multiplicity x) (b.multiplicity x))
    ((BinaryOp.multiset .inter).apply a b)
  diff : Yields (IsMultisetOf fun x => a.multiplicity x - b.multiplicity x)
    ((BinaryOp.multiset .diff).apply a b)
  update : ∀ (x : Value) (n : Nat), x.isFirstOrder = true →
    Yields (fun m => HasCounts (fun y => if y = x then n else a.multiplicity y) m ∧
        (x.isWellFormed = true → m.isWellFormed = true))
      (TernaryOp.multisetUpdate.apply a x (.int n))
  mem : ∀ x, x.isFirstOrder = true →
    Decides (0 < a.multiplicity x) ((BinaryOp.multiset .mem).apply x a)
  eq : Decides (∀ x, a.multiplicity x = b.multiplicity x) ((BinaryOp.multiset .eq).apply a b)
  subset : Decides (∀ x, a.multiplicity x ≤ b.multiplicity x)
    ((BinaryOp.multiset .subset).apply a b)
  superset : Decides (∀ x, b.multiplicity x ≤ a.multiplicity x)
    ((BinaryOp.multiset .superset).apply a b)
  properSubset : Decides ((∀ x, a.multiplicity x ≤ b.multiplicity x) ∧
    ∃ x, a.multiplicity x ≠ b.multiplicity x) ((BinaryOp.multiset .properSubset).apply a b)
  properSuperset : Decides ((∀ x, b.multiplicity x ≤ a.multiplicity x) ∧
    ∃ x, a.multiplicity x ≠ b.multiplicity x) ((BinaryOp.multiset .properSuperset).apply a b)
  disjoint : Decides (∀ x, ¬(0 < a.multiplicity x ∧ 0 < b.multiplicity x))
    ((BinaryOp.multiset .disjoint).apply a b)
  /-- What two multisets share and what only the first one has make up the first one. -/
  restore : ∃ i d, (BinaryOp.multiset .inter).apply a b = .ok i ∧
    (BinaryOp.multiset .diff).apply a b = .ok d ∧ (BinaryOp.multiset .union).apply i d = .ok a
  card : ∃ u, (BinaryOp.multiset .union).apply a b = .ok u ∧ ∃ m n : Nat,
    UnaryOp.multisetCard.apply a = .ok (.int m) ∧ UnaryOp.multisetCard.apply b = .ok (.int n) ∧
      UnaryOp.multisetCard.apply u = .ok (.int (m + n))

/-- The operators on well-formed multisets obey the laws of multiplicities. -/
theorem multiset_operators_obey_laws {xs ys : List (Value × Nat)}
    (hxs : (multiset xs).isWellFormed = true) (hys : (multiset ys).isWellFormed = true) :
    MultisetLaws (.multiset xs) (.multiset ys) := by
  have hf : (multiset xs).multiplicity = Value.count xs := funext (multiplicity_eq hxs)
  have hg : (multiset ys).multiplicity = Value.count ys := funext (multiplicity_eq hys)
  have hkeys := (isWellFormed_multiset.mp hxs).nodup_keys
  have hkeys' := (isWellFormed_multiset.mp hys).nodup_keys
  constructor
  case count =>
    exact ⟨isMultisetOf_multiset hxs fun x => (multiplicity_eq hxs x).symm,
      isMultisetOf_multiset hys fun x => (multiplicity_eq hys x).symm⟩
  case union =>
    have hunion := sumCounts_isWellFormed hxs hys
    rw [hf, hg]
    exact ⟨_, rfl, isMultisetOf_multiset hunion (count_sumCounts xs hkeys')⟩
  case inter =>
    have hinter := minCounts_isWellFormed hxs ys
    rw [hf, hg]
    exact ⟨_, rfl, isMultisetOf_multiset hinter (count_minCounts hkeys ys)⟩
  case diff =>
    have hdiff := diffCounts_isWellFormed hxs ys
    rw [hf, hg]
    exact ⟨_, rfl, isMultisetOf_multiset hdiff (count_diffCounts hkeys ys)⟩
  case update =>
    intro x n hx
    rw [hf]
    refine ⟨_, multisetUpdate_apply xs hx n, hasCounts_multiset fun y => ?_, fun hform => ?_⟩
    · by_cases hn : n = 0 <;> simp [hn, count_put, count_erase]
    · have hkeeps := TernaryOp.updateMultiset_keepsForm hxs hform (.int n)
      exact hkeeps.of_eq_ok (multisetUpdate_apply xs hx n)
  case mem =>
    intro x hx
    rw [hf, multiset_mem_apply xs hx]
    exact decides_ok (isSome_get?_iff hxs)
  case eq =>
    rw [hf, hg]
    exact decides_ok (by rw [decide_eq_true_iff, eq_iff_count hxs hys])
  case subset =>
    rw [hf, hg]
    exact decides_ok (includedCounts_iff hkeys ys)
  case superset =>
    rw [hf, hg]
    exact decides_ok (includedCounts_iff hkeys' xs)
  case properSubset =>
    rw [hf, hg]
    apply decides_ok
    rw [Bool.and_eq_true, includedCounts_iff hkeys ys, decide_eq_true_iff, ne_iff_count hxs hys]
  case properSuperset =>
    rw [hf, hg]
    apply decides_ok
    rw [Bool.and_eq_true, includedCounts_iff hkeys' xs, decide_eq_true_iff, ne_iff_count hxs hys]
  case disjoint =>
    rw [hf, hg]
    exact decides_ok (disjointCounts_iff hxs hys)
  case restore =>
    have hunion : (BinaryOp.multiset .union).apply (.multiset (minCounts xs ys))
        (.multiset (diffCounts xs ys)) =
          .ok (.multiset (sumCounts (minCounts xs ys) (diffCounts xs ys))) := rfl
    exact ⟨_, _, rfl, rfl, hunion.trans (by rw [sumCounts_minCounts_diffCounts hxs])⟩
  case card =>
    have htotal := total_sumCounts ((isWellFormed_multiset.mp hxs).ascending trivial) ys
    have hcard : UnaryOp.multisetCard.apply (.multiset (sumCounts xs ys)) =
        .ok (.int (total (sumCounts xs ys))) := rfl
    exact ⟨_, rfl, _, _, rfl, rfl, hcard.trans (by rw [htotal, Int.natCast_add])⟩

/-- One value is listed on both sides, another on each side alone. When the second multiset is taken
away from the first, one copy of the shared value is left, and the other value stays. -/
theorem multiset_operators_obey_laws_overlap :
    let a : Value := .multiset [(.int 1, 3), (.seq [.bool true], 1)]
    let b : Value := .multiset [(.char 'c', 5), (.int 1, 2)]
    a.isWellFormed = true ∧ b.isWellFormed = true ∧ MultisetLaws a b ∧
      (BinaryOp.multiset .diff).apply a b =
        .ok (.multiset [(.int 1, 1), (.seq [.bool true], 1)]) ∧
      UnaryOp.multisetCard.apply a = .ok (.int 4) := by
  intro a b
  have ha : a.isWellFormed = true := by decide
  have hb : b.isWellFormed = true := by decide
  exact ⟨ha, hb, multiset_operators_obey_laws ha hb, by decide, by decide⟩

end CheckedPass
