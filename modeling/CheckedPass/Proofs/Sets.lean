import CheckedPass.Proofs.WellFormed
/-!
# Sets

On well-formed sets the operators are those of finite sets, whatever values the elements are. What
the elements are is for the operator for membership to say. Inclusion goes through the elements;
proper inclusion compares sizes as well, which comes to the same, since no element is listed twice.
-/

namespace CheckedPass

/-- The test comes to a verdict, and the verdict is whether `P` holds. -/
def Decides (P : Prop) (test : EvalResult Value) : Prop :=
  ∃ b : Bool, test = .ok (.bool b) ∧ (b = true ↔ P)

theorem decides_ok {P : Prop} {b : Bool} (h : b = true ↔ P) : Decides P (.ok (.bool b)) :=
  ⟨b, rfl, h⟩

namespace Value

/-- `x` is an element of `s`, by the operator for membership. -/
def HasElem (s x : Value) : Prop :=
  (BinaryOp.set .mem).apply x s = .ok (.bool true)

instance (s x : Value) : Decidable (s.HasElem x) :=
  inferInstanceAs (Decidable (_ = Except.ok (bool true)))

/-- A well-formed set. Of the values that can be compared those with `P` are its elements, by the
operator for membership. -/
structure IsSetOf (P : Value → Prop) (s : Value) : Prop where
  wellFormed : s.isWellFormed = true
  mem : ∀ x, x.isFirstOrder = true → Decides (P x) ((BinaryOp.set .mem).apply x s)

variable {xs ys : List Value} {x : Value}

theorem set_mem_apply (xs : List Value) (hx : x.isFirstOrder = true) :
    (BinaryOp.set .mem).apply x (set xs) = .ok (.bool (x ∈ xs)) := by
  simp only [BinaryOp.apply, SetOp.apply, inSet, asSet, demandComparable_eq_ok hx]
  rfl

theorem isFirstOrder_of_test {α : Type} {read : EvalResult α} {op : Operator} {test : α → Bool}
    {verdict : Value} (h : (do
      let b ← (do
        let content ← read
        x.demandComparable op
        return test content)
      return bool b) = .ok verdict) : x.isFirstOrder = true := by
  obtain ⟨b, htest, -⟩ := steps_of_bind_eq_ok h
  obtain ⟨content, -, hrest⟩ := steps_of_bind_eq_ok htest
  obtain ⟨u, hdemand, -⟩ := steps_of_bind_eq_ok hrest
  exact (x.demandComparable_reads op).of_eq_ok hdemand

theorem isFirstOrder_of_hasElem {s : Value} (h : s.HasElem x) : x.isFirstOrder = true :=
  isFirstOrder_of_test h

theorem hasElem_iff (h : (set xs).isWellFormed = true) : (set xs).HasElem x ↔ x ∈ xs := by
  constructor
  · intro hx
    have hmem := (set_mem_apply xs (isFirstOrder_of_hasElem hx)).symm.trans hx
    simpa using hmem
  · intro hx
    have hfirst := ((isWellFormed_set.mp h).2 x hx).firstOrder
    rw [HasElem, set_mem_apply xs hfirst, decide_eq_true hx]

theorem isSetOf_set {P : Value → Prop} (h : (set xs).isWellFormed = true)
    (hP : ∀ x, x ∈ xs ↔ P x) : IsSetOf P (set xs) where
  wellFormed := h
  mem x hx := by
    rw [set_mem_apply xs hx]
    exact decides_ok (by rw [decide_eq_true_iff, hP])

private theorem included_iff (hxs : (set xs).isWellFormed = true)
    (hys : (set ys).isWellFormed = true) :
    included xs ys = true ↔ ∀ x, (set xs).HasElem x → (set ys).HasElem x := by
  simp [included, hasElem_iff hxs, hasElem_iff hys]

private theorem eq_iff_included (hxs : (set xs).isWellFormed = true)
    (hys : (set ys).isWellFormed = true) :
    xs = ys ↔ included xs ys = true ∧ included ys xs = true := by
  have hascends := (isWellFormed_set.mp hxs).1
  have hascends' := (isWellFormed_set.mp hys).1
  simp only [included, List.all_eq_true, decide_eq_true_iff]
  constructor
  · intro heq
    subst heq
    exact ⟨fun _ hx => hx, fun _ hx => hx⟩
  · intro h
    exact Ascending.eq_of_mem_iff hascends hascends' fun x => ⟨h.1 x, h.2 x⟩

private theorem properlyIncluded_iff (hxs : (set xs).isWellFormed = true)
    (hys : (set ys).isWellFormed = true) :
    (included xs ys && xs.length < ys.length) = true ↔
      (∀ x, (set xs).HasElem x → (set ys).HasElem x) ∧ set xs ≠ set ys := by
  -- A part that is smaller is not the whole, and a part that is not smaller is.
  rw [Bool.and_eq_true, included_iff hxs hys, decide_eq_true_iff]
  apply and_congr_right
  intro hsub
  simp only [hasElem_iff hxs, hasElem_iff hys] at hsub
  have hascends := (isWellFormed_set.mp hxs).1
  have hascends' := (isWellFormed_set.mp hys).1
  have hle : xs.length ≤ ys.length :=
    (List.subperm_of_subset (Ascending.nodup_of_isAscending hascends) hsub).length_le
  constructor
  · intro hlt heq
    obtain rfl := set.inj heq
    omega
  · intro hne
    have hlen : xs.length ≠ ys.length := fun hlen =>
      hne (congrArg set (Ascending.eq_of_subset_of_length hascends hascends' hsub hlen))
    omega

private theorem length_union_add_length_inter (hxs : (set xs).isWellFormed = true)
    (hys : (set ys).isWellFormed = true) :
    (Ascending.union xs ys).length + (xs.filter fun x => x ∈ ys).length =
      xs.length + ys.length := by
  have hunion := Ascending.length_union (isWellFormed_set.mp hxs).1 (isWellFormed_set.mp hys).1
  have hsplit : xs.length = (xs.filter fun x => x ∈ ys).length +
      (xs.filter fun x => !decide (x ∈ ys)).length := List.length_eq_length_filter_add _
  simp only [decide_not] at hunion
  omega

end Value

open Value

/-- The laws of finite sets, for the operators on two sets. -/
structure SetLaws (a b : Value) : Prop where
  /-- Membership is decided for every value that can be compared. -/
  mem : IsSetOf a.HasElem a ∧ IsSetOf b.HasElem b
  union : Yields (IsSetOf fun x => a.HasElem x ∨ b.HasElem x) ((BinaryOp.set .union).apply a b)
  inter : Yields (IsSetOf fun x => a.HasElem x ∧ b.HasElem x) ((BinaryOp.set .inter).apply a b)
  diff : Yields (IsSetOf fun x => a.HasElem x ∧ ¬b.HasElem x) ((BinaryOp.set .diff).apply a b)
  subset : Decides (∀ x, a.HasElem x → b.HasElem x) ((BinaryOp.set .subset).apply a b)
  superset : Decides (∀ x, b.HasElem x → a.HasElem x) ((BinaryOp.set .superset).apply a b)
  properSubset : Decides ((∀ x, a.HasElem x → b.HasElem x) ∧ a ≠ b)
    ((BinaryOp.set .properSubset).apply a b)
  properSuperset : Decides ((∀ x, b.HasElem x → a.HasElem x) ∧ b ≠ a)
    ((BinaryOp.set .properSuperset).apply a b)
  eq : Decides ((BinaryOp.set .subset).apply a b = .ok (.bool true) ∧
    (BinaryOp.set .subset).apply b a = .ok (.bool true)) ((BinaryOp.set .eq).apply a b)
  disjoint : Decides ((BinaryOp.set .inter).apply a b = .ok (.set []))
    ((BinaryOp.set .disjoint).apply a b)
  card : ∃ u i, (BinaryOp.set .union).apply a b = .ok u ∧ (BinaryOp.set .inter).apply a b = .ok i ∧
    ∃ k l m n : Nat, UnaryOp.setCard.apply u = .ok (.int k) ∧
      UnaryOp.setCard.apply i = .ok (.int l) ∧ UnaryOp.setCard.apply a = .ok (.int m) ∧
      UnaryOp.setCard.apply b = .ok (.int n) ∧ k + l = m + n

/-- The operators on well-formed sets obey the laws of finite sets. -/
theorem set_operators_obey_laws {xs ys : List Value} (hxs : (set xs).isWellFormed = true)
    (hys : (set ys).isWellFormed = true) : SetLaws (.set xs) (.set ys) where
  mem := ⟨isSetOf_set hxs fun _ => (hasElem_iff hxs).symm,
    isSetOf_set hys fun _ => (hasElem_iff hys).symm⟩
  union := by
    refine ⟨_, rfl, isSetOf_set (SetOp.union_isWellFormed hxs hys) fun x => ?_⟩
    rw [Ascending.mem_union, hasElem_iff hxs, hasElem_iff hys]
  inter := by
    refine ⟨_, rfl, isSetOf_set (SetOp.filter_isWellFormed hxs _) fun x => ?_⟩
    simp [hasElem_iff hxs, hasElem_iff hys]
  diff := by
    refine ⟨_, rfl, isSetOf_set (SetOp.filter_isWellFormed hxs _) fun x => ?_⟩
    simp [hasElem_iff hxs, hasElem_iff hys]
  subset := decides_ok (included_iff hxs hys)
  superset := decides_ok (included_iff hys hxs)
  properSubset := decides_ok (properlyIncluded_iff hxs hys)
  properSuperset := decides_ok (properlyIncluded_iff hys hxs)
  eq := by
    have hsubset : ∀ vs ws : List Value, (BinaryOp.set .subset).apply (.set vs) (.set ws) =
        .ok (.bool (included vs ws)) := fun _ _ => rfl
    apply decides_ok
    rw [decide_eq_true_iff, eq_iff_included hxs hys]
    simp [hsubset]
  disjoint := by
    have hinter : (BinaryOp.set .inter).apply (.set xs) (.set ys) =
        .ok (.set (xs.filter fun x => x ∈ ys)) := rfl
    apply decides_ok
    simp [hinter, List.filter_eq_nil_iff]
  card := ⟨_, _, rfl, rfl, _, _, _, _, rfl, rfl, rfl, rfl, length_union_add_length_inter hxs hys⟩

/-- Sets of sets and sequences that have one element in common, so neither is a part of the other,
though one is smaller. -/
theorem set_operators_obey_laws_nested :
    let a : Value := .set [.int 1, .seq [.int 2]]
    let b : Value := .set [.seq [.int 2], .set [.char 'c', .int 3], .map []]
    a.isWellFormed = true ∧ b.isWellFormed = true ∧ SetLaws a b ∧
      a.HasElem (.seq [.int 2]) ∧ b.HasElem (.seq [.int 2]) ∧ ¬b.HasElem (.int 1) ∧
      (BinaryOp.set .inter).apply a b = .ok (.set [.seq [.int 2]]) ∧
      (BinaryOp.set .properSubset).apply a b = .ok (.bool false) := by
  intro a b
  have ha : a.isWellFormed = true := by decide
  have hb : b.isWellFormed = true := by decide
  exact ⟨ha, hb, set_operators_obey_laws ha hb, by decide, by decide, by decide, by decide,
    by decide⟩

end CheckedPass
