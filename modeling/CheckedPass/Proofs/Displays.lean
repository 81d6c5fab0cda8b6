import CheckedPass.Proofs.Maps
import CheckedPass.Proofs.Multisets
/-!
# Displays

A set, a multiset or a map is built by placing one element after the other, with a check of each in
between. What is built depends only on which elements there are and how often, and so does whether
it can be built; only which error is reported depends on where the first offender stands.
-/

namespace CheckedPass

namespace Collection

variable {xs ys : List Value}

private theorem demanded_eq_ok_iff {kind : Collection} {v r : Value} :
    (do kind.demandComparable xs; return v) = Except.ok r ↔
      (∀ x ∈ xs, x.isFirstOrder = true) ∧ v = r := by
  have hdemand : kind.demandComparable xs = .ok () ↔ ∀ x ∈ xs, x.isFirstOrder = true := by
    constructor
    · exact (kind.demandComparable_reads xs).of_eq_ok
    · intro h
      induction xs with
      | nil => rfl
      | cons x xs ih =>
        obtain ⟨hx, hxs⟩ := List.forall_mem_cons.mp h
        rw [demandComparable, Value.demandComparable_eq_ok hx]
        exact ih hxs
  simp [bind_eq_ok_iff, hdemand, pure, Except.pure]

private theorem build_set_eq_ok_iff {s : Value} : Collection.set.build xs = .ok s ↔
    (∀ x ∈ xs, x.isFirstOrder = true) ∧ .setOf xs = s :=
  demanded_eq_ok_iff

private theorem build_multiset_eq_ok_iff {m : Value} : Collection.multiset.build xs = .ok m ↔
    (∀ x ∈ xs, x.isFirstOrder = true) ∧ .multisetOf xs = m :=
  demanded_eq_ok_iff

private theorem hasElem_setOf (h : ∀ x ∈ xs, x.isFirstOrder = true) (x : Value) :
    (Value.setOf xs).HasElem x ↔ x ∈ xs := by
  have hmem : x.isFirstOrder = true → ((Value.setOf xs).HasElem x ↔ x ∈ xs) := by
    intro hx
    rw [Value.HasElem, Value.setOf, Value.set_mem_apply _ hx]
    simp [Ascending.mem_ofList]
  constructor
  · intro hx
    exact (hmem (Value.isFirstOrder_of_hasElem hx)).mp hx
  · intro hx
    exact (hmem (h x hx)).mpr hx

/-- Each element once. -/
def copies (xs : List Value) : List (Value × Nat) :=
  xs.map fun x => (x, 1)

private theorem multisetOf_eq (xs : List Value) :
    Value.multisetOf xs = .multiset (Value.sumCounts [] (copies xs)) := by
  rw [Value.multisetOf, Value.sumCounts, copies, List.foldl_map]

private theorem get?_sumCounts_copies (counts : List (Value × Nat)) (xs : List Value) (x : Value) :
    Ascending.get? x (Value.sumCounts counts (copies xs)) =
      if x ∈ xs then some (Value.count counts x + xs.count x) else Ascending.get? x counts := by
  induction xs generalizing counts with
  | nil => simp [copies, Value.sumCounts]
  | cons y xs ih =>
    have hstep : Value.sumCounts counts (copies (y :: xs)) =
        Value.sumCounts (Value.addCopies counts y 1) (copies xs) := rfl
    rw [hstep, ih, Value.addCopies, Value.count_put, Ascending.get?_put]
    by_cases hy : x = y
    · subst hy
      by_cases hx : x ∈ xs
      · simp only [hx, List.mem_cons_self, if_true, List.count_cons_self]
        congr 1
        omega
      · simp [hx, List.count_eq_zero.mpr hx]
    · have hcount : (y :: xs).count x = xs.count x := List.count_cons_of_ne (Ne.symm hy)
      simp [hy, hcount]

private theorem count_copies (xs : List Value) (x : Value) :
    Value.count (Value.sumCounts [] (copies xs)) x = xs.count x := by
  rw [Value.count_of_get? (get?_sumCounts_copies [] xs x)]
  by_cases hx : x ∈ xs
  · simp [hx, Value.count, Ascending.get?]
  · simp [hx, Ascending.get?, List.count_eq_zero.mpr hx]

private theorem total_copies (xs : List Value) : Value.total (copies xs) = xs.length := by
  induction xs with
  | nil => rfl
  | cons x xs ih =>
    have hstep : Value.total (copies (x :: xs)) = 1 + Value.total (copies xs) := rfl
    rw [hstep, ih, List.length_cons, Nat.add_comm]

private theorem multisetOf_eq_of_perm (h : xs.Perm ys) :
    Value.multisetOf xs = Value.multisetOf ys := by
  have hkeys : ∀ zs : List Value, Ascending.isAscending
      (Ascending.keys (Value.sumCounts [] (copies zs))) = true := by
    intro zs
    rw [Value.keys_sumCounts]
    exact Ascending.isAscending_union rfl _
  rw [multisetOf_eq, multisetOf_eq]
  apply congrArg Value.multiset
  apply Ascending.eq_of_get? (hkeys xs) (hkeys ys)
  intro x
  rw [get?_sumCounts_copies, get?_sumCounts_copies, h.count_eq]
  simp only [h.mem_iff]

/-- The elements are pairs of a key that can be compared and a value, and no two keys are equal. -/
structure IsMapDisplay (xs : List Value) : Prop where
  pairs : ∀ x ∈ xs, ∃ k v, x = .seq [k, v] ∧ k.isFirstOrder = true
  distinct : xs.Pairwise fun x y => ∀ k v w, x = .seq [k, v] → y ≠ .seq [k, w]

private theorem IsMapDisplay.perm (h : IsMapDisplay xs) (hperm : xs.Perm ys) : IsMapDisplay ys where
  pairs x hx := h.pairs x (hperm.mem_iff.mpr hx)
  distinct := by
    -- Which of the two comes first makes no difference, so the pairs may change places.
    apply hperm.pairwise h.distinct
    intro x y hxy k v w hy hx
    exact hxy k w v hx hy

/-- The bindings that the elements of a display of a map stand for. -/
structure Lists (xs : List Value) (ps : List (Value × Value)) : Prop where
  elems : xs = ps.map fun p => .seq [p.1, p.2]
  comparable : ∀ p ∈ ps, p.1.isFirstOrder = true
  distinct : (Ascending.keys ps).Nodup

private theorem isMapDisplay_iff : IsMapDisplay xs ↔ ∃ ps, Lists xs ps := by
  constructor
  · intro h
    induction xs with
    | nil => exact ⟨[], rfl, by simp, .nil⟩
    | cons x xs ih =>
      obtain ⟨⟨k, v, rfl, hk⟩, hpairs⟩ := List.forall_mem_cons.mp h.pairs
      obtain ⟨hx, hdistinct⟩ := List.pairwise_cons.mp h.distinct
      obtain ⟨ps, rfl, hcomparable, hkeys⟩ := ih ⟨hpairs, hdistinct⟩
      have hnew : k ∉ Ascending.keys ps := by
        intro hmem
        obtain ⟨p, hp, rfl⟩ := List.mem_map.mp hmem
        exact hx _ (List.mem_map_of_mem hp) p.1 v p.2 rfl rfl
      exact ⟨(k, v) :: ps, rfl, List.forall_mem_cons.mpr ⟨hk, hcomparable⟩,
        List.nodup_cons.mpr ⟨hnew, hkeys⟩⟩
  · intro h
    obtain ⟨ps, rfl, hcomparable, hkeys⟩ := h
    constructor
    · intro x hx
      obtain ⟨p, hp, rfl⟩ := List.mem_map.mp hx
      exact ⟨p.1, p.2, rfl, hcomparable p hp⟩
    · rw [List.pairwise_map]
      apply (List.pairwise_map.mp hkeys).imp
      intro p q hne k v w hp hq
      have hpk : p.1 = k := (List.cons.inj (Value.seq.inj hp)).1
      have hqk : q.1 = k := (List.cons.inj (Value.seq.inj hq)).1
      exact hne (hpk.trans hqk.symm)

theorem Lists.mem_iff {ps : List (Value × Value)} (h : Lists xs ps) {k v : Value} :
    .seq [k, v] ∈ xs ↔ (k, v) ∈ ps := by
  rw [h.elems, List.mem_map]
  constructor
  · intro h
    obtain ⟨p, hp, heq⟩ := h
    obtain ⟨rfl, rfl⟩ : p.1 = k ∧ p.2 = v := by simpa using heq
    exact hp
  · intro hp
    exact ⟨_, hp, rfl⟩

private theorem pair_eq_ok_iff {x : Value} {p : Value × Value} :
    pair x = .ok p ↔ x = .seq [p.1, p.2] ∧ p.1.isFirstOrder = true := by
  constructor
  · exact (pair_reads x).of_eq_ok
  · intro h
    obtain ⟨rfl, hfirst⟩ := h
    have hsteps : pair (.seq [p.1, p.2]) = (do
        p.1.demandComparable (operator .map)
        return (p.1, p.2)) := rfl
    rw [hsteps, Value.demandComparable_eq_ok hfirst]
    rfl

private theorem addPairs_cons_eq_ok_iff {entries m : List (Value × Value)} {x : Value} :
    addPairs entries (x :: xs) = .ok m ↔ ∃ p, pair x = .ok p ∧ p.1 ∉ Ascending.keys entries ∧
      addPairs (Ascending.put p.1 p.2 entries) xs = .ok m := by
  rw [addPairs, bind_eq_ok_iff]
  apply exists_congr
  intro p
  obtain ⟨k, v⟩ := p
  apply and_congr_right
  intro _
  simp only [← Ascending.get?_eq_none_iff]
  cases hget : Ascending.get? k entries with
  | none => simp
  | some w => simp

private theorem addPairs_eq_ok_iff {entries m : List (Value × Value)} :
    addPairs entries xs = .ok m ↔ ∃ ps, Lists xs ps ∧
      (∀ k ∈ Ascending.keys ps, k ∉ Ascending.keys entries) ∧ Ascending.putAll entries ps = m := by
  induction xs generalizing entries with
  | nil =>
    constructor
    · intro h
      exact ⟨[], ⟨rfl, by simp, .nil⟩, by simp [Ascending.keys], Except.ok.inj h⟩
    · intro h
      obtain ⟨ps, hps, -, rfl⟩ := h
      obtain rfl := List.map_eq_nil_iff.mp hps.elems.symm
      rfl
  | cons x xs ih =>
    have hput : ∀ (p : Value × Value) (k : Value),
        k ∈ Ascending.keys (Ascending.put p.1 p.2 entries) ↔
          k = p.1 ∨ k ∈ Ascending.keys entries := by
      intro p k
      rw [Ascending.keys_put, Ascending.mem_insert]
    -- The rest has to be new to the entries with this key among them, so this key does not come
    -- again.
    rw [addPairs_cons_eq_ok_iff]
    simp only [ih, pair_eq_ok_iff, hput, not_or]
    constructor
    · intro h
      obtain ⟨p, ⟨rfl, hfirst⟩, hnew, ps, hps, hothers, rfl⟩ := h
      have hp : p.1 ∉ Ascending.keys ps := fun hmem => (hothers p.1 hmem).1 rfl
      refine ⟨p :: ps, ⟨?_, ?_, ?_⟩, ?_, rfl⟩
      · rw [hps.elems, List.map_cons]
      · exact List.forall_mem_cons.mpr ⟨hfirst, hps.comparable⟩
      · exact List.nodup_cons.mpr ⟨hp, hps.distinct⟩
      · exact List.forall_mem_cons.mpr ⟨hnew, fun k hk => (hothers k hk).2⟩
    · intro h
      obtain ⟨qs, hqs, hnew, rfl⟩ := h
      obtain ⟨p, ps, rfl, rfl, rfl⟩ := List.map_eq_cons_iff.mp hqs.elems.symm
      obtain ⟨hfirst, hcomparable⟩ := List.forall_mem_cons.mp hqs.comparable
      obtain ⟨hp, hdistinct⟩ := List.nodup_cons.mp hqs.distinct
      obtain ⟨hpnew, hothers⟩ := List.forall_mem_cons.mp hnew
      refine ⟨p, ⟨rfl, hfirst⟩, hpnew, ps, ⟨rfl, hcomparable, hdistinct⟩, ?_, rfl⟩
      intro k hk
      have hne : k ≠ p.1 := fun heq => hp (heq ▸ hk)
      exact ⟨hne, hothers k hk⟩

private theorem build_map_eq_ok_iff {m : Value} : Collection.map.build xs = .ok m ↔
    ∃ ps, Lists xs ps ∧ .map (Ascending.putAll [] ps) = m := by
  have hsteps : Collection.map.build xs = (do
      let entries ← addPairs [] xs
      return .map entries) := rfl
  rw [hsteps, bind_eq_ok_iff]
  simp only [addPairs_eq_ok_iff]
  constructor
  · intro h
    obtain ⟨_, ⟨ps, hps, -, rfl⟩, hm⟩ := h
    exact ⟨ps, hps, Except.ok.inj hm⟩
  · intro h
    obtain ⟨ps, hps, rfl⟩ := h
    exact ⟨_, ⟨ps, hps, by simp [Ascending.keys], rfl⟩, rfl⟩

section Bindings

variable {ps : List (Value × Value)}

theorem Lists.get?_putAll (h : Lists xs ps) {k v : Value} :
    Ascending.get? k (Ascending.putAll [] ps) = some v ↔ .seq [k, v] ∈ xs := by
  rw [Ascending.get?_putAll h.distinct, h.mem_iff]
  simp only [Ascending.get?, Option.or_none]
  constructor
  · exact Ascending.mem_of_get?
  · exact Ascending.get?_of_mem h.distinct

theorem Lists.length_putAll (h : Lists xs ps) :
    (Ascending.putAll [] ps).length = xs.length := by
  have hkeys : Ascending.keys (Ascending.putAll [] ps) =
      Ascending.ofList (Ascending.keys ps) := Ascending.keys_putAll [] ps
  calc (Ascending.putAll [] ps).length
      = (Ascending.keys (Ascending.putAll [] ps)).length := by simp [Ascending.keys]
    _ = (Ascending.keys ps).length := by rw [hkeys, (Ascending.ofList_perm h.distinct).length_eq]
    _ = xs.length := by simp [h.elems, Ascending.keys]

private theorem Lists.select_iff (h : Lists xs ps) {k v : Value} :
    (BinaryOp.map .select).apply (.map (Ascending.putAll [] ps)) k = .ok v ↔ .seq [k, v] ∈ xs := by
  rw [← h.get?_putAll]
  constructor
  · intro hselect
    have hk : k.isFirstOrder = true := Value.isFirstOrder_of_select hselect
    exact (Value.select_eq_ok_iff hk).mp hselect
  · intro hget
    have hk : k.isFirstOrder = true := h.comparable _ (h.mem_iff.mp (h.get?_putAll.mp hget))
    exact (Value.select_eq_ok_iff hk).mpr hget

private theorem Lists.putAll_eq {qs : List (Value × Value)} (h : Lists xs ps) (h' : Lists ys qs)
    (hmem : ∀ x, x ∈ xs ↔ x ∈ ys) : Ascending.putAll [] ps = Ascending.putAll [] qs := by
  apply Ascending.eq_of_get? (Ascending.isAscending_keys_putAll rfl ps)
    (Ascending.isAscending_keys_putAll rfl qs)
  intro k
  apply Option.ext
  intro v
  rw [h.get?_putAll, h'.get?_putAll, hmem]

end Bindings

private theorem build_of_perm {kind : Collection} (hkind : kind ≠ .seq) (hperm : xs.Perm ys)
    {v : Value} (h : kind.build xs = .ok v) : kind.build ys = .ok v := by
  cases kind with
  | seq => exact absurd rfl hkind
  | set =>
    obtain ⟨hfirst, rfl⟩ := build_set_eq_ok_iff.mp h
    refine build_set_eq_ok_iff.mpr ⟨fun x hx => hfirst x (hperm.mem_iff.mpr hx), ?_⟩
    rw [Value.setOf, Value.setOf, Ascending.ofList_eq_of_perm hperm]
  | multiset =>
    obtain ⟨hfirst, rfl⟩ := build_multiset_eq_ok_iff.mp h
    refine build_multiset_eq_ok_iff.mpr ⟨fun x hx => hfirst x (hperm.mem_iff.mpr hx), ?_⟩
    rw [multisetOf_eq_of_perm hperm]
  | map =>
    obtain ⟨ps, hps, rfl⟩ := build_map_eq_ok_iff.mp h
    have hdisplay : IsMapDisplay xs := isMapDisplay_iff.mpr ⟨ps, hps⟩
    obtain ⟨qs, hqs⟩ := isMapDisplay_iff.mp (hdisplay.perm hperm)
    refine build_map_eq_ok_iff.mpr ⟨qs, hqs, congrArg Value.map ?_⟩
    exact hqs.putAll_eq hps fun x => hperm.mem_iff.symm

private theorem refused_of_perm {kind : Collection} (hkind : kind ≠ .seq) (hperm : xs.Perm ys)
    {error : EvalError} (h : kind.build xs = .error error) :
    ∃ error', kind.build ys = .error error' := by
  cases hys : kind.build ys with
  | error error' => exact ⟨error', rfl⟩
  | ok v =>
    rw [build_of_perm hkind hperm.symm hys] at h
    cases h

end Collection

open Collection

/-- What displays of sets, multisets and maps make of a list of elements. -/
structure DisplayLaws (xs : List Value) : Prop where
  set : (∃ s, Collection.set.build xs = .ok s) ↔ ∀ x ∈ xs, x.isFirstOrder = true
  elems : ∀ s, Collection.set.build xs = .ok s → ∀ x, s.HasElem x ↔ x ∈ xs
  multiset : (∃ m, Collection.multiset.build xs = .ok m) ↔ ∀ x ∈ xs, x.isFirstOrder = true
  counts : ∀ m, Collection.multiset.build xs = .ok m →
    m.HasCounts (fun x => xs.count x) ∧ UnaryOp.multisetCard.apply m = .ok (.int xs.length)
  map : (∃ m, Collection.map.build xs = .ok m) ↔ IsMapDisplay xs
  bindings : ∀ m, Collection.map.build xs = .ok m →
    (∀ k v, (BinaryOp.map .select).apply m k = .ok v ↔ .seq [k, v] ∈ xs) ∧
      UnaryOp.mapCard.apply m = .ok (.int xs.length)
  /-- In another order the same elements make the same collection. -/
  reordered : ∀ kind : Collection, kind ≠ .seq → ∀ ys, xs.Perm ys →
    ∀ v, kind.build xs = .ok v → kind.build ys = .ok v
  refused : ∀ kind : Collection, kind ≠ .seq → ∀ ys, xs.Perm ys →
    ∀ error, kind.build xs = .error error → ∃ error', kind.build ys = .error error'

/-- Displays are canonical: they depend on the elements, and not on the order of the elements. -/
theorem displays_are_canonical (xs : List Value) : DisplayLaws xs := by
  constructor
  case set =>
    simp [build_set_eq_ok_iff]
  case elems =>
    intro s hs
    obtain ⟨hfirst, rfl⟩ := build_set_eq_ok_iff.mp hs
    exact hasElem_setOf hfirst
  case multiset =>
    simp [build_multiset_eq_ok_iff]
  case counts =>
    intro m hm
    obtain ⟨-, rfl⟩ := build_multiset_eq_ok_iff.mp hm
    have htotal : Value.total (Value.sumCounts [] (copies xs)) = 0 + Value.total (copies xs) :=
      Value.total_sumCounts rfl (copies xs)
    have hcard : ∀ counts, UnaryOp.multisetCard.apply (.multiset counts) =
        .ok (.int (Value.total counts)) := fun _ => rfl
    rw [multisetOf_eq]
    refine ⟨Value.hasCounts_multiset (count_copies xs), ?_⟩
    rw [hcard, htotal, total_copies, Nat.zero_add]
  case map =>
    rw [isMapDisplay_iff]
    simp [build_map_eq_ok_iff]
  case bindings =>
    intro m hm
    obtain ⟨ps, hps, rfl⟩ := build_map_eq_ok_iff.mp hm
    have hcard : UnaryOp.mapCard.apply (.map (Ascending.putAll [] ps)) =
        .ok (.int (Ascending.putAll [] ps).length) := rfl
    refine ⟨fun k v => hps.select_iff, ?_⟩
    rw [hcard, hps.length_putAll]
  case reordered => exact fun kind hkind ys hperm v => build_of_perm hkind hperm
  case refused => exact fun kind hkind ys hperm error => refused_of_perm hkind hperm

-- Only the error tells in which order the elements came.
example : Collection.map.build [.seq [.unit, .unit], .seq [.unit, .unit], .unit] =
      .error (.duplicateKey .unit) ∧
    Collection.map.build [.unit, .seq [.unit, .unit], .seq [.unit, .unit]] =
      .error (.unexpected (operator .map) (.kind .seq) .unit) := by decide

end CheckedPass
