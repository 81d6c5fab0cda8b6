import CheckedPass.Proofs.Sets
/-!
# Maps

On well-formed maps the operators are those of finite partial functions, whatever values the keys
are. What a map gives at a key is for the operator for look-up to say; where the key is missing that
fails, and it fails in the same way for every map.
-/

namespace CheckedPass

namespace Value

variable {ms ns : List (Value × Value)} {k : Value}

/-- `k` is a key of `m`, by the operator for membership. -/
def HasKey (m k : Value) : Prop :=
  (BinaryOp.map .mem).apply k m = .ok (.bool true)

instance (m k : Value) : Decidable (m.HasKey k) :=
  inferInstanceAs (Decidable (_ = Except.ok (bool true)))

private theorem map_mem_apply (ms : List (Value × Value)) (hk : k.isFirstOrder = true) :
    (BinaryOp.map .mem).apply k (map ms) = .ok (.bool (Ascending.get? k ms).isSome) := by
  simp only [BinaryOp.apply, MapOp.apply, inMap, asMap, demandComparable_eq_ok hk]
  rfl

private theorem isFirstOrder_of_hasKey {m : Value} (h : m.HasKey k) : k.isFirstOrder = true :=
  isFirstOrder_of_test h

private theorem isFirstOrder_of_mem_keys (h : (map ms).isWellFormed = true)
    (hk : k ∈ Ascending.keys ms) : k.isFirstOrder = true := by
  obtain ⟨v, helem, -⟩ := (isWellFormed_map.mp h).of_mem_keys hk
  exact helem.firstOrder

private theorem hasKey_iff (h : (map ms).isWellFormed = true) :
    (map ms).HasKey k ↔ k ∈ Ascending.keys ms := by
  rw [← Ascending.get?_isSome_iff]
  constructor
  · intro hk
    have hmem := (map_mem_apply ms (isFirstOrder_of_hasKey hk)).symm.trans hk
    simpa using hmem
  · intro hk
    have hfirst := isFirstOrder_of_mem_keys h (Ascending.get?_isSome_iff.mp hk)
    rw [HasKey, map_mem_apply ms hfirst, hk]

private theorem select_apply (ms : List (Value × Value)) (k : Value) :
    (BinaryOp.map .select).apply (map ms) k = (do
      k.demandComparable MapOp.select.operator
      match Ascending.get? k ms with
      | some v => return v
      | none => .error (.invalid MapOp.select.operator (.missingKey k))) :=
  rfl

private theorem select_congr (h : Ascending.get? k ms = Ascending.get? k ns) :
    (BinaryOp.map .select).apply (map ms) k = (BinaryOp.map .select).apply (map ns) k := by
  rw [select_apply, select_apply, h]

theorem select_eq_ok_iff (hk : k.isFirstOrder = true) {v : Value} :
    (BinaryOp.map .select).apply (map ms) k = .ok v ↔ Ascending.get? k ms = some v := by
  rw [select_apply, demandComparable_eq_ok hk]
  cases Ascending.get? k ms with
  | none => simp [bind, Except.bind]
  | some w => simp [bind, Except.bind, pure, Except.pure]

theorem isFirstOrder_of_select {v : Value}
    (h : (BinaryOp.map .select).apply (map ms) k = .ok v) : k.isFirstOrder = true := by
  rw [select_apply] at h
  obtain ⟨u, hdemand, -⟩ := steps_of_bind_eq_ok h
  exact (k.demandComparable_reads _).of_eq_ok hdemand

private theorem mapUpdate_apply (ms : List (Value × Value)) (hk : k.isFirstOrder = true)
    (v : Value) : TernaryOp.mapUpdate.apply (map ms) k v = .ok (map (Ascending.put k v ms)) := by
  simp only [TernaryOp.apply, TernaryOp.updateMap, asMap, demandComparable_eq_ok hk]
  rfl

private theorem map_eq_apply (hm : (map ms).isFirstOrder = true)
    (hn : (map ns).isFirstOrder = true) :
    (BinaryOp.map .eq).apply (map ms) (map ns) = .ok (.bool (ms = ns)) := by
  have hequals : (map ms).equals MapOp.eq.operator (map ns) = .ok (decide (map ms = map ns)) := by
    rw [equals, demandComparable_eq_ok hm, demandComparable_eq_ok hn]
    rfl
  simp only [BinaryOp.apply, MapOp.apply, equalMaps, asMap, hequals, map.injEq]
  rfl

private theorem isSetOf_keys (h : (map ms).isWellFormed = true) :
    IsSetOf (map ms).HasKey (set (Ascending.keys ms)) := by
  have hform : (set (Ascending.keys ms)).isWellFormed = true := by
    refine isWellFormed_set.mpr ⟨((isWellFormed_map.mp h).ascending trivial), fun k hk => ?_⟩
    obtain ⟨v, helem, -⟩ := (isWellFormed_map.mp h).of_mem_keys hk
    exact helem
  exact isSetOf_set hform fun k => (hasKey_iff h).symm

private theorem select_putAll (hn : (map ns).isWellFormed = true) (k : Value) :
    ((map ns).HasKey k → (BinaryOp.map .select).apply (map (Ascending.putAll ms ns)) k =
      (BinaryOp.map .select).apply (map ns) k) ∧
    (¬(map ns).HasKey k → (BinaryOp.map .select).apply (map (Ascending.putAll ms ns)) k =
      (BinaryOp.map .select).apply (map ms) k) := by
  have hget := Ascending.get?_putAll (isWellFormed_map.mp hn).nodup_keys k ms
  rw [hasKey_iff hn]
  constructor
  · intro hk
    apply select_congr
    rw [hget, Option.or_of_isSome (Ascending.get?_isSome_iff.mpr hk)]
  · intro hk
    apply select_congr
    rw [hget, Ascending.get?_eq_none_iff.mpr hk, Option.none_or]

private theorem select_filter {ss : List Value} (hs : (set ss).isWellFormed = true) (k : Value) :
    ((set ss).HasElem k →
      (BinaryOp.map .mem).apply k (map (ms.filter fun p => p.1 ∉ ss)) = .ok (.bool false)) ∧
    (¬(set ss).HasElem k →
      (BinaryOp.map .select).apply (map (ms.filter fun p => p.1 ∉ ss)) k =
        (BinaryOp.map .select).apply (map ms) k) := by
  have hget : Ascending.get? k (ms.filter fun p => p.1 ∉ ss) =
      if k ∉ ss then Ascending.get? k ms else none := by
    simpa using Ascending.get?_filter (fun j => decide (j ∉ ss)) k ms
  constructor
  · intro hk
    have hmem : k ∈ ss := (hasElem_iff hs).mp hk
    rw [map_mem_apply _ (isFirstOrder_of_hasElem hk), hget, if_neg (not_not.mpr hmem)]
    rfl
  · intro hk
    apply select_congr
    rw [hasElem_iff hs] at hk
    rw [hget, if_pos hk]

private theorem eq_iff_select (hm : (map ms).isWellFormed = true)
    (hn : (map ns).isWellFormed = true) :
    ms = ns ↔ ∀ k, ((map ms).HasKey k ↔ (map ns).HasKey k) ∧
      ∀ v w, (BinaryOp.map .select).apply (map ms) k = .ok v →
        (BinaryOp.map .select).apply (map ns) k = .ok w → v = w := by
  constructor
  · intro heq
    subst heq
    intro k
    refine ⟨Iff.rfl, fun v w hv hw => ?_⟩
    rw [hv] at hw
    exact Except.ok.inj hw
  · intro h
    have hascends := (isWellFormed_map.mp hm).ascending trivial
    have hascends' := (isWellFormed_map.mp hn).ascending trivial
    refine Ascending.eq_of_get? hascends hascends' fun k => ?_
    obtain ⟨hkeys, hvalues⟩ := h k
    rw [hasKey_iff hm, hasKey_iff hn] at hkeys
    by_cases hk : k ∈ Ascending.keys ms
    · have hfirst := isFirstOrder_of_mem_keys hm hk
      obtain ⟨v, hv⟩ := Option.isSome_iff_exists.mp (Ascending.get?_isSome_iff.mpr hk)
      obtain ⟨w, hw⟩ := Option.isSome_iff_exists.mp (Ascending.get?_isSome_iff.mpr (hkeys.mp hk))
      have hvw := hvalues v w ((select_eq_ok_iff hfirst).mpr hv) ((select_eq_ok_iff hfirst).mpr hw)
      rw [hv, hw, hvw]
    · have hk' : k ∉ Ascending.keys ns := fun hmem => hk (hkeys.mpr hmem)
      rw [Ascending.get?_eq_none_iff.mpr hk, Ascending.get?_eq_none_iff.mpr hk']

end Value

open Value

/-- The laws of finite partial functions, for the operators on three maps and a set. -/
structure MapLaws (m n p s : Value) : Prop where
  /-- Whether there is a key is decided for every value that can be compared. -/
  mem : ∀ k, k.isFirstOrder = true → Decides (m.HasKey k) ((BinaryOp.map .mem).apply k m)
  select : ∀ k, k.isFirstOrder = true →
    ((∃ v, (BinaryOp.map .select).apply m k = .ok v) ↔ m.HasKey k)
  merge : Yields (fun r => r.isWellFormed = true ∧ ∀ k,
      (n.HasKey k → (BinaryOp.map .select).apply r k = (BinaryOp.map .select).apply n k) ∧
      (¬n.HasKey k → (BinaryOp.map .select).apply r k = (BinaryOp.map .select).apply m k))
    ((BinaryOp.map .merge).apply m n)
  subtract : Yields (fun r => r.isWellFormed = true ∧ ∀ k,
      (s.HasElem k → (BinaryOp.map .mem).apply k r = .ok (.bool false)) ∧
      (¬s.HasElem k → (BinaryOp.map .select).apply r k = (BinaryOp.map .select).apply m k))
    ((BinaryOp.map .subtract).apply m s)
  update : ∀ k v, k.isFirstOrder = true →
    Yields (fun r => (BinaryOp.map .select).apply r k = .ok v ∧
        (∀ j, j ≠ k → (BinaryOp.map .select).apply r j = (BinaryOp.map .select).apply m j) ∧
        (k.isWellFormed = true → v.isWellFormed = true → r.isWellFormed = true))
      (TernaryOp.mapUpdate.apply m k v)
  assoc : ∃ mn np r, (BinaryOp.map .merge).apply m n = .ok mn ∧
    (BinaryOp.map .merge).apply n p = .ok np ∧ (BinaryOp.map .merge).apply mn p = .ok r ∧
    (BinaryOp.map .merge).apply m np = .ok r
  empty : (BinaryOp.map .merge).apply m (.map []) = .ok m ∧
    (BinaryOp.map .merge).apply (.map []) m = .ok m
  eq : m.isFirstOrder = true → n.isFirstOrder = true →
    Decides (∀ k, (m.HasKey k ↔ n.HasKey k) ∧
        ∀ v w, (BinaryOp.map .select).apply m k = .ok v →
          (BinaryOp.map .select).apply n k = .ok w → v = w)
      ((BinaryOp.map .eq).apply m n)
  card : ∃ keys r d, IsSetOf n.HasKey keys ∧ (BinaryOp.map .merge).apply m n = .ok r ∧
    (BinaryOp.map .subtract).apply m keys = .ok d ∧ ∃ k l : Nat,
      UnaryOp.mapCard.apply n = .ok (.int k) ∧ UnaryOp.mapCard.apply d = .ok (.int l) ∧
      UnaryOp.mapCard.apply r = .ok (.int (k + l))

/-- The operators on well-formed maps obey the laws of finite partial functions. -/
theorem map_operators_obey_laws {ms ns ps : List (Value × Value)} {ss : List Value}
    (hm : (map ms).isWellFormed = true) (hn : (map ns).isWellFormed = true)
    (hp : (map ps).isWellFormed = true) (hs : (set ss).isWellFormed = true) :
    MapLaws (.map ms) (.map ns) (.map ps) (.set ss) := by
  have hascends := (isWellFormed_map.mp hm).ascending trivial
  have hascends' := (isWellFormed_map.mp hn).ascending trivial
  constructor
  case mem =>
    intro k hk
    rw [map_mem_apply ms hk]
    exact decides_ok (by rw [hasKey_iff hm, Ascending.get?_isSome_iff])
  case select =>
    intro k hk
    simp only [select_eq_ok_iff hk]
    rw [hasKey_iff hm, ← Ascending.get?_isSome_iff, Option.isSome_iff_exists]
  case merge =>
    exact ⟨_, rfl, (MapOp.merge.keepsForm hm hn).of_eq_ok rfl, select_putAll hn⟩
  case subtract =>
    exact ⟨_, rfl, (MapOp.subtract.keepsForm hm hs).of_eq_ok rfl, select_filter hs⟩
  case update =>
    intro k v hk
    refine ⟨_, mapUpdate_apply ms hk v, ?_, ?_, ?_⟩
    · rw [select_eq_ok_iff hk, Ascending.get?_put, if_pos rfl]
    · intro j hj
      apply select_congr
      rw [Ascending.get?_put, if_neg hj]
    · intro hform hform'
      exact (TernaryOp.updateMap_keepsForm hm hform hform').of_eq_ok (mapUpdate_apply ms hk v)
  case assoc =>
    have hascends'' := (isWellFormed_map.mp hp).ascending trivial
    have hassoc := Ascending.putAll_assoc hascends hascends' hascends''
    have hmerge : ∀ es fs : List (Value × Value), (BinaryOp.map .merge).apply (.map es) (.map fs) =
        .ok (.map (Ascending.putAll es fs)) := fun _ _ => rfl
    exact ⟨_, _, _, rfl, rfl, hmerge _ _, (hmerge _ _).trans (by rw [hassoc])⟩
  case empty =>
    have hmerge : (BinaryOp.map .merge).apply (.map []) (.map ms) =
        .ok (.map (Ascending.putAll [] ms)) := rfl
    exact ⟨rfl, hmerge.trans (by rw [Ascending.putAll_nil_left hascends])⟩
  case eq =>
    intro hfirst hfirst'
    rw [map_eq_apply hfirst hfirst']
    apply decides_ok
    rw [decide_eq_true_iff, eq_iff_select hm hn]
  case card =>
    have hlen := Ascending.length_putAll hascends hascends'
    have hcard : UnaryOp.mapCard.apply (.map (Ascending.putAll ms ns)) =
        .ok (.int (Ascending.putAll ms ns).length) := rfl
    refine ⟨_, _, _, isSetOf_keys hn, rfl, rfl, _, _, rfl, rfl, hcard.trans ?_⟩
    rw [hlen, Int.natCast_add]

/-- What the first map binds under the key that all three have is a function, so that map cannot be
compared; all the same the function is looked up, merged and left out like any other value. -/
theorem map_operators_obey_laws_function :
    let f : Value := .closure [] ["x"] (.var "x")
    let m : Value := .map [(.int 1, f), (.seq [], .unit)]
    let n : Value := .map [(.unit, .int 5), (.int 1, .char 'c')]
    let p : Value := .map [(.int 1, .unit)]
    let s : Value := .set [.int 1, .int 2]
    m.isWellFormed = true ∧ n.isWellFormed = true ∧ p.isWellFormed = true ∧
      s.isWellFormed = true ∧ MapLaws m n p s ∧ MapLaws n p m s ∧ m.HasKey (.int 1) ∧
      (BinaryOp.map .merge).apply n m =
        .ok (.map [(.unit, .int 5), (.int 1, f), (.seq [], .unit)]) ∧
      n.isFirstOrder = true ∧ p.isFirstOrder = true ∧
      (BinaryOp.map .eq).apply n p = .ok (.bool false) := by
  intro f m n p s
  have hm : m.isWellFormed = true := by decide
  have hn : n.isWellFormed = true := by decide
  have hp : p.isWellFormed = true := by decide
  have hs : s.isWellFormed = true := by decide
  exact ⟨hm, hn, hp, hs, map_operators_obey_laws hm hn hp hs, map_operators_obey_laws hn hp hm hs,
    by decide, by decide, by decide, by decide, by decide⟩

end CheckedPass
