import CheckedPass.Proofs.Samples
/-!
# The order in which samples are drawn

In the lexicographic order of all tuples that can be drawn from a pool, the number of a tuple and
its positions in the pool go together: the positions of the `k`-th tuple are the digits of `k` in
the base that is the size of the pool. What is drawn under a limit is a first part of that
enumeration, and sampled environments follow it tuple by tuple.
-/

namespace CheckedPass

section Tuples

variable {α : Type}

private theorem pairwise_allTuples [LT α] {pool : List α} (h : pool.Pairwise (· < ·)) (n : Nat) :
    (allTuples pool n).Pairwise (· < ·) := by
  induction n with
  | zero => simp [allTuples]
  | succ n ih =>
    rw [allTuples, List.pairwise_flatMap]
    constructor
    · intro a _
      rw [List.pairwise_map]
      exact ih.imp fun hlt => List.Lex.cons hlt
    · apply h.imp
      intro a b hlt xs hxs ys hys
      obtain ⟨xs', -, rfl⟩ := List.mem_map.mp hxs
      obtain ⟨ys', -, rfl⟩ := List.mem_map.mp hys
      exact List.Lex.rel hlt

private theorem tuples_eq_indices (pool : List α) (n limit : Nat) :
    (tuples pool n limit).map (List.map some) =
      ((allTuples (List.range pool.length) n).take limit).map (List.map (pool[·]?)) := by
  rw [tuples_eq_take, List.map_take, List.map_take, ← allTuples_map, ← allTuples_map,
    range_map_getElem?]

private theorem positions_of_getElem? {pool : List α} {n limit k : Nat} {t : List α}
    (h : (tuples pool n limit)[k]? = some t) :
    t.map some = (positions pool.length n k).map (pool[·]?) := by
  have hk : k < limit ∧ k < pool.length ^ n := by
    have hlt := (List.getElem?_eq_some_iff.mp h).1
    rwa [tuples_eq_take, List.length_take, length_allTuples, Nat.lt_min] at hlt
  have hposition := congrArg (·[k]?) (tuples_eq_indices pool n limit)
  simpa [h, allTuples_range, hk] using hposition

private theorem getElem?_of_positions {pool : List α} {n k : Nat} {t : List α}
    (h : t.map some = (positions pool.length n k).map (pool[·]?)) :
    t.length = n ∧ ∀ j < n, t[j]? = pool[k / pool.length ^ (n - 1 - j) % pool.length]? := by
  constructor
  · simpa [positions] using congrArg List.length h
  · intro j hj
    have hentry := congrArg (·[j]?) h
    simp only [positions, List.getElem?_map, List.getElem?_range hj, Option.map_some] at hentry
    obtain ⟨v, hv, heq⟩ := Option.map_eq_some_iff.mp hentry
    rw [hv, heq]

end Tuples

namespace Env

variable {names : List String} {values : List Value}

private theorem names_ofBindings_perm (hnames : names.Nodup) (hlen : names.length = values.length) :
    (ofBindings (names.zip values)).names.Perm names := by
  have hbound : Ascending.Bindings True (fun _ => True) (ofBindings (names.zip values)) :=
    Ascending.Bindings.nil.putAll fun _ _ => trivial
  have hnodup : (ofBindings (names.zip values)).names.Nodup := hbound.nodup_keys
  rw [List.perm_ext_iff_of_nodup hnodup hnames]
  intro x
  rw [ofBindings, mem_names_extend hlen]
  simp [Env.names, Ascending.keys]

private theorem get?_ofBindings (hnames : names.Nodup) (hlen : names.length = values.length)
    {j : Nat} {x : String} (hx : names[j]? = some x) :
    (ofBindings (names.zip values)).get? x = values[j]? := by
  have hkeys : (Ascending.keys (names.zip values)).Nodup := by
    rwa [Ascending.keys, List.map_fst_zip (Nat.le_of_eq hlen)]
  obtain ⟨hj, rfl⟩ := List.getElem?_eq_some_iff.mp hx
  have hv : j < values.length := hlen ▸ hj
  have hmem : (names[j], values[j]) ∈ names.zip values := by
    refine List.mem_iff_getElem?.mpr ⟨j, List.getElem?_zip_eq_some.mpr ?_⟩
    exact ⟨List.getElem?_eq_getElem hj, List.getElem?_eq_getElem hv⟩
  have hget := Ascending.get?_of_mem hkeys hmem
  rw [get?, ofBindings, extend, Ascending.get?_putAll hkeys, hget, List.getElem?_eq_getElem hv]
  rfl

end Env

/-- What is drawn under a limit is the first part of the full product. There are as many tuples as
the limit and the product allow, and the positions of the `k`-th one in the pool are the digits of
`k`. So all lists of positions of that length stand in strictly ascending lexicographic order, and
of these the first ones are drawn. Under distinct names each tuple makes one environment, in the
same order, which binds exactly those names, each to its entry of the tuple. -/
theorem tuples_enumerate_product (pool : List Value) (n limit : Nat) :
    (tuples pool n limit).length = min limit (pool.length ^ n) ∧
    (∀ k t, (tuples pool n limit)[k]? = some t → t.length = n ∧
      ∀ j < n, t[j]? = pool[k / pool.length ^ (n - 1 - j) % pool.length]?) ∧
    (∃ indices : List (List Nat),
      (tuples pool n limit).map (List.map some) =
        (indices.take limit).map (List.map (pool[·]?)) ∧
      indices.Pairwise (· < ·) ∧
      ∀ is, is ∈ indices ↔ is.length = n ∧ ∀ i ∈ is, i < pool.length) ∧
    ∀ names : List String, names.Nodup → names.length = n →
      List.Forall₂ (fun t env => env.names.Perm names ∧
          ∀ (j : Nat) (x : String), names[j]? = some x → env.get? x = t[j]?)
        (tuples pool n limit) (environments names pool limit) := by
  refine ⟨?_, ?_, ?_, ?_⟩
  · rw [tuples_eq_take, List.length_take, length_allTuples]
  · intro k t h
    exact getElem?_of_positions (positions_of_getElem? h)
  · have hrange : (List.range pool.length).Pairwise (· < ·) := List.pairwise_lt_range
    refine ⟨_, tuples_eq_indices pool n limit, pairwise_allTuples hrange n, ?_⟩
    intro is
    simp only [mem_allTuples, List.mem_range]
  · intro names hnames hlen
    subst hlen
    rw [environments, List.forall₂_map_right_iff, List.forall₂_same]
    intro t ht
    have htlen : names.length = t.length := (of_mem_tuples ht).1.symm
    constructor
    · exact Env.names_ofBindings_perm hnames htlen
    · intro j x hx
      exact Env.get?_ofBindings hnames htlen hx

/-- Three values, two names: the fourth tuple is the first one that carries. It stands last under
the limit, and the name that comes first takes the more significant entry, though it is bound
behind the other. -/
theorem tuples_enumerate_product_carry :
    let pool : List Value := [.unit, .int 3, .bool true]
    let names := ["y", "x"]
    let env : Env := [("x", .unit), ("y", .int 3)]
    names.Nodup ∧ (tuples pool 2 4).length = 4 ∧
      (tuples pool 2 4)[3]? = some [.int 3, .unit] ∧
      pool[3 / 3 ^ (2 - 1 - 0) % 3]? = some (.int 3) ∧
      pool[3 / 3 ^ (2 - 1 - 1) % 3]? = some .unit ∧
      (environments names pool 4)[3]? = some env ∧ env.names.Perm names ∧
      env.get? "y" = some (.int 3) := by
  intro pool names env
  have hnames : names.Nodup := by decide
  have hfourth : (tuples pool 2 4)[3]? = some [.int 3, .unit] := by decide
  have henv : (environments names pool 4)[3]? = some env := by decide
  obtain ⟨hlen, hentries, -, henvs⟩ := tuples_enumerate_product pool 2 4
  have hentry := (hentries 3 _ hfourth).2
  have hwithin : 3 < (tuples pool 2 4).length := hlen ▸ (by decide)
  have hwithin' : 3 < (environments names pool 4).length := by decide
  obtain ⟨hperm, hbound⟩ := (henvs names hnames rfl).get hwithin hwithin'
  exact ⟨hnames, hlen, hfourth, (hentry 0 (by decide)).symm, (hentry 1 (by decide)).symm, henv,
    hperm, hbound 0 "y" rfl⟩

end CheckedPass
