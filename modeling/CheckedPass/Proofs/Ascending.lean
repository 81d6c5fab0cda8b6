import CheckedPass.Ascending
import CheckedPass.Env
import Mathlib.Data.List.Perm.Subperm
/-!
# Ascending lists stay ascending

Placing an element or a binding keeps a list ascending, and so does leaving some out. What is in a
list afterwards was in it before, or has been placed. So what an extended environment binds it bound
before, or has been bound anew. An ascending list is determined by its elements, and one of bindings
by what its keys are bound to.
-/

namespace CheckedPass.Ascending

variable {α β : Type}

section Order

variable [Ord α]

theorem isAscending_iff_pairwise [Std.TransOrd α] {xs : List α} :
    isAscending xs = true ↔ xs.Pairwise fun a b => compare a b = .lt := by
  induction xs with
  | nil => simp [isAscending]
  | cons a xs ih =>
    cases xs with
    | nil => simp [isAscending]
    | cons b rest =>
      rw [isAscending, Bool.and_eq_true, Ordering.isLT_iff_eq_lt, ih]
      constructor
      · intro h
        obtain ⟨hab, hrest⟩ := h
        have hb := (List.pairwise_cons.mp hrest).1
        refine .cons (List.forall_mem_cons.mpr ⟨hab, ?_⟩) hrest
        exact fun c hc => Std.TransCmp.lt_trans hab (hb c hc)
      · intro h
        obtain ⟨ha, hrest⟩ := List.pairwise_cons.mp h
        exact ⟨ha b List.mem_cons_self, hrest⟩

theorem isAscending_of_sublist [Std.TransOrd α] {xs ys : List α} (h : xs.Sublist ys)
    (hys : isAscending ys = true) : isAscending xs = true := by
  rw [isAscending_iff_pairwise] at *
  exact hys.sublist h

theorem nodup_of_isAscending [Std.TransOrd α] {xs : List α} (h : isAscending xs = true) :
    xs.Nodup := by
  rw [isAscending_iff_pairwise] at h
  refine h.imp fun hab heq => ?_
  subst heq
  rw [Std.ReflOrd.compare_self] at hab
  cases hab

private theorem eq_of_perm [Std.TransOrd α] {xs ys : List α} (hxs : isAscending xs = true)
    (hys : isAscending ys = true) (h : xs.Perm ys) : xs = ys := by
  rw [isAscending_iff_pairwise] at hxs hys
  refine h.eq_of_pairwise (fun a b _ _ hab hba => ?_) hxs hys
  rw [Std.OrientedCmp.gt_of_lt hab] at hba
  cases hba

theorem eq_of_mem_iff [Std.TransOrd α] {xs ys : List α} (hxs : isAscending xs = true)
    (hys : isAscending ys = true) (h : ∀ a, a ∈ xs ↔ a ∈ ys) : xs = ys := by
  have hperm := (List.perm_ext_iff_of_nodup (nodup_of_isAscending hxs)
    (nodup_of_isAscending hys)).mpr h
  exact eq_of_perm hxs hys hperm

theorem eq_of_subset_of_length [Std.TransOrd α] {xs ys : List α} (hxs : isAscending xs = true)
    (hys : isAscending ys = true) (h : ∀ a ∈ xs, a ∈ ys) (hlen : xs.length = ys.length) :
    xs = ys := by
  -- By counting: an ascending list within another of the same length is the whole of it.
  have hsub := List.subperm_of_subset (nodup_of_isAscending hxs) h
  exact eq_of_perm hxs hys (hsub.perm_of_length_le (Nat.le_of_eq hlen.symm))

theorem isAscending_insert [Std.TransOrd α] [Std.LawfulEqOrd α] {xs : List α} (a : α)
    (h : isAscending xs = true) : isAscending (insert a xs) = true := by
  rw [isAscending_iff_pairwise] at *
  induction h with
  | nil => simp [insert]
  | @cons b rest hb hrest ih =>
    simp only [insert]
    split
    · rename_i hab
      refine .cons (List.forall_mem_cons.mpr ⟨hab, ?_⟩) (.cons hb hrest)
      exact fun c hc => Std.TransCmp.lt_trans hab (hb c hc)
    · rename_i hab
      obtain rfl := Std.LawfulEqOrd.eq_of_compare hab
      exact .cons hb hrest
    · rename_i hab
      refine .cons (fun c hc => ?_) ih
      rcases (mem_insert a c rest).mp hc with rfl | hc
      · exact Std.OrientedCmp.lt_of_gt hab
      · exact hb c hc

theorem mem_union [Std.LawfulEqOrd α] (xs ys : List α) (a : α) :
    a ∈ union xs ys ↔ a ∈ xs ∨ a ∈ ys := by
  induction ys generalizing xs with
  | nil => simp [union]
  | cons y ys ih =>
    have hstep : union xs (y :: ys) = union (insert y xs) ys := rfl
    rw [hstep, ih, mem_insert, List.mem_cons]
    constructor
    · rintro ((h | h) | h) <;> simp [h]
    · rintro (h | h | h) <;> simp [h]

theorem isAscending_union [Std.TransOrd α] [Std.LawfulEqOrd α] {xs : List α}
    (h : isAscending xs = true) (ys : List α) : isAscending (union xs ys) = true := by
  induction ys generalizing xs with
  | nil => exact h
  | cons y ys ih => exact ih (isAscending_insert y h)

theorem mem_ofList [Std.LawfulEqOrd α] {xs : List α} {a : α} : a ∈ ofList xs ↔ a ∈ xs := by
  simp [ofList, mem_union]

private theorem isAscending_ofList [Std.TransOrd α] [Std.LawfulEqOrd α] (xs : List α) :
    isAscending (ofList xs) = true :=
  isAscending_union rfl xs

theorem ofList_eq_of_perm [Std.TransOrd α] [Std.LawfulEqOrd α] {xs ys : List α}
    (h : xs.Perm ys) : ofList xs = ofList ys := by
  refine eq_of_mem_iff (isAscending_ofList xs) (isAscending_ofList ys) fun a => ?_
  rw [mem_ofList, mem_ofList, h.mem_iff]

theorem ofList_perm [Std.TransOrd α] [Std.LawfulEqOrd α] {xs : List α} (h : xs.Nodup) :
    (ofList xs).Perm xs := by
  rw [List.perm_ext_iff_of_nodup (nodup_of_isAscending (isAscending_ofList xs)) h]
  exact fun a => mem_ofList

theorem union_comm [Std.TransOrd α] [Std.LawfulEqOrd α] {xs ys : List α}
    (hxs : isAscending xs = true) (hys : isAscending ys = true) : union xs ys = union ys xs := by
  refine eq_of_mem_iff (isAscending_union hxs ys) (isAscending_union hys xs) fun a => ?_
  rw [mem_union, mem_union, or_comm]

theorem length_union [Std.TransOrd α] [Std.LawfulEqOrd α] [DecidableEq α] {xs ys : List α}
    (hxs : isAscending xs = true) (hys : isAscending ys = true) :
    (union xs ys).length = (xs.filter fun x => x ∉ ys).length + ys.length := by
  -- By counting: what `union` places is what is new among the elements, and no element twice.
  have hunion : (union xs ys).Nodup := nodup_of_isAscending (isAscending_union hxs ys)
  have hparts : ((xs.filter fun x => x ∉ ys) ++ ys).Nodup := by
    rw [List.nodup_append]
    refine ⟨(nodup_of_isAscending hxs).filter _, nodup_of_isAscending hys, ?_⟩
    intro x hx y hy heq
    simp_all
  have hperm : (union xs ys).Perm ((xs.filter fun x => x ∉ ys) ++ ys) := by
    rw [List.perm_ext_iff_of_nodup hunion hparts]
    intro x
    by_cases hx : x ∈ ys <;> simp [mem_union, hx]
  rw [hperm.length_eq, List.length_append]

theorem not_mem_of_lt [Std.TransOrd α] {k j : α} {ks : List α}
    (h : isAscending (j :: ks) = true) (hk : compare k j = .lt) : k ∉ j :: ks := by
  have hbelow := (List.pairwise_cons.mp (isAscending_iff_pairwise.mp h)).1
  intro hmem
  have hlt : compare k k = .lt := by
    rcases List.mem_cons.mp hmem with rfl | hmem
    · exact hk
    · exact Std.TransCmp.lt_trans hk (hbelow k hmem)
  rw [Std.ReflOrd.compare_self] at hlt
  cases hlt

theorem keys_put (k : α) (v : β) (entries : List (α × β)) :
    keys (put k v entries) = insert k (keys entries) := by
  induction entries with
  | nil => rfl
  | cons p rest ih =>
    simp only [put, keys, List.map_cons, insert]
    split <;> simp_all [keys]

theorem keys_putAll (entries updates : List (α × β)) :
    keys (putAll entries updates) = union (keys entries) (keys updates) := by
  induction updates generalizing entries with
  | nil => rfl
  | cons p updates ih =>
    have hstep : putAll entries (p :: updates) = putAll (put p.1 p.2 entries) updates := rfl
    have hkeys : keys (p :: updates) = p.1 :: keys updates := rfl
    rw [hstep, ih, keys_put, hkeys]
    rfl

theorem isAscending_keys_putAll [Std.TransOrd α] [Std.LawfulEqOrd α] {entries : List (α × β)}
    (h : isAscending (keys entries) = true) (updates : List (α × β)) :
    isAscending (keys (putAll entries updates)) = true := by
  rw [keys_putAll]
  exact isAscending_union h _

private theorem mem_keys_putAll [Std.LawfulEqOrd α] {entries updates : List (α × β)} {k : α} :
    k ∈ keys (putAll entries updates) ↔ k ∈ keys updates ∨ k ∈ keys entries := by
  rw [keys_putAll, mem_union, or_comm]

private theorem mem_put {k : α} {v : β} {entries : List (α × β)} {p : α × β}
    (h : p ∈ put k v entries) : p = (k, v) ∨ p ∈ entries := by
  induction entries with
  | nil => simpa [put] using h
  | cons q rest ih =>
    simp only [put] at h
    split at h <;> grind

private theorem mem_putAll {entries updates : List (α × β)} {p : α × β}
    (h : p ∈ putAll entries updates) : p ∈ updates ∨ p ∈ entries := by
  induction updates generalizing entries with
  | nil => exact .inr h
  | cons q updates ih =>
    rcases ih h with hp | hp
    · exact .inl (List.mem_cons_of_mem _ hp)
    · rcases mem_put hp with rfl | hp
      · exact .inl List.mem_cons_self
      · exact .inr hp

/-- The keys ascend, should `O` hold, and `P` holds of every binding. -/
structure Bindings (O : Prop) (P : α × β → Prop) (entries : List (α × β)) : Prop where
  ascending : O → isAscending (keys entries) = true
  all : ∀ p ∈ entries, P p

namespace Bindings

variable {O : Prop} {P : α × β → Prop} {entries : List (α × β)}

theorem nil : Bindings O P ([] : List (α × β)) := ⟨fun _ => rfl, by simp⟩

theorem of_mem_keys (h : Bindings O P entries) {k : α} (hk : k ∈ keys entries) : ∃ v, P (k, v) := by
  obtain ⟨p, hp, rfl⟩ := List.mem_map.mp hk
  exact ⟨p.2, h.all p hp⟩

variable [Std.TransOrd α]

theorem nodup_keys (h : Bindings True P entries) : (keys entries).Nodup :=
  nodup_of_isAscending (h.ascending trivial)

theorem put [Std.LawfulEqOrd α] (h : Bindings O P entries) {k : α} {v : β} (hp : P (k, v)) :
    Bindings O P (put k v entries) where
  ascending hO := by
    rw [keys_put]
    exact isAscending_insert k (h.ascending hO)
  all p hmem := by
    rcases mem_put hmem with rfl | hmem
    · exact hp
    · exact h.all p hmem

theorem putAll [Std.LawfulEqOrd α] (h : Bindings O P entries) {updates : List (α × β)}
    (hu : ∀ p ∈ updates, P p) : Bindings O P (putAll entries updates) := by
  induction updates generalizing entries with
  | nil => exact h
  | cons p updates ih =>
    obtain ⟨hp, hrest⟩ := List.forall_mem_cons.mp hu
    exact ih (h.put hp) hrest

theorem filterMap (h : Bindings O P entries) {f : α × β → Option (α × β)}
    (hf : ∀ p ∈ entries, ∀ q, f p = some q → q.1 = p.1 ∧ P q) :
    Bindings O P (entries.filterMap f) where
  ascending hO := by
    refine isAscending_of_sublist ?_ (h.ascending hO)
    clear h
    induction entries with
    | nil => exact .slnil
    | cons p rest ih =>
      obtain ⟨hp, hrest⟩ := List.forall_mem_cons.mp hf
      cases hq : f p with
      | none =>
        rw [List.filterMap_cons_none hq]
        exact (ih hrest).cons _
      | some q =>
        rw [List.filterMap_cons_some hq]
        simp only [keys, List.map_cons, (hp q hq).1]
        exact (ih hrest).cons_cons _
  all q hmem := by
    obtain ⟨p, hp, hq⟩ := List.mem_filterMap.mp hmem
    exact (hf p hp q hq).2

theorem filter (h : Bindings O P entries) (p : α × β → Bool) : Bindings O P (entries.filter p) where
  ascending hO := isAscending_of_sublist (List.filter_sublist.map Prod.fst) (h.ascending hO)
  all q hmem := h.all q (List.mem_of_mem_filter hmem)

end Bindings

end Order

theorem mem_of_get? [DecidableEq α] {k : α} {v : β} {entries : List (α × β)}
    (h : get? k entries = some v) : (k, v) ∈ entries := by
  induction entries with
  | nil => simp [get?] at h
  | cons p rest ih =>
    by_cases hk : k = p.1
    · simp only [get?, hk, if_true, Option.some.injEq] at h
      simp [hk, ← h]
    · simp only [get?, hk, if_false] at h
      exact List.mem_cons_of_mem _ (ih h)

theorem get?_of_mem [DecidableEq α] {entries : List (α × β)} (hkeys : (keys entries).Nodup)
    {p : α × β} (hp : p ∈ entries) : get? p.1 entries = some p.2 := by
  induction entries with
  | nil => cases hp
  | cons q rest ih =>
    obtain ⟨hq, hrest⟩ := List.nodup_cons.mp hkeys
    rcases List.mem_cons.mp hp with rfl | hp
    · simp [get?]
    · have hne : p.1 ≠ q.1 := fun heq => hq (heq ▸ List.mem_map_of_mem hp)
      simp only [get?, hne, if_false]
      exact ih hrest hp

theorem get?_isSome_iff [DecidableEq α] {k : α} {entries : List (α × β)} :
    (get? k entries).isSome = true ↔ k ∈ keys entries := by
  induction entries with
  | nil => simp [get?, keys]
  | cons p rest ih =>
    by_cases hk : k = p.1
    · simp [get?, keys, hk]
    · simpa [get?, keys, hk] using ih

theorem get?_eq_none_iff [DecidableEq α] {k : α} {entries : List (α × β)} :
    get? k entries = none ↔ k ∉ keys entries := by
  rw [← get?_isSome_iff, ← Option.isNone_iff_eq_none]
  simp

/-- Updates that bind each key once hide what was bound before, and only that. -/
theorem get?_putAll [Ord α] [Std.LawfulEqOrd α] [DecidableEq α] {updates : List (α × β)}
    (h : (keys updates).Nodup) (k : α) (entries : List (α × β)) :
    get? k (putAll entries updates) = (get? k updates).or (get? k entries) := by
  induction updates generalizing entries with
  | nil => rfl
  | cons p updates ih =>
    obtain ⟨j, w⟩ := p
    obtain ⟨hj, hrest⟩ := List.nodup_cons.mp h
    have hstep : putAll entries ((j, w) :: updates) = putAll (put j w entries) updates := rfl
    rw [hstep, ih hrest, get?_put]
    by_cases hk : k = j
    · subst hk
      have hnone : get? k updates = none := get?_eq_none_iff.mpr hj
      simp [get?, hnone]
    · simp [get?, hk]

theorem get?_filter [DecidableEq α] (p : α → Bool) (k : α) (entries : List (α × β)) :
    get? k (entries.filter fun e => p e.1) = if p k then get? k entries else none := by
  induction entries with
  | nil => simp [get?]
  | cons e rest ih =>
    obtain ⟨j, w⟩ := e
    by_cases hk : k = j
    · subst hk
      by_cases hp : p k <;> simp [get?, hp, ih]
    · by_cases hp : p j <;> simp [get?, hp, hk, ih]

theorem get?_filterMap [DecidableEq α] {entries : List (α × β)} (hkeys : (keys entries).Nodup)
    {f : α × β → Option (α × β)} (hf : ∀ p q, f p = some q → q.1 = p.1) (k : α) :
    get? k (entries.filterMap f) = (get? k entries).bind fun v => (f (k, v)).map Prod.snd := by
  induction entries with
  | nil => rfl
  | cons p rest ih =>
    obtain ⟨j, w⟩ := p
    obtain ⟨hj, hrest⟩ := List.nodup_cons.mp hkeys
    have ih := ih hrest
    by_cases hk : k = j
    · subst hk
      have hnone : get? k rest = none := get?_eq_none_iff.mpr hj
      cases hq : f (k, w) with
      | none => simp [List.filterMap_cons_none hq, ih, hnone, get?, hq]
      | some q => simp [List.filterMap_cons_some hq, get?, hf _ _ hq, hq]
    · cases hq : f (j, w) with
      | none => simp [List.filterMap_cons_none hq, ih, get?, hk]
      | some q =>
        have hkey : q.1 = j := hf _ _ hq
        simp [List.filterMap_cons_some hq, ih, get?, hk, hkey]

/-- What its keys are bound to determines a list with ascending keys. -/
theorem eq_of_get? [Ord α] [Std.TransOrd α] [DecidableEq α] {xs ys : List (α × β)}
    (hxs : isAscending (keys xs) = true) (hys : isAscending (keys ys) = true)
    (h : ∀ k, get? k xs = get? k ys) : xs = ys := by
  have hkeys := nodup_of_isAscending hxs
  have hkeys' := nodup_of_isAscending hys
  have hmem : ∀ p, p ∈ xs ↔ p ∈ ys := by
    intro p
    constructor
    · intro hp
      exact mem_of_get? ((h p.1).symm.trans (get?_of_mem hkeys hp))
    · intro hp
      exact mem_of_get? ((h p.1).trans (get?_of_mem hkeys' hp))
  have hnodup : ∀ {zs : List (α × β)}, (keys zs).Nodup → zs.Nodup := fun hzs =>
    List.Pairwise.of_map Prod.fst (fun _ _ hne heq => hne (congrArg Prod.fst heq)) hzs
  have hperm : xs.Perm ys :=
    (List.perm_ext_iff_of_nodup (hnodup hkeys) (hnodup hkeys')).mpr hmem
  have hbelow : xs.Pairwise fun p q => compare p.1 q.1 = .lt :=
    List.pairwise_map.mp (isAscending_iff_pairwise.mp hxs)
  have hbelow' : ys.Pairwise fun p q => compare p.1 q.1 = .lt :=
    List.pairwise_map.mp (isAscending_iff_pairwise.mp hys)
  refine hperm.eq_of_pairwise (fun p q _ _ hpq hqp => ?_) hbelow hbelow'
  rw [Std.OrientedCmp.gt_of_lt hpq] at hqp
  cases hqp

section Merge

variable [Ord α] [Std.TransOrd α] [Std.LawfulEqOrd α] [DecidableEq α] {xs ys zs : List (α × β)}

theorem putAll_assoc (hxs : isAscending (keys xs) = true) (hys : isAscending (keys ys) = true)
    (hzs : isAscending (keys zs) = true) :
    putAll (putAll xs ys) zs = putAll xs (putAll ys zs) := by
  have hyzs := isAscending_keys_putAll hys zs
  have hleft := isAscending_keys_putAll (isAscending_keys_putAll hxs ys) zs
  have hright := isAscending_keys_putAll hxs (putAll ys zs)
  apply eq_of_get? hleft hright
  intro k
  rw [get?_putAll (nodup_of_isAscending hzs), get?_putAll (nodup_of_isAscending hys),
    get?_putAll (nodup_of_isAscending hyzs), get?_putAll (nodup_of_isAscending hzs),
    Option.or_assoc]

theorem putAll_nil_left (hxs : isAscending (keys xs) = true) : putAll [] xs = xs := by
  apply eq_of_get? (isAscending_keys_putAll rfl xs) hxs
  intro k
  rw [get?_putAll (nodup_of_isAscending hxs)]
  exact Option.or_none

theorem length_putAll (hxs : isAscending (keys xs) = true) (hys : isAscending (keys ys) = true) :
    (putAll xs ys).length = ys.length + (xs.filter fun p => p.1 ∉ keys ys).length := by
  have hunion := length_union hxs hys
  rw [← keys_putAll] at hunion
  simp only [keys, List.length_map, List.filter_map] at hunion
  rw [hunion, Nat.add_comm]
  rfl

end Merge

end CheckedPass.Ascending

namespace CheckedPass.Env

variable {env : Env} {names : List String} {vs : List Value}

theorem mem_names_extend (hlen : names.length = vs.length) {x : String} :
    x ∈ (env.extend (names.zip vs)).names ↔ x ∈ names ∨ x ∈ env.names := by
  have hzip : Ascending.keys (names.zip vs) = names := List.map_fst_zip (Nat.le_of_eq hlen)
  rw [Env.names, Env.extend, Ascending.mem_keys_putAll, hzip, Env.names]

theorem mem_extend {p : String × Value} (h : p ∈ env.extend (names.zip vs)) :
    p.2 ∈ vs ∨ p ∈ env := by
  rcases Ascending.mem_putAll h with hp | hp
  · exact .inl (List.of_mem_zip hp).2
  · exact .inr hp

theorem forall_mem_extend {P : Value → Prop} (henv : ∀ p ∈ env, P p.2) (hvs : ∀ v ∈ vs, P v) :
    ∀ p ∈ env.extend (names.zip vs), P p.2 := by
  intro p hp
  rcases mem_extend hp with hp | hp
  · exact hvs p.2 hp
  · exact henv p hp

end CheckedPass.Env
