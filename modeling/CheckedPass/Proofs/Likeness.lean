import CheckedPass.Eval.Operand
import CheckedPass.Proofs.Together
import Mathlib.Data.List.Forall2
/-!
# Likenesses of values

A structural relation of values goes part by part through sequences and maps and is equality on all
other values but functions. When it holds of two functions is left open, so that one theory serves
every way of comparing functions. Values without functions are related only if they are equal. A
likeness holds of every value and itself besides.
-/

namespace CheckedPass

/-- Entries of one key, with values related by `S`. -/
inductive SameKey {α β : Type} (S : β → β → Prop) : α × β → α × β → Prop where
  | mk (k : α) {v w : β} (h : S v w) : SameKey S (k, v) (k, w)

theorem SameKey.iff {α β : Type} {S : β → β → Prop} {p q : α × β} :
    SameKey S p q ↔ p.1 = q.1 ∧ S p.2 q.2 := by
  obtain ⟨k, v⟩ := p
  obtain ⟨j, w⟩ := q
  constructor
  · rintro ⟨k, h⟩
    exact ⟨rfl, h⟩
  · rintro ⟨rfl, h⟩
    exact .mk k h

theorem SameKey.key_eq {α β : Type} {S : β → β → Prop} {p q : α × β} (h : SameKey S p q) :
    p.1 = q.1 :=
  (iff.mp h).1

theorem SameKey.imp {α β : Type} {S T : β → β → Prop} (hT : ∀ v w, S v w → T v w) {p q : α × β}
    (h : SameKey S p q) : SameKey T p q := by
  cases h with
  | mk k h => exact .mk k (hT _ _ h)

private theorem SameKey.flip_eq {α β : Type} {S : β → β → Prop} :
    flip (SameKey S : α × β → α × β → Prop) = SameKey (flip S) := by
  funext p q
  rw [flip, eq_iff_iff, SameKey.iff, SameKey.iff, flip, eq_comm]

namespace Ascending

variable {α β : Type} {S : β → β → Prop} {xs ys : List (α × β)}

theorem get?_like [DecidableEq α] (k : α) (h : List.Forall₂ (SameKey S) xs ys) :
    Option.Rel S (get? k xs) (get? k ys) := by
  induction h with
  | nil => exact .none
  | cons hpq _ ih =>
    cases hpq with
    | mk j hvw =>
      by_cases hk : k = j
      · simpa [get?, hk] using Option.Rel.some hvw
      · simpa [get?, hk] using ih

theorem put_like [Ord α] (k : α) {v w : β} (hvw : S v w) (h : List.Forall₂ (SameKey S) xs ys) :
    List.Forall₂ (SameKey S) (put k v xs) (put k w ys) := by
  induction h with
  | nil => exact .cons (.mk k hvw) .nil
  | cons hpq hrest ih =>
    cases hpq with
    | mk j h =>
      simp only [put]
      split
      · exact .cons (.mk k hvw) (.cons (.mk j h) hrest)
      · exact .cons (.mk k hvw) hrest
      · exact .cons (.mk j h) ih

theorem putAll_like [Ord α] {us vs : List (α × β)} (h : List.Forall₂ (SameKey S) xs ys)
    (hu : List.Forall₂ (SameKey S) us vs) :
    List.Forall₂ (SameKey S) (putAll xs us) (putAll ys vs) := by
  induction hu generalizing xs ys with
  | nil => exact h
  | cons hpq _ ih =>
    cases hpq with
    | mk k hvw => exact ih (put_like k hvw h)

end Ascending

theorem zip_like {α β : Type} {S : β → β → Prop} {vs ws : List β} (names : List α)
    (h : List.Forall₂ S vs ws) : List.Forall₂ (SameKey S) (names.zip vs) (names.zip ws) := by
  induction h generalizing names with
  | nil => simp
  | cons hvw _ ih =>
    cases names with
    | nil => exact .nil
    | cons x names => exact .cons (.mk x hvw) (ih names)

/-- The kinds of values that no likeness looks into. -/
def Kind.isFlat : Kind → Bool
  | .seq | .map | .closure => false
  | _ => true

namespace Value

/-- The values inside a value: elements, keys, and what a function has captured. -/
def parts : Value → List Value
  | .seq elems => elems
  | .set elems => elems
  | .multiset counts => counts.map Prod.fst
  | .map entries => entries.map Prod.fst ++ entries.map Prod.snd
  | .closure env _ _ => env.map Prod.snd
  | _ => []

theorem mem_parts_map {entries : List (Value × Value)} {p : Value × Value} (hp : p ∈ entries) :
    p.2 ∈ (Value.map entries).parts :=
  List.mem_append_right _ (List.mem_map_of_mem hp)

section Induction

variable {motive : Value → Prop}

mutual

private theorem of_parts (step : ∀ v, (∀ u ∈ v.parts, motive u) → motive v) :
    (v : Value) → motive v
  | .unit => step _ (by simp [parts])
  | .bool _ => step _ (by simp [parts])
  | .char _ => step _ (by simp [parts])
  | .int _ => step _ (by simp [parts])
  | .real _ => step _ (by simp [parts])
  | .ordinal _ => step _ (by simp [parts])
  | .bitVector _ _ => step _ (by simp [parts])
  | .seq elems => step _ (of_parts_list step elems)
  | .set elems => step _ (of_parts_list step elems)
  | .multiset counts => step _ (List.forall_mem_map.mpr (of_parts_counts step counts))
  | .map entries => step _ (List.forall_mem_append.mpr
      ⟨List.forall_mem_map.mpr fun p hp => (of_parts_entries step entries p hp).1,
        List.forall_mem_map.mpr fun p hp => (of_parts_entries step entries p hp).2⟩)
  | .closure env _ _ => step _ (List.forall_mem_map.mpr (of_parts_env step env))

private theorem of_parts_list (step : ∀ v, (∀ u ∈ v.parts, motive u) → motive v) :
    (vs : List Value) → ∀ v ∈ vs, motive v
  | [] => List.forall_mem_nil _
  | v :: vs => List.forall_mem_cons.mpr ⟨of_parts step v, of_parts_list step vs⟩

private theorem of_parts_counts (step : ∀ v, (∀ u ∈ v.parts, motive u) → motive v) :
    (counts : List (Value × Nat)) → ∀ p ∈ counts, motive p.1
  | [] => List.forall_mem_nil _
  | (v, _) :: counts => List.forall_mem_cons.mpr ⟨of_parts step v, of_parts_counts step counts⟩

private theorem of_parts_entries (step : ∀ v, (∀ u ∈ v.parts, motive u) → motive v) :
    (entries : List (Value × Value)) → ∀ p ∈ entries, motive p.1 ∧ motive p.2
  | [] => List.forall_mem_nil _
  | (k, v) :: entries =>
    List.forall_mem_cons.mpr ⟨⟨of_parts step k, of_parts step v⟩, of_parts_entries step entries⟩

private theorem of_parts_env (step : ∀ v, (∀ u ∈ v.parts, motive u) → motive v) :
    (env : List (String × Value)) → ∀ p ∈ env, motive p.2
  | [] => List.forall_mem_nil _
  | (_, v) :: env => List.forall_mem_cons.mpr ⟨of_parts step v, of_parts_env step env⟩

end

/-- What every value has once the values inside it have it, every value has. -/
@[elab_as_elim]
theorem parts_induction (step : ∀ v, (∀ u ∈ v.parts, motive u) → motive v) (v : Value) :
    motive v :=
  of_parts step v

end Induction

end Value

/-- Related in kind, part by part in sequences and maps, and by equality in all else but
functions. -/
structure Structural (S : Value → Value → Prop) : Prop where
  kind_eq : ∀ {v w}, S v w → v.kind = w.kind
  flat : ∀ {v w}, S v w → v.kind.isFlat = true → v = w
  flat_refl : ∀ {v}, v.kind.isFlat = true → S v v
  seq : ∀ {xs ys}, S (.seq xs) (.seq ys) ↔ List.Forall₂ S xs ys
  map : ∀ {xs ys}, S (.map xs) (.map ys) ↔ List.Forall₂ (SameKey S) xs ys

/-- A structural relation in which every value, functions included, stands to itself. -/
structure Likeness (S : Value → Value → Prop) : Prop extends Structural S where
  refl : ∀ v, S v v
  flat_refl := fun _ => refl _

theorem forall₂_of_mem {α β : Type} {R Q : α → β → Prop} {xs : List α} {ys : List β}
    (h : List.Forall₂ R xs ys) (hQ : ∀ x ∈ xs, ∀ y, R x y → Q x y) : List.Forall₂ Q xs ys :=
  ((List.forall₂_and_left xs ys).mpr ⟨hQ, h⟩).imp fun _ y hxy => hxy.1 y hxy.2

theorem forall₂_comp {α β γ : Type} {R : α → β → Prop} {Q : β → γ → Prop}
    {P : α → γ → Prop} {xs : List α} {ys : List β} {zs : List γ} (h : List.Forall₂ R xs ys)
    (h' : List.Forall₂ Q ys zs) (hP : ∀ x ∈ xs, ∀ y z, R x y → Q y z → P x z) :
    List.Forall₂ P xs zs := by
  induction h generalizing zs with
  | nil =>
    cases h'
    exact .nil
  | cons hxy _ ih =>
    cases h' with
    | cons hyz h' =>
      refine .cons (hP _ List.mem_cons_self _ _ hxy hyz) (ih h' ?_)
      exact fun x hx => hP x (List.mem_cons_of_mem _ hx)

namespace Structural

variable {S : Value → Value → Prop} {v w : Value}

theorem seq_left (hS : Structural S) {xs : List Value} (h : S (.seq xs) w) :
    ∃ ys, w = .seq ys ∧ List.Forall₂ S xs ys := by
  have hkind := hS.kind_eq h
  cases w with
  | seq ys => exact ⟨ys, rfl, hS.seq.mp h⟩
  | _ => cases hkind

theorem map_left (hS : Structural S) {xs : List (Value × Value)} (h : S (.map xs) w) :
    ∃ ys, w = .map ys ∧ List.Forall₂ (SameKey S) xs ys := by
  have hkind := hS.kind_eq h
  cases w with
  | map ys => exact ⟨ys, rfl, hS.map.mp h⟩
  | _ => cases hkind

theorem closure_left (hS : Structural S) {env : Env} {ps : List String} {b : Expr}
    (h : S (.closure env ps b) w) : ∃ env' ps' b', w = .closure env' ps' b' := by
  have hkind := hS.kind_eq h
  cases w with
  | closure env' ps' b' => exact ⟨env', ps', b', rfl⟩
  | _ => cases hkind

protected theorem flip (hS : Structural S) : Structural (flip S) where
  kind_eq h := (hS.kind_eq h).symm
  flat {v w} h hflat := (hS.flat h (hS.kind_eq h ▸ hflat)).symm
  flat_refl := hS.flat_refl
  seq {xs ys} := by
    rw [flip, hS.seq]
    exact ⟨fun h => List.Forall₂.flip h, fun h => List.Forall₂.flip h⟩
  map {xs ys} := by
    rw [flip, hS.map, ← SameKey.flip_eq]
    exact ⟨fun h => List.Forall₂.flip h, fun h => List.Forall₂.flip h⟩

/-- What looks into no sequence, map or function cannot tell alike values apart. -/
theorem congr {α : Type} (hS : Structural S) (h : S v w) (f : Value → α)
    (hseq : ∀ xs ys, f (.seq xs) = f (.seq ys)) (hmap : ∀ xs ys, f (.map xs) = f (.map ys))
    (hfn : ∀ env ps b env' ps' b', f (.closure env ps b) = f (.closure env' ps' b')) :
    f v = f w := by
  cases v with
  | seq xs =>
    obtain ⟨ys, rfl, -⟩ := hS.seq_left h
    exact hseq xs ys
  | map xs =>
    obtain ⟨ys, rfl, -⟩ := hS.map_left h
    exact hmap xs ys
  | closure env ps b =>
    obtain ⟨env', ps', b', rfl⟩ := hS.closure_left h
    exact hfn env ps b env' ps' b'
  | _ => exact congrArg f (hS.flat h rfl)

private theorem firstOrder_list {xs ys : List Value}
    (h : List.Forall₂ (fun x y => x.isFirstOrder = y.isFirstOrder ∧
      (x.isFirstOrder = true → x = y)) xs ys) :
    Value.isFirstOrderList xs = Value.isFirstOrderList ys ∧
      (Value.isFirstOrderList xs = true → xs = ys) := by
  induction h with
  | nil => exact ⟨rfl, fun _ => rfl⟩
  | cons hxy _ ih =>
    simp only [Value.isFirstOrderList, Bool.and_eq_true, hxy.1, ih.1, true_and]
    rintro ⟨hx, hxs⟩
    rw [hxy.2 (hxy.1 ▸ hx), ih.2 (ih.1 ▸ hxs)]

private theorem firstOrder_entries {xs ys : List (Value × Value)}
    (h : List.Forall₂ (SameKey fun x y => x.isFirstOrder = y.isFirstOrder ∧
      (x.isFirstOrder = true → x = y)) xs ys) :
    Value.isFirstOrderEntries xs = Value.isFirstOrderEntries ys ∧
      (Value.isFirstOrderEntries xs = true → xs = ys) := by
  induction h with
  | nil => exact ⟨rfl, fun _ => rfl⟩
  | cons hpq _ ih =>
    cases hpq with
    | mk k hxy =>
      simp only [Value.isFirstOrderEntries, Bool.and_eq_true, hxy.1, ih.1, true_and]
      rintro ⟨⟨hk, hx⟩, hxs⟩
      rw [hxy.2 (hxy.1 ▸ hx), ih.2 (ih.1 ▸ hxs)]

/-- Alike values can both be compared or both not, and if they can they are equal. -/
theorem firstOrder (hS : Structural S) (h : S v w) :
    v.isFirstOrder = w.isFirstOrder ∧ (v.isFirstOrder = true → v = w) := by
  induction v using Value.parts_induction generalizing w with
  | step v ih =>
    cases v with
    | seq xs =>
      obtain ⟨ys, rfl, hxy⟩ := hS.seq_left h
      have helems := firstOrder_list (forall₂_of_mem hxy fun x hx _ hxy => ih x hx hxy)
      exact ⟨helems.1, fun hx => congrArg Value.seq (helems.2 hx)⟩
    | map xs =>
      obtain ⟨ys, rfl, hxy⟩ := hS.map_left h
      have hentries := firstOrder_entries (forall₂_of_mem hxy fun _ hp _ ⟨k, hpq⟩ =>
        .mk k (ih _ (Value.mem_parts_map hp) hpq))
      exact ⟨hentries.1, fun hx => congrArg Value.map (hentries.2 hx)⟩
    | closure env ps b =>
      obtain ⟨env', ps', b', rfl⟩ := hS.closure_left h
      exact ⟨rfl, fun hfo => nomatch hfo⟩
    | _ =>
      obtain rfl := hS.flat h rfl
      exact ⟨rfl, fun _ => rfl⟩

/-- One structural relation after another is within a third, if it is on functions. -/
theorem comp {T U : Value → Value → Prop} (hS : Structural S) (hT : Structural T)
    (hU : Structural U) (hfn : ∀ f g h, f.kind = .closure → S f g → T g h → U f h) {u : Value}
    (huv : S u v) (hvw : T v w) : U u w := by
  induction u using Value.parts_induction generalizing v w with
  | step u ih =>
    cases u with
    | seq xs =>
      obtain ⟨ys, rfl, hxy⟩ := hS.seq_left huv
      obtain ⟨zs, rfl, hyz⟩ := hT.seq_left hvw
      exact hU.seq.mpr (forall₂_comp hxy hyz fun x hx y z hxy hyz => ih x hx hxy hyz)
    | map xs =>
      obtain ⟨ys, rfl, hxy⟩ := hS.map_left huv
      obtain ⟨zs, rfl, hyz⟩ := hT.map_left hvw
      refine hU.map.mpr (forall₂_comp hxy hyz ?_)
      rintro _ hp _ _ ⟨k, hpq⟩ ⟨_, hqr⟩
      exact .mk k (ih _ (Value.mem_parts_map hp) hpq hqr)
    | closure env ps b => exact hfn _ _ _ rfl huv hvw
    | _ =>
      obtain rfl := hS.flat huv rfl
      obtain rfl := hT.flat hvw rfl
      exact hU.flat_refl rfl

end Structural

end CheckedPass
