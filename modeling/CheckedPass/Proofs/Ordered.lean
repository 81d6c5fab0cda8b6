import CheckedPass.Proofs.Hereditary
/-!
# Evaluation keeps the order

Elements, keys and captured names ascend in whatever an operator yields, if they do in its operands.
So values in order are a realm: evaluation in an ordered environment yields values in order.
-/

namespace CheckedPass

namespace Value

private theorem isOrderedList_iff {vs : List Value} :
    isOrderedList vs = true ↔ ∀ v ∈ vs, v.isOrdered = true := by
  induction vs with
  | nil => simp [isOrderedList]
  | cons v vs ih => rw [isOrderedList, Bool.and_eq_true, ih, List.forall_mem_cons]

private theorem isOrderedCounts_iff {counts : List (Value × Nat)} :
    isOrderedCounts counts = true ↔ ∀ p ∈ counts, p.1.isOrdered = true := by
  induction counts with
  | nil => simp [isOrderedCounts]
  | cons p counts ih => rw [isOrderedCounts, Bool.and_eq_true, ih, List.forall_mem_cons]

private theorem isOrderedEntries_iff {entries : List (Value × Value)} :
    isOrderedEntries entries = true ↔
      ∀ p ∈ entries, p.1.isOrdered = true ∧ p.2.isOrdered = true := by
  induction entries with
  | nil => simp [isOrderedEntries]
  | cons p entries ih =>
    rw [isOrderedEntries, Bool.and_eq_true, Bool.and_eq_true, ih, List.forall_mem_cons]

theorem isOrderedEnv_iff {env : Env} :
    isOrderedEnv env = true ↔ ∀ p ∈ env, p.2.isOrdered = true := by
  induction env with
  | nil => simp [isOrderedEnv]
  | cons p env ih => rw [isOrderedEnv, Bool.and_eq_true, ih, List.forall_mem_cons]

theorem isOrdered_hereditary : Hereditary True fun v => v.isOrdered = true where
  iff_parts {v} hdata := by
    cases v with
    | seq xs => simp [isOrdered, isOrderedList_iff, ascends, parts]
    | set xs => simp [isOrdered, isOrderedList_iff, ascends, parts]
    | multiset counts => simp [isOrdered, isOrderedCounts_iff, ascends, parts]
    | map entries =>
      rw [isOrdered, Bool.and_eq_true, isOrderedEntries_iff, parts, List.forall_mem_append,
        List.forall_mem_map, List.forall_mem_map, ← forall₂_and, ascends, true_imp_iff]
    | closure env params body => cases hdata
    | _ => simp [isOrdered, ascends, parts]

end Value

namespace Realm

/-- The values in order. -/
def ordered : Realm where
  Holds v := v.isOrdered = true
  Fits env := Ascending.isAscending env.names = true ∧ ∀ p ∈ env, p.2.isOrdered = true
  bound henv := henv.2
  literal a := (Value.isOrdered_hereditary.literal a).ensures
  unit := rfl
  bool _ := rfl
  closure := by
    intro env ps b
    rw [Value.isOrdered, Bool.and_eq_true, Value.isOrderedEnv_iff]
    rfl
  extend _ henv hvs :=
    ⟨Ascending.isAscending_keys_putAll henv.1 _, Env.forall_mem_extend henv.2 hvs⟩
  apply := by
    intro call op vs hvs hcall
    have hordered := Value.isOrdered_hereditary
    fun_cases EagerOp.applyWith call op vs with
    | case1 op v => exact (hordered.unary (hvs v (by simp)) op).ensures
    | case2 op v w => exact (hordered.binary (hvs v (by simp)) (hvs w (by simp)) op).ensures
    | case3 op v w x =>
      exact (hordered.ternary (hvs v (by simp)) (hvs w (by simp)) (hvs x (by simp)) op).ensures
    | case4 kind => exact (hordered.build kind hvs).ensures
    | case5 callee args => exact hcall callee args rfl
    | case6 => exact .error _

end Realm

theorem OrderedEnv.fits (env : OrderedEnv) : Realm.ordered.Fits env.bindings :=
  ⟨env.names_ascending, Value.isOrderedEnv_iff.mp env.values_ordered⟩

end CheckedPass
