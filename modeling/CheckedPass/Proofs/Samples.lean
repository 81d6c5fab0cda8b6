import CheckedPass.Proofs.Ascending
import CheckedPass.Proofs.Odometer
/-!
# What is sampled

Tuples have the length asked for and entries from the pool, and a smaller limit only cuts off more
of them at the end. A sampled environment binds each of the names it was made for, and nothing but
values from the pool.
-/

namespace CheckedPass

section Tuples

variable {α : Type}

theorem mem_allTuples {pool xs : List α} {n : Nat} :
    xs ∈ allTuples pool n ↔ xs.length = n ∧ ∀ x ∈ xs, x ∈ pool := by
  induction n generalizing xs with
  | zero => cases xs <;> simp [allTuples]
  | succ n ih =>
    cases xs with
    | nil => simp [allTuples]
    | cons x xs => simp [allTuples, ih, and_left_comm]

theorem of_mem_tuples {pool xs : List α} {n limit : Nat} (h : xs ∈ tuples pool n limit) :
    xs.length = n ∧ ∀ x ∈ xs, x ∈ pool := by
  rw [tuples_eq_take] at h
  exact mem_allTuples.mp (List.mem_of_mem_take h)

theorem mem_tuples_of_mem_nil {pool xs : List α} {n limit : Nat} (h : xs ∈ tuples [] n limit) :
    xs ∈ tuples pool n limit := by
  cases n with
  | zero => exact h
  | succ n => simp [tuples_eq_take, allTuples] at h

theorem mem_tuples_of_le {pool xs : List α} {n limit limit' : Nat} (hle : limit ≤ limit')
    (h : xs ∈ tuples pool n limit) : xs ∈ tuples pool n limit' := by
  rw [tuples_eq_take] at *
  exact (List.take_prefix_take_left hle).subset h

end Tuples

theorem names_of_mem_environments {names : List String} {pool : List Value} {limit : Nat}
    {env : Env} (h : env ∈ environments names pool limit) {x : String} (hx : x ∈ names) :
    x ∈ env.names := by
  obtain ⟨values, hvalues, rfl⟩ := List.mem_map.mp h
  have hlen := (of_mem_tuples hvalues).1
  exact (Env.mem_names_extend hlen.symm).mpr (.inl hx)

theorem mem_pool_of_mem_environments {names : List String} {pool : List Value} {limit : Nat}
    {env : Env} (h : env ∈ environments names pool limit) {p : String × Value} (hp : p ∈ env) :
    p.2 ∈ pool := by
  obtain ⟨values, hvalues, rfl⟩ := List.mem_map.mp h
  rcases Env.mem_extend hp with hp | hp
  · exact (of_mem_tuples hvalues).2 _ hp
  · exact absurd hp List.not_mem_nil

theorem mem_environments_of_le {names : List String} {pool : List Value} {limit limit' : Nat}
    (hle : limit ≤ limit') {env : Env} (h : env ∈ environments names pool limit) :
    env ∈ environments names pool limit' := by
  obtain ⟨values, hvalues, rfl⟩ := List.mem_map.mp h
  exact List.mem_map_of_mem (mem_tuples_of_le hle hvalues)

end CheckedPass
