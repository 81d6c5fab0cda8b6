import CheckedPass.Equivalence.Samples
import Mathlib.Algebra.GroupWithZero.Nat
/-!
# Drawing tuples by counting

The positions in a pool from which a tuple is drawn are the digits of its number, in the base that
is the size of the pool. Moving on to the next positions is counting by one, so drawing as long as
positions follow runs through all tuples in lexicographic order, and a limit only cuts off the end.
-/

namespace CheckedPass

variable {α β : Type}

/-- All lists of `n` entries drawn from `pool`, in lexicographic order of their positions in the
pool. -/
def allTuples (pool : List α) : Nat → List (List α)
  | 0 => [[]]
  | n + 1 => pool.flatMap fun a => (allTuples pool n).map (a :: ·)

theorem allTuples_map (f : α → β) (pool : List α) (n : Nat) :
    allTuples (pool.map f) n = (allTuples pool n).map (List.map f) := by
  induction n with
  | zero => rfl
  | succ n ih => simp [allTuples, ih, List.map_flatMap, List.flatMap_map, Function.comp_def]

/-- The last `n` digits of `k` in base `size`, the most significant one first: where in a pool of
that size the entries of the `k`-th tuple stand. -/
def positions (size n k : Nat) : List Nat :=
  (List.range n).map fun j => k / size ^ (n - 1 - j) % size

private theorem positions_succ (size n k : Nat) :
    positions size (n + 1) k = k / size ^ n % size :: positions size n k := by
  rw [positions, List.range_succ_eq_map, List.map_cons, List.map_map]
  congr 1
  apply List.map_congr_left
  intro j _
  have hshift : n + 1 - 1 - (j + 1) = n - 1 - j := by omega
  simp only [Function.comp_apply, hshift]

private theorem positions_add_mul (size n i r : Nat) :
    positions size n (i * size ^ n + r) = positions size n r := by
  induction n generalizing i with
  | zero => rfl
  | succ n ih =>
    have hsplit : i * size ^ (n + 1) = i * size * size ^ n := by
      rw [Nat.pow_succ', Nat.mul_assoc]
    rw [positions_succ, positions_succ, hsplit, ih]
    by_cases hpos : 0 < size ^ n
    · rw [Nat.add_comm, Nat.add_mul_div_right _ _ hpos, Nat.add_mul_mod_self_right]
    · simp_all

private theorem range_mul (m n : Nat) :
    List.range (m * n) = (List.range m).flatMap fun i => (List.range n).map (i * n + ·) := by
  induction m with
  | zero => simp
  | succ m ih => simp [Nat.succ_mul, List.range_add, List.range_succ, ih]

/-- Counting up from zero runs through all tuples of positions in lexicographic order. By induction
on the length: the tuples that begin with `i` are numbered from `i` times their count on. -/
theorem allTuples_range (size n : Nat) :
    allTuples (List.range size) n = (List.range (size ^ n)).map (positions size n) := by
  induction n with
  | zero => rfl
  | succ n ih =>
    have hfirst : ∀ i < size, ∀ r < size ^ n,
        i :: positions size n r = positions size (n + 1) (i * size ^ n + r) := by
      intro i hi r hr
      have hdiv : (i * size ^ n + r) / size ^ n = i := by
        rw [Nat.add_comm, Nat.add_mul_div_right _ _ (by omega), Nat.div_eq_of_lt hr, Nat.zero_add]
      rw [positions_succ, positions_add_mul, hdiv, Nat.mod_eq_of_lt hi]
    rw [Nat.pow_succ', range_mul, List.map_flatMap, allTuples]
    simp only [List.flatMap_def]
    congr 1
    apply List.map_congr_left
    intro i hi
    rw [ih, List.map_map, List.map_map]
    apply List.map_congr_left
    intro r hr
    exact hfirst i (List.mem_range.mp hi) r (List.mem_range.mp hr)

theorem range_map_getElem? (pool : List α) :
    (List.range pool.length).map (pool[·]?) = pool.map some := by
  apply List.ext_getElem?
  intro i
  by_cases hi : i < pool.length <;> simp [hi]

private theorem allTuples_eq_map (pool : List α) (n : Nat) :
    allTuples pool n = (List.range (pool.length ^ n)).map fun k =>
      (positions pool.length n k).filterMap (pool[·]?) := by
  have hsome : (allTuples pool n).map (List.map some) =
      (allTuples (List.range pool.length) n).map (List.map (pool[·]?)) := by
    rw [← allTuples_map, ← allTuples_map, range_map_getElem?]
  have hdrawn := congrArg (List.map (List.filterMap id)) hsome
  simpa [allTuples_range, List.filterMap_map, Function.comp_def] using hdrawn

theorem length_allTuples (pool : List α) (n : Nat) :
    (allTuples pool n).length = pool.length ^ n := by
  simp [allTuples_eq_map]

private theorem positions_succ_last (size n k : Nat) :
    positions size (n + 1) k = positions size n (k / size) ++ [k % size] := by
  induction n generalizing k with
  | zero => simp [positions]
  | succ n ih =>
    have hfirst : k / size ^ (n + 1) = k / size / size ^ n := by
      rw [Nat.pow_succ', Nat.div_div_eq_div_mul]
    rw [positions_succ, ih, positions_succ, hfirst, List.cons_append]

@[simp] theorem length_positions (size n k : Nat) : (positions size n k).length = n := by
  simp [positions]

private theorem positions_zero (size n : Nat) : positions size n 0 = List.replicate n 0 := by
  simp [positions, List.map_const']

private theorem advance_front {size n k : Nat} (hk : k < size ^ n) (behind : Nat) :
    advance size (positions size n k ++ List.replicate behind 0) n =
      if k + 1 < size ^ n then some (positions size n (k + 1) ++ List.replicate behind 0)
      else none := by
  -- By induction on the place: what stands behind it has gone back to zero, and what stands in
  -- front of it is the quotient of the number by the size.
  induction n generalizing k behind with
  | zero => simp [advance]
  | succ n ih =>
    have hsize : 0 < size := Nat.pos_of_ne_zero fun h => by simp [h] at hk
    have hwithin : ∀ m, m < size ^ (n + 1) ↔ m / size < size ^ n := by
      intro m
      rw [Nat.div_lt_iff_lt_mul hsize, Nat.pow_succ]
    have hread : (positions size n (k / size) ++ k % size :: List.replicate behind 0).getD n 0 =
        k % size := by
      simp
    have hset : ∀ i, (positions size n (k / size) ++ k % size :: List.replicate behind 0).set n i =
        positions size n (k / size) ++ i :: List.replicate behind 0 := by
      simp
    have hk' : k / size < size ^ n := (hwithin k).mp hk
    have hsplit := Nat.mod_add_div k size
    have hrest := Nat.mod_lt k hsize
    simp only [advance, positions_succ_last, List.append_assoc, List.singleton_append, hread, hset,
      hwithin]
    by_cases hlast : k % size + 1 < size
    · -- The last position moves on, without a carry.
      obtain ⟨hdiv, hmod⟩ : (k + 1) / size = k / size ∧ (k + 1) % size = k % size + 1 :=
        (Nat.div_mod_unique hsize).mpr ⟨by omega, hlast⟩
      rw [if_pos hlast, hdiv, hmod, if_pos hk']
    · -- It goes back to zero, and the quotient counts up.
      obtain ⟨hdiv, hmod⟩ : (k + 1) / size = k / size + 1 ∧ (k + 1) % size = 0 :=
        (Nat.div_mod_unique hsize).mpr ⟨by rw [Nat.mul_succ]; omega, hsize⟩
      rw [if_neg hlast, hdiv, hmod]
      exact ih hk' (behind + 1)

/-- Moving on to the next positions is counting by one, as long as the digits suffice. -/
private theorem advance_positions {size n k : Nat} (hk : k < size ^ n) :
    advance size (positions size n k) n =
      if k + 1 < size ^ n then some (positions size n (k + 1)) else none := by
  simpa using advance_front hk 0

/-- From the `k`-th positions on, the tuples are drawn by counting up from `k`. -/
private theorem tuplesFrom_positions {pool : List α} {n k : Nat} (hk : k < pool.length ^ n)
    (room : Nat) :
    tuplesFrom pool (positions pool.length n k) room = ((allTuples pool n).drop k).take room := by
  induction room generalizing k with
  | zero => rfl
  | succ room ih =>
    have hlt : k < (allTuples pool n).length := by rwa [length_allTuples]
    have hhead : (allTuples pool n)[k] = (positions pool.length n k).filterMap (pool[·]?) := by
      simp [allTuples_eq_map]
    rw [List.drop_eq_getElem_cons hlt, List.take_succ_cons, hhead, tuplesFrom, length_positions,
      advance_positions hk]
    by_cases hnext : k + 1 < pool.length ^ n
    · simp only [hnext, if_true, ih hnext]
    · have hdone : (allTuples pool n).length ≤ k + 1 := by
        rw [length_allTuples]
        exact Nat.le_of_not_lt hnext
      simp only [hnext, if_false, List.drop_eq_nil_of_le hdone, List.take_nil]

/-- What is drawn under a limit is the first part of all tuples in lexicographic order. -/
theorem tuples_eq_take (pool : List α) (n limit : Nat) :
    tuples pool n limit = (allTuples pool n).take limit := by
  fun_cases tuples pool n limit with
  | case1 hn => rw [hn, allTuples]
  | case2 hn hpool =>
    obtain ⟨m, rfl⟩ := Nat.exists_eq_succ_of_ne_zero hn
    rw [List.isEmpty_iff.mp hpool, allTuples, List.flatMap_nil, List.take_nil]
  | case3 hn hpool =>
    have hpos : 0 < pool.length ^ n :=
      Nat.pow_pos (List.length_pos_iff.mpr fun h => hpool (List.isEmpty_iff.mpr h))
    rw [← positions_zero pool.length, tuplesFrom_positions hpos, List.drop_zero]

end CheckedPass
