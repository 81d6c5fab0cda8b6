/-!
# Ascending lists

Finite sets and finite maps kept as lists in ascending order, so that equal contents have one
representation. Elements and keys are placed by `compare`; look-up goes by equality.
-/

namespace CheckedPass.Ascending

variable {α β : Type}

/-- Each element lies strictly below the next one. -/
def isAscending [Ord α] : List α → Bool
  | a :: b :: rest => (compare a b).isLT && isAscending (b :: rest)
  | _ => true

/-- Places `a`, in the stead of an equal element. -/
def insert [Ord α] (a : α) : List α → List α
  | [] => [a]
  | b :: rest =>
    match compare a b with
    | .lt => a :: b :: rest
    | .eq => a :: rest
    | .gt => b :: insert a rest

/-- Places every element of `ys` among `xs`. -/
def union [Ord α] (xs ys : List α) : List α :=
  ys.foldl (fun acc y => insert y acc) xs

/-- The elements of `xs` in ascending order, each once. -/
def ofList [Ord α] (xs : List α) : List α :=
  union [] xs

/-- Binds `k` to `v`, in the stead of what an equal key was bound to. -/
def put [Ord α] (k : α) (v : β) : List (α × β) → List (α × β)
  | [] => [(k, v)]
  | (j, w) :: rest =>
    match compare k j with
    | .lt => (k, v) :: (j, w) :: rest
    | .eq => (k, v) :: rest
    | .gt => (j, w) :: put k v rest

/-- Binds the pairs of `updates` one after the other, so a later pair wins. -/
def putAll [Ord α] (entries updates : List (α × β)) : List (α × β) :=
  updates.foldl (fun acc p => put p.1 p.2 acc) entries

/-- What `k` is bound to. -/
def get? [DecidableEq α] (k : α) : List (α × β) → Option β
  | [] => none
  | (j, w) :: rest => if k = j then some w else get? k rest

/-- Leaves out the binding of `k`. -/
def erase [DecidableEq α] (k : α) (entries : List (α × β)) : List (α × β) :=
  entries.filter fun p => p.1 ≠ k

/-- The keys, in order. -/
def keys (entries : List (α × β)) : List α :=
  entries.map Prod.fst

theorem get?_put [Ord α] [Std.LawfulEqOrd α] [DecidableEq α] (k j : α) (v : β)
    (entries : List (α × β)) :
    get? j (put k v entries) = if j = k then some v else get? j entries := by
  induction entries with
  | nil => rfl
  | cons p rest ih =>
    obtain ⟨i, w⟩ := p
    simp only [put]
    split
    · rfl
    · rename_i h
      have hk : k = i := Std.LawfulEqOrd.compare_eq_iff_eq.mp h
      subst hk
      by_cases hj : j = k <;> simp [get?, hj]
    · rename_i h
      have hk : k ≠ i := fun e => by
        rw [e, Std.ReflOrd.compare_self] at h
        exact nomatch h
      by_cases hj : j = i
      · simp [get?, hj, Ne.symm hk]
      · simp [get?, hj, ih]

theorem mem_insert [Ord α] [Std.LawfulEqOrd α] (a x : α) (xs : List α) :
    x ∈ insert a xs ↔ x = a ∨ x ∈ xs := by
  induction xs with
  | nil => simp [insert]
  | cons b rest ih =>
    simp only [insert]
    split
    · simp
    · rename_i h
      have hb : a = b := Std.LawfulEqOrd.compare_eq_iff_eq.mp h
      simp [hb]
    · simp only [List.mem_cons, ih]
      constructor
      · rintro (h | h | h) <;> simp [h]
      · rintro (h | h | h) <;> simp [h]

end CheckedPass.Ascending
