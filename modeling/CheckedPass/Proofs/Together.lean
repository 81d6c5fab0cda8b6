import Mathlib.Data.List.Forall2
/-!
# Results of computations

What a computation ensures of its result if it succeeds, how it ends, and computations side by side:
two run together when both succeed with results that are related, or both fail with errors that are
related. All these notions go step by step.
-/

namespace CheckedPass

/-- A computation of two steps succeeds only if both steps do. -/
theorem steps_of_bind_eq_ok {ε α β : Type} {x : Except ε α} {f : α → Except ε β} {b : β}
    (h : x >>= f = .ok b) : ∃ a, x = .ok a ∧ f a = .ok b := by
  cases x with
  | error e => exact nomatch h
  | ok a => exact ⟨a, rfl, h⟩

theorem bind_eq_ok_iff {ε α β : Type} {x : Except ε α} {f : α → Except ε β} {b : β} :
    x >>= f = .ok b ↔ ∃ a, x = .ok a ∧ f a = .ok b := by
  constructor
  · exact steps_of_bind_eq_ok
  · rintro ⟨a, ha, hb⟩
    rw [ha]
    exact hb

theorem step_of_bind_eq_error {ε α β : Type} {x : Except ε α} {f : α → Except ε β} {e : ε}
    (h : x >>= f = .error e) : x = .error e ∨ ∃ a, x = .ok a ∧ f a = .error e := by
  cases x with
  | error e' =>
    cases h
    exact .inl rfl
  | ok a => exact .inr ⟨a, rfl, h⟩

section Lists

variable {ε α β : Type} {f : α → Except ε β} {xs : List α}

/-- Steps for the items of a list succeed exactly if each one does, with the results in order. -/
theorem mapM_eq_ok_iff {ys : List β} :
    xs.mapM f = .ok ys ↔ List.Forall₂ (fun x y => f x = .ok y) xs ys := by
  induction xs generalizing ys with
  | nil =>
    rw [List.forall₂_nil_left_iff]
    exact ⟨fun h => (Except.ok.inj h).symm, fun h => h ▸ rfl⟩
  | cons x xs ih =>
    rw [List.mapM_cons, List.forall₂_cons_left_iff]
    constructor
    · intro h
      obtain ⟨y, hy, hrest⟩ := steps_of_bind_eq_ok h
      obtain ⟨zs, hzs, heq⟩ := steps_of_bind_eq_ok hrest
      exact ⟨y, zs, hy, ih.mp hzs, (Except.ok.inj heq).symm⟩
    · rintro ⟨y, zs, hy, hzs, rfl⟩
      rw [hy, ih.mpr hzs]
      rfl

theorem mapM_eq_error_iff {e : ε} :
    xs.mapM f = .error e ↔ ∃ before x after, xs = before ++ x :: after ∧
      (∀ y ∈ before, ∃ b, f y = .ok b) ∧ f x = .error e := by
  constructor
  · intro h
    induction xs with
    | nil => cases h
    | cons x xs ih =>
      rw [List.mapM_cons] at h
      rcases step_of_bind_eq_error h with hx | ⟨b, hx, hrest⟩
      · exact ⟨[], x, xs, rfl, List.forall_mem_nil _, hx⟩
      · rcases step_of_bind_eq_error hrest with hxs | ⟨bs, -, hdone⟩
        · obtain ⟨before, y, after, rfl, hbefore, hy⟩ := ih hxs
          exact ⟨x :: before, y, after, rfl, List.forall_mem_cons.mpr ⟨⟨b, hx⟩, hbefore⟩, hy⟩
        · cases hdone
  · rintro ⟨before, x, after, rfl, hbefore, hx⟩
    induction before with
    | nil =>
      rw [List.nil_append, List.mapM_cons, hx]
      rfl
    | cons y before ih =>
      obtain ⟨⟨b, hy⟩, hrest⟩ := List.forall_mem_cons.mp hbefore
      rw [List.cons_append, List.mapM_cons, hy, ih hrest]
      rfl

theorem exists_forall₂_iff {R : α → β → Prop} :
    (∃ ys, List.Forall₂ R xs ys) ↔ ∀ x ∈ xs, ∃ y, R x y := by
  induction xs with
  | nil => exact ⟨fun _ => List.forall_mem_nil _, fun _ => ⟨[], .nil⟩⟩
  | cons x xs ih =>
    rw [List.forall_mem_cons, ← ih]
    constructor
    · rintro ⟨_, _ | ⟨hx, hxs⟩⟩
      exact ⟨⟨_, hx⟩, ⟨_, hxs⟩⟩
    · rintro ⟨⟨y, hx⟩, ⟨ys, hxs⟩⟩
      exact ⟨y :: ys, .cons hx hxs⟩

end Lists

/-- The computation fails, or `Q` holds of its result. -/
def Ensures {ε α : Type} (Q : α → Prop) (x : Except ε α) : Prop :=
  ∀ a, x = .ok a → Q a

namespace Ensures

variable {ε α β : Type} {P : α → Prop} {Q : β → Prop}

theorem ok {b : β} (h : Q b) : Ensures Q (.ok b : Except ε β) := by
  intro _ heq
  cases heq
  exact h

theorem error (e : ε) : Ensures Q (.error e) := fun _ heq => nomatch heq

theorem bind {x : Except ε α} {f : α → Except ε β} (hx : Ensures P x)
    (hf : ∀ a, P a → Ensures Q (f a)) : Ensures Q (x >>= f) := by
  intro b heq
  obtain ⟨a, ha, hb⟩ := steps_of_bind_eq_ok heq
  exact hf a (hx a ha) b hb

theorem bind_any {x : Except ε α} {f : α → Except ε β} (hf : ∀ a, Ensures Q (f a)) :
    Ensures Q (x >>= f) :=
  bind (fun _ _ => trivial) fun a (_ : True) => hf a

end Ensures

/-- The computation succeeds, and `Q` holds of its result. -/
def Yields {ε α : Type} (Q : α → Prop) (x : Except ε α) : Prop :=
  ∃ a, x = .ok a ∧ Q a

/-- Both succeed, with results related by `A`, or both fail, with errors related by `E`. -/
inductive Together {ε α β : Type} (E : ε → ε → Prop) (A : α → β → Prop) :
    Except ε α → Except ε β → Prop where
  | ok {a : α} {b : β} (h : A a b) : Together E A (.ok a) (.ok b)
  | error {x y : ε} (h : E x y) : Together E A (.error x) (.error y)

namespace Together

variable {ε α β γ δ : Type} {E E' : ε → ε → Prop} {A : α → β → Prop} {B : γ → δ → Prop}

theorem bind {x : Except ε α} {y : Except ε β} {f : α → Except ε γ} {g : β → Except ε δ}
    (h : Together E A x y) (hfg : ∀ a b, A a b → Together E B (f a) (g b)) :
    Together E B (x >>= f) (y >>= g) := by
  cases h with
  | ok h => exact hfg _ _ h
  | error h => exact .error h

theorem mono {A' : α → β → Prop} {x : Except ε α} {y : Except ε β} (h : Together E A x y)
    (hE : ∀ x y, E x y → E' x y) (hA : ∀ a b, A a b → A' a b) : Together E' A' x y := by
  cases h with
  | ok h => exact .ok (hA _ _ h)
  | error h => exact .error (hE _ _ h)

theorem and_ensures {A' : α → β → Prop} {P : α → Prop} {Q : β → Prop} {x : Except ε α}
    {y : Except ε β} (h : Together E A x y) (hx : Ensures P x) (hy : Ensures Q y)
    (hA : ∀ a b, A a b → P a → Q b → A' a b) : Together E A' x y := by
  cases h with
  | ok h => exact .ok (hA _ _ h (hx _ rfl) (hy _ rfl))
  | error h => exact .error h

theorem ensures_right {Q : β → Prop} {x : Except ε α} {y : Except ε β} (h : Together E A x y)
    (hQ : ∀ a b, A a b → Q b) : Ensures Q y := by
  cases h with
  | ok h => exact .ok (hQ _ _ h)
  | error h => exact .error _

/-- Chains of computations that run together, the relations composed. -/
theorem trans {C : β → γ → Prop} {D : α → γ → Prop} {x : Except ε α} {y : Except ε β}
    {z : Except ε γ} (h : Together E A x y) (h' : Together E C y z)
    (hE : ∀ x y z, E x y → E y z → E x z) (hD : ∀ a b c, A a b → C b c → D a c) :
    Together E D x z := by
  cases h with
  | ok h =>
    cases h' with
    | ok h' => exact .ok (hD _ _ _ h h')
  | error h =>
    cases h' with
    | error h' => exact .error (hE _ _ _ h h')

theorem symm {B : β → α → Prop} {x : Except ε α} {y : Except ε β} (h : Together E A x y)
    (hE : ∀ x y, E x y → E y x) (hB : ∀ a b, A a b → B b a) : Together E B y x := by
  cases h with
  | ok h => exact .ok (hB _ _ h)
  | error h => exact .error (hE _ _ h)

theorem refl {A : α → α → Prop} (hE : ∀ x, E x x) (hA : ∀ a, A a a) (x : Except ε α) :
    Together E A x x := by
  cases x with
  | ok a => exact .ok (hA a)
  | error e => exact .error (hE e)

theorem bind_same (hE : ∀ x, E x x) (x : Except ε α) {f : α → Except ε γ} {g : α → Except ε δ}
    (h : ∀ a, Together E B (f a) (g a)) : Together E B (x >>= f) (x >>= g) := by
  cases x with
  | ok a => exact h a
  | error e => exact .error (hE e)

theorem discard {x : Except ε α} {y : Except ε β} (h : Together E A x y) :
    Together E (fun _ _ => True) (discard x) (discard y) := by
  cases h with
  | ok h => exact .ok trivial
  | error h => exact .error h

protected theorem eq {x y : Except ε α} (h : Together Eq Eq x y) : x = y := by
  cases h with
  | ok h => rw [h]
  | error h => rw [h]

theorem of_eq {x y : Except ε α} (h : x = y) : Together Eq Eq x y :=
  h ▸ refl (fun _ => rfl) (fun _ => rfl) x

end Together

/-- The computation ends in a result of which `Q` holds, or in an error of which `E` holds. -/
inductive EndsIn {ε α : Type} (E : ε → Prop) (Q : α → Prop) : Except ε α → Prop where
  | ok {a : α} (h : Q a) : EndsIn E Q (.ok a)
  | error {x : ε} (h : E x) : EndsIn E Q (.error x)

namespace EndsIn

variable {ε α β : Type} {E : ε → Prop} {P : α → Prop} {Q : β → Prop}

theorem bind {x : Except ε α} {f : α → Except ε β} (hx : EndsIn E P x)
    (hf : ∀ a, P a → EndsIn E Q (f a)) : EndsIn E Q (x >>= f) := by
  cases hx with
  | ok h => exact hf _ h
  | error h => exact .error h

theorem mono {P' : α → Prop} {x : Except ε α} (hx : EndsIn E P x) (hP : ∀ a, P a → P' a) :
    EndsIn E P' x := by
  cases hx with
  | ok h => exact .ok (hP _ h)
  | error h => exact .error h

theorem of_eq_ok {x : Except ε α} (hx : EndsIn E P x) {a : α} (h : x = .ok a) : P a := by
  subst h
  cases hx with
  | ok h => exact h

theorem ensures {x : Except ε α} (hx : EndsIn E P x) : Ensures P x :=
  fun _ => hx.of_eq_ok

theorem of_eq_error {x : Except ε α} (hx : EndsIn E P x) {y : ε} (h : x = .error y) : E y := by
  subst h
  cases hx with
  | error h => exact h

theorem mono_error {E' : ε → Prop} {x : Except ε α} (hx : EndsIn E P x) (hE : ∀ y, E y → E' y) :
    EndsIn E' P x := by
  cases hx with
  | ok h => exact .ok h
  | error h => exact .error (hE _ h)

theorem of_ensures {x : Except ε α} (hx : Ensures P x) : EndsIn (fun _ => True) P x := by
  cases x with
  | ok a => exact .ok (hx a rfl)
  | error e => exact .error trivial

theorem discard {x : Except ε α} (hx : EndsIn E P x) :
    EndsIn E (fun _ => True) (Functor.discard x) := by
  cases hx with
  | ok h => exact .ok trivial
  | error h => exact .error h

/-- How one computation ends is how it runs together with itself. -/
theorem iff_together {x : Except ε α} :
    EndsIn E P x ↔ Together (fun y _ => E y) (fun a b => a = b ∧ P a) x x := by
  constructor
  · intro h
    cases h with
    | ok h => exact .ok ⟨rfl, h⟩
    | error h => exact .error h
  · intro h
    cases h with
    | ok h => exact .ok h.2
    | error h => exact .error h

end EndsIn

section Answers

variable {ε α : Type} {E : ε → Prop} {Q : Bool → Prop} {x y : Except ε Bool}
  {f : α → Except ε Bool} {xs : List α}

theorem andM_eq_true_iff : (x <&&> y) = .ok true ↔ x = .ok true ∧ y = .ok true := by
  constructor
  · intro h
    match x with
    | .ok true => exact ⟨rfl, h⟩
    | .ok false => cases h
    | .error e => cases h
  · rintro ⟨rfl, rfl⟩
    rfl

theorem EndsIn.andM (hx : EndsIn E Q x) (hy : EndsIn E Q y) : EndsIn E Q (x <&&> y) := by
  cases hx with
  | @ok b h =>
    cases b with
    | true => exact hy
    | false => exact .ok h
  | error h => exact .error h

theorem allM_cons (a : α) : (a :: xs).allM f = (f a <&&> xs.allM f) := by
  rw [List.allM]
  match f a with
  | .ok true => rfl
  | .ok false => rfl
  | .error e => rfl

theorem allM_eq_true_iff : xs.allM f = .ok true ↔ ∀ a ∈ xs, f a = .ok true := by
  induction xs with
  | nil => exact ⟨fun _ => List.forall_mem_nil _, fun _ => rfl⟩
  | cons a xs ih => rw [allM_cons, andM_eq_true_iff, ih, List.forall_mem_cons]

theorem EndsIn.allM (htrue : Q true) (h : ∀ a ∈ xs, EndsIn E Q (f a)) :
    EndsIn E Q (xs.allM f) := by
  induction xs with
  | nil => exact .ok htrue
  | cons a xs ih =>
    obtain ⟨ha, hxs⟩ := List.forall_mem_cons.mp h
    rw [allM_cons]
    exact ha.andM (ih hxs)

theorem findSomeM?_eq_none_iff {β : Type} {g : α → Except ε (Option β)} :
    xs.findSomeM? g = .ok none ↔ ∀ a ∈ xs, g a = .ok none := by
  induction xs with
  | nil => exact ⟨fun _ => List.forall_mem_nil _, fun _ => rfl⟩
  | cons a xs ih =>
    rw [List.findSomeM?, List.forall_mem_cons, ← ih]
    match g a with
    | .ok none => exact ⟨fun h => ⟨rfl, h⟩, fun h => h.2⟩
    | .ok (some b) => exact ⟨fun h => (by cases h), fun h => (by cases h.1)⟩
    | .error e => exact ⟨fun h => (by cases h), fun h => (by cases h.1)⟩

theorem findSomeM?_congr {β : Type} {g h : α → Except ε (Option β)} (heq : ∀ a ∈ xs, g a = h a) :
    xs.findSomeM? g = xs.findSomeM? h := by
  induction xs with
  | nil => rfl
  | cons a xs ih =>
    obtain ⟨ha, hxs⟩ := List.forall_mem_cons.mp heq
    rw [List.findSomeM?, List.findSomeM?, ha, ih hxs]

theorem EndsIn.findSomeM? {β : Type} {g : α → Except ε (Option β)} {P : Option β → Prop}
    (hnone : P none) (h : ∀ a ∈ xs, EndsIn E P (g a)) : EndsIn E P (xs.findSomeM? g) := by
  induction xs with
  | nil => exact .ok hnone
  | cons a xs ih =>
    obtain ⟨ha, hxs⟩ := List.forall_mem_cons.mp h
    refine ha.bind fun r hr => ?_
    cases r with
    | none => exact ih hxs
    | some b => exact .ok hr

end Answers

end CheckedPass
