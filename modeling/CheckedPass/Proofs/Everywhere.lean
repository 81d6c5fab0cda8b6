import CheckedPass.Pass.Everywhere
import CheckedPass.Proofs.Together
import CheckedPass.Proofs.Tree
import Mathlib.Algebra.GroupWithZero.Nat
import Mathlib.Tactic.Choose
/-!
# Passes over whole trees, node by node

What a pass does to a tree, said at a node over its children: with the conditions checked and
without. Where no condition is broken the two come out the same. A list of passes is a chain of
stages, each from what the one before it left.
-/

namespace CheckedPass

namespace Pass

variable (p : Pass)

private theorem attemptList_eq_map (es : List Expr) : p.attemptList es = es.map p.attempt := by
  induction es with
  | nil => rfl
  | cons e es ih => rw [attemptList, ih, List.map_cons]

theorem attempt_eq (e : Expr) :
    p.attempt e = p.applyWhereApplicable (e.mapChildren p.attempt) := by
  cases e <;> simp only [attempt, Expr.mapChildren, attemptList_eq_map]

theorem post_of_deepPost {e : Expr} (h : p.deepPost e = true) : p.post e = true :=
  (Expr.all_iff p.post e).mp h e e.mem_nodes_self

theorem settle_eq_ok_iff {node out : Expr} {n m : Nat} :
    p.settle node n = .ok (out, m) ↔
      p.applicable node = true ∧ p.post (p.apply node) = true ∧ out = p.apply node ∧
        m = if (p.step node).isSome then n + 1 else n := by
  by_cases ha : p.applicable node = true
  · cases hs : p.step node with
    | none =>
      by_cases hp : p.post node = true <;>
        simp [settle, apply, ha, hs, hp, eq_comm]
    | some out' =>
      by_cases hp : p.post out' = true <;>
        simp [settle, apply, ha, hs, hp, eq_comm]
  · simp [settle, ha]

private theorem everywhereList_eq {f : Expr → Expr} {g : Expr → Nat} {es : List Expr}
    (h : ∀ e ∈ es, p.everywhere e = .ok (f e, g e)) :
    p.everywhereList es = .ok (es.map f, (es.map g).sum) := by
  induction es with
  | nil => rfl
  | cons e es ih =>
    rw [everywhereList, h e List.mem_cons_self, ih fun c hc => h c (List.mem_cons_of_mem _ hc)]
    rfl

theorem everywhere_eq_settle {f : Expr → Expr} {g : Expr → Nat} {e : Expr}
    (h : ∀ c ∈ e.children, p.everywhere c = .ok (f c, g c)) :
    p.everywhere e = p.settle (e.mapChildren f) (e.children.map g).sum := by
  cases e with
  | var x => rfl
  | lit a => rfl
  | fn params body =>
    have hb := h body (by simp [Expr.children])
    simp [everywhere, hb, Expr.mapChildren, Expr.children, bind, Except.bind]
  | app op args =>
    have ha : p.everywhereList args = _ := p.everywhereList_eq h
    rw [everywhere, ha]
    rfl
  | block items =>
    have hi : p.everywhereList items = _ := p.everywhereList_eq h
    rw [everywhere, hi]
    rfl
  | cond test yes no =>
    have ht := h test (by simp [Expr.children])
    have hy := h yes (by simp [Expr.children])
    have hn := h no (by simp [Expr.children])
    simp [everywhere, ht, hy, hn, Expr.mapChildren, Expr.children, bind, Except.bind,
      Nat.add_assoc]
  | bind vars vals body =>
    have hv : p.everywhereList vals = _ :=
      p.everywhereList_eq fun c hc => h c (by simp [Expr.children, hc])
    have hb := h body (by simp [Expr.children])
    simp [everywhere, hv, hb, Expr.mapChildren, Expr.children, bind, Except.bind]

private theorem ok_of_everywhereList {es es' : List Expr} {n : Nat}
    (h : p.everywhereList es = .ok (es', n)) : ∀ c ∈ es, ∃ r, p.everywhere c = .ok r := by
  induction es generalizing es' n with
  | nil => simp
  | cons e es ih =>
    obtain ⟨r, he, h⟩ := steps_of_bind_eq_ok h
    obtain ⟨⟨rest, m⟩, hes, -⟩ := steps_of_bind_eq_ok h
    intro c hc
    rcases List.mem_cons.mp hc with rfl | hc
    · exact ⟨r, he⟩
    · exact ih hes c hc

private theorem ok_of_everywhere {e : Expr} {r : Expr × Nat} (h : p.everywhere e = .ok r) :
    ∀ c ∈ e.children, ∃ r', p.everywhere c = .ok r' := by
  intro c hc
  cases e with
  | var x => simp [Expr.children] at hc
  | lit a => simp [Expr.children] at hc
  | fn params body =>
    obtain ⟨r', hb, -⟩ := steps_of_bind_eq_ok h
    rw [List.mem_singleton.mp hc]
    exact ⟨r', hb⟩
  | app op args =>
    obtain ⟨⟨args', n⟩, ha, -⟩ := steps_of_bind_eq_ok h
    exact p.ok_of_everywhereList ha c hc
  | block items =>
    obtain ⟨⟨items', n⟩, hi, -⟩ := steps_of_bind_eq_ok h
    exact p.ok_of_everywhereList hi c hc
  | cond test yes no =>
    obtain ⟨rt, ht, h⟩ := steps_of_bind_eq_ok h
    obtain ⟨ry, hy, h⟩ := steps_of_bind_eq_ok h
    obtain ⟨rn, hn, -⟩ := steps_of_bind_eq_ok h
    simp only [Expr.children, List.mem_cons, List.not_mem_nil, or_false] at hc
    rcases hc with rfl | rfl | rfl
    · exact ⟨rt, ht⟩
    · exact ⟨ry, hy⟩
    · exact ⟨rn, hn⟩
  | bind vars vals body =>
    obtain ⟨⟨vals', n⟩, hv, h⟩ := steps_of_bind_eq_ok h
    obtain ⟨rb, hb, -⟩ := steps_of_bind_eq_ok h
    rcases List.mem_append.mp hc with hc | hc
    · exact p.ok_of_everywhereList hv c hc
    · rw [List.mem_singleton.mp hc]
      exact ⟨rb, hb⟩

/-- Where no condition is broken, checking the conditions makes no difference. -/
theorem eq_attempt_of_everywhere {e out : Expr} {n : Nat} (h : p.everywhere e = .ok (out, n)) :
    out = p.attempt e := by
  induction e using Expr.children_induction generalizing out n with
  | step e ih =>
    have hc : ∀ c ∈ e.children, ∃ m, p.everywhere c = .ok (p.attempt c, m) := by
      intro c hc
      obtain ⟨⟨c', m⟩, hr⟩ := p.ok_of_everywhere h c hc
      exact ⟨m, ih c hc hr ▸ hr⟩
    choose! g hg using hc
    rw [p.everywhere_eq_settle hg, settle_eq_ok_iff] at h
    obtain ⟨ha, -, rfl, -⟩ := h
    rw [attempt_eq, applyWhereApplicable, if_pos ha]

/-- A pass settles a tree if it has settled the children and its conditions hold at the node over
what came out of them. -/
theorem everywhere_eq_attempt {e : Expr}
    (hc : ∀ c ∈ e.children, ∃ n, p.everywhere c = .ok (p.attempt c, n))
    (ha : p.applicable (e.mapChildren p.attempt) = true)
    (hp : p.post (p.attempt e) = true) : ∃ n, p.everywhere e = .ok (p.attempt e, n) := by
  choose! g hg using hc
  have hout : p.attempt e = p.apply (e.mapChildren p.attempt) := by
    rw [attempt_eq, applyWhereApplicable, if_pos ha]
  rw [p.everywhere_eq_settle hg]
  exact ⟨_, p.settle_eq_ok_iff.mpr ⟨ha, hout ▸ hp, hout, rfl⟩⟩

theorem everywhere_eq_self {e : Expr} (ha : ∀ n ∈ e.nodes, p.applicable n = true)
    (hs : ∀ n ∈ e.nodes, p.step n = none) (hp : p.deepPost e = true) :
    p.everywhere e = .ok (e, 0) := by
  induction e using Expr.children_induction with
  | step e ih =>
    have hc : ∀ c ∈ e.children, p.everywhere c = .ok (id c, 0) := by
      intro c hc
      exact ih c hc (fun n hn => ha n (Expr.mem_nodes_of_child hc hn))
        (fun n hn => hs n (Expr.mem_nodes_of_child hc hn)) (Expr.all_child hp hc)
    have hnode : p.step e = none := hs e e.mem_nodes_self
    have hpost : p.post (p.apply e) = true := by
      simpa [apply, hnode] using p.post_of_deepPost hp
    rw [p.everywhere_eq_settle hc, Expr.mapChildren_id, settle_eq_ok_iff]
    exact ⟨ha e e.mem_nodes_self, hpost, by simp [apply, hnode], by simp [hnode]⟩

end Pass

/-- The passes lead from one expression to another, each from what the one before it left; `Q` holds
of every pass with what it saw and what it left. -/
inductive Stages (Q : Pass → Expr → Expr → Prop) :
    List Pass → Expr → List Report → Expr → Prop where
  | done (e : Expr) : Stages Q [] e [] e
  | next {p : Pass} {ps : List Pass} {e e' out : Expr} {n : Nat} {rs : List Report}
    (h : p.everywhere e = .ok (e', n)) (hq : Q p e e') (rest : Stages Q ps e' rs out) :
    Stages Q (p :: ps) e (⟨p.name, n⟩ :: rs) out

namespace Pass

variable {σ ε : Type} {check : σ → Pass → Expr → σ × Except ε Unit}

/-- The check has let the pass go on with this expression. -/
def Cleared (check : σ → Pass → Expr → σ × Except ε Unit) (p : Pass) (e : Expr) : Prop :=
  ∃ s s', check s p e = (s', .ok ())

/-- A run that succeeds has gone through every pass, each cleared by the check. -/
theorem stages_of_runChecked {ps : List Pass} {s s' : σ} {e out : Expr} {rs : List Report}
    (h : runChecked check ps s e = (s', .ok (out, rs))) :
    Stages (fun p e _ => Cleared check p e) ps e rs out := by
  induction ps generalizing s e rs with
  | nil =>
    cases h
    exact .done _
  | cons p ps ih =>
    rw [runChecked] at h
    split at h
    · cases h
    · rename_i s₁ hcheck
      split at h
      · cases h
      · rename_i e' n hp
        split at h
        · rename_i s₂ out' rs' hrest
          cases h
          exact .next hp ⟨s, s₁, hcheck⟩ (ih hrest)
        · cases h

/-- What brings a run to a halt at a pass and an expression: the check refuses, or the pass breaks a
condition once the check has cleared it. -/
def HaltsAt (check : σ → Pass → Expr → σ × Except ε Unit) (p : Pass) (e : Expr) : Halt ε → Prop
  | .refused reason => ∃ s s', check s p e = (s', .error reason)
  | .breach b => Cleared check p e ∧ p.everywhere e = .error b

theorem halt_of_runChecked {ps : List Pass} {s s' : σ} {e : Expr} {halt : Halt ε}
    (h : runChecked check ps s e = (s', .error halt)) :
    ∃ p ∈ ps, ∃ e', HaltsAt check p e' halt := by
  induction ps generalizing s e with
  | nil => cases h
  | cons p ps ih =>
    rw [runChecked] at h
    split at h
    · rename_i hcheck
      cases h
      exact ⟨p, List.mem_cons_self, e, s, _, hcheck⟩
    · rename_i hcheck
      split at h
      · rename_i hp
        cases h
        exact ⟨p, List.mem_cons_self, e, ⟨s, _, hcheck⟩, hp⟩
      · rename_i e' n hp
        split at h
        · cases h
        · rename_i s₂ halt hrest
          cases h
          obtain ⟨q, hq, e'', hc⟩ := ih hrest
          exact ⟨q, List.mem_cons_of_mem _ hq, e'', hc⟩

end Pass

theorem Pass.transform_singleton {p : Pass} {program : Program} {out : Expr} {n : Nat}
    (h : p.everywhere program.body = .ok (out, n)) :
    Pass.transform [p] program = .ok ⟨⟨out⟩, [⟨p.name, n⟩]⟩ := by
  simp only [Pass.transform, Pass.transformChecked, Pass.runChecked, h]

theorem Stages.mono {Q Q' : Pass → Expr → Expr → Prop} {ps : List Pass} {e out : Expr}
    {rs : List Report} (h : Stages Q ps e rs out)
    (hQ : ∀ p ∈ ps, ∀ e e' n, p.everywhere e = .ok (e', n) → Q p e e' → Q' p e e') :
    Stages Q' ps e rs out := by
  induction h with
  | done e => exact .done e
  | next hp hq rest ih =>
    refine .next hp (hQ _ List.mem_cons_self _ _ _ hp hq) (ih ?_)
    exact fun q hmem => hQ q (List.mem_cons_of_mem _ hmem)

theorem Pass.stages_of_transform {ps : List Pass} {program : Program} {t : Transformed}
    (h : Pass.transform ps program = .ok t) :
    Stages (fun _ _ _ => True) ps program.body t.reports t.program.body := by
  rw [Pass.transform, Pass.transformChecked] at h
  cases hrun : Pass.runChecked (fun (_ : Unit) _ _ => ((), (.ok () : Except Empty Unit))) ps ()
      program.body with
  | mk u r =>
    rw [hrun] at h
    cases r with
    | ok r =>
      cases h
      exact (Pass.stages_of_runChecked hrun).mono fun _ _ _ _ _ _ _ => trivial
    | error halt =>
      cases halt with
      | breach b => cases h
      | refused reason => cases reason

end CheckedPass
