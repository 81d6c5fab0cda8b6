import CheckedPass.Proofs.Agreement
/-!
# Judges cannot tell bisimilar values apart

A likeness that calls cannot leave is a bisimulation. No judge finds that bisimilar values disagree,
at whatever depth and with whatever budget, nor does it reject expressions that run together to
bisimilar values. It accepts them, unless an underflow ends the comparison.
-/

namespace CheckedPass

theorem Value.eq_likeness : Likeness (Eq : Value → Value → Prop) where
  refl _ := rfl
  kind_eq h := congrArg kind h
  flat h _ := h
  seq {xs ys} := by rw [Value.seq.injEq, List.forall₂_eq_eq_eq]
  map {xs ys} := by
    have hkey : (SameKey Eq : Value × Value → Value × Value → Prop) = Eq := by
      funext p q
      rw [eq_iff_iff, SameKey.iff, Prod.ext_iff]
    rw [Value.map.injEq, hkey, List.forall₂_eq_eq_eq]

/-- A likeness that calls cannot leave: alike functions have equally many parameters, and called on
the same arguments with the same fuel they fail together or yield alike values. -/
structure Bisimulation (S : Value → Value → Prop) : Prop where
  likeness : Likeness S
  params : ∀ {env env' ps qs b c},
    S (.closure env ps b) (.closure env' qs c) → ps.length = qs.length
  call : ∀ {f g}, S f g → ∀ (fuel : Nat) (args : List Value),
    Together (fun _ _ => True) S (f.call fuel args) (g.call fuel args)

namespace Bisimulation

variable {S : Value → Value → Prop} {v w : Value}

theorem sameCalls (hS : Bisimulation S) (j : Judge) (depth arity : Nat) (h : S v w) :
    Accepts (·.isUnderflow = true) (j.sameCalls depth arity v w) := by
  -- By induction on the depth: what the functions return is compared at a smaller one.
  induction depth generalizing arity v w with
  | zero => exact .ok rfl
  | succ depth ih =>
    refine .allM rfl fun args _ => .allM rfl fun fuel _ => ?_
    have hrun := hS.call h fuel args
    refine EvalResult.sameBy_endsIn rfl (.inr (hrun.mono (fun _ _ => id) fun _ _ _ => trivial))
      (fun _ _ => id) (fun _ _ => id) fun r r' hr hr' => ?_
    rw [hr, hr'] at hrun
    cases hrun with
    | ok hresult =>
      exact hS.likeness.agreeBy_accepts (fun _ _ _ _ _ _ hfg => ⟨hS.params hfg, ih _ hfg⟩) hresult

theorem agree (hS : Bisimulation S) (j : Judge) (depth : Nat) (h : S v w) :
    Accepts (·.isUnderflow = true) (j.agree depth v w) :=
  hS.likeness.agreeBy_accepts
    (fun _ _ _ _ _ _ hfg => ⟨hS.params hfg, hS.sameCalls j depth _ hfg⟩) h

theorem agreeEnv (hS : Bisimulation S) (j : Judge) (depth : Nat) {env env' : Env}
    (h : List.Forall₂ (SameKey S) env env') :
    Accepts (·.isUnderflow = true) (j.agreeEnv depth env env') :=
  Judge.agreeEnv_accepts (h.imp fun _ _ => SameKey.imp fun _ _ => hS.agree j depth)

theorem agreeOutcome (hS : Bisimulation S) (j : Judge) (depth : Nat) {x y : Outcome}
    (h : Together (fun _ _ => True) (fun r r' => S r.1 r'.1 ∧ r.2 = r'.2) x y) :
    Accepts (·.isUnderflow = true) (j.agreeOutcome depth x y) := by
  refine EvalResult.sameBy_endsIn rfl (.inr (h.mono (fun _ _ => id) fun _ _ _ => trivial))
    (fun _ _ => id) (fun _ _ => id) fun r r' hr hr' => ?_
  rw [hr, hr'] at h
  cases h with
  | ok h =>
    have hsame : List.Forall₂ (SameKey S) r.2 r.2 :=
      List.forall₂_same.mpr fun q _ => .mk q.1 (hS.likeness.refl q.2)
    exact (hS.agree j depth h.1).andM (hS.agreeEnv j depth (h.2 ▸ hsame))

/-- No judge rejects an expression that always runs together with what it was before, if it is
interpretable where that was: the judge accepts it, unless it ends by underflow. -/
theorem equivalent (hS : Bisimulation S) (j : Judge) {before after : Expr}
    (hform : before.isInterpretable = true → after.isInterpretable = true)
    (hrun : ∀ fuel env, Together (fun _ _ => True) (fun r r' => S r.1 r'.1 ∧ r.2 = r'.2)
      (before.eval fuel env) (after.eval fuel env)) :
    Accepts (·.isUnderflow = true) (j.equivalent before after) :=
  Judge.equivalent_accepts fun hbefore =>
    ⟨hform hbefore, fun env _ fuel _ => hS.agreeOutcome j _ (hrun fuel env)⟩

end Bisimulation

end CheckedPass
