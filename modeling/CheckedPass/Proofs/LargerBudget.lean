import CheckedPass.Proofs.Samples
import CheckedPass.Proofs.Verdict
/-!
# Larger budgets

A judge that may try more fuels and more argument lists tries all that a judge with less does, since
the lists come in one order and are only cut off later. So it accepts less: whatever agrees to it
agrees to the other judge too, and no discrepancy is lost.
-/

namespace CheckedPass

namespace Judge

/-- The judges differ at most in their budgets, and the second tries at least as many fuels,
argument lists and environments. -/
structure Within (j j' : Judge) : Prop where
  probes : j.probes = j'.probes
  envs : j.envs = j'.envs
  depth : j.budget.depth = j'.budget.depth
  maxFuel : j.budget.maxFuel ≤ j'.budget.maxFuel
  maxTuples : j.budget.maxTuples ≤ j'.budget.maxTuples

namespace Within

variable {j j' : Judge} {depth : Nat}

private theorem pool_eq (h : Within j j') (depth : Nat) : j.pool depth = j'.pool depth := by
  rw [pool, h.probes, pool]

theorem mem_fuels (h : Within j j') {fuel : Nat} (hfuel : fuel ∈ j.fuels) : fuel ∈ j'.fuels := by
  rw [Judge.mem_fuels] at *
  exact Nat.le_trans hfuel (UInt64.le_iff_toNat_le.mp h.maxFuel)

private theorem mem_environmentsFor (h : Within j j') {before after : Expr} {env : Env}
    (henv : env ∈ j.environmentsFor before after) : env ∈ j'.environmentsFor before after := by
  rw [environmentsFor, ← h.envs, ← h.depth, ← h.pool_eq]
  rw [environmentsFor] at henv
  split at henv
  · exact henv
  · exact mem_environments_of_le (UInt64.le_iff_toNat_le.mp h.maxTuples) henv

theorem sameCalls (h : Within j j') {arity : Nat} {f g : Value}
    (hsame : j'.sameCalls depth arity f g = .ok true) : j.sameCalls depth arity f g = .ok true := by
  -- By induction on the depth, as the budget counts again in each comparison of what the functions
  -- return.
  induction depth generalizing arity f g with
  | zero => rfl
  | succ depth ih =>
    refine sameCalls_of_fewer (fun args hargs => ?_) (fun _ => h.mem_fuels) ?_ hsame
    · rw [h.pool_eq] at hargs
      exact mem_tuples_of_le (UInt64.le_iff_toNat_le.mp h.maxTuples) hargs
    · exact fun _ _ => agree_of_sameCalls fun _ _ _ => ih

theorem agree (h : Within j j') {v w : Value} (hagree : j'.agree depth v w = .ok true) :
    j.agree depth v w = .ok true :=
  agree_of_sameCalls (fun _ _ _ => h.sameCalls) hagree

theorem agreeEnv (h : Within j j') {env env' : Env}
    (hagree : j'.agreeEnv depth env env' = .ok true) : j.agreeEnv depth env env' = .ok true :=
  agreeEnv_of_agree (fun _ _ => h.agree) hagree

theorem agreeOutcome (h : Within j j') {x y : Outcome}
    (hagree : j'.agreeOutcome depth x y = .ok true) : j.agreeOutcome depth x y = .ok true := by
  rw [agreeOutcome_iff] at *
  exact hagree.mono (fun _ _ => id) fun _ _ ⟨hvalue, henv⟩ => ⟨h.agree hvalue, h.agreeEnv henv⟩

theorem equivalent (h : Within j j') {before after : Expr}
    (hequiv : j'.equivalent before after = .ok true) : j.equivalent before after = .ok true := by
  rw [equivalent_iff] at *
  intro hbefore
  obtain ⟨hafter, hrun⟩ := hequiv hbefore
  refine ⟨hafter, fun env henv fuel hfuel => ?_⟩
  rw [h.depth]
  exact h.agreeOutcome (hrun env (h.mem_environmentsFor henv) fuel (h.mem_fuels hfuel))

end Within

end Judge

/-- With a larger budget no discrepancy is lost: what agrees to the judge that samples more, at
whatever depth, agrees to the one that samples less, and so do expressions that are equivalent to
it. -/
theorem larger_budget_keeps_discrepancies (j j' : Judge) (h : j.Within j') :
    (∀ depth v w, j'.agree depth v w = .ok true → j.agree depth v w = .ok true) ∧
    (∀ depth env env', j'.agreeEnv depth env env' = .ok true →
      j.agreeEnv depth env env' = .ok true) ∧
    (∀ depth x y, j'.agreeOutcome depth x y = .ok true → j.agreeOutcome depth x y = .ok true) ∧
    ∀ e e', j'.equivalent e e' = .ok true → j.equivalent e e' = .ok true :=
  ⟨fun _ _ _ => h.agree, fun _ _ _ => h.agreeEnv, fun _ _ _ => h.agreeOutcome,
    fun _ _ => h.equivalent⟩

/-- The functions differ on the third probe only. The judge that stops before it accepts them, as it
accepts everything that the other one does. -/
theorem larger_budget_keeps_discrepancies_third_probe :
    let judge (maxFuel maxTuples : UInt64) : Judge :=
      { budget := { depth := 2, maxFuel := maxFuel, maxTuples := maxTuples }
        probes := [.int 0, .int 1, .int 2]
        envs := none }
    let double : Expr := .binary (.numeric .add) (.var "x") (.var "x")
    let twice : Expr := .binary (.numeric .mul) (.var "x") (.int 2)
    let square : Expr := .binary (.numeric .mul) (.var "x") (.var "x")
    let count : Expr := .cond (.binary (.equality .eq) (.var "x") (.int 2)) (.int 3) (.var "x")
    (judge 0 2).Within (judge 1 3) ∧
      (judge 1 3).equivalent (.fn ["x"] square) (.fn ["x"] count) = .ok false ∧
      (judge 0 2).equivalent (.fn ["x"] square) (.fn ["x"] count) = .ok true ∧
      (judge 1 3).equivalent double twice = .ok true ∧
      (judge 0 2).equivalent double twice = .ok true := by
  intro judge double twice square count
  have hwithin : (judge 0 2).Within (judge 1 3) := ⟨rfl, rfl, rfl, by decide, by decide⟩
  have htwice : (judge 1 3).equivalent double twice = .ok true := by decide
  refine ⟨hwithin, by decide, by decide, htwice, ?_⟩
  exact (larger_budget_keeps_discrepancies _ _ hwithin).2.2.2 _ _ htwice

end CheckedPass
