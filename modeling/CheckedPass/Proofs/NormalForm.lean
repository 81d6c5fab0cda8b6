import CheckedPass.Proofs.Acceptance
import CheckedPass.Proofs.FreeVars
import Mathlib.Algebra.BigOperators.Group.List.Basic
/-!
# Eliminating negated operators as a normal form

What comes out of the elimination of negated operators is free of them, and a tree that is free of
them is left as it is, so a second time nothing happens. Each negated operator of the tree costs one
change and one node, however deep it lies and however many operands it has. Names and operand counts
are kept.
-/

namespace CheckedPass

namespace Pass

private theorem isSome_affirm? (e : Expr) : (affirm? e).isSome = isNegatedApp e := by
  fun_cases affirm? e with
  | case1 op args hneg => exact hneg.symm
  | case2 op args hneg => simpa [isNegatedApp] using hneg
  | case3 e hother =>
    unfold isNegatedApp
    split
    · exact absurd rfl (hother _ _)
    · rfl

private theorem isNegatedApp_mapChildren (f : Expr → Expr) (e : Expr) :
    isNegatedApp (e.mapChildren f) = isNegatedApp e := by
  cases e with
  | app op args =>
    cases op with
    | lazy op => rfl
    | eager op => cases op <;> rfl
  | _ => rfl

private theorem Faultless.deepPost_attempt {p : Pass} (hp : p.Faultless) (e : Expr) :
    p.deepPost (p.attempt e) = true := by
  induction e using Expr.children_induction with
  | step e ih =>
    have hchildren : ∀ c ∈ (e.mapChildren p.attempt).children, p.deepPost c = true := by
      rw [Expr.children_mapChildren]
      exact List.forall_mem_map.mpr ih
    rw [hp.attempt_eq_apply]
    exact hp.propagates _ hchildren

private theorem eliminateNegated_eq_self {e : Expr} (he : eliminateNegated.deepPost e = true) :
    eliminateNegated.everywhere e = .ok (e, 0) := by
  have hstep : ∀ n ∈ e.nodes, affirm? n = none := by
    intro n hn
    have hpost : (!isNegatedApp n) = true := (Expr.all_iff _ e).mp he n hn
    rw [← isSome_affirm?, Option.not_isSome, Option.isNone_iff_eq_none] at hpost
    exact hpost
  exact eliminateNegated.everywhere_eq_self (fun n _ => rfl) hstep he

private theorem eliminateNegated_everywhere_count (e : Expr) :
    eliminateNegated.everywhere e =
      .ok (eliminateNegated.attempt e, e.nodes.countP isNegatedApp) := by
  induction e using Expr.children_induction with
  | step e ih =>
    have hpost := eliminateNegated_post (e.mapChildren eliminateNegated.attempt)
    have hstep : (eliminateNegated.step (e.mapChildren eliminateNegated.attempt)).isSome =
        isNegatedApp e := by
      rw [← isNegatedApp_mapChildren eliminateNegated.attempt e]
      exact isSome_affirm? _
    rw [eliminateNegated.everywhere_eq_settle ih, settle_eq_ok_iff, hstep, Expr.countP_nodes]
    refine ⟨rfl, hpost, eliminateNegated_faultless.attempt_eq_apply e, ?_⟩
    split <;> rfl

private theorem size_apply_eliminateNegated (n : Expr) :
    (eliminateNegated.apply n).size = n.size + if isNegatedApp n = true then 1 else 0 := by
  rw [← isSome_affirm?]
  change ((affirm? n).getD n).size = _
  fun_cases affirm? n with
  | case1 op args hneg => simp [Expr.unary, Expr.size, Expr.sizeList, Nat.add_comm]
  | _ => rfl

private theorem size_attempt_eliminateNegated (e : Expr) :
    (eliminateNegated.attempt e).size = e.size + e.nodes.countP isNegatedApp := by
  induction e using Expr.children_induction with
  | step e ih =>
    have hchildren : (e.children.map fun c => (eliminateNegated.attempt c).size).sum =
        (e.children.map Expr.size).sum +
          (e.children.map fun c => c.nodes.countP isNegatedApp).sum := by
      rw [← List.sum_map_add]
      exact congrArg List.sum (List.map_congr_left ih)
    rw [eliminateNegated_faultless.attempt_eq_apply, size_apply_eliminateNegated,
      isNegatedApp_mapChildren, Expr.size_eq, Expr.children_mapChildren, List.map_map,
      Expr.size_eq e, Expr.countP_nodes]
    simp only [Function.comp_def, hchildren]
    omega

private theorem freeVars_apply_eliminateNegated (n : Expr) :
    (eliminateNegated.apply n).freeVars = n.freeVars := by
  change ((affirm? n).getD n).freeVars = n.freeVars
  fun_cases affirm? n <;> rfl

private theorem freeVars_attempt_eliminateNegated (e : Expr) :
    (eliminateNegated.attempt e).freeVars = e.freeVars :=
  eliminateNegated_faultless.attempt_keeps freeVars_apply_eliminateNegated
    Expr.freeVars_mapChildren e

end Pass

/-- Eliminating negated operators computes a normal form. It never breaks off, and the postcondition
holds throughout what comes out. That is left as it is the next time, without a change. In fact a
tree is left as it is, without a change, exactly if the postcondition holds throughout it
already. -/
theorem eliminateNegated_computes_normal_form (e : Expr) :
    ∃ out n, Pass.eliminateNegated.everywhere e = .ok (out, n) ∧
      Pass.eliminateNegated.deepPost out = true ∧
      Pass.eliminateNegated.everywhere out = .ok (out, 0) ∧
      (Pass.eliminateNegated.everywhere e = .ok (e, 0) ↔
        Pass.eliminateNegated.deepPost e = true) := by
  have hrun := Pass.eliminateNegated_everywhere_count e
  have hnormal := Pass.eliminateNegated_faultless.deepPost_attempt e
  refine ⟨_, _, hrun, hnormal, Pass.eliminateNegated_eq_self hnormal, ?_,
    Pass.eliminateNegated_eq_self⟩
  intro hself
  have hout : e = Pass.eliminateNegated.attempt e :=
    Pass.eliminateNegated.eq_attempt_of_everywhere hself
  rw [hout]
  exact hnormal

/-- What the elimination of negated operators changes, and what it keeps. There is one change, and
one node more, for each node that applies a negated operator. The free variables are the same, and
so is whether operand counts fit. A program sent through this pass is reported to have that many
changes. -/
theorem eliminateNegated_accounts_for_changes (e : Expr) :
    ∃ out n, Pass.eliminateNegated.everywhere e = .ok (out, n) ∧
      n = e.nodes.countP Pass.isNegatedApp ∧ out.size = e.size + n ∧
      out.freeVars = e.freeVars ∧ out.isInterpretable = e.isInterpretable ∧
      ∃ t, Pass.transform [.eliminateNegated] ⟨e⟩ = .ok t ∧ t.program.body = out ∧
        t.totalChanges = n := by
  have hrun := Pass.eliminateNegated_everywhere_count e
  have hprogram : Pass.transform [.eliminateNegated] ⟨e⟩ = _ := Pass.transform_singleton hrun
  refine ⟨_, _, hrun, rfl, Pass.size_attempt_eliminateNegated e,
    Pass.freeVars_attempt_eliminateNegated e,
    Pass.eliminateNegated_faultless.isInterpretable_attempt e, _, hprogram, rfl, ?_⟩
  simp [Transformed.totalChanges]

/-- A negated operator with one operand too few counts like any other. -/
example :
    let e : Expr := .fn ["x"] (.app (.eager (.binary (.set .notMem)))
      [.binary (.equality .neq) (.var "x") (.var "y")])
    let out : Expr := .fn ["x"] (.unary .not (.app (.eager (.binary (.set .mem)))
      [.unary .not (.binary (.equality .eq) (.var "x") (.var "y"))]))
    Pass.eliminateNegated.everywhere e = .ok (out, 2) ∧ e.size = 5 ∧ out.size = 7 := by
  decide

end CheckedPass
