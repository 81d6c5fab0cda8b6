import CheckedPass.Proofs.Contract
import CheckedPass.Proofs.LocalSoundness
/-!
# Passes that are always accepted

A pass that keeps the meaning of every node, that may be used everywhere, that spreads its
postcondition from the children to the node, and that neither makes nor mends misfitting operand
counts is rejected by no judge on any tree, and accepted by every judge that is well-formed.
Eliminating negated operators is such a pass, and so is leaving every node alone. Checking contracts
therefore never makes a difference to a schedule that eliminates negated operators.
-/

namespace CheckedPass

/-- The judge came upon an underflow, and no debt. -/
def Objection.isUnderflow : Objection → Bool
  | .violation _ => false
  | .ended e => e.isUnderflow

namespace Expr

private theorem isInterpretable_eq (e : Expr) :
    e.isInterpretable = (e.isInterpretableNode && e.children.all isInterpretable) :=
  e.all_eq isInterpretableNode

private theorem isInterpretableNode_mapChildren (f : Expr → Expr) (e : Expr) :
    (e.mapChildren f).isInterpretableNode = e.isInterpretableNode := by
  cases e <;> simp [mapChildren, isInterpretableNode]

private theorem isInterpretable_mapChildren {f : Expr → Expr} {e : Expr}
    (h : ∀ c ∈ e.children, (f c).isInterpretable = c.isInterpretable) :
    (e.mapChildren f).isInterpretable = e.isInterpretable := by
  rw [isInterpretable_eq, isInterpretable_eq e, isInterpretableNode_mapChildren,
    children_mapChildren, List.all_map]
  congr 1
  rw [Bool.eq_iff_iff, List.all_eq_true, List.all_eq_true]
  exact forall₂_congr fun c hc => by rw [Function.comp_apply, h c hc]

end Expr

namespace Pass

variable {p : Pass}

/-- A pass that no judge has anything to hold against. -/
structure Faultless (p : Pass) : Prop where
  applicable : ∀ e, p.applicable e = true
  /-- Over children that satisfy the postcondition throughout, the pass leaves something that
  does. -/
  propagates : ∀ n, (∀ c ∈ n.children, p.deepPost c = true) → p.deepPost (p.apply n) = true
  keepsNodes : p.KeepsNodes .all fun _ _ => True
  interpretable : ∀ n, (p.apply n).isInterpretable = n.isInterpretable
  related : p.related = Judge.equivalent

theorem eliminateNegated_faultless : eliminateNegated.Faultless where
  applicable _ := rfl
  propagates n hc := by
    have hpost := eliminateNegated_post n
    change eliminateNegated.post ((affirm? n).getD n) = true at hpost
    change eliminateNegated.deepPost ((affirm? n).getD n) = true
    revert hpost
    fun_cases affirm? n with
    | case1 op args hneg =>
      intro _
      have hinner : eliminateNegated.deepPost (.app (.eager (.binary op.positive)) args) = true :=
        deepPost_of_children
          (by simpa [eliminateNegated, isNegatedApp] using op.positive_not_isNegated) hc
      exact deepPost_of_children rfl (List.forall_mem_singleton.mpr hinner)
    | _ => exact fun hpost => deepPost_of_children hpost hc
  keepsNodes n fuel env _ :=
    (eliminateNegated_keepsNodes n fuel env trivial).mono (fun _ _ _ => trivial) fun _ _ => id
  interpretable n := by
    change ((affirm? n).getD n).isInterpretable = n.isInterpretable
    fun_cases affirm? n with
    | case1 op args hneg =>
      simp [Expr.isInterpretable_eq, Expr.unary, Expr.children, Expr.isInterpretableNode,
        Operator.arity, EagerOp.arity, Arity.accepts]
    | _ => rfl
  related := rfl

private theorem identity_faultless : identity.Faultless where
  applicable _ := rfl
  propagates _ _ := (Expr.all_iff _ _).mpr fun _ _ => rfl
  keepsNodes _ _ _ _ := .refl (fun _ => trivial) (fun _ => rfl) _
  interpretable _ := rfl
  related := rfl

private theorem KeepsNodes.bisimulation (hp : p.KeepsNodes .all fun _ _ => True) :
    Bisimulation (Value.UpToBodies p.AloneOrAttempted) where
  likeness := p.aloneOrAttempted_likeness
  params h := by
    cases h with
    | flat hflat => cases hflat
    | closure => rfl
  call hfg fuel args := by
    have hargs : List.Forall₂ (Realm.all.Like (Value.UpToBodies p.AloneOrAttempted)) args args :=
      List.forall₂_same.mpr fun v _ => ⟨p.aloneOrAttempted_likeness.refl v, trivial⟩
    exact (call_like hp (fun _ => trivial) (fun _ _ _ _ _ => trivial) fuel _ _ args args
      ⟨hfg, trivial⟩ hargs).mono (fun _ _ => id) fun _ _ => And.left

namespace Faultless

theorem attempt_eq_apply (hp : p.Faultless) (e : Expr) :
    p.attempt e = p.apply (e.mapChildren p.attempt) :=
  Pass.attempt_eq_apply (hp.applicable _)

/-- What the pass keeps of every node is kept of every tree, if a node has it as its children do. -/
theorem attempt_keeps (hp : p.Faultless) {α : Type} {m : Expr → α}
    (hnode : ∀ n, m (p.apply n) = m n)
    (hchildren : ∀ {f : Expr → Expr} {e : Expr}, (∀ c ∈ e.children, m (f c) = m c) →
      m (e.mapChildren f) = m e) (e : Expr) : m (p.attempt e) = m e := by
  induction e using Expr.children_induction with
  | step e ih => rw [hp.attempt_eq_apply, hnode, hchildren ih]

theorem isInterpretable_attempt (hp : p.Faultless) (e : Expr) :
    (p.attempt e).isInterpretable = e.isInterpretable :=
  hp.attempt_keeps hp.interpretable Expr.isInterpretable_mapChildren e

private theorem equivalent_attempt (hp : p.Faultless) (j : Judge) (e : Expr) :
    Accepts (·.isUnderflow = true) (j.equivalent e (p.attempt e)) := by
  refine hp.keepsNodes.bisimulation.equivalent j ?_ fun fuel env => ?_
  · exact fun h => (hp.isInterpretable_attempt e).trans h
  · exact hp.keepsNodes.attempt (fun _ => trivial) (fun _ _ _ _ _ => trivial) e fuel trivial

theorem checkAll_endsIn (hp : p.Faultless) (j : Judge) (e : Expr) :
    EndsIn (·.isUnderflow = true) (fun _ => True) (p.checkAll j e) := by
  -- Not by way of obligations at single nodes: that a judge accepts the children on its samples
  -- says too little about the node. The relation is not lifted, it holds outright.
  refine Pass.checkAll_endsIn fun n _ => checkNode_endsIn (fun _ _ hnot => ?_)
    (fun hpost _ hnot => ?_) fun _ => ?_
  · rw [hp.applicable] at hnot
    cases hnot
  · rw [hp.propagates _ (deepPost_of_childrenPost hpost)] at hnot
    cases hnot
  · have hrelated : ∀ c, Accepts (·.isUnderflow = true) (p.related j c (p.attempt c)) := fun c =>
      hp.related ▸ hp.equivalent_attempt j c
    rw [← hp.attempt_eq_apply]
    refine relationLifted_endsIn (fun h => (by cases h)) (fun c _ => ?_) fun _ => ?_
    · exact (hrelated c).mono fun _ _ => trivial
    · exact (hrelated n).mono fun b hb h => (by cases hb.symm.trans h)

private theorem equivalent_attempt_eq_true (hp : p.Faultless) {j : Judge} (hj : j.WellFormed)
    (e : Expr) : j.equivalent e (p.attempt e) = .ok true :=
  (hj.equivalent_answers _ _).eq_true (hp.equivalent_attempt j e)

private theorem checkAll_eq_ok (hp : p.Faultless) {j : Judge} (hj : j.WellFormed) (e : Expr) :
    p.checkAll j e = .ok () := by
  match h : p.checkAll j e with
  | .ok () => rfl
  | .error o =>
    have hunderflow := (hp.checkAll_endsIn j e).of_eq_error h
    rcases objection_of_checkAll h with ⟨v, rfl⟩ | hends
    · cases hunderflow
    · match o, hends with
      | .ended error, ⟨n, _, hrelated⟩ =>
        rw [hp.related] at hrelated
        exact absurd hrelated (hj.equivalent_answers n _).ne_error

end Faultless

end Pass

private theorem Schedule.transform_ofSettings (settings : Settings) {program : Program} {out : Expr}
    {n : Nat} (h : Pass.eliminateNegated.everywhere program.body = .ok (out, n)) :
    (ofSettings settings).transform program =
      .ok ⟨⟨out⟩, [⟨Pass.eliminateNegated.name, n⟩]⟩ := by
  rw [transform]
  split
  · have hcheck := Pass.eliminateNegated_faultless.checkAll_eq_ok
      (Judge.ofBudget_wellFormed settings.budget) program.body
    simp only [Pass.transformChecked, ofSettings, judge, Pass.runChecked, hcheck, h]
  · simp only [ofSettings, Pass.transform_singleton h]

/-- No judge rejects what eliminating negated operators leaves of an expression, and the contract
check blames neither that pass nor the one that leaves every node alone: only an underflow can keep
them from saying yes. A judge with well-formed probes and environments always does. A schedule that
eliminates negated operators succeeds on every program, with one and the same result whether
contracts are checked or not. -/
theorem judges_accept_eliminateNegated_and_identity :
    (∀ (j : Judge) (e : Expr),
      (∃ e' n, Pass.eliminateNegated.everywhere e = .ok (e', n) ∧
        Accepts (·.isUnderflow = true) (j.equivalent e e')) ∧
      EndsIn (·.isUnderflow = true) (fun _ => True) (Pass.eliminateNegated.checkAll j e) ∧
      EndsIn (·.isUnderflow = true) (fun _ => True) (Pass.identity.checkAll j e)) ∧
    (∀ j : Judge, j.WellFormed → ∀ e : Expr,
      (∃ e' n, Pass.eliminateNegated.everywhere e = .ok (e', n) ∧
        j.equivalent e e' = .ok true) ∧
      Pass.eliminateNegated.checkAll j e = .ok () ∧ Pass.identity.checkAll j e = .ok ()) ∧
    ∀ (settings : Settings) (program : Program), ∃ t, ∀ checked : Bool,
      (Schedule.ofSettings { settings with checkContracts := checked }).transform program =
        .ok t := by
  have heliminate := Pass.eliminateNegated_faultless
  refine ⟨fun j e => ?_, fun j hj e => ?_, fun settings program => ?_⟩
  · obtain ⟨n, he⟩ := Pass.eliminateNegated_everywhere e
    exact ⟨⟨_, n, he, heliminate.equivalent_attempt j e⟩, heliminate.checkAll_endsIn j e,
      Pass.identity_faultless.checkAll_endsIn j e⟩
  · obtain ⟨n, he⟩ := Pass.eliminateNegated_everywhere e
    exact ⟨⟨_, n, he, heliminate.equivalent_attempt_eq_true hj e⟩, heliminate.checkAll_eq_ok hj e,
      Pass.identity_faultless.checkAll_eq_ok hj e⟩
  · obtain ⟨n, he⟩ := Pass.eliminateNegated_everywhere program.body
    exact ⟨_, fun checked => Schedule.transform_ofSettings _ he⟩

/-- A disequation of bit-vectors, by a judge with probes and environments of its own: the magnitude
that fits its width makes it well-formed. -/
theorem judges_accept_eliminateNegated_and_identity_bitVectors :
    let j : Judge :=
      { budget := .standard
        probes := [.bitVector 3 7, Value.functionOfX (.var "x")]
        envs := some [[("x", .bitVector 3 5)]] }
    let difference : Expr := .binary (.numeric .sub) (.lit (.bitVector 3 2)) (.var "x")
    let e : Expr := .fn ["y"] (.binary (.equality .neq) difference (.var "y"))
    j.WellFormed ∧ Pass.eliminateNegated.checkAll j e = .ok () ∧
      Pass.identity.checkAll j e = .ok () ∧
      ∃ e' n, Pass.eliminateNegated.everywhere e = .ok (e', n) ∧ j.equivalent e e' = .ok true := by
  intro j difference e
  have hj : j.WellFormed :=
    { probes := by decide
      envs := fun envs henvs => by
        cases henvs
        decide }
  obtain ⟨hequivalent, heliminate, hidentity⟩ :=
    judges_accept_eliminateNegated_and_identity.2.1 j hj e
  exact ⟨hj, heliminate, hidentity, hequivalent⟩

/-- A probe with a magnitude that does not fit its width is taken from zero, and the check ends
where nothing has been changed. -/
theorem oversized_probe_ends_check :
    let j : Judge := { budget := .standard, probes := [.bitVector 0 5], envs := none }
    let e : Expr := .binary (.numeric .sub) (.lit (.bitVector 0 0)) (.var "x")
    let underflow : EvalError := .invalid (.eager (.binary (.numeric .sub))) .underflow
    ¬ j.WellFormed ∧ j.equivalent e e = .error underflow ∧
      Pass.eliminateNegated.checkAll j e = .error (.ended underflow) ∧
      Pass.identity.checkAll j e = .error (.ended underflow) := by
  intro j e underflow
  refine ⟨fun hj => ?_, by decide, by decide, by decide⟩
  have hprobe := hj.probes (.bitVector 0 5) List.mem_cons_self
  exact absurd hprobe (by decide)

end CheckedPass
