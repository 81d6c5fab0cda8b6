import CheckedPass.Pass.Catalogue
import CheckedPass.Proofs.Answers
import CheckedPass.Proofs.Everywhere
import CheckedPass.Schedule
/-!
# What the contract of a pass gives

A pass that passes its contract check on a tree whose nodes are all within its precondition goes
through the tree without breaking a condition, whatever the pass does. A pass that meets three
obligations for all nodes is not blamed on any tree, and passes the check unless the relation of
some part of the tree to what comes out of it has no answer.
-/

namespace CheckedPass

namespace Pass

variable {p : Pass} {j : Judge} {e : Expr}

private theorem checkNode_eq_ok_iff :
    p.checkNode j e = .ok () ↔ (p.applicable e = true →
      (p.childrenPost e = true → p.applicable (e.mapChildren p.attempt) = true) ∧
      (p.applicable (e.mapChildren p.attempt) = true →
        (p.childrenPost e = true → p.deepPost (p.apply (e.mapChildren p.attempt)) = true) ∧
        p.relationLifted j e (p.apply (e.mapChildren p.attempt)) = .ok true)) := by
  simp only [checkNode]
  cases p.applicable e <;> cases p.applicable (e.mapChildren p.attempt) <;>
    cases p.childrenPost e <;> cases p.deepPost (p.apply (e.mapChildren p.attempt)) <;>
    rcases p.relationLifted j e (p.apply (e.mapChildren p.attempt)) with _ | _ | _ <;> simp

private theorem relationLifted_eq (hc : p.childrenRelated j e = .ok true) (output : Expr) :
    p.relationLifted j e output = p.related j e output := by
  rw [relationLifted, hc]
  rfl

private theorem checkEach_append (es fs : List Expr) :
    p.checkEach j (es ++ fs) = (do p.checkEach j es; p.checkEach j fs) := by
  induction es with
  | nil => rfl
  | cons e es ih =>
    simp only [List.cons_append, checkEach, ih]
    rw [bind_assoc]

private theorem checkEach_singleton (e : Expr) : p.checkEach j [e] = p.checkAll j e := by
  rw [checkEach]
  cases p.checkAll j e with
  | ok _ => rfl
  | error _ => rfl

private theorem checkAll_eq (e : Expr) :
    p.checkAll j e = (do p.checkEach j e.children; p.checkNode j e) := by
  cases e with
  | var x => rfl
  | lit a => rfl
  | fn params body => rw [checkAll, Expr.children, checkEach_singleton]
  | app op args => rfl
  | block items => rfl
  | cond test yes no =>
    rw [checkAll, Expr.children, checkEach, checkEach, checkEach_singleton]
    simp only [bind_assoc]
  | bind vars vals body =>
    rw [checkAll, Expr.children, checkEach_append, checkEach_singleton]
    simp only [bind_assoc]

private theorem andThen_eq_ok_iff {x y : Except Objection Unit} :
    (do x; y) = .ok () ↔ x = .ok () ∧ y = .ok () := by
  cases x with
  | error v => exact ⟨fun h => (by cases h), fun h => (by cases h.1)⟩
  | ok u => exact ⟨fun h => ⟨rfl, h⟩, fun h => h.2⟩

private theorem checkEach_eq_ok_iff {es : List Expr} :
    p.checkEach j es = .ok () ↔ ∀ e ∈ es, p.checkAll j e = .ok () := by
  induction es with
  | nil => simp [checkEach]
  | cons e es ih => rw [checkEach, andThen_eq_ok_iff, ih, List.forall_mem_cons]

private theorem checkAll_eq_ok_iff :
    p.checkAll j e = .ok () ↔
      (∀ c ∈ e.children, p.checkAll j c = .ok ()) ∧ p.checkNode j e = .ok () := by
  rw [checkAll_eq, andThen_eq_ok_iff, checkEach_eq_ok_iff]

/-- The pass goes through `e` without breaking a condition and leaves what it leaves unchecked. What
it leaves satisfies the postcondition throughout and is related to `e`. -/
structure Delivers (p : Pass) (j : Judge) (e : Expr) : Prop where
  unbroken : ∃ n, p.everywhere e = .ok (p.attempt e, n)
  deepPost : p.deepPost (p.attempt e) = true
  related : p.related j e (p.attempt e) = .ok true

theorem attempt_eq_apply (ha : p.applicable (e.mapChildren p.attempt) = true) :
    p.attempt e = p.apply (e.mapChildren p.attempt) := by
  rw [attempt_eq, applyWhereApplicable, if_pos ha]

/-- The contract at the root carries what the pass delivers from the children to the tree. -/
theorem Delivers.of_children (hc : ∀ c ∈ e.children, p.Delivers j c)
    (hclosed : p.childrenPost e = true → p.applicable (e.mapChildren p.attempt) = true)
    (hprop : p.childrenPost e = true → p.applicable (e.mapChildren p.attempt) = true →
      p.deepPost (p.apply (e.mapChildren p.attempt)) = true)
    (hlift : p.childrenRelated j e = .ok true → p.applicable (e.mapChildren p.attempt) = true →
      p.related j e (p.apply (e.mapChildren p.attempt)) = .ok true) : p.Delivers j e := by
  have hpost : p.childrenPost e = true := List.all_eq_true.mpr fun c hmem => (hc c hmem).deepPost
  have hrel : p.childrenRelated j e = .ok true :=
    allM_eq_true_iff.mpr fun c hmem => (hc c hmem).related
  have ha := hclosed hpost
  have hout := attempt_eq_apply ha
  have hdeep : p.deepPost (p.attempt e) = true := hout ▸ hprop hpost ha
  exact {
    unbroken := p.everywhere_eq_attempt (fun c hmem => (hc c hmem).unbroken) ha
      (p.post_of_deepPost hdeep)
    deepPost := hdeep
    related := hout ▸ hlift hrel ha }

/-- The contract check vouches for a tree whose nodes are all within the precondition. -/
private theorem delivers_of_checkAll (hn : ∀ n ∈ e.nodes, p.applicable n = true)
    (h : p.checkAll j e = .ok ()) : p.Delivers j e := by
  induction e using Expr.children_induction with
  | step e ih =>
    obtain ⟨hchildren, hnode⟩ := checkAll_eq_ok_iff.mp h
    obtain ⟨hclosed, hrest⟩ := checkNode_eq_ok_iff.mp hnode (hn e e.mem_nodes_self)
    refine .of_children (fun c hc => ih c hc ?_ (hchildren c hc)) hclosed
      (fun hpost ha => (hrest ha).1 hpost) fun hrel ha => ?_
    · exact fun n hmem => hn n (Expr.mem_nodes_of_child hc hmem)
    · rw [← relationLifted_eq hrel]
      exact (hrest ha).2

/-- What a pass owes at every node, for the sake of whole trees. -/
structure Obligations (p : Pass) (j : Judge) : Prop where
  /-- A node within the precondition stays within it over children that satisfy the postcondition
  throughout. -/
  closed : ∀ (n n' : Expr) (cs : List Expr), p.applicable n = true →
    cs.length = n.children.length → (∀ c ∈ cs, p.deepPost c = true) →
    n.replaceChildren cs = .ok n' → p.applicable n' = true
  /-- Over children that satisfy the postcondition throughout, the pass leaves something that
  does. -/
  propagates : ∀ n : Expr, p.applicable n = true → (∀ c ∈ n.children, p.deepPost c = true) →
    p.deepPost (p.apply n) = true
  /-- A node is related to what the pass leaves of the node over related children. -/
  lifts : ∀ (n n' : Expr) (cs : List Expr),
    List.Forall₂ (fun c c' => p.related j c c' = .ok true) n.children cs →
    n.replaceChildren cs = .ok n' → p.applicable n' = true →
    p.related j n (p.apply n') = .ok true

theorem deepPost_of_childrenPost (hpost : p.childrenPost e = true) :
    ∀ c ∈ (e.mapChildren p.attempt).children, p.deepPost c = true := by
  rw [Expr.children_mapChildren]
  exact List.forall_mem_map.mpr (List.all_eq_true.mp hpost)

namespace Obligations

private theorem closed_attempt (ho : p.Obligations j) (ha : p.applicable e = true)
    (hpost : p.childrenPost e = true) : p.applicable (e.mapChildren p.attempt) = true := by
  refine ho.closed e _ _ ha (List.length_map _) ?_ (e.replaceChildren_map p.attempt)
  exact List.forall_mem_map.mpr (List.all_eq_true.mp hpost)

private theorem propagates_attempt (ho : p.Obligations j) (hpost : p.childrenPost e = true)
    (ha : p.applicable (e.mapChildren p.attempt) = true) :
    p.deepPost (p.apply (e.mapChildren p.attempt)) = true :=
  ho.propagates _ ha (deepPost_of_childrenPost hpost)

private theorem lifts_attempt (ho : p.Obligations j) (hrel : p.childrenRelated j e = .ok true)
    (ha : p.applicable (e.mapChildren p.attempt) = true) :
    p.related j e (p.apply (e.mapChildren p.attempt)) = .ok true := by
  refine ho.lifts e _ _ ?_ (e.replaceChildren_map p.attempt) ha
  rw [List.forall₂_map_right_iff, List.forall₂_same]
  exact allM_eq_true_iff.mp hrel

end Obligations

/-- No debt that is not met: for some part of `e`, the relation to what comes out of it has no
answer. -/
def RelationEnds (p : Pass) (j : Judge) (e : Expr) : Objection → Prop
  | .violation _ => False
  | .ended error => ∃ n ∈ e.nodes, p.related j n (p.attempt n) = .error error

theorem checkNode_endsIn {E : Objection → Prop}
    (hclosed : p.applicable e = true → p.childrenPost e = true →
      p.applicable (e.mapChildren p.attempt) = false →
        E (.violation (.notClosedUnderChildren p.name e (e.mapChildren p.attempt))))
    (hprop : p.childrenPost e = true → p.applicable (e.mapChildren p.attempt) = true →
      p.deepPost (p.apply (e.mapChildren p.attempt)) = false →
        E (.violation (.postconditionNotPropagated p.name (p.apply (e.mapChildren p.attempt)))))
    (hlift : p.applicable (e.mapChildren p.attempt) = true →
      EndsIn (fun error => E (.ended error))
        (fun b => b = false →
          E (.violation (.relationBroken p.name e (p.apply (e.mapChildren p.attempt)))))
        (p.relationLifted j e (p.apply (e.mapChildren p.attempt)))) :
    EndsIn E (fun _ => True) (p.checkNode j e) := by
  simp only [checkNode]
  cases ha : p.applicable e with
  | false => exact .ok trivial
  | true =>
    cases ha' : p.applicable (e.mapChildren p.attempt) with
    | false =>
      cases hpost : p.childrenPost e with
      | false => exact .ok trivial
      | true => exact .error (hclosed ha hpost ha')
    | true =>
      cases hblame : p.childrenPost e && !p.deepPost (p.apply (e.mapChildren p.attempt)) with
      | true =>
        obtain ⟨hpost, hdeep⟩ := Bool.and_eq_true_iff.mp hblame
        exact .error (hprop hpost ha' (Bool.not_eq_true' _ ▸ hdeep))
      | false =>
        have hlifted := hlift ha'
        simp only [Bool.not_true, Bool.false_eq_true, if_false]
        generalize p.relationLifted j e (p.apply (e.mapChildren p.attempt)) = x at hlifted
        match x, hlifted with
        | .ok true, _ => exact .ok trivial
        | .ok false, .ok h => exact .error (h rfl)
        | .error _, .error h => exact .error h

private theorem checkEach_endsIn {E : Objection → Prop} {es : List Expr}
    (h : ∀ e ∈ es, EndsIn E (fun _ => True) (p.checkAll j e)) :
    EndsIn E (fun _ => True) (p.checkEach j es) := by
  induction es with
  | nil => exact .ok trivial
  | cons e es ih =>
    obtain ⟨he, hes⟩ := List.forall_mem_cons.mp h
    rw [checkEach]
    exact he.bind fun _ _ => ih hes

theorem checkAll_endsIn {E : Objection → Prop}
    (h : ∀ n ∈ e.nodes, EndsIn E (fun _ => True) (p.checkNode j n)) :
    EndsIn E (fun _ => True) (p.checkAll j e) := by
  induction e using Expr.children_induction with
  | step e ih =>
    rw [checkAll_eq]
    refine (checkEach_endsIn fun c hc => ih c hc fun n hn => h n ?_).bind fun _ _ =>
      h e e.mem_nodes_self
    exact Expr.mem_nodes_of_child hc hn

theorem relationLifted_endsIn {E : EvalError → Prop} {Q : Bool → Prop} {output : Expr}
    (htrue : Q true)
    (hchildren : ∀ c ∈ e.children, EndsIn E (fun _ => True) (p.related j c (p.attempt c)))
    (hnode : p.childrenRelated j e = .ok true → EndsIn E Q (p.related j e output)) :
    EndsIn E Q (p.relationLifted j e output) := by
  have hends : EndsIn E (fun _ => True) (p.childrenRelated j e) := .allM trivial hchildren
  match hrel : p.childrenRelated j e with
  | .error error =>
    rw [relationLifted, hrel]
    exact .error (hends.of_eq_error hrel)
  | .ok false =>
    rw [relationLifted, hrel]
    exact .ok htrue
  | .ok true =>
    rw [relationLifted_eq hrel]
    exact hnode hrel

private theorem related_endsIn {n : Expr} (hn : n ∈ e.nodes) :
    EndsIn (fun error => p.RelationEnds j e (.ended error)) (fun _ => True)
      (p.related j n (p.attempt n)) := by
  cases h : p.related j n (p.attempt n) with
  | ok _ => exact .ok trivial
  | error _ => exact .error ⟨n, hn, h⟩

private theorem related_children_endsIn {n : Expr} (hn : n ∈ e.nodes) :
    ∀ c ∈ n.children, EndsIn (fun error => p.RelationEnds j e (.ended error)) (fun _ => True)
      (p.related j c (p.attempt c)) := fun c hc =>
  related_endsIn (Expr.mem_nodes_trans (Expr.mem_nodes_of_child hc c.mem_nodes_self) hn)

/-- A pass that meets its obligations is never blamed. -/
theorem Obligations.checkAll_endsIn (ho : p.Obligations j) (e : Expr) :
    EndsIn (p.RelationEnds j e) (fun _ => True) (p.checkAll j e) := by
  refine Pass.checkAll_endsIn fun n hn => checkNode_endsIn (fun ha hpost hnot => ?_)
    (fun hpost ha hnot => ?_) fun ha => ?_
  · rw [ho.closed_attempt ha hpost] at hnot
    cases hnot
  · rw [ho.propagates_attempt hpost ha] at hnot
    cases hnot
  · refine relationLifted_endsIn (fun h => (by cases h)) (related_children_endsIn hn) ?_
    intro hrel
    rw [ho.lifts_attempt hrel ha]
    exact .ok fun h => (by cases h)

/-- An objection is a debt that is not met, or the relation has no answer. -/
theorem objection_of_checkAll {o : Objection} (h : p.checkAll j e = .error o) :
    (∃ v, o = .violation v) ∨ p.RelationEnds j e o := by
  have hends : EndsIn (fun o => (∃ v, o = .violation v) ∨ p.RelationEnds j e o) (fun _ => True)
      (p.checkAll j e) := by
    refine checkAll_endsIn fun n hn => checkNode_endsIn (fun _ _ _ => .inl ⟨_, rfl⟩)
      (fun _ _ _ => .inl ⟨_, rfl⟩) fun ha => ?_
    have hlifted : EndsIn (fun error => p.RelationEnds j e (.ended error)) (fun _ => True)
        (p.relationLifted j n (p.attempt n)) :=
      relationLifted_endsIn trivial (related_children_endsIn hn) fun _ => related_endsIn hn
    rw [← attempt_eq_apply ha]
    exact (hlifted.mono_error fun _ => .inr).mono fun _ _ _ => .inl ⟨_, rfl⟩
  exact hends.of_eq_error h

theorem deepPost_of_children (hpost : p.post e = true)
    (hc : ∀ c ∈ e.children, p.deepPost c = true) : p.deepPost e = true := by
  rw [deepPost, Expr.all_eq]
  exact Bool.and_eq_true_iff.mpr ⟨hpost, List.all_eq_true.mpr hc⟩

private theorem delivers_of_cleared (ha : ∀ n, p.applicable n = true)
    (h : Cleared (fun (_ : Unit) p e => ((), p.checkAll j e)) p e) : p.Delivers j e := by
  obtain ⟨_, _, hcheck⟩ := h
  exact delivers_of_checkAll (fun n _ => ha n) (Prod.mk.inj hcheck).2

end Pass

/-- The passes go through the program, and each leaves what its contract says. -/
def Schedule.GoesThrough (s : Schedule) (program : Program) : Prop :=
  ∃ t, s.transform program = .ok t ∧
    Stages (fun p before after =>
        p.deepPost after = true ∧ p.related s.judge before after = .ok true)
      s.passes program.body t.reports t.program.body

/-- With contracts checked, passes within their preconditions everywhere never break off. Either
the check refuses one of them, or each leaves what its contract says, or the relation of one of them
has no answer. -/
private theorem Schedule.transform_refused_or_stages {s : Schedule}
    (hs : s.settings.checkContracts = true) (ha : ∀ p ∈ s.passes, ∀ e, p.applicable e = true)
    (program : Program) :
    (∃ v, s.transform program = .error (.contract v)) ∨ s.GoesThrough program ∨
      ∃ error, s.transform program = .error (.eval error) ∧
        ∃ p ∈ s.passes, ∃ e, p.related s.judge e (p.attempt e) = .error error := by
  rw [GoesThrough, transform, if_pos hs, Pass.transformChecked]
  cases hrun : Pass.runChecked (fun (_ : Unit) p e => ((), p.checkAll s.judge e)) s.passes ()
      program.body with
  | mk u r =>
    cases r with
    | ok r =>
      refine .inr (.inl ⟨_, rfl, (Pass.stages_of_runChecked hrun).mono ?_⟩)
      intro p hp e e' n hev hcleared
      have hd := Pass.delivers_of_cleared (ha p hp) hcleared
      rw [p.eq_attempt_of_everywhere hev]
      exact ⟨hd.deepPost, hd.related⟩
    | error halt =>
      obtain ⟨p, hp, e, hhalt⟩ := Pass.halt_of_runChecked hrun
      cases halt with
      | refused objection =>
        obtain ⟨_, _, hcheck⟩ := hhalt
        cases objection with
        | violation v => exact .inl ⟨v, rfl⟩
        | ended error =>
          rcases Pass.objection_of_checkAll (Prod.mk.inj hcheck).2 with ⟨v, hv⟩ | hends
          · cases hv
          · obtain ⟨n, -, hrelated⟩ := hends
            exact .inr (.inr ⟨error, rfl, p, hp, n, hrelated⟩)
      | breach b =>
        obtain ⟨hcleared, hev⟩ := hhalt
        obtain ⟨n, hok⟩ := (Pass.delivers_of_cleared (ha p hp) hcleared).unbroken
        rw [hev] at hok
        cases hok

/-- The contract check is sound for every pass, and a schedule that checks contracts is safe: it
ends in a violation or goes through, if the relations of its passes have answers. Without that it
may also end where one has none. The judge of a schedule finds any two expressions equivalent or
not, so this does not happen to passes that are related by it. -/
theorem contract_check_vouches :
    (∀ (p : Pass) (j : Judge) (e : Expr), (∀ n ∈ e.nodes, p.applicable n = true) →
      p.checkAll j e = .ok () → p.Delivers j e) ∧
    (∀ (s : Schedule) (program : Program), s.settings.checkContracts = true →
      (∀ p ∈ s.passes, ∀ e, p.applicable e = true) →
      (∃ v, s.transform program = .error (.contract v)) ∨ s.GoesThrough program ∨
        ∃ error, s.transform program = .error (.eval error) ∧
          ∃ p ∈ s.passes, ∃ e, p.related s.judge e (p.attempt e) = .error error) ∧
    (∀ (s : Schedule) (program : Program), s.settings.checkContracts = true →
      (∀ p ∈ s.passes, ∀ e, p.applicable e = true) →
      (∀ p ∈ s.passes, ∀ e, (p.related s.judge e (p.attempt e)).Answers) →
      (∃ v, s.transform program = .error (.contract v)) ∨ s.GoesThrough program) ∧
    ∀ (s : Schedule) (before after : Expr), (s.judge.equivalent before after).Answers := by
  refine ⟨fun _ _ _ hn h => Pass.delivers_of_checkAll hn h,
    fun _ program hs ha => Schedule.transform_refused_or_stages hs ha program,
    fun _ program hs ha hanswers => ?_,
    fun s => (Judge.ofBudget_wellFormed s.settings.budget).equivalent_answers⟩
  rcases Schedule.transform_refused_or_stages hs ha program with
    hrefused | hthrough | ⟨error, -, p, hp, e, herror⟩
  · exact .inl hrefused
  · exact .inr hthrough
  · exact absurd herror (hanswers p hp e).ne_error

/-- A disequation under a function: the check passes, and the schedule goes through. -/
theorem contract_check_vouches_disequation :
    let e : Expr := .fn ["y"] (.binary (.equality .neq) (.int 3) (.var "y"))
    let s : Schedule := .ofSettings ⟨64, .standard, true⟩
    Pass.eliminateNegated.Delivers (.ofBudget .standard) e ∧
      ((∃ v, s.transform ⟨e⟩ = .error (.contract v)) ∨ s.GoesThrough ⟨e⟩) := by
  intro e s
  obtain ⟨hvouches, -, hsafe, hanswers⟩ := contract_check_vouches
  refine ⟨hvouches _ _ _ (fun _ _ => rfl) rfl, ?_⟩
  refine hsafe s ⟨e⟩ rfl (fun p hp n => ?_) fun p hp n => ?_
  · rw [List.mem_singleton.mp hp]
    rfl
  · rw [List.mem_singleton.mp hp]
    exact hanswers s n _

end CheckedPass
