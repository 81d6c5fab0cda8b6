import CheckedPass.Pass.Catalogue
import CheckedPass.Proofs.Bisimulation
import CheckedPass.Proofs.Negation
import CheckedPass.Proofs.Ordered
/-!
# Local soundness

A pass is locally sound if in every ordered environment each single node does what the node it is
replaced by does. A program sent through locally sound passes still does what it did: outside
functions its value is the same, and each function stays a function of the same parameters. The
order counts: the union of two sets is the union of the second with the first only if both ascend.
-/

namespace CheckedPass

namespace Value

/-- Functions of the same parameters. -/
def sameParams : Value → Value → Bool
  | .closure _ ps _, .closure _ qs _ => ps = qs
  | _, _ => false

/-- The same outside functions, with functions of the same parameters in the same places. -/
def sameOutline (v w : Value) : Bool :=
  match v.agreeBy (fun _ f g => return sameParams f g) w with
  | .ok same => same
  | .error _ => false

private theorem sameOutline_iff {v w : Value} : v.sameOutline w = true ↔
    v.agreeBy (fun _ f g => return sameParams f g) w = .ok true := by
  rw [sameOutline]
  cases v.agreeBy (fun _ f g => return sameParams f g) w <;> simp

private theorem sameOutline_likeness : Likeness fun v w => v.sameOutline w = true := by
  simp only [sameOutline_iff]
  refine { toStructural := agreeBy_structural, refl := fun v => accepts_iff_eq_true.mp ?_ }
  refine eq_likeness.agreeBy_accepts (fun env ps b env' qs c heq => ?_) rfl
  cases heq
  exact ⟨rfl, .ok (decide_eq_true rfl)⟩

private theorem sameOutline_closure {env env' : Env} {ps qs : List String} {b c : Expr} :
    (closure env ps b).sameOutline (closure env' qs c) = true ↔ ps = qs := by
  rw [sameOutline_iff, agreeBy]
  split
  · exact ⟨fun h => of_decide_eq_true (Except.ok.inj h), fun h => congrArg _ (decide_eq_true h)⟩
  · rename_i hlen
    exact ⟨fun h => (by cases h), fun h => absurd (congrArg List.length h) hlen⟩

private theorem sameOutline_of_upToBodies {R : Expr → Expr → Prop} (hR : ∀ b, R b b) {u v w : Value}
    (huv : UpToBodies R u v) (hvw : v.sameOutline w = true) : u.sameOutline w = true := by
  have houtline := sameOutline_likeness.toStructural
  refine (upToBodies_likeness hR).comp houtline houtline ?_ huv hvw
  intro f g h hf hfg hgh
  cases hfg with
  | @closure env env' ps b b' =>
    obtain ⟨env₂, qs, c, rfl⟩ := sameOutline_likeness.closure_left hgh
    exact sameOutline_closure.mpr (sameOutline_closure.mp hgh)
  | flat => exact hgh
  | _ => cases hf

end Value

/-- Steps that do not look at one another's results may be taken the other way round, up to which
of their errors comes first. -/
private theorem together_swap {α β γ δ : Type} {A : γ → δ → Prop} {x : EvalResult α}
    {y : EvalResult β} {f : α → β → EvalResult γ} {g : α → β → EvalResult δ}
    (h : ∀ a b, x = .ok a → y = .ok b → Together (fun _ _ => True) A (f a b) (g a b)) :
    Together (fun _ _ => True) A (x >>= fun a => y >>= fun b => f a b)
      (y >>= fun b => x >>= fun a => g a b) := by
  cases x with
  | ok a =>
    cases y with
    | ok b => exact h a b rfl rfl
    | error _ => exact .error trivial
  | error _ =>
    cases y with
    | ok _ => exact .error trivial
    | error _ => exact .error trivial

private theorem BinaryOp.union_apply_comm {v w : Value} (hv : v.isOrdered = true)
    (hw : w.isOrdered = true) :
    Together (fun _ _ => True) Eq ((BinaryOp.set .union).apply v w)
      ((BinaryOp.set .union).apply w v) := by
  have hordered := Value.isOrdered_hereditary
  change Together _ _ (SetOp.union.onSets v w _) (SetOp.union.onSets w v _)
  unfold SetOp.onSets
  refine together_swap fun xs ys hxs hys => ?_
  have hasc := ((Value.asSet_passes hordered hv _).of_eq_ok hxs).1 trivial
  have hasc' := ((Value.asSet_passes hordered hw _).of_eq_ok hys).1 trivial
  exact .ok (congrArg Value.set (Ascending.union_comm hasc hasc'))

namespace Pass

/-- In ordered environments, every node and what the pass leaves of it fail together, or succeed
with one result. -/
def LocallySound (p : Pass) : Prop :=
  ∀ (n : Expr) (fuel : Nat) (env : OrderedEnv),
    Together (fun _ _ => True) Eq (n.eval fuel env.bindings) ((p.apply n).eval fuel env.bindings)

theorem LocallySound.keepsNodes {p : Pass} (hp : p.LocallySound) :
    p.KeepsNodes .ordered fun _ _ => True := fun n fuel env henv =>
  hp n fuel ⟨env, henv.1, Value.isOrderedEnv_iff.mpr henv.2⟩

private theorem eliminateNegated_locallySound : eliminateNegated.LocallySound := fun n fuel env =>
  (eliminateNegated_keepsNodes n fuel env.bindings trivial).mono (fun _ _ _ => trivial)
    fun _ _ => id

private theorem unwrapBlock_locallySound : unwrapBlock.LocallySound := by
  intro n fuel env
  have halone : Together (fun _ _ => True) Eq (n.eval fuel env.bindings)
      (n.eval fuel env.bindings) :=
    .refl (fun _ => trivial) (fun _ => rfl) _
  cases n with
  | block items =>
    match items with
    | [item] =>
      have hitem : (Expr.block [item]).eval fuel env.bindings = item.eval fuel env.bindings := by
        simp only [Expr.eval, Expr.evalWith, Expr.evalListWith]
        cases item.evalWith (Value.call fuel) env.bindings with
        | ok r => rfl
        | error x => rfl
      exact hitem ▸ halone
    | [] | _ :: _ :: _ => exact halone
  | _ => exact halone

/-- A union with its operands the other way round. -/
def swapUnion? : Expr → Option Expr
  | .app (.eager (.binary (.set .union))) [lhs, rhs] => some (.binary (.set .union) rhs lhs)
  | _ => none

/-- Unions have their operands swapped. -/
def swapUnions : Pass where
  name := "swap-unions"
  step := swapUnion?
  post _ := true

private theorem swapUnions_locallySound : swapUnions.LocallySound := by
  -- Both operands yield values in order, since the environment is.
  intro n fuel env
  change Together _ _ (n.eval fuel env.bindings) (((swapUnion? n).getD n).eval fuel env.bindings)
  fun_cases swapUnion? n with
  | case1 lhs rhs =>
    have hl := Realm.valueWith_holds lhs fuel env.fits
    have hr := Realm.valueWith_holds rhs fuel env.fits
    simp only [Option.getD_some, Expr.eval_eq_valueWith, Expr.binary, Expr.valueWith_eager]
    refine Together.bind (A := Eq) ?_ fun v w hvw => .ok (by rw [hvw])
    simp only [List.mapM_cons, List.mapM_nil, bind_assoc, pure_bind]
    exact together_swap fun v w hv hw => BinaryOp.union_apply_comm (hl v hv) (hr w hw)
  | case2 => exact .refl (fun _ => trivial) (fun _ => rfl) _

end Pass

private theorem Stages.eval_sameOutline {Q : Pass → Expr → Expr → Prop} {ps : List Pass}
    {e out : Expr} {rs : List Report} (h : Stages Q ps e rs out) (hs : ∀ p ∈ ps, p.LocallySound)
    (fuel : Nat) (env : OrderedEnv) :
    Together (fun _ _ => True) (fun r r' => r.1.sameOutline r'.1 = true ∧ r.2 = r'.2)
      (e.eval fuel env.bindings) (out.eval fuel env.bindings) := by
  induction h with
  | done e => exact .refl (fun _ => trivial) (fun r => ⟨Value.sameOutline_likeness.refl r.1, rfl⟩) _
  | @next p ps e e' out n rs hp _ _ ih =>
    have hfirst := (hs p List.mem_cons_self).keepsNodes.attempt (fun _ => trivial)
      (fun _ _ _ _ _ => trivial) e fuel env.fits
    have hrest := ih fun q hq => hs q (List.mem_cons_of_mem _ hq)
    rw [← p.eq_attempt_of_everywhere hp] at hfirst
    refine hfirst.trans hrest (fun _ _ _ _ _ => trivial) ?_
    intro r r₁ r' h h'
    have hv : r.1.sameOutline r'.1 = true :=
      Value.sameOutline_of_upToBodies (fun _ => .inl rfl) h.1 h'.1
    exact ⟨hv, h.2.trans h'.2⟩

/-- A program sent through locally sound passes does what it did, with every fuel and in every
ordered environment. Both fail, or both succeed, with equal environments and with values of one
outline; a first-order value is unchanged. -/
theorem transform_preserves_outline (passes : List Pass) (hs : ∀ p ∈ passes, p.LocallySound)
    (program : Program) (t : Transformed) (ht : Pass.transform passes program = .ok t) (fuel : Nat)
    (env : OrderedEnv) :
    Together (fun _ _ => True)
      (fun r r' => r.2 = r'.2 ∧ r.1.sameOutline r'.1 = true ∧
        (r.1.isFirstOrder = true → r'.1 = r.1))
      (program.body.eval fuel env.bindings) (t.program.body.eval fuel env.bindings) := by
  refine ((Pass.stages_of_transform ht).eval_sameOutline hs fuel env).mono (fun _ _ => id) ?_
  intro r r' h
  obtain ⟨hv, henv⟩ := h
  have hfirst := Value.sameOutline_likeness.firstOrder hv
  exact ⟨henv, hv, fun h => (hfirst.2 h).symm⟩

/-- A function and a call of it, through three passes that all have something to do. -/
theorem transform_preserves_outline_threePasses :
    let union (first second : String) : Expr := .binary (.set .union) (.var first) (.var second)
    let f : Expr := .fn ["y"] (.block [.binary (.equality .neq) (union "s" "y") (.var "y")])
    let f' : Expr := .fn ["y"] (.unary .not (.binary (.equality .eq) (union "y" "s") (.var "y")))
    let body (f : Expr) : Expr :=
      .bind ["f"] [f] (.display .seq [.var "f", .call (.var "f") [.var "s"]])
    let passes : List Pass := [.eliminateNegated, .unwrapBlock, .swapUnions]
    (∀ p ∈ passes, p.LocallySound) ∧
      Pass.transform passes ⟨body f⟩ =
        .ok ⟨⟨body f'⟩,
          [⟨"eliminate-negated-binops", 1⟩, ⟨"unwrap-block", 1⟩, ⟨"swap-unions", 1⟩]⟩ ∧
      ∀ fuel (env : OrderedEnv), Together (fun _ _ => True)
        (fun r r' => r.2 = r'.2 ∧ r.1.sameOutline r'.1 = true ∧
          (r.1.isFirstOrder = true → r'.1 = r.1))
        ((body f).eval fuel env.bindings) ((body f').eval fuel env.bindings) := by
  intro union f f' body passes
  have hs : ∀ p ∈ passes, p.LocallySound :=
    List.forall_mem_cons.mpr ⟨Pass.eliminateNegated_locallySound,
      List.forall_mem_cons.mpr ⟨Pass.unwrapBlock_locallySound,
        List.forall_mem_singleton.mpr Pass.swapUnions_locallySound⟩⟩
  have ht : Pass.transform passes ⟨body f⟩ =
      .ok ⟨⟨body f'⟩,
        [⟨"eliminate-negated-binops", 1⟩, ⟨"unwrap-block", 1⟩, ⟨"swap-unions", 1⟩]⟩ := rfl
  exact ⟨hs, ht, transform_preserves_outline passes hs _ _ ht⟩

end CheckedPass
