import CheckedPass.Pass.Negation
import CheckedPass.Proofs.Preservation
/-!
# Negated operators

A negated operator yields the negation of what its positive form yields. Where one of them fails so
does the other, and the errors differ in the operator they name only. Eliminating negated operators
therefore keeps what every expression does, down to its errors.
-/

namespace CheckedPass

private theorem BinaryOp.positive_positive (op : BinaryOp) :
    op.positive.positive = op.positive := by
  fun_cases BinaryOp.positive op with
  | case10 => simp only [BinaryOp.positive]
  | _ => rfl

private theorem BinaryOp.isNegated_iff (op : BinaryOp) :
    op.isNegated = true ↔ op.positive ≠ op := by
  rw [isNegated, decide_eq_true_iff]

theorem BinaryOp.positive_not_isNegated (op : BinaryOp) : ¬op.positive.isNegated = true := by
  rw [isNegated_iff, positive_positive]
  exact not_not_intro rfl

namespace EvalError

/-- One and the same mismatch, met by `op` and by `op'`. -/
inductive MetBy (op op' : Operator) : EvalError → EvalError → Prop where
  | mk (expected : Expectation) (found : Finding) :
    MetBy op op' (.typeMismatch (.operator op) expected found)
      (.typeMismatch (.operator op') expected found)

/-- The same error, or the same mismatch met by a negated operator and by its positive form. -/
def UpToPositive (x y : EvalError) : Prop :=
  x = y ∨ ∃ op : BinaryOp, op.isNegated = true ∧
    MetBy (.eager (.binary op)) (.eager (.binary op.positive)) x y

theorem UpToPositive.refl (x : EvalError) : UpToPositive x x := .inl rfl

theorem UpToPositive.trans (x y z : EvalError) (hxy : UpToPositive x y) (hyz : UpToPositive y z) :
    UpToPositive x z := by
  obtain rfl | ⟨op, hop, hmet⟩ := hxy
  · exact hyz
  obtain rfl | ⟨op', hop', hmet'⟩ := hyz
  · exact .inr ⟨op, hop, hmet⟩
  -- The operator in the middle would be a positive form that is negated itself.
  cases hmet
  cases hmet'
  exact absurd hop' op.positive_not_isNegated

end EvalError

section

open EvalError (MetBy)

namespace Value

variable (op op' : Operator) (v w : Value)

private theorem asSet_metBy : Together (MetBy op op') Eq (v.asSet op) (v.asSet op') := by
  cases v with
  | set xs => exact .ok rfl
  | _ => exact .error (.mk _ _)

private theorem asMultiset_metBy :
    Together (MetBy op op') Eq (v.asMultiset op) (v.asMultiset op') := by
  cases v with
  | multiset counts => exact .ok rfl
  | _ => exact .error (.mk _ _)

private theorem asSeq_metBy : Together (MetBy op op') Eq (v.asSeq op) (v.asSeq op') := by
  cases v with
  | seq xs => exact .ok rfl
  | _ => exact .error (.mk _ _)

private theorem asMap_metBy : Together (MetBy op op') Eq (v.asMap op) (v.asMap op') := by
  cases v with
  | map xs => exact .ok rfl
  | _ => exact .error (.mk _ _)

private theorem demandComparable_metBy :
    Together (MetBy op op') Eq (v.demandComparable op) (v.demandComparable op') := by
  rw [demandComparable, demandComparable]
  split
  · exact .ok rfl
  · exact .error (.mk _ _)

private theorem equals_metBy : Together (MetBy op op') Eq (v.equals op w) (v.equals op' w) := by
  refine (v.demandComparable_metBy op op').bind fun _ _ _ => ?_
  exact (w.demandComparable_metBy op op').bind fun _ _ _ => .ok rfl

private theorem inSet_metBy : Together (MetBy op op') Eq (v.inSet op w) (v.inSet op' w) := by
  refine (w.asSet_metBy op op').bind ?_
  intro xs _ heq
  subst heq
  exact (v.demandComparable_metBy op op').bind fun _ _ _ => .ok rfl

private theorem inMultiset_metBy :
    Together (MetBy op op') Eq (v.inMultiset op w) (v.inMultiset op' w) := by
  refine (w.asMultiset_metBy op op').bind ?_
  intro counts _ heq
  subst heq
  exact (v.demandComparable_metBy op op').bind fun _ _ _ => .ok rfl

private theorem inMap_metBy : Together (MetBy op op') Eq (v.inMap op w) (v.inMap op' w) := by
  refine (w.asMap_metBy op op').bind ?_
  intro entries _ heq
  subst heq
  exact (v.demandComparable_metBy op op').bind fun _ _ _ => .ok rfl

private theorem inSeq_metBy : Together (MetBy op op') Eq (v.inSeq op w) (v.inSeq op' w) := by
  refine (w.asSeq_metBy op op').bind ?_
  intro elems _ heq
  subst heq
  refine (v.demandComparable_metBy op op').bind fun _ _ _ => ?_
  exact (w.demandComparable_metBy op op').bind fun _ _ _ => .ok rfl

private theorem equalSeqs_metBy :
    Together (MetBy op op') Eq (v.equalSeqs op w) (v.equalSeqs op' w) := by
  refine (v.asSeq_metBy op op').discard.bind fun _ _ _ => ?_
  exact (w.asSeq_metBy op op').discard.bind fun _ _ _ => v.equals_metBy op op' w

private theorem equalMaps_metBy :
    Together (MetBy op op') Eq (v.equalMaps op w) (v.equalMaps op' w) := by
  refine (v.asMap_metBy op op').discard.bind fun _ _ _ => ?_
  exact (w.asMap_metBy op op').discard.bind fun _ _ _ => v.equals_metBy op op' w

end Value

private theorem negation_of_test {E : EvalError → EvalError → Prop} {t t' : EvalResult Bool}
    (h : Together E Eq t t') :
    Together E Eq (do return Value.bool (!(← t)))
      ((do return Value.bool (← t')) >>= UnaryOp.not.apply) := by
  cases h with
  | ok h => exact .ok (by rw [h])
  | error h => exact .error h

private theorem set_neq_apply (v w : Value) :
    Together (MetBy SetOp.neq.operator SetOp.eq.operator) Eq (SetOp.neq.apply v w)
      (SetOp.eq.apply v w >>= UnaryOp.not.apply) := by
  simp only [SetOp.apply, SetOp.onSets, bind_assoc, pure_bind]
  refine (v.asSet_metBy _ _).bind ?_
  intro xs _ heq
  subst heq
  refine (w.asSet_metBy _ _).bind ?_
  intro ys _ heq
  subst heq
  exact .ok (by rw [decide_not])

private theorem multiset_neq_apply (v w : Value) :
    Together (MetBy MultisetOp.neq.operator MultisetOp.eq.operator) Eq (MultisetOp.neq.apply v w)
      (MultisetOp.eq.apply v w >>= UnaryOp.not.apply) := by
  simp only [MultisetOp.apply, MultisetOp.onMultisets, bind_assoc, pure_bind]
  refine (v.asMultiset_metBy _ _).bind ?_
  intro xs _ heq
  subst heq
  refine (w.asMultiset_metBy _ _).bind ?_
  intro ys _ heq
  subst heq
  exact .ok (by rw [decide_not])

private theorem BinaryOp.apply_negated {op : BinaryOp} (h : op.isNegated = true) (v w : Value) :
    Together (MetBy (.eager (.binary op)) (.eager (.binary op.positive))) Eq (op.apply v w)
      (op.positive.apply v w >>= UnaryOp.not.apply) := by
  rw [isNegated_iff] at h
  revert h
  fun_cases BinaryOp.positive op with
  | case1 => exact fun _ => negation_of_test (v.equals_metBy _ _ w)
  | case2 => exact fun _ => set_neq_apply v w
  | case3 => exact fun _ => negation_of_test (v.inSet_metBy _ _ w)
  | case4 => exact fun _ => multiset_neq_apply v w
  | case5 => exact fun _ => negation_of_test (v.inMultiset_metBy _ _ w)
  | case6 => exact fun _ => negation_of_test (v.equalSeqs_metBy _ _ w)
  | case7 => exact fun _ => negation_of_test (v.inSeq_metBy _ _ w)
  | case8 => exact fun _ => negation_of_test (v.equalMaps_metBy _ _ w)
  | case9 => exact fun _ => negation_of_test (v.inMap_metBy _ _ w)
  | case10 => exact fun h => absurd rfl h

end

namespace Expr

variable {call : Value → List Value → EvalResult Value}

private theorem evalWith_binary (op : BinaryOp) (args : List Expr) (env : Env) :
    (app (.eager (.binary op)) args).evalWith call env =
      if args.length = 2 then do
        let (vs, env) ← evalListWith call args env
        let v ← (EagerOp.binary op).applyWith call vs
        return (v, env)
      else .error (.arityMismatch 2 args.length) := by
  simp only [evalWith, EagerOp.arity, Arity.accepts, Arity.least, decide_eq_true_eq]

private theorem evalWith_not (e : Expr) (env : Env) :
    (unary .not e).evalWith call env = do
      let (v, env) ← e.evalWith call env
      let b ← UnaryOp.not.apply v
      return (b, env) := by
  simp only [unary, evalWith, evalListWith]
  cases e.evalWith call env with
  | ok r => rfl
  | error x => rfl

end Expr

private theorem EagerOp.applyWith_negated {call : Value → List Value → EvalResult Value}
    {op : BinaryOp} (h : op.isNegated = true) (vs : List Value) :
    Together EvalError.UpToPositive Eq ((EagerOp.binary op).applyWith call vs)
      ((EagerOp.binary op.positive).applyWith call vs >>= UnaryOp.not.apply) := by
  match vs with
  | [v, w] => exact (BinaryOp.apply_negated h v w).mono (fun _ _ e => .inr ⟨op, h, e⟩) fun _ _ => id
  | [] | [_] | _ :: _ :: _ :: _ => exact .error (.refl _)

namespace Pass

theorem eliminateNegated_keepsNodes :
    eliminateNegated.KeepsNodes .all EvalError.UpToPositive := by
  intro n fuel env _
  change Together _ _ (n.eval fuel env) (((affirm? n).getD n).eval fuel env)
  fun_cases affirm? n with
  | case1 op args hneg =>
    simp only [Option.getD_some, Expr.eval, Expr.evalWith_not, Expr.evalWith_binary]
    split
    · simp only [bind_assoc]
      refine .bind_same .refl _ ?_
      rintro ⟨vs, env₁⟩
      simp only [pure_bind]
      rw [← bind_assoc]
      exact (EagerOp.applyWith_negated hneg vs).bind fun v v' hv => .ok (by rw [hv])
    · exact .error (.refl _)
  | _ => exact .refl .refl (fun _ => rfl) _

theorem eliminateNegated_post (e : Expr) :
    eliminateNegated.post (eliminateNegated.apply e) = true := by
  change (!isNegatedApp ((affirm? e).getD e)) = true
  fun_cases affirm? e with
  | case1 op args hneg => rfl
  | case2 op args hneg => simpa [isNegatedApp] using hneg
  | case3 e hother =>
    rw [Option.getD_none, Bool.not_eq_true']
    unfold isNegatedApp
    split
    · exact absurd rfl (hother _ _)
    · rfl

theorem eliminateNegated_everywhere (e : Expr) :
    ∃ n, eliminateNegated.everywhere e = .ok (eliminateNegated.attempt e, n) := by
  induction e using Expr.children_induction with
  | step e ih =>
    refine everywhere_eq_attempt _ ih rfl ?_
    rw [attempt_eq]
    exact eliminateNegated_post _

private theorem aloneOrAttempted_eliminateNegated : eliminateNegated.AloneOrAttempted =
    fun b b' => b' = b ∨ ∃ n, eliminateNegated.everywhere b = .ok (b', n) := by
  funext b b'
  refine propext (or_congr_right ⟨?_, ?_⟩)
  · rintro rfl
    exact eliminateNegated_everywhere b
  · rintro ⟨n, hb⟩
    exact eq_attempt_of_everywhere _ hb

end Pass

/-- Eliminating negated operators throughout an expression always succeeds, and keeps what the
expression does, with every fuel and in every environment. Both succeed or both fail. The values
are the same but for bodies of functions, which are left as they are or gone through likewise, so
a first-order value is unchanged; the environments are equal. The errors are equal, except that a
mismatch may be met by the positive form of the negated operator that met it before. -/
theorem eliminateNegated_preserves_evaluation (e : Expr) :
    ∃ e' n, Pass.eliminateNegated.everywhere e = .ok (e', n) ∧ ∀ fuel env,
      Together EvalError.UpToPositive
        (fun r r' =>
          Value.UpToBodies
            (fun b b' => b' = b ∨ ∃ n, Pass.eliminateNegated.everywhere b = .ok (b', n)) r.1 r'.1 ∧
          r.2 = r'.2 ∧ (r.1.isFirstOrder = true → r'.1 = r.1))
        (e.eval fuel env) (e'.eval fuel env) := by
  obtain ⟨n, he⟩ := Pass.eliminateNegated_everywhere e
  refine ⟨_, n, he, fun fuel env => ?_⟩
  have hfits : Realm.all.Fits env := trivial
  have hrun := Pass.eliminateNegated_keepsNodes.attempt .refl .trans e fuel hfits
  refine hrun.mono (fun _ _ => id) ?_
  intro r r' h
  obtain ⟨hv, henv⟩ := h
  have hfirst := Pass.eliminateNegated.aloneOrAttempted_likeness.firstOrder hv
  exact ⟨Pass.aloneOrAttempted_eliminateNegated ▸ hv, henv, fun h => (hfirst.2 h).symm⟩

end CheckedPass
