import CheckedPass.Proofs.WellFormed
/-!
# Evaluation keeps values well-formed

Well-formedness is an invariant of evaluation: expressions take well-formed environments to
well-formed values, and so do calls, since a well-formed function has captured a well-formed
environment. On the way no magnitude falls below zero, and an operator finds all the operands that
it looks for.
-/

namespace CheckedPass

private theorem Literal.value_keepsForm (a : Literal) : KeepsForm a.value := by
  fun_cases Literal.value a with
  | case7 | case8 => exact .error rfl
  | case9 width magnitude _ hfits =>
    exact .ok (Value.isWellFormed_bitVector.mpr (Nat.lt_of_not_le hfits))
  | _ => exact .ok rfl

namespace Env

variable {env : Env}

private theorem extend_isWellFormed (henv : Value.isWellFormedEnv env = true) (names : List String)
    {vs : List Value} (hvs : ∀ v ∈ vs, v.isWellFormed = true) :
    Value.isWellFormedEnv (env.extend (names.zip vs)) = true :=
  Value.isWellFormedEnv_iff.mpr (forall_mem_extend (Value.isWellFormedEnv_iff.mp henv) hvs)

end Env

private theorem invariant_isWellFormed {call : Value → List Value → EvalResult Value}
    (hcall : ∀ f args, f.isWellFormed = true → (∀ v ∈ args, v.isWellFormed = true) →
      KeepsForm (call f args)) :
    Invariant (fun error => error.isUnderflow = false) (fun v => v.isWellFormed = true) call
      (fun _ env => Value.isWellFormedEnv env = true) where
  var henv := Env.lookup_endsIn (Value.isWellFormedEnv_iff.mp henv) rfl
  lit _ := Literal.value_keepsForm _
  fn henv := henv
  unit := rfl
  bool _ := rfl
  mismatch _ _ _ := rfl
  apply _ _ hvs := EagerOp.applyWith_keepsForm hcall _ hvs
  misfit _ _ _ _ := rfl
  inScope henv _ _ := henv
  body henv _ hvs := Env.extend_isWellFormed henv _ hvs

theorem Value.call_keepsForm (fuel : Nat) (f : Value) (args : List Value)
    (hf : f.isWellFormed = true) (hargs : ∀ v ∈ args, v.isWellFormed = true) :
    KeepsForm (f.call fuel args) := by
  -- By induction on the fuel: the body of a function runs with one unit less.
  induction fuel generalizing f args with
  | zero => exact .error rfl
  | succ fuel ih =>
    cases f with
    | closure env params body =>
      rw [Value.call_closure]
      split
      · exact (invariant_isWellFormed ih).valueWith body _ (Env.extend_isWellFormed hf params hargs)
      · exact .error rfl
    | _ => exact .error rfl

theorem Expr.eval_sound (e : Expr) (fuel : Nat) {env : Env}
    (henv : Value.isWellFormedEnv env = true) :
    Sound (fun r => r.1.isWellFormed = true ∧ Value.isWellFormedEnv r.2 = true)
      (e.eval fuel env) := by
  rw [eval_eq_valueWith]
  have hvalue := (invariant_isWellFormed (Value.call_keepsForm fuel)).valueWith e env henv
  exact hvalue.bind fun v hv => .ok ⟨hv, henv⟩

/-- The operands that the operator looks for by their positions are there. -/
def Operator.HasOperands {α : Type} : Operator → List α → Prop
  | .lazy _, xs => ∃ x y, xs = [x, y]
  | .eager (.unary _), xs => ∃ x, xs = [x]
  | .eager (.binary _), xs => ∃ x y, xs = [x, y]
  | .eager (.ternary _), xs => ∃ x y z, xs = [x, y, z]
  | .eager (.display _), _ => True
  | .eager .call, xs => ∃ x rest, xs = x :: rest

private theorem Operator.hasOperands_of_accepts {α : Type} (op : Operator) {xs : List α}
    (h : op.arity.accepts xs.length = true) : op.HasOperands xs := by
  cases op with
  | lazy op => exact List.length_eq_two.mp (of_decide_eq_true h)
  | eager op =>
    cases op with
    | unary op => exact List.length_eq_one_iff.mp (of_decide_eq_true h)
    | binary op => exact List.length_eq_two.mp (of_decide_eq_true h)
    | ternary op => exact List.length_eq_three.mp (of_decide_eq_true h)
    | display kind => trivial
    | call => exact List.exists_cons_of_length_pos (of_decide_eq_true h)

private theorem Expr.length_evalListWith {call : Value → List Value → EvalResult Value}
    (es : List Expr) (env : Env) :
    Ensures (fun r => r.1.length = es.length) (evalListWith call es env) := by
  induction es generalizing env with
  | nil => exact .ok rfl
  | cons e es ih =>
    refine .bind_any fun r => (ih r.2).bind fun rest hrest => .ok ?_
    rw [List.length_cons, List.length_cons, hrest]

/-- What evaluation owes to well-formed values. -/
structure FormLaws : Prop where
  eval : ∀ (e : Expr) (fuel : Nat) (env : Env), Value.isWellFormedEnv env = true →
    Sound (fun r => r.1.isWellFormed = true ∧ Value.isWellFormedEnv r.2 = true) (e.eval fuel env)
  call : ∀ (fuel : Nat) (callee : Value) (args : List Value), callee.isWellFormed = true →
    (∀ v ∈ args, v.isWellFormed = true) → KeepsForm (callee.call fuel args)
  unary : ∀ (op : UnaryOp) (v : Value), v.isWellFormed = true → KeepsForm (op.apply v)
  binary : ∀ (op : BinaryOp) (v w : Value), v.isWellFormed = true → w.isWellFormed = true →
    KeepsForm (op.apply v w)
  ternary : ∀ (op : TernaryOp) (v w x : Value), v.isWellFormed = true → w.isWellFormed = true →
    x.isWellFormed = true → KeepsForm (op.apply v w x)
  build : ∀ (kind : Collection) (elems : List Value), (∀ x ∈ elems, x.isWellFormed = true) →
    KeepsForm (kind.build elems)
  /-- One can be taken from a modulus. -/
  modulus : ∀ width : UInt32, 1 ≤ modulus width
  /-- What is left of a multiplicity and what was taken from it make up the whole of it. -/
  difference : ∀ (xs ys : List (Value × Nat)), ∀ p ∈ Value.diffCounts xs ys,
    ∃ n, (p.1, n) ∈ xs ∧ p.2 + Value.count ys p.1 = n
  /-- An operator that takes as many operands as it is given finds all it looks for. -/
  operands : ∀ (op : Operator) (args : List Expr), op.arity.accepts args.length = true →
    op.HasOperands args ∧ ∀ (call : Value → List Value → EvalResult Value) (env env' : Env)
      (vs : List Value), Expr.evalListWith call args env = .ok (vs, env') → op.HasOperands vs

/-- Values stay well-formed: whatever an expression, a call or an operator yields from well-formed
values is well-formed, and if it fails then not because a magnitude would have fallen below zero.
Nor do the differences that are not checked for it lose anything. -/
theorem evaluation_keeps_values_wellFormed : FormLaws where
  eval e fuel _ := e.eval_sound fuel
  call := Value.call_keepsForm
  unary op _ := op.keepsForm
  binary op _ _ := op.keepsForm
  ternary op _ _ _ := op.keepsForm
  build kind _ := kind.build_keepsForm
  modulus := Value.modulus_pos
  difference _ _ _ := Value.mem_diffCounts
  operands op args haccepts := by
    refine ⟨op.hasOperands_of_accepts haccepts, fun call env env' vs hvs => ?_⟩
    have hlen : vs.length = args.length := Expr.length_evalListWith args env _ hvs
    exact op.hasOperands_of_accepts (hlen ▸ haccepts)

/-- A function takes a captured bit-vector from a smaller one: the difference wraps around, and fits
the width again. Multisets from which everything is taken keep no element with multiplicity zero. -/
theorem evaluation_keeps_values_wellFormed_wrapping :
    let y : Value := .bitVector 8 200
    let env : Env := [("y", y)]
    let sub : Operator := .eager (.binary (.numeric .sub))
    let body : Expr := .app sub [.var "x", .var "y"]
    let e : Expr := .call (.fn ["x"] body) [.lit (.bitVector 8 100)]
    let ones : Value := .multiset [(.int 1, 2)]
    Value.isWellFormedEnv env = true ∧ ones.isWellFormed = true ∧
      e.eval 1 env = .ok (.bitVector 8 156, env) ∧ (Value.bitVector 8 156).isWellFormed = true ∧
      KeepsForm ((Value.closure env ["x"] body).call 1 [y]) ∧ KeepsForm (UnaryOp.bitNot.apply y) ∧
      KeepsForm (BinaryOp.apply (.multiset .diff) ones ones) ∧
      KeepsForm (TernaryOp.multisetUpdate.apply ones (.int 1) (.int 0)) ∧
      KeepsForm (Collection.multiset.build [.int 1, .int 1]) ∧
      sub.HasOperands [Expr.var "x", Expr.var "y"] := by
  intro y env sub body e ones
  have hlaws := evaluation_keeps_values_wellFormed
  have henv : Value.isWellFormedEnv env = true := by decide
  have hones : ones.isWellFormed = true := by decide
  have hrun : e.eval 1 env = .ok (.bitVector 8 156, env) := rfl
  have hvalue := hlaws.eval e 1 env henv
  rw [hrun] at hvalue
  cases hvalue with
  | ok h =>
    exact ⟨henv, hones, hrun, h.1, hlaws.call 1 _ [y] henv (by decide),
      hlaws.unary .bitNot y (by decide), hlaws.binary _ _ _ hones hones,
      hlaws.ternary _ _ _ _ hones rfl rfl, hlaws.build _ _ (by decide),
      (hlaws.operands sub _ rfl).1⟩

end CheckedPass
