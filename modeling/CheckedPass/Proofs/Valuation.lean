import CheckedPass.Proofs.Scoping
/-!
# Values in an environment

Since evaluation hands back the environment it was given, the items of a list are all evaluated in
one environment, and evaluation is a function from environments to values. Here each node says what
its value is in terms of the values of its parts, and a list of expressions evaluates as its items
do one by one.
-/

namespace CheckedPass

namespace Expr

variable {call : Value → List Value → EvalResult Value}

/-- The value of an expression in an environment, given what a call yields. -/
def valueWith (call : Value → List Value → EvalResult Value) (e : Expr) (env : Env) :
    EvalResult Value := do
  let (v, _) ← e.evalWith call env
  return v

private theorem evalWith_eq_valueWith (e : Expr) (env : Env) :
    e.evalWith call env = do return (← e.valueWith call env, env) := by
  have hback : Ensures (fun r => r.2 = env) (e.evalWith call env) := e.handsBack env
  cases hrun : e.evalWith call env with
  | error x =>
    simp only [valueWith, hrun]
    rfl
  | ok r =>
    have hr : r.2 = env := hback r hrun
    simp only [valueWith, hrun]
    exact congrArg Except.ok (Prod.ext rfl hr)

private theorem evalListWith_eq_mapM (es : List Expr) (env : Env) :
    evalListWith call es env = do return (← es.mapM (valueWith call · env), env) := by
  induction es with
  | nil => rfl
  | cons e es ih =>
    simp only [evalListWith, evalWith_eq_valueWith e env, List.mapM_cons, bind_assoc, pure_bind, ih]

theorem evalWith_eq_ok_iff {e : Expr} {env env' : Env} {v : Value} :
    e.evalWith call env = .ok (v, env') ↔ env' = env ∧ e.valueWith call env = .ok v := by
  constructor
  · intro h
    refine ⟨e.handsBack env _ h, ?_⟩
    rw [valueWith, h]
    rfl
  · rintro ⟨rfl, h⟩
    rw [evalWith_eq_valueWith, h]
    rfl

theorem evalWith_eq_error_iff {e : Expr} {env : Env} {error : EvalError} :
    e.evalWith call env = .error error ↔ e.valueWith call env = .error error := by
  constructor
  · intro h
    rw [valueWith, h]
    rfl
  · intro h
    rw [evalWith_eq_valueWith, h]
    rfl

private theorem evalWith_succeeds_iff {e : Expr} {env : Env} :
    (∃ r, e.evalWith call env = .ok r) ↔ ∃ v, e.evalWith call env = .ok (v, env) := by
  simp only [Prod.exists, evalWith_eq_ok_iff, exists_eq_left, true_and]

private theorem evalListWith_eq_ok_iff {es : List Expr} {env env' : Env} {vs : List Value} :
    evalListWith call es env = .ok (vs, env') ↔
      env' = env ∧ List.Forall₂ (fun e v => e.evalWith call env = .ok (v, env)) es vs := by
  simp only [evalWith_eq_ok_iff, true_and, ← mapM_eq_ok_iff, evalListWith_eq_mapM]
  constructor
  · intro h
    obtain ⟨ws, hws, heq⟩ := steps_of_bind_eq_ok h
    cases heq
    exact ⟨rfl, hws⟩
  · rintro ⟨rfl, h⟩
    rw [h]
    rfl

private theorem evalListWith_succeeds_iff {es : List Expr} {env : Env} :
    (∃ r, evalListWith call es env = .ok r) ↔ ∀ e ∈ es, ∃ r, e.evalWith call env = .ok r := by
  constructor
  · rintro ⟨⟨vs, env'⟩, h⟩ e he
    obtain ⟨v, hv⟩ := exists_forall₂_iff.mp ⟨vs, (evalListWith_eq_ok_iff.mp h).2⟩ e he
    exact ⟨_, hv⟩
  · intro h
    obtain ⟨vs, hvs⟩ := exists_forall₂_iff.mpr fun e he => evalWith_succeeds_iff.mp (h e he)
    exact ⟨_, evalListWith_eq_ok_iff.mpr ⟨rfl, hvs⟩⟩

private theorem evalListWith_eq_error_iff {es : List Expr} {env : Env} {error : EvalError} :
    evalListWith call es env = .error error ↔ ∃ before e after, es = before ++ e :: after ∧
      (∀ c ∈ before, ∃ r, c.evalWith call env = .ok r) ∧ e.evalWith call env = .error error := by
  simp only [evalWith_succeeds_iff, evalWith_eq_ok_iff, true_and, evalWith_eq_error_iff,
    ← mapM_eq_error_iff, evalListWith_eq_mapM]
  constructor
  · intro h
    rcases step_of_bind_eq_error h with h | ⟨vs, -, hdone⟩
    · exact h
    · cases hdone
  · intro h
    rw [h]
    rfl

theorem valueWith_var (x : String) (env : Env) : (var x).valueWith call env = env.lookup x := by
  simp only [valueWith, evalWith, bind_assoc, pure_bind, bind_pure]

theorem valueWith_lit (a : Literal) (env : Env) : (lit a).valueWith call env = a.value := by
  simp only [valueWith, evalWith, bind_assoc, pure_bind, bind_pure]

theorem valueWith_fn (params : List String) (body : Expr) (env : Env) :
    (fn params body).valueWith call env = .ok (.closure env params body) := rfl

private theorem valueWith_of_evalWith {e : Expr} {env : Env} {r : EvalResult Value}
    (h : e.evalWith call env = do return (← r, env)) : e.valueWith call env = r := by
  simp only [valueWith, h, bind_assoc, pure_bind, bind_pure]

theorem valueWith_lazily (op : Connective) (lhs rhs : Expr) (env : Env) :
    (lazily op lhs rhs).valueWith call env = do
      let first ← lhs.valueWith call env
      match op.decided (← first.asBool (.operator (.lazy op))) with
      | some b => return .bool b
      | none => do
        let second ← rhs.valueWith call env
        return .bool (← second.asBool (.operator (.lazy op))) := by
  apply valueWith_of_evalWith
  simp only [lazily, evalWith, evalWith_eq_valueWith lhs, evalWith_eq_valueWith rhs, bind_assoc,
    pure_bind]
  congr 1
  funext first
  congr 1
  funext b
  cases op.decided b with
  | some b => rfl
  | none => simp only [bind_assoc, pure_bind]

theorem valueWith_lazy_of_length_ne (op : Connective) {args : List Expr} (h : args.length ≠ 2)
    (env : Env) :
    (app (.lazy op) args).valueWith call env = .error (.arityMismatch 2 args.length) := by
  match args with
  | [] | [_] | _ :: _ :: _ :: _ => rfl
  | [_, _] => exact absurd rfl h

theorem valueWith_eager (op : EagerOp) (args : List Expr) (env : Env) :
    (app (.eager op) args).valueWith call env =
      if op.arity.accepts args.length then do
        let operands ← args.mapM (valueWith call · env)
        op.applyWith call operands
      else .error (.arityMismatch op.arity.least args.length) := by
  simp only [valueWith, evalWith, evalListWith_eq_mapM]
  split
  · simp only [bind_assoc, pure_bind, bind_pure]
  · rfl

theorem valueWith_block (items : List Expr) (env : Env) :
    (block items).valueWith call env = do
      let values ← items.mapM (valueWith call · env)
      return values.getLastD .unit := by
  simp only [valueWith, evalWith, evalListWith_eq_mapM, bind_assoc, pure_bind]

theorem valueWith_cond (test yes no : Expr) (env : Env) :
    (cond test yes no).valueWith call env = (do
      let t ← test.valueWith call env
      if ← t.asBool .condition then yes.valueWith call env else no.valueWith call env) := by
  apply valueWith_of_evalWith
  simp only [evalWith, evalWith_eq_valueWith test, evalWith_eq_valueWith yes,
    evalWith_eq_valueWith no, bind_assoc, pure_bind]
  congr 1
  funext t
  congr 1
  funext b
  split <;> rfl

theorem valueWith_bind (vars : List String) (vals : List Expr) (body : Expr) (env : Env) :
    (bind vars vals body).valueWith call env =
      if vars.length = vals.length then do
        let values ← vals.mapM (valueWith call · env)
        body.valueWith call (env.extend (vars.zip values))
      else .error (.arityMismatch vars.length vals.length) := by
  simp only [valueWith, evalWith, evalListWith_eq_mapM]
  split
  · simp only [bind_assoc, pure_bind]
  · rfl

theorem eval_eq_valueWith (e : Expr) (fuel : Nat) (env : Env) :
    e.eval fuel env = do return (← e.valueWith (Value.call fuel) env, env) :=
  e.evalWith_eq_valueWith env

theorem evalList_eq_mapM (es : List Expr) (fuel : Nat) (env : Env) :
    evalList es fuel env = do return (← es.mapM (valueWith (Value.call fuel) · env), env) :=
  evalListWith_eq_mapM es env

end Expr

theorem Value.call_closure (fuel : Nat) (env : Env) (params : List String) (body : Expr)
    (args : List Value) :
    (closure env params body).call (fuel + 1) args =
      if params.length = args.length then
        body.valueWith (Value.call fuel) (env.extend (params.zip args))
      else .error (.arityMismatch params.length args.length) := rfl

/-- Evaluation hands back the very environment it was given, so whatever an expression binds it
binds for its own parts only. Hence the items of a list do not affect one another: the list
evaluates exactly if each item does on its own, to the values of the items in order, and otherwise
it fails as the first item that fails does. -/
theorem evaluation_hands_back_environment (fuel : Nat) (env : Env) :
    (∀ (e : Expr) (v : Value) (env' : Env), e.eval fuel env = .ok (v, env') → env' = env) ∧
    ∀ es : List Expr,
      ((∃ r, Expr.evalList es fuel env = .ok r) ↔ ∀ e ∈ es, ∃ r, e.eval fuel env = .ok r) ∧
      (∀ vs env', Expr.evalList es fuel env = .ok (vs, env') ↔
        env' = env ∧ List.Forall₂ (fun e v => e.eval fuel env = .ok (v, env)) es vs) ∧
      ∀ error, Expr.evalList es fuel env = .error error ↔
        ∃ before e after, es = before ++ e :: after ∧
          (∀ c ∈ before, ∃ r, c.eval fuel env = .ok r) ∧ e.eval fuel env = .error error := by
  refine ⟨fun e v env' h => (Expr.evalWith_eq_ok_iff.mp h).1, fun es => ?_⟩
  exact ⟨Expr.evalListWith_succeeds_iff, fun vs env' => Expr.evalListWith_eq_ok_iff,
    fun error => Expr.evalListWith_eq_error_iff⟩

/-- A function binds `x` anew, and the item after its call still finds the old `x`. Of two items
that fail, the first one decides the error. -/
theorem evaluation_hands_back_environment_shadowing :
    let env : Env := [("x", .int 1)]
    let sum : Expr := .binary (.numeric .add) (.var "x") (.var "y")
    let e : Expr := .call (.fn ["y"] (.bind ["x"] [.int 5] sum)) [.var "x"]
    e.eval 1 env = .ok (.int 6, env) ∧
      (∀ v env', e.eval 1 env = .ok (v, env') → env' = env) ∧
      Expr.evalList [e, .var "x"] 1 env = .ok ([.int 6, .int 1], env) ∧
      Expr.evalList [e, .var "y", .var "z"] 1 env = .error (.unbound "y") := by
  intro env sum e
  obtain ⟨hback, hlist⟩ := evaluation_hands_back_environment 1 env
  have he : e.eval 1 env = .ok (.int 6, env) := rfl
  have hx : (Expr.var "x").eval 1 env = .ok (.int 1, env) := rfl
  have hy : (Expr.var "y").eval 1 env = .error (.unbound "y") := rfl
  refine ⟨he, hback e, ((hlist _).2.1 _ _).mpr ⟨rfl, .cons he (.cons hx .nil)⟩, ?_⟩
  exact ((hlist _).2.2 _).mpr ⟨[e], _, _, rfl, List.forall_mem_singleton.mpr ⟨_, he⟩, hy⟩

end CheckedPass
