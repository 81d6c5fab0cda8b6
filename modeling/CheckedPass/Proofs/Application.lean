import CheckedPass.Proofs.Fuel
/-!
# Bindings and applied functions

A binding gives names to values for its body, and so does a function that is called where it is
made: the function has captured the scope of the call, and evaluating the arguments leaves that
scope as it was. The binding takes no fuel of its own, the call takes one unit.
-/

namespace CheckedPass

open Lifting (unlessOutOfFuel unlessOutOfFuel_iff unlessOutOfFuel_refl)

namespace Expr

private theorem valueWith_applied {call : Value → List Value → EvalResult Value}
    (params : List String) (body : Expr) (args : List Expr) (env : Env) :
    (Expr.call (fn params body) args).valueWith call env = (do
      let values ← args.mapM (valueWith call · env)
      call (.closure env params body) values) := by
  have haccepts : EagerOp.call.arity.accepts (fn params body :: args).length = true := by
    simp [EagerOp.arity, Arity.accepts]
  have hfn : (fn params body).valueWith call env = pure (.closure env params body) :=
    valueWith_fn params body env
  rw [Expr.call, valueWith_eager, if_pos haccepts, List.mapM_cons, hfn]
  simp only [bind_assoc, pure_bind]
  rfl

private theorem mapM_unlessOutOfFuel {fuel fuel' : Nat} (h : fuel ≤ fuel') (args : List Expr)
    (env : Env) :
    unlessOutOfFuel.Rel (fun vs ws => vs = ws ∧ vs.length = args.length)
      (args.mapM (valueWith (Value.call fuel) · env))
      (args.mapM (valueWith (Value.call fuel') · env)) := by
  have hrel : ∀ e ∈ args, unlessOutOfFuel.Rel Eq (e.valueWith (Value.call fuel) env)
      (e.valueWith (Value.call fuel') env) :=
    fun e _ => e.valueWith_unlessOutOfFuel h env
  simpa only [List.forall₂_eq_eq_eq] using unlessOutOfFuel.mapM hrel

variable {params : List String} {args : List Expr}

/-- With as many arguments as there are names, a call with fuel left runs the body in the scope that
the binding runs it in, with a unit of fuel less. -/
private theorem applied_unlessOutOfFuel (hlen : params.length = args.length) (body : Expr)
    (fuel : Nat) (env : Env) :
    unlessOutOfFuel.Rel Eq ((Expr.call (fn params body) args).valueWith (Value.call fuel) env)
      ((bind params args body).valueWith (Value.call fuel) env) := by
  rw [valueWith_applied, valueWith_bind, if_pos hlen]
  have hargs := mapM_unlessOutOfFuel (Nat.le_refl fuel) args env
  refine unlessOutOfFuel.bind hargs ?_
  intro vs ws hvs
  obtain ⟨rfl, hcount⟩ := hvs
  cases fuel with
  | zero => exact .inl rfl
  | succ fuel =>
    -- The captured scope is the one in which the arguments were evaluated.
    rw [Value.call_closure, if_pos (hlen.trans hcount.symm)]
    exact body.valueWith_unlessOutOfFuel (Nat.le_succ fuel) _

private theorem bind_unlessOutOfFuel (hlen : params.length = args.length) (body : Expr) (fuel : Nat)
    (env : Env) :
    unlessOutOfFuel.Rel Eq ((bind params args body).valueWith (Value.call fuel) env)
      ((Expr.call (fn params body) args).valueWith (Value.call (fuel + 1)) env) := by
  rw [valueWith_applied, valueWith_bind, if_pos hlen]
  have hargs := mapM_unlessOutOfFuel (Nat.le_succ fuel) args env
  refine unlessOutOfFuel.bind hargs ?_
  intro vs ws hvs
  obtain ⟨rfl, hcount⟩ := hvs
  rw [Value.call_closure, if_pos (hlen.trans hcount.symm)]
  exact unlessOutOfFuel_refl _

private theorem length_eq_of_applied {body : Expr} {fuel : Nat} {env : Env} {r : Value × Env}
    (h : (Expr.call (fn params body) args).eval fuel env = .ok r) :
    params.length = args.length := by
  obtain ⟨-, hvalue⟩ := evalWith_eq_ok_iff.mp h
  rw [valueWith_applied] at hvalue
  obtain ⟨vs, hvs, hcall⟩ := steps_of_bind_eq_ok hvalue
  have hcount : args.length = vs.length := (mapM_eq_ok_iff.mp hvs).length_eq
  cases fuel with
  | zero => cases hcall
  | succ fuel =>
    rw [Value.call_closure] at hcall
    split at hcall
    · rename_i hlen
      exact hlen.trans hcount.symm
    · cases hcall

private theorem length_eq_of_bind {body : Expr} {fuel : Nat} {env : Env} {r : Value × Env}
    (h : (bind params args body).eval fuel env = .ok r) : params.length = args.length := by
  obtain ⟨-, hvalue⟩ := evalWith_eq_ok_iff.mp h
  rw [valueWith_bind] at hvalue
  split at hvalue
  · assumption
  · cases hvalue

private theorem eval_eq_of_unlessOutOfFuel {e e' : Expr} {fuel fuel' : Nat} {env : Env}
    (h : unlessOutOfFuel.Rel Eq (e.valueWith (Value.call fuel) env)
      (e'.valueWith (Value.call fuel') env))
    (hfuel : e.eval fuel env ≠ .error .outOfFuel) : e'.eval fuel' env = e.eval fuel env := by
  have hvalue : e.valueWith (Value.call fuel) env ≠ .error .outOfFuel :=
    fun heq => hfuel (evalWith_eq_error_iff.mpr heq)
  rw [eval_eq_valueWith, eval_eq_valueWith, unlessOutOfFuel_iff.mp h hvalue]

end Expr

/-- A binding is a function that is called where it is made, up to one unit of fuel. What the call
yields the binding yields with the same fuel, and what the binding yields the call yields with one
unit more: the same value, in the same environment. With as many arguments as there are names, an
error is the same as well, unless the fuel runs out. -/
theorem binding_is_applied_function (params : List String) (args : List Expr) (body : Expr)
    (fuel : Nat) (env : Env) :
    let applied : Expr := .call (.fn params body) args
    let binding : Expr := .bind params args body
    (∀ v env', applied.eval fuel env = .ok (v, env') → binding.eval fuel env = .ok (v, env')) ∧
    (∀ v env', binding.eval fuel env = .ok (v, env') →
      applied.eval (fuel + 1) env = .ok (v, env')) ∧
    (params.length = args.length →
      (applied.eval fuel env ≠ .error .outOfFuel →
        binding.eval fuel env = applied.eval fuel env) ∧
      (binding.eval fuel env ≠ .error .outOfFuel →
        applied.eval (fuel + 1) env = binding.eval fuel env)) := by
  intro applied binding
  have happlied : params.length = args.length → applied.eval fuel env ≠ .error .outOfFuel →
      binding.eval fuel env = applied.eval fuel env :=
    fun hlen => Expr.eval_eq_of_unlessOutOfFuel (Expr.applied_unlessOutOfFuel hlen body fuel env)
  have hbinding : params.length = args.length → binding.eval fuel env ≠ .error .outOfFuel →
      applied.eval (fuel + 1) env = binding.eval fuel env :=
    fun hlen => Expr.eval_eq_of_unlessOutOfFuel (Expr.bind_unlessOutOfFuel hlen body fuel env)
  refine ⟨fun v env' h => ?_, fun v env' h => ?_, fun hlen => ⟨happlied hlen, hbinding hlen⟩⟩
  · have hlen := Expr.length_eq_of_applied h
    rw [happlied hlen (by simp [h]), h]
  · have hlen := Expr.length_eq_of_bind h
    rw [hbinding hlen (by simp [h]), h]

/-- A function among the arguments keeps the `x` it was made with, and of the two that are bound
anew the later one counts. The body takes a unit of fuel, so the call takes two. -/
theorem binding_is_applied_function_shadowing :
    let env : Env := [("x", .int 1)]
    let f : Expr := .fn ["y"] (.binary (.numeric .add) (.var "x") (.var "y"))
    let body : Expr := .call (.var "f") [.var "x"]
    let applied : Expr := .call (.fn ["x", "f", "x"] body) [.int 5, f, .int 7]
    let binding : Expr := .bind ["x", "f", "x"] [.int 5, f, .int 7] body
    binding.eval 1 env = .ok (.int 8, env) ∧ applied.eval 1 env = .error .outOfFuel ∧
      applied.eval 2 env = .ok (.int 8, env) ∧ binding.eval 2 env = .ok (.int 8, env) ∧
      applied.eval 3 env = binding.eval 2 env := by
  intro env f body applied binding
  have hbinding : binding.eval 1 env = .ok (.int 8, env) := by decide
  have happlied : applied.eval 2 env = .ok (.int 8, env) :=
    (binding_is_applied_function _ _ _ 1 env).2.1 _ _ hbinding
  obtain ⟨hforth, -, hsame⟩ :=
    binding_is_applied_function ["x", "f", "x"] [.int 5, f, .int 7] body 2 env
  have hbinding' : binding.eval 2 env = .ok (.int 8, env) := hforth _ _ happlied
  have hlasts : binding.eval 2 env ≠ .error .outOfFuel := by simp [hbinding']
  exact ⟨hbinding, by decide, happlied, hbinding', (hsame rfl).2 hlasts⟩

end CheckedPass
