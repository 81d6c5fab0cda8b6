import CheckedPass.Proofs.Parametricity
/-!
# Fuel

More fuel changes nothing but that an evaluation may no longer run out of it: whatever an evaluation
ends in otherwise, a value or an error, it ends in with every larger fuel.
-/

namespace CheckedPass

namespace Lifting

/-- The first runs out of fuel, or both end alike. -/
def unlessOutOfFuel : Lifting where
  Rel A x y := x = .error .outOfFuel ∨ Together Eq A x y
  ok h := .inr (.ok h)
  bind := by
    intro α β A B x y f g h hfg
    rcases h with rfl | h
    · exact .inl rfl
    · cases h with
      | ok h => exact hfg _ _ h
      | error h => exact .inr (.error h)

theorem unlessOutOfFuel_iff {α : Type} {x y : EvalResult α} :
    unlessOutOfFuel.Rel Eq x y ↔ (x ≠ .error .outOfFuel → y = x) := by
  constructor
  · intro h hx
    rcases h with h | h
    · exact absurd h hx
    · exact h.eq.symm
  · intro h
    by_cases hx : x = .error .outOfFuel
    · exact .inl hx
    · rw [h hx]
      exact .inr (.refl (fun _ => rfl) (fun _ => rfl) x)

theorem unlessOutOfFuel_refl {α : Type} (x : EvalResult α) : unlessOutOfFuel.Rel Eq x x :=
  unlessOutOfFuel_iff.mpr fun _ => rfl

end Lifting

/-- Of all operators only a call looks at what calls yield. -/
theorem EagerOp.applyWith_eq_of_ne_call {op : EagerOp} (h : op ≠ .call)
    (call call' : Value → List Value → EvalResult Value) (vs : List Value) :
    op.applyWith call vs = op.applyWith call' vs := by
  cases op with
  | call => exact absurd rfl h
  | unary op =>
    match vs with
    | [] | [_] | _ :: _ :: _ => rfl
  | binary op =>
    match vs with
    | [] | [_] | [_, _] | _ :: _ :: _ :: _ => rfl
  | ternary op =>
    match vs with
    | [] | [_] | [_, _] | [_, _, _] | _ :: _ :: _ :: _ :: _ => rfl
  | display kind => rfl

open Lifting (unlessOutOfFuel unlessOutOfFuel_iff unlessOutOfFuel_refl)

private theorem parametric_unlessOutOfFuel {call call' : Value → List Value → EvalResult Value}
    (hcall : ∀ f args, unlessOutOfFuel.Rel Eq (call f args) (call' f args)) :
    Parametric unlessOutOfFuel Eq call call' (fun _ env env' => env = env') where
  var henv := henv ▸ unlessOutOfFuel_refl _
  lit _ := unlessOutOfFuel_refl _
  fn henv := by rw [henv]
  unit := rfl
  bool _ := rfl
  asBool _ hvw := hvw ▸ unlessOutOfFuel_refl _
  apply := by
    intro op args env env' vs ws _ _ hvs
    obtain rfl : vs = ws := List.forall₂_eq_eq_eq ▸ hvs
    by_cases hop : op = .call
    · subst hop
      match vs with
      | [] => exact unlessOutOfFuel_refl _
      | f :: args => exact hcall f args
    · rw [EagerOp.applyWith_eq_of_ne_call hop call call']
      exact unlessOutOfFuel_refl _
  misfit _ _ _ _ := unlessOutOfFuel_refl _
  inScope henv _ _ := henv
  body := by
    intro vars vals body env env' vs ws henv _ hvs
    obtain rfl : vs = ws := List.forall₂_eq_eq_eq ▸ hvs
    rw [henv]

private theorem call_unlessOutOfFuel {fuel fuel' : Nat} (h : fuel ≤ fuel') (f : Value)
    (args : List Value) : unlessOutOfFuel.Rel Eq (f.call fuel args) (f.call fuel' args) := by
  -- By induction on the smaller fuel: the body of a function runs with one unit less of each.
  induction fuel generalizing fuel' f args with
  | zero => exact .inl rfl
  | succ fuel ih =>
    obtain ⟨m, rfl⟩ : ∃ m, fuel' = m + 1 := ⟨fuel' - 1, by omega⟩
    have hcall := ih (show fuel ≤ m by omega)
    cases f with
    | closure env params body =>
      rw [Value.call_closure, Value.call_closure]
      split
      · exact (parametric_unlessOutOfFuel hcall).valueWith body _ _ rfl
      · exact unlessOutOfFuel_refl _
    | _ => exact unlessOutOfFuel_refl _

theorem Expr.valueWith_unlessOutOfFuel {fuel fuel' : Nat} (h : fuel ≤ fuel') (e : Expr)
    (env : Env) :
    unlessOutOfFuel.Rel Eq (e.valueWith (Value.call fuel) env)
      (e.valueWith (Value.call fuel') env) :=
  (parametric_unlessOutOfFuel (call_unlessOutOfFuel h)).valueWith e env env rfl

/-- Whatever an evaluation ends in, a value or an error, it ends in with every larger fuel, unless
it ran out of fuel. So do evaluations of lists and calls of values. -/
theorem result_stable_under_more_fuel {fuel fuel' : Nat} (h : fuel ≤ fuel') :
    (∀ (e : Expr) (env : Env), e.eval fuel env ≠ .error .outOfFuel →
      e.eval fuel' env = e.eval fuel env) ∧
    (∀ (es : List Expr) (env : Env), Expr.evalList es fuel env ≠ .error .outOfFuel →
      Expr.evalList es fuel' env = Expr.evalList es fuel env) ∧
    ∀ (callee : Value) (args : List Value), callee.call fuel args ≠ .error .outOfFuel →
      callee.call fuel' args = callee.call fuel args := by
  have hcall := call_unlessOutOfFuel h
  have hvalue : ∀ (e : Expr) (env : Env),
      unlessOutOfFuel.Rel Eq (e.valueWith (Value.call fuel) env)
        (e.valueWith (Value.call fuel') env) :=
    fun e env => (parametric_unlessOutOfFuel hcall).valueWith e env env rfl
  refine ⟨fun e env => unlessOutOfFuel_iff.mp ?_, fun es env => unlessOutOfFuel_iff.mp ?_,
    fun callee args => unlessOutOfFuel_iff.mp (hcall callee args)⟩
  · rw [Expr.eval_eq_valueWith, Expr.eval_eq_valueWith]
    exact unlessOutOfFuel.bind (hvalue e env) fun v w hvw => hvw ▸ unlessOutOfFuel_refl _
  · rw [Expr.evalList_eq_mapM, Expr.evalList_eq_mapM]
    refine unlessOutOfFuel.bind (unlessOutOfFuel.mapM fun e _ => hvalue e env) fun vs ws hvs => ?_
    obtain rfl : vs = ws := List.forall₂_eq_eq_eq ▸ hvs.1
    exact unlessOutOfFuel_refl _

/-- A call inside a call takes two units of fuel, and more make no difference; nor do they to a
function that fails for another reason. -/
theorem result_stable_under_more_fuel_nestedCall :
    let inner : Expr := .call (.fn ["y"] (.var "y")) [.var "x"]
    let e : Expr := .call (.fn ["x"] inner) [.int 3]
    let f : Value := .closure [] ["x"] (.var "z")
    e.eval 1 [] = .error .outOfFuel ∧ e.eval 2 [] ≠ .error .outOfFuel ∧
      e.eval 7 [] = e.eval 2 [] ∧ Expr.evalList [e, e] 7 [] = Expr.evalList [e, e] 2 [] ∧
      f.call 2 [.unit] = .error (.unbound "z") ∧ f.call 7 [.unit] = f.call 2 [.unit] := by
  intro inner e f
  have he : e.eval 2 [] = .ok (.int 3, []) := rfl
  have hes : Expr.evalList [e, e] 2 [] = .ok ([.int 3, .int 3], []) := rfl
  have hf : f.call 2 [.unit] = .error (.unbound "z") := rfl
  obtain ⟨heval, hlist, hcall⟩ := result_stable_under_more_fuel (show 2 ≤ 7 by decide)
  exact ⟨rfl, by simp [he], heval e [] (by simp [he]), hlist [e, e] [] (by simp [hes]), hf,
    hcall f [.unit] (by simp [hf])⟩

end CheckedPass
