import CheckedPass.Proofs.Fuel
import CheckedPass.Proofs.Hereditary
/-!
# Interpretable expressions

An expression is interpretable if every operator has as many operands as it takes and every binding
as many values as names. This is checked once, on the tree. Where all functions at hand have
interpretable bodies, an interpretable expression yields no other functions, so the check need not
be repeated on what evaluation makes. Counts then matter only in calls, between a function and its
arguments: an expression without calls neither meets a wrong count nor takes any fuel.
-/

namespace CheckedPass

namespace Value

/-- The first value is the second, or lies inside it: in a collection, or among what a function has
captured. -/
inductive Within : Value → Value → Prop where
  | self (v : Value) : Within v v
  | part {u w v : Value} (hw : w ∈ v.parts) (hu : Within u w) : Within u v

private theorem within_iff {u v : Value} : u.Within v ↔ u = v ∨ ∃ w ∈ v.parts, u.Within w := by
  constructor
  · intro h
    cases h with
    | self => exact .inl rfl
    | part hw hu => exact .inr ⟨_, hw, hu⟩
  · intro h
    rcases h with rfl | ⟨w, hw, hu⟩
    · exact .self u
    · exact .part hw hu

/-- Every function in the value has an interpretable body. -/
def BodiesInterpretable (v : Value) : Prop :=
  ∀ (env : Env) (params : List String) (body : Expr),
    (closure env params body).Within v → body.isInterpretable = true

private theorem bodiesInterpretable_hereditary : Hereditary False BodiesInterpretable := by
  refine Hereditary.unordered_iff.mpr fun {v} hdata => ?_
  constructor
  · intro h u hu env params body hwithin
    exact h env params body (.part hu hwithin)
  · intro h env params body hwithin
    rcases within_iff.mp hwithin with rfl | ⟨u, hu, hwithin⟩
    · cases hdata
    · exact h u hu env params body hwithin

private theorem bodiesInterpretable_closure {env : Env} {params : List String} {body : Expr} :
    (closure env params body).BodiesInterpretable ↔
      body.isInterpretable = true ∧ ∀ p ∈ env, p.2.BodiesInterpretable := by
  constructor
  · intro h
    have hcaptured : ∀ p ∈ env, p.2.BodiesInterpretable := by
      intro p hp env' params' body' hwithin
      exact h env' params' body' (.part (List.mem_map_of_mem hp) hwithin)
    exact ⟨h env params body (.self _), hcaptured⟩
  · intro h env' params' body' hwithin
    rcases within_iff.mp hwithin with heq | ⟨u, hu, hwithin⟩
    · cases heq
      exact h.1
    · obtain ⟨p, hp, rfl⟩ := List.mem_map.mp hu
      exact h.2 p hp env' params' body' hwithin

end Value

namespace Expr

private theorem ofFunctions_of_isInterpretable {e : Expr} (he : e.isInterpretable = true) :
    Hereditary.OfFunctions Value.BodiesInterpretable e := by
  intro params body hmem env henv
  have hfn : (fn params body).isInterpretable = true := all_of_mem_nodes he hmem
  have hbody : body.isInterpretable = true := all_child hfn (by simp [children])
  exact Value.bodiesInterpretable_closure.mpr ⟨hbody, henv⟩

end Expr

private theorem Value.call_bodiesInterpretable (fuel : Nat) (f : Value) (args : List Value)
    (hf : f.BodiesInterpretable) (hargs : ∀ v ∈ args, v.BodiesInterpretable) :
    EndsIn (fun _ => True) Value.BodiesInterpretable (f.call fuel args) := by
  -- By induction on the fuel: the body that a call runs is interpretable.
  induction fuel generalizing f args with
  | zero => exact .error trivial
  | succ fuel ih =>
    cases f with
    | closure env params body =>
      obtain ⟨hbody, henv⟩ := Value.bodiesInterpretable_closure.mp hf
      rw [Value.call_closure]
      split
      · have hscope : ∀ p ∈ Env.extend env (params.zip args), p.2.BodiesInterpretable :=
          Env.forall_mem_extend henv hargs
        exact Value.bodiesInterpretable_hereditary.valueWith ih
          (Expr.ofFunctions_of_isInterpretable hbody) hscope
      · exact .error trivial
    | _ => exact .error trivial

private theorem Expr.eval_bodiesInterpretable {e : Expr} (he : e.isInterpretable = true)
    (fuel : Nat) {env : Env} (henv : ∀ p ∈ env, p.2.BodiesInterpretable) :
    Ensures (fun r => r.1.BodiesInterpretable ∧ ∀ p ∈ r.2, p.2.BodiesInterpretable)
      (e.eval fuel env) := by
  have hvalue := Value.bodiesInterpretable_hereditary.valueWith
    (Value.call_bodiesInterpretable fuel) (ofFunctions_of_isInterpretable he) henv
  intro r hrun
  obtain ⟨hback, hr⟩ := evalWith_eq_ok_iff.mp hrun
  rw [hback]
  exact ⟨hvalue.of_eq_ok hr, henv⟩

namespace EvalError

/-- There are too few or too many of something, or the fuel that calls are paid for with is used
up. -/
def isAboutCounts : EvalError → Bool
  | .arityMismatch _ _ | .outOfFuel => true
  | _ => false

private theorem isAboutCounts_of_isOperational (error : EvalError)
    (h : error.isOperational = true) : error.isAboutCounts = false := by
  cases error with
  | arityMismatch | outOfFuel => cases h
  | _ => rfl

end EvalError

/-- Succeeds, or fails otherwise than about a count. -/
abbrev Counted {α : Type} (x : EvalResult α) : Prop :=
  EndsIn (fun error => error.isAboutCounts = false) (fun _ => True) x

private theorem hereditary_true : Hereditary False fun _ => True :=
  Hereditary.unordered_iff.mpr fun _ => by simp

namespace Expr

variable {call : Value → List Value → EvalResult Value}

private theorem invariant_counted (hcall : ∀ f args, Counted (call f args)) :
    Invariant (fun error => error.isAboutCounts = false) (fun _ => True) call
      (fun e _ => e.isInterpretable = true) where
  var _ := Env.lookup_endsIn (fun _ _ => trivial) rfl
  lit _ := (hereditary_true.literal _).mono_error EvalError.isAboutCounts_of_isOperational
  fn _ := trivial
  unit := trivial
  bool _ := trivial
  mismatch _ _ _ := rfl
  apply _ haccepts hvs := hereditary_true.applyWith EvalError.isAboutCounts_of_isOperational
    (fun f args _ _ => hcall f args) _ haccepts hvs
  misfit _ _ he hnode := by
    have hfits := (all_iff _ _).mp he _ (mem_nodes_self _)
    rw [hnode] at hfits
    cases hfits
  inScope he _ hc := all_child he (mem_children_of_inScope hc)
  body he _ _ := all_child he (by simp [children])

private theorem valueWith_counted (hcall : ∀ f args, Counted (call f args)) {e : Expr}
    (he : e.isInterpretable = true) (env : Env) : Counted (e.valueWith call env) :=
  (invariant_counted hcall).valueWith e env he

def isCall : Expr → Bool
  | .app (.eager .call) _ => true
  | _ => false

/-- No node of the expression is a call, not even in the body of a function. -/
def MakesNoCall (e : Expr) : Prop :=
  ∀ n ∈ e.nodes, n.isCall = false

instance (e : Expr) : Decidable e.MakesNoCall :=
  inferInstanceAs (Decidable (∀ n ∈ e.nodes, n.isCall = false))

theorem MakesNoCall.child {e c : Expr} (he : e.MakesNoCall) (hc : c ∈ e.children) :
    c.MakesNoCall :=
  fun n hn => he n (mem_nodes_of_child hc hn)

private theorem parametric_makesNoCall (call call' : Value → List Value → EvalResult Value) :
    Parametric (.together Eq) Eq call call' (fun e env env' => env = env' ∧ e.MakesNoCall) where
  var h := .of_eq (by rw [h.1])
  lit _ := .of_eq rfl
  fn h := by rw [h.1]
  unit := rfl
  bool _ := rfl
  asBool _ hvw := .of_eq (by rw [hvw])
  apply := by
    intro op args env env' vs ws h _ hvs
    obtain rfl : vs = ws := List.forall₂_eq_eq_eq ▸ hvs
    have hop : op ≠ .call := by
      intro heq
      subst heq
      cases h.2 _ (mem_nodes_self _)
    exact .of_eq (EagerOp.applyWith_eq_of_ne_call hop call call' vs)
  misfit _ _ _ _ := .error rfl
  inScope h c hc := ⟨h.1, h.2.child (mem_children_of_inScope hc)⟩
  body := by
    intro vars vals body env env' vs ws h _ hvs
    obtain rfl : vs = ws := List.forall₂_eq_eq_eq ▸ hvs
    exact ⟨by rw [h.1], h.2.child (by simp [children])⟩

private theorem valueWith_eq_of_makesNoCall {e : Expr} (he : e.MakesNoCall)
    (call call' : Value → List Value → EvalResult Value) (env : Env) :
    e.valueWith call env = e.valueWith call' env :=
  ((parametric_makesNoCall call call').valueWith e env env ⟨rfl, he⟩).eq

private theorem eval_counted {e : Expr} (he : e.isInterpretable = true) (hcalls : e.MakesNoCall)
    (fuel : Nat) (env : Env) : Counted (e.eval fuel env) := by
  -- Calls do run out of fuel, but here calls that always succeed do as well.
  let granted : Value → List Value → EvalResult Value := fun _ _ => .ok .unit
  have hgranted : ∀ f args, Counted (granted f args) := fun _ _ => .ok trivial
  rw [eval_eq_valueWith, valueWith_eq_of_makesNoCall hcalls (Value.call fuel) granted]
  exact (valueWith_counted hgranted he env).bind fun _ _ => .ok trivial

end Expr

/-- What an interpretable expression can be relied on for. In an environment where every function
has an interpretable body, so has every function in what it yields. If it makes no calls, then in
whatever environment it never fails because of a count of operands or for want of fuel, and the fuel
makes no difference. -/
theorem interpretable_expressions_reliable {e : Expr} (he : e.isInterpretable = true) :
    (∀ (fuel : Nat) (env : Env), (∀ p ∈ env, p.2.BodiesInterpretable) →
      ∀ v env', e.eval fuel env = .ok (v, env') →
        v.BodiesInterpretable ∧ ∀ p ∈ env', p.2.BodiesInterpretable) ∧
    (e.MakesNoCall → ∀ env : Env,
      (∀ fuel expected found, e.eval fuel env ≠ .error (.arityMismatch expected found)) ∧
      (∀ fuel, e.eval fuel env ≠ .error .outOfFuel) ∧
      ∀ fuel fuel', e.eval fuel env = e.eval fuel' env) := by
  constructor
  · intro fuel env henv v env' hrun
    exact Expr.eval_bodiesInterpretable he fuel henv _ hrun
  · intro hcalls env
    have hends : ∀ fuel, Counted (e.eval fuel env) := fun fuel =>
      Expr.eval_counted he hcalls fuel env
    refine ⟨fun fuel expected found hrun => ?_, fun fuel hrun => ?_, fun fuel fuel' => ?_⟩
    · cases (hends fuel).of_eq_error hrun
    · cases (hends fuel).of_eq_error hrun
    · rw [Expr.eval_eq_valueWith, Expr.eval_eq_valueWith,
        Expr.valueWith_eq_of_makesNoCall hcalls (Value.call fuel) (Value.call fuel')]

/-- A function with a binding in its body, put into a map beside a function that was there before.
Nothing is called, so it takes no fuel; where the map is missing it fails, but not about a count. -/
theorem interpretable_expressions_reliable_map :
    let body : Expr := .bind ["y"] [.var "x"] (.binary (.equality .eq) (.var "y") (.int 1))
    let e : Expr := .ternary .mapUpdate (.var "m") (.int 2) (.fn ["x"] body)
    let f : Value := .closure [] ["z"] (.var "z")
    let env : Env := [("m", .map [(.int 1, f)])]
    let v : Value := .map [(.int 1, f), (.int 2, .closure env ["x"] body)]
    e.isInterpretable = true ∧ (∀ p ∈ env, p.2.BodiesInterpretable) ∧ e.MakesNoCall ∧
      e.eval 0 env = .ok (v, env) ∧ v.BodiesInterpretable ∧ e.eval 5 env = e.eval 0 env ∧
      (∀ expected found, e.eval 3 [] ≠ .error (.arityMismatch expected found)) ∧
      e.eval 3 [] ≠ .error .outOfFuel := by
  intro body e f env v
  have he : e.isInterpretable = true := by decide
  have hf : f.BodiesInterpretable :=
    Value.bodiesInterpretable_closure.mpr ⟨by decide, List.forall_mem_nil _⟩
  have hone : (Value.int 1).BodiesInterpretable :=
    Value.bodiesInterpretable_hereditary.scalar rfl rfl
  have hm : (Value.map [(.int 1, f)]).BodiesInterpretable :=
    Value.bodiesInterpretable_hereditary.map.mpr
      ⟨False.elim, List.forall_mem_singleton.mpr ⟨hone, hf⟩⟩
  have henv : ∀ p ∈ env, p.2.BodiesInterpretable := List.forall_mem_singleton.mpr hm
  have hcalls : e.MakesNoCall := by decide
  have hrun : e.eval 0 env = .ok (v, env) := by decide
  obtain ⟨hbodies, hcounts⟩ := interpretable_expressions_reliable he
  exact ⟨he, henv, hcalls, hrun, (hbodies 0 env henv v env hrun).1, (hcounts hcalls env).2.2 5 0,
    (hcounts hcalls []).1 3, (hcounts hcalls []).2.1 3⟩

end CheckedPass
