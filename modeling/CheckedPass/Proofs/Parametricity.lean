import CheckedPass.Proofs.Ascending
import CheckedPass.Proofs.Simulation
import CheckedPass.Proofs.Valuation
/-!
# Evaluation is parametric

A lifting relates computations whose results are related, step by step. Two evaluations of one
expression are related by a lifting as soon as what they start from is: variables, literals,
functions, truth values, and operators on related operands. A property of a single evaluation is
the case where both evaluations are the same one.
-/

namespace CheckedPass

/-- A way to relate computations, given how their results are related. -/
structure Lifting where
  Rel {α : Type} (A : α → α → Prop) (x y : EvalResult α) : Prop
  ok {α : Type} {A : α → α → Prop} {a b : α} (h : A a b) : Rel A (.ok a) (.ok b)
  bind {α β : Type} {A : α → α → Prop} {B : β → β → Prop} {x y : EvalResult α}
    {f g : α → EvalResult β} (h : Rel A x y) (hfg : ∀ a b, A a b → Rel B (f a) (g b)) :
    Rel B (x >>= f) (y >>= g)

namespace Lifting

/-- Both succeed, or both fail with errors related by `E`. -/
def together (E : EvalError → EvalError → Prop) : Lifting where
  Rel A := Together E A
  ok := .ok
  bind := .bind

theorem mapM (T : Lifting) {α : Type} {S : Value → Value → Prop} {f g : α → EvalResult Value}
    {es : List α} (h : ∀ e ∈ es, T.Rel S (f e) (g e)) :
    T.Rel (fun vs ws => List.Forall₂ S vs ws ∧ vs.length = es.length) (es.mapM f) (es.mapM g) := by
  induction es with
  | nil => exact T.ok ⟨.nil, rfl⟩
  | cons e es ih =>
    rw [List.mapM_cons, List.mapM_cons]
    refine T.bind (h e List.mem_cons_self) fun v w hvw => ?_
    refine T.bind (ih fun c hc => h c (List.mem_cons_of_mem _ hc)) fun vs ws hvs => ?_
    exact T.ok ⟨.cons hvw hvs.1, by simp [hvs.2]⟩

end Lifting

/-- The children that see the scope of the node itself: all but the bodies of functions and of
bindings. -/
def Expr.inScope : Expr → List Expr
  | .fn _ _ => []
  | .bind _ vals _ => vals
  | e => e.children

theorem Expr.mem_children_of_inScope {e c : Expr} (hc : c ∈ e.inScope) : c ∈ e.children := by
  cases e with
  | fn params body => cases hc
  | bind vars vals body => exact List.mem_append_left _ hc
  | _ => exact hc

/-- What two evaluations of one expression start from is related, each by its own `call` and in its
own environment. `Fits` says which expressions may be met in which environments. -/
structure Parametric (T : Lifting) (S : Value → Value → Prop)
    (call call' : Value → List Value → EvalResult Value) (Fits : Expr → Env → Env → Prop) :
    Prop where
  var {x env env'} : Fits (.var x) env env' → T.Rel S (Env.lookup env x) (Env.lookup env' x)
  lit {a env env'} : Fits (.lit a) env env' → T.Rel S a.value a.value
  fn {params body env env'} :
    Fits (.fn params body) env env' → S (.closure env params body) (.closure env' params body)
  unit : S .unit .unit
  bool (b : Bool) : S (.bool b) (.bool b)
  asBool {v w} (site : Site) : S v w → T.Rel Eq (v.asBool site) (w.asBool site)
  apply {op args env env' vs ws} : Fits (.app (.eager op) args) env env' →
    op.arity.accepts vs.length = true → List.Forall₂ S vs ws →
      T.Rel S (op.applyWith call vs) (op.applyWith call' ws)
  misfit {e env env'} (m n : Nat) : Fits e env env' → e.isInterpretableNode = false →
    T.Rel S (.error (.arityMismatch m n)) (.error (.arityMismatch m n))
  inScope {e env env'} : Fits e env env' → ∀ c ∈ e.inScope, Fits c env env'
  body {vars vals body env env' vs ws} : Fits (.bind vars vals body) env env' →
    vars.length = vs.length → List.Forall₂ S vs ws →
      Fits body (Env.extend env (vars.zip vs)) (Env.extend env' (vars.zip ws))

namespace Parametric

variable {T : Lifting} {S : Value → Value → Prop}
  {call call' : Value → List Value → EvalResult Value} {Fits : Expr → Env → Env → Prop}

private theorem connective (h : Parametric T S call call' Fits) (op : Connective)
    {lhs rhs : Expr} {env env' : Env}
    (hl : T.Rel S (lhs.valueWith call env) (lhs.valueWith call' env'))
    (hr : T.Rel S (rhs.valueWith call env) (rhs.valueWith call' env')) :
    T.Rel S ((Expr.lazily op lhs rhs).valueWith call env)
      ((Expr.lazily op lhs rhs).valueWith call' env') := by
  rw [Expr.valueWith_lazily, Expr.valueWith_lazily]
  refine T.bind hl fun v w hvw => T.bind (h.asBool _ hvw) fun b c hbc => ?_
  subst hbc
  cases op.decided b with
  | some d => exact T.ok (h.bool d)
  | none =>
    refine T.bind hr fun v w hvw => T.bind (h.asBool _ hvw) fun b c hbc => ?_
    subst hbc
    exact T.ok (h.bool b)

/-- Two evaluations of one expression are related if what they start from is. -/
theorem valueWith (h : Parametric T S call call' Fits) (e : Expr) (env env' : Env)
    (hfit : Fits e env env') : T.Rel S (e.valueWith call env) (e.valueWith call' env') := by
  induction e using Expr.children_induction generalizing env env' with
  | step e ih =>
    have hvalues : ∀ es : List Expr, (∀ c ∈ es, c ∈ e.children ∧ Fits c env env') →
        T.Rel (fun vs ws => List.Forall₂ S vs ws ∧ vs.length = es.length)
          (es.mapM (Expr.valueWith call · env)) (es.mapM (Expr.valueWith call' · env')) := by
      intro es hes
      exact T.mapM fun c hc => ih c (hes c hc).1 env env' (hes c hc).2
    have hscope := h.inScope hfit
    cases e with
    | var x =>
      rw [Expr.valueWith_var, Expr.valueWith_var]
      exact h.var hfit
    | lit a =>
      rw [Expr.valueWith_lit, Expr.valueWith_lit]
      exact h.lit hfit
    | fn params body =>
      rw [Expr.valueWith_fn, Expr.valueWith_fn]
      exact T.ok (h.fn hfit)
    | app op args =>
      cases op with
      | lazy op =>
        by_cases hlen : args.length = 2
        · obtain ⟨lhs, rhs, rfl⟩ := List.length_eq_two.mp hlen
          have hoperand : ∀ c ∈ [lhs, rhs],
              T.Rel S (c.valueWith call env) (c.valueWith call' env') :=
            fun c hc => ih c hc env env' (hscope c hc)
          exact h.connective op (hoperand lhs (by simp)) (hoperand rhs (by simp))
        · rw [Expr.valueWith_lazy_of_length_ne op hlen, Expr.valueWith_lazy_of_length_ne op hlen]
          exact h.misfit _ _ hfit (decide_eq_false hlen)
      | eager op =>
        rw [Expr.valueWith_eager, Expr.valueWith_eager]
        split
        · rename_i haccepts
          refine T.bind (hvalues args fun c hc => ⟨hc, hscope c hc⟩) fun vs ws hvs => ?_
          exact h.apply hfit (hvs.2 ▸ haccepts) hvs.1
        · rename_i haccepts
          exact h.misfit _ _ hfit (Bool.eq_false_iff.mpr haccepts)
    | block items =>
      rw [Expr.valueWith_block, Expr.valueWith_block]
      refine T.bind (hvalues items fun c hc => ⟨hc, hscope c hc⟩) fun vs ws hvs => ?_
      exact T.ok (Likeness.getLastD_like hvs.1 h.unit)
    | cond test yes no =>
      have hbranch : ∀ c ∈ [test, yes, no],
          T.Rel S (c.valueWith call env) (c.valueWith call' env') :=
        fun c hc => ih c hc env env' (hscope c hc)
      rw [Expr.valueWith_cond, Expr.valueWith_cond]
      refine T.bind (hbranch test (by simp)) fun t t' ht => T.bind (h.asBool _ ht) fun b c hbc => ?_
      subst hbc
      split
      · exact hbranch yes (by simp)
      · exact hbranch no (by simp)
    | bind vars vals body =>
      rw [Expr.valueWith_bind, Expr.valueWith_bind]
      split
      · rename_i hlen
        have hvals := hvalues vals fun c hc => ⟨List.mem_append_left _ hc, hscope c hc⟩
        refine T.bind hvals fun vs ws hvs => ?_
        exact ih body (by simp [Expr.children]) _ _ (h.body hfit (hlen.trans hvs.2.symm) hvs.1)
      · rename_i hlen
        exact h.misfit _ _ hfit (decide_eq_false hlen)

end Parametric

/-- What an evaluation starts from has `V`, as far as it yields values, and otherwise fails with
errors of which `E` holds. `Fits` says which expressions may be met in which environments. -/
structure Invariant (E : EvalError → Prop) (V : Value → Prop)
    (call : Value → List Value → EvalResult Value) (Fits : Expr → Env → Prop) : Prop where
  var {x env} : Fits (.var x) env → EndsIn E V (Env.lookup env x)
  lit {a env} : Fits (.lit a) env → EndsIn E V a.value
  fn {params body env} : Fits (.fn params body) env → V (.closure env params body)
  unit : V .unit
  bool (b : Bool) : V (.bool b)
  mismatch (site : Site) (expected : Expectation) (found : Finding) :
    E (.typeMismatch site expected found)
  apply {op args env vs} : Fits (.app (.eager op) args) env → op.arity.accepts vs.length = true →
    (∀ v ∈ vs, V v) → EndsIn E V (op.applyWith call vs)
  misfit {e env} (m n : Nat) : Fits e env → e.isInterpretableNode = false →
    E (.arityMismatch m n)
  inScope {e env} : Fits e env → ∀ c ∈ e.inScope, Fits c env
  body {vars vals body env vs} : Fits (.bind vars vals body) env → vars.length = vs.length →
    (∀ v ∈ vs, V v) → Fits body (Env.extend env (vars.zip vs))

namespace Invariant

variable {E : EvalError → Prop} {V : Value → Prop}
  {call : Value → List Value → EvalResult Value} {Fits : Expr → Env → Prop}

private theorem forall₂_diagonal {vs ws : List Value}
    (h : List.Forall₂ (fun v w => v = w ∧ V v) vs ws) : vs = ws ∧ ∀ v ∈ vs, V v := by
  induction h with
  | nil => exact ⟨rfl, by simp⟩
  | cons hvw _ ih =>
    obtain ⟨rfl, hv⟩ := hvw
    obtain ⟨rfl, hvs⟩ := ih
    exact ⟨rfl, List.forall_mem_cons.mpr ⟨hv, hvs⟩⟩

private theorem parametric (h : Invariant E V call Fits) :
    Parametric (.together fun x _ => E x) (fun v w => v = w ∧ V v) call call
      (fun e env env' => env = env' ∧ Fits e env) where
  var := by
    intro x env env' hfit
    obtain ⟨rfl, hfit⟩ := hfit
    exact EndsIn.iff_together.mp (h.var hfit)
  lit hfit := EndsIn.iff_together.mp (h.lit hfit.2)
  fn := by
    intro params body env env' hfit
    obtain ⟨rfl, hfit⟩ := hfit
    exact ⟨rfl, h.fn hfit⟩
  unit := ⟨rfl, h.unit⟩
  bool b := ⟨rfl, h.bool b⟩
  asBool := by
    intro v w site hvw
    obtain ⟨rfl, -⟩ := hvw
    cases v with
    | bool b => exact .ok rfl
    | _ => exact .error (h.mismatch _ _ _)
  apply := by
    intro op args env env' vs ws hfit haccepts hvs
    obtain ⟨rfl, hV⟩ := forall₂_diagonal hvs
    exact EndsIn.iff_together.mp (h.apply hfit.2 haccepts hV)
  misfit m n hfit he := .error (h.misfit m n hfit.2 he)
  inScope hfit c hc := ⟨hfit.1, h.inScope hfit.2 c hc⟩
  body := by
    intro vars vals body env env' vs ws hfit hlen hvs
    obtain ⟨rfl, hfit⟩ := hfit
    obtain ⟨rfl, hV⟩ := forall₂_diagonal hvs
    exact ⟨rfl, h.body hfit hlen hV⟩

/-- An evaluation yields what has `V`, or fails with an error of which `E` holds, if what it starts
from does. -/
theorem valueWith (h : Invariant E V call Fits) (e : Expr) (env : Env) (hfit : Fits e env) :
    EndsIn E V (e.valueWith call env) :=
  EndsIn.iff_together.mpr (h.parametric.valueWith e env env ⟨rfl, hfit⟩)

end Invariant

namespace Realm

variable {R : Realm}

private theorem invariant {call : Value → List Value → EvalResult Value}
    (hcall : ∀ f args, R.Holds f → (∀ v ∈ args, R.Holds v) → Ensures R.Holds (call f args)) :
    Invariant (fun _ => True) R.Holds call (fun _ env => R.Fits env) where
  var hfit := Env.lookup_endsIn (R.bound hfit) trivial
  lit _ := .of_ensures (R.literal _)
  fn hfit := R.closure.mpr hfit
  unit := R.unit
  bool := R.bool
  mismatch _ _ _ := trivial
  apply _ _ hvs := .of_ensures (R.apply _ hvs fun f args heq => by
    subst heq
    obtain ⟨hf, hargs⟩ := List.forall_mem_cons.mp hvs
    exact hcall f args hf hargs)
  misfit _ _ _ _ := trivial
  inScope hfit _ _ := hfit
  body hfit _ hvs := R.extend _ hfit hvs

private theorem call_holds (fuel : Nat) (f : Value) (args : List Value) (hf : R.Holds f)
    (hargs : ∀ v ∈ args, R.Holds v) : Ensures R.Holds (f.call fuel args) := by
  -- By induction on the fuel: a function of the realm has captured an environment of it.
  induction fuel generalizing f args with
  | zero => exact .error _
  | succ fuel ih =>
    cases f with
    | closure env params body =>
      rw [Value.call_closure]
      split
      · exact ((invariant ih).valueWith body _
          (R.extend params (R.closure.mp hf) hargs)).ensures
      · exact .error _
    | _ => exact .error _

/-- Evaluation does not lead out of a realm. -/
theorem valueWith_holds (e : Expr) (fuel : Nat) {env : Env} (henv : R.Fits env) :
    Ensures R.Holds (e.valueWith (Value.call fuel) env) :=
  ((invariant (call_holds fuel)).valueWith e env henv).ensures

end Realm

end CheckedPass
