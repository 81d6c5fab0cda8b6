import CheckedPass.Proofs.Comparisons
import CheckedPass.Proofs.FreeVars
import CheckedPass.Proofs.Hereditary
/-!
# Closed programs

An expression whose free variables are all bound, to values in which every function has captured
what it needs, meets no unbound name, however far calls lead from where its functions were made. A
judge that samples its environments from the standard probes evaluates and calls nothing else.
-/

namespace CheckedPass

namespace Value

/-- A function has captured each free variable of its body that is no parameter. -/
def CapturesFree : Value → Prop
  | .closure env params body => ∀ x ∈ body.freeVars, x ∉ params → x ∈ Env.names env
  | _ => True

/-- Every function in the value has captured what it needs, and so has, in turn, every function in
all that it has captured. -/
inductive Closed : Value → Prop where
  | mk {v : Value} (captures : v.CapturesFree) (parts : ∀ u ∈ v.parts, Closed u) : Closed v

private theorem closed_iff {v : Value} : v.Closed ↔ v.CapturesFree ∧ ∀ u ∈ v.parts, u.Closed := by
  constructor
  · intro h
    cases h with
    | mk captures parts => exact ⟨captures, parts⟩
  · intro h
    exact .mk h.1 h.2

private theorem closed_closure {env : Env} {params : List String} {body : Expr} :
    (closure env params body).Closed ↔
      (∀ x ∈ body.freeVars, x ∉ params → x ∈ env.names) ∧ ∀ p ∈ env, p.2.Closed := by
  rw [closed_iff, parts, List.forall_mem_map]
  rfl

private theorem closed_hereditary : Hereditary False Closed := by
  refine Hereditary.unordered_iff.mpr fun {v} hdata => ?_
  have hcaptures : v.CapturesFree := by
    cases v with
    | closure env params body => cases hdata
    | _ => trivial
  rw [closed_iff, and_iff_right hcaptures]

private theorem closed_of_isFirstOrder {v : Value} (h : v.isFirstOrder = true) : v.Closed := by
  induction v using parts_induction with
  | step v ih =>
    have hdata : v.isFunction = false := by
      cases v with
      | closure env params body => cases h
      | _ => rfl
    refine (Hereditary.unordered_iff.mp closed_hereditary hdata).mpr fun u hu => ih u hu ?_
    exact (Hereditary.unordered_iff.mp isFirstOrder_hereditary hdata).mp h u hu

private theorem standardProbes_closed : ∀ p ∈ standardProbes, p.Closed := by
  have hfunction : ∀ body : Expr, (∀ x ∈ body.freeVars, x ∈ ["x"]) → (functionOfX body).Closed := by
    intro body hbody
    exact closed_closure.mpr ⟨fun x hx hparam => absurd (hbody x hx) hparam, by simp⟩
  intro p hp
  by_cases hfirst : p.isFirstOrder = true
  · exact closed_of_isFirstOrder hfirst
  · have hfunctions : standardProbes.filter (fun p => !p.isFirstOrder) =
        [functionOfX (.var "x"), functionOfX (.int 0),
          functionOfX (.binary (.numeric .add) (.var "x") (.int 1))] := rfl
    have hmem : p ∈ standardProbes.filter (fun p => !p.isFirstOrder) :=
      List.mem_filter.mpr ⟨hp, by simp [hfirst]⟩
    simp only [hfunctions, List.mem_cons, List.not_mem_nil, or_false] at hmem
    rcases hmem with rfl | rfl | rfl <;> exact hfunction _ (by decide)

end Value

/-- The failure to find what a name stands for. -/
def EvalError.isUnbound : EvalError → Bool
  | .unbound _ => true
  | _ => false

/-- Ends in a result of which `Q` holds, or fails otherwise than by an unbound name. -/
abbrev Scoped {α : Type} (Q : α → Prop) (x : EvalResult α) : Prop :=
  EndsIn (fun error => error.isUnbound = false) Q x

private theorem EvalError.isUnbound_of_isOperational (error : EvalError)
    (h : error.isOperational = true) : error.isUnbound = false := by
  cases error <;> first | rfl | cases h

private theorem Scoped.ne_unbound {α : Type} {Q : α → Prop} {x : EvalResult α} (h : Scoped Q x)
    (name : String) : x ≠ .error (.unbound name) := by
  rintro rfl
  cases h with
  | error h => cases h

/-- Every free variable of the expression is bound, and all that is bound is closed. -/
structure Env.Closes (env : Env) (e : Expr) : Prop where
  bound : ∀ x ∈ e.freeVars, x ∈ env.names
  closed : ∀ p ∈ env, p.2.Closed

namespace Env.Closes

variable {env : Env}

theorem lookup {x : String} (h : env.Closes (.var x)) : Scoped Value.Closed (env.lookup x) := by
  have hbound := h.bound x (Expr.mem_freeVars_var.mpr rfl)
  obtain ⟨v, hv⟩ := Option.isSome_iff_exists.mp (Ascending.get?_isSome_iff.mpr hbound)
  have hlookup : env.lookup x = .ok v := by
    simp only [Env.lookup, Env.get?, hv]
  rw [hlookup]
  exact .ok (h.closed _ (Ascending.mem_of_get? hv))

theorem fn {params : List String} {body : Expr} (h : env.Closes (.fn params body)) :
    (Value.closure env params body).Closed := by
  refine Value.closed_closure.mpr ⟨fun x hx hp => ?_, h.closed⟩
  exact h.bound x (Expr.mem_freeVars_fn.mpr ⟨hx, hp⟩)

theorem extend {names : List String} {vs : List Value} {body : Expr}
    (hlen : names.length = vs.length) (hvs : ∀ v ∈ vs, v.Closed)
    (hbound : ∀ x ∈ body.freeVars, x ∉ names → x ∈ env.names) (hclosed : ∀ p ∈ env, p.2.Closed) :
    Closes (env.extend (names.zip vs)) body where
  bound x hx := by
    rw [mem_names_extend hlen]
    by_cases hname : x ∈ names
    · exact .inl hname
    · exact .inr (hbound x hx hname)
  closed := forall_mem_extend hclosed hvs

end Env.Closes

private theorem invariant_closed {call : Value → List Value → EvalResult Value}
    (hcall : ∀ f args, f.Closed → (∀ v ∈ args, v.Closed) → Scoped Value.Closed (call f args)) :
    Invariant (fun error => error.isUnbound = false) Value.Closed call
      (fun e env => env.Closes e) where
  var henv := henv.lookup
  lit _ := (Value.closed_hereditary.literal _).mono_error EvalError.isUnbound_of_isOperational
  fn henv := henv.fn
  unit := Value.closed_hereditary.scalar rfl rfl
  bool _ := Value.closed_hereditary.scalar rfl rfl
  mismatch _ _ _ := rfl
  apply _ haccepts hvs :=
    Value.closed_hereditary.applyWith EvalError.isUnbound_of_isOperational hcall _ haccepts hvs
  misfit _ _ _ _ := rfl
  inScope henv _ hc :=
    ⟨fun x hx => henv.bound x (Expr.freeVars_of_inScope hc hx), henv.closed⟩
  body henv hlen hvs := .extend hlen hvs
    (fun x hx hv => henv.bound x (Expr.mem_freeVars_bind_of_body hx hv)) henv.closed

private theorem Value.call_scoped (fuel : Nat) (f : Value) (args : List Value) (hf : f.Closed)
    (hargs : ∀ v ∈ args, v.Closed) : Scoped Value.Closed (f.call fuel args) := by
  -- By induction on the fuel: the arguments of a call are as many as there are parameters, so what
  -- the body needs is a parameter or has been captured.
  induction fuel generalizing f args with
  | zero => exact .error rfl
  | succ fuel ih =>
    cases f with
    | closure env params body =>
      rw [Value.call_closure]
      split
      · rename_i hlen
        obtain ⟨hcaptured, henv⟩ := Value.closed_closure.mp hf
        exact (invariant_closed ih).valueWith body _ (.extend hlen hargs hcaptured henv)
      · exact .error rfl
    | _ => exact .error rfl

private theorem Value.closed_keptByCalls : KeptByCalls Value.Closed where
  parts hv := (Value.closed_iff.mp hv).2
  call hf hargs fuel := (Value.call_scoped fuel _ _ hf hargs).ensures

private theorem Expr.valueWith_scoped (e : Expr) (fuel : Nat) {env : Env} (henv : env.Closes e) :
    Scoped Value.Closed (e.valueWith (Value.call fuel) env) :=
  (invariant_closed (Value.call_scoped fuel)).valueWith e env henv

namespace Env

/-- What the names stand for, and nothing else. -/
def restrict (env : Env) (names : List String) : Env :=
  names.filterMap fun x => (env.get? x).map (x, ·)

private theorem mem_restrict {env : Env} {names : List String} {p : String × Value} :
    p ∈ env.restrict names ↔ p.1 ∈ names ∧ env.get? p.1 = some p.2 := by
  obtain ⟨x, v⟩ := p
  simp only [restrict, List.mem_filterMap, Option.map_eq_some_iff, Prod.mk.injEq]
  constructor
  · rintro ⟨y, hy, w, hw, rfl, rfl⟩
    exact ⟨hy, hw⟩
  · rintro ⟨hx, hv⟩
    exact ⟨x, hx, v, hv, rfl, rfl⟩

private theorem mem_names_restrict {env : Env} {names : List String} {x : String} {v : Value}
    (hx : x ∈ names) (hv : env.get? x = some v) : x ∈ (env.restrict names).names :=
  List.mem_map.mpr ⟨(x, v), mem_restrict.mpr ⟨hx, hv⟩, rfl⟩

private theorem get?_restrict {env : Env} {names : List String} {x : String} (hx : x ∈ names) :
    (env.restrict names).get? x = env.get? x := by
  have hget : ∀ v, (env.restrict names).get? x = some v → env.get? x = some v :=
    fun v hv => (mem_restrict.mp (Ascending.mem_of_get? hv)).2
  cases hrestrict : (env.restrict names).get? x with
  | some v => exact (hget v hrestrict).symm
  | none =>
    cases henv : env.get? x with
    | none => rfl
    | some v =>
      have hsome := Ascending.get?_isSome_iff.mpr (mem_names_restrict hx henv)
      rw [Env.get?] at hrestrict
      simp [hrestrict] at hsome

end Env

private theorem Expr.eval_closedInUse (e : Expr) (fuel : Nat) {env : Env}
    (h : ∀ x ∈ e.freeVars, ∃ v, env.get? x = some v ∧ v.Closed) :
    Scoped (fun r => ∃ u, r.1.SameInUse u ∧ u.Closed) (e.eval fuel env) := by
  -- Evaluation depends on nothing but what the free variables stand for, so what else the
  -- environment holds can be left out, closed or not: what has been captured of it is of no use.
  have hsame : e.SameScope env (env.restrict e.freeVars) := by
    intro x hx
    obtain ⟨v, hv, -⟩ := h x hx
    rw [Env.get?_restrict hx, hv]
    exact .some (Value.sameInUse_refl v)
  have hcloses : (env.restrict e.freeVars).Closes e := by
    refine ⟨fun x hx => ?_, fun p hp => ?_⟩
    · obtain ⟨v, hv, -⟩ := h x hx
      exact Env.mem_names_restrict hx hv
    · obtain ⟨hfree, hget⟩ := Env.mem_restrict.mp hp
      obtain ⟨v, hv, hclosed⟩ := h p.1 hfree
      rw [hv, Option.some.injEq] at hget
      exact hget ▸ hclosed
  have hrun := e.valueWith_sameInUse fuel hsame
  have hscoped := e.valueWith_scoped fuel hcloses
  rw [eval_eq_valueWith]
  generalize e.valueWith (Value.call fuel) env = x,
    e.valueWith (Value.call fuel) (env.restrict e.freeVars) = y at hrun hscoped
  cases hrun with
  | ok hvu =>
    cases hscoped with
    | ok hu => exact .ok ⟨_, hvu, hu⟩
  | error heq =>
    subst heq
    cases hscoped with
    | error herror => exact .error herror

private theorem Expr.eval_closed (e : Expr) (fuel : Nat) {env : Env} (henv : env.Closes e) :
    Scoped (fun r => r.1.Closed ∧ r.2 = env) (e.eval fuel env) := by
  rw [eval_eq_valueWith]
  exact (e.valueWith_scoped fuel henv).bind fun v hv => .ok ⟨hv, rfl⟩

namespace Judge

variable {before after : Expr}

private theorem closes_of_mem_environmentsFor (budget : Budget) {env : Env}
    (henv : env ∈ (ofBudget budget).environmentsFor before after) :
    env.Closes before ∧ env.Closes after := by
  have hname : ∀ x, x ∈ before.freeVars ∨ x ∈ after.freeVars → x ∈ env.names := fun x hx =>
    names_of_mem_environments henv ((Ascending.mem_union _ _ x).mpr hx)
  have hclosed : ∀ p ∈ env, p.2.Closed := fun p hp =>
    Value.standardProbes_closed p.2 (List.mem_of_mem_filter (mem_pool_of_mem_environments henv hp))
  exact ⟨⟨fun x hx => hname x (.inl hx), hclosed⟩, ⟨fun x hx => hname x (.inr hx), hclosed⟩⟩

private theorem closed_of_compares (budget : Budget) {depth : Nat} {v w : Value}
    (h : (ofBudget budget).Compares before after depth v w) : v.Closed ∧ w.Closed := by
  refine Value.closed_keptByCalls.of_compares Value.standardProbes_closed ?_ h
  intro env henv fuel e he
  have hcloses : env.Closes e := by
    obtain ⟨hbefore, hafter⟩ := closes_of_mem_environmentsFor budget henv
    rcases List.mem_pair.mp he with rfl | rfl
    · exact hbefore
    · exact hafter
  rintro ⟨v, env'⟩ hrun
  obtain ⟨hv, rfl⟩ := (e.eval_closed fuel hcloses).of_eq_ok hrun
  exact ⟨hv, hcloses.closed⟩

end Judge

/-- An expression whose free variables stand for closed values never meets an unbound name. Its
value is closed as far as it can be made use of, and if the rest of the environment is closed as
well then it is closed throughout. In particular, neither the evaluations that a judge with the
standard probes makes in the environments it samples nor the calls it makes to compare functions
ever meet an unbound name. -/
theorem closed_expressions_never_unbound :
    (∀ (e : Expr) (fuel : Nat) (env : Env),
      (∀ x ∈ e.freeVars, ∃ v, env.get? x = some v ∧ v.Closed) →
        (∀ name, e.eval fuel env ≠ .error (.unbound name)) ∧
        ∀ v env', e.eval fuel env = .ok (v, env') →
          (∃ u, v.SameInUse u ∧ u.Closed) ∧ ((∀ p ∈ env, p.2.Closed) → v.Closed)) ∧
    ∀ (budget : Budget) (before after : Expr),
      let j := Judge.ofBudget budget
      (∀ env ∈ j.environmentsFor before after, ∀ fuel ∈ j.fuels, ∀ name,
        before.eval fuel env ≠ .error (.unbound name) ∧
        after.eval fuel env ≠ .error (.unbound name)) ∧
      ∀ (depth : Nat) (env env' : Env) (ps qs : List String) (b c : Expr),
        j.Compares before after (depth + 1) (.closure env ps b) (.closure env' qs c) →
          ∀ args ∈ tuples (j.pool (depth + 1)) ps.length j.budget.maxTuples.toNat,
            ∀ fuel ∈ j.fuels, ∀ name,
              (Value.closure env ps b).call fuel args ≠ .error (.unbound name) ∧
              (Value.closure env' qs c).call fuel args ≠ .error (.unbound name) := by
  refine ⟨fun e fuel env h => ⟨(e.eval_closedInUse fuel h).ne_unbound, fun v env' hrun => ?_⟩, ?_⟩
  · refine ⟨(e.eval_closedInUse fuel h).of_eq_ok hrun, fun henv => ?_⟩
    have hcloses : env.Closes e := by
      refine ⟨fun x hx => ?_, henv⟩
      obtain ⟨v, hv, -⟩ := h x hx
      exact List.mem_map_of_mem (Ascending.mem_of_get? hv)
    exact ((e.eval_closed fuel hcloses).of_eq_ok hrun).1
  · intro budget before after j
    refine ⟨fun env henv fuel _ name => ?_,
      fun depth env env' ps qs b c h args hargs fuel _ name => ?_⟩
    · obtain ⟨hbefore, hafter⟩ := Judge.closes_of_mem_environmentsFor budget henv
      exact ⟨(before.eval_closed fuel hbefore).ne_unbound name,
        (after.eval_closed fuel hafter).ne_unbound name⟩
    · obtain ⟨hf, hg⟩ := Judge.closed_of_compares budget h
      have hclosed := KeptByCalls.of_mem_tuples Value.standardProbes_closed hargs
      exact ⟨(Value.call_scoped fuel _ args hf hclosed).ne_unbound name,
        (Value.call_scoped fuel _ args hg hclosed).ne_unbound name⟩

/-- A function that adds what it has captured, beside a name that stands for a function that misses
something, and the same function compared by a judge. -/
theorem closed_expressions_never_unbound_adder :
    let body : Expr := .binary (.numeric .add) (.var "x") (.var "y")
    let adder : Expr := .fn ["y"] body
    let e : Expr := .call adder [.int 1]
    let env : Env := [("x", .int 2), ("z", .closure [] [] (.var "w"))]
    let j := Judge.ofBudget ⟨2, 1, 1⟩
    let f : Value := .closure [("x", .unit)] ["y"] body
    (∀ x ∈ e.freeVars, ∃ v, env.get? x = some v ∧ v.Closed) ∧
      (∀ name, e.eval 1 env ≠ .error (.unbound name)) ∧
      adder.eval 0 [("x", .unit)] = .ok (f, [("x", .unit)]) ∧ f.Closed ∧
      [("x", .unit)] ∈ j.environmentsFor adder (.block [adder]) ∧
      (Expr.block [adder]).eval 1 [("x", .unit)] ≠ .error (.unbound "x") ∧
      j.Compares adder (.block [adder]) 2 f f ∧ f.call 1 [.unit] ≠ .error (.unbound "x") := by
  intro body adder e env j f
  obtain ⟨hclosed, hjudge⟩ := closed_expressions_never_unbound
  have hfree : e.freeVars = ["x"] := by decide
  have hbound : ∀ x ∈ e.freeVars, ∃ v, env.get? x = some v ∧ v.Closed := by
    intro x hx
    obtain rfl : x = "x" := by simpa [hfree] using hx
    exact ⟨.int 2, rfl, Value.closed_of_isFirstOrder rfl⟩
  have hunit : ∀ p ∈ ([("x", .unit)] : Env), p.2.Closed :=
    List.forall_mem_singleton.mpr (Value.closed_of_isFirstOrder rfl)
  have hfunction : adder.eval 0 [("x", .unit)] = .ok (f, [("x", .unit)]) := rfl
  have hadder : adder.freeVars = ["x"] := by decide
  have hscope : ∀ x ∈ adder.freeVars, ∃ v, Env.get? [("x", .unit)] x = some v ∧ v.Closed := by
    intro x hx
    obtain rfl : x = "x" := by simpa [hadder] using hx
    exact ⟨.unit, rfl, Value.closed_of_isFirstOrder rfl⟩
  have henvs : j.environmentsFor adder (.block [adder]) = [[("x", .unit)]] := by rfl
  have henv : [("x", .unit)] ∈ j.environmentsFor adder (.block [adder]) := by simp [henvs]
  have hcompares : j.Compares adder (.block [adder]) 2 f f :=
    .value henv (by decide : 0 ∈ j.fuels) rfl rfl .start
  have hargs : [.unit] ∈ tuples (j.pool 2) 1 1 := by
    have htuples : tuples (j.pool 2) 1 1 = [[.unit]] := rfl
    simp [htuples]
  obtain ⟨hevals, hcalls⟩ := hjudge ⟨2, 1, 1⟩ adder (.block [adder])
  exact ⟨hbound, (hclosed e 1 env hbound).1, hfunction,
    ((hclosed adder 0 _ hscope).2 _ _ hfunction).2 hunit, henv, (hevals _ henv 1 (by decide) "x").2,
    hcompares, (hcalls 1 _ _ _ _ _ _ hcompares [.unit] hargs 1 (by decide) "x").1⟩

/-- A function captures its whole environment, so it is not closed if a name it makes no use of
stands for a function that misses something. -/
theorem unused_capture_not_closed :
    let env : Env := [("z", .closure [] [] (.var "y"))]
    let e : Expr := .fn [] .unit
    (∀ x ∈ e.freeVars, ∃ v, env.get? x = some v ∧ v.Closed) ∧
      e.eval 0 env = .ok (.closure env [] .unit, env) ∧
      ¬ (Value.closure env [] .unit).Closed := by
  intro env e
  have hfree : e.freeVars = [] := by decide
  refine ⟨by simp [hfree], rfl, fun hclosed => ?_⟩
  have hz : (Value.closure [] [] (.var "y")).Closed :=
    (Value.closed_closure.mp hclosed).2 ("z", _) List.mem_cons_self
  have hy := (Value.closed_closure.mp hz).1 "y" (by decide) List.not_mem_nil
  exact absurd hy List.not_mem_nil

end CheckedPass
