import CheckedPass.Eval.Evaluator
import CheckedPass.Proofs.Ascending
import CheckedPass.Proofs.LikeOperands
import CheckedPass.Proofs.Tree
/-!
# Expressions that stand for one another

One expression stands for another when in alike environments the two run together: both yield alike
values, or both fail. A node over children that stand for its own stands for the node, so a change
to a tree need only be looked at where it happens. All this may be confined to a realm, a part of
the values that evaluation does not lead out of.
-/

namespace CheckedPass

namespace Likeness

variable {S : Value → Value → Prop} {env env' : Env}

private theorem lookup_like (h : List.Forall₂ (SameKey S) env env') (x : String) :
    Together Eq S (Env.lookup env x) (Env.lookup env' x) := by
  have hget := Ascending.get?_like x h
  simp only [Env.lookup, Env.get?]
  generalize Ascending.get? x env = v, Ascending.get? x env' = v' at hget
  cases hget with
  | none => exact .error rfl
  | some hv => exact .ok hv

private theorem extend_like (h : List.Forall₂ (SameKey S) env env') (names : List String)
    {vs ws : List Value} (hvs : List.Forall₂ S vs ws) :
    List.Forall₂ (SameKey S) (Env.extend env (names.zip vs)) (Env.extend env' (names.zip ws)) :=
  Ascending.putAll_like h (zip_like names hvs)

theorem getLastD_like {vs ws : List Value} {v w : Value} (h : List.Forall₂ S vs ws) (hvw : S v w) :
    S (vs.getLastD v) (ws.getLastD w) := by
  induction h generalizing v w with
  | nil => exact hvw
  | cons hhead _ ih => simpa only [List.getLastD_cons] using ih hhead

end Likeness

theorem Env.lookup_endsIn {E : EvalError → Prop} {V : Value → Prop} {env : Env}
    (henv : ∀ p ∈ env, V p.2) {x : String} (hunbound : E (.unbound x)) :
    EndsIn E V (env.lookup x) := by
  cases hx : env.get? x with
  | none =>
    simp only [lookup, hx]
    exact .error hunbound
  | some v =>
    simp only [lookup, hx]
    exact .ok (henv _ (Ascending.mem_of_get? hx))

/-- A part of the values, with the environments over it, that operators and bindings do not lead out
of. -/
structure Realm where
  Holds : Value → Prop
  Fits : Env → Prop
  bound {env : Env} : Fits env → ∀ p ∈ env, Holds p.2
  literal (a : Literal) : Ensures Holds a.value
  unit : Holds .unit
  bool (b : Bool) : Holds (.bool b)
  closure {env : Env} {ps : List String} {b : Expr} : Holds (.closure env ps b) ↔ Fits env
  extend {env : Env} {vs : List Value} (names : List String) : Fits env → (∀ v ∈ vs, Holds v) →
    Fits (env.extend (names.zip vs))
  apply {call : Value → List Value → EvalResult Value} (op : EagerOp) {vs : List Value} :
    (∀ v ∈ vs, Holds v) → (∀ f args, vs = f :: args → Ensures Holds (call f args)) →
      Ensures Holds (op.applyWith call vs)

namespace Realm

/-- All values and environments. -/
def all : Realm where
  Holds _ := True
  Fits _ := True
  bound _ _ _ := trivial
  literal _ _ _ := trivial
  unit := trivial
  bool _ := trivial
  closure := Iff.rfl
  extend _ _ _ := trivial
  apply _ _ _ _ _ _ := trivial

variable (R : Realm) (S : Value → Value → Prop)

/-- Alike values, the second of them in the realm. -/
def Like (v w : Value) : Prop :=
  S v w ∧ R.Holds w

/-- Alike environments, the second of them in the realm. -/
def LikeEnv (env env' : Env) : Prop :=
  List.Forall₂ (SameKey S) env env' ∧ R.Fits env'

/-- Alike results in alike environments. -/
def LikeOutcome {α : Type} (A : α → α → Prop) (r r' : α × Env) : Prop :=
  A r.1 r'.1 ∧ R.LikeEnv S r.2 r'.2

variable {R S}

private theorem like_parts {vs ws : List Value} (h : List.Forall₂ (R.Like S) vs ws) :
    List.Forall₂ S vs ws ∧ ∀ w ∈ ws, R.Holds w := by
  induction h with
  | nil => exact ⟨.nil, by simp⟩
  | cons hvw _ ih => exact ⟨.cons hvw.1 ih.1, List.forall_mem_cons.mpr ⟨hvw.2, ih.2⟩⟩

theorem LikeEnv.extend {env env' : Env} (h : R.LikeEnv S env env') (names : List String)
    {vs ws : List Value} (hvs : List.Forall₂ (R.Like S) vs ws) :
    R.LikeEnv S (env.extend (names.zip vs)) (env'.extend (names.zip ws)) := by
  obtain ⟨hlike, hholds⟩ := like_parts hvs
  exact ⟨Likeness.extend_like h.1 names hlike, R.extend names h.2 hholds⟩

theorem LikeEnv.lookup {env env' : Env} (h : R.LikeEnv S env env') (x : String) :
    Together Eq (R.Like S) (env.lookup x) (env'.lookup x) := by
  have hbound : EndsIn (fun _ => True) R.Holds (env'.lookup x) :=
    Env.lookup_endsIn (R.bound h.2) trivial
  exact (Likeness.lookup_like h.1 x).and_ensures (fun _ _ => trivial) hbound.ensures
    fun _ _ hvw (_ : True) hw => ⟨hvw, hw⟩

theorem applyWith_like {E : EvalError → EvalError → Prop} (hS : Likeness S) (hE : ∀ x, E x x)
    {call : Value → List Value → EvalResult Value}
    (hcall : ∀ g g' vs ws, R.Like S g g' → List.Forall₂ (R.Like S) vs ws →
      Together E (R.Like S) (call g vs) (call g' ws))
    (op : EagerOp) {vs ws : List Value} (h : List.Forall₂ (R.Like S) vs ws) :
    Together E (R.Like S) (op.applyWith call vs) (op.applyWith call ws) := by
  obtain ⟨hlike, hholds⟩ := like_parts h
  have hrun : Together E S (op.applyWith call vs) (op.applyWith call ws) := by
    refine hS.applyWith_like hE op hlike fun f g args args' hv hw => ?_
    subst hv hw
    cases h with
    | cons hf hargs => exact (hcall _ _ _ _ hf hargs).mono (fun _ _ => id) fun _ _ => And.left
  refine hrun.and_ensures (fun _ _ => trivial) (R.apply op hholds fun g args hw => ?_)
    fun _ _ hvw (_ : True) hw => ⟨hvw, hw⟩
  subst hw
  cases h with
  | cons hf hargs => exact (hcall _ _ _ _ hf hargs).ensures_right fun _ _ => And.right

end Realm

/-- In alike environments, `e` and `e'` run together, within a realm. -/
def StandsFor (R : Realm) (E : EvalError → EvalError → Prop) (S : Value → Value → Prop)
    (call : Value → List Value → EvalResult Value) (e e' : Expr) : Prop :=
  ∀ env env', R.LikeEnv S env env' →
    Together E (R.LikeOutcome S (R.Like S)) (e.evalWith call env) (e'.evalWith call env')

namespace StandsFor

variable {R : Realm} {E : EvalError → EvalError → Prop} {S : Value → Value → Prop}
  {call : Value → List Value → EvalResult Value}

theorem evalListWith {es es' : List Expr} (h : List.Forall₂ (StandsFor R E S call) es es')
    {env env' : Env} (henv : R.LikeEnv S env env') :
    Together E (R.LikeOutcome S (List.Forall₂ (R.Like S))) (Expr.evalListWith call es env)
      (Expr.evalListWith call es' env') := by
  induction h generalizing env env' with
  | nil => exact .ok ⟨.nil, henv⟩
  | cons he _ ih =>
    refine (he env env' henv).bind ?_
    rintro ⟨v, env₁⟩ ⟨v', env₁'⟩ ⟨hv, henv₁⟩
    refine (ih henv₁).bind ?_
    rintro ⟨vs, env₂⟩ ⟨vs', env₂'⟩ ⟨hvs, henv₂⟩
    exact .ok ⟨.cons hv hvs, henv₂⟩

private theorem of_map {es : List Expr} {f : Expr → Expr}
    (h : ∀ e ∈ es, StandsFor R E S call e (f e)) :
    List.Forall₂ (StandsFor R E S call) es (es.map f) :=
  List.forall₂_map_right_iff.mpr (List.forall₂_same.mpr h)

private theorem connective (hS : Likeness S) (hE : ∀ x, E x x) (op : Connective)
    {lhs lhs' rhs rhs' : Expr} (hl : StandsFor R E S call lhs lhs')
    (hr : StandsFor R E S call rhs rhs') :
    StandsFor R E S call (.lazily op lhs rhs) (.lazily op lhs' rhs') := by
  intro env env' henv
  simp only [Expr.lazily, Expr.evalWith]
  refine (hl env env' henv).bind ?_
  rintro ⟨v, env₁⟩ ⟨v', env₁'⟩ ⟨hv, henv₁⟩
  simp only [hS.asBool_eq hv.1]
  refine .bind_same hE _ fun b => ?_
  split
  · exact .ok ⟨⟨hS.refl _, R.bool _⟩, henv₁⟩
  · refine (hr env₁ env₁' henv₁).bind ?_
    rintro ⟨w, env₂⟩ ⟨w', env₂'⟩ ⟨hw, henv₂⟩
    simp only [hS.asBool_eq hw.1]
    exact .bind_same hE _ fun c => .ok ⟨⟨hS.refl _, R.bool _⟩, henv₂⟩

/-- A node over children that stand for its own stands for the node, if functions over them that
capture alike environments are alike. -/
theorem mapChildren (hS : Likeness S) (hE : ∀ x, E x x)
    (hcall : ∀ g g' vs ws, R.Like S g g' → List.Forall₂ (R.Like S) vs ws →
      Together E (R.Like S) (call g vs) (call g' ws))
    (f : Expr → Expr) (e : Expr) (hc : ∀ c ∈ e.children, StandsFor R E S call c (f c))
    (hfn : ∀ ps b env env', List.Forall₂ (SameKey S) env env' →
      S (.closure env ps b) (.closure env' ps (f b))) :
    StandsFor R E S call e (e.mapChildren f) := by
  intro env env' henv
  cases e with
  | var x =>
    refine ((henv.lookup x).mono (fun x _ e => e ▸ hE x) fun _ _ => id).bind ?_
    exact fun v v' hv => .ok ⟨hv, henv⟩
  | lit a =>
    have hsame : Together E (R.Like S) a.value a.value :=
      (Together.refl hE (fun _ => rfl) _).and_ensures (R.literal a) (R.literal a)
        fun v w heq _ hw => ⟨heq ▸ hS.refl v, hw⟩
    exact hsame.bind fun v v' hv => .ok ⟨hv, henv⟩
  | fn ps b => exact .ok ⟨⟨hfn ps b env env' henv.1, R.closure.mpr henv.2⟩, henv⟩
  | app op args =>
    cases op with
    | lazy op =>
      match args with
      | [] => exact .error (hE _)
      | [_] => exact .error (hE _)
      | [lhs, rhs] =>
        exact connective hS hE op (hc lhs (by simp [Expr.children]))
          (hc rhs (by simp [Expr.children])) env env' henv
      | _ :: _ :: _ :: _ => exact .error (by simpa using hE _)
    | eager op =>
      simp only [Expr.mapChildren, Expr.evalWith, List.length_map]
      split
      · refine (evalListWith (of_map hc) henv).bind ?_
        rintro ⟨vs, env₁⟩ ⟨vs', env₁'⟩ ⟨hvs, henv₁⟩
        refine (Realm.applyWith_like hS hE hcall op hvs).bind ?_
        exact fun v v' hv => .ok ⟨hv, henv₁⟩
      · exact .error (hE _)
  | block items =>
    refine (evalListWith (of_map hc) henv).bind ?_
    rintro ⟨vs, env₁⟩ ⟨vs', env₁'⟩ ⟨hvs, henv₁⟩
    exact .ok ⟨Likeness.getLastD_like hvs ⟨hS.refl .unit, R.unit⟩, henv₁⟩
  | cond test yes no =>
    simp only [Expr.mapChildren, Expr.evalWith]
    refine (hc test (by simp [Expr.children]) env env' henv).bind ?_
    rintro ⟨t, env₁⟩ ⟨t', env₁'⟩ ⟨ht, henv₁⟩
    simp only [hS.asBool_eq ht.1]
    refine .bind_same hE _ fun b => ?_
    split
    · exact hc yes (by simp [Expr.children]) env₁ env₁' henv₁
    · exact hc no (by simp [Expr.children]) env₁ env₁' henv₁
  | bind vars vals body =>
    have hvals : ∀ c ∈ vals, StandsFor R E S call c (f c) := fun c hmem =>
      hc c (by simp [Expr.children, hmem])
    simp only [Expr.mapChildren, Expr.evalWith, List.length_map]
    split
    · refine (evalListWith (of_map hvals) henv).bind ?_
      rintro ⟨vs, env₁⟩ ⟨vs', env₁'⟩ ⟨hvs, henv₁⟩
      refine (hc body (by simp [Expr.children]) _ _ (henv₁.extend vars hvs)).bind ?_
      exact fun r r' hr => .ok ⟨hr.1, henv₁⟩
    · exact .error (hE _)

end StandsFor

end CheckedPass
