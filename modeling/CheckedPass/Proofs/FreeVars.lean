import CheckedPass.Expr.FreeVars
import CheckedPass.Proofs.Ascending
import CheckedPass.Proofs.Parametricity
import CheckedPass.Proofs.Preservation
/-!
# Free variables

The traversal leaves its stack as it found it and adds to the free names exactly those of the node
that the stack does not bind. So the free variables of a node are those of its children, less what
the node binds.

What an expression evaluates to depends only on what its free variables stand for. A function has
captured its whole environment, but of that too it uses only what its body's free variables stand
for, so functions are compared in what they use.
-/

namespace CheckedPass

namespace Expr

/-- `collect` adds the names of `F` that the stack does not bind, and leaves the stack. -/
structure Collects (collect : Scope → Scope) (F : String → Prop) : Prop where
  bound (s : Scope) : (collect s).bound = s.bound
  ascending (s : Scope) : Ascending.isAscending s.free = true →
    Ascending.isAscending (collect s).free = true
  mem_free (s : Scope) (x : String) : x ∈ (collect s).free ↔ x ∈ s.free ∨ F x ∧ x ∉ s.bound

namespace Collects

variable {f g : Scope → Scope} {F G : String → Prop}

theorem id : Collects (fun s => s) fun _ => False where
  bound _ := rfl
  ascending _ h := h
  mem_free s x := by simp

theorem see (y : String) : Collects (·.see y) (· = y) where
  bound s := by
    rw [Scope.see]
    split <;> rfl
  ascending s h := by
    rw [Scope.see]
    split
    · exact h
    · exact Ascending.isAscending_insert y h
  mem_free s x := by
    rw [Scope.see]
    split
    · next hy =>
      have hno : ¬(x = y ∧ x ∉ s.bound) := fun ⟨hxy, hx⟩ => hx (hxy ▸ hy)
      rw [or_iff_left hno]
    · next hy =>
      have hyes : x = y → x ∉ s.bound := fun hxy => hxy ▸ hy
      rw [Ascending.mem_insert, and_iff_left_of_imp hyes, or_comm]

theorem comp (hf : Collects f F) (hg : Collects g G) :
    Collects (fun s => g (f s)) fun x => F x ∨ G x where
  bound s := by rw [hg.bound, hf.bound]
  ascending s h := hg.ascending _ (hf.ascending s h)
  mem_free s x := by rw [hg.mem_free, hf.mem_free, hf.bound, or_and_right, or_assoc]

theorem within (hf : Collects f F) (names : List String) :
    Collects (·.within names f) fun x => F x ∧ x ∉ names where
  bound s := by simp [Scope.within, hf.bound]
  ascending s h := hf.ascending _ h
  mem_free s x := by
    change x ∈ (f _).free ↔ _
    rw [hf.mem_free, List.mem_append, not_or, and_assoc, and_comm (a := x ∉ names)]

theorem congr (hf : Collects f F) (h : ∀ x, F x ↔ G x) : Collects f G where
  bound := hf.bound
  ascending := hf.ascending
  mem_free s x := by rw [hf.mem_free, h]

private theorem mem_free_empty (hf : Collects f F) (x : String) : x ∈ (f .empty).free ↔ F x := by
  simp [hf.mem_free, Scope.empty]

end Collects

/-- `x` is the variable, or occurs free in a child and is not bound there by the node. -/
def FreeIn (x : String) : Expr → Prop
  | .var y => x = y
  | .lit _ => False
  | .fn params body => x ∈ body.freeVars ∧ x ∉ params
  | .app _ args => ∃ c ∈ args, x ∈ c.freeVars
  | .block items => ∃ c ∈ items, x ∈ c.freeVars
  | .cond test yes no => (x ∈ test.freeVars ∨ x ∈ yes.freeVars) ∨ x ∈ no.freeVars
  | .bind vars vals body => (∃ c ∈ vals, x ∈ c.freeVars) ∨ x ∈ body.freeVars ∧ x ∉ vars

private theorem collectFreeList_collects {es : List Expr}
    (h : ∀ c ∈ es, Collects c.collectFree (· ∈ c.freeVars)) :
    Collects (collectFreeList es) fun x => ∃ c ∈ es, x ∈ c.freeVars := by
  induction es with
  | nil => exact Collects.id.congr (by simp)
  | cons c es ih =>
    have hrest := ih fun d hd => h d (List.mem_cons_of_mem _ hd)
    exact ((h c List.mem_cons_self).comp hrest).congr (by simp)

/-- One node: the traversal collects from it what its children and its binders say. -/
private theorem collectFree_node {e : Expr}
    (h : ∀ c ∈ e.children, Collects c.collectFree (· ∈ c.freeVars)) :
    Collects e.collectFree (FreeIn · e) := by
  cases e with
  | var y => exact .see y
  | lit a => exact .id
  | fn params body => exact (h body (by simp [children])).within params
  | app op args => exact collectFreeList_collects h
  | block items => exact collectFreeList_collects h
  | cond test yes no =>
    have htest := h test (by simp [children])
    have hyes := h yes (by simp [children])
    exact (htest.comp hyes).comp (h no (by simp [children]))
  | bind vars vals body =>
    have hvals := collectFreeList_collects fun c hc => h c (List.mem_append_left _ hc)
    exact hvals.comp ((h body (by simp [children])).within vars)

/-- On the way through `e` its free variables are collected, less those that the stack binds. -/
theorem collectFree_collects (e : Expr) : Collects e.collectFree (· ∈ e.freeVars) := by
  induction e using children_induction with
  | step e ih =>
    have hnode := collectFree_node ih
    exact hnode.congr fun x => (hnode.mem_free_empty x).symm

theorem isAscending_freeVars (e : Expr) : Ascending.isAscending e.freeVars = true :=
  e.collectFree_collects.ascending .empty rfl

theorem mem_freeVars_iff {e : Expr} {x : String} : x ∈ e.freeVars ↔ FreeIn x e :=
  (collectFree_node fun c _ => c.collectFree_collects).mem_free_empty x

theorem freeVars_of_inScope {e c : Expr} (hc : c ∈ e.inScope) {x : String} (hx : x ∈ c.freeVars) :
    x ∈ e.freeVars := by
  rw [mem_freeVars_iff]
  cases e with
  | var y => simp [inScope, children] at hc
  | lit a => simp [inScope, children] at hc
  | fn params body => simp [inScope] at hc
  | app op args => exact ⟨c, hc, hx⟩
  | block items => exact ⟨c, hc, hx⟩
  | cond test yes no =>
    simp only [inScope, children, List.mem_cons, List.not_mem_nil, or_false] at hc
    rcases hc with rfl | rfl | rfl <;> simp [FreeIn, hx]
  | bind vars vals body => exact .inl ⟨c, hc, hx⟩

@[simp]
theorem mem_freeVars_var {x y : String} : x ∈ (var y).freeVars ↔ x = y :=
  mem_freeVars_iff

theorem mem_freeVars_fn {params : List String} {body : Expr} {x : String} :
    x ∈ (fn params body).freeVars ↔ x ∈ body.freeVars ∧ x ∉ params :=
  mem_freeVars_iff

theorem mem_freeVars_bind_of_body {vars : List String} {vals : List Expr} {body : Expr}
    {x : String} (hx : x ∈ body.freeVars) (hv : x ∉ vars) : x ∈ (bind vars vals body).freeVars :=
  mem_freeVars_iff.mpr (.inr ⟨hx, hv⟩)

/-- The free variables of a node depend on its children through their free variables only. -/
theorem freeVars_mapChildren {f : Expr → Expr} {e : Expr}
    (h : ∀ c ∈ e.children, (f c).freeVars = c.freeVars) :
    (e.mapChildren f).freeVars = e.freeVars := by
  refine Ascending.eq_of_mem_iff (isAscending_freeVars _) (isAscending_freeVars _) fun x => ?_
  rw [mem_freeVars_iff, mem_freeVars_iff]
  have hlist : ∀ cs : List Expr, (∀ c ∈ cs, c ∈ e.children) →
      ((∃ c ∈ cs.map f, x ∈ c.freeVars) ↔ ∃ c ∈ cs, x ∈ c.freeVars) := by
    intro cs hcs
    simp only [List.mem_map, exists_exists_and_eq_and]
    exact exists_congr fun c => and_congr_right fun hc => by rw [h c (hcs c hc)]
  cases e with
  | var y => rfl
  | lit a => rfl
  | fn params body => simp [mapChildren, FreeIn, h body (by simp [children])]
  | app op args => exact hlist args fun c hc => hc
  | block items => exact hlist items fun c hc => hc
  | cond test yes no =>
    have htest := h test (by simp [children])
    have hyes := h yes (by simp [children])
    have hno := h no (by simp [children])
    simp [mapChildren, FreeIn, htest, hyes, hno]
  | bind vars vals body =>
    have hvals := hlist vals fun c hc => List.mem_append_left _ hc
    have hbody := h body (by simp [children])
    simp only [mapChildren, FreeIn, hbody]
    rw [hvals]

end Expr

namespace Value

/-- The same in all that can be made use of: functions have one body and the same parameters, and
what they have captured is the same in use for each free variable of the body that is no
parameter. -/
inductive SameInUse : Value → Value → Prop where
  | flat {v : Value} (h : v.kind.isFlat = true) : SameInUse v v
  | seq {xs ys : List Value} (h : List.Forall₂ SameInUse xs ys) : SameInUse (.seq xs) (.seq ys)
  | map {xs ys : List (Value × Value)} (h : List.Forall₂ (SameKey SameInUse) xs ys) :
    SameInUse (.map xs) (.map ys)
  | closure {env env' : Env} {params : List String} {body : Expr}
    (h : ∀ x ∈ body.freeVars, x ∉ params → Option.Rel SameInUse (env.get? x) (env'.get? x)) :
    SameInUse (.closure env params body) (.closure env' params body)

end Value

/-- Both environments leave every free variable of `e` unbound, or bind it to values that are the
same in use. -/
def Expr.SameScope (e : Expr) (env env' : Env) : Prop :=
  ∀ x ∈ e.freeVars, Option.Rel Value.SameInUse (env.get? x) (env'.get? x)

namespace Value

theorem sameInUse_refl (v : Value) : SameInUse v v := by
  induction v using parts_induction with
  | step v ih =>
    cases v with
    | seq xs => exact .seq (List.forall₂_same.mpr ih)
    | map xs => exact .map (List.forall₂_same.mpr fun p hp => .mk p.1 (ih p.2 (mem_parts_map hp)))
    | closure env params body =>
      refine .closure fun x _ _ => ?_
      cases hx : Env.get? env x with
      | none => exact .none
      | some w => exact .some (ih w (List.mem_map_of_mem (Ascending.mem_of_get? hx)))
    | _ => exact .flat rfl

private theorem sameInUse_likeness : Likeness SameInUse where
  refl := sameInUse_refl
  kind_eq h := by cases h <;> rfl
  flat h hflat := by
    cases h with
    | flat => rfl
    | _ => cases hflat
  seq := by
    refine ⟨fun h => ?_, .seq⟩
    cases h with
    | flat hflat => cases hflat
    | seq h => exact h
  map := by
    refine ⟨fun h => ?_, .map⟩
    cases h with
    | flat hflat => cases hflat
    | map h => exact h

end Value

section

variable {S : Value → Value → Prop} {env env' : Env} {x : String}

private theorem Env.lookup_rel (h : Option.Rel S (env.get? x) (env'.get? x)) :
    Together Eq S (env.lookup x) (env'.lookup x) := by
  simp only [Env.lookup]
  generalize env.get? x = v, env'.get? x = v' at h
  cases h with
  | none => exact .error rfl
  | some hv => exact .ok hv

private theorem Env.get?_extend_rel {names : List String} {vs ws : List Value}
    (hlen : names.length = vs.length) (hvs : List.Forall₂ S vs ws)
    (h : x ∉ names → Option.Rel S (env.get? x) (env'.get? x)) :
    Option.Rel S ((env.extend (names.zip vs)).get? x) ((env'.extend (names.zip ws)).get? x) := by
  induction hvs generalizing names env env' with
  | nil =>
    obtain rfl : names = [] := List.length_eq_zero_iff.mp hlen
    exact h (by simp)
  | @cons v w vs ws hvw hvs ih =>
    match names with
    | name :: names =>
      have hstep : ∀ (env : Env) (v : Value) (vs : List Value),
          env.extend ((name :: names).zip (v :: vs)) = (env.bind name v).extend (names.zip vs) :=
        fun _ _ _ => rfl
      rw [hstep, hstep]
      refine ih (by simpa using hlen) fun hx => ?_
      simp only [Env.bind, Env.get?, Ascending.get?_put]
      split
      · exact .some hvw
      · rename_i hne
        exact h (by simp [hne, hx])

end

open Value (SameInUse sameInUse_likeness)

private theorem parametric_sameInUse {fuel : Nat}
    (hcall : ∀ f g vs ws, SameInUse f g → List.Forall₂ SameInUse vs ws →
      Together Eq SameInUse (f.call fuel vs) (g.call fuel ws)) :
    Parametric (.together Eq) SameInUse (Value.call fuel) (Value.call fuel) Expr.SameScope where
  var h := Env.lookup_rel (h _ (Expr.mem_freeVars_var.mpr rfl))
  lit _ := .refl (fun _ => rfl) sameInUse_likeness.refl _
  fn h := .closure fun x hx hp => h x (Expr.mem_freeVars_fn.mpr ⟨hx, hp⟩)
  unit := sameInUse_likeness.refl _
  bool _ := sameInUse_likeness.refl _
  asBool site hvw := by
    rw [sameInUse_likeness.asBool_eq hvw]
    exact .refl (fun _ => rfl) (fun _ => rfl) _
  apply _ _ hvs := by
    refine sameInUse_likeness.applyWith_like (fun _ => rfl) _ hvs fun f g args args' hv hw => ?_
    subst hv hw
    cases hvs with
    | cons hf hargs => exact hcall f g args args' hf hargs
  misfit _ _ _ _ := .error rfl
  inScope h _ hc _ hx := h _ (Expr.freeVars_of_inScope hc hx)
  body h hlen hvs x hx :=
    Env.get?_extend_rel hlen hvs fun hv => h x (Expr.mem_freeVars_bind_of_body hx hv)

private theorem call_sameInUse (fuel : Nat) (f g : Value) (vs ws : List Value)
    (hfg : SameInUse f g) (hvs : List.Forall₂ SameInUse vs ws) :
    Together Eq SameInUse (f.call fuel vs) (g.call fuel ws) := by
  -- By induction on the fuel: the parameters of a function hide what it has captured under their
  -- names, and all else that its body looks up is the same in use.
  induction fuel generalizing f g vs ws with
  | zero => exact .error rfl
  | succ fuel ih =>
    by_cases hkind : f.kind = .closure
    · cases hfg with
      | closure h =>
        rw [Value.call_closure, Value.call_closure, hvs.length_eq]
        split
        · rename_i hlen
          refine (parametric_sameInUse ih).valueWith _ _ _ fun x hx => ?_
          exact Env.get?_extend_rel (hlen.trans hvs.length_eq.symm) hvs (h x hx)
        · exact .error rfl
      | flat hflat => simp [hkind, Kind.isFlat] at hflat
      | seq => cases hkind
      | map => cases hkind
    · rw [Value.call_of_not_closure hkind,
        Value.call_of_not_closure (sameInUse_likeness.kind_eq hfg ▸ hkind),
        sameInUse_likeness.unexpected_eq hfg]
      exact .error rfl

theorem Expr.valueWith_sameInUse (e : Expr) (fuel : Nat) {env env' : Env}
    (h : e.SameScope env env') :
    Together Eq SameInUse (e.valueWith (Value.call fuel) env)
      (e.valueWith (Value.call fuel) env') :=
  (parametric_sameInUse (call_sameInUse fuel)).valueWith e env env' h

/-- Evaluation depends only on what the free variables stand for: in environments that are the same
in use on them, both evaluations fail with one error or both succeed, with values that are the same
in use, and equal if one of them is first-order. -/
theorem eval_determined_by_freeVars (e : Expr) (fuel : Nat) (env env' : Env)
    (h : ∀ x ∈ e.freeVars, Option.Rel Value.SameInUse (env.get? x) (env'.get? x)) :
    Together Eq
      (fun r r' => Value.SameInUse r.1 r'.1 ∧
        (r.1.isFirstOrder = true ∨ r'.1.isFirstOrder = true → r.1 = r'.1))
      (e.eval fuel env) (e.eval fuel env') := by
  rw [Expr.eval_eq_valueWith, Expr.eval_eq_valueWith]
  have hvalue := (parametric_sameInUse (call_sameInUse fuel)).valueWith e env env' h
  refine Together.bind hvalue fun v w hvw => .ok ⟨hvw, fun hfirst => ?_⟩
  obtain ⟨hsame, heq⟩ := sameInUse_likeness.firstOrder hvw
  rw [← hsame, or_self] at hfirst
  exact heq hfirst

/-- A function that adds what it has captured as `k`, whatever else it has captured, beside a call
of it. -/
theorem eval_determined_by_freeVars_captured :
    let body : Expr := .binary (.numeric .add) (.var "x") (.var "k")
    let e : Expr := .display .seq [.var "f", .call (.var "f") [.int 3]]
    let env : Env := [("f", .closure [("k", .int 2), ("x", .unit)] ["x"] body)]
    let env' : Env := [("f", .closure [("k", .int 2)] ["x"] body), ("z", .bool true)]
    (∀ x ∈ e.freeVars, Option.Rel Value.SameInUse (env.get? x) (env'.get? x)) ∧
      Together Eq
        (fun r r' => Value.SameInUse r.1 r'.1 ∧
          (r.1.isFirstOrder = true ∨ r'.1.isFirstOrder = true → r.1 = r'.1))
        (e.eval 1 env) (e.eval 1 env') := by
  intro body e env env'
  have hsame : ∀ x ∈ e.freeVars, Option.Rel Value.SameInUse (env.get? x) (env'.get? x) := by
    have hfree : e.freeVars = ["f"] := by decide
    have hbody : body.freeVars = ["k", "x"] := by decide
    intro x hx
    obtain rfl : x = "f" := by simpa [hfree] using hx
    refine .some (.closure fun y hy hne => ?_)
    obtain rfl : y = "k" := by
      rw [hbody] at hy
      simp_all
    exact .some (sameInUse_likeness.refl _)
  exact ⟨hsame, eval_determined_by_freeVars e 1 env env' hsame⟩

end CheckedPass
