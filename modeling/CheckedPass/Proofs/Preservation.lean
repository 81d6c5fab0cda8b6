import CheckedPass.Proofs.Everywhere
import CheckedPass.Proofs.Scoping
import CheckedPass.Proofs.Simulation
/-!
# From nodes to trees

A pass that keeps the meaning of every single node keeps the meaning of every tree. The functions
that come out of the two trees differ in their bodies, and these run later, in environments that
hold other such functions, so the values on the two sides are the same up to bodies only.
-/

namespace CheckedPass

/-- The same up to the bodies of functions, which `R` relates: functions have the same parameters,
and what they have captured is again the same up to bodies, name by name. -/
inductive Value.UpToBodies (R : Expr → Expr → Prop) : Value → Value → Prop where
  | flat {v : Value} (h : v.kind.isFlat = true) : UpToBodies R v v
  | seq {xs ys : List Value} (h : List.Forall₂ (UpToBodies R) xs ys) :
    UpToBodies R (.seq xs) (.seq ys)
  | map {xs ys : List (Value × Value)} (h : List.Forall₂ (SameKey (UpToBodies R)) xs ys) :
    UpToBodies R (.map xs) (.map ys)
  | closure {env env' : Env} {ps : List String} {b b' : Expr}
    (henv : List.Forall₂ (SameKey (UpToBodies R)) env env') (hb : R b b') :
    UpToBodies R (.closure env ps b) (.closure env' ps b')

namespace Value

private theorem upToBodies_refl {R : Expr → Expr → Prop} (hR : ∀ b, R b b) (v : Value) :
    UpToBodies R v v := by
  induction v using parts_induction with
  | step v ih =>
    cases v with
    | seq xs => exact .seq (List.forall₂_same.mpr ih)
    | map xs => exact .map (List.forall₂_same.mpr fun p hp => .mk p.1 (ih p.2 (mem_parts_map hp)))
    | closure env ps b =>
      refine .closure (List.forall₂_same.mpr fun p hp => .mk p.1 (ih p.2 ?_)) (hR b)
      exact List.mem_map_of_mem hp
    | _ => exact .flat rfl

theorem upToBodies_likeness {R : Expr → Expr → Prop} (hR : ∀ b, R b b) :
    Likeness (UpToBodies R) where
  refl := upToBodies_refl hR
  kind_eq h := by cases h <;> rfl
  flat h hflat := by
    cases h with
    | flat => rfl
    | _ => cases hflat
  seq := by
    refine ⟨fun h => ?_, .seq⟩
    cases h with
    | flat hflat => cases hflat
    | seq h => exact h
  map := by
    refine ⟨fun h => ?_, .map⟩
    cases h with
    | flat hflat => cases hflat
    | map h => exact h

theorem call_of_not_closure {g : Value} (h : g.kind ≠ .closure) (fuel : Nat) (args : List Value) :
    g.call (fuel + 1) args = .error (.unexpected (.eager .call) (.kind .closure) g) := by
  cases g with
  | closure env ps b => exact absurd rfl h
  | _ => rfl

end Value

namespace Pass

/-- Every node runs together with what the pass leaves of it, to equal results, in all environments
of a realm. -/
def KeepsNodes (p : Pass) (R : Realm) (E : EvalError → EvalError → Prop) : Prop :=
  ∀ (n : Expr) (fuel : Nat) (env : Env), R.Fits env →
    Together E Eq (n.eval fuel env) ((p.apply n).eval fuel env)

/-- Left alone, or gone through by the pass. -/
def AloneOrAttempted (p : Pass) (b b' : Expr) : Prop :=
  b' = b ∨ b' = p.attempt b

theorem aloneOrAttempted_likeness (p : Pass) : Likeness (Value.UpToBodies p.AloneOrAttempted) :=
  Value.upToBodies_likeness fun _ => .inl rfl

section

variable {p : Pass} {R : Realm} {E : EvalError → EvalError → Prop}

private theorem KeepsNodes.whereApplicable (hp : p.KeepsNodes R E) (hE : ∀ x, E x x) (n : Expr)
    (fuel : Nat) {env : Env} (henv : R.Fits env) :
    Together E Eq (n.eval fuel env) ((p.applyWhereApplicable n).eval fuel env) := by
  rw [applyWhereApplicable]
  split
  · exact hp n fuel env henv
  · exact .refl hE (fun _ => rfl) _

private theorem standsFor (hp : p.KeepsNodes R E) (hE : ∀ x, E x x)
    (htrans : ∀ x y z, E x y → E y z → E x z) {fuel : Nat}
    (hcall : ∀ g g' vs ws, R.Like (Value.UpToBodies p.AloneOrAttempted) g g' →
      List.Forall₂ (R.Like (Value.UpToBodies p.AloneOrAttempted)) vs ws →
      Together E (R.Like (Value.UpToBodies p.AloneOrAttempted)) (g.call fuel vs) (g'.call fuel ws))
    {e e' : Expr} (h : p.AloneOrAttempted e e') :
    StandsFor R E (Value.UpToBodies p.AloneOrAttempted) (Value.call fuel) e e' := by
  have hS := p.aloneOrAttempted_likeness
  induction e using Expr.children_induction generalizing e' with
  | step e ih =>
    obtain rfl | rfl := h
    · have halone : StandsFor R E _ (Value.call fuel) e' (e'.mapChildren id) :=
        .mapChildren hS hE hcall id e' (fun c hc => ih c hc (.inl rfl))
          fun ps b env env' henv => .closure henv (.inl rfl)
      rwa [Expr.mapChildren_id] at halone
    · have hnode : StandsFor R E _ (Value.call fuel) e (e.mapChildren p.attempt) :=
        .mapChildren hS hE hcall p.attempt e (fun c hc => ih c hc (.inr rfl))
          fun ps b env env' henv => .closure henv (.inr rfl)
      intro env env' henv
      rw [attempt_eq]
      -- What the pass does at the node itself keeps results as they are, not only up to bodies.
      refine (hnode env env' henv).trans (hp.whereApplicable hE _ fuel henv.2) htrans ?_
      intro r r₁ r' hr heq
      exact heq ▸ hr

theorem call_like (hp : p.KeepsNodes R E) (hE : ∀ x, E x x)
    (htrans : ∀ x y z, E x y → E y z → E x z) (fuel : Nat) (g g' : Value) (vs ws : List Value)
    (hg : R.Like (Value.UpToBodies p.AloneOrAttempted) g g')
    (hvs : List.Forall₂ (R.Like (Value.UpToBodies p.AloneOrAttempted)) vs ws) :
    Together E (R.Like (Value.UpToBodies p.AloneOrAttempted)) (g.call fuel vs)
      (g'.call fuel ws) := by
  -- Calls run together, by induction on the fuel: a body runs with one unit less.
  have hS := p.aloneOrAttempted_likeness
  obtain ⟨hlike, hholds⟩ := hg
  induction fuel generalizing g g' vs ws with
  | zero => exact .error (hE _)
  | succ fuel ih =>
    by_cases hkind : g.kind = .closure
    · cases hlike with
      | @closure env env' ps b b' henv hb =>
        have hcall := fun g g' vs ws (hg : R.Like _ g g') hvs => ih g g' vs ws hvs hg.1 hg.2
        have hscope : R.LikeEnv _ env env' := ⟨henv, R.closure.mp hholds⟩
        have hbody := standsFor hp hE htrans hcall hb _ _ (hscope.extend ps hvs)
        simp only [Value.call, hvs.length_eq]
        split
        · exact hbody.bind fun r r' hr => .ok hr.1
        · exact .error (hE _)
      | flat hflat => simp [hkind, Kind.isFlat] at hflat
      | seq => cases hkind
      | map => cases hkind
    · rw [Value.call_of_not_closure hkind,
        Value.call_of_not_closure (hS.kind_eq hlike ▸ hkind), hS.unexpected_eq hlike]
      exact .error (hE _)

/-- A pass that keeps nodes keeps trees: the tree and what comes out of it run together, to values
that are the same up to bodies, in one environment. -/
theorem KeepsNodes.attempt (hp : p.KeepsNodes R E) (hE : ∀ x, E x x)
    (htrans : ∀ x y z, E x y → E y z → E x z) (e : Expr) (fuel : Nat) {env : Env}
    (henv : R.Fits env) :
    Together E (fun r r' => Value.UpToBodies p.AloneOrAttempted r.1 r'.1 ∧ r.2 = r'.2)
      (e.eval fuel env) ((p.attempt e).eval fuel env) := by
  have hS := p.aloneOrAttempted_likeness
  have hsame : R.LikeEnv (Value.UpToBodies p.AloneOrAttempted) env env :=
    ⟨List.forall₂_same.mpr fun q _ => .mk q.1 (hS.refl q.2), henv⟩
  have hrun := standsFor hp hE htrans (call_like hp hE htrans fuel) (.inr rfl : _ ∨ p.attempt e = _)
    env env hsame
  refine hrun.and_ensures (e.handsBack env) ((p.attempt e).handsBack env) ?_
  rintro ⟨v, _⟩ ⟨v', _⟩ hr rfl rfl
  exact ⟨hr.1.1, rfl⟩

end

end Pass

end CheckedPass
