import CheckedPass.Proofs.Answers
import CheckedPass.Proofs.Bisimulation
import CheckedPass.Proofs.FreeVars
import CheckedPass.Proofs.Order
import Mathlib.Data.List.TakeWhile
/-!
# Agreement is an equivalence

At every depth agreement of values, of environments and of outcomes is symmetric and transitive. It
is reflexive on what is well-formed if the judge is, and in any case nothing is ever told apart from
itself: only an underflow keeps a comparison with itself from saying yes. Equivalence of expressions
is symmetric if they are interpretable and transitive if the environments are given. Maps and
environments are compared by looking each key of the one up in the other.
-/

namespace CheckedPass

theorem Bisimulation.eq : Bisimulation (Eq : Value → Value → Prop) where
  likeness := Value.eq_likeness
  params h := by
    cases h
    rfl
  call h fuel args := by
    subst h
    exact .refl (fun _ => trivial) (fun _ => rfl) _

/-- A relation that is symmetric and transitive, and reflexive on what `D` holds of. -/
structure EquivalenceOn {α : Type} (D : α → Prop) (R : α → α → Prop) : Prop where
  refl : ∀ {a}, D a → R a a
  symm : ∀ {a b}, R a b → R b a
  trans : ∀ {a b c}, R a b → R b c → R a c

namespace Judge

variable {j : Judge} {depth : Nat}

/-- What the comparison by look-up asks of one entry. -/
def agreeAt {α : Type} [DecidableEq α] (j : Judge) (depth : Nat) (entries : List (α × Value))
    (p : α × Value) : EvalResult Bool :=
  match Ascending.get? p.1 entries with
  | some w => j.agree depth p.2 w
  | none => return false

private theorem keys_behind {ys front rest : List (Value × Value)} {p : Value × Value}
    (hsplit : ys = front ++ p :: rest) :
    (Ascending.keys rest).Sublist (Ascending.keys ys) := by
  rw [hsplit]
  exact ((List.sublist_cons_self _ _).trans (List.sublist_append_right _ _)).map _

private theorem get?_behind {ys front rest : List (Value × Value)} {k k' w : Value}
    (hys : Ascending.isAscending (Ascending.keys ys) = true) (hsplit : ys = front ++ (k, w) :: rest)
    (hk : compare k k' = .lt) : Ascending.get? k' rest = Ascending.get? k' ys := by
  -- In an ascending list, what stands before a key is below it and what stands behind is above. So
  -- a larger key is found behind it or not at all.
  have hrest := keys_behind hsplit
  rcases hget : Ascending.get? k' ys with _ | u
  · rw [Ascending.get?_eq_none_iff] at hget ⊢
    exact fun hmem => hget (hrest.subset hmem)
  · have hmem := Ascending.mem_of_get? hget
    rw [hsplit, List.mem_append, List.mem_cons] at hmem
    rcases hmem with hfront | hhead | htail
    · have hlt : compare k' k = .lt := by
        rw [hsplit, Ascending.isAscending_iff_pairwise, Ascending.keys, List.map_append,
          List.pairwise_append] at hys
        exact hys.2.2 k' (List.mem_map_of_mem hfront) k List.mem_cons_self
      rw [Std.OrientedCmp.gt_of_lt hk] at hlt
      cases hlt
    · cases hhead
      rw [Std.ReflOrd.compare_self] at hk
      cases hk
    · exact Ascending.get?_of_mem ((Ascending.nodup_of_isAscending hys).sublist hrest) htail

private theorem agreeEntriesBy_eq_allM {xs ys zs : List (Value × Value)}
    (hxs : Ascending.isAscending (Ascending.keys xs) = true)
    (hzs : Ascending.isAscending (Ascending.keys zs) = true)
    (hsame : ∀ p ∈ xs, Ascending.get? p.1 zs = Ascending.get? p.1 ys) :
    Value.agreeEntriesBy (j.sameCalls depth) xs zs = xs.allM (j.agreeAt depth ys) := by
  -- By induction on the keys: those that are left are found behind the ones found before.
  induction xs generalizing zs with
  | nil => rfl
  | cons p xs ih =>
    obtain ⟨hfirst, hrest⟩ := List.forall_mem_cons.mp hsame
    rw [Ascending.isAscending_iff_pairwise, Ascending.keys, List.map_cons,
      List.pairwise_cons] at hxs
    rw [Value.agreeEntriesBy, allM_cons, agreeAt, ← hfirst]
    split
    · rename_i hnone
      have hget : Ascending.get? p.1 zs = none := by
        rw [Ascending.get?_eq_none_iff]
        intro hmem
        obtain ⟨q, hq, hkey⟩ := List.mem_map.mp hmem
        exact of_decide_eq_true (List.dropWhile_eq_nil_iff.mp hnone q hq) hkey
      rw [hget]
      rfl
    · rename_i k w behind hfound
      obtain ⟨rfl, front, hsplit⟩ := Value.split_of_dropWhile hfound
      have hmem : (p.1, w) ∈ zs := hsplit ▸ List.mem_append_right _ List.mem_cons_self
      rw [Ascending.get?_of_mem (Ascending.nodup_of_isAscending hzs) hmem]
      rw [ih (Ascending.isAscending_iff_pairwise.mpr hxs.2)
        (Ascending.isAscending_of_sublist (keys_behind hsplit) hzs) fun q hq => ?_]
      · rfl
      · rw [get?_behind hzs hsplit (hxs.1 q.1 (List.mem_map_of_mem hq)), hrest q hq]

private theorem agree_map_eq {xs ys : List (Value × Value)}
    (hxs : Ascending.isAscending (Ascending.keys xs) = true)
    (hys : Ascending.isAscending (Ascending.keys ys) = true) :
    j.agree depth (.map xs) (.map ys) =
      if xs.length = ys.length then xs.allM (j.agreeAt depth ys) else .ok false := by
  rw [agree, Value.agreeBy, agreeEntriesBy_eq_allM hxs hys fun _ _ => rfl]
  rfl

private theorem agreeBindings_eq_allM {env env' all : Env} (hnames : env.names = env'.names)
    (hall : all.names.Nodup) (hsub : env'.Sublist all) :
    j.agreeBindings depth env env' = env.allM (j.agreeAt depth all) := by
  induction env generalizing env' with
  | nil => rfl
  | cons p env ih =>
    obtain ⟨q, env', rfl, hname, hrest⟩ := List.map_eq_cons_iff.mp hnames.symm
    have hget : Ascending.get? p.1 all = some q.2 := by
      rw [← hname]
      exact Ascending.get?_of_mem hall (hsub.subset List.mem_cons_self)
    rw [agreeBindings, allM_cons, agreeAt, hget,
      ih hrest.symm ((List.sublist_cons_self _ _).trans hsub)]

private theorem agreeEnv_eq {env env' : Env} (henv' : Ascending.isAscending env'.names = true) :
    j.agreeEnv depth env env' =
      if env.sameNames env' then env.allM (j.agreeAt depth env') else .ok false := by
  rw [agreeEnv]
  split
  · rename_i hnames
    exact agreeBindings_eq_allM (of_decide_eq_true hnames)
      (Ascending.nodup_of_isAscending henv') (.refl _)
  · rfl

theorem agree_map_iff_get? {xs ys : List (Value × Value)}
    (hxs : Ascending.isAscending (Ascending.keys xs) = true)
    (hys : Ascending.isAscending (Ascending.keys ys) = true) :
    j.agree depth (.map xs) (.map ys) = .ok true ↔
      xs.length = ys.length ∧
        ∀ p ∈ xs, ∃ w, Ascending.get? p.1 ys = some w ∧ j.agree depth p.2 w = .ok true := by
  rw [(j.agree_structural depth).map, Ascending.like_iff_get? hxs hys]

private theorem agreeEnv_iff_get? {env env' : Env} (henv : Ascending.isAscending env.names = true)
    (henv' : Ascending.isAscending env'.names = true) :
    j.agreeEnv depth env env' = .ok true ↔
      env.length = env'.length ∧
        ∀ p ∈ env, ∃ w, env'.get? p.1 = some w ∧ j.agree depth p.2 w = .ok true := by
  rw [agreeEnv_iff, Ascending.like_iff_get? henv henv']
  rfl

section Fewer

-- One judge at one depth finds all that another judge finds, or the same at another depth, if that
-- one tries no argument lists and fuels but those that the first one tries.
variable {j' : Judge} {depth' : Nat}

theorem sameCalls_of_fewer {arity : Nat} {f g : Value}
    (hargs : ∀ args ∈ tuples (j.pool (depth + 1)) arity j.budget.maxTuples.toNat,
      args ∈ tuples (j'.pool (depth' + 1)) arity j'.budget.maxTuples.toNat)
    (hfuels : ∀ fuel ∈ j.fuels, fuel ∈ j'.fuels)
    (hresults : ∀ v w, j'.agree depth' v w = .ok true → j.agree depth v w = .ok true)
    (h : j'.sameCalls (depth' + 1) arity f g = .ok true) :
    j.sameCalls (depth + 1) arity f g = .ok true := by
  rw [sameCalls_succ_iff] at *
  intro args hmem fuel hfuel
  have hcall := h args (hargs args hmem) fuel (hfuels fuel hfuel)
  exact hcall.mono (fun _ _ => id) hresults

theorem agree_of_sameCalls
    (hcalls : ∀ arity f g, j'.sameCalls depth' arity f g = .ok true →
      j.sameCalls depth arity f g = .ok true)
    {v w : Value} (h : j'.agree depth' v w = .ok true) : j.agree depth v w = .ok true := by
  refine accepts_iff_eq_true.mp ((j'.agree_structural depth').agreeBy_accepts ?_ h)
  intro env ps b env' qs c hfg
  obtain ⟨hlen, hsame⟩ := agree_closure_iff.mp hfg
  exact ⟨hlen, accepts_iff_eq_true.mpr (hcalls _ _ _ hsame)⟩

theorem agreeEnv_of_agree
    (hagree : ∀ v w, j'.agree depth' v w = .ok true → j.agree depth v w = .ok true)
    {env env' : Env} (h : j'.agreeEnv depth' env env' = .ok true) :
    j.agreeEnv depth env env' = .ok true := by
  rw [agreeEnv_iff] at *
  exact h.imp fun _ _ => SameKey.imp hagree

end Fewer

-- Symmetry and transitivity go by induction on the depth: if the calls of functions can be compared
-- the other way round, or in a chain, then so can values that hold functions, and so can calls one
-- level up.

private theorem agree_symm_of {v w : Value}
    (hcalls : ∀ arity f g, j.sameCalls depth arity f g = .ok true →
      j.sameCalls depth arity g f = .ok true)
    (h : j.agree depth v w = .ok true) : j.agree depth w v = .ok true := by
  refine accepts_iff_eq_true.mp ((j.agree_structural depth).flip.agreeBy_accepts ?_ h)
  intro env ps b env' qs c hfg
  obtain ⟨hlen, hsame⟩ := agree_closure_iff.mp hfg
  exact ⟨hlen.symm, accepts_iff_eq_true.mpr (hlen ▸ hcalls _ _ _ hsame)⟩

private theorem sameCalls_symm {arity : Nat} {f g : Value}
    (h : j.sameCalls depth arity f g = .ok true) : j.sameCalls depth arity g f = .ok true := by
  induction depth generalizing arity f g with
  | zero => rfl
  | succ depth ih =>
    rw [sameCalls_succ_iff] at *
    intro args hargs fuel hfuel
    exact (h args hargs fuel hfuel).symm (fun _ _ => And.symm)
      fun v w => agree_symm_of fun _ _ _ => ih

private theorem agree_trans_of {u v w : Value}
    (hcalls : ∀ arity f g h, j.sameCalls depth arity f g = .ok true →
      j.sameCalls depth arity g h = .ok true → j.sameCalls depth arity f h = .ok true)
    (h : j.agree depth u v = .ok true) (h' : j.agree depth v w = .ok true) :
    j.agree depth u w = .ok true := by
  have hlike := j.agree_structural depth
  refine hlike.comp hlike hlike ?_ h h'
  intro f g k hf hfg hgk
  cases f with
  | closure env ps b =>
    obtain ⟨env', qs, c, rfl⟩ := hlike.closure_left hfg
    obtain ⟨env'', rs, d, rfl⟩ := hlike.closure_left hgk
    obtain ⟨hlen, hsame⟩ := agree_closure_iff.mp hfg
    obtain ⟨hlen', hsame'⟩ := agree_closure_iff.mp hgk
    exact agree_closure_iff.mpr ⟨hlen.trans hlen', hcalls _ _ _ _ hsame (hlen ▸ hsame')⟩
  | _ => cases hf

private theorem sameCalls_trans {arity : Nat} {f g k : Value}
    (h : j.sameCalls depth arity f g = .ok true)
    (h' : j.sameCalls depth arity g k = .ok true) : j.sameCalls depth arity f k = .ok true := by
  induction depth generalizing arity f g k with
  | zero => rfl
  | succ depth ih =>
    rw [sameCalls_succ_iff] at *
    intro args hargs fuel hfuel
    exact (h args hargs fuel hfuel).trans (h' args hargs fuel hfuel)
      (fun _ _ _ hxy hyz => ⟨hxy.1, hyz.2⟩) fun u v w => agree_trans_of fun _ _ _ _ => ih

private theorem agree_equivalenceOn (j : Judge) (depth : Nat) :
    EquivalenceOn (fun v => j.WellFormed ∧ v.isWellFormed = true)
      fun v w => j.agree depth v w = .ok true where
  refl hv := (hv.1.agree_answers depth hv.2 hv.2).eq_true (Bisimulation.eq.agree j depth rfl)
  symm := agree_symm_of fun _ _ _ => sameCalls_symm
  trans := agree_trans_of fun _ _ _ _ => sameCalls_trans

private theorem sameKey_eq_refl (env : Env) : List.Forall₂ (SameKey Eq) env env :=
  List.forall₂_same.mpr fun p _ => .mk p.1 rfl

private theorem agreeEnv_equivalenceOn (j : Judge) (depth : Nat) :
    EquivalenceOn (fun env => j.WellFormed ∧ Value.isWellFormedEnv env = true)
      fun env env' => j.agreeEnv depth env env' = .ok true where
  refl {env} henv := (henv.1.agreeEnv_answers depth henv.2 henv.2).eq_true
    (Bisimulation.eq.agreeEnv j depth (sameKey_eq_refl env))
  symm h := by
    rw [agreeEnv_iff] at *
    refine h.flip.imp fun p q hqp => ?_
    obtain ⟨hkey, hagree⟩ := SameKey.iff.mp hqp
    exact SameKey.iff.mpr ⟨hkey.symm, (j.agree_equivalenceOn depth).symm hagree⟩
  trans h h' := by
    rw [agreeEnv_iff] at *
    refine forall₂_comp h h' fun p _ q r hpq hqr => ?_
    obtain ⟨hkey, hagree⟩ := SameKey.iff.mp hpq
    obtain ⟨hkey', hagree'⟩ := SameKey.iff.mp hqr
    exact SameKey.iff.mpr ⟨hkey.trans hkey', (j.agree_equivalenceOn depth).trans hagree hagree'⟩

private theorem agreeOutcome_equivalenceOn (j : Judge) (depth : Nat) :
    EquivalenceOn
      (fun x : Outcome => j.WellFormed ∧
        Sound (fun r => r.1.isWellFormed = true ∧ Value.isWellFormedEnv r.2 = true) x)
      fun x y => j.agreeOutcome depth x y = .ok true where
  refl {x} h := by
    obtain ⟨hj, hx⟩ := h
    refine agreeOutcome_iff.mpr ?_
    cases hx with
    | ok h =>
      exact .ok ⟨(j.agree_equivalenceOn depth).refl ⟨hj, h.1⟩,
        (j.agreeEnv_equivalenceOn depth).refl ⟨hj, h.2⟩⟩
    | error h => exact .error ⟨h, h⟩
  symm h := agreeOutcome_iff.mpr ((agreeOutcome_iff.mp h).symm (fun _ _ => And.symm)
    fun _ _ ⟨hvalue, henv⟩ =>
      ⟨(j.agree_equivalenceOn depth).symm hvalue, (j.agreeEnv_equivalenceOn depth).symm henv⟩)
  trans h h' := agreeOutcome_iff.mpr ((agreeOutcome_iff.mp h).trans (agreeOutcome_iff.mp h')
    (fun _ _ _ hxy hyz => ⟨hxy.1, hyz.2⟩) fun _ _ _ ⟨hvalue, henv⟩ ⟨hvalue', henv'⟩ =>
      ⟨(j.agree_equivalenceOn depth).trans hvalue hvalue',
        (j.agreeEnv_equivalenceOn depth).trans henv henv'⟩)

private theorem together_self (x : Outcome) :
    Together (fun _ _ => True) (fun r r' => r.1 = r'.1 ∧ r.2 = r'.2) x x :=
  .refl (fun _ => trivial) (fun _ => ⟨rfl, rfl⟩) x

private theorem environmentsFor_comm (j : Judge) (before after : Expr) :
    j.environmentsFor before after = j.environmentsFor after before := by
  unfold environmentsFor
  split
  · rfl
  · rw [Ascending.union_comm before.isAscending_freeVars after.isAscending_freeVars]

private theorem equivalent_self_accepts (j : Judge) (e : Expr) :
    Accepts (·.isUnderflow = true) (j.equivalent e e) :=
  Bisimulation.eq.equivalent j id fun fuel env => together_self (e.eval fuel env)

/-- Not so if the first is not interpretable, since anything may stand for it. -/
private theorem equivalent_symm {before after : Expr} (hbefore : before.isInterpretable = true)
    (h : j.equivalent before after = .ok true) : j.equivalent after before = .ok true := by
  obtain ⟨-, hrun⟩ := equivalent_iff.mp h hbefore
  refine equivalent_iff.mpr fun _ => ⟨hbefore, fun env henv fuel hfuel => ?_⟩
  rw [environmentsFor_comm] at henv
  exact (j.agreeOutcome_equivalenceOn _).symm (hrun env henv fuel hfuel)

/-- Sampled environments bind the variables of the pair that is compared, so a chain goes through
only where the environments are given. -/
private theorem equivalent_trans {envs : List Env} (henvs : j.envs = some envs) {e e' e'' : Expr}
    (h : j.equivalent e e' = .ok true) (h' : j.equivalent e' e'' = .ok true) :
    j.equivalent e e'' = .ok true := by
  have hall : ∀ a b, j.environmentsFor a b = envs := fun a b => by rw [environmentsFor, henvs]
  rw [equivalent_iff] at *
  simp only [hall] at *
  intro he
  obtain ⟨he', hrun⟩ := h he
  obtain ⟨he'', hrun'⟩ := h' he'
  exact ⟨he'', fun env henv fuel hfuel =>
    (j.agreeOutcome_equivalenceOn _).trans (hrun env henv fuel hfuel) (hrun' env henv fuel hfuel)⟩

/-- What holds of comparisons by one judge. An answer yes is `.ok true`; a comparison that ends
without an answer has met an underflow. -/
structure Laws (j : Judge) : Prop where
  /-- Agreement of values, at every depth. -/
  values (depth : Nat) : EquivalenceOn (fun v => j.WellFormed ∧ v.isWellFormed = true)
    fun v w => j.agree depth v w = .ok true
  envs (depth : Nat) : EquivalenceOn (fun env => j.WellFormed ∧ Value.isWellFormedEnv env = true)
    fun env env' => j.agreeEnv depth env env' = .ok true
  /-- An outcome is sound that is well-formed, or a failure other than underflow. -/
  outcomes (depth : Nat) : EquivalenceOn
    (fun x : Outcome => j.WellFormed ∧
      Sound (fun r => r.1.isWellFormed = true ∧ Value.isWellFormedEnv r.2 = true) x)
    fun x y => j.agreeOutcome depth x y = .ok true
  /-- Nothing is told apart from itself, be it well-formed or not. -/
  value_self (depth : Nat) (v : Value) : Accepts (·.isUnderflow = true) (j.agree depth v v)
  env_self (depth : Nat) (env : Env) : Accepts (·.isUnderflow = true) (j.agreeEnv depth env env)
  outcome_self (depth : Nat) (x : Outcome) :
    Accepts (·.isUnderflow = true) (j.agreeOutcome depth x x)
  expr_self (e : Expr) : Accepts (·.isUnderflow = true) (j.equivalent e e)
  /-- Maps are compared by size and by looking keys up, environments likewise. -/
  map_lookup (depth : Nat) (xs ys : List (Value × Value)) :
    Ascending.isAscending (Ascending.keys xs) = true →
    Ascending.isAscending (Ascending.keys ys) = true →
    j.agree depth (.map xs) (.map ys) =
      if xs.length = ys.length then xs.allM (j.agreeAt depth ys) else .ok false
  map_agree_iff (depth : Nat) (xs ys : List (Value × Value)) :
    Ascending.isAscending (Ascending.keys xs) = true →
    Ascending.isAscending (Ascending.keys ys) = true →
    (j.agree depth (.map xs) (.map ys) = .ok true ↔ xs.length = ys.length ∧
      ∀ p ∈ xs, ∃ w, Ascending.get? p.1 ys = some w ∧ j.agree depth p.2 w = .ok true)
  env_lookup (depth : Nat) (env env' : Env) : Ascending.isAscending env'.names = true →
    j.agreeEnv depth env env' =
      if env.sameNames env' then env.allM (j.agreeAt depth env') else .ok false
  env_agree_iff (depth : Nat) (env env' : Env) : Ascending.isAscending env.names = true →
    Ascending.isAscending env'.names = true →
    (j.agreeEnv depth env env' = .ok true ↔ env.length = env'.length ∧
      ∀ p ∈ env, ∃ w, env'.get? p.1 = some w ∧ j.agree depth p.2 w = .ok true)
  expr_refl : j.WellFormed → ∀ e, j.equivalent e e = .ok true
  expr_comm (e e' : Expr) : e.isInterpretable = true → e'.isInterpretable = true →
    (j.equivalent e e' = .ok true ↔ j.equivalent e' e = .ok true)
  expr_trans (envs : List Env) : j.envs = some envs → ∀ e e' e'', j.equivalent e e' = .ok true →
    j.equivalent e' e'' = .ok true → j.equivalent e e'' = .ok true

end Judge

/-- Agreement of values, of environments and of outcomes is symmetric and transitive, and reflexive
on what is well-formed under a well-formed judge; without that, only an underflow keeps a comparison
with itself from saying yes. Every expression is equivalent to itself under a well-formed judge,
interpretable ones are equivalent both ways or not at all, and if the environments are given then
equivalence goes through chains. -/
theorem agreement_is_equivalence (j : Judge) : j.Laws where
  values := j.agree_equivalenceOn
  envs := j.agreeEnv_equivalenceOn
  outcomes := j.agreeOutcome_equivalenceOn
  value_self depth _ := Bisimulation.eq.agree j depth rfl
  env_self depth env := Bisimulation.eq.agreeEnv j depth (Judge.sameKey_eq_refl env)
  outcome_self depth x := Bisimulation.eq.agreeOutcome j depth (Judge.together_self x)
  expr_self := j.equivalent_self_accepts
  map_lookup _ _ _ := Judge.agree_map_eq
  map_agree_iff _ _ _ := Judge.agree_map_iff_get?
  env_lookup _ _ _ := Judge.agreeEnv_eq
  env_agree_iff _ _ _ := Judge.agreeEnv_iff_get?
  expr_refl hj e := (hj.equivalent_answers e e).eq_true (j.equivalent_self_accepts e)
  expr_comm _ _ he he' := ⟨Judge.equivalent_symm he, Judge.equivalent_symm he'⟩
  expr_trans _ henvs _ _ _ := Judge.equivalent_trans henvs

/-- Two ways of counting up agree also as entries of maps and of environments. That `x + x`, `x * 2`
and four are equivalent for `x = 2` is a chain. -/
theorem agreement_is_equivalence_counting :
    let j : Judge :=
      { budget := { depth := 2, maxFuel := 1, maxTuples := 4 }
        probes := [.int 0, .unit, .int 5]
        envs := some [[("x", .int 2)]] }
    let f := Value.functionOfX (.binary (.numeric .add) (.var "x") (.int 1))
    let g := Value.functionOfX (.binary (.numeric .add) (.int 1) (.var "x"))
    let double : Expr := .binary (.numeric .add) (.var "x") (.var "x")
    let twice : Expr := .binary (.numeric .mul) (.var "x") (.int 2)
    j.WellFormed ∧ f ≠ g ∧ j.agree 2 f g = .ok true ∧ j.agree 2 g f = .ok true ∧
      j.agree 2 (.map [(.int 1, f), (.int 2, .unit)]) (.map [(.int 1, g), (.int 2, .unit)]) =
        .ok true ∧
      j.agreeEnv 2 [("f", f), ("x", .unit)] [("f", g), ("x", .unit)] = .ok true ∧
      j.equivalent twice double = .ok true ∧ j.equivalent double (.int 4) = .ok true := by
  intro j f g double twice
  have laws := agreement_is_equivalence j
  have hj : j.WellFormed :=
    { probes := by decide
      envs := fun envs henvs => by
        cases henvs
        decide }
  have hfg : j.agree 2 f g = .ok true := by decide
  have hunit : j.agree 2 .unit .unit = .ok true := (laws.values 2).refl ⟨hj, rfl⟩
  have hdouble : j.equivalent double twice = .ok true := by decide
  have htwice : j.equivalent twice (.int 4) = .ok true := by decide
  refine ⟨hj, by decide, hfg, (laws.values 2).symm hfg, ?_, ?_,
    (laws.expr_comm _ _ rfl rfl).mp hdouble, laws.expr_trans _ rfl _ _ _ hdouble htwice⟩
  · refine (laws.map_agree_iff 2 _ _ rfl rfl).mpr ⟨rfl, ?_⟩
    simpa [Ascending.get?] using ⟨hfg, hunit⟩
  · refine (laws.env_agree_iff 2 _ _ (by decide) (by decide)).mpr ⟨rfl, ?_⟩
    simpa [Env.get?, Ascending.get?] using ⟨hfg, hunit⟩

/-- A magnitude that does not fit its width is taken from zero when the function is called, so that
a comparison of the function with itself has no answer. -/
theorem oversized_capture_not_reflexive :
    let f : Value := .closure [("x", .bitVector 0 5)] []
      (.binary (.numeric .sub) (.lit (.bitVector 0 0)) (.var "x"))
    f.isWellFormed = false ∧
      (Judge.ofBudget .standard).agree 1 f f =
        .error (.invalid (.eager (.binary (.numeric .sub))) .underflow) := by
  decide

end CheckedPass
