import CheckedPass.Proofs.Hereditary
import CheckedPass.Proofs.Verdict
/-!
# First-order programs

Agreement differs from equality on functions only. An expression that makes no functions yields none
where it is given none, so on such expressions, in given environments without functions, a judge is
exact: whatever its depth, its probes and its limit on argument lists, it accepts two of them
exactly if they fail together, otherwise than by underflow, or yield equal values, with every fuel
that it tries.
-/

namespace CheckedPass

namespace Judge

variable {j : Judge} {depth : Nat}

private theorem agree_answers_of_firstOrder {v w : Value}
    (h : v.isFirstOrder = true ∨ w.isFirstOrder = true) : (j.agree depth v w).Answers := by
  have hhereditary := Value.isFirstOrder_hereditary
  have hends : EndsIn (fun _ => False) (fun _ => True) (j.agree depth v w) := by
    refine Value.agreeBy_endsIn (T := fun v w => v.isFirstOrder = true ∨ w.isFirstOrder = true)
      (fun xs ys h v w hvw => ?_) (fun xs ys h k v w hv hw => ?_) ?_ h
    · obtain ⟨hv, hw⟩ := List.of_mem_zip hvw
      exact h.imp (fun h => hhereditary.seq.mp h v hv) fun h => hhereditary.seq.mp h w hw
    · exact h.imp (fun h => ((hhereditary.map.mp h).all _ hv).2)
        fun h => ((hhereditary.map.mp h).all _ hw).2
    · rintro env ps b env' qs c (h | h)
      · cases h
      · cases h
  exact hends.answers fun _ => id

private theorem agree_eq_decide {v w : Value} (h : v.isFirstOrder = true ∨ w.isFirstOrder = true) :
    j.agree depth v w = .ok (decide (v = w)) := by
  -- One value that can be compared is enough: agreement is structural, so the other one can be
  -- compared too.
  have hanswers : (j.agree depth v w).Answers := j.agree_answers_of_firstOrder h
  by_cases heq : v = w
  · rw [decide_eq_true heq]
    exact hanswers.eq_true (Bisimulation.eq.agree j depth heq)
  · obtain ⟨b, hb⟩ := hanswers
    cases b with
    | false => rw [hb, decide_eq_false heq]
    | true =>
      obtain ⟨hsame, hfirst⟩ := (j.agree_structural depth).firstOrder hb
      rw [← hsame, or_self] at h
      exact absurd (hfirst h) heq

private theorem agree_iff_eq {v w : Value} (h : v.isFirstOrder = true ∨ w.isFirstOrder = true) :
    j.agree depth v w = .ok true ↔ v = w := by
  rw [agree_eq_decide h, Except.ok.injEq, decide_eq_true_iff]

end Judge

/-- At every depth a value that can be compared agrees with itself and with no other value, not even
with one that holds functions, and there is always an answer. To compare maps by their sizes and by
looking each key of the one up in the other comes to the same. -/
theorem agreement_is_equality_of_firstOrder (j : Judge) (depth : Nat) :
    (∀ v w : Value, v.isFirstOrder = true ∨ w.isFirstOrder = true →
      j.agree depth v w = .ok (decide (v = w))) ∧
    ∀ xs ys : List (Value × Value), Ascending.isAscending (Ascending.keys xs) = true →
      Ascending.isAscending (Ascending.keys ys) = true →
      (Value.map xs).isFirstOrder = true ∨ (Value.map ys).isFirstOrder = true →
      ((xs.length = ys.length ∧
        ∀ p ∈ xs, ∃ w, Ascending.get? p.1 ys = some w ∧ j.agree depth p.2 w = .ok true) ↔
          xs = ys) := by
  refine ⟨fun v w => Judge.agree_eq_decide, fun xs ys hxs hys h => ?_⟩
  rw [← Judge.agree_map_iff_get? hxs hys, Judge.agree_iff_eq h, Value.map.injEq]

/-- A function deep inside the second value, where the first one has nothing: no judge takes the one
for the other, at whatever depth, nor does a look-up. -/
theorem agreement_is_equality_of_firstOrder_nested :
    let xs : List (Value × Value) := [(.int 1, .seq []), (.int 2, .set [.unit])]
    let ys : List (Value × Value) :=
      [(.int 1, .seq [Value.functionOfX (.var "x")]), (.int 2, .set [.unit])]
    let v : Value := .seq [.real 2, .map xs]
    let w : Value := .seq [.real 2, .map ys]
    v.isFirstOrder = true ∧ w.isFirstOrder = false ∧ ∀ (j : Judge) (depth : Nat),
      j.agree depth v v = .ok true ∧ j.agree depth v w = .ok false ∧ ¬ (xs.length = ys.length ∧
        ∀ p ∈ xs, ∃ u, Ascending.get? p.1 ys = some u ∧ j.agree depth p.2 u = .ok true) := by
  intro xs ys v w
  have hv : v.isFirstOrder = true := by decide
  have hvw : v ≠ w := by decide
  have hxys : xs ≠ ys := by decide
  refine ⟨hv, by decide, fun j depth => ?_⟩
  obtain ⟨hagree, hmaps⟩ := agreement_is_equality_of_firstOrder j depth
  refine ⟨?_, ?_, fun h => ?_⟩
  · rw [hagree v v (.inl hv), decide_eq_true rfl]
  · rw [hagree v w (.inl hv), decide_eq_false hvw]
  · exact hxys ((hmaps xs ys (by decide) (by decide) (.inl (by decide))).mp h)

/-- No node of the expression makes a function. -/
def Expr.MakesNoFunction (e : Expr) : Prop :=
  ∀ n ∈ e.nodes, n.shape ≠ .fn

instance (e : Expr) : Decidable e.MakesNoFunction :=
  inferInstanceAs (Decidable (∀ n ∈ e.nodes, n.shape ≠ .fn))

private theorem Value.call_fails_of_isFirstOrder {f : Value} (hf : f.isFirstOrder = true)
    (fuel : Nat) (args : List Value) : ∃ error, f.call fuel args = .error error := by
  cases fuel with
  | zero => exact ⟨_, rfl⟩
  | succ fuel =>
    cases f with
    | closure env params body => cases hf
    | _ => exact ⟨_, rfl⟩

private theorem Expr.eval_firstOrder {e : Expr} (he : e.MakesNoFunction) {env : Env}
    (henv : ∀ p ∈ env, p.2.isFirstOrder = true) (fuel : Nat) :
    Ensures (fun r => r.1.isFirstOrder = true ∧ r.2 = env) (e.eval fuel env) := by
  -- Where there are no functions none come up, since a call has nothing that it could call.
  have hcall : ∀ f args, f.isFirstOrder = true → (∀ v ∈ args, v.isFirstOrder = true) →
      EndsIn (fun _ => True) (fun v => v.isFirstOrder = true) (Value.call fuel f args) := by
    intro f args hf _
    obtain ⟨error, herror⟩ := Value.call_fails_of_isFirstOrder hf fuel args
    rw [herror]
    exact .error trivial
  have hfunctions : Hereditary.OfFunctions (fun v => v.isFirstOrder = true) e :=
    fun params body hmem => absurd rfl (he _ hmem)
  have hvalue := Value.isFirstOrder_hereditary.valueWith hcall hfunctions henv
  rintro ⟨v, env'⟩ hrun
  obtain ⟨rfl, hv⟩ := evalWith_eq_ok_iff.mp hrun
  exact ⟨hvalue.of_eq_ok hv, rfl⟩

namespace Judge

variable {j : Judge}

private theorem agreeOutcome_of_firstOrder {depth : Nat} {env : Env} {x y : Outcome}
    (henv : ∀ p ∈ env, p.2.isFirstOrder = true)
    (hx : Ensures (fun r => r.1.isFirstOrder = true ∧ r.2 = env) x)
    (hy : Ensures (fun r => r.1.isFirstOrder = true ∧ r.2 = env) y) :
    j.agreeOutcome depth x y = EvalResult.sameBy (fun r r' => .ok (decide (r.1 = r'.1))) x y := by
  have hself : j.agreeEnv depth env env = .ok true := by
    refine agreeEnv_iff.mpr (List.forall₂_same.mpr fun p hp => .mk p.1 ?_)
    exact (agree_iff_eq (.inl (henv p hp))).mpr rfl
  refine EvalResult.sameBy_congr fun r r' hr hr' => ?_
  obtain ⟨hfirst, henvR⟩ := hx r hr
  show (j.agree depth r.1 r'.1 <&&> j.agreeEnv depth r.2 r'.2) = .ok (decide (r.1 = r'.1))
  rw [agree_eq_decide (.inl hfirst), henvR, (hy r' hr').2, hself]
  cases decide (r.1 = r'.1) <;> rfl

section Given

variable {envs : List Env} {e e' : Expr}

private theorem agreeOutcome_eval_of_firstOrder (hfn : e.MakesNoFunction)
    (hfn' : e'.MakesNoFunction) (henvs : ∀ env ∈ envs, ∀ p ∈ env, p.2.isFirstOrder = true)
    (depth fuel : Nat) {env : Env} (henv : env ∈ envs) :
    j.agreeOutcome depth (e.eval fuel env) (e'.eval fuel env) =
      EvalResult.sameBy (fun r r' => .ok (decide (r.1 = r'.1))) (e.eval fuel env)
        (e'.eval fuel env) :=
  agreeOutcome_of_firstOrder (henvs env henv) (Expr.eval_firstOrder hfn (henvs env henv) fuel)
    (Expr.eval_firstOrder hfn' (henvs env henv) fuel)

private theorem equivalent_iff_of_firstOrder (hgiven : j.envs = some envs)
    (he : e.isInterpretable = true) (he' : e'.isInterpretable = true)
    (hfn : e.MakesNoFunction) (hfn' : e'.MakesNoFunction)
    (henvs : ∀ env ∈ envs, ∀ p ∈ env, p.2.isFirstOrder = true) :
    j.equivalent e e' = .ok true ↔ ∀ env ∈ envs, ∀ fuel ≤ j.budget.maxFuel.toNat,
      Together NoUnderflow (fun r r' => r.1 = r'.1) (e.eval fuel env) (e'.eval fuel env) := by
  have hall : j.environmentsFor e e' = envs := by rw [environmentsFor, hgiven]
  simp only [equivalent_iff, he, he', hall, true_and, forall_const, mem_fuels]
  refine forall₂_congr fun env henv => forall₂_congr fun fuel _ => ?_
  rw [agreeOutcome_eval_of_firstOrder hfn hfn' henvs _ _ henv, EvalResult.sameBy_eq_true_iff]
  simp only [Except.ok.injEq, decide_eq_true_iff]

private theorem equivalent_eq_of_firstOrder {j' : Judge} (hgiven : j.envs = some envs)
    (hgiven' : j'.envs = some envs) (hfuel : j.budget.maxFuel = j'.budget.maxFuel)
    (hfn : e.MakesNoFunction) (hfn' : e'.MakesNoFunction)
    (henvs : ∀ env ∈ envs, ∀ p ∈ env, p.2.isFirstOrder = true) :
    j.equivalent e e' = j'.equivalent e e' := by
  have hall : j.environmentsFor e e' = envs := by rw [environmentsFor, hgiven]
  have hall' : j'.environmentsFor e e' = envs := by rw [environmentsFor, hgiven']
  have hfuels : j.fuels = j'.fuels := by rw [fuels, fuels, hfuel]
  have hstep : ∀ env ∈ envs, ∀ fuel ∈ j'.fuels,
      j.divergence? e e' env fuel = j'.divergence? e e' env fuel := by
    intro env henv fuel _
    rw [divergence?, divergence?, agreeOutcome_eval_of_firstOrder hfn hfn' henvs _ _ henv,
      agreeOutcome_eval_of_firstOrder hfn hfn' henvs _ _ henv]
  rw [equivalent, equivalent, discrepancy?, discrepancy?, hall, hall', hfuels,
    findSomeM?_congr fun env henv => findSomeM?_congr (hstep env henv)]

end Given

end Judge

/-- Expressions that make no functions yield values that can be compared, in environments of such
values. A judge that is given the environments accepts two of them exactly if in each environment,
with each fuel that it tries, both fail, and not by underflow, or both yield the same value. What it
answers, if there is an answer, depends on nothing but the environments and the fuels. -/
theorem firstOrder_programs_judged_exactly {e e' : Expr} (he : e.isInterpretable = true)
    (he' : e'.isInterpretable = true) (hfn : e.MakesNoFunction) (hfn' : e'.MakesNoFunction)
    {envs : List Env} (henvs : ∀ env ∈ envs, ∀ p ∈ env, p.2.isFirstOrder = true) :
    (∀ env ∈ envs, ∀ fuel v env', e.eval fuel env = .ok (v, env') ∨
      e'.eval fuel env = .ok (v, env') → v.isFirstOrder = true) ∧
    (∀ j : Judge, j.envs = some envs → (j.equivalent e e' = .ok true ↔
      ∀ env ∈ envs, ∀ fuel ≤ j.budget.maxFuel.toNat,
        Together NoUnderflow (fun r r' => r.1 = r'.1) (e.eval fuel env) (e'.eval fuel env))) ∧
    ∀ j j' : Judge, j.envs = some envs → j'.envs = some envs →
      j.budget.maxFuel = j'.budget.maxFuel → j.equivalent e e' = j'.equivalent e e' := by
  refine ⟨fun env henv fuel v env' hrun => ?_, fun j hj => ?_, fun j j' hj hj' hfuel => ?_⟩
  · rcases hrun with hrun | hrun
    · exact (Expr.eval_firstOrder hfn (henvs env henv) fuel _ hrun).1
    · exact (Expr.eval_firstOrder hfn' (henvs env henv) fuel _ hrun).1
  · exact Judge.equivalent_iff_of_firstOrder hj he he' hfn hfn' henvs
  · exact Judge.equivalent_eq_of_firstOrder hj hj' hfuel hfn hfn' henvs

/-- Looking a key up, and looking it up to give it a name: one key is there, the other one is not.
A judge without probes that compares at depth zero has the verdict of the most thorough one. -/
theorem firstOrder_programs_judged_exactly_lookup :
    let select : Expr := .binary (.map .select) (.var "m") (.var "k")
    let named : Expr := .bind ["v"] [select] (.var "v")
    let m : Value := .map [(.int 1, .seq [.int 2, .map []])]
    let envs : List Env := [[("k", .int 1), ("m", m)], [("k", .int 3), ("m", m)]]
    let judge (depth maxTuples : UInt64) (probes : List Value) : Judge :=
      { budget := { depth := depth, maxFuel := 2, maxTuples := maxTuples }
        probes := probes
        envs := some envs }
    select.isInterpretable = true ∧ named.isInterpretable = true ∧ select.MakesNoFunction ∧
      named.MakesNoFunction ∧ (∀ env ∈ envs, ∀ p ∈ env, p.2.isFirstOrder = true) ∧
      (judge 0 0 []).equivalent select named = .ok true ∧
      (∀ env ∈ envs, ∀ fuel ≤ 2, Together NoUnderflow (fun r r' => r.1 = r'.1)
        (select.eval fuel env) (named.eval fuel env)) ∧
      ∀ depth maxTuples probes,
        (judge depth maxTuples probes).equivalent select named = .ok true := by
  intro select named m envs judge
  have hselect : select.isInterpretable = true := by decide
  have hnamed : named.isInterpretable = true := by decide
  have hfn : select.MakesNoFunction := by decide
  have hfn' : named.MakesNoFunction := by decide
  have henvs : ∀ env ∈ envs, ∀ p ∈ env, p.2.isFirstOrder = true := by decide
  have hequiv : (judge 0 0 []).equivalent select named = .ok true := by decide
  obtain ⟨-, hexact, hsame⟩ := firstOrder_programs_judged_exactly hselect hnamed hfn hfn' henvs
  refine ⟨hselect, hnamed, hfn, hfn', henvs, hequiv, (hexact _ rfl).mp hequiv, ?_⟩
  exact fun depth maxTuples probes => (hsame _ _ rfl rfl rfl).trans hequiv

end CheckedPass
