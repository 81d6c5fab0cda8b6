import CheckedPass.Proofs.Samples
import CheckedPass.Proofs.Verdict
/-!
# Depth of comparison

At a larger depth the arguments of functions are drawn from more probes and the results are compared
further down. A judge therefore tells more apart the deeper it compares, unless its limit on
argument lists cuts off some that it would have tried at a smaller depth: probes that come into the
pool between others push lists beyond the limit.
-/

namespace CheckedPass

namespace Judge

variable {j : Judge} {depth : Nat}

/-- Every argument list that is tried at some depth is tried one level deeper as well. -/
def KeepsSamples (j : Judge) : Prop :=
  ∀ depth arity, ∀ args ∈ tuples (j.pool depth) arity j.budget.maxTuples.toNat,
    args ∈ tuples (j.pool (depth + 1)) arity j.budget.maxTuples.toNat

private theorem pool_of_complexity {c : Nat} (h : ∀ p ∈ j.probes, p.complexity = c) (depth : Nat) :
    j.pool depth = if c < depth then j.probes else [] := by
  rw [pool]
  split
  · rename_i hc
    refine List.filter_eq_self.mpr fun p hp => ?_
    rw [h p hp]
    exact decide_eq_true hc
  · rename_i hc
    refine List.filter_eq_nil_iff.mpr fun p hp => ?_
    rw [h p hp, decide_eq_true_iff]
    exact hc

private theorem keepsSamples_of_complexity {c : Nat} (h : ∀ p ∈ j.probes, p.complexity = c) :
    j.KeepsSamples := by
  -- Probes of one complexity come into the pool all at once, and before that nothing but the empty
  -- list can be drawn.
  intro depth arity args hargs
  rw [pool_of_complexity h] at *
  split at hargs
  · rwa [if_pos (by omega)]
  · exact mem_tuples_of_mem_nil hargs

private theorem sameCalls_of_succ (hkeeps : j.KeepsSamples) {arity : Nat} {f g : Value}
    (h : j.sameCalls (depth + 1) arity f g = .ok true) :
    j.sameCalls depth arity f g = .ok true := by
  -- By induction on the depth: the calls are among those tried one level deeper, and their results
  -- are compared one level deeper there too.
  induction depth generalizing arity f g with
  | zero => rfl
  | succ depth ih =>
    have hresults : ∀ v w, j.agree (depth + 1) v w = .ok true → j.agree depth v w = .ok true :=
      fun _ _ => agree_of_sameCalls fun _ _ _ => ih
    exact sameCalls_of_fewer (hkeeps (depth + 1) arity) (fun _ => id) hresults h

private theorem agree_of_succ (hkeeps : j.KeepsSamples) {v w : Value}
    (h : j.agree (depth + 1) v w = .ok true) : j.agree depth v w = .ok true :=
  agree_of_sameCalls (fun _ _ _ => sameCalls_of_succ hkeeps) h

end Judge

/-- What agrees one level deeper agrees, values as well as environments, if every argument list that
is tried at some depth is tried one level deeper as well. This is so for probes that are all of one
complexity, whatever the limit. -/
theorem deeper_agreement_refines (j : Judge) :
    (j.KeepsSamples →
      (∀ depth v w, j.agree (depth + 1) v w = .ok true → j.agree depth v w = .ok true) ∧
      ∀ depth env env',
        j.agreeEnv (depth + 1) env env' = .ok true → j.agreeEnv depth env env' = .ok true) ∧
    ∀ c, (∀ p ∈ j.probes, p.complexity = c) → j.KeepsSamples := by
  refine ⟨fun hkeeps => ⟨fun depth v w => Judge.agree_of_succ hkeeps, fun depth env env' => ?_⟩,
    fun c => Judge.keepsSamples_of_complexity⟩
  exact Judge.agreeEnv_of_agree fun v w => Judge.agree_of_succ hkeeps

/-- Two ways to add in two calls agree at depth three, so they do at depth two. Multiplication
agrees with them at depth two, where the result of the first call is not yet called, but not at
three. -/
theorem deeper_agreement_refines_curried :
    let j : Judge :=
      { budget := { depth := 3, maxFuel := 1, maxTuples := 2 }
        probes := [.int 0, .int 1]
        envs := none }
    let curried (op : NumericOp) (first second : String) : Value :=
      .closure [] ["x"] (.fn ["y"] (.binary (.numeric op) (.var first) (.var second)))
    let f := curried .add "x" "y"
    let g := curried .add "y" "x"
    j.KeepsSamples ∧ f ≠ g ∧ j.agree 3 f g = .ok true ∧ j.agree 2 f g = .ok true ∧
      j.agreeEnv 3 [("f", f)] [("f", g)] = .ok true ∧
      j.agreeEnv 2 [("f", f)] [("f", g)] = .ok true ∧
      j.agree 2 f (curried .mul "x" "y") = .ok true ∧
      j.agree 3 f (curried .mul "x" "y") = .ok false := by
  intro j curried f g
  obtain ⟨hrefines, hcomplexity⟩ := deeper_agreement_refines j
  have hkeeps : j.KeepsSamples := hcomplexity 1 (by decide)
  have hfg : j.agree 3 f g = .ok true := by decide
  have henv : j.agreeEnv 3 [("f", f)] [("f", g)] = .ok true := by decide
  obtain ⟨hvalues, henvs⟩ := hrefines hkeeps
  exact ⟨hkeeps, by decide, hfg, hvalues 2 f g hfg, henv, henvs 2 _ _ henv, by decide, by decide⟩

-- Where one list is all that is tried, a sequence that comes into the pool before the number pushes
-- it out: both functions fail on the sequence, and only at the smaller depth they are told apart.
example :
    let j : Judge :=
      { budget := { depth := 3, maxFuel := 1, maxTuples := 1 }
        probes := [.seq [.int 0], .int 0]
        envs := none }
    let plus (n : Int) := Value.functionOfX (.binary (.numeric .add) (.var "x") (.int n))
    j.agree 3 (plus 1) (plus 2) = .ok true ∧ j.agree 2 (plus 1) (plus 2) = .ok false := by
  decide

end CheckedPass
