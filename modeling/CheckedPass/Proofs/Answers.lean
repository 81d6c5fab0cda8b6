import CheckedPass.Proofs.Comparisons
import CheckedPass.Proofs.Integrity
/-!
# Judges that always have an answer

No evaluation and no call underflows on well-formed values. A judge whose probes and environments
are well-formed therefore has an answer to whatever it is asked about well-formed values, and about
any two expressions. The standard probes are well-formed.
-/

namespace CheckedPass

/-- There is an answer, yes or no. -/
def EvalResult.Answers (x : EvalResult Bool) : Prop :=
  ∃ b, x = .ok b

theorem EvalResult.Answers.eq_true {E : EvalError → Prop} {x : EvalResult Bool} (h : x.Answers)
    (haccepts : Accepts E x) : x = .ok true := by
  obtain ⟨b, rfl⟩ := h
  cases haccepts with
  | ok hb => rw [hb]

theorem EvalResult.Answers.ne_error {x : EvalResult Bool} (h : x.Answers) {error : EvalError} :
    x ≠ .error error := by
  obtain ⟨b, rfl⟩ := h
  intro heq
  cases heq

theorem EndsIn.answers {E : EvalError → Prop} {Q : Bool → Prop} {x : EvalResult Bool}
    (h : EndsIn E Q x) (hE : ∀ error, ¬ E error) : x.Answers := by
  cases h with
  | ok _ => exact ⟨_, rfl⟩
  | error h => exact absurd h (hE _)

namespace Value

private theorem isWellFormed_of_mem_parts {u v : Value} (hv : v.isWellFormed = true)
    (hu : u ∈ v.parts) : u.isWellFormed = true := by
  cases v with
  | seq xs => exact isWellFormed_seq.mp hv u hu
  | set xs => exact ((isWellFormed_set.mp hv).2 u hu).wellFormed
  | multiset counts =>
    obtain ⟨p, hp, rfl⟩ := List.mem_map.mp hu
    exact ((isWellFormed_multiset.mp hv).all p hp).1.wellFormed
  | map entries =>
    have hall := (isWellFormed_map.mp hv).all
    rcases List.mem_append.mp hu with hu | hu
    · obtain ⟨p, hp, rfl⟩ := List.mem_map.mp hu
      exact (hall p hp).1.wellFormed
    · obtain ⟨p, hp, rfl⟩ := List.mem_map.mp hu
      exact (hall p hp).2
  | closure env params body =>
    obtain ⟨p, hp, rfl⟩ := List.mem_map.mp hu
    exact isWellFormedEnv_iff.mp hv p hp
  | _ => cases hu

private theorem isWellFormed_keptByCalls : KeptByCalls fun v => v.isWellFormed = true where
  parts hv _ := isWellFormed_of_mem_parts hv
  call hf hargs fuel := (call_keepsForm fuel _ _ hf hargs).ensures

private theorem standardProbes_isWellFormed : ∀ p ∈ standardProbes, p.isWellFormed = true := by
  decide

end Value

namespace Judge

/-- All that a judge draws its samples from is well-formed. -/
structure WellFormed (j : Judge) : Prop where
  probes : ∀ p ∈ j.probes, p.isWellFormed = true
  envs : ∀ envs, j.envs = some envs → ∀ env ∈ envs, Value.isWellFormedEnv env = true

theorem ofBudget_wellFormed (budget : Budget) : (ofBudget budget).WellFormed where
  probes := Value.standardProbes_isWellFormed
  envs envs henvs := by cases henvs

namespace WellFormed

variable {j : Judge} {before after : Expr} {env env' : Env} {v w : Value}

private theorem of_mem_environmentsFor (hj : j.WellFormed)
    (henv : env ∈ j.environmentsFor before after) : Value.isWellFormedEnv env = true := by
  rw [environmentsFor] at henv
  split at henv
  · rename_i envs henvs
    exact hj.envs envs henvs env henv
  · refine Value.isWellFormedEnv_iff.mpr fun p hp => hj.probes p.2 ?_
    exact List.mem_of_mem_filter (mem_pool_of_mem_environments henv hp)

private theorem not_underflows (hj : j.WellFormed) {R : Nat → Value → Value → Prop}
    (hR : ∀ d x y, R d x y → x.isWellFormed = true ∧ y.isWellFormed = true) (error : EvalError) :
    ¬ j.Underflows R error := by
  intro h
  cases h with
  | call hfg _ hargs _ herror hcall =>
    obtain ⟨hf, hg⟩ := hR _ _ _ hfg
    have hall := KeptByCalls.of_mem_tuples hj.probes hargs
    have hsound : error.isUnderflow = false := by
      rcases hcall with hcall | hcall
      · exact (Value.call_keepsForm _ _ _ hf hall).of_eq_error hcall
      · exact (Value.call_keepsForm _ _ _ hg hall).of_eq_error hcall
    rw [hsound] at herror
    cases herror

theorem agree_answers (hj : j.WellFormed) (depth : Nat) (hv : v.isWellFormed = true)
    (hw : w.isWellFormed = true) : (j.agree depth v w).Answers :=
  (j.agree_endsIn depth v w).answers (hj.not_underflows fun _ _ _ =>
    Value.isWellFormed_keptByCalls.of_reaches hj.probes hv hw)

theorem agreeEnv_answers (hj : j.WellFormed) (depth : Nat)
    (henv : Value.isWellFormedEnv env = true) (henv' : Value.isWellFormedEnv env' = true) :
    (j.agreeEnv depth env env').Answers := by
  refine (agreeEnv_endsIn (E := fun _ => False) fun name v w hv hw => ?_).answers fun _ => id
  obtain ⟨b, hb⟩ := hj.agree_answers depth (Value.isWellFormedEnv_iff.mp henv _ hv)
    (Value.isWellFormedEnv_iff.mp henv' _ hw)
  rw [hb]
  exact .ok trivial

/-- No evaluation of a well-formed judge underflows, nor does a call that it makes. -/
theorem equivalent_answers (hj : j.WellFormed) (before after : Expr) :
    (j.equivalent before after).Answers := by
  refine (j.equivalent_endsIn before after).answers fun error h => ?_
  rcases h with h | ⟨herror, env, henv, fuel, -, hrun⟩
  · refine hj.not_underflows (fun _ _ _ => ?_) error h
    refine Value.isWellFormed_keptByCalls.of_compares hj.probes fun env henv fuel e _ => ?_
    refine ((e.eval_sound fuel (hj.of_mem_environmentsFor henv)).mono fun r hr => ?_).ensures
    exact ⟨hr.1, Value.isWellFormedEnv_iff.mp hr.2⟩
  · have hwell := hj.of_mem_environmentsFor henv
    have hsound : error.isUnderflow = false := by
      rcases hrun with hrun | hrun
      · exact (before.eval_sound fuel hwell).of_eq_error hrun
      · exact (after.eval_sound fuel hwell).of_eq_error hrun
    rw [hsound] at herror
    cases herror

end WellFormed

end Judge

end CheckedPass
