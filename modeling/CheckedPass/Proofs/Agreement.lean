import CheckedPass.Equivalence.Judge
import CheckedPass.Proofs.Ascending
import CheckedPass.Proofs.Likeness
/-!
# Agreement of values

Values agree as far as their functions do: agreement is structural, whichever test it puts functions
to. A judge tests functions by their calls on all sampled arguments and fuels, which have to run
together to values that agree at a smaller depth, and expressions by their runs in all sampled
environments. To say yes, the judge must not meet an underflow on the way.
-/

namespace CheckedPass

/-- Entries in ascending order are alike one by one exactly if there are equally many on both sides
and what each key of the first stands for is like what it stands for in the second. -/
theorem Ascending.like_iff_get? {α β : Type} [Ord α] [Std.TransOrd α] [DecidableEq α]
    {S : β → β → Prop} {xs ys : List (α × β)} (hxs : isAscending (keys xs) = true)
    (hys : isAscending (keys ys) = true) :
    List.Forall₂ (SameKey S) xs ys ↔
      xs.length = ys.length ∧ ∀ p ∈ xs, ∃ w, get? p.1 ys = some w ∧ S p.2 w := by
  constructor
  · intro h
    refine ⟨h.length_eq, fun p hp => ?_⟩
    have hrel := get?_like p.1 h
    rw [get?_of_mem (nodup_of_isAscending hxs) hp] at hrel
    generalize get? p.1 ys = y at hrel
    cases hrel with
    | some hS => exact ⟨_, rfl, hS⟩
  · rintro ⟨hlen, hget⟩
    have hkeys : keys xs = keys ys := by
      refine eq_of_subset_of_length hxs hys ?_ (by simpa [keys] using hlen)
      refine List.forall_mem_map.mpr fun p hp => ?_
      obtain ⟨w, hw, -⟩ := hget p hp
      exact List.mem_map.mpr ⟨(p.1, w), mem_of_get? hw, rfl⟩
    have hsame : List.Forall₂ Eq (xs.map Prod.fst) (ys.map Prod.fst) :=
      List.forall₂_eq_eq_eq ▸ hkeys
    rw [List.forall₂_map_left_iff, List.forall₂_map_right_iff] at hsame
    refine List.forall₂_iff_zip.mpr ⟨hlen, fun {p q} hpq => ?_⟩
    obtain ⟨hp, hq⟩ := List.of_mem_zip hpq
    have hkey : p.1 = q.1 := (List.forall₂_iff_zip.mp hsame).2 hpq
    obtain ⟨w, hw, hS⟩ := hget p hp
    rw [hkey, get?_of_mem (nodup_of_isAscending hys) hq, Option.some.injEq] at hw
    exact SameKey.iff.mpr ⟨hkey, hw ▸ hS⟩

/-- Neither failure is an underflow. -/
abbrev NoUnderflow (error error' : EvalError) : Prop :=
  error.isUnderflow = false ∧ error'.isUnderflow = false

/-- The answer is yes, unless there is none because of an error of which `E` holds. -/
abbrev Accepts (E : EvalError → Prop) (x : EvalResult Bool) : Prop :=
  EndsIn E (· = true) x

theorem accepts_iff_eq_true {x : EvalResult Bool} : Accepts (fun _ => False) x ↔ x = .ok true := by
  constructor
  · intro h
    cases h with
    | ok h => rw [h]
    | error h => exact h.elim
  · rintro rfl
    exact .ok rfl

namespace EvalResult

variable {α : Type} {same : α → α → EvalResult Bool} {x y : EvalResult α}

private theorem settled_failure {error : EvalError} (h : error.isUnderflow = false) :
    settled (.error error : EvalResult α) = .ok none := by
  rw [settled, h]
  rfl

private theorem of_settled {r : Option α} (h : x.settled = .ok r) :
    (∃ a, x = .ok a ∧ r = some a) ∨ ∃ error, x = .error error ∧ error.isUnderflow = false ∧
      r = none := by
  cases x with
  | ok a => exact .inl ⟨a, rfl, (Except.ok.inj h).symm⟩
  | error error =>
    rw [settled] at h
    split at h
    · cases h
    · rename_i herror
      exact .inr ⟨error, rfl, Bool.eq_false_iff.mpr herror, (Except.ok.inj h).symm⟩

private theorem settled_endsIn {E : EvalError → Prop}
    (hx : ∀ error, x = .error error → error.isUnderflow = true → E error) :
    EndsIn E (fun r => r = x.toOption) x.settled := by
  cases x with
  | ok a => exact .ok rfl
  | error error =>
    rw [settled]
    split
    · rename_i herror
      exact .error (hx error rfl herror)
    · exact .ok rfl

theorem sameBy_eq_true_iff :
    sameBy same x y = .ok true ↔ Together NoUnderflow (fun a b => same a b = .ok true) x y := by
  constructor
  · intro h
    obtain ⟨r, hr, hrest⟩ := steps_of_bind_eq_ok h
    obtain ⟨r', hr', hsame⟩ := steps_of_bind_eq_ok hrest
    rcases of_settled hr with ⟨a, rfl, rfl⟩ | ⟨error, rfl, herror, rfl⟩ <;>
      rcases of_settled hr' with ⟨b, rfl, rfl⟩ | ⟨error', rfl, herror', rfl⟩
    · exact .ok hsame
    · cases hsame
    · cases hsame
    · exact .error ⟨herror, herror'⟩
  · intro h
    cases h with
    | ok h => exact h
    | error h =>
      rw [sameBy, settled_failure h.1, settled_failure h.2]
      rfl

theorem sameBy_congr {same' : α → α → EvalResult Bool}
    (h : ∀ a b, x = .ok a → y = .ok b → same a b = same' a b) :
    sameBy same x y = sameBy same' x y := by
  rw [sameBy, sameBy]
  rcases hx : x.settled with error | r
  · rfl
  rcases hy : y.settled with error | r'
  · rfl
  rcases of_settled hx with ⟨a, hxa, rfl⟩ | ⟨_, _, _, rfl⟩ <;>
    rcases of_settled hy with ⟨b, hyb, rfl⟩ | ⟨_, _, _, rfl⟩
  · exact h a b hxa hyb
  · rfl
  · rfl
  · rfl

/-- Only an underflow of one of the runs, or what compares their results, ends the comparison. The
answer can be no only if the runs differ in whether they fail, or that answer is no. -/
theorem sameBy_endsIn {E : EvalError → Prop} {Q : Bool → Prop} (htrue : Q true)
    (hfalse : Q false ∨ Together (fun _ _ => True) (fun _ _ => True) x y)
    (hx : ∀ error, x = .error error → error.isUnderflow = true → E error)
    (hy : ∀ error, y = .error error → error.isUnderflow = true → E error)
    (hsame : ∀ a b, x = .ok a → y = .ok b → EndsIn E Q (same a b)) :
    EndsIn E Q (sameBy same x y) := by
  refine (settled_endsIn hx).bind fun r hr => (settled_endsIn hy).bind fun r' hr' => ?_
  subst hr hr'
  match x, y with
  | .ok a, .ok b => exact hsame a b rfl rfl
  | .error _, .error _ => exact .ok htrue
  | .ok _, .error _ => exact .ok (hfalse.resolve_right fun h => by cases h)
  | .error _, .ok _ => exact .ok (hfalse.resolve_right fun h => by cases h)

end EvalResult

namespace Value

variable {sameCalls : Nat → Value → Value → EvalResult Bool}

private theorem agreeListBy_iff {xs ys : List Value} (hlen : xs.length = ys.length) :
    agreeListBy sameCalls xs ys = .ok true ↔
      List.Forall₂ (fun v w => v.agreeBy sameCalls w = .ok true) xs ys := by
  induction xs generalizing ys with
  | nil =>
    rw [List.length_eq_zero_iff.mp hlen.symm]
    exact ⟨fun _ => .nil, fun _ => rfl⟩
  | cons x xs ih =>
    obtain ⟨y, ys, rfl⟩ := List.exists_cons_of_length_eq_add_one hlen.symm
    rw [agreeListBy, andM_eq_true_iff, ih (Nat.succ.inj hlen), List.forall₂_cons]

theorem split_of_dropWhile {ys rest : List (Value × Value)} {k k' w : Value}
    (h : (ys.dropWhile fun p => p.1 ≠ k) = (k', w) :: rest) :
    k = k' ∧ ∃ front, ys = front ++ (k', w) :: rest := by
  have hhead := List.head?_dropWhile_not (fun p : Value × Value => decide (p.1 ≠ k)) ys
  rw [h] at hhead
  refine ⟨(Decidable.not_not.mp (of_decide_eq_false hhead)).symm,
    ys.takeWhile fun p => p.1 ≠ k, ?_⟩
  rw [← h, List.takeWhile_append_dropWhile]

private theorem sublist_of_agreeEntriesBy {xs ys : List (Value × Value)}
    (h : agreeEntriesBy sameCalls xs ys = .ok true) :
    ∃ zs, zs.Sublist ys ∧
      List.Forall₂ (SameKey fun v w => v.agreeBy sameCalls w = .ok true) xs zs := by
  induction xs generalizing ys with
  | nil => exact ⟨[], List.nil_sublist _, .nil⟩
  | cons p xs ih =>
    rw [agreeEntriesBy] at h
    split at h
    · cases h
    · rename_i k' w rest hfound
      obtain ⟨hkey, front, rfl⟩ := split_of_dropWhile hfound
      obtain ⟨hvalue, hrest⟩ := andM_eq_true_iff.mp h
      obtain ⟨zs, hsub, hlike⟩ := ih hrest
      refine ⟨(k', w) :: zs, (hsub.cons_cons (k', w)).trans (List.sublist_append_right _ _), ?_⟩
      exact .cons (SameKey.iff.mpr ⟨hkey, hvalue⟩) hlike

private theorem agreeEntriesBy_iff {xs ys : List (Value × Value)} (hlen : xs.length = ys.length) :
    agreeEntriesBy sameCalls xs ys = .ok true ↔
      List.Forall₂ (SameKey fun v w => v.agreeBy sameCalls w = .ok true) xs ys := by
  -- Found one behind the other, the keys are the same on both sides if there are equally many.
  constructor
  · intro h
    obtain ⟨zs, hsub, hlike⟩ := sublist_of_agreeEntriesBy h
    rwa [hsub.eq_of_length (hlike.length_eq.symm.trans hlen)] at hlike
  · intro h
    induction h with
    | nil => rfl
    | @cons p q xs ys hpq _ ih =>
      obtain ⟨hkey, hvalue⟩ := SameKey.iff.mp hpq
      have hfound : (q :: ys).dropWhile (fun r => r.1 ≠ p.1) = q :: ys := by
        simp [hkey]
      rw [agreeEntriesBy, hfound]
      exact andM_eq_true_iff.mpr ⟨hvalue, ih (Nat.succ.inj hlen)⟩

theorem agreeBy_structural : Structural fun v w => v.agreeBy sameCalls w = .ok true where
  kind_eq {v w} := by
    fun_cases agreeBy sameCalls v w with
    | case7 => exact fun h => congrArg kind (of_decide_eq_true (Except.ok.inj h))
    | _ => exact fun _ => rfl
  flat {v w} := by
    fun_cases agreeBy sameCalls v w with
    | case7 => exact fun h _ => of_decide_eq_true (Except.ok.inj h)
    | _ => exact fun _ hflat => (by cases hflat)
  flat_refl {v} hflat := by
    cases v with
    | seq | map | closure => cases hflat
    | _ => exact congrArg Except.ok (decide_eq_true rfl)
  seq {xs ys} := by
    rw [agreeBy]
    split
    · rename_i hlen
      exact agreeListBy_iff hlen
    · rename_i hlen
      exact ⟨fun h => (by cases h), fun h => absurd h.length_eq hlen⟩
  map {xs ys} := by
    rw [agreeBy]
    split
    · rename_i hlen
      exact agreeEntriesBy_iff hlen
    · rename_i hlen
      exact ⟨fun h => (by cases h), fun h => absurd h.length_eq hlen⟩

variable {E : EvalError → Prop}

private theorem agreeListBy_accepts {xs ys : List Value}
    (h : List.Forall₂ (fun v w => Accepts E (v.agreeBy sameCalls w)) xs ys) :
    Accepts E (agreeListBy sameCalls xs ys) := by
  induction h with
  | nil => exact .ok rfl
  | cons hvw _ ih => exact hvw.andM ih

private theorem agreeEntriesBy_accepts {xs ys : List (Value × Value)}
    (h : List.Forall₂ (SameKey fun v w => Accepts E (v.agreeBy sameCalls w)) xs ys) :
    Accepts E (agreeEntriesBy sameCalls xs ys) := by
  induction h with
  | nil => exact .ok rfl
  | @cons p q xs ys hpq _ ih =>
    obtain ⟨hkey, hvalue⟩ := SameKey.iff.mp hpq
    have hfound : (q :: ys).dropWhile (fun r => r.1 ≠ p.1) = q :: ys := by
      simp [hkey]
    rw [agreeEntriesBy, hfound]
    exact hvalue.andM ih

end Value

/-- Structurally related values agree, if related functions have equally many parameters and pass
the test. -/
theorem Structural.agreeBy_accepts {S : Value → Value → Prop} (hS : Structural S)
    {E : EvalError → Prop} {sameCalls : Nat → Value → Value → EvalResult Bool}
    (hfn : ∀ env ps b env' qs c, S (.closure env ps b) (.closure env' qs c) →
      ps.length = qs.length ∧
        Accepts E (sameCalls ps.length (.closure env ps b) (.closure env' qs c)))
    {v w : Value} (h : S v w) : Accepts E (v.agreeBy sameCalls w) := by
  induction v using Value.parts_induction generalizing w with
  | step v ih =>
    cases v with
    | seq xs =>
      obtain ⟨ys, rfl, hxy⟩ := hS.seq_left h
      rw [Value.agreeBy, if_pos hxy.length_eq]
      exact Value.agreeListBy_accepts (forall₂_of_mem hxy fun x hx _ hxy => ih x hx hxy)
    | map xs =>
      obtain ⟨ys, rfl, hxy⟩ := hS.map_left h
      rw [Value.agreeBy, if_pos hxy.length_eq]
      refine Value.agreeEntriesBy_accepts (forall₂_of_mem hxy ?_)
      rintro _ hp _ ⟨k, hpq⟩
      exact .mk k (ih _ (Value.mem_parts_map hp) hpq)
    | closure env ps b =>
      obtain ⟨env', qs, c, rfl⟩ := hS.closure_left h
      obtain ⟨hlen, htest⟩ := hfn _ _ _ _ _ _ h
      rwa [Value.agreeBy, if_pos hlen]
    | _ =>
      obtain rfl := hS.flat h rfl
      exact .ok (decide_eq_true rfl)

namespace Value

variable {E : EvalError → Prop} {sameCalls : Nat → Value → Value → EvalResult Bool}

private theorem agreeListBy_endsIn {xs ys : List Value}
    (h : ∀ v w, (v, w) ∈ xs.zip ys → EndsIn E (fun _ => True) (v.agreeBy sameCalls w)) :
    EndsIn E (fun _ => True) (agreeListBy sameCalls xs ys) := by
  induction xs generalizing ys with
  | nil => exact .ok trivial
  | cons x xs ih =>
    cases ys with
    | nil => exact .ok trivial
    | cons y ys =>
      refine (h x y List.mem_cons_self).andM (ih fun v w hvw => h v w ?_)
      exact List.mem_cons_of_mem _ hvw

private theorem agreeEntriesBy_endsIn {xs ys : List (Value × Value)}
    (h : ∀ k v w, (k, v) ∈ xs → (k, w) ∈ ys →
      EndsIn E (fun _ => True) (v.agreeBy sameCalls w)) :
    EndsIn E (fun _ => True) (agreeEntriesBy sameCalls xs ys) := by
  induction xs generalizing ys with
  | nil => exact .ok trivial
  | cons p xs ih =>
    rw [agreeEntriesBy]
    split
    · exact .ok trivial
    · rename_i k w rest hfound
      obtain ⟨rfl, front, rfl⟩ := split_of_dropWhile hfound
      have hfirst := List.mem_append_right front (List.mem_cons_self (a := (p.1, w)) (l := rest))
      refine (h p.1 p.2 w List.mem_cons_self hfirst).andM (ih fun k v w hv hw => ?_)
      exact h k v w (List.mem_cons_of_mem _ hv)
        (List.mem_append_right _ (List.mem_cons_of_mem _ hw))

/-- A comparison leads from sequences and maps to what stands in the same places, and ends early
only where it does so on two functions. -/
theorem agreeBy_endsIn {T : Value → Value → Prop}
    (hseq : ∀ xs ys, T (.seq xs) (.seq ys) → ∀ v w, (v, w) ∈ xs.zip ys → T v w)
    (hmap : ∀ xs ys, T (.map xs) (.map ys) → ∀ k v w, (k, v) ∈ xs → (k, w) ∈ ys → T v w)
    (hfn : ∀ env ps b env' qs c, T (.closure env ps b) (.closure env' qs c) →
      ps.length = qs.length →
        EndsIn E (fun _ => True) (sameCalls ps.length (.closure env ps b) (.closure env' qs c)))
    {v w : Value} (h : T v w) : EndsIn E (fun _ => True) (v.agreeBy sameCalls w) := by
  induction v using parts_induction generalizing w with
  | step v ih =>
    revert h ih
    fun_cases agreeBy sameCalls v w with
    | case1 xs ys hlen =>
      intro ih h
      refine agreeListBy_endsIn fun v w hvw => ih v ?_ (hseq xs ys h v w hvw)
      exact (List.of_mem_zip hvw).1
    | case3 xs ys hlen =>
      intro ih h
      refine agreeEntriesBy_endsIn fun k v w hv hw => ih v ?_ (hmap xs ys h k v w hv hw)
      exact mem_parts_map hv
    | case5 env ps b env' qs c hlen => exact fun _ h => hfn _ _ _ _ _ _ h hlen
    | _ => exact fun _ _ => .ok trivial

end Value

namespace Judge

variable {j : Judge} {depth : Nat}

theorem mem_fuels {fuel : Nat} : fuel ∈ j.fuels ↔ fuel ≤ j.budget.maxFuel.toNat := by
  rw [fuels, List.mem_range, Nat.lt_succ_iff]

theorem sameCalls_succ_iff {arity : Nat} {f g : Value} :
    j.sameCalls (depth + 1) arity f g = .ok true ↔
      ∀ args ∈ tuples (j.pool (depth + 1)) arity j.budget.maxTuples.toNat, ∀ fuel ∈ j.fuels,
        Together NoUnderflow (fun v w => j.agree depth v w = .ok true) (f.call fuel args)
          (g.call fuel args) := by
  simp only [sameCalls, allM_eq_true_iff, EvalResult.sameBy_eq_true_iff]
  rfl

theorem agree_structural (j : Judge) (depth : Nat) :
    Structural fun v w => j.agree depth v w = .ok true :=
  Value.agreeBy_structural

theorem agree_closure_iff {env env' : Env} {ps qs : List String} {b c : Expr} :
    j.agree depth (.closure env ps b) (.closure env' qs c) = .ok true ↔
      ps.length = qs.length ∧
        j.sameCalls depth ps.length (.closure env ps b) (.closure env' qs c) = .ok true := by
  rw [agree, Value.agreeBy]
  split
  · rename_i hlen
    rw [and_iff_right hlen]
  · rename_i hlen
    exact ⟨fun h => (by cases h), fun h => absurd h.1 hlen⟩

private theorem sameNames_of_sameKey {S : Value → Value → Prop} {env env' : Env}
    (h : List.Forall₂ (SameKey S) env env') : env.sameNames env' = true := by
  refine decide_eq_true ?_
  induction h with
  | nil => rfl
  | cons hpq _ ih => exact congrArg₂ List.cons hpq.key_eq ih

private theorem agreeBindings_iff {env env' : Env} (hnames : env.names = env'.names) :
    j.agreeBindings depth env env' = .ok true ↔
      List.Forall₂ (SameKey fun v w => j.agree depth v w = .ok true) env env' := by
  induction env generalizing env' with
  | nil =>
    rw [List.map_eq_nil_iff.mp hnames.symm]
    exact ⟨fun _ => .nil, fun _ => rfl⟩
  | cons p env ih =>
    obtain ⟨q, env', rfl, hname, hrest⟩ := List.map_eq_cons_iff.mp hnames.symm
    rw [agreeBindings, andM_eq_true_iff, ih hrest.symm, List.forall₂_cons, SameKey.iff, hname,
      eq_self, true_and]

theorem agreeEnv_iff {env env' : Env} :
    j.agreeEnv depth env env' = .ok true ↔
      List.Forall₂ (SameKey fun v w => j.agree depth v w = .ok true) env env' := by
  rw [agreeEnv]
  split
  · rename_i hnames
    exact agreeBindings_iff (of_decide_eq_true hnames)
  · rename_i hnames
    exact ⟨fun h => (by cases h), fun h => absurd (sameNames_of_sameKey h) hnames⟩

theorem agreeEnv_accepts {E : EvalError → Prop} {env env' : Env}
    (h : List.Forall₂ (SameKey fun v w => Accepts E (j.agree depth v w)) env env') :
    Accepts E (j.agreeEnv depth env env') := by
  have hnames : env.sameNames env' = true := sameNames_of_sameKey h
  rw [agreeEnv, if_pos hnames]
  clear hnames
  induction h with
  | nil => exact .ok rfl
  | cons hpq _ ih => exact (SameKey.iff.mp hpq).2.andM ih

theorem agreeOutcome_iff {x y : Outcome} :
    j.agreeOutcome depth x y = .ok true ↔
      Together NoUnderflow
        (fun r r' => j.agree depth r.1 r'.1 = .ok true ∧ j.agreeEnv depth r.2 r'.2 = .ok true)
        x y := by
  simp only [agreeOutcome, EvalResult.sameBy_eq_true_iff, andM_eq_true_iff]

private theorem divergence?_eq_none_iff {before after : Expr} {env : Env} {fuel : Nat} :
    j.divergence? before after env fuel = .ok none ↔
      j.agreeOutcome j.budget.depth.toNat (before.eval fuel env) (after.eval fuel env) =
        .ok true := by
  rw [divergence?, bind_eq_ok_iff]
  constructor
  · rintro ⟨b, hb, hnone⟩
    cases b with
    | true => exact hb
    | false => cases hnone
  · exact fun h => ⟨true, h, rfl⟩

theorem equivalent_iff {before after : Expr} :
    j.equivalent before after = .ok true ↔
      (before.isInterpretable = true → after.isInterpretable = true ∧
        ∀ env ∈ j.environmentsFor before after, ∀ fuel ∈ j.fuels,
          j.agreeOutcome j.budget.depth.toNat (before.eval fuel env) (after.eval fuel env) =
            .ok true) := by
  have hnone : j.equivalent before after = .ok true ↔ j.discrepancy? before after = .ok none := by
    rw [equivalent, bind_eq_ok_iff]
    constructor
    · rintro ⟨r, hr, hnone⟩
      rw [hr, Option.isNone_iff_eq_none.mp (Except.ok.inj hnone)]
    · exact fun h => ⟨none, h, rfl⟩
  rw [hnone, discrepancy?]
  cases before.isInterpretable with
  | false => exact ⟨fun _ h => (by cases h), fun _ => rfl⟩
  | true =>
    cases after.isInterpretable with
    | false => exact ⟨fun h => (by cases h), fun h => (by cases (h rfl).1)⟩
    | true =>
      simp only [Bool.not_true, Bool.false_eq_true, if_false, findSomeM?_eq_none_iff,
        divergence?_eq_none_iff, true_and, forall_const]

theorem equivalent_accepts {E : EvalError → Prop} {before after : Expr}
    (h : before.isInterpretable = true → after.isInterpretable = true ∧
      ∀ env ∈ j.environmentsFor before after, ∀ fuel ∈ j.fuels,
        Accepts E
          (j.agreeOutcome j.budget.depth.toNat (before.eval fuel env) (after.eval fuel env))) :
    Accepts E (j.equivalent before after) := by
  have hnone : EndsIn E (· = none) (j.discrepancy? before after) := by
    rw [discrepancy?]
    split
    · exact .ok rfl
    · rename_i hbefore
      obtain ⟨hafter, hrun⟩ := h (by simpa using hbefore)
      rw [hafter]
      refine .findSomeM? rfl fun env henv => .findSomeM? rfl fun fuel hfuel => ?_
      refine (hrun env henv fuel hfuel).bind fun b hb => ?_
      rw [hb]
      exact .ok rfl
  refine hnone.bind fun r hr => ?_
  rw [hr]
  exact .ok rfl

end Judge

end CheckedPass
