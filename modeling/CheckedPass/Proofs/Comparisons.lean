import CheckedPass.Proofs.Agreement
import CheckedPass.Proofs.Samples
/-!
# What a judge compares

A comparison leads from two values to the values in the same places of sequences and maps, and from
two functions to what calls of them yield. It ends without an answer only where one of these calls
underflows, and so does the comparison of two expressions where one of their evaluations does or a
call of a function that comes out of them. What evaluations and calls keep therefore holds of all
that is ever compared.
-/

namespace CheckedPass

namespace Judge

/-- The pairs of values that the comparison of `v` with `w` at a depth leads to, and at which
depths: what stands in the same places of sequences and maps, and at a smaller depth what calls of
two functions yield. Where the comparison could have ended early the remaining pairs count too. -/
inductive Reaches (j : Judge) (depth : Nat) (v w : Value) : Nat → Value → Value → Prop where
  | start : Reaches j depth v w depth v w
  | elem {d : Nat} {xs ys : List Value} {x y : Value}
    (h : Reaches j depth v w d (.seq xs) (.seq ys)) (hxy : (x, y) ∈ xs.zip ys) :
    Reaches j depth v w d x y
  | entry {d : Nat} {xs ys : List (Value × Value)} {k x y : Value}
    (h : Reaches j depth v w d (.map xs) (.map ys)) (hx : (k, x) ∈ xs) (hy : (k, y) ∈ ys) :
    Reaches j depth v w d x y
  | result {d fuel : Nat} {env env' : Env} {ps qs : List String} {b c : Expr}
    {args : List Value} {x y : Value}
    (h : Reaches j depth v w (d + 1) (.closure env ps b) (.closure env' qs c))
    (hargs : args ∈ tuples (j.pool (d + 1)) ps.length j.budget.maxTuples.toNat)
    (hfuel : fuel ∈ j.fuels) (hx : (Value.closure env ps b).call fuel args = .ok x)
    (hy : (Value.closure env' qs c).call fuel args = .ok y) : Reaches j depth v w d x y

/-- The pairs of values that a judge compares in search of a discrepancy: what evaluations yield,
what the names stand for afterwards, and what the comparison of these leads to. -/
inductive Compares (j : Judge) (before after : Expr) : Nat → Value → Value → Prop where
  | value {env envV envW : Env} {fuel d : Nat} {v w x y : Value}
    (henv : env ∈ j.environmentsFor before after) (hfuel : fuel ∈ j.fuels)
    (hv : before.eval fuel env = .ok (v, envV)) (hw : after.eval fuel env = .ok (w, envW))
    (h : j.Reaches j.budget.depth.toNat v w d x y) : Compares j before after d x y
  | bound {env envV envW : Env} {fuel d : Nat} {name : String} {v w v' w' x y : Value}
    (henv : env ∈ j.environmentsFor before after) (hfuel : fuel ∈ j.fuels)
    (hv : before.eval fuel env = .ok (v, envV)) (hw : after.eval fuel env = .ok (w, envW))
    (hv' : (name, v') ∈ envV) (hw' : (name, w') ∈ envW)
    (h : j.Reaches j.budget.depth.toNat v' w' d x y) : Compares j before after d x y

/-- One of two functions that are compared at a depth underflows, with that error, when both are
called on sampled arguments. -/
inductive Underflows (j : Judge) (R : Nat → Value → Value → Prop) (error : EvalError) : Prop where
  | call {d fuel : Nat} {env env' : Env} {ps qs : List String} {b c : Expr} {args : List Value}
    (h : R (d + 1) (.closure env ps b) (.closure env' qs c)) (hlen : ps.length = qs.length)
    (hargs : args ∈ tuples (j.pool (d + 1)) ps.length j.budget.maxTuples.toNat)
    (hfuel : fuel ∈ j.fuels) (herror : error.isUnderflow = true)
    (hcall : (Value.closure env ps b).call fuel args = .error error ∨
      (Value.closure env' qs c).call fuel args = .error error) : Underflows j R error

theorem Underflows.mono {j : Judge} {R R' : Nat → Value → Value → Prop} {error : EvalError}
    (h : j.Underflows R error) (hR : ∀ d x y, R d x y → R' d x y) : j.Underflows R' error := by
  cases h with
  | call h hlen hargs hfuel herror hcall => exact .call (hR _ _ _ h) hlen hargs hfuel herror hcall

variable {j : Judge} {depth : Nat}

private theorem agree_endsIn_of_reaches {v w x y : Value} {d : Nat}
    (h : j.Reaches depth v w d x y) :
    EndsIn (j.Underflows (j.Reaches depth v w)) (fun _ => True) (j.agree d x y) := by
  -- By induction on the depth that is reached: what calls yield is compared at a smaller one.
  induction d generalizing x y with
  | zero =>
    exact Value.agreeBy_endsIn (fun _ _ h _ _ => h.elem) (fun _ _ h _ _ _ => h.entry)
      (fun _ _ _ _ _ _ _ _ => .ok trivial) h
  | succ d ih =>
    refine Value.agreeBy_endsIn (fun _ _ h _ _ => h.elem) (fun _ _ h _ _ _ => h.entry) ?_ h
    intro env ps b env' qs c hfg hlen
    refine .allM trivial fun args hargs => .allM trivial fun fuel hfuel => ?_
    refine EvalResult.sameBy_endsIn trivial (.inl trivial) ?_ ?_ ?_
    · exact fun error hx herror => .call hfg hlen hargs hfuel herror (.inl hx)
    · exact fun error hy herror => .call hfg hlen hargs hfuel herror (.inr hy)
    · exact fun x y hx hy => ih (hfg.result hargs hfuel hx hy)

/-- A comparison of values ends without an answer only where a call that it leads to underflows. -/
theorem agree_endsIn (j : Judge) (depth : Nat) (v w : Value) :
    EndsIn (j.Underflows (j.Reaches depth v w)) (fun _ => True) (j.agree depth v w) :=
  agree_endsIn_of_reaches .start

private theorem agreeBindings_endsIn {E : EvalError → Prop} {env env' : Env}
    (hnames : env.names = env'.names)
    (h : ∀ name v w, (name, v) ∈ env → (name, w) ∈ env' →
      EndsIn E (fun _ => True) (j.agree depth v w)) :
    EndsIn E (fun _ => True) (j.agreeBindings depth env env') := by
  induction env generalizing env' with
  | nil => exact .ok trivial
  | cons p env ih =>
    obtain ⟨q, env', rfl, hname, hrest⟩ := List.map_eq_cons_iff.mp hnames.symm
    have hfirst := h p.1 p.2 q.2 List.mem_cons_self (hname ▸ List.mem_cons_self)
    refine hfirst.andM (ih hrest.symm fun name v w hv hw => h name v w ?_ ?_)
    · exact List.mem_cons_of_mem _ hv
    · exact List.mem_cons_of_mem _ hw

theorem agreeEnv_endsIn {E : EvalError → Prop} {env env' : Env}
    (h : ∀ name v w, (name, v) ∈ env → (name, w) ∈ env' →
      EndsIn E (fun _ => True) (j.agree depth v w)) :
    EndsIn E (fun _ => True) (j.agreeEnv depth env env') := by
  rw [agreeEnv]
  split
  · rename_i hnames
    exact agreeBindings_endsIn (of_decide_eq_true hnames) h
  · exact .ok trivial

/-- The comparison of expressions ends without an answer only where one of their evaluations
underflows, or a call that the comparison of their outcomes leads to. -/
theorem equivalent_endsIn (j : Judge) (before after : Expr) :
    EndsIn (fun error => j.Underflows (j.Compares before after) error ∨
        error.isUnderflow = true ∧ ∃ env ∈ j.environmentsFor before after, ∃ fuel ∈ j.fuels,
          before.eval fuel env = .error error ∨ after.eval fuel env = .error error)
      (fun _ => True) (j.equivalent before after) := by
  refine EndsIn.bind (P := fun _ => True) ?_ fun _ _ => .ok trivial
  rw [discrepancy?]
  split
  · exact .ok trivial
  · split
    · exact .ok trivial
    · refine .findSomeM? trivial fun env henv => .findSomeM? trivial fun fuel hfuel => ?_
      refine EndsIn.bind (P := fun _ => True) ?_ fun b _ => ?_
      · refine EvalResult.sameBy_endsIn trivial (.inl trivial) ?_ ?_ ?_
        · exact fun error hx herror => .inr ⟨herror, env, henv, fuel, hfuel, .inl hx⟩
        · exact fun error hy herror => .inr ⟨herror, env, henv, fuel, hfuel, .inr hy⟩
        · rintro ⟨v, envV⟩ ⟨w, envW⟩ hv hw
          refine ((j.agree_endsIn _ v w).mono_error fun error h => ?_).andM
            (agreeEnv_endsIn fun name v' w' hv' hw' =>
              (j.agree_endsIn _ v' w').mono_error fun error h => ?_)
          · exact .inl (h.mono fun _ _ _ => .value henv hfuel hv hw)
          · exact .inl (h.mono fun _ _ _ => .bound henv hfuel hv hw hv' hw')
      · cases b with
        | true => exact .ok trivial
        | false => exact .ok trivial

end Judge

/-- Holds of all that is inside a value it holds of, and of what a call yields if it holds of the
function and of the arguments. -/
structure KeptByCalls (P : Value → Prop) : Prop where
  parts : ∀ {v}, P v → ∀ u ∈ v.parts, P u
  call : ∀ {f args}, P f → (∀ v ∈ args, P v) → ∀ fuel, Ensures P (f.call fuel args)

namespace KeptByCalls

variable {P : Value → Prop} {j : Judge} {before after : Expr} {v w x y : Value} {depth d : Nat}

theorem of_mem_tuples (hprobes : ∀ p ∈ j.probes, P p) {arity limit : Nat} {args : List Value}
    (hargs : args ∈ tuples (j.pool depth) arity limit) : ∀ v ∈ args, P v :=
  fun v hv => hprobes v (List.mem_of_mem_filter ((CheckedPass.of_mem_tuples hargs).2 v hv))

theorem of_reaches (hP : KeptByCalls P) (hprobes : ∀ p ∈ j.probes, P p) (hv : P v) (hw : P w)
    (h : j.Reaches depth v w d x y) : P x ∧ P y := by
  -- By induction on how the pair is reached: from values it goes to their parts, and from functions
  -- to what calls of them yield.
  induction h with
  | start => exact ⟨hv, hw⟩
  | elem _ hxy ih =>
    obtain ⟨hx, hy⟩ := List.of_mem_zip hxy
    exact ⟨hP.parts ih.1 _ hx, hP.parts ih.2 _ hy⟩
  | entry _ hx hy ih =>
    exact ⟨hP.parts ih.1 _ (Value.mem_parts_map hx), hP.parts ih.2 _ (Value.mem_parts_map hy)⟩
  | result _ hargs _ hx hy ih =>
    have hall := of_mem_tuples hprobes hargs
    exact ⟨hP.call ih.1 hall _ _ hx, hP.call ih.2 hall _ _ hy⟩

theorem of_compares (hP : KeptByCalls P) (hprobes : ∀ p ∈ j.probes, P p)
    (hrun : ∀ env ∈ j.environmentsFor before after, ∀ fuel, ∀ e ∈ [before, after],
      Ensures (fun r => P r.1 ∧ ∀ p ∈ r.2, P p.2) (e.eval fuel env))
    (h : j.Compares before after d x y) : P x ∧ P y := by
  cases h with
  | value henv _ hv hw h =>
    have hbefore := hrun _ henv _ before (by simp) _ hv
    have hafter := hrun _ henv _ after (by simp) _ hw
    exact hP.of_reaches hprobes hbefore.1 hafter.1 h
  | bound henv _ hv hw hv' hw' h =>
    have hbefore := hrun _ henv _ before (by simp) _ hv
    have hafter := hrun _ henv _ after (by simp) _ hw
    exact hP.of_reaches hprobes (hbefore.2 _ hv') (hafter.2 _ hw') h

end KeptByCalls

end CheckedPass
