import CheckedPass.Eval.Evaluator
import CheckedPass.Proofs.Together
import CheckedPass.Proofs.Tree
/-!
# Scoping

Evaluation hands back the environment it was given: whatever an expression binds, it binds for its
own parts only.
-/

namespace CheckedPass.Expr

variable {call : Value → List Value → EvalResult Value}

/-- Evaluation of `e` hands back its environment. -/
def HandsBack (call : Value → List Value → EvalResult Value) (e : Expr) : Prop :=
  ∀ env, Ensures (fun r => r.2 = env) (e.evalWith call env)

private theorem handsBack_list {es : List Expr} (hes : ∀ e ∈ es, HandsBack call e) (env : Env) :
    Ensures (fun r => r.2 = env) (evalListWith call es env) := by
  induction es with
  | nil => exact .ok rfl
  | cons e es ih =>
    refine .bind (hes e List.mem_cons_self env) ?_
    rintro ⟨v, _⟩ rfl
    refine .bind (ih fun c hc => hes c (List.mem_cons_of_mem _ hc)) ?_
    rintro ⟨vs, _⟩ rfl
    exact .ok rfl

private theorem handsBack_connective (op : Connective) {lhs rhs : Expr} (hl : HandsBack call lhs)
    (hr : HandsBack call rhs) : HandsBack call (lazily op lhs rhs) := by
  intro env
  rw [lazily, evalWith]
  refine .bind (hl env) ?_
  rintro ⟨v, _⟩ rfl
  refine .bind_any fun b => ?_
  split
  · exact .ok rfl
  · refine .bind (hr _) ?_
    rintro ⟨w, _⟩ rfl
    exact .bind_any fun c => .ok rfl

theorem handsBack (e : Expr) : HandsBack call e := by
  induction e using children_induction with
  | step e ih =>
    intro env
    cases e with
    | var x => exact .bind_any fun v => .ok rfl
    | lit a => exact .bind_any fun v => .ok rfl
    | fn ps b => exact .ok rfl
    | app op args =>
      cases op with
      | lazy op =>
        match args with
        | [] | [_] | _ :: _ :: _ :: _ => exact .error _
        | [lhs, rhs] =>
          have hlhs := ih lhs (by simp [children])
          have hrhs := ih rhs (by simp [children])
          exact handsBack_connective op hlhs hrhs env
      | eager op =>
        rw [evalWith]
        split
        · refine .bind (handsBack_list ih env) ?_
          rintro ⟨vs, _⟩ rfl
          exact .bind_any fun v => .ok rfl
        · exact .error _
    | block items =>
      refine .bind (handsBack_list ih env) ?_
      rintro ⟨vs, _⟩ rfl
      exact .ok rfl
    | cond test yes no =>
      rw [evalWith]
      refine .bind (ih test (by simp [children]) env) ?_
      rintro ⟨t, _⟩ rfl
      refine .bind_any fun b => ?_
      split
      · exact ih yes (by simp [children]) _
      · exact ih no (by simp [children]) _
    | bind vars vals body =>
      rw [evalWith]
      split
      · refine .bind (handsBack_list (fun c hc => ih c (by simp [children, hc])) env) ?_
        rintro ⟨vs, _⟩ rfl
        exact .bind_any fun r => .ok rfl
      · exact .error _

end CheckedPass.Expr
