import CheckedPass.Equivalence.Samples
import CheckedPass.Eval.Evaluator
import CheckedPass.Expr.FreeVars
import CheckedPass.Expr.Visit
/-!
# Judging equivalence

Two functions are equivalent when they yield equivalent results on all arguments. A judge makes
this executable: it compares results on sampled arguments and fuels only, and it compares the
functions inside results at a smaller depth; at depth zero any two functions of one arity pass.
Failures are all alike, but for underflow: no comparison goes on after that.
-/

namespace CheckedPass

/-- How much a judge samples. -/
structure Budget where
  /-- The depth at which values are compared. -/
  depth : UInt64
  /-- Every fuel up to this one is tried. -/
  maxFuel : UInt64
  /-- The most argument lists per pair of functions, and environments per pair of expressions. -/
  maxTuples : UInt64
  deriving DecidableEq, Repr

def Budget.standard : Budget where
  depth := 3
  maxFuel := 3
  maxTuples := 64

structure Judge where
  budget : Budget
  probes : List Value
  /-- The environments to evaluate in; sampled ones unless given. -/
  envs : Option (List Env)

/-- A judge with the standard probes and sampled environments. -/
def Judge.ofBudget (budget : Budget) : Judge where
  budget := budget
  probes := standardProbes
  envs := none

/-- What a comparison makes of a run: a failure is like any other one, but an underflow ends the
comparison as well. -/
def EvalResult.settled {α : Type} : EvalResult α → EvalResult (Option α)
  | .ok a => .ok (some a)
  | .error e => if e.isUnderflow then .error e else .ok none

/-- Whether both runs fail, or yield what `same` finds to be the same. -/
def EvalResult.sameBy {α : Type} (same : α → α → EvalResult Bool) (x y : EvalResult α) :
    EvalResult Bool := do
  match ← x.settled, ← y.settled with
  | some a, some b => same a b
  | none, none => return true
  | _, _ => return false

mutual

/-- Whether two values agree, given when two functions of one arity do. -/
def Value.agreeBy (sameCalls : Nat → Value → Value → EvalResult Bool) :
    Value → Value → EvalResult Bool
  | .seq xs, .seq ys =>
    if xs.length = ys.length then Value.agreeListBy sameCalls xs ys else return false
  | .map xs, .map ys =>
    if xs.length = ys.length then Value.agreeEntriesBy sameCalls xs ys else return false
  | .closure env ps b, .closure env' qs c =>
    if ps.length = qs.length then
      sameCalls ps.length (.closure env ps b) (.closure env' qs c)
    else return false
  | v, w => return v = w

def Value.agreeListBy (sameCalls : Nat → Value → Value → EvalResult Bool) :
    List Value → List Value → EvalResult Bool
  | v :: vs, w :: ws => Value.agreeBy sameCalls v w <&&> Value.agreeListBy sameCalls vs ws
  | _, _ => return true

/-- Each key is looked up in turn. Both sides ascend, so it stands behind those found before it. -/
def Value.agreeEntriesBy (sameCalls : Nat → Value → Value → EvalResult Bool) :
    List (Value × Value) → List (Value × Value) → EvalResult Bool
  | [], _ => return true
  | (k, v) :: vs, ws =>
    match ws.dropWhile fun p => p.1 ≠ k with
    | [] => return false
    | (_, w) :: rest => Value.agreeBy sameCalls v w <&&> Value.agreeEntriesBy sameCalls vs rest

end

namespace Judge

/-- The probes of complexity below `depth`. -/
def pool (j : Judge) (depth : Nat) : List Value :=
  j.probes.filter fun p => p.complexity < depth

/-- The fuels to try. -/
def fuels (j : Judge) : List Nat :=
  List.range (j.budget.maxFuel.toNat + 1)

/-- Whether calls of two functions of that arity fail together, or yield results that agree at a
smaller depth. -/
def sameCalls (j : Judge) : Nat → Nat → Value → Value → EvalResult Bool
  | 0, _, _, _ => return true
  | depth + 1, arity, f, g =>
    (tuples (j.pool (depth + 1)) arity j.budget.maxTuples.toNat).allM fun args =>
      j.fuels.allM fun fuel =>
        EvalResult.sameBy (Value.agreeBy (sameCalls j depth)) (f.call fuel args) (g.call fuel args)

def agree (j : Judge) (depth : Nat) (v w : Value) : EvalResult Bool :=
  v.agreeBy (j.sameCalls depth) w

/-- Bindings one by one, of the same names on both sides. -/
def agreeBindings (j : Judge) (depth : Nat) : Env → Env → EvalResult Bool
  | (_, v) :: env, (_, w) :: env' => j.agree depth v w <&&> agreeBindings j depth env env'
  | _, _ => return true

/-- The same names, bound to values that agree. -/
def agreeEnv (j : Judge) (depth : Nat) (env env' : Env) : EvalResult Bool :=
  if env.sameNames env' then j.agreeBindings depth env env' else return false

/-- Both fail, or values and environments agree. -/
def agreeOutcome (j : Judge) (depth : Nat) (x y : Outcome) : EvalResult Bool :=
  EvalResult.sameBy
    (fun (v, env) (w, env') => j.agree depth v w <&&> j.agreeEnv depth env env') x y

/-- Agreement at the depth of the budget. -/
def equivalentValues (j : Judge) (v w : Value) : EvalResult Bool :=
  j.agree j.budget.depth.toNat v w

/-- The environments in which a pair of expressions is evaluated. -/
def environmentsFor (j : Judge) (before after : Expr) : List Env :=
  match j.envs with
  | some envs => envs
  | none =>
    environments (Ascending.union before.freeVars after.freeVars)
      (j.pool j.budget.depth.toNat) j.budget.maxTuples.toNat

end Judge

/-- Why two expressions are not equivalent. -/
inductive Discrepancy where
  | notInterpretable
  | diverged (fuel : Nat) (env : Env) (left right : Outcome)

namespace Discrepancy

def outcomeText : Outcome → String
  | .ok (v, _) => v.text
  | .error e => "error (" ++ e.message ++ ")"

def bindingText (p : String × Value) : String :=
  p.1 ++ " = " ++ p.2.text

def message : Discrepancy → String
  | .notInterpretable => "rewritten expression is not interpretable"
  | .diverged fuel env left right =>
    "outcomes diverge at fuel " ++ toString fuel ++ " in \x7b"
      ++ Text.join ", " (env.map bindingText) ++ "\x7d: " ++ outcomeText left ++ " vs "
      ++ outcomeText right

end Discrepancy

namespace Judge

/-- The divergence at one environment and fuel, if there is one. -/
def divergence? (j : Judge) (before after : Expr) (env : Env) (fuel : Nat) :
    EvalResult (Option Discrepancy) := do
  let left := before.eval fuel env
  let right := after.eval fuel env
  if ← j.agreeOutcome j.budget.depth.toNat left right then return none
  else return some (.diverged fuel env left right)

/-- The first discrepancy that sampling finds. Anything may stand for an expression that is not
interpretable, but nothing that is not interpretable for one that is. -/
def discrepancy? (j : Judge) (before after : Expr) : EvalResult (Option Discrepancy) :=
  if !before.isInterpretable then return none
  else if !after.isInterpretable then return some .notInterpretable
  else
    (j.environmentsFor before after).findSomeM? fun env =>
      j.fuels.findSomeM? fun fuel => j.divergence? before after env fuel

/-- Whether sampling finds no discrepancy. -/
def equivalent (j : Judge) (before after : Expr) : EvalResult Bool := do
  return (← j.discrepancy? before after).isNone

end Judge

end CheckedPass
