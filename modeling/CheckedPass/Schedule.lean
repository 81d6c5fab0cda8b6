import CheckedPass.Pass.Contract
import CheckedPass.Pass.Negation
/-!
# Schedules

A schedule sends programs through a list of passes, if wanted with the contract of each pass
checked on the program it is about to see, and evaluates programs.
-/

namespace CheckedPass

structure Settings where
  /-- Fuel of every evaluation. -/
  fuel : UInt64
  budget : Budget
  checkContracts : Bool
  deriving DecidableEq, Repr

def Settings.standard : Settings where
  fuel := 64
  budget := .standard
  checkContracts := false

structure Schedule where
  settings : Settings
  passes : List Pass

/-- Why a schedule has no result. -/
inductive Failure where
  | breach (b : Breach)
  | contract (v : Violation)
  | eval (e : EvalError)
  deriving DecidableEq

def Failure.message : Failure → String
  | .breach b => b.message
  | .contract v => "contract violation: " ++ v.message
  | .eval e => "evaluation failed: " ++ e.message

namespace Schedule

/-- The schedule that eliminates negated operators. -/
def ofSettings (settings : Settings) : Schedule where
  settings := settings
  passes := [.eliminateNegated]

def judge (s : Schedule) : Judge :=
  .ofBudget s.settings.budget

/-- Sends a program through the passes. -/
def transform (s : Schedule) (program : Program) : Except Failure Transformed :=
  if s.settings.checkContracts then
    match Pass.transformChecked (fun (_ : Unit) p body => ((), p.checkAll s.judge body)) s.passes ()
        program with
    | (_, .ok t) => .ok t
    | (_, .error (.breach b)) => .error (.breach b)
    | (_, .error (.refused (.violation v))) => .error (.contract v)
    | (_, .error (.refused (.ended e))) => .error (.eval e)
  else
    match Pass.transform s.passes program with
    | .ok t => .ok t
    | .error b => .error (.breach b)

def eval (s : Schedule) (program : Program) (env : Env) : Except Failure (Value × Env) :=
  match program.body.eval s.settings.fuel.toNat env with
  | .ok r => .ok r
  | .error e => .error (.eval e)

/-- Sends a program through the passes and evaluates what comes out. -/
def run (s : Schedule) (program : Program) (env : Env) : Except Failure (Transformed × Value) := do
  let t ← s.transform program
  let (v, _) ← s.eval t.program env
  return (t, v)

end Schedule

end CheckedPass
