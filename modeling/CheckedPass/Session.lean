import CheckedPass.Schedule
/-!
# Sessions

A session keeps an environment to which definitions are added, under one set of settings.
-/

namespace CheckedPass

structure Session where
  env : Env
  settings : Settings

namespace Session

def fuel (s : Session) : Nat :=
  s.settings.fuel.toNat

def eval (s : Session) (e : Expr) : EvalResult Value := do
  let (v, _) ← e.eval s.fuel s.env
  return v

/-- Binds a name to the value of an expression. -/
def define (s : Session) (name : String) (e : Expr) : EvalResult (Value × Session) := do
  let v ← s.eval e
  return (v, ⟨s.env.bind name v, s.settings⟩)

/-- Applies what a name stands for. -/
def call (s : Session) (name : String) (args : List Value) : EvalResult Value := do
  let callee ← s.env.lookup name
  callee.call s.fuel args

/-- Sends an expression through the standard schedule and evaluates what comes out. -/
def run (s : Session) (e : Expr) : Except Failure (Transformed × Value) :=
  (Schedule.ofSettings s.settings).run ⟨e⟩ s.env

/-- Whether two names stand for values that are equivalent, and whether these are equal. -/
def compare (s : Session) (left right : String) : EvalResult (Bool × Bool) := do
  let v ← s.env.lookup left
  let w ← s.env.lookup right
  let equivalent ← (Judge.ofBudget s.settings.budget).equivalentValues v w
  return (equivalent, v = w)

end Session

end CheckedPass
