import CheckedPass.Env
import CheckedPass.Eval.Operation
/-!
# The evaluator

An expression evaluates in an environment to a value and the environment that whatever comes next
sees. Calls of functions are paid for with fuel, one unit each, so evaluation always ends: the
evaluator follows the expression, given what a call yields, and calls follow the fuel.
-/

namespace CheckedPass

/-- The widest bit-vector that a literal may denote. -/
def maxLiteralWidth : Nat := 65536

/-- The value that a literal denotes. A fraction denotes its number, so a value keeps nothing of a
spelling that is not in lowest terms. -/
def Literal.value : Literal → EvalResult Value
  | .unit => .ok .unit
  | .bool b => .ok (.bool b)
  | .int n => .ok (.int n)
  | .real f => .ok (.real f.toRat)
  | .char c => .ok (.char c)
  | .ordinal n => .ok (.ordinal n)
  | .bitVector width magnitude =>
    if maxLiteralWidth < width.toNat then
      .error (.typeMismatch .literal (.bitVectorUpTo maxLiteralWidth) .oversizedWidth)
    else if modulus width ≤ magnitude then
      .error (.typeMismatch .literal .bitVectorWithinWidth .oversizedMagnitude)
    else .ok (.bitVector width magnitude)

/-- What a name stands for. -/
def Env.lookup (env : Env) (name : String) : EvalResult Value :=
  match env.get? name with
  | some v => .ok v
  | none => .error (.unbound name)

abbrev Outcome := EvalResult (Value × Env)

mutual

/-- Evaluates an expression, given what a call yields. -/
def Expr.evalWith (call : Value → List Value → EvalResult Value) : Expr → Env → Outcome
  | .var x, env => do
    let v ← env.lookup x
    return (v, env)
  | .lit a, env => do
    let v ← a.value
    return (v, env)
  | .fn params body, env => .ok (.closure env params body, env)
  | .app (.lazy op) [lhs, rhs], env => do
    let (first, env) ← Expr.evalWith call lhs env
    match op.decided (← first.asBool (.operator (.lazy op))) with
    | some b => return (.bool b, env)
    | none => do
      let (second, env) ← Expr.evalWith call rhs env
      let b ← second.asBool (.operator (.lazy op))
      return (.bool b, env)
  | .app (.lazy _) args, _ => .error (.arityMismatch 2 args.length)
  | .app (.eager op) args, env =>
    if op.arity.accepts args.length then do
      let (operands, env) ← Expr.evalListWith call args env
      let v ← op.applyWith call operands
      return (v, env)
    else .error (.arityMismatch op.arity.least args.length)
  | .block items, env => do
    let (values, env) ← Expr.evalListWith call items env
    return (values.getLastD .unit, env)
  | .cond test yes no, env => do
    let (t, env) ← Expr.evalWith call test env
    if ← t.asBool .condition then Expr.evalWith call yes env else Expr.evalWith call no env
  | .bind vars vals body, env =>
    if vars.length = vals.length then do
      let (values, env) ← Expr.evalListWith call vals env
      let (v, _) ← Expr.evalWith call body (env.extend (vars.zip values))
      return (v, env)
    else .error (.arityMismatch vars.length vals.length)

/-- Evaluates from the first to the last; the first failure ends it. -/
def Expr.evalListWith (call : Value → List Value → EvalResult Value) :
    List Expr → Env → EvalResult (List Value × Env)
  | [], env => .ok ([], env)
  | e :: es, env => do
    let (v, env) ← Expr.evalWith call e env
    let (vs, env) ← Expr.evalListWith call es env
    return (v :: vs, env)

end

/-- Applies a function value. The body runs in the captured environment extended by the
parameters, with one unit of fuel less. -/
def Value.call : Nat → Value → List Value → EvalResult Value
  | 0, _, _ => .error .outOfFuel
  | fuel + 1, .closure env params body, args =>
    if params.length = args.length then do
      let (v, _) ← body.evalWith (Value.call fuel) (Env.extend env (params.zip args))
      return v
    else .error (.arityMismatch params.length args.length)
  | _ + 1, callee, _ => .error (.unexpected (.eager .call) (.kind .closure) callee)

/-- Evaluates with that much fuel for calls. -/
def Expr.eval (e : Expr) (fuel : Nat) (env : Env) : Outcome :=
  e.evalWith (Value.call fuel) env

def Expr.evalList (es : List Expr) (fuel : Nat) (env : Env) : EvalResult (List Value × Env) :=
  Expr.evalListWith (Value.call fuel) es env

end CheckedPass
