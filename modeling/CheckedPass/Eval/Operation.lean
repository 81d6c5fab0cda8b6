import CheckedPass.Eval.Display
import CheckedPass.Eval.Map
import CheckedPass.Eval.Scalar
import CheckedPass.Eval.Seq
import CheckedPass.Eval.Set
/-!
# Operators on values

What each operator makes of evaluated operands.
-/

namespace CheckedPass

def UnaryOp.apply (op : UnaryOp) (v : Value) : EvalResult Value :=
  let site : Operator := .eager (.unary op)
  match op with
  | .not => do return .bool (!(← v.asBool (.operator site)))
  | .bitNot =>
    match v with
    | .bitVector width a => .ok (.bitVector width ((modulus width - 1) ^^^ a))
    | _ => .error (.unexpected site (.kind .bitVector) v)
  | .seqLength => do return .int (← v.asSeq site).length
  | .setCard => do return .int (← v.asSet site).length
  | .multisetCard => do return .int (Value.total (← v.asMultiset site))
  | .mapCard => do return .int (← v.asMap site).length

/-- Both operands are truth values, and they agree. -/
def BinaryOp.iffValue (v w : Value) : EvalResult Value := do
  let site : Site := .operator (.eager (.binary .iff))
  let a ← v.asBool site
  let b ← w.asBool site
  return .bool (a = b)

def EqualityOp.apply (op : EqualityOp) (v w : Value) : EvalResult Value :=
  let site : Operator := .eager (.binary (.equality op))
  match op with
  | .eq => do return .bool (← v.equals site w)
  | .neq => do return .bool (!(← v.equals site w))

def BinaryOp.apply (op : BinaryOp) (v w : Value) : EvalResult Value :=
  match op with
  | .numeric op => op.apply v w
  | .iff => iffValue v w
  | .equality op => op.apply v w
  | .bits op => op.apply v w
  | .set op => op.apply v w
  | .multiset op => op.apply v w
  | .seq op => op.apply v w
  | .map op => op.apply v w

def TernaryOp.apply (op : TernaryOp) (v w x : Value) : EvalResult Value :=
  match op with
  | .seqUpdate => updateSeq v w x
  | .seqSubseq => subseq v w x
  | .multisetUpdate => updateMultiset v w x
  | .mapUpdate => updateMap v w x

/-- An operator on as many operands as it takes; `call` applies a function value. -/
def EagerOp.applyWith (call : Value → List Value → EvalResult Value) (op : EagerOp)
    (operands : List Value) : EvalResult Value :=
  match op, operands with
  | .unary op, [v] => op.apply v
  | .binary op, [v, w] => op.apply v w
  | .ternary op, [v, w, x] => op.apply v w x
  | .display kind, elems => kind.build elems
  | .call, callee :: args => call callee args
  | op, operands => .error (.arityMismatch op.arity.least operands.length)

/-- The result if the first operand of a connective already decides it. -/
def Connective.decided : Connective → Bool → Option Bool
  | .and, false => some false
  | .or, true => some true
  | .imp, false => some true
  | _, _ => none

end CheckedPass
