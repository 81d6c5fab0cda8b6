import CheckedPass.Eval.Operand
/-!
# Operators on scalars

Comparison and arithmetic of numbers, bit-vectors and characters, and bitwise operators. Both
operands have one kind, and bit-vectors one width.
-/

namespace CheckedPass

namespace Value

/-- The kinds that can be put in order by the comparison operators. -/
def isNumber : Value → Bool
  | .int _ | .real _ | .char _ | .ordinal _ | .bitVector _ _ => true
  | _ => false

/-- The refusal of operands that do not match: a first operand that is a number wants a second of
its kind, any other first operand is refused itself. -/
def mismatched (op : Operator) (v w : Value) : EvalError :=
  if v.isNumber then .unexpected op (.kind v.kind) w else .unexpected op .number v

/-- The order of two numbers of one kind, and of two bit-vectors of one width. -/
def compareNumeric (op : Operator) (v w : Value) : EvalResult Ordering :=
  match v, w with
  | .int a, .int b => .ok (compare a b)
  | .real a, .real b => .ok (compareNumbers a b)
  | .char a, .char b => .ok (compare a b)
  | .ordinal a, .ordinal b => .ok (compare a b)
  | .bitVector m a, .bitVector n b =>
    if m = n then .ok (compare a b) else .error (mismatched op v w)
  | _, _ => .error (mismatched op v w)

/-- The character with that code point. -/
def charOfCode (op : Operator) (code : Nat) : EvalResult Value :=
  if code.isValidChar then .ok (.char (Char.ofNat code)) else .error (.invalid op .notACharacter)

end Value

namespace NumericOp

def operator (op : NumericOp) : Operator :=
  .eager (.binary (.numeric op))

/-- The remainder modulo the size of the divisor, rounding down. -/
def remainder (a b : Int) : Int :=
  a.fmod b.natAbs

/-- The quotient that goes with the remainder. Without the remainder `a` is a multiple of `b`, so
rounding towards zero loses nothing. -/
def quotient (a b : Int) : Int :=
  (a - remainder a b).tdiv b

/-- Integer arithmetic; division is Euclidean, so a remainder is never negative. -/
def onInts (op : NumericOp) (a b : Int) : EvalResult Value :=
  match op with
  | .add => .ok (.int (a + b))
  | .sub => .ok (.int (a - b))
  | .mul => .ok (.int (a * b))
  | .div =>
    if b = 0 then .error (.invalid op.operator .divisionByZero) else .ok (.int (quotient a b))
  | _ =>
    if b = 0 then .error (.invalid op.operator .divisionByZero) else .ok (.int (remainder a b))

/-- Exact arithmetic of rationals; there is no remainder. -/
def onReals (op : NumericOp) (a b : Rat) : EvalResult Value :=
  match op with
  | .add => .ok (.real (a + b))
  | .sub => .ok (.real (a - b))
  | .mul => .ok (.real (a * b))
  | .div => if b = 0 then .error (.invalid op.operator .divisionByZero) else .ok (.real (a / b))
  | _ => .error (.unexpected op.operator .intOrBitVector (.real a))

/-- Arithmetic modulo two to the width; division and remainder are those of the magnitudes. The
modulus is added before a magnitude is taken away. -/
def onBitVectors (op : NumericOp) (width : UInt32) (a b : Nat) : EvalResult Value :=
  match op with
  | .add => .ok (.bitVector width ((a + b) % modulus width))
  | .sub =>
    if b ≤ a + modulus width then .ok (.bitVector width ((a + modulus width - b) % modulus width))
    else .error (.invalid op.operator .underflow)
  | .mul => .ok (.bitVector width ((a * b) % modulus width))
  | .div =>
    if b = 0 then .error (.invalid op.operator .divisionByZero) else .ok (.bitVector width (a / b))
  | _ =>
    if b = 0 then .error (.invalid op.operator .divisionByZero) else .ok (.bitVector width (a % b))

/-- Sum and difference of code points, where they are code points again. -/
def onChars (op : NumericOp) (a b : Char) : EvalResult Value :=
  match op with
  | .add => Value.charOfCode op.operator (a.toNat + b.toNat)
  | .sub =>
    if b.toNat ≤ a.toNat then Value.charOfCode op.operator (a.toNat - b.toNat)
    else .error (.invalid op.operator .notACharacter)
  | _ => .error (.unexpected op.operator .intRealOrBitVector (.char a))

def arithmetic (op : NumericOp) (v w : Value) : EvalResult Value :=
  match v, w with
  | .int a, .int b => op.onInts a b
  | .real a, .real b => op.onReals a b
  | .bitVector m a, .bitVector n b =>
    if m = n then op.onBitVectors m a b else .error (Value.mismatched op.operator v w)
  | .char a, .char b => op.onChars a b
  | .ordinal a, .ordinal b =>
    if op = .add then .ok (.ordinal (a + b)) else .error (Value.mismatched op.operator v w)
  | _, _ => .error (Value.mismatched op.operator v w)

def apply (op : NumericOp) (v w : Value) : EvalResult Value :=
  match op with
  | .lt => do return .bool (← v.compareNumeric op.operator w).isLT
  | .le => do return .bool (← v.compareNumeric op.operator w).isLE
  | .ge => do return .bool (← v.compareNumeric op.operator w).isGE
  | .gt => do return .bool (← v.compareNumeric op.operator w).isGT
  | _ => op.arithmetic v w

end NumericOp

namespace BitOp

def operator (op : BitOp) : Operator :=
  .eager (.binary (.bits op))

/-- By how many places to shift: an integer, or the magnitude of a bit-vector of any width. -/
def shiftAmount (op : BitOp) (width : UInt32) (w : Value) : EvalResult Nat :=
  match w with
  | .bitVector _ n =>
    if n ≤ width.toNat then .ok n else .error (.invalid op.operator .shiftOutOfRange)
  | .int n =>
    if 0 ≤ n ∧ n ≤ width.toNat then .ok n.toNat
    else .error (.invalid op.operator .shiftOutOfRange)
  | _ => .error (.unexpected op.operator .bitVectorOrInt w)

/-- The magnitude of a second operand of the same width. -/
def magnitude (op : BitOp) (width : UInt32) (w : Value) : EvalResult Nat :=
  match w with
  | .bitVector n b =>
    if n = width then .ok b else .error (.unexpected op.operator (.kind .bitVector) w)
  | _ => .error (.unexpected op.operator (.kind .bitVector) w)

def apply (op : BitOp) (v w : Value) : EvalResult Value :=
  match v with
  | .bitVector width a =>
    match op with
    | .shl => do return .bitVector width ((a <<< (← op.shiftAmount width w)) % modulus width)
    | .shr => do return .bitVector width (a >>> (← op.shiftAmount width w))
    | .and => do return .bitVector width (a &&& (← op.magnitude width w))
    | .or => do return .bitVector width (a ||| (← op.magnitude width w))
    | .xor => do return .bitVector width (a ^^^ (← op.magnitude width w))
  | _ => .error (.unexpected op.operator (.kind .bitVector) v)

end BitOp

end CheckedPass
