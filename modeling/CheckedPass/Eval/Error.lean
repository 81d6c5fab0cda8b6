import CheckedPass.Value.Order
import CheckedPass.Value.Text
/-!
# Evaluation errors

Why an evaluation fails, as causes, and the wording of each cause in one place.
-/

namespace CheckedPass

/-- Where a value of the wrong kind was met. -/
inductive Site where
  | literal
  | condition
  | operator (op : Operator)
  deriving DecidableEq, Repr

/-- What was wanted there. -/
inductive Expectation where
  | kind (k : Kind)
  | number
  | comparable
  | intOrBitVector
  | intRealOrBitVector
  | bitVectorOrInt
  | bitVectorUpTo (bits : Nat)
  | bitVectorWithinWidth
  deriving DecidableEq, Repr

/-- What was found instead. -/
inductive Finding where
  | kind (k : Kind)
  | oversizedWidth
  | oversizedMagnitude
  deriving DecidableEq, Repr

/-- Why an operator has no result on operands of the right kinds. -/
inductive Fault where
  | divisionByZero
  /-- A magnitude would fall below zero, which well-formed operands rule out. -/
  | underflow
  | notACharacter
  | shiftOutOfRange
  | indexOutOfRange (index : Int) (length : Nat)
  | boundOutOfRange (bound : Int) (length : Nat)
  | emptyRange (lo hi : Nat)
  | missingKey (key : Value)
  | negativeMultiplicity
  | notAPair (length : Nat)
  deriving DecidableEq

inductive EvalError where
  | outOfFuel
  | unbound (name : String)
  | typeMismatch (site : Site) (expected : Expectation) (found : Finding)
  | arityMismatch (expected found : Nat)
  | duplicateKey (key : Value)
  | invalid (op : Operator) (fault : Fault)
  deriving DecidableEq

abbrev EvalResult (α : Type) := Except EvalError α

def Site.text : Site → String
  | .literal => "literal"
  | .condition => "if"
  | .operator op => op.mnemonic

def Expectation.text : Expectation → String
  | .kind k => k.text
  | .number => "number"
  | .comparable => "value with equality"
  | .intOrBitVector => "int or bitvector"
  | .intRealOrBitVector => "int, real or bitvector"
  | .bitVectorOrInt => "bitvector or int"
  | .bitVectorUpTo bits => "bitvector of at most " ++ toString bits ++ " bits"
  | .bitVectorWithinWidth => "bitvector within its width"

def Finding.text : Finding → String
  | .kind k => k.text
  | .oversizedWidth => "oversized bitvector width"
  | .oversizedMagnitude => "oversized bitvector"

def Fault.text : Fault → String
  | .divisionByZero => "division by zero"
  | .underflow => "Cannot subtract b from a because b is larger than a."
  | .notACharacter => "result is not a character"
  | .shiftOutOfRange => "shift amount out of range"
  | .indexOutOfRange index length =>
    "index " ++ toString index ++ " out of range 0.." ++ toString length
  | .boundOutOfRange bound length =>
    "bound " ++ toString bound ++ " out of range 0..=" ++ toString length
  | .emptyRange lo hi => "empty range " ++ toString lo ++ ".." ++ toString hi
  | .missingKey key => "key " ++ key.text ++ " not in map"
  | .negativeMultiplicity => "negative multiplicity"
  | .notAPair length =>
    "expected a [key, value] pair, found " ++ toString length ++ " elements"

namespace EvalError

def message : EvalError → String
  | .outOfFuel => "out of fuel"
  | .unbound name => "unbound variable: " ++ name
  | .typeMismatch site expected found =>
    "type mismatch in " ++ site.text ++ ": expected " ++ expected.text ++ ", found " ++ found.text
  | .arityMismatch expected found =>
    "arity mismatch: expected " ++ toString expected ++ " arguments, found " ++ toString found
  | .duplicateKey key => "duplicate key in map display: " ++ key.text
  | .invalid op fault => "invalid operation in " ++ op.mnemonic ++ ": " ++ fault.text

/-- A magnitude would have fallen below zero. -/
def isUnderflow : EvalError → Bool
  | .invalid _ .underflow => true
  | _ => false

/-- `op` met a value that it does not take. -/
def unexpected (op : Operator) (expected : Expectation) (found : Value) : EvalError :=
  .typeMismatch (.operator op) expected (.kind found.kind)

end EvalError

end CheckedPass
