import CheckedPass.Pass.Negation
/-!
# A catalogue of passes

Passes by name. Besides the two that keep the meaning of every expression there are passes that
break their contract in one way or another, on which the checks can be tried.
-/

namespace CheckedPass.Pass

/-- An application of logical negation, to however many operands. -/
def isNotApp : Expr → Bool
  | .app (.eager (.unary .not)) _ => true
  | _ => false

/-- An application of equality, to however many operands. -/
def isEqApp : Expr → Bool
  | .app (.eager (.binary (.equality .eq))) _ => true
  | _ => false

def isIntLiteral : Expr → Bool
  | .lit (.int _) => true
  | _ => false

def isZero : Expr → Bool
  | .lit (.int n) => n = 0
  | _ => false

def isNonzero : Expr → Bool
  | .lit (.int n) => n ≠ 0
  | _ => false

def isSingleBlock : Expr → Bool
  | .block [_] => true
  | _ => false

/-- An equation becomes a disequation. -/
def flipEquality : Pass where
  name := "flip-eq"
  step
    | .app (.eager (.binary (.equality .eq))) [lhs, rhs] =>
      some (.binary (.equality .neq) lhs rhs)
    | _ => none
  post e := !isEqApp e

/-- A literal becomes its negation, whatever it is. -/
def negateLiterals : Pass where
  name := "negate"
  step
    | .lit a => some (.unary .not (.lit a))
    | _ => none
  post e := e.shape ≠ .app

/-- Negated operators are eliminated only from trees without a negation. -/
def negationFree : Pass where
  name := "negation-free"
  applicable e := e.all fun n => !isNotApp n
  step := affirm?
  post e := !isNegatedApp e

/-- A negation of a negation becomes the inner one. -/
def collapseNegations : Pass where
  name := "collapse-negations"
  step
    | .app (.eager (.unary .not)) [arg] => if isNotApp arg then some arg else none
    | e => affirm? e
  post e := !isNegatedApp e

/-- The literal zero for any other integer literal. -/
def zeroed? (e : Expr) : Option Expr :=
  if isNonzero e then some (.int 0) else none

/-- Integer literals become zero. -/
def zero : Pass where
  name := "zero"
  step := zeroed?
  post e := !isNonzero e

/-- Integer literals become zero, in trees without a zero. -/
def zeroFree : Pass where
  name := "zero-free"
  applicable e := e.all fun n => !isZero n
  step := zeroed?
  post e := !isNonzero e

/-- Integer literals become zero, in trees without a zero, and none is meant to be left. -/
def zeroStrict : Pass where
  name := "zero-strict"
  applicable e := e.all fun n => !isZero n
  step := zeroed?
  post e := !isIntLiteral e

/-- A block of one item becomes the item. -/
def unwrapBlock : Pass where
  name := "unwrap-block"
  step
    | .block [item] => some item
    | _ => none
  post e := !isSingleBlock e

/-- An application loses its last operand. -/
def dropLastArg : Pass where
  name := "drop-last-arg"
  step
    | .app op (arg :: args) => some (.app op (arg :: args).dropLast)
    | _ => none
  post _ := true

/-- A variable becomes the unit. Only the shapes of nodes are meant to be kept, and not those of
variables. -/
def forgetVars : Pass where
  name := "forget-vars"
  step
    | .var _ => some .unit
    | _ => none
  post e := e.shape ≠ .var
  related _ before after := return before.alike after || before.shape = .var

def catalogue : List Pass :=
  [identity, eliminateNegated, flipEquality, negateLiterals, negationFree, collapseNegations, zero,
   zeroFree, zeroStrict, unwrapBlock, dropLastArg, forgetVars]

/-- The pass of that name in the catalogue. -/
def named? (name : String) : Option Pass :=
  catalogue.find? fun p => p.name = name

end CheckedPass.Pass
