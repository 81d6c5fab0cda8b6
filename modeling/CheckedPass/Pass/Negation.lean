import CheckedPass.Pass.Basic
/-!
# Eliminating negated operators

A negated binary operator, such as "is not a member of", becomes the negation of its positive form.
-/

namespace CheckedPass.Pass

/-- A negated operator applied at the root, to however many operands. -/
def isNegatedApp : Expr → Bool
  | .app (.eager (.binary op)) _ => op.isNegated
  | _ => false

/-- The negation of the positive form. -/
def affirm? : Expr → Option Expr
  | .app (.eager (.binary op)) args =>
    if op.isNegated then some (.unary .not (.app (.eager (.binary op.positive)) args)) else none
  | _ => none

def eliminateNegated : Pass where
  name := "eliminate-negated-binops"
  step := affirm?
  post e := !isNegatedApp e

/-- Leaves every node alone. -/
def identity : Pass where
  name := "identity"
  step _ := none
  post _ := true

end CheckedPass.Pass
