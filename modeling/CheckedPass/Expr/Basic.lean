import CheckedPass.Operator.Vocabulary
import CheckedPass.Expr.Literal
/-!
# Expressions

Expression trees and the shape of their nodes.
-/

namespace CheckedPass

inductive Expr where
  | var (name : String)
  | lit (value : Literal)
  /-- A function; evaluating it captures the environment and leaves the body alone. -/
  | fn (params : List String) (body : Expr)
  | app (op : Operator) (args : List Expr)
  /-- The items one after the other; the last one gives the value. -/
  | block (items : List Expr)
  | cond (test yes no : Expr)
  /-- The names stand for the values in the body only. -/
  | bind (vars : List String) (vals : List Expr) (body : Expr)

/-- What kind of node an expression is. -/
inductive Shape where
  | var
  | lit
  | fn
  | app
  | block
  | cond
  | bind
  deriving DecidableEq, Repr

instance : Ord Shape where
  compare a b := compare a.ctorIdx b.ctorIdx

instance : Std.LawfulEqOrd Shape where
  compare_self := Nat.compare_eq_eq.mpr rfl
  eq_of_compare {a b} h := by
    rw [← Shape.ofNat_ctorIdx a, ← Shape.ofNat_ctorIdx b, Nat.compare_eq_eq.mp h]

namespace Shape

def text : Shape → String
  | .var => "Var"
  | .lit => "Literal"
  | .fn => "Abs"
  | .app => "Apply"
  | .block => "Block"
  | .cond => "If"
  | .bind => "Bind"

end Shape

namespace Expr

def shape : Expr → Shape
  | .var _ => .var
  | .lit _ => .lit
  | .fn _ _ => .fn
  | .app _ _ => .app
  | .block _ => .block
  | .cond _ _ _ => .cond
  | .bind _ _ _ => .bind

/-- Nodes of one shape. -/
def alike (e e' : Expr) : Bool :=
  e.shape = e'.shape

def unit : Expr := .lit .unit
def bool (b : Bool) : Expr := .lit (.bool b)
def int (n : Int) : Expr := .lit (.int n)
def char (c : Char) : Expr := .lit (.char c)
def ordinal (n : Nat) : Expr := .lit (.ordinal n)
def bitVector (width : UInt32) (magnitude : Nat) : Expr := .lit (.bitVector width magnitude)

/-- The literal `num / den` in lowest terms. -/
def real (num den : Int) : Except ZeroDenominator Expr :=
  (Fraction.reduce num den).map fun f => .lit (.real f)

def lazily (op : Connective) (lhs rhs : Expr) : Expr :=
  .app (.lazy op) [lhs, rhs]

def unary (op : UnaryOp) (operand : Expr) : Expr :=
  .app (.eager (.unary op)) [operand]

def binary (op : BinaryOp) (lhs rhs : Expr) : Expr :=
  .app (.eager (.binary op)) [lhs, rhs]

def ternary (op : TernaryOp) (first second third : Expr) : Expr :=
  .app (.eager (.ternary op)) [first, second, third]

def display (kind : Collection) (elems : List Expr) : Expr :=
  .app (.eager (.display kind)) elems

/-- A map display takes each pair as a sequence of two. -/
def mapDisplay (pairs : List (Expr × Expr)) : Expr :=
  display .map (pairs.map fun p => display .seq [p.1, p.2])

def call (callee : Expr) (args : List Expr) : Expr :=
  .app (.eager .call) (callee :: args)

/-- The binary operator applied at the root, with its operands, however many there are. -/
def asBinary? : Expr → Option (BinaryOp × List Expr)
  | .app (.eager (.binary op)) args => some (op, args)
  | _ => none

end Expr

/-- A program is one expression, its body. -/
structure Program where
  body : Expr

end CheckedPass
