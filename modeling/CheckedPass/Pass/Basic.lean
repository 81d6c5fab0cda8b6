import CheckedPass.Equivalence.Judge
import CheckedPass.Expr.Text
/-!
# Passes

A pass replaces single nodes. It says at which nodes it may be used, what holds of every node it
leaves, and how a tree it has gone through relates to the tree before.
-/

namespace CheckedPass

structure Pass where
  name : String
  /-- Where the pass may be used. -/
  applicable : Expr → Bool := fun _ => true
  /-- What the node is replaced by, if it is replaced. -/
  step : Expr → Option Expr
  /-- What holds of every node the pass leaves. -/
  post : Expr → Bool
  /-- How what comes out relates to what went in; by default, as a judge finds them equivalent. -/
  related : Judge → Expr → Expr → EvalResult Bool := fun j before after =>
    j.equivalent before after

namespace Pass

/-- The node, or what replaces it. -/
def apply (p : Pass) (e : Expr) : Expr :=
  (p.step e).getD e

/-- The postcondition throughout a tree. -/
def deepPost (p : Pass) (e : Expr) : Bool :=
  e.all p.post

end Pass

end CheckedPass
