import CheckedPass.Expr.Basic
/-!
# Children

A node is its payload and its children in evaluation order. Replacing all children at once keeps
shape and payload.
-/

namespace CheckedPass

/-- A node was given another number of children than it has. -/
structure ChildCount where
  shape : Shape
  expected : Nat
  deriving DecidableEq, Repr

def ChildCount.message (c : ChildCount) : String :=
  "with_children: " ++ c.shape.text ++ " node expects " ++ toString c.expected ++ " children"

namespace Expr

/-- The immediate children; of a binding, the values and then the body. -/
def children : Expr → List Expr
  | .var _ => []
  | .lit _ => []
  | .fn _ body => [body]
  | .app _ args => args
  | .block items => items
  | .cond test yes no => [test, yes, no]
  | .bind _ vals body => vals ++ [body]

/-- The node over other children, as many as it has. -/
def replaceChildren (e : Expr) (cs : List Expr) : Except ChildCount Expr :=
  match e, cs with
  | .var x, [] => .ok (.var x)
  | .lit a, [] => .ok (.lit a)
  | .fn params _, [body] => .ok (.fn params body)
  | .app op args, cs =>
    if cs.length = args.length then .ok (.app op cs) else .error ⟨.app, args.length⟩
  | .block items, cs =>
    if cs.length = items.length then .ok (.block cs) else .error ⟨.block, items.length⟩
  | .cond _ _ _, [test, yes, no] => .ok (.cond test yes no)
  | .bind vars vals _, cs =>
    match cs.getLast? with
    | some body =>
      if cs.length = vals.length + 1 then .ok (.bind vars cs.dropLast body)
      else .error ⟨.bind, vals.length + 1⟩
    | none => .error ⟨.bind, vals.length + 1⟩
  | e, _ => .error ⟨e.shape, e.children.length⟩

/-- Replaces every child, from the first to the last. -/
def mapChildrenM {m : Type → Type} [Monad m] (f : Expr → m Expr) : Expr → m Expr
  | .var x => pure (.var x)
  | .lit a => pure (.lit a)
  | .fn params body => do
    let body ← f body
    return .fn params body
  | .app op args => do
    let args ← args.mapM f
    return .app op args
  | .block items => do
    let items ← items.mapM f
    return .block items
  | .cond test yes no => do
    let test ← f test
    let yes ← f yes
    let no ← f no
    return .cond test yes no
  | .bind vars vals body => do
    let vals ← vals.mapM f
    let body ← f body
    return .bind vars vals body

/-- Replaces every child by its image. -/
def mapChildren (f : Expr → Expr) : Expr → Expr
  | .var x => .var x
  | .lit a => .lit a
  | .fn params body => .fn params (f body)
  | .app op args => .app op (args.map f)
  | .block items => .block (items.map f)
  | .cond test yes no => .cond (f test) (f yes) (f no)
  | .bind vars vals body => .bind vars (vals.map f) (f body)

end Expr

end CheckedPass
