import CheckedPass.Expr.Children
/-!
# Visiting nodes

A visit goes through a tree in pre-order and lets its visitor cut it short: the visitor may stop
the whole visit with a result, or skip what lies below a node.
-/

namespace CheckedPass

/-- What a visitor decides at a node. -/
inductive Step (β : Type) where
  | stop (result : β)
  | skip
  | descend
  deriving DecidableEq, Repr

/-- What a visit leaves behind: the visitor's state, and the result it stopped with. -/
abbrev Visited (σ β : Type) := σ × Option β

/-- Goes on unless the visit has stopped. -/
def Visited.andThen {σ β : Type} (r : Visited σ β) (next : σ → Visited σ β) : Visited σ β :=
  match r with
  | (s, some b) => (s, some b)
  | (s, none) => next s

namespace Expr

variable {σ β : Type}

mutual

/-- Visits `e` and, unless the visitor says otherwise, its children from the first to the last. -/
def visit (visitor : σ → Expr → σ × Step β) (e : Expr) (s : σ) : Visited σ β :=
  match visitor s e with
  | (s, .stop b) => (s, some b)
  | (s, .skip) => (s, none)
  | (s, .descend) =>
    match e with
    | .var _ => (s, none)
    | .lit _ => (s, none)
    | .fn _ body => visit visitor body s
    | .app _ args => visitList visitor args s
    | .block items => visitList visitor items s
    | .cond test yes no =>
      (visit visitor test s).andThen fun s => (visit visitor yes s).andThen (visit visitor no)
    | .bind _ vals body => (visitList visitor vals s).andThen (visit visitor body)

def visitList (visitor : σ → Expr → σ × Step β) (es : List Expr) (s : σ) : Visited σ β :=
  match es with
  | [] => (s, none)
  | e :: es => (visit visitor e s).andThen (visitList visitor es)

end

mutual

/-- The tree in pre-order: each node before what lies below it, children in order. -/
def nodes : Expr → List Expr
  | .var x => [.var x]
  | .lit a => [.lit a]
  | .fn params body => .fn params body :: nodes body
  | .app op args => .app op args :: nodesList args
  | .block items => .block items :: nodesList items
  | .cond test yes no => .cond test yes no :: (nodes test ++ nodes yes ++ nodes no)
  | .bind vars vals body => .bind vars vals body :: (nodesList vals ++ nodes body)

def nodesList : List Expr → List Expr
  | [] => []
  | e :: es => nodes e ++ nodesList es

end

/-- Whether `p` holds at every node; the visit stops at the first that fails it. -/
def all (p : Expr → Bool) (e : Expr) : Bool :=
  (e.visit (fun _ n => ((), if p n then .descend else .stop ())) ()).2.isNone

mutual

/-- The number of nodes. -/
def size : Expr → Nat
  | .var _ => 1
  | .lit _ => 1
  | .fn _ body => 1 + size body
  | .app _ args => 1 + sizeList args
  | .block items => 1 + sizeList items
  | .cond test yes no => 1 + (size test + size yes + size no)
  | .bind _ vals body => 1 + (sizeList vals + size body)

def sizeList : List Expr → Nat
  | [] => 0
  | e :: es => size e + sizeList es

end

mutual

/-- The height of the tree; a leaf has height one. -/
def height : Expr → Nat
  | .var _ => 1
  | .lit _ => 1
  | .fn _ body => 1 + height body
  | .app _ args => 1 + heightList args
  | .block items => 1 + heightList items
  | .cond test yes no => 1 + max (height test) (max (height yes) (height no))
  | .bind _ vals body => 1 + max (heightList vals) (height body)

def heightList : List Expr → Nat
  | [] => 0
  | e :: es => max (height e) (heightList es)

end

/-- What evaluation needs at a node: operand counts fit, and names and values pair up. -/
def isInterpretableNode : Expr → Bool
  | .app op args => op.arity.accepts args.length
  | .bind vars vals _ => vars.length = vals.length
  | _ => true

/-- Operand counts fit and names and values pair up throughout the tree. -/
def isInterpretable (e : Expr) : Bool :=
  e.all isInterpretableNode

end Expr

end CheckedPass
