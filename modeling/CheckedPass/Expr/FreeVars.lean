import CheckedPass.Ascending
import CheckedPass.Expr.Basic
/-!
# Free variables

A function binds its parameters in its body. A binding binds its names in its body only; the
values see the enclosing scope. One traversal collects the free names, with a stack of the names
bound on the way down.
-/

namespace CheckedPass.Expr

/-- The names bound on the way down, innermost last, and the free names found so far. -/
structure Scope where
  bound : List String
  free : List String

namespace Scope

def empty : Scope where
  bound := []
  free := []

/-- A name seen: it is free unless it is bound. -/
def see (s : Scope) (x : String) : Scope :=
  if x ∈ s.bound then s else { s with free := Ascending.insert x s.free }

/-- Pushes `names` on the stack, collects below them, and cuts the stack back. -/
def within (s : Scope) (names : List String) (collect : Scope → Scope) : Scope :=
  let below := collect { s with bound := s.bound ++ names }
  { below with bound := below.bound.take s.bound.length }

end Scope

mutual

def collectFree : Expr → Scope → Scope
  | .var x, s => s.see x
  | .lit _, s => s
  | .fn params body, s => s.within params (collectFree body)
  | .app _ args, s => collectFreeList args s
  | .block items, s => collectFreeList items s
  | .cond test yes no, s => collectFree no (collectFree yes (collectFree test s))
  | .bind vars vals body, s => (collectFreeList vals s).within vars (collectFree body)

def collectFreeList : List Expr → Scope → Scope
  | [], s => s
  | e :: es, s => collectFreeList es (collectFree e s)

end

/-- The names that occur free, ascending. -/
def freeVars (e : Expr) : List String :=
  (e.collectFree .empty).free

end CheckedPass.Expr
