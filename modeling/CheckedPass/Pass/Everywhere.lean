import CheckedPass.Pass.Basic
/-!
# Passes over whole trees

A pass goes through a tree from the leaves up: the children first, from the first to the last, then
the node over what came out of them. Used outside its precondition, or leaving a node that fails
its postcondition, it breaks off.
-/

namespace CheckedPass

/-- A pass broke one of its own conditions. -/
inductive Breach where
  | precondition (pass : String) (node : Expr)
  | postcondition (pass : String) (output : Expr)
  deriving DecidableEq

def Breach.message : Breach → String
  | .precondition pass node =>
    pass ++ ": applying to " ++ node.text ++ ", which is outside the pass precondition"
  | .postcondition pass output => pass ++ ": postcondition fails on " ++ output.text

namespace Pass

/-- The pass at one node, whose children it has been through with so many changes. -/
def settle (p : Pass) (node : Expr) (changes : Nat) : Except Breach (Expr × Nat) :=
  if p.applicable node then
    match p.step node with
    | some out =>
      if p.post out then .ok (out, changes + 1) else .error (.postcondition p.name out)
    | none => if p.post node then .ok (node, changes) else .error (.postcondition p.name node)
  else .error (.precondition p.name node)

mutual

/-- What comes out of a tree, with the number of nodes replaced. -/
def everywhere (p : Pass) : Expr → Except Breach (Expr × Nat)
  | .var x => p.settle (.var x) 0
  | .lit a => p.settle (.lit a) 0
  | .fn params body => do
    let (body, n) ← everywhere p body
    p.settle (.fn params body) n
  | .app op args => do
    let (args, n) ← everywhereList p args
    p.settle (.app op args) n
  | .block items => do
    let (items, n) ← everywhereList p items
    p.settle (.block items) n
  | .cond test yes no => do
    let (test, k) ← everywhere p test
    let (yes, m) ← everywhere p yes
    let (no, n) ← everywhere p no
    p.settle (.cond test yes no) (k + m + n)
  | .bind vars vals body => do
    let (vals, m) ← everywhereList p vals
    let (body, n) ← everywhere p body
    p.settle (.bind vars vals body) (m + n)

def everywhereList (p : Pass) : List Expr → Except Breach (List Expr × Nat)
  | [] => .ok ([], 0)
  | e :: es => do
    let (e, m) ← everywhere p e
    let (es, n) ← everywhereList p es
    return (e :: es, m + n)

end

/-- The node, replaced only where the pass may be used. -/
def applyWhereApplicable (p : Pass) (e : Expr) : Expr :=
  if p.applicable e then p.apply e else e

mutual

/-- What comes out of a tree if nodes outside the precondition are left alone and no condition is
checked. -/
def attempt (p : Pass) : Expr → Expr
  | .var x => p.applyWhereApplicable (.var x)
  | .lit a => p.applyWhereApplicable (.lit a)
  | .fn params body => p.applyWhereApplicable (.fn params (attempt p body))
  | .app op args => p.applyWhereApplicable (.app op (attemptList p args))
  | .block items => p.applyWhereApplicable (.block (attemptList p items))
  | .cond test yes no =>
    p.applyWhereApplicable (.cond (attempt p test) (attempt p yes) (attempt p no))
  | .bind vars vals body =>
    p.applyWhereApplicable (.bind vars (attemptList p vals) (attempt p body))

def attemptList (p : Pass) : List Expr → List Expr
  | [] => []
  | e :: es => attempt p e :: attemptList p es

end

end Pass

/-- How many nodes a pass replaced. -/
structure Report where
  pass : String
  changes : Nat
  deriving DecidableEq, Repr

/-- A program after a list of passes, with a report on each. -/
structure Transformed where
  program : Program
  reports : List Report

def Transformed.totalChanges (t : Transformed) : Nat :=
  t.reports.foldl (fun n r => n + r.changes) 0

/-- Why a list of passes ended early. -/
inductive Halt (ε : Type) where
  | breach (b : Breach)
  /-- The check before a pass refused. -/
  | refused (reason : ε)

namespace Pass

variable {σ ε : Type}

/-- Sends an expression through the passes in turn. Before each one, a check that keeps a state of
its own sees the pass and the expression, and may refuse. -/
def runChecked (check : σ → Pass → Expr → σ × Except ε Unit) :
    List Pass → σ → Expr → σ × Except (Halt ε) (Expr × List Report)
  | [], s, body => (s, .ok (body, []))
  | p :: ps, s, body =>
    match check s p body with
    | (s, .error reason) => (s, .error (.refused reason))
    | (s, .ok ()) =>
      match p.everywhere body with
      | .error b => (s, .error (.breach b))
      | .ok (body, changes) =>
        match runChecked check ps s body with
        | (s, .ok (out, reports)) => (s, .ok (out, ⟨p.name, changes⟩ :: reports))
        | (s, .error h) => (s, .error h)

/-- Sends a program through the passes in turn, with a check before each. -/
def transformChecked (check : σ → Pass → Expr → σ × Except ε Unit) (passes : List Pass) (s : σ)
    (program : Program) : σ × Except (Halt ε) Transformed :=
  match runChecked check passes s program.body with
  | (s, .ok (body, reports)) => (s, .ok ⟨⟨body⟩, reports⟩)
  | (s, .error h) => (s, .error h)

/-- Sends a program through the passes in turn. -/
def transform (passes : List Pass) (program : Program) : Except Breach Transformed :=
  match transformChecked (fun (_ : Unit) _ _ => ((), (.ok () : Except Empty Unit))) passes ()
      program with
  | (_, .ok t) => .ok t
  | (_, .error (.breach b)) => .error b

end Pass

end CheckedPass
