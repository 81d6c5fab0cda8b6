import CheckedPass.Pass.Everywhere
/-!
# Checking the contract of a pass

A pass owes three things at every node where it may be used: the node over what came out of its
children is again within the precondition, the postcondition holds throughout what it leaves, and
what it leaves is related to the node if the children are related to what came out of them. The
checks run the pass on a given expression and report the first debt that is not met.
-/

namespace CheckedPass

inductive Violation where
  | notClosedUnderChildren (pass : String) (node reassembled : Expr)
  | postconditionNotPropagated (pass : String) (output : Expr)
  | relationBroken (pass : String) (before after : Expr)
  deriving DecidableEq

namespace Violation

def message : Violation → String
  | .notClosedUnderChildren pass node reassembled =>
    pass ++ ": " ++ node.text ++ " is applicable but its rebuilt form " ++ reassembled.text
      ++ " is not"
  | .postconditionNotPropagated pass output =>
    pass ++ ": postcondition does not hold throughout " ++ output.text
  | .relationBroken pass before after =>
    pass ++ ": rewriting " ++ before.text ++ " to " ++ after.text ++ " breaks the relation"

end Violation

/-- Why a check does not pass: a debt that is not met, or a run of the judge that ended it. -/
inductive Objection where
  | violation (v : Violation)
  | ended (e : EvalError)
  deriving DecidableEq

namespace Pass

/-- What came out of the children satisfies the postcondition throughout. -/
def childrenPost (p : Pass) (e : Expr) : Bool :=
  e.children.all fun c => p.deepPost (p.attempt c)

/-- Whether the children are related to what came out of them. -/
def childrenRelated (p : Pass) (j : Judge) (e : Expr) : EvalResult Bool :=
  e.children.allM fun c => p.related j c (p.attempt c)

/-- Whether the node is related to `output`, if its children are related to what came out of
them. -/
def relationLifted (p : Pass) (j : Judge) (e output : Expr) : EvalResult Bool := do
  if ← p.childrenRelated j e then p.related j e output else return true

/-- The contract at the root of `e`. A node whose child fails the postcondition is not blamed for
what follows from it. -/
def checkNode (p : Pass) (j : Judge) (e : Expr) : Except Objection Unit :=
  if !p.applicable e then .ok ()
  else
    let reassembled := e.mapChildren p.attempt
    if !p.applicable reassembled then
      if p.childrenPost e then
        .error (.violation (.notClosedUnderChildren p.name e reassembled))
      else .ok ()
    else
      let output := p.apply reassembled
      if p.childrenPost e && !p.deepPost output then
        .error (.violation (.postconditionNotPropagated p.name output))
      else
        match p.relationLifted j e output with
        | .ok true => .ok ()
        | .ok false => .error (.violation (.relationBroken p.name e output))
        | .error error => .error (.ended error)

mutual

/-- The contract at every node, children before their parents. -/
def checkAll (p : Pass) (j : Judge) : Expr → Except Objection Unit
  | .var x => p.checkNode j (.var x)
  | .lit a => p.checkNode j (.lit a)
  | .fn params body => do
    checkAll p j body
    p.checkNode j (.fn params body)
  | .app op args => do
    checkEach p j args
    p.checkNode j (.app op args)
  | .block items => do
    checkEach p j items
    p.checkNode j (.block items)
  | .cond test yes no => do
    checkAll p j test
    checkAll p j yes
    checkAll p j no
    p.checkNode j (.cond test yes no)
  | .bind vars vals body => do
    checkEach p j vals
    checkAll p j body
    p.checkNode j (.bind vars vals body)

def checkEach (p : Pass) (j : Judge) : List Expr → Except Objection Unit
  | [] => .ok ()
  | e :: es => do
    checkAll p j e
    checkEach p j es

end

end Pass

end CheckedPass
