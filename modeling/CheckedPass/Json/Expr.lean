import CheckedPass.Expr.Basic
import CheckedPass.Json.Numeral
import CheckedPass.Json.Operator
/-!
# Expressions as JSON

A node is an object with one field: the name of its shape, over its parts. Parts that are not
asked for are passed over when an object is read.
-/

namespace CheckedPass

/-- A character is a text of length one. -/
def charOfJson? : Json → Option Char
  | .str s =>
    match s.toList with
    | [c] => some c
    | _ => none
  | _ => none

def Literal.toJson : Literal → Json
  | .unit => .str "Unit"
  | .bool b => .obj [("Bool", .bool b)]
  | .int n => .obj [("Int", intToJson n)]
  | .real f => .obj [("Real", fractionToJson f)]
  | .char c => .obj [("Char", .str (String.singleton c))]
  | .bitVector width magnitude =>
    .obj [("BitVector",
      .obj [("width", .int width.toNat), ("magnitude", natToJson magnitude)])]
  | .ordinal n => .obj [("Ordinal", natToJson n)]

def bitVectorOfJson? : Json → Option Literal
  | .obj fields => do
    let width ← (← Json.field? "width" fields).asUInt32?
    let magnitude ← natOfJson? (← Json.field? "magnitude" fields)
    return .bitVector width magnitude
  | _ => none

def Literal.ofJson? (j : Json) : Option Literal :=
  if j.asTag? = some "Unit" then some .unit
  else
    match j with
    | .obj [(tag, j)] =>
      if tag = "Bool" then j.asBool?.map .bool
      else if tag = "Int" then (intOfJson? j).map .int
      else if tag = "Real" then (fractionOfJson? j).map .real
      else if tag = "Char" then (charOfJson? j).map .char
      else if tag = "BitVector" then bitVectorOfJson? j
      else if tag = "Ordinal" then (natOfJson? j).map .ordinal
      else none
    | _ => none

def namesToJson (names : List String) : Json :=
  .arr (names.map .str)

def namesOfJson? (j : Json) : Option (List String) :=
  j.listOf? Json.asString?

mutual

def Expr.toJson : Expr → Json
  | .var x => .obj [("Var", .str x)]
  | .lit a => .obj [("Literal", a.toJson)]
  | .fn params body =>
    .obj [("Abs", .obj [("params", namesToJson params), ("body", Expr.toJson body)])]
  | .app op args =>
    .obj [("Apply", .obj [("op", op.toJson), ("args", .arr (Expr.listToJson args))])]
  | .block items => .obj [("Block", .arr (Expr.listToJson items))]
  | .cond test yes no =>
    .obj [("If", .obj [("cond", Expr.toJson test), ("then_branch", Expr.toJson yes),
      ("else_branch", Expr.toJson no)])]
  | .bind vars vals body =>
    .obj [("Bind", .obj [("vars", namesToJson vars), ("vals", .arr (Expr.listToJson vals)),
      ("body", Expr.toJson body)])]

def Expr.listToJson : List Expr → List Json
  | [] => []
  | e :: es => Expr.toJson e :: Expr.listToJson es

end

mutual

def Expr.ofJson? : Json → Option Expr
  | .obj [(tag, j)] =>
    if tag = "Var" then j.asString?.map .var
    else if tag = "Literal" then (Literal.ofJson? j).map .lit
    else if tag = "Block" then (Expr.arrayOfJson? j).map .block
    else
      match j with
      | .obj fields =>
        if tag = "Abs" then do
          let params ← namesOfJson? (← Json.field? "params" fields)
          let body ← Expr.ofField? "body" fields
          return .fn params body
        else if tag = "Apply" then do
          let op ← Operator.ofJson? (← Json.field? "op" fields)
          let args ← Expr.arrayOfField? "args" fields
          return .app op args
        else if tag = "If" then do
          let test ← Expr.ofField? "cond" fields
          let yes ← Expr.ofField? "then_branch" fields
          let no ← Expr.ofField? "else_branch" fields
          return .cond test yes no
        else if tag = "Bind" then do
          let vars ← namesOfJson? (← Json.field? "vars" fields)
          let vals ← Expr.arrayOfField? "vals" fields
          let body ← Expr.ofField? "body" fields
          return .bind vars vals body
        else none
      | _ => none
  | _ => none

/-- The expressions of an array. -/
def Expr.arrayOfJson? : Json → Option (List Expr)
  | .arr items => Expr.listOfJson? items
  | _ => none

def Expr.listOfJson? : List Json → Option (List Expr)
  | [] => some []
  | j :: js => do
    let e ← Expr.ofJson? j
    let es ← Expr.listOfJson? js
    return e :: es

/-- The expression in a field. -/
def Expr.ofField? (name : String) : List (String × Json) → Option Expr
  | [] => none
  | (key, j) :: rest => if key = name then Expr.ofJson? j else Expr.ofField? name rest

/-- The expressions of an array in a field. -/
def Expr.arrayOfField? (name : String) : List (String × Json) → Option (List Expr)
  | [] => none
  | (key, j) :: rest => if key = name then Expr.arrayOfJson? j else Expr.arrayOfField? name rest

end

def Program.toJson (p : Program) : Json :=
  .obj [("body", p.body.toJson)]

/-- An object with a body, or an array of just the body. -/
def Program.ofJson? : Json → Option Program
  | .obj fields => (Expr.ofField? "body" fields).map .mk
  | .arr [body] => (Expr.ofJson? body).map .mk
  | _ => none

end CheckedPass
