import CheckedPass.Eval.Multiset
/-!
# Collection displays

A display builds a collection from its elements. Elements of sets and multisets and keys of maps
have to be comparable; a map takes its pairs as sequences of two and each key once.
-/

namespace CheckedPass

namespace Value

def ofBool (b : Bool) : Value := .bool b

/-- The magnitude modulo two to the width. -/
def ofMagnitude (width : UInt32) (magnitude : Nat) : Value :=
  .bitVector width (magnitude % modulus width)

def setOf (elems : List Value) : Value :=
  .set (Ascending.ofList elems)

/-- Each element as often as it occurs. -/
def multisetOf (elems : List Value) : Value :=
  .multiset (elems.foldl (fun acc x => addCopies acc x 1) [])

/-- Of pairs with one key, the last counts. -/
def mapOf (pairs : List (Value × Value)) : Value :=
  .map (Ascending.putAll [] pairs)

end Value

namespace Collection

def operator (kind : Collection) : Operator :=
  .eager (.display kind)

/-- The key and the value that an element of a map display stands for. -/
def pair (elem : Value) : EvalResult (Value × Value) := do
  let op := operator .map
  match ← elem.asSeq op with
  | [k, v] => do
    k.demandComparable op
    return (k, v)
  | parts => .error (.invalid op (.notAPair parts.length))

/-- Adds the pairs of `elems` to `entries`, and refuses a key that is there already. -/
def addPairs (entries : List (Value × Value)) : List Value → EvalResult (List (Value × Value))
  | [] => .ok entries
  | elem :: rest => do
    let (k, v) ← pair elem
    match Ascending.get? k entries with
    | some _ => .error (.duplicateKey k)
    | none => addPairs (Ascending.put k v entries) rest

/-- Refuses the first element that cannot be compared. -/
def demandComparable (kind : Collection) : List Value → EvalResult Unit
  | [] => .ok ()
  | elem :: rest => do
    elem.demandComparable kind.operator
    demandComparable kind rest

/-- The collection of that kind with these elements. -/
def build (kind : Collection) (elems : List Value) : EvalResult Value :=
  match kind with
  | .seq => .ok (.seq elems)
  | .set => do
    demandComparable kind elems
    return .setOf elems
  | .multiset => do
    demandComparable kind elems
    return .multisetOf elems
  | .map => do
    let entries ← addPairs [] elems
    return .map entries

end Collection

end CheckedPass
