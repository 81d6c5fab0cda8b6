import CheckedPass.Json.Basic
import CheckedPass.Schedule
/-!
# Settings as JSON

Budgets and settings are objects, or arrays of their fields in order. A field that is missing, or
lies beyond the end of the array, has its standard value.
-/

namespace CheckedPass

/-- A field of an object or the standard value; a field that is there has to be of the right
form. -/
def Json.fieldOr {α : Type} (name : String) (standard : α) (decode : Json → Option α)
    (fields : List (String × Json)) : Option α :=
  match Json.field? name fields with
  | some j => decode j
  | none => some standard

/-- Names the items of an array in turn; there may be fewer items than names. -/
def Json.asFields? (names : List String) : Json → Option (List (String × Json))
  | .obj fields => some fields
  | .arr items => if items.length ≤ names.length then some (names.zip items) else none
  | _ => none

def Budget.toJson (b : Budget) : Json :=
  .obj [("depth", .int b.depth.toNat), ("max_fuel", .int b.maxFuel.toNat),
    ("max_arg_tuples", .int b.maxTuples.toNat)]

def Budget.ofJson? (j : Json) : Option Budget := do
  let fields ← j.asFields? ["depth", "max_fuel", "max_arg_tuples"]
  let depth ← Json.fieldOr "depth" Budget.standard.depth Json.asUInt64? fields
  let maxFuel ← Json.fieldOr "max_fuel" Budget.standard.maxFuel Json.asUInt64? fields
  let maxTuples ← Json.fieldOr "max_arg_tuples" Budget.standard.maxTuples Json.asUInt64? fields
  return ⟨depth, maxFuel, maxTuples⟩

def Settings.toJson (s : Settings) : Json :=
  .obj [("fuel", .int s.fuel.toNat), ("oracle", s.budget.toJson),
    ("check_contracts", .bool s.checkContracts)]

def Settings.ofJson? (j : Json) : Option Settings := do
  let fields ← j.asFields? ["fuel", "oracle", "check_contracts"]
  let fuel ← Json.fieldOr "fuel" Settings.standard.fuel Json.asUInt64? fields
  let budget ← Json.fieldOr "oracle" Settings.standard.budget Budget.ofJson? fields
  let check ← Json.fieldOr "check_contracts" Settings.standard.checkContracts Json.asBool? fields
  return ⟨fuel, budget, check⟩

end CheckedPass
