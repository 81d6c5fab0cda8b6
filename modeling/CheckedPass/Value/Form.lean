import CheckedPass.Ascending
import CheckedPass.Value.Order
/-!
# The form of values

Which values can be compared, how deeply a value nests, and the representation invariants. That
elements, keys and captured names ascend is not part of the type of values, which is there before
values can be compared; `isOrdered` says it.
-/

namespace CheckedPass.Value

mutual

/-- No closure anywhere inside. Only such values can be compared for equality, since functions
have no decidable equality. -/
def isFirstOrder : Value → Bool
  | .seq elems => isFirstOrderList elems
  | .set elems => isFirstOrderList elems
  | .multiset counts => isFirstOrderCounts counts
  | .map entries => isFirstOrderEntries entries
  | .closure _ _ _ => false
  | _ => true

def isFirstOrderList : List Value → Bool
  | [] => true
  | v :: vs => isFirstOrder v && isFirstOrderList vs

def isFirstOrderCounts : List (Value × Nat) → Bool
  | [] => true
  | (v, _) :: vs => isFirstOrder v && isFirstOrderCounts vs

def isFirstOrderEntries : List (Value × Value) → Bool
  | [] => true
  | (k, v) :: vs => isFirstOrder k && isFirstOrder v && isFirstOrderEntries vs

end

mutual

/-- One for a scalar, and one more than the most complex component otherwise. The components of a
closure are the values it captured. -/
def complexity : Value → Nat
  | .seq elems => 1 + complexityList elems
  | .set elems => 1 + complexityList elems
  | .multiset counts => 1 + complexityCounts counts
  | .map entries => 1 + complexityEntries entries
  | .closure env _ _ => 1 + complexityEnv env
  | _ => 1

def complexityList : List Value → Nat
  | [] => 0
  | v :: vs => max (complexity v) (complexityList vs)

def complexityCounts : List (Value × Nat) → Nat
  | [] => 0
  | (v, _) :: vs => max (complexity v) (complexityCounts vs)

def complexityEntries : List (Value × Value) → Nat
  | [] => 0
  | (k, v) :: vs => max (max (complexity k) (complexity v)) (complexityEntries vs)

def complexityEnv : List (String × Value) → Nat
  | [] => 0
  | (_, v) :: vs => max (complexity v) (complexityEnv vs)

end

mutual

/-- Magnitudes fit their width, multiplicities are positive, elements and keys can be compared and
ascend, and all components are well-formed in turn. -/
def isWellFormed : Value → Bool
  | .bitVector width magnitude => magnitude < modulus width
  | .seq elems => isWellFormedList elems
  | .set elems =>
    Ascending.isAscending elems && isFirstOrderList elems && isWellFormedList elems
  | .multiset counts =>
    Ascending.isAscending (Ascending.keys counts) && isFirstOrderCounts counts
      && isWellFormedCounts counts
  | .map entries =>
    Ascending.isAscending (Ascending.keys entries) && isFirstOrderList (Ascending.keys entries)
      && isWellFormedEntries entries
  | .closure env _ _ => isWellFormedEnv env
  | _ => true

def isWellFormedList : List Value → Bool
  | [] => true
  | v :: vs => isWellFormed v && isWellFormedList vs

def isWellFormedCounts : List (Value × Nat) → Bool
  | [] => true
  | (v, n) :: vs => n ≠ 0 && isWellFormed v && isWellFormedCounts vs

def isWellFormedEntries : List (Value × Value) → Bool
  | [] => true
  | (k, v) :: vs => isWellFormed k && isWellFormed v && isWellFormedEntries vs

def isWellFormedEnv : List (String × Value) → Bool
  | [] => true
  | (_, v) :: vs => isWellFormed v && isWellFormedEnv vs

end

mutual

/-- Elements, keys and captured names ascend, and all components are in order in turn. -/
def isOrdered : Value → Bool
  | .seq elems => isOrderedList elems
  | .set elems => Ascending.isAscending elems && isOrderedList elems
  | .multiset counts => Ascending.isAscending (Ascending.keys counts) && isOrderedCounts counts
  | .map entries => Ascending.isAscending (Ascending.keys entries) && isOrderedEntries entries
  | .closure env _ _ => Ascending.isAscending (Ascending.keys env) && isOrderedEnv env
  | _ => true

def isOrderedList : List Value → Bool
  | [] => true
  | v :: vs => isOrdered v && isOrderedList vs

def isOrderedCounts : List (Value × Nat) → Bool
  | [] => true
  | (v, _) :: vs => isOrdered v && isOrderedCounts vs

def isOrderedEntries : List (Value × Value) → Bool
  | [] => true
  | (k, v) :: vs => isOrdered k && isOrdered v && isOrderedEntries vs

def isOrderedEnv : List (String × Value) → Bool
  | [] => true
  | (_, v) :: vs => isOrdered v && isOrderedEnv vs

end

end CheckedPass.Value
