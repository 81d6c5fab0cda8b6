import CheckedPass.Env
import CheckedPass.Eval.Display
/-!
# Samples

Finite samples that stand in for all values: a fixed list of probe values, and the argument lists
and environments that can be drawn from a pool of values.
-/

namespace CheckedPass

/-- The positions that follow `indices` in a pool of `size` values. Starting left of `place`, a
position that would reach the size goes back to zero, and the one in front of it moves on instead.
Where that runs off the left end, none follow. -/
def advance (size : Nat) (indices : List Nat) : Nat → Option (List Nat)
  | 0 => none
  | place + 1 =>
    let moved := indices.getD place 0 + 1
    if moved < size then some (indices.set place moved)
    else advance size (indices.set place 0) place

/-- The tuples at the positions `indices` of `pool` and at those that follow, as long as there is
`room` for them. The last position varies fastest. -/
def tuplesFrom {α : Type} (pool : List α) (indices : List Nat) : Nat → List (List α)
  | 0 => []
  | room + 1 =>
    indices.filterMap (pool[·]?) ::
      match advance pool.length indices indices.length with
      | some next => tuplesFrom pool next room
      | none => []

/-- The lists of `n` entries drawn from `pool`, in lexicographic order of their positions in the
pool, cut off after `limit` of them. -/
def tuples {α : Type} (pool : List α) (n limit : Nat) : List (List α) :=
  if n = 0 then [[]].take limit
  else if pool.isEmpty then []
  else tuplesFrom pool (List.replicate n 0) limit

/-- The environments that give each name a value from `pool`, cut off after `limit` of them. -/
def environments (names : List String) (pool : List Value) (limit : Nat) : List Env :=
  (tuples pool names.length limit).map fun values => Env.ofBindings (names.zip values)

/-- A function of `x` that captures nothing. -/
def Value.functionOfX (body : Expr) : Value :=
  .closure [] ["x"] body

/-- At least one value of every kind, and a few functions. -/
def standardProbes : List Value :=
  [.unit,
   .functionOfX (.var "x"),
   .functionOfX (.int 0),
   .functionOfX (.binary (.numeric .add) (.var "x") (.int 1)),
   .bool false,
   .bool true,
   .int (-1),
   .int 0,
   .int 1,
   .int 2,
   .real (Rat.divInt 1 2),
   .char 'a',
   .ofMagnitude 4 3,
   .ordinal 1,
   .seq [],
   .seq [.int 1, .int 2],
   .setOf [.int 0, .int 1],
   .multisetOf [.int 1, .int 1],
   .mapOf [(.int 1, .bool true)]]

end CheckedPass
