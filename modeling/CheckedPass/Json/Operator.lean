import CheckedPass.Json.Basic
import CheckedPass.Operator.Vocabulary
/-!
# Operators as JSON

An operator is its tag under the name of its group.
-/

namespace CheckedPass

def Connective.tag : Connective → String
  | .and => "And"
  | .or => "Or"
  | .imp => "Imp"

def UnaryOp.tag : UnaryOp → String
  | .not => "BoolNot"
  | .bitNot => "BvNot"
  | .seqLength => "SeqLength"
  | .setCard => "SetCard"
  | .multisetCard => "MultisetCard"
  | .mapCard => "MapCard"

def NumericOp.tag : NumericOp → String
  | .lt => "Lt"
  | .le => "Le"
  | .ge => "Ge"
  | .gt => "Gt"
  | .add => "Add"
  | .sub => "Sub"
  | .mul => "Mul"
  | .div => "Div"
  | .mod => "Mod"

def EqualityOp.tag : EqualityOp → String
  | .eq => "Eq"
  | .neq => "Neq"

def BitOp.tag : BitOp → String
  | .and => "BvAnd"
  | .or => "BvOr"
  | .xor => "BvXor"
  | .shl => "BvShl"
  | .shr => "BvShr"

def SetOp.tag : SetOp → String
  | .eq => "SetEq"
  | .neq => "SetNeq"
  | .subset => "Subset"
  | .superset => "Superset"
  | .properSubset => "ProperSubset"
  | .properSuperset => "ProperSuperset"
  | .disjoint => "Disjoint"
  | .union => "Union"
  | .inter => "Intersection"
  | .diff => "SetDifference"
  | .mem => "InSet"
  | .notMem => "NotInSet"

def MultisetOp.tag : MultisetOp → String
  | .eq => "MultisetEq"
  | .neq => "MultisetNeq"
  | .subset => "MultiSubset"
  | .superset => "MultiSuperset"
  | .properSubset => "ProperMultiSubset"
  | .properSuperset => "ProperMultiSuperset"
  | .disjoint => "MultisetDisjoint"
  | .union => "MultisetUnion"
  | .inter => "MultisetIntersection"
  | .diff => "MultisetDifference"
  | .mem => "InMultiset"
  | .notMem => "NotInMultiset"
  | .count => "MultisetCount"

def SeqOp.tag : SeqOp → String
  | .eq => "SeqEq"
  | .neq => "SeqNeq"
  | .begins => "Prefix"
  | .properlyBegins => "ProperPrefix"
  | .concat => "Concat"
  | .mem => "InSeq"
  | .notMem => "NotInSeq"
  | .select => "SeqSelect"
  | .take => "SeqTake"
  | .drop => "SeqDrop"

def MapOp.tag : MapOp → String
  | .eq => "MapEq"
  | .neq => "MapNeq"
  | .mem => "InMap"
  | .notMem => "NotInMap"
  | .merge => "MapMerge"
  | .subtract => "MapSubtraction"
  | .select => "MapSelect"

def BinaryOp.tag : BinaryOp → String
  | .numeric op => op.tag
  | .iff => "Iff"
  | .equality op => op.tag
  | .bits op => op.tag
  | .set op => op.tag
  | .multiset op => op.tag
  | .seq op => op.tag
  | .map op => op.tag

/-- The group of operands that a binary operator works on. -/
def BinaryOp.family : BinaryOp → String
  | .numeric _ => "Numeric"
  | .iff => "Logical"
  | .equality _ => "Equality"
  | .bits _ => "BitVector"
  | .set _ => "Set"
  | .multiset _ => "Multiset"
  | .seq _ => "Seq"
  | .map _ => "Map"

def TernaryOp.tag : TernaryOp → String
  | .seqUpdate => "SeqUpdate"
  | .seqSubseq => "SeqSubseq"
  | .multisetUpdate => "MultisetUpdate"
  | .mapUpdate => "MapUpdate"

def Collection.tag : Collection → String
  | .seq => "Seq"
  | .set => "Set"
  | .multiset => "Multiset"
  | .map => "Map"

/-- The entry of `all` with the given tag. -/
def ofTag? {α : Type} (all : List α) (tag : α → String) (j : Json) : Option α := do
  let name ← j.asTag?
  all.find? fun a => tag a = name

def EagerOp.toJson : EagerOp → Json
  | .unary op => .obj [("Unary", .str op.tag)]
  | .binary op => .obj [("Binary", .str op.tag)]
  | .ternary op => .obj [("Ternary", .str op.tag)]
  | .display kind => .obj [("Display", .str kind.tag)]
  | .call => .str "FunctionCall"

def EagerOp.ofJson? (j : Json) : Option EagerOp :=
  if j.asTag? = some "FunctionCall" then some .call
  else
    match j with
    | .obj [(group, j)] =>
      if group = "Unary" then (ofTag? UnaryOp.all UnaryOp.tag j).map .unary
      else if group = "Binary" then (ofTag? BinaryOp.all BinaryOp.tag j).map .binary
      else if group = "Ternary" then (ofTag? TernaryOp.all TernaryOp.tag j).map .ternary
      else if group = "Display" then (ofTag? Collection.all Collection.tag j).map .display
      else none
    | _ => none

def Operator.toJson : Operator → Json
  | .lazy op => .obj [("Lazy", .str op.tag)]
  | .eager op => .obj [("Eager", op.toJson)]

def Operator.ofJson? : Json → Option Operator
  | .obj [(group, j)] =>
    if group = "Lazy" then (ofTag? Connective.all Connective.tag j).map .lazy
    else if group = "Eager" then (EagerOp.ofJson? j).map .eager
    else none
  | _ => none

end CheckedPass
