import CheckedPass.Operator.Basic
/-!
# The operator vocabulary

Every operator has a mnemonic, the name under which it is printed, and a place in the vocabulary,
which orders the operators.
-/

namespace CheckedPass

def Connective.mnemonic : Connective → String
  | .and => "and"
  | .or => "or"
  | .imp => "imp"

def UnaryOp.mnemonic : UnaryOp → String
  | .not => "not"
  | .bitNot => "bv.not"
  | .seqLength => "seq.len"
  | .setCard => "set.card"
  | .multisetCard => "mset.card"
  | .mapCard => "map.card"

def NumericOp.mnemonic : NumericOp → String
  | .lt => "lt"
  | .le => "le"
  | .ge => "ge"
  | .gt => "gt"
  | .add => "add"
  | .sub => "sub"
  | .mul => "mul"
  | .div => "div"
  | .mod => "mod"

def EqualityOp.mnemonic : EqualityOp → String
  | .eq => "eq"
  | .neq => "neq"

def BitOp.mnemonic : BitOp → String
  | .and => "bv.and"
  | .or => "bv.or"
  | .xor => "bv.xor"
  | .shl => "bv.shl"
  | .shr => "bv.shr"

def SetOp.mnemonic : SetOp → String
  | .eq => "set.eq"
  | .neq => "set.neq"
  | .subset => "set.subset"
  | .superset => "set.superset"
  | .properSubset => "set.proper_subset"
  | .properSuperset => "set.proper_superset"
  | .disjoint => "set.disjoint"
  | .union => "set.union"
  | .inter => "set.intersection"
  | .diff => "set.difference"
  | .mem => "set.in"
  | .notMem => "set.not_in"

def MultisetOp.mnemonic : MultisetOp → String
  | .eq => "mset.eq"
  | .neq => "mset.neq"
  | .subset => "mset.subset"
  | .superset => "mset.superset"
  | .properSubset => "mset.proper_subset"
  | .properSuperset => "mset.proper_superset"
  | .disjoint => "mset.disjoint"
  | .union => "mset.union"
  | .inter => "mset.intersection"
  | .diff => "mset.difference"
  | .mem => "mset.in"
  | .notMem => "mset.not_in"
  | .count => "mset.count"

def SeqOp.mnemonic : SeqOp → String
  | .eq => "seq.eq"
  | .neq => "seq.neq"
  | .begins => "seq.prefix"
  | .properlyBegins => "seq.proper_prefix"
  | .concat => "seq.concat"
  | .mem => "seq.in"
  | .notMem => "seq.not_in"
  | .select => "seq.select"
  | .take => "seq.take"
  | .drop => "seq.drop"

def MapOp.mnemonic : MapOp → String
  | .eq => "map.eq"
  | .neq => "map.neq"
  | .mem => "map.in"
  | .notMem => "map.not_in"
  | .merge => "map.merge"
  | .subtract => "map.subtract"
  | .select => "map.select"

def BinaryOp.mnemonic : BinaryOp → String
  | .numeric op => op.mnemonic
  | .iff => "iff"
  | .equality op => op.mnemonic
  | .bits op => op.mnemonic
  | .set op => op.mnemonic
  | .multiset op => op.mnemonic
  | .seq op => op.mnemonic
  | .map op => op.mnemonic

def TernaryOp.mnemonic : TernaryOp → String
  | .seqUpdate => "seq.update"
  | .seqSubseq => "seq.subseq"
  | .multisetUpdate => "mset.update"
  | .mapUpdate => "map.update"

def Collection.mnemonic : Collection → String
  | .seq => "seq"
  | .set => "set"
  | .multiset => "mset"
  | .map => "map"

def EagerOp.mnemonic : EagerOp → String
  | .unary op => op.mnemonic
  | .binary op => op.mnemonic
  | .ternary op => op.mnemonic
  | .display kind => kind.mnemonic
  | .call => "call"

def Operator.mnemonic : Operator → String
  | .lazy op => op.mnemonic
  | .eager op => op.mnemonic

def Connective.all : List Connective :=
  [.and, .or, .imp]

def UnaryOp.all : List UnaryOp :=
  [.not, .bitNot, .seqLength, .setCard, .multisetCard, .mapCard]

def NumericOp.all : List NumericOp :=
  [.lt, .le, .ge, .gt, .add, .sub, .mul, .div, .mod]

def EqualityOp.all : List EqualityOp :=
  [.eq, .neq]

def BitOp.all : List BitOp :=
  [.and, .or, .xor, .shl, .shr]

def SetOp.all : List SetOp :=
  [.eq, .neq, .subset, .superset, .properSubset, .properSuperset, .disjoint, .union, .inter, .diff,
   .mem, .notMem]

def MultisetOp.all : List MultisetOp :=
  [.eq, .neq, .subset, .superset, .properSubset, .properSuperset, .disjoint, .union, .inter, .diff,
   .mem, .notMem, .count]

def SeqOp.all : List SeqOp :=
  [.eq, .neq, .begins, .properlyBegins, .concat, .mem, .notMem, .select, .take, .drop]

def MapOp.all : List MapOp :=
  [.eq, .neq, .mem, .notMem, .merge, .subtract, .select]

def BinaryOp.all : List BinaryOp :=
  NumericOp.all.map .numeric ++ [.iff] ++ EqualityOp.all.map .equality ++ BitOp.all.map .bits
    ++ SetOp.all.map .set ++ MultisetOp.all.map .multiset ++ SeqOp.all.map .seq
    ++ MapOp.all.map .map

def TernaryOp.all : List TernaryOp :=
  [.seqUpdate, .seqSubseq, .multisetUpdate, .mapUpdate]

def Collection.all : List Collection :=
  [.seq, .set, .multiset, .map]

def EagerOp.all : List EagerOp :=
  UnaryOp.all.map .unary ++ BinaryOp.all.map .binary ++ TernaryOp.all.map .ternary
    ++ Collection.all.map .display ++ [.call]

namespace Operator

/-- Every operator once, in ascending order. -/
def vocabulary : List Operator :=
  Connective.all.map .lazy ++ EagerOp.all.map .eager

/-- The place of an operator in the vocabulary. -/
def place (op : Operator) : Nat :=
  vocabulary.idxOf op

def ofMnemonic? (name : String) : Option Operator :=
  vocabulary.find? fun op => op.mnemonic = name

instance : Ord Operator where
  compare a b := compare a.place b.place

theorem mem_vocabulary (op : Operator) : op ∈ vocabulary := by
  rcases op with op | (op | op | op | op | _)
  · cases op <;> decide
  · cases op <;> decide
  · cases op with
    | iff => decide
    | numeric op => cases op <;> decide
    | equality op => cases op <;> decide
    | bits op => cases op <;> decide
    | set op => cases op <;> decide
    | multiset op => cases op <;> decide
    | seq op => cases op <;> decide
    | map op => cases op <;> decide
  · cases op <;> decide
  · cases op <;> decide
  · decide

/-- No two operators share a place. -/
theorem place_inj {a b : Operator} (h : a.place = b.place) : a = b := by
  have ha := List.getElem_idxOf (List.idxOf_lt_length_iff.mpr (mem_vocabulary a))
  have hb := List.getElem_idxOf (List.idxOf_lt_length_iff.mpr (mem_vocabulary b))
  simp only [place] at h
  rw [← ha, ← hb]
  simp only [h]

instance : Std.LawfulEqOrd Operator where
  compare_self := Nat.compare_eq_eq.mpr rfl
  eq_of_compare h := place_inj (Nat.compare_eq_eq.mp h)

end Operator

end CheckedPass
