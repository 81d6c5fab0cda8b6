import CheckedPass.Proofs.WellFormed
/-!
# Operators make up no functions

Whatever an operator yields consists of values that its operands consist of, scalars apart, and
elements and keys that ascend in the operands ascend in the result. So a property that a collection
has exactly if everything in it has it, and if its elements or keys ascend should that be asked for,
goes over from the operands of an operator to its result, whatever the property says of functions.
Nor does an operator look at names or at fuel: the errors it raises itself are about the operands
only. What evaluation adds is the functions that the nodes of the expression make.
-/

namespace CheckedPass

/-- Ends in a result of which `Q` holds, or in an error about the operands. -/
abbrev Passes {α : Type} (Q : α → Prop) (x : EvalResult α) : Prop :=
  EndsIn (fun error => error.isOperational = true) Q x

theorem Reads.passes {α : Type} {Q : α → Prop} {x : EvalResult α} (h : Reads Q x) : Passes Q x :=
  h.mono_error fun _ herror => herror.1

def Value.isFunction : Value → Bool
  | .closure _ _ _ => true
  | _ => false

/-- Whether the elements or keys of a collection ascend. -/
def Value.ascends : Value → Bool
  | .set elems => Ascending.isAscending elems
  | .multiset counts => Ascending.isAscending (Ascending.keys counts)
  | .map entries => Ascending.isAscending (Ascending.keys entries)
  | _ => true

private theorem Value.ascends_of_parts_eq_nil {v : Value} (h : v.parts = []) :
    v.ascends = true := by
  cases v with
  | set xs =>
    rw [show xs = [] from h]
    rfl
  | multiset counts =>
    rw [List.map_eq_nil_iff.mp h]
    rfl
  | map entries =>
    rw [List.map_eq_nil_iff.mp (List.append_eq_nil_iff.mp h).1]
    rfl
  | _ => rfl

/-- Holds of every scalar, and of a collection exactly if it holds of all that is in it and, should
`O` hold, the elements or keys ascend. -/
structure Hereditary (O : Prop) (P : Value → Prop) : Prop where
  iff_parts : ∀ {v : Value}, v.isFunction = false →
    (P v ↔ (O → v.ascends = true) ∧ ∀ u ∈ v.parts, P u)

namespace Hereditary

variable {O : Prop} {P : Value → Prop}

theorem unordered_iff : Hereditary False P ↔
    ∀ {v : Value}, v.isFunction = false → (P v ↔ ∀ u ∈ v.parts, P u) := by
  constructor
  · intro hP v hdata
    rw [hP.iff_parts hdata, and_iff_right False.elim]
  · intro h
    exact ⟨fun hdata => by rw [h hdata, and_iff_right False.elim]⟩

theorem scalar (hP : Hereditary O P) {v : Value} (hdata : v.isFunction = false)
    (hparts : v.parts = []) : P v :=
  (hP.iff_parts hdata).mpr ⟨fun _ => Value.ascends_of_parts_eq_nil hparts, by simp [hparts]⟩

theorem seq (hP : Hereditary O P) {xs : List Value} : P (.seq xs) ↔ ∀ x ∈ xs, P x := by
  rw [hP.iff_parts rfl]
  exact and_iff_right fun _ => rfl

theorem set (hP : Hereditary O P) {xs : List Value} :
    P (.set xs) ↔ (O → Ascending.isAscending xs = true) ∧ ∀ x ∈ xs, P x :=
  hP.iff_parts rfl

theorem multiset (hP : Hereditary O P) {counts : List (Value × Nat)} :
    P (.multiset counts) ↔ Ascending.Bindings O (fun p => P p.1) counts := by
  rw [hP.iff_parts rfl, Value.parts, List.forall_mem_map]
  exact ⟨fun h => ⟨h.1, h.2⟩, fun h => ⟨h.ascending, h.all⟩⟩

theorem map (hP : Hereditary O P) {entries : List (Value × Value)} :
    P (.map entries) ↔ Ascending.Bindings O (fun p => P p.1 ∧ P p.2) entries := by
  rw [hP.iff_parts rfl, Value.parts, List.forall_mem_append, List.forall_mem_map,
    List.forall_mem_map]
  constructor
  · exact fun h => ⟨h.1, fun p hp => ⟨h.2.1 p hp, h.2.2 p hp⟩⟩
  · exact fun h => ⟨h.ascending, fun p hp => (h.all p hp).1, fun p hp => (h.all p hp).2⟩

end Hereditary

namespace Value

private theorem isFirstOrderEntries_iff {entries : List (Value × Value)} :
    isFirstOrderEntries entries = true ↔
      ∀ p ∈ entries, p.1.isFirstOrder = true ∧ p.2.isFirstOrder = true := by
  induction entries with
  | nil => simp [isFirstOrderEntries]
  | cons p entries ih =>
    rw [isFirstOrderEntries, Bool.and_eq_true, Bool.and_eq_true, ih, List.forall_mem_cons]

theorem isFirstOrder_hereditary : Hereditary False fun v => v.isFirstOrder = true := by
  refine Hereditary.unordered_iff.mpr fun {v} hdata => ?_
  cases v with
  | seq xs => exact isFirstOrderList_iff
  | set xs => exact isFirstOrderList_iff
  | multiset counts =>
    rw [isFirstOrder, isFirstOrderCounts_iff, parts, List.forall_mem_map]
  | map entries =>
    rw [isFirstOrder, isFirstOrderEntries_iff, parts, List.forall_mem_append,
      List.forall_mem_map, List.forall_mem_map]
    exact forall₂_and
  | closure env params body => cases hdata
  | _ => simp [isFirstOrder, parts]

variable {O : Prop} {P : Value → Prop} {v w : Value}

private theorem asSeq_passes (hP : Hereditary O P) (hv : P v) (op : Operator) :
    Passes (fun xs => ∀ x ∈ xs, P x) (v.asSeq op) :=
  (v.asSeq_reads op).passes.mono fun _ heq => hP.seq.mp (heq ▸ hv)

theorem asSet_passes (hP : Hereditary O P) (hv : P v) (op : Operator) :
    Passes (fun xs => (O → Ascending.isAscending xs = true) ∧ ∀ x ∈ xs, P x) (v.asSet op) :=
  (v.asSet_reads op).passes.mono fun _ heq => hP.set.mp (heq ▸ hv)

private theorem asMultiset_passes (hP : Hereditary O P) (hv : P v) (op : Operator) :
    Passes (Ascending.Bindings O fun p => P p.1) (v.asMultiset op) :=
  (v.asMultiset_reads op).passes.mono fun _ heq => hP.multiset.mp (heq ▸ hv)

private theorem asMap_passes (hP : Hereditary O P) (hv : P v) (op : Operator) :
    Passes (Ascending.Bindings O fun p => P p.1 ∧ P p.2) (v.asMap op) :=
  (v.asMap_reads op).passes.mono fun _ heq => hP.map.mp (heq ▸ hv)

end Value

namespace Hereditary

variable {O : Prop} {P : Value → Prop} {v w x : Value}

theorem literal (hP : Hereditary O P) (a : Literal) : Passes P a.value := by
  cases a with
  | bitVector width magnitude =>
    rw [Literal.value]
    split
    · exact .error rfl
    · split
      · exact .error rfl
      · exact .ok (hP.scalar rfl rfl)
  | _ => exact .ok (hP.scalar rfl rfl)

theorem arithmetic (hP : Hereditary O P) (op : NumericOp) (v w : Value) :
    Passes P (op.arithmetic v w) := by
  fun_cases NumericOp.arithmetic op v w with
  | case1 a b =>
    refine (op.onInts_reads a b).passes.mono ?_
    rintro _ ⟨n, rfl⟩
    exact hP.scalar rfl rfl
  | case2 a b =>
    refine (op.onReals_reads a b).passes.mono ?_
    rintro _ ⟨q, rfl⟩
    exact hP.scalar rfl rfl
  | case3 a width b =>
    fun_cases NumericOp.onBitVectors op width a b with
    | case3 | case5 | case7 => exact .error rfl
    | _ => exact .ok (hP.scalar rfl rfl)
  | case5 a b =>
    refine (op.onChars_reads a b).passes.mono ?_
    rintro _ ⟨c, rfl⟩
    exact hP.scalar rfl rfl
  | case6 => exact .ok (hP.scalar rfl rfl)
  | _ => exact .error (Value.mismatched_reads _ _ _).1

theorem numeric (hP : Hereditary O P) (op : NumericOp) (v w : Value) : Passes P (op.apply v w) := by
  cases op with
  | lt | le | ge | gt =>
    exact (v.compareNumeric_reads w _).passes.bind fun _ _ => .ok (hP.scalar rfl rfl)
  | _ => exact hP.arithmetic _ v w

theorem bits (hP : Hereditary O P) (op : BitOp) (v w : Value) : Passes P (op.apply v w) := by
  cases v with
  | bitVector width a =>
    cases op with
    | shl | shr =>
      exact (BitOp.shiftAmount_reads _ width w).passes.bind fun _ _ =>
        .ok (hP.scalar rfl rfl)
    | and | or | xor =>
      exact (BitOp.magnitude_reads _ width w).passes.bind fun _ _ =>
        .ok (hP.scalar rfl rfl)
  | _ => exact .error rfl

theorem unary (hP : Hereditary O P) (hv : P v) (op : UnaryOp) : Passes P (op.apply v) := by
  cases op with
  | not => exact (v.asBool_reads _).passes.bind fun _ _ => .ok (hP.scalar rfl rfl)
  | bitNot =>
    cases v with
    | bitVector width a => exact .ok (hP.scalar rfl rfl)
    | _ => exact .error rfl
  | seqLength => exact (Value.asSeq_passes hP hv _).bind fun _ _ => .ok (hP.scalar rfl rfl)
  | setCard => exact (Value.asSet_passes hP hv _).bind fun _ _ => .ok (hP.scalar rfl rfl)
  | multisetCard =>
    exact (Value.asMultiset_passes hP hv _).bind fun _ _ => .ok (hP.scalar rfl rfl)
  | mapCard => exact (Value.asMap_passes hP hv _).bind fun _ _ => .ok (hP.scalar rfl rfl)

theorem iffValue (hP : Hereditary O P) (v w : Value) : Passes P (BinaryOp.iffValue v w) :=
  (v.asBool_reads _).passes.bind fun _ _ => (w.asBool_reads _).passes.bind fun _ _ =>
    .ok (hP.scalar rfl rfl)

theorem equality (hP : Hereditary O P) (op : EqualityOp) (v w : Value) :
    Passes P (op.apply v w) := by
  cases op <;> exact (v.equals_reads w _).passes.bind fun _ _ => .ok (hP.scalar rfl rfl)

theorem onSets (hP : Hereditary O P) (hv : P v) (hw : P w) (op : SetOp)
    {f : List Value → List Value → Value}
    (hf : ∀ xs ys, P (.set xs) → P (.set ys) → P (f xs ys)) : Passes P (op.onSets v w f) :=
  (Value.asSet_passes hP hv _).bind fun xs hxs => (Value.asSet_passes hP hw _).bind fun ys hys =>
    .ok (hf xs ys (hP.set.mpr hxs) (hP.set.mpr hys))

private theorem setOp (hP : Hereditary O P) (hv : P v) (hw : P w) (op : SetOp) :
    Passes P (op.apply v w) := by
  cases op with
  | union =>
    refine hP.onSets hv hw _ fun xs ys hxs hys => hP.set.mpr ?_
    obtain ⟨hasc, hxs⟩ := hP.set.mp hxs
    refine ⟨fun hO => Ascending.isAscending_union (hasc hO) ys, fun x hx => ?_⟩
    rcases (Ascending.mem_union xs ys x).mp hx with hx | hx
    · exact hxs x hx
    · exact (hP.set.mp hys).2 x hx
  | inter | diff =>
    refine hP.onSets hv hw _ fun xs ys hxs _ => hP.set.mpr ?_
    obtain ⟨hasc, hxs⟩ := hP.set.mp hxs
    refine ⟨fun hO => Ascending.isAscending_of_sublist List.filter_sublist (hasc hO),
      fun x hx => ?_⟩
    exact hxs x (List.mem_of_mem_filter hx)
  | mem | notMem => exact (v.inSet_reads w _).passes.bind fun _ _ => .ok (hP.scalar rfl rfl)
  | _ => exact hP.onSets hv hw _ fun _ _ _ _ => hP.scalar rfl rfl

theorem onMultisets (hP : Hereditary O P) (hv : P v) (hw : P w) (op : MultisetOp)
    {f : List (Value × Nat) → List (Value × Nat) → Value}
    (hf : ∀ xs ys, Ascending.Bindings O (fun p => P p.1) xs →
      Ascending.Bindings O (fun p => P p.1) ys → P (f xs ys)) : Passes P (op.onMultisets v w f) :=
  (Value.asMultiset_passes hP hv _).bind fun xs hxs =>
    (Value.asMultiset_passes hP hw _).bind fun ys hys => .ok (hf xs ys hxs hys)

private theorem sumCounts {xs ys : List (Value × Nat)}
    (hxs : Ascending.Bindings O (fun p => P p.1) xs) (hys : ∀ p ∈ ys, P p.1) :
    Ascending.Bindings O (fun p => P p.1) (Value.sumCounts xs ys) := by
  induction ys generalizing xs with
  | nil => exact hxs
  | cons q ys ih =>
    obtain ⟨hq, hrest⟩ := List.forall_mem_cons.mp hys
    exact ih (hxs.put hq) hrest

private theorem multisetOp (hP : Hereditary O P) (hv : P v) (hw : P w) (op : MultisetOp) :
    Passes P (op.apply v w) := by
  cases op with
  | union =>
    exact hP.onMultisets hv hw _ fun _ _ hxs hys => hP.multiset.mpr (sumCounts hxs hys.all)
  | inter =>
    refine hP.onMultisets hv hw _ fun xs ys hxs _ => hP.multiset.mpr (hxs.filterMap ?_)
    intro p hp q hpq
    simp only [Option.ite_none_left_eq_some, Option.some.injEq] at hpq
    rw [← hpq.2]
    exact ⟨rfl, hxs.all p hp⟩
  | diff =>
    refine hP.onMultisets hv hw _ fun xs ys hxs _ => hP.multiset.mpr (hxs.filterMap ?_)
    intro p hp q hpq
    simp only [Option.ite_none_right_eq_some, Option.some.injEq] at hpq
    rw [← hpq.2]
    exact ⟨rfl, hxs.all p hp⟩
  | mem | notMem => exact (v.inMultiset_reads w _).passes.bind fun _ _ => .ok (hP.scalar rfl rfl)
  | count =>
    exact (Value.asMultiset_passes hP hv _).bind fun _ _ =>
      (w.demandComparable_reads _).passes.bind fun _ _ => .ok (hP.scalar rfl rfl)
  | _ => exact hP.onMultisets hv hw _ fun _ _ _ _ => hP.scalar rfl rfl

theorem updateMultiset (hP : Hereditary O P) (hv : P v) (hx : P x) (n : Value) :
    Passes P (TernaryOp.updateMultiset v x n) := by
  refine (Value.asMultiset_passes hP hv _).bind fun counts hcounts => ?_
  refine (x.demandComparable_reads _).passes.bind fun _ _ => ?_
  refine (n.asInt_reads _).passes.bind fun n _ => ?_
  split
  · exact .error rfl
  · split
    · exact .ok (hP.multiset.mpr (hcounts.filter _))
    · exact .ok (hP.multiset.mpr (hcounts.put hx))

private theorem seqOp (hP : Hereditary O P) (hv : P v) (hw : P w) (op : SeqOp) :
    Passes P (op.apply v w) := by
  cases op with
  | eq | neq => exact (v.equalSeqs_reads w _).passes.bind fun _ _ => .ok (hP.scalar rfl rfl)
  | begins | properlyBegins =>
    exact (v.comparableSeqs_reads w _).passes.bind fun _ _ => .ok (hP.scalar rfl rfl)
  | mem | notMem => exact (v.inSeq_reads w _).passes.bind fun _ _ => .ok (hP.scalar rfl rfl)
  | concat =>
    refine (Value.asSeq_passes hP hv _).bind fun xs hxs => ?_
    refine (Value.asSeq_passes hP hw _).bind fun ys hys => .ok (hP.seq.mpr ?_)
    exact List.forall_mem_append.mpr ⟨hxs, hys⟩
  | select =>
    refine (Value.asSeq_passes hP hv _).bind fun xs hxs => ?_
    refine (w.asInt_reads _).passes.bind fun i _ => ?_
    refine (Value.index_reads _ i xs.length).passes.bind fun n _ => ?_
    cases hx : xs[n]? with
    | none => exact .error rfl
    | some x => exact .ok (hxs x (List.mem_of_getElem? hx))
  | take =>
    refine (Value.asSeq_passes hP hv _).bind fun xs hxs => ?_
    refine (w.asInt_reads _).passes.bind fun i _ => ?_
    refine (Value.bound_reads _ i xs.length).passes.bind fun n _ => .ok (hP.seq.mpr fun x hx => ?_)
    exact hxs x (List.mem_of_mem_take hx)
  | drop =>
    refine (Value.asSeq_passes hP hv _).bind fun xs hxs => ?_
    refine (w.asInt_reads _).passes.bind fun i _ => ?_
    refine (Value.bound_reads _ i xs.length).passes.bind fun n _ => .ok (hP.seq.mpr fun x hx => ?_)
    exact hxs x (List.mem_of_mem_drop hx)

theorem updateSeq (hP : Hereditary O P) (hv : P v) (i : Value) (hx : P x) :
    Passes P (TernaryOp.updateSeq v i x) := by
  refine (Value.asSeq_passes hP hv _).bind fun xs hxs => (i.asInt_reads _).passes.bind fun i _ => ?_
  refine (Value.index_reads _ i xs.length).passes.bind fun n _ => .ok (hP.seq.mpr fun y hy => ?_)
  rcases List.mem_or_eq_of_mem_set hy with hy | rfl
  · exact hxs y hy
  · exact hx

theorem subseq (hP : Hereditary O P) (hv : P v) (lo hi : Value) :
    Passes P (TernaryOp.subseq v lo hi) := by
  refine (Value.asSeq_passes hP hv _).bind fun xs hxs => ?_
  refine (lo.asInt_reads _).passes.bind fun i _ => ?_
  refine (Value.bound_reads _ i xs.length).passes.bind fun m _ => ?_
  refine (hi.asInt_reads _).passes.bind fun j _ => ?_
  refine (Value.bound_reads _ j xs.length).passes.bind fun n _ => ?_
  split
  · exact .error rfl
  · refine .ok (hP.seq.mpr fun x hx => ?_)
    exact hxs x (List.mem_of_mem_drop (List.mem_of_mem_take hx))

private theorem mapOp (hP : Hereditary O P) (hv : P v) (hw : P w) (op : MapOp) :
    Passes P (op.apply v w) := by
  cases op with
  | eq | neq => exact (v.equalMaps_reads w _).passes.bind fun _ _ => .ok (hP.scalar rfl rfl)
  | mem | notMem => exact (v.inMap_reads w _).passes.bind fun _ _ => .ok (hP.scalar rfl rfl)
  | merge =>
    refine (Value.asMap_passes hP hv _).bind fun m hm => ?_
    exact (Value.asMap_passes hP hw _).bind fun n hn => .ok (hP.map.mpr (hm.putAll hn.all))
  | subtract =>
    refine (Value.asMap_passes hP hv _).bind fun m hm => ?_
    exact (Value.asSet_passes hP hw _).bind fun removed _ => .ok (hP.map.mpr (hm.filter _))
  | select =>
    refine (Value.asMap_passes hP hv _).bind fun m hm => ?_
    refine (w.demandComparable_reads _).passes.bind fun _ _ => ?_
    cases hx : Ascending.get? w m with
    | none => exact .error rfl
    | some x => exact .ok (hm.all _ (Ascending.mem_of_get? hx)).2

theorem updateMap (hP : Hereditary O P) (hv : P v) (hw : P w) (hx : P x) :
    Passes P (TernaryOp.updateMap v w x) := by
  refine (Value.asMap_passes hP hv _).bind fun m hm => ?_
  exact (w.demandComparable_reads _).passes.bind fun _ _ => .ok (hP.map.mpr (hm.put ⟨hw, hx⟩))

private theorem pair (hP : Hereditary O P) (hv : P v) :
    Passes (fun p => P p.1 ∧ P p.2) (Collection.pair v) := by
  refine (Collection.pair_reads v).passes.mono fun p hp => ?_
  obtain ⟨rfl, -⟩ := hp
  have hparts := hP.seq.mp hv
  exact ⟨hparts p.1 (by simp), hparts p.2 (by simp)⟩

private theorem addPairs (hP : Hereditary O P) {entries : List (Value × Value)} {elems : List Value}
    (hentries : Ascending.Bindings O (fun p => P p.1 ∧ P p.2) entries) (helems : ∀ x ∈ elems, P x) :
    Passes (Ascending.Bindings O fun p => P p.1 ∧ P p.2) (Collection.addPairs entries elems) := by
  induction elems generalizing entries with
  | nil => exact .ok hentries
  | cons elem rest ih =>
    obtain ⟨helem, hrest⟩ := List.forall_mem_cons.mp helems
    refine (hP.pair helem).bind fun p hp => ?_
    obtain ⟨k, u⟩ := p
    simp only
    split
    · exact .error rfl
    · exact ih (hentries.put hp) hrest

private theorem addEach {counts : List (Value × Nat)} {elems : List Value}
    (hcounts : Ascending.Bindings O (fun p => P p.1) counts) (helems : ∀ x ∈ elems, P x) :
    Ascending.Bindings O (fun p => P p.1)
      (elems.foldl (fun acc x => Value.addCopies acc x 1) counts) := by
  induction elems generalizing counts with
  | nil => exact hcounts
  | cons elem rest ih =>
    obtain ⟨helem, hrest⟩ := List.forall_mem_cons.mp helems
    exact ih (hcounts.put helem) hrest

theorem build (hP : Hereditary O P) (kind : Collection) {elems : List Value}
    (helems : ∀ x ∈ elems, P x) : Passes P (kind.build elems) := by
  cases kind with
  | seq => exact .ok (hP.seq.mpr helems)
  | set =>
    refine (Collection.demandComparable_reads .set elems).passes.bind fun _ _ =>
      .ok (hP.set.mpr ⟨fun _ => Ascending.isAscending_union rfl elems, fun x hx => ?_⟩)
    exact helems x (by simpa using (Ascending.mem_union [] elems x).mp hx)
  | multiset =>
    refine (Collection.demandComparable_reads .multiset elems).passes.bind fun _ _ =>
      .ok (hP.multiset.mpr ?_)
    exact addEach .nil helems
  | map => exact (hP.addPairs .nil helems).bind fun _ hm => .ok (hP.map.mpr hm)

theorem binary (hP : Hereditary O P) (hv : P v) (hw : P w) (op : BinaryOp) :
    Passes P (op.apply v w) := by
  cases op with
  | numeric op => exact hP.numeric op v w
  | iff => exact hP.iffValue v w
  | equality op => exact hP.equality op v w
  | bits op => exact hP.bits op v w
  | set op => exact hP.setOp hv hw op
  | multiset op => exact hP.multisetOp hv hw op
  | seq op => exact hP.seqOp hv hw op
  | map op => exact hP.mapOp hv hw op

theorem ternary (hP : Hereditary O P) (hv : P v) (hw : P w) (hx : P x) (op : TernaryOp) :
    Passes P (op.apply v w x) := by
  cases op with
  | seqUpdate => exact hP.updateSeq hv w hx
  | seqSubseq => exact hP.subseq hv w x
  | multisetUpdate => exact hP.updateMultiset hv hw x
  | mapUpdate => exact hP.updateMap hv hw hx

/-- What holds of the operands holds of the result, given that calls see to it. An operator other
than a call fails only with errors about the operands. -/
theorem applyWith (hP : Hereditary O P) {E : EvalError → Prop}
    (hE : ∀ error, error.isOperational = true → E error)
    {call : Value → List Value → EvalResult Value}
    (hcall : ∀ f args, P f → (∀ v ∈ args, P v) → EndsIn E P (call f args)) (op : EagerOp)
    {vs : List Value} (haccepts : op.arity.accepts vs.length = true) (hvs : ∀ v ∈ vs, P v) :
    EndsIn E P (op.applyWith call vs) := by
  cases op with
  | unary op =>
    obtain ⟨v, rfl⟩ := List.length_eq_one_iff.mp (of_decide_eq_true haccepts)
    exact (hP.unary (hvs v (by simp)) op).mono_error hE
  | binary op =>
    obtain ⟨v, w, rfl⟩ := List.length_eq_two.mp (of_decide_eq_true haccepts)
    exact (hP.binary (hvs v (by simp)) (hvs w (by simp)) op).mono_error hE
  | ternary op =>
    obtain ⟨v, w, x, rfl⟩ := List.length_eq_three.mp (of_decide_eq_true haccepts)
    exact (hP.ternary (hvs v (by simp)) (hvs w (by simp)) (hvs x (by simp)) op).mono_error hE
  | display kind => exact (hP.build kind hvs).mono_error hE
  | call =>
    obtain ⟨callee, args, rfl⟩ := List.exists_cons_of_length_pos (of_decide_eq_true haccepts)
    obtain ⟨hcallee, hargs⟩ := List.forall_mem_cons.mp hvs
    exact hcall callee args hcallee hargs

/-- `P` holds of every function that a node of the expression makes, if it holds of all that the
function captures. -/
def OfFunctions (P : Value → Prop) (e : Expr) : Prop :=
  ∀ params body, Expr.fn params body ∈ e.nodes → ∀ env : Env, (∀ p ∈ env, P p.2) →
    P (.closure env params body)

theorem OfFunctions.child {e c : Expr} (h : OfFunctions P e) (hc : c ∈ e.children) :
    OfFunctions P c :=
  fun params body hmem => h params body (Expr.mem_nodes_of_child hc hmem)

private theorem invariant (hP : Hereditary False P) {call : Value → List Value → EvalResult Value}
    (hcall : ∀ f args, P f → (∀ v ∈ args, P v) → EndsIn (fun _ => True) P (call f args)) :
    Invariant (fun _ => True) P call (fun e env => OfFunctions P e ∧ ∀ p ∈ env, P p.2) where
  var hfit := Env.lookup_endsIn hfit.2 trivial
  lit _ := (hP.literal _).mono_error fun _ _ => trivial
  fn hfit := hfit.1 _ _ (Expr.mem_nodes_self _) _ hfit.2
  unit := hP.scalar rfl rfl
  bool _ := hP.scalar rfl rfl
  mismatch _ _ _ := trivial
  apply _ haccepts hvs := hP.applyWith (fun _ _ => trivial) hcall _ haccepts hvs
  misfit _ _ _ _ := trivial
  inScope hfit _ hc := ⟨hfit.1.child (Expr.mem_children_of_inScope hc), hfit.2⟩
  body hfit _ hvs :=
    ⟨hfit.1.child (by simp [Expr.children]), Env.forall_mem_extend hfit.2 hvs⟩

/-- What holds of all that is in scope, and of the functions that an expression makes of it, holds
of its value, given that calls see to it. -/
theorem valueWith (hP : Hereditary False P) {call : Value → List Value → EvalResult Value}
    (hcall : ∀ f args, P f → (∀ v ∈ args, P v) → EndsIn (fun _ => True) P (call f args))
    {e : Expr} (he : OfFunctions P e) {env : Env} (henv : ∀ p ∈ env, P p.2) :
    EndsIn (fun _ => True) P (e.valueWith call env) :=
  (hP.invariant hcall).valueWith e env ⟨he, henv⟩

end Hereditary

end CheckedPass
