import CheckedPass.Proofs.Ascending
import CheckedPass.Proofs.Order
import CheckedPass.Proofs.Reading
/-!
# Operators keep values well-formed

On well-formed operands every operator yields a well-formed value, if it yields one: magnitudes fit
their widths, multiplicities are positive, and elements and keys can be compared and ascend. Nor
does an operator fail by underflow: no magnitude is ever taken away from a smaller one.
-/

namespace CheckedPass

namespace Value

theorem isFirstOrderList_iff {vs : List Value} :
    isFirstOrderList vs = true ↔ ∀ v ∈ vs, v.isFirstOrder = true := by
  induction vs with
  | nil => simp [isFirstOrderList]
  | cons v vs ih => rw [isFirstOrderList, Bool.and_eq_true, ih, List.forall_mem_cons]

theorem isFirstOrderCounts_iff {counts : List (Value × Nat)} :
    isFirstOrderCounts counts = true ↔ ∀ p ∈ counts, p.1.isFirstOrder = true := by
  induction counts with
  | nil => simp [isFirstOrderCounts]
  | cons p counts ih => rw [isFirstOrderCounts, Bool.and_eq_true, ih, List.forall_mem_cons]

private theorem isWellFormedList_iff {vs : List Value} :
    isWellFormedList vs = true ↔ ∀ v ∈ vs, v.isWellFormed = true := by
  induction vs with
  | nil => simp [isWellFormedList]
  | cons v vs ih => rw [isWellFormedList, Bool.and_eq_true, ih, List.forall_mem_cons]

private theorem isWellFormedCounts_iff {counts : List (Value × Nat)} :
    isWellFormedCounts counts = true ↔ ∀ p ∈ counts, p.2 ≠ 0 ∧ p.1.isWellFormed = true := by
  induction counts with
  | nil => simp [isWellFormedCounts]
  | cons p counts ih =>
    rw [isWellFormedCounts, Bool.and_eq_true, Bool.and_eq_true, ih, List.forall_mem_cons,
      decide_eq_true_iff]

private theorem isWellFormedEntries_iff {entries : List (Value × Value)} :
    isWellFormedEntries entries = true ↔
      ∀ p ∈ entries, p.1.isWellFormed = true ∧ p.2.isWellFormed = true := by
  induction entries with
  | nil => simp [isWellFormedEntries]
  | cons p entries ih =>
    rw [isWellFormedEntries, Bool.and_eq_true, Bool.and_eq_true, ih, List.forall_mem_cons]

theorem isWellFormedEnv_iff {env : Env} :
    isWellFormedEnv env = true ↔ ∀ p ∈ env, p.2.isWellFormed = true := by
  induction env with
  | nil => simp [isWellFormedEnv]
  | cons p env ih => rw [isWellFormedEnv, Bool.and_eq_true, ih, List.forall_mem_cons]

/-- Fit to be an element of a set or of a multiset, or a key of a map. -/
structure IsElement (v : Value) : Prop where
  firstOrder : v.isFirstOrder = true
  wellFormed : v.isWellFormed = true

theorem isWellFormed_seq {xs : List Value} :
    (seq xs).isWellFormed = true ↔ ∀ x ∈ xs, x.isWellFormed = true := by
  rw [isWellFormed, isWellFormedList_iff]

theorem isWellFormed_set {xs : List Value} :
    (set xs).isWellFormed = true ↔ Ascending.isAscending xs = true ∧ ∀ x ∈ xs, x.IsElement := by
  rw [isWellFormed, Bool.and_eq_true, Bool.and_eq_true, isFirstOrderList_iff, isWellFormedList_iff]
  constructor
  · intro h
    obtain ⟨⟨hasc, hfirst⟩, hform⟩ := h
    exact ⟨hasc, fun x hx => ⟨hfirst x hx, hform x hx⟩⟩
  · intro h
    obtain ⟨hasc, helems⟩ := h
    exact ⟨⟨hasc, fun x hx => (helems x hx).firstOrder⟩, fun x hx => (helems x hx).wellFormed⟩

theorem isWellFormed_multiset {counts : List (Value × Nat)} :
    (multiset counts).isWellFormed = true ↔
      Ascending.Bindings True (fun p => p.1.IsElement ∧ p.2 ≠ 0) counts := by
  rw [isWellFormed, Bool.and_eq_true, Bool.and_eq_true, isFirstOrderCounts_iff,
    isWellFormedCounts_iff]
  constructor
  · intro h
    obtain ⟨⟨hkeys, hfirst⟩, hform⟩ := h
    exact ⟨fun _ => hkeys, fun p hp => ⟨⟨hfirst p hp, (hform p hp).2⟩, (hform p hp).1⟩⟩
  · intro h
    exact ⟨⟨h.ascending trivial, fun p hp => (h.all p hp).1.firstOrder⟩,
      fun p hp => ⟨(h.all p hp).2, (h.all p hp).1.wellFormed⟩⟩

theorem isWellFormed_map {entries : List (Value × Value)} :
    (map entries).isWellFormed = true ↔
      Ascending.Bindings True (fun p => p.1.IsElement ∧ p.2.isWellFormed = true) entries := by
  rw [isWellFormed, Bool.and_eq_true, Bool.and_eq_true, isFirstOrderList_iff,
    isWellFormedEntries_iff, Ascending.keys, List.forall_mem_map]
  constructor
  · intro h
    obtain ⟨⟨hkeys, hfirst⟩, hform⟩ := h
    exact ⟨fun _ => hkeys, fun p hp => ⟨⟨hfirst p hp, (hform p hp).1⟩, (hform p hp).2⟩⟩
  · intro h
    exact ⟨⟨h.ascending trivial, fun p hp => (h.all p hp).1.firstOrder⟩,
      fun p hp => ⟨(h.all p hp).1.wellFormed, (h.all p hp).2⟩⟩

end Value

/-- Ends in a result of which `Q` holds, or fails otherwise than by underflow. -/
abbrev Sound {α : Type} (Q : α → Prop) (x : EvalResult α) : Prop :=
  EndsIn (fun error => error.isUnderflow = false) Q x

private theorem Reads.sound {α : Type} {Q : α → Prop} {x : EvalResult α} (h : Reads Q x) :
    Sound Q x :=
  h.mono_error fun _ herror => herror.2

/-- Ends in a well-formed value, or fails otherwise than by underflow. -/
abbrev KeepsForm (x : EvalResult Value) : Prop :=
  Sound (fun v => v.isWellFormed = true) x

namespace Value

variable {v w x : Value}

private theorem asSeq_sound (hv : v.isWellFormed = true) (op : Operator) :
    Sound (fun xs => ∀ x ∈ xs, x.isWellFormed = true) (v.asSeq op) :=
  (v.asSeq_reads op).sound.mono fun _ heq => isWellFormed_seq.mp (heq ▸ hv)

private theorem asSet_sound (hv : v.isWellFormed = true) (op : Operator) :
    Sound (fun xs => (set xs).isWellFormed = true) (v.asSet op) :=
  (v.asSet_reads op).sound.mono fun _ heq => heq ▸ hv

private theorem asMultiset_sound (hv : v.isWellFormed = true) (op : Operator) :
    Sound (fun counts => (multiset counts).isWellFormed = true) (v.asMultiset op) :=
  (v.asMultiset_reads op).sound.mono fun _ heq => heq ▸ hv

private theorem asMap_sound (hv : v.isWellFormed = true) (op : Operator) :
    Sound (fun entries => (map entries).isWellFormed = true) (v.asMap op) :=
  (v.asMap_reads op).sound.mono fun _ heq => heq ▸ hv

theorem modulus_pos (width : UInt32) : 0 < modulus width :=
  Nat.two_pow_pos width.toNat

theorem isWellFormed_bitVector {width : UInt32} {a : Nat} :
    (bitVector width a).isWellFormed = true ↔ a < modulus width :=
  decide_eq_true_iff

end Value

open Value

namespace NumericOp

private theorem onBitVectors_keepsForm (op : NumericOp) {width : UInt32} {a b : Nat}
    (ha : a < modulus width) (hb : b < modulus width) : KeepsForm (op.onBitVectors width a b) := by
  -- The modulus is added before a magnitude is taken away, so the difference cannot underflow.
  have hmod : ∀ n, n % modulus width < modulus width := fun n => Nat.mod_lt n (modulus_pos width)
  fun_cases onBitVectors op width a b with
  | case3 h =>
    -- Only a magnitude too large for its width could exceed the modulus.
    omega
  | case5 | case7 => exact .error rfl
  | case6 => exact .ok (isWellFormed_bitVector.mpr (Nat.lt_of_le_of_lt (Nat.div_le_self a b) ha))
  | case8 => exact .ok (isWellFormed_bitVector.mpr (Nat.lt_of_le_of_lt (Nat.mod_le a b) ha))
  | _ => exact .ok (isWellFormed_bitVector.mpr (hmod _))

private theorem arithmetic_keepsForm (op : NumericOp) {v w : Value} (hv : v.isWellFormed = true)
    (hw : w.isWellFormed = true) : KeepsForm (op.arithmetic v w) := by
  fun_cases arithmetic op v w with
  | case1 a b =>
    refine (op.onInts_reads a b).sound.mono ?_
    rintro _ ⟨n, rfl⟩
    rfl
  | case2 a b =>
    refine (op.onReals_reads a b).sound.mono ?_
    rintro _ ⟨q, rfl⟩
    rfl
  | case3 =>
    rw [isWellFormed_bitVector] at hv hw
    exact op.onBitVectors_keepsForm hv hw
  | case5 a b =>
    refine (op.onChars_reads a b).sound.mono ?_
    rintro _ ⟨c, rfl⟩
    rfl
  | case6 => exact .ok rfl
  | _ => exact .error (mismatched_reads _ _ _).2

theorem keepsForm (op : NumericOp) {v w : Value} (hv : v.isWellFormed = true)
    (hw : w.isWellFormed = true) : KeepsForm (op.apply v w) := by
  cases op with
  | lt | le | ge | gt => exact (v.compareNumeric_reads w _).sound.bind fun _ _ => .ok rfl
  | _ => exact arithmetic_keepsForm _ hv hw

end NumericOp

namespace BitOp

private theorem magnitude_sound (op : BitOp) (width : UInt32) {w : Value}
    (hw : w.isWellFormed = true) : Sound (fun b => b < modulus width) (op.magnitude width w) :=
  (op.magnitude_reads width w).sound.mono fun _ heq => isWellFormed_bitVector.mp (heq ▸ hw)

theorem keepsForm (op : BitOp) {v w : Value} (hv : v.isWellFormed = true)
    (hw : w.isWellFormed = true) : KeepsForm (op.apply v w) := by
  cases v with
  | bitVector width a =>
    have ha := isWellFormed_bitVector.mp hv
    cases op with
    | shl =>
      refine (shiftAmount_reads _ width w).sound.bind fun n _ => .ok (isWellFormed_bitVector.mpr ?_)
      exact Nat.mod_lt _ (modulus_pos width)
    | shr =>
      refine (shiftAmount_reads _ width w).sound.bind fun n _ => .ok (isWellFormed_bitVector.mpr ?_)
      rw [Nat.shiftRight_eq_div_pow]
      exact Nat.lt_of_le_of_lt (Nat.div_le_self _ _) ha
    | and =>
      refine (magnitude_sound _ width hw).bind fun b hb => .ok (isWellFormed_bitVector.mpr ?_)
      exact Nat.and_lt_two_pow a hb
    | or =>
      refine (magnitude_sound _ width hw).bind fun b hb => .ok (isWellFormed_bitVector.mpr ?_)
      exact Nat.or_lt_two_pow ha hb
    | xor =>
      refine (magnitude_sound _ width hw).bind fun b hb => .ok (isWellFormed_bitVector.mpr ?_)
      exact Nat.xor_lt_two_pow ha hb
  | _ => exact .error rfl

end BitOp

theorem UnaryOp.keepsForm (op : UnaryOp) {v : Value} (hv : v.isWellFormed = true) :
    KeepsForm (op.apply v) := by
  cases op with
  | not => exact (v.asBool_reads _).sound.bind fun _ _ => .ok rfl
  | bitNot =>
    cases v with
    | bitVector width a =>
      have hmask : modulus width - 1 < modulus width := Nat.sub_lt (modulus_pos width) Nat.one_pos
      refine .ok (isWellFormed_bitVector.mpr ?_)
      exact Nat.xor_lt_two_pow hmask (isWellFormed_bitVector.mp hv)
    | _ => exact .error rfl
  | seqLength => exact (asSeq_sound hv _).bind fun _ _ => .ok rfl
  | setCard => exact (asSet_sound hv _).bind fun _ _ => .ok rfl
  | multisetCard => exact (asMultiset_sound hv _).bind fun _ _ => .ok rfl
  | mapCard => exact (asMap_sound hv _).bind fun _ _ => .ok rfl

private theorem BinaryOp.iffValue_keepsForm (v w : Value) : KeepsForm (iffValue v w) :=
  (v.asBool_reads _).sound.bind fun _ _ => (w.asBool_reads _).sound.bind fun _ _ => .ok rfl

theorem EqualityOp.keepsForm (op : EqualityOp) (v w : Value) : KeepsForm (op.apply v w) := by
  cases op <;> exact (v.equals_reads w _).sound.bind fun _ _ => .ok rfl

namespace SetOp

variable {v w : Value}

private theorem onSets_keepsForm (op : SetOp) (hv : v.isWellFormed = true)
    (hw : w.isWellFormed = true) {f : List Value → List Value → Value}
    (hf : ∀ xs ys, (set xs).isWellFormed = true → (set ys).isWellFormed = true →
      (f xs ys).isWellFormed = true) : KeepsForm (op.onSets v w f) :=
  (asSet_sound hv _).bind fun xs hxs => (asSet_sound hw _).bind fun ys hys => .ok (hf xs ys hxs hys)

theorem union_isWellFormed {xs ys : List Value} (hxs : (set xs).isWellFormed = true)
    (hys : (set ys).isWellFormed = true) : (set (Ascending.union xs ys)).isWellFormed = true := by
  rw [isWellFormed_set] at *
  refine ⟨Ascending.isAscending_union hxs.1 ys, fun x hx => ?_⟩
  rcases (Ascending.mem_union xs ys x).mp hx with hx | hx
  · exact hxs.2 x hx
  · exact hys.2 x hx

theorem filter_isWellFormed {xs : List Value} (hxs : (set xs).isWellFormed = true)
    (p : Value → Bool) : (set (xs.filter p)).isWellFormed = true := by
  rw [isWellFormed_set] at *
  refine ⟨Ascending.isAscending_of_sublist List.filter_sublist hxs.1, fun x hx => ?_⟩
  exact hxs.2 x (List.mem_of_mem_filter hx)

theorem keepsForm (op : SetOp) (hv : v.isWellFormed = true) (hw : w.isWellFormed = true) :
    KeepsForm (op.apply v w) := by
  cases op with
  | union => exact onSets_keepsForm _ hv hw fun _ _ hxs hys => union_isWellFormed hxs hys
  | inter => exact onSets_keepsForm _ hv hw fun _ _ hxs _ => filter_isWellFormed hxs _
  | diff => exact onSets_keepsForm _ hv hw fun _ _ hxs _ => filter_isWellFormed hxs _
  | mem | notMem => exact (v.inSet_reads w _).sound.bind fun _ _ => .ok rfl
  | _ => exact onSets_keepsForm _ hv hw fun _ _ _ _ => rfl

end SetOp

namespace Value

variable {xs ys : List (Value × Nat)}

private theorem addCopies_isWellFormed (hxs : (multiset xs).isWellFormed = true) {x : Value}
    (hx : x.IsElement) {n : Nat} (hn : n ≠ 0) :
    (multiset (addCopies xs x n)).isWellFormed = true := by
  rw [isWellFormed_multiset] at *
  exact hxs.put ⟨hx, by omega⟩

theorem sumCounts_isWellFormed (hxs : (multiset xs).isWellFormed = true)
    (hys : (multiset ys).isWellFormed = true) :
    (multiset (sumCounts xs ys)).isWellFormed = true := by
  have hall := (isWellFormed_multiset.mp hys).all
  clear hys
  induction ys generalizing xs with
  | nil => exact hxs
  | cons p ys ih =>
    obtain ⟨hp, hrest⟩ := List.forall_mem_cons.mp hall
    exact ih (addCopies_isWellFormed hxs hp.1 hp.2) hrest

theorem minCounts_isWellFormed (hxs : (multiset xs).isWellFormed = true)
    (ys : List (Value × Nat)) : (multiset (minCounts xs ys)).isWellFormed = true := by
  rw [isWellFormed_multiset] at *
  refine hxs.filterMap fun p hp q hq => ?_
  obtain ⟨helem, hn⟩ := hxs.all p hp
  simp only [Option.ite_none_left_eq_some, Option.some.injEq] at hq
  obtain ⟨hm, rfl⟩ := hq
  exact ⟨rfl, helem, by omega⟩

theorem diffCounts_isWellFormed (hxs : (multiset xs).isWellFormed = true)
    (ys : List (Value × Nat)) : (multiset (diffCounts xs ys)).isWellFormed = true := by
  rw [isWellFormed_multiset] at *
  refine hxs.filterMap fun p hp q hq => ?_
  simp only [Option.ite_none_right_eq_some, Option.some.injEq] at hq
  obtain ⟨hm, rfl⟩ := hq
  exact ⟨rfl, (hxs.all p hp).1, by omega⟩

/-- What is left of an element is what there was of it less what is taken away, without loss. -/
theorem mem_diffCounts {p : Value × Nat} (h : p ∈ diffCounts xs ys) :
    ∃ n, (p.1, n) ∈ xs ∧ p.2 + count ys p.1 = n := by
  obtain ⟨q, hq, hp⟩ := List.mem_filterMap.mp h
  simp only [Option.ite_none_right_eq_some, Option.some.injEq] at hp
  obtain ⟨hm, rfl⟩ := hp
  exact ⟨q.2, hq, by simp only; omega⟩

end Value

namespace MultisetOp

variable {v w : Value}

private theorem onMultisets_keepsForm (op : MultisetOp) (hv : v.isWellFormed = true)
    (hw : w.isWellFormed = true) {f : List (Value × Nat) → List (Value × Nat) → Value}
    (hf : ∀ xs ys, (multiset xs).isWellFormed = true → (multiset ys).isWellFormed = true →
      (f xs ys).isWellFormed = true) : KeepsForm (op.onMultisets v w f) :=
  (asMultiset_sound hv _).bind fun xs hxs =>
    (asMultiset_sound hw _).bind fun ys hys => .ok (hf xs ys hxs hys)

theorem keepsForm (op : MultisetOp) (hv : v.isWellFormed = true) (hw : w.isWellFormed = true) :
    KeepsForm (op.apply v w) := by
  cases op with
  | union => exact onMultisets_keepsForm _ hv hw fun _ _ hxs hys => sumCounts_isWellFormed hxs hys
  | inter => exact onMultisets_keepsForm _ hv hw fun _ ys hxs _ => minCounts_isWellFormed hxs ys
  | diff => exact onMultisets_keepsForm _ hv hw fun _ ys hxs _ => diffCounts_isWellFormed hxs ys
  | mem | notMem => exact (v.inMultiset_reads w _).sound.bind fun _ _ => .ok rfl
  | count =>
    exact (asMultiset_sound hv _).bind fun _ _ =>
      (w.demandComparable_reads _).sound.bind fun _ _ => .ok rfl
  | _ => exact onMultisets_keepsForm _ hv hw fun _ _ _ _ => rfl

end MultisetOp

theorem TernaryOp.updateMultiset_keepsForm {v x : Value} (hv : v.isWellFormed = true)
    (hx : x.isWellFormed = true) (n : Value) : KeepsForm (updateMultiset v x n) := by
  refine (asMultiset_sound hv _).bind fun counts hcounts => ?_
  refine (x.demandComparable_reads _).sound.bind fun _ hfirst => ?_
  refine (n.asInt_reads _).sound.bind fun n _ => ?_
  rw [isWellFormed_multiset] at hcounts
  split
  · exact .error rfl
  · split
    · exact .ok (isWellFormed_multiset.mpr (hcounts.filter _))
    · exact .ok (isWellFormed_multiset.mpr (hcounts.put ⟨⟨hfirst, hx⟩, by simp only; omega⟩))

namespace SeqOp

variable {v w : Value}

theorem keepsForm (op : SeqOp) (hv : v.isWellFormed = true) (hw : w.isWellFormed = true) :
    KeepsForm (op.apply v w) := by
  cases op with
  | eq | neq => exact (v.equalSeqs_reads w _).sound.bind fun _ _ => .ok rfl
  | begins | properlyBegins => exact (v.comparableSeqs_reads w _).sound.bind fun _ _ => .ok rfl
  | mem | notMem => exact (v.inSeq_reads w _).sound.bind fun _ _ => .ok rfl
  | concat =>
    refine (asSeq_sound hv _).bind fun xs hxs => (asSeq_sound hw _).bind fun ys hys => ?_
    exact .ok (isWellFormed_seq.mpr (List.forall_mem_append.mpr ⟨hxs, hys⟩))
  | select =>
    refine (asSeq_sound hv _).bind fun xs hxs => (w.asInt_reads _).sound.bind fun i _ => ?_
    refine (index_reads _ i xs.length).sound.bind fun n _ => ?_
    cases hx : xs[n]? with
    | none => exact .error rfl
    | some x => exact .ok (hxs x (List.mem_of_getElem? hx))
  | take =>
    refine (asSeq_sound hv _).bind fun xs hxs => (w.asInt_reads _).sound.bind fun i _ => ?_
    refine (bound_reads _ i xs.length).sound.bind fun n _ => .ok (isWellFormed_seq.mpr ?_)
    exact fun x hx => hxs x (List.mem_of_mem_take hx)
  | drop =>
    refine (asSeq_sound hv _).bind fun xs hxs => (w.asInt_reads _).sound.bind fun i _ => ?_
    refine (bound_reads _ i xs.length).sound.bind fun n _ => .ok (isWellFormed_seq.mpr ?_)
    exact fun x hx => hxs x (List.mem_of_mem_drop hx)

end SeqOp

private theorem TernaryOp.updateSeq_keepsForm {v x : Value} (hv : v.isWellFormed = true) (i : Value)
    (hx : x.isWellFormed = true) : KeepsForm (updateSeq v i x) := by
  refine (asSeq_sound hv _).bind fun xs hxs => (i.asInt_reads _).sound.bind fun i _ => ?_
  refine (index_reads _ i xs.length).sound.bind fun n _ => .ok (isWellFormed_seq.mpr fun y hy => ?_)
  rcases List.mem_or_eq_of_mem_set hy with hy | rfl
  · exact hxs y hy
  · exact hx

private theorem TernaryOp.subseq_keepsForm {v : Value} (hv : v.isWellFormed = true)
    (lo hi : Value) : KeepsForm (subseq v lo hi) := by
  refine (asSeq_sound hv _).bind fun xs hxs => (lo.asInt_reads _).sound.bind fun i _ => ?_
  refine (bound_reads _ i xs.length).sound.bind fun m _ => ?_
  refine (hi.asInt_reads _).sound.bind fun j _ => ?_
  refine (bound_reads _ j xs.length).sound.bind fun n _ => ?_
  split
  · exact .error rfl
  · refine .ok (isWellFormed_seq.mpr fun x hx => ?_)
    exact hxs x (List.mem_of_mem_drop (List.mem_of_mem_take hx))

namespace MapOp

variable {v w : Value}

theorem keepsForm (op : MapOp) (hv : v.isWellFormed = true) (hw : w.isWellFormed = true) :
    KeepsForm (op.apply v w) := by
  cases op with
  | eq | neq => exact (v.equalMaps_reads w _).sound.bind fun _ _ => .ok rfl
  | mem | notMem => exact (v.inMap_reads w _).sound.bind fun _ _ => .ok rfl
  | merge =>
    refine (asMap_sound hv _).bind fun m hm => (asMap_sound hw _).bind fun n hn => ?_
    rw [isWellFormed_map] at hm hn
    exact .ok (isWellFormed_map.mpr (hm.putAll hn.all))
  | subtract =>
    refine (asMap_sound hv _).bind fun m hm => (asSet_sound hw _).bind fun removed _ => ?_
    exact .ok (isWellFormed_map.mpr ((isWellFormed_map.mp hm).filter _))
  | select =>
    refine (asMap_sound hv _).bind fun m hm => (w.demandComparable_reads _).sound.bind fun _ _ => ?_
    cases hx : Ascending.get? w m with
    | none => exact .error rfl
    | some x => exact .ok ((isWellFormed_map.mp hm).all _ (Ascending.mem_of_get? hx)).2

end MapOp

theorem TernaryOp.updateMap_keepsForm {v k x : Value} (hv : v.isWellFormed = true)
    (hk : k.isWellFormed = true) (hx : x.isWellFormed = true) : KeepsForm (updateMap v k x) := by
  refine (asMap_sound hv _).bind fun m hm => ?_
  refine (k.demandComparable_reads _).sound.bind fun _ hfirst => ?_
  exact .ok (isWellFormed_map.mpr ((isWellFormed_map.mp hm).put ⟨⟨hfirst, hk⟩, hx⟩))

namespace Collection

private theorem pair_sound {elem : Value} (h : elem.isWellFormed = true) :
    Sound (fun p => p.1.IsElement ∧ p.2.isWellFormed = true) (pair elem) := by
  refine (pair_reads elem).sound.mono fun p hp => ?_
  obtain ⟨rfl, hfirst⟩ := hp
  have hparts := isWellFormed_seq.mp h
  exact ⟨⟨hfirst, hparts p.1 (by simp)⟩, hparts p.2 (by simp)⟩

private theorem addPairs_sound {entries : List (Value × Value)} {elems : List Value}
    (hentries : (Value.map entries).isWellFormed = true)
    (helems : ∀ x ∈ elems, x.isWellFormed = true) :
    Sound (fun m => (Value.map m).isWellFormed = true) (addPairs entries elems) := by
  induction elems generalizing entries with
  | nil => exact .ok hentries
  | cons elem rest ih =>
    obtain ⟨helem, hrest⟩ := List.forall_mem_cons.mp helems
    refine (pair_sound helem).bind fun p hp => ?_
    obtain ⟨k, v⟩ := p
    simp only
    split
    · exact .error rfl
    · exact ih (isWellFormed_map.mpr ((isWellFormed_map.mp hentries).put hp)) hrest

private theorem setOf_isWellFormed {elems : List Value} (h : ∀ x ∈ elems, x.IsElement) :
    (Value.setOf elems).isWellFormed = true := by
  refine isWellFormed_set.mpr ⟨Ascending.isAscending_union rfl elems, fun x hx => ?_⟩
  exact h x (by simpa using (Ascending.mem_union [] elems x).mp hx)

private theorem multisetOf_isWellFormed {elems : List Value} (h : ∀ x ∈ elems, x.IsElement) :
    (Value.multisetOf elems).isWellFormed = true := by
  have hadd : ∀ counts, (Value.multiset counts).isWellFormed = true →
      (Value.multiset (elems.foldl (fun acc x => addCopies acc x 1) counts)).isWellFormed =
        true := by
    induction elems with
    | nil => exact fun _ hcounts => hcounts
    | cons elem rest ih =>
      intro counts hcounts
      obtain ⟨helem, hrest⟩ := List.forall_mem_cons.mp h
      exact ih hrest _ (addCopies_isWellFormed hcounts helem Nat.one_ne_zero)
  exact hadd [] (isWellFormed_multiset.mpr .nil)

theorem build_keepsForm (kind : Collection) {elems : List Value}
    (h : ∀ x ∈ elems, x.isWellFormed = true) : KeepsForm (kind.build elems) := by
  cases kind with
  | seq => exact .ok (isWellFormed_seq.mpr h)
  | set =>
    refine (Collection.demandComparable_reads .set elems).sound.bind fun _ hfirst => .ok ?_
    exact setOf_isWellFormed fun x hx => ⟨hfirst x hx, h x hx⟩
  | multiset =>
    refine (Collection.demandComparable_reads .multiset elems).sound.bind fun _ hfirst => .ok ?_
    exact multisetOf_isWellFormed fun x hx => ⟨hfirst x hx, h x hx⟩
  | map => exact (addPairs_sound (isWellFormed_map.mpr .nil) h).bind fun _ hm => .ok hm

end Collection

theorem BinaryOp.keepsForm (op : BinaryOp) {v w : Value} (hv : v.isWellFormed = true)
    (hw : w.isWellFormed = true) : KeepsForm (op.apply v w) := by
  cases op with
  | numeric op => exact op.keepsForm hv hw
  | iff => exact iffValue_keepsForm v w
  | equality op => exact op.keepsForm v w
  | bits op => exact op.keepsForm hv hw
  | set op => exact op.keepsForm hv hw
  | multiset op => exact op.keepsForm hv hw
  | seq op => exact op.keepsForm hv hw
  | map op => exact op.keepsForm hv hw

theorem TernaryOp.keepsForm (op : TernaryOp) {v w x : Value} (hv : v.isWellFormed = true)
    (hw : w.isWellFormed = true) (hx : x.isWellFormed = true) : KeepsForm (op.apply v w x) := by
  cases op with
  | seqUpdate => exact updateSeq_keepsForm hv w hx
  | seqSubseq => exact subseq_keepsForm hv w x
  | multisetUpdate => exact updateMultiset_keepsForm hv hw x
  | mapUpdate => exact updateMap_keepsForm hv hw hx

/-- An operator on well-formed operands, however many, given that calls keep form. -/
theorem EagerOp.applyWith_keepsForm {call : Value → List Value → EvalResult Value}
    (hcall : ∀ f args, f.isWellFormed = true → (∀ v ∈ args, v.isWellFormed = true) →
      KeepsForm (call f args)) (op : EagerOp) {vs : List Value}
    (h : ∀ v ∈ vs, v.isWellFormed = true) : KeepsForm (op.applyWith call vs) := by
  fun_cases EagerOp.applyWith call op vs with
  | case1 op v => exact op.keepsForm (h v (by simp))
  | case2 op v w => exact op.keepsForm (h v (by simp)) (h w (by simp))
  | case3 op v w x => exact op.keepsForm (h v (by simp)) (h w (by simp)) (h x (by simp))
  | case4 kind => exact kind.build_keepsForm h
  | case5 callee args =>
    obtain ⟨hcallee, hargs⟩ := List.forall_mem_cons.mp h
    exact hcall callee args hcallee hargs
  | case6 => exact .error rfl

end CheckedPass
