import CheckedPass.Eval.Operation
import CheckedPass.Proofs.Parametricity
/-!
# Reading operands

Before an operator makes anything it takes its operands apart and tests them: their kinds, whether
they can be compared, where a position lies. Whatever the operands are, this ends in what was read
or in an error about them, and never because a magnitude would fall below zero. Whatever operators
keep of their operands starts from here.
-/

namespace CheckedPass

/-- An error that an operator raises about the operands it was given, enough of them. -/
def EvalError.isOperational : EvalError → Bool
  | .typeMismatch _ _ _ | .duplicateKey _ | .invalid _ _ => true
  | .outOfFuel | .unbound _ | .arityMismatch _ _ => false

/-- Ends in a result of which `Q` holds, or in an error about the operands other than underflow. -/
abbrev Reads {α : Type} (Q : α → Prop) (x : EvalResult α) : Prop :=
  EndsIn (fun error => error.isOperational = true ∧ error.isUnderflow = false) Q x

namespace Value

theorem asBool_reads (v : Value) (site : Site) : Reads (fun b => v = .bool b) (v.asBool site) := by
  cases v with
  | bool b => exact .ok rfl
  | _ => exact .error ⟨rfl, rfl⟩

theorem asInt_reads (v : Value) (op : Operator) : Reads (fun n => v = .int n) (v.asInt op) := by
  cases v with
  | int n => exact .ok rfl
  | _ => exact .error ⟨rfl, rfl⟩

theorem asSeq_reads (v : Value) (op : Operator) : Reads (fun xs => v = .seq xs) (v.asSeq op) := by
  cases v with
  | seq xs => exact .ok rfl
  | _ => exact .error ⟨rfl, rfl⟩

theorem asSeq_eq_ok_iff {v : Value} {op : Operator} {xs : List Value} :
    v.asSeq op = .ok xs ↔ v = .seq xs := by
  constructor
  · exact (v.asSeq_reads op).of_eq_ok
  · rintro rfl
    rfl

theorem asSet_reads (v : Value) (op : Operator) : Reads (fun xs => v = .set xs) (v.asSet op) := by
  cases v with
  | set xs => exact .ok rfl
  | _ => exact .error ⟨rfl, rfl⟩

theorem asMultiset_reads (v : Value) (op : Operator) :
    Reads (fun counts => v = .multiset counts) (v.asMultiset op) := by
  cases v with
  | multiset counts => exact .ok rfl
  | _ => exact .error ⟨rfl, rfl⟩

theorem asMap_reads (v : Value) (op : Operator) :
    Reads (fun entries => v = .map entries) (v.asMap op) := by
  cases v with
  | map entries => exact .ok rfl
  | _ => exact .error ⟨rfl, rfl⟩

theorem demandComparable_reads (v : Value) (op : Operator) :
    Reads (fun _ => v.isFirstOrder = true) (v.demandComparable op) := by
  rw [demandComparable]
  split
  · rename_i h
    exact .ok h
  · exact .error ⟨rfl, rfl⟩

theorem demandComparable_eq_ok {v : Value} (h : v.isFirstOrder = true) (op : Operator) :
    v.demandComparable op = .ok () :=
  if_pos h

theorem equals_reads (v w : Value) (op : Operator) : Reads (fun _ => True) (v.equals op w) :=
  (v.demandComparable_reads op).bind fun _ _ =>
    (w.demandComparable_reads op).bind fun _ _ => .ok trivial

theorem mismatched_reads (op : Operator) (v w : Value) :
    (mismatched op v w).isOperational = true ∧ (mismatched op v w).isUnderflow = false := by
  rw [mismatched]
  split <;> exact ⟨rfl, rfl⟩

theorem compareNumeric_reads (v w : Value) (op : Operator) :
    Reads (fun _ => True) (v.compareNumeric op w) := by
  fun_cases compareNumeric op v w with
  | case6 | case7 => exact .error (mismatched_reads op _ _)
  | _ => exact .ok trivial

theorem inSet_reads (v w : Value) (op : Operator) : Reads (fun _ => True) (v.inSet op w) :=
  (w.asSet_reads op).bind fun _ _ => (v.demandComparable_reads op).bind fun _ _ => .ok trivial

theorem inMultiset_reads (v w : Value) (op : Operator) :
    Reads (fun _ => True) (v.inMultiset op w) :=
  (w.asMultiset_reads op).bind fun _ _ => (v.demandComparable_reads op).bind fun _ _ => .ok trivial

theorem equalSeqs_reads (v w : Value) (op : Operator) : Reads (fun _ => True) (v.equalSeqs op w) :=
  (v.asSeq_reads op).discard.bind fun _ _ => (w.asSeq_reads op).discard.bind fun _ _ =>
    v.equals_reads w op

theorem comparableSeqs_reads (v w : Value) (op : Operator) :
    Reads (fun _ => True) (v.comparableSeqs op w) :=
  (v.asSeq_reads op).bind fun _ _ => (w.asSeq_reads op).bind fun _ _ =>
    (v.demandComparable_reads op).bind fun _ _ =>
      (w.demandComparable_reads op).bind fun _ _ => .ok trivial

theorem inSeq_reads (v w : Value) (op : Operator) : Reads (fun _ => True) (v.inSeq op w) :=
  (w.asSeq_reads op).bind fun _ _ => (v.demandComparable_reads op).bind fun _ _ =>
    (w.demandComparable_reads op).bind fun _ _ => .ok trivial

theorem equalMaps_reads (v w : Value) (op : Operator) : Reads (fun _ => True) (v.equalMaps op w) :=
  (v.asMap_reads op).discard.bind fun _ _ => (w.asMap_reads op).discard.bind fun _ _ =>
    v.equals_reads w op

theorem inMap_reads (v w : Value) (op : Operator) : Reads (fun _ => True) (v.inMap op w) :=
  (w.asMap_reads op).bind fun _ _ => (v.demandComparable_reads op).bind fun _ _ => .ok trivial

/-- Ends in the number `i` exactly if that is a natural number below `limit`. -/
def Locates (i : Int) (limit : Nat) (x : EvalResult Nat) : Prop :=
  ∀ n : Nat, x = .ok n ↔ i = n ∧ n < limit

theorem locates_ite {i : Int} {limit : Nat} {c : Prop} [Decidable c] {error : EvalError}
    (h : c ↔ 0 ≤ i ∧ i < limit) : Locates i limit (if c then .ok i.toNat else .error error) := by
  intro n
  by_cases hc : c
  · have hrange := h.mp hc
    rw [if_pos hc, Except.ok.injEq]
    omega
  · have hrange : ¬(i = n ∧ n < limit) := by
      intro hn
      exact hc (h.mpr (by omega))
    simp [hc, hrange]

section Located

variable {α : Type} {i : Int} {limit : Nat} {x : EvalResult Nat} {f : Nat → α}

theorem Locates.map_eq_ok_iff (h : Locates i limit x) {r : α} :
    (do let n ← x; return f n) = Except.ok r ↔ ∃ n : Nat, i = n ∧ n < limit ∧ f n = r := by
  rw [bind_eq_ok_iff]
  simp only [h _, and_assoc, pure, Except.pure, Except.ok.injEq]

theorem Locates.map_succeeds_iff (h : Locates i limit x) :
    (∃ r, (do let n ← x; return f n) = Except.ok r) ↔ 0 ≤ i ∧ i < limit := by
  simp only [h.map_eq_ok_iff]
  constructor
  · intro hr
    obtain ⟨r, n, hi, hn, -⟩ := hr
    omega
  · intro hi
    exact ⟨f i.toNat, i.toNat, by omega, by omega, rfl⟩

end Located

theorem index_locates (op : Operator) (i : Int) (length : Nat) :
    Locates i length (index op i length) :=
  locates_ite Iff.rfl

theorem bound_locates (op : Operator) (b : Int) (length : Nat) :
    Locates b (length + 1) (bound op b length) :=
  locates_ite (by omega)

theorem index_reads (op : Operator) (i : Int) (length : Nat) :
    Reads (fun _ => True) (index op i length) := by
  rw [index]
  split
  · exact .ok trivial
  · exact .error ⟨rfl, rfl⟩

theorem bound_reads (op : Operator) (b : Int) (length : Nat) :
    Reads (fun _ => True) (bound op b length) := by
  rw [bound]
  split
  · exact .ok trivial
  · exact .error ⟨rfl, rfl⟩

end Value

private theorem Value.charOfCode_reads (op : Operator) (code : Nat) :
    Reads (fun v => ∃ c, v = .char c) (Value.charOfCode op code) := by
  rw [Value.charOfCode]
  split
  · exact .ok ⟨_, rfl⟩
  · exact .error ⟨rfl, rfl⟩

namespace NumericOp

theorem onInts_reads (op : NumericOp) (a b : Int) :
    Reads (fun v => ∃ n, v = .int n) (op.onInts a b) := by
  fun_cases onInts op a b with
  | case4 | case6 => exact .error ⟨rfl, rfl⟩
  | _ => exact .ok ⟨_, rfl⟩

theorem onReals_reads (op : NumericOp) (a b : Rat) :
    Reads (fun v => ∃ q, v = .real q) (op.onReals a b) := by
  fun_cases onReals op a b with
  | case4 | case6 => exact .error ⟨rfl, rfl⟩
  | _ => exact .ok ⟨_, rfl⟩

theorem onChars_reads (op : NumericOp) (a b : Char) :
    Reads (fun v => ∃ c, v = .char c) (op.onChars a b) := by
  fun_cases onChars op a b with
  | case1 | case2 => exact Value.charOfCode_reads _ _
  | _ => exact .error ⟨rfl, rfl⟩

end NumericOp

namespace BitOp

theorem shiftAmount_reads (op : BitOp) (width : UInt32) (w : Value) :
    Reads (fun _ => True) (op.shiftAmount width w) := by
  fun_cases shiftAmount op width w with
  | case1 | case3 => exact .ok trivial
  | _ => exact .error ⟨rfl, rfl⟩

theorem magnitude_reads (op : BitOp) (width : UInt32) (w : Value) :
    Reads (fun b => w = .bitVector width b) (op.magnitude width w) := by
  fun_cases magnitude op width w with
  | case1 => exact .ok rfl
  | _ => exact .error ⟨rfl, rfl⟩

end BitOp

namespace Collection

theorem demandComparable_reads (kind : Collection) (elems : List Value) :
    Reads (fun _ => ∀ x ∈ elems, x.isFirstOrder = true) (kind.demandComparable elems) := by
  induction elems with
  | nil => exact .ok (List.forall_mem_nil _)
  | cons elem rest ih =>
    refine (elem.demandComparable_reads _).bind fun _ hfirst => ih.mono fun _ hrest => ?_
    exact List.forall_mem_cons.mpr ⟨hfirst, hrest⟩

theorem pair_reads (elem : Value) :
    Reads (fun p => elem = .seq [p.1, p.2] ∧ p.1.isFirstOrder = true) (pair elem) := by
  refine (elem.asSeq_reads _).bind fun parts hparts => ?_
  match parts with
  | [k, v] => exact (k.demandComparable_reads _).bind fun _ hfirst => .ok ⟨hparts, hfirst⟩
  | [] | [_] | _ :: _ :: _ :: _ => exact .error ⟨rfl, rfl⟩

end Collection

end CheckedPass
