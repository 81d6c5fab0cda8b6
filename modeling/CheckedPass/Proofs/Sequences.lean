import CheckedPass.Proofs.Sets
/-!
# Sequences

An index names an element, so it lies strictly below the length; a bound names a cut, and there is
one at the very end as well. Every number of either sort is refused outside its range, however large
or negative it is. Within the range selecting, cutting and replacing are what they are on lists.
-/

namespace CheckedPass

namespace Value

variable {xs ys : List Value} {i : Int} {r v x : Value}

private theorem select_seq (xs : List Value) (i : Int) :
    (BinaryOp.seq .select).apply (seq xs) (int i) = (do
      let n ← index SeqOp.select.operator i xs.length
      match xs[n]? with
      | some x => return x
      | none => .error (.invalid SeqOp.select.operator (.indexOutOfRange i xs.length))) :=
  rfl

private theorem select_seq_eq_ok_iff :
    (BinaryOp.seq .select).apply (seq xs) (int i) = .ok x ↔ ∃ n : Nat, i = n ∧ xs[n]? = some x := by
  rw [select_seq, bind_eq_ok_iff]
  constructor
  · intro h
    obtain ⟨n, hindex, hx⟩ := h
    obtain ⟨hi, hn⟩ := (index_locates _ _ _ n).mp hindex
    have hget := List.getElem?_eq_getElem hn
    rw [hget] at hx
    exact ⟨n, hi, hget.trans (congrArg some (Except.ok.inj hx))⟩
  · intro h
    obtain ⟨n, hi, hx⟩ := h
    have hn : n < xs.length := (List.getElem?_eq_some_iff.mp hx).1
    refine ⟨n, (index_locates _ _ _ n).mpr ⟨hi, hn⟩, ?_⟩
    rw [hx]
    rfl

private theorem select_seq_congr (hlen : xs.length = ys.length)
    (h : ∀ n : Nat, i = n → xs[n]? = ys[n]?) :
    (BinaryOp.seq .select).apply (seq xs) (int i) =
      (BinaryOp.seq .select).apply (seq ys) (int i) := by
  rw [select_seq, select_seq, hlen]
  cases hindex : index SeqOp.select.operator i ys.length with
  | error error => rfl
  | ok n =>
    have hn : xs[n]? = ys[n]? := h n ((index_locates _ _ _ n).mp hindex).1
    simp only [bind, Except.bind, hn]

private theorem seqUpdate_eq_ok_iff : TernaryOp.seqUpdate.apply (seq xs) (int i) v = .ok r ↔
    ∃ n : Nat, i = n ∧ n < xs.length ∧ seq (xs.set n v) = r :=
  (index_locates _ i xs.length).map_eq_ok_iff

private theorem select_seqUpdate (h : TernaryOp.seqUpdate.apply (seq xs) (int i) v = .ok r)
    (j : Int) :
    (BinaryOp.seq .select).apply r (int j) =
      if i = j then .ok v else (BinaryOp.seq .select).apply (seq xs) (int j) := by
  obtain ⟨n, hi, hn, rfl⟩ := seqUpdate_eq_ok_iff.mp h
  by_cases hj : i = j
  · rw [if_pos hj, select_seq_eq_ok_iff]
    exact ⟨n, hj.symm.trans hi, List.getElem?_set_self hn⟩
  · rw [if_neg hj]
    apply select_seq_congr List.length_set
    intro m hm
    have hne : n ≠ m := by omega
    exact List.getElem?_set_ne hne

private theorem select_append :
    (i < xs.length → ((BinaryOp.seq .select).apply (seq (xs ++ ys)) (int i) = .ok x ↔
      (BinaryOp.seq .select).apply (seq xs) (int i) = .ok x)) ∧
    (xs.length ≤ i → ((BinaryOp.seq .select).apply (seq (xs ++ ys)) (int i) = .ok x ↔
      (BinaryOp.seq .select).apply (seq ys) (int (i - xs.length)) = .ok x)) := by
  simp only [select_seq_eq_ok_iff]
  constructor
  · intro hi
    apply exists_congr
    intro n
    apply and_congr_right
    intro hn
    have hlt : n < xs.length := by omega
    rw [List.getElem?_append_left hlt]
  · intro hi
    constructor
    · intro h
      obtain ⟨n, hn, hx⟩ := h
      have hle : xs.length ≤ n := by omega
      rw [List.getElem?_append_right hle] at hx
      exact ⟨n - xs.length, by omega, hx⟩
    · intro h
      obtain ⟨m, hm, hx⟩ := h
      have hget : (xs ++ ys)[m + xs.length]? = ys[m]? := by
        rw [List.getElem?_append_right (Nat.le_add_left _ _), Nat.add_sub_cancel]
      exact ⟨m + xs.length, by omega, hget.trans hx⟩

private theorem take_eq_ok_iff : (BinaryOp.seq .take).apply (seq xs) (int i) = .ok r ↔
    ∃ n : Nat, i = n ∧ n < xs.length + 1 ∧ seq (xs.take n) = r :=
  (bound_locates _ i xs.length).map_eq_ok_iff

private theorem drop_eq_ok_iff : (BinaryOp.seq .drop).apply (seq xs) (int i) = .ok r ↔
    ∃ n : Nat, i = n ∧ n < xs.length + 1 ∧ seq (xs.drop n) = r :=
  (bound_locates _ i xs.length).map_eq_ok_iff

private theorem subseq_eq_ok_iff {lo hi : Int} :
    TernaryOp.seqSubseq.apply (seq xs) (int lo) (int hi) = .ok r ↔
      ∃ m n : Nat, lo = m ∧ hi = n ∧ m ≤ n ∧ n ≤ xs.length ∧
        seq ((xs.drop m).take (n - m)) = r := by
  let op : Operator := .eager (.ternary .seqSubseq)
  have hsteps : TernaryOp.seqSubseq.apply (seq xs) (int lo) (int hi) = (do
      let m ← bound op lo xs.length
      let n ← bound op hi xs.length
      if n < m then .error (.invalid op (.emptyRange m n))
      else return .seq ((xs.drop m).take (n - m))) := rfl
  rw [hsteps]
  simp only [bind_eq_ok_iff, bound_locates op lo xs.length _, bound_locates op hi xs.length _]
  constructor
  · intro h
    obtain ⟨m, ⟨hlo, -⟩, n, ⟨hhi, hn⟩, hr⟩ := h
    by_cases hlt : n < m
    · rw [if_pos hlt] at hr
      cases hr
    · rw [if_neg hlt] at hr
      exact ⟨m, n, hlo, hhi, by omega, by omega, Except.ok.inj hr⟩
  · intro h
    obtain ⟨m, n, hlo, hhi, hmn, hn, rfl⟩ := h
    have hnot : ¬n < m := by omega
    refine ⟨m, ⟨hlo, by omega⟩, n, ⟨hhi, by omega⟩, ?_⟩
    rw [if_neg hnot]
    rfl

private theorem concat_eq_ok_iff : (BinaryOp.seq .concat).apply (seq xs) v = .ok r ↔
    ∃ rest, v = seq rest ∧ seq (xs ++ rest) = r := by
  have hsteps : (BinaryOp.seq .concat).apply (seq xs) v = (do
      let rest ← v.asSeq SeqOp.concat.operator
      return seq (xs ++ rest)) := rfl
  rw [hsteps, bind_eq_ok_iff]
  simp [asSeq_eq_ok_iff, pure, Except.pure]

private theorem startsWith_iff : startsWith ys xs = true ↔ ∃ rest, xs ++ rest = ys := by
  induction xs generalizing ys with
  | nil => simp [startsWith]
  | cons x xs ih =>
    cases ys with
    | nil => simp [startsWith]
    | cons y ys =>
      have hstep : startsWith (y :: ys) (x :: xs) = (decide (x = y) && startsWith ys xs) := by
        simp [startsWith, Bool.and_left_comm]
      rw [hstep, Bool.and_eq_true, decide_eq_true_iff, ih]
      simp

private theorem startsWith_shorter_iff : (startsWith ys xs && xs.length < ys.length) = true ↔
    ∃ rest, rest ≠ [] ∧ xs ++ rest = ys := by
  rw [Bool.and_eq_true, startsWith_iff, decide_eq_true_iff]
  constructor
  · intro h
    obtain ⟨⟨rest, rfl⟩, hlen⟩ := h
    have hrest : rest ≠ [] := by
      intro hnil
      simp [hnil] at hlen
    exact ⟨rest, hrest, rfl⟩
  · intro h
    obtain ⟨rest, hrest, rfl⟩ := h
    have hpos := List.length_pos_iff.mpr hrest
    have hlen : xs.length < (xs ++ rest).length := by
      rw [List.length_append]
      omega
    exact ⟨⟨rest, rfl⟩, hlen⟩

private theorem comparableSeqs_eq_ok {op : Operator} (hxs : (seq xs).isFirstOrder = true)
    (hys : (seq ys).isFirstOrder = true) : (seq xs).comparableSeqs op (seq ys) = .ok (xs, ys) := by
  simp only [comparableSeqs, asSeq, demandComparable_eq_ok hxs, demandComparable_eq_ok hys]
  rfl

end Value

open Value

/-- The laws of selecting, cutting and replacing, for a sequence of `n` elements and another one. -/
structure SeqLaws (s t : Value) (n : Nat) : Prop where
  length : UnaryOp.seqLength.apply s = .ok (.int n)
  take : ∀ i : Int, (∃ a, (BinaryOp.seq .take).apply s (.int i) = .ok a) ↔ 0 ≤ i ∧ i ≤ n
  drop : ∀ i : Int, (∃ b, (BinaryOp.seq .drop).apply s (.int i) = .ok b) ↔ 0 ≤ i ∧ i ≤ n
  rejoin : ∀ (i : Int) (a b : Value), (BinaryOp.seq .take).apply s (.int i) = .ok a →
    (BinaryOp.seq .drop).apply s (.int i) = .ok b → (BinaryOp.seq .concat).apply a b = .ok s
  subseq : ∀ lo hi : Int, (∃ r, TernaryOp.seqSubseq.apply s (.int lo) (.int hi) = .ok r) ↔
    0 ≤ lo ∧ lo ≤ hi ∧ hi ≤ n
  between : ∀ (lo hi : Int) (r : Value),
    TernaryOp.seqSubseq.apply s (.int lo) (.int hi) = .ok r →
      ∃ a, (BinaryOp.seq .take).apply s (.int hi) = .ok a ∧
        (BinaryOp.seq .drop).apply a (.int lo) = .ok r
  select : ∀ i : Int, (∃ x, (BinaryOp.seq .select).apply s (.int i) = .ok x) ↔ 0 ≤ i ∧ i < n
  update : ∀ (i : Int) (v : Value),
    (∃ r, TernaryOp.seqUpdate.apply s (.int i) v = .ok r) ↔ 0 ≤ i ∧ i < n
  /-- A replacement shows at its index and nowhere else. -/
  updated : ∀ (i : Int) (v r : Value), TernaryOp.seqUpdate.apply s (.int i) v = .ok r →
    UnaryOp.seqLength.apply r = .ok (.int n) ∧
      ∀ j : Int, (BinaryOp.seq .select).apply r (.int j) =
        if i = j then .ok v else (BinaryOp.seq .select).apply s (.int j)
  concat : Yields (fun r => ∀ (i : Int) (x : Value),
      (i < n → ((BinaryOp.seq .select).apply r (.int i) = .ok x ↔
        (BinaryOp.seq .select).apply s (.int i) = .ok x)) ∧
      (n ≤ i → ((BinaryOp.seq .select).apply r (.int i) = .ok x ↔
        (BinaryOp.seq .select).apply t (.int (i - n)) = .ok x)))
    ((BinaryOp.seq .concat).apply s t)
  begins : s.isFirstOrder = true → t.isFirstOrder = true →
    Decides (∃ rest, (BinaryOp.seq .concat).apply s rest = .ok t) ((BinaryOp.seq .begins).apply s t)
  properlyBegins : s.isFirstOrder = true → t.isFirstOrder = true →
    Decides (∃ rest, rest ≠ [] ∧ (BinaryOp.seq .concat).apply s (.seq rest) = .ok t)
      ((BinaryOp.seq .properlyBegins).apply s t)

/-- The operators on sequences obey the laws of slicing, with exact bounds. -/
theorem sequence_operators_obey_laws (xs ys : List Value) :
    SeqLaws (.seq xs) (.seq ys) xs.length := by
  constructor
  case length => rfl
  case take =>
    intro i
    apply (bound_locates _ i xs.length).map_succeeds_iff.trans
    omega
  case drop =>
    intro i
    apply (bound_locates _ i xs.length).map_succeeds_iff.trans
    omega
  case rejoin =>
    intro i a b ha hb
    obtain ⟨n, hn, -, rfl⟩ := take_eq_ok_iff.mp ha
    obtain ⟨m, hm, -, rfl⟩ := drop_eq_ok_iff.mp hb
    have hnm : n = m := by omega
    subst hnm
    exact concat_eq_ok_iff.mpr ⟨_, rfl, congrArg seq (List.take_append_drop n xs)⟩
  case subseq =>
    intro lo hi
    simp only [subseq_eq_ok_iff]
    constructor
    · intro h
      obtain ⟨_, m, n, hlo, hhi, hmn, hn, -⟩ := h
      omega
    · intro h
      exact ⟨_, lo.toNat, hi.toNat, by omega, by omega, by omega, by omega, rfl⟩
  case between =>
    intro lo hi r hr
    obtain ⟨m, n, hlo, hhi, hmn, hn, rfl⟩ := subseq_eq_ok_iff.mp hr
    have hlen : m < (xs.take n).length + 1 := by
      rw [List.length_take_of_le hn]
      omega
    refine ⟨_, take_eq_ok_iff.mpr ⟨n, hhi, by omega, rfl⟩, ?_⟩
    exact drop_eq_ok_iff.mpr ⟨m, hlo, hlen, congrArg seq List.drop_take⟩
  case select =>
    intro i
    simp only [select_seq_eq_ok_iff]
    constructor
    · intro h
      obtain ⟨x, n, hi, hx⟩ := h
      have hn : n < xs.length := (List.getElem?_eq_some_iff.mp hx).1
      omega
    · intro hi
      have hn : i.toNat < xs.length := by omega
      exact ⟨_, i.toNat, by omega, List.getElem?_eq_getElem hn⟩
  case update => exact fun i v => (index_locates _ i xs.length).map_succeeds_iff
  case updated =>
    intro i v r hr
    refine ⟨?_, select_seqUpdate hr⟩
    obtain ⟨n, -, -, rfl⟩ := seqUpdate_eq_ok_iff.mp hr
    have hlen : UnaryOp.seqLength.apply (.seq (xs.set n v)) = .ok (.int (xs.set n v).length) := rfl
    rw [hlen, List.length_set]
  case concat => exact ⟨_, rfl, fun i x => select_append⟩
  case begins =>
    intro hxs hys
    have hbegins : (BinaryOp.seq .begins).apply (.seq xs) (.seq ys) =
        .ok (.bool (startsWith ys xs)) := by
      simp only [BinaryOp.apply, SeqOp.apply, comparableSeqs_eq_ok hxs hys]
      rfl
    rw [hbegins]
    apply decides_ok
    simp [startsWith_iff, concat_eq_ok_iff]
  case properlyBegins =>
    intro hxs hys
    have hbegins : (BinaryOp.seq .properlyBegins).apply (.seq xs) (.seq ys) =
        .ok (.bool (startsWith ys xs && xs.length < ys.length)) := by
      simp only [BinaryOp.apply, SeqOp.apply, comparableSeqs_eq_ok hxs hys]
      rfl
    rw [hbegins]
    apply decides_ok
    simp only [startsWith_shorter_iff, concat_eq_ok_iff]
    simp

example : TernaryOp.seqSubseq.apply (.seq [.unit, .int 7]) (.int 2) (.int 2) = .ok (.seq []) ∧
    (BinaryOp.seq .select).apply (.seq [.unit, .int 7]) (.int 2) =
      .error (.invalid SeqOp.select.operator (.indexOutOfRange 2 2)) := by decide

end CheckedPass
