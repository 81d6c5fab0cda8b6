import CheckedPass.Eval.Operation
import CheckedPass.Proofs.Likeness
/-!
# Operators on alike operands

Alike operands give alike results, or fail with one and the same error. Operators that look at
single values, sets, multisets or comparable values only cannot tell alike operands apart at all.
-/

namespace CheckedPass

namespace Likeness

variable {S : Value → Value → Prop} {v v' w w' x x' : Value}

theorem asBool_eq (hS : Likeness S) (h : S v v') (site : Site) :
    v.asBool site = v'.asBool site :=
  hS.congr h _ (fun _ _ => rfl) (fun _ _ => rfl) fun _ _ _ _ _ _ => rfl

private theorem asInt_eq (hS : Likeness S) (h : S v v') (op : Operator) :
    v.asInt op = v'.asInt op :=
  hS.congr h _ (fun _ _ => rfl) (fun _ _ => rfl) fun _ _ _ _ _ _ => rfl

private theorem asSet_eq (hS : Likeness S) (h : S v v') (op : Operator) :
    v.asSet op = v'.asSet op :=
  hS.congr h _ (fun _ _ => rfl) (fun _ _ => rfl) fun _ _ _ _ _ _ => rfl

private theorem asMultiset_eq (hS : Likeness S) (h : S v v') (op : Operator) :
    v.asMultiset op = v'.asMultiset op :=
  hS.congr h _ (fun _ _ => rfl) (fun _ _ => rfl) fun _ _ _ _ _ _ => rfl

private theorem asSeq_forms (hS : Likeness S) (h : S v v') (op : Operator) :
    Together Eq (fun xs ys => v = .seq xs ∧ v' = .seq ys) (v.asSeq op) (v'.asSeq op) := by
  cases v with
  | seq xs =>
    obtain ⟨ys, rfl, -⟩ := hS.seq_left h
    exact .ok ⟨rfl, rfl⟩
  | map xs =>
    obtain ⟨ys, rfl, -⟩ := hS.map_left h
    exact .error rfl
  | closure env ps b =>
    obtain ⟨env', ps', b', rfl⟩ := hS.closure_left h
    exact .error rfl
  | _ =>
    obtain rfl := hS.flat h rfl
    exact .error rfl

private theorem asSeq_like (hS : Likeness S) (h : S v v') (op : Operator) :
    Together Eq (List.Forall₂ S) (v.asSeq op) (v'.asSeq op) := by
  refine (hS.asSeq_forms h op).mono (fun _ _ => id) ?_
  rintro xs ys ⟨rfl, rfl⟩
  exact hS.seq.mp h

private theorem asMap_like (hS : Likeness S) (h : S v v') (op : Operator) :
    Together Eq (List.Forall₂ (SameKey S)) (v.asMap op) (v'.asMap op) := by
  cases v with
  | seq xs =>
    obtain ⟨ys, rfl, -⟩ := hS.seq_left h
    exact .error rfl
  | map xs =>
    obtain ⟨ys, rfl, hxy⟩ := hS.map_left h
    exact .ok hxy
  | closure env ps b =>
    obtain ⟨env', ps', b', rfl⟩ := hS.closure_left h
    exact .error rfl
  | _ =>
    obtain rfl := hS.flat h rfl
    exact .error rfl

theorem unexpected_eq (hS : Likeness S) (h : S v v') (op : Operator) (expected : Expectation) :
    EvalError.unexpected op expected v = .unexpected op expected v' := by
  rw [EvalError.unexpected, hS.kind_eq h, ← EvalError.unexpected]

private theorem demand {α β : Type} {A : α → β → Prop} (hS : Likeness S) (h : S v v')
    (op : Operator) {k : EvalResult α} {k' : EvalResult β} (hk : v = v' → Together Eq A k k') :
    Together Eq A (do v.demandComparable op; k) (do v'.demandComparable op; k') := by
  obtain ⟨hfo, heq⟩ := hS.firstOrder h
  by_cases hv : v.isFirstOrder = true
  · have hd : v.demandComparable op = .ok () := if_pos hv
    have hd' : v'.demandComparable op = .ok () := if_pos (hfo ▸ hv)
    rw [hd, hd']
    exact hk (heq hv)
  · have hd : v.demandComparable op = .error (.unexpected op .comparable v) := if_neg hv
    have hd' : v'.demandComparable op = .error (.unexpected op .comparable v') :=
      if_neg (hfo ▸ hv)
    rw [hd, hd']
    exact .error (hS.unexpected_eq h op .comparable)

private theorem demand_eq {α : Type} (hS : Likeness S) (h : S v v') (op : Operator)
    {k k' : EvalResult α} (hk : v = v' → k = k') :
    (do v.demandComparable op; k) = (do v'.demandComparable op; k') :=
  (hS.demand h op fun e => hk e ▸ .refl (fun _ => rfl) (fun _ => rfl) k).eq

private theorem equals_eq (hS : Likeness S) (hv : S v v') (hw : S w w') (op : Operator) :
    v.equals op w = v'.equals op w' :=
  hS.demand_eq hv op fun ev => hS.demand_eq hw op fun ew => by rw [ev, ew]

theorem same (hS : Likeness S) {r r' : EvalResult Value} (h : r = r') : Together Eq S r r' :=
  h ▸ .refl (fun _ => rfl) hS.refl r

private theorem unary_eq (hS : Likeness S) (h : S v v') (op : UnaryOp) :
    op.apply v = op.apply v' := by
  cases op with
  | not => simp only [UnaryOp.apply, hS.asBool_eq h]
  | bitNot => exact hS.congr h _ (fun _ _ => rfl) (fun _ _ => rfl) fun _ _ _ _ _ _ => rfl
  | seqLength =>
    refine Together.eq ((hS.asSeq_like h _).bind fun xs ys hxy => .ok ?_)
    rw [hxy.length_eq]
  | setCard => simp only [UnaryOp.apply, hS.asSet_eq h]
  | multisetCard => simp only [UnaryOp.apply, hS.asMultiset_eq h]
  | mapCard =>
    refine Together.eq ((hS.asMap_like h _).bind fun xs ys hxy => .ok ?_)
    rw [hxy.length_eq]

private theorem numeric_eq (hS : Likeness S) (hv : S v v') (hw : S w w') (op : NumericOp) :
    op.apply v w = op.apply v' w' := by
  have hleft : op.apply v w = op.apply v' w := by
    apply hS.congr hv fun v => op.apply v w <;> intros <;> cases op <;> rfl
  have hright : op.apply v' w = op.apply v' w' := by
    apply hS.congr hw fun w => op.apply v' w <;> intros <;> cases op <;> cases v' <;> rfl
  rw [hleft, hright]

private theorem bits_eq (hS : Likeness S) (hv : S v v') (hw : S w w') (op : BitOp) :
    op.apply v w = op.apply v' w' := by
  have hleft : op.apply v w = op.apply v' w :=
    hS.congr hv (op.apply · w) (fun _ _ => rfl) (fun _ _ => rfl) fun _ _ _ _ _ _ => rfl
  have hright : op.apply v' w = op.apply v' w' := by
    apply hS.congr hw fun w => op.apply v' w <;> intros <;> cases op <;> cases v' <;> rfl
  rw [hleft, hright]

private theorem iff_eq (hS : Likeness S) (hv : S v v') (hw : S w w') :
    BinaryOp.iffValue v w = BinaryOp.iffValue v' w' := by
  simp only [BinaryOp.iffValue, hS.asBool_eq hv, hS.asBool_eq hw]

private theorem equality_eq (hS : Likeness S) (hv : S v v') (hw : S w w') (op : EqualityOp) :
    op.apply v w = op.apply v' w' := by
  cases op <;> simp only [EqualityOp.apply, hS.equals_eq hv hw]

private theorem inSet_eq (hS : Likeness S) (hx : S x x') (hv : S v v') (op : Operator) :
    x.inSet op v = x'.inSet op v' := by
  simp only [Value.inSet, hS.asSet_eq hv]
  congr 1
  funext elems
  exact hS.demand_eq hx op fun e => by rw [e]

private theorem set_eq (hS : Likeness S) (hv : S v v') (hw : S w w') (op : SetOp) :
    op.apply v w = op.apply v' w' := by
  cases op <;>
    simp only [SetOp.apply, SetOp.onSets, hS.asSet_eq hv, hS.asSet_eq hw, hS.inSet_eq hv hw]

private theorem inMultiset_eq (hS : Likeness S) (hx : S x x') (hv : S v v') (op : Operator) :
    x.inMultiset op v = x'.inMultiset op v' := by
  simp only [Value.inMultiset, hS.asMultiset_eq hv]
  congr 1
  funext counts
  exact hS.demand_eq hx op fun e => by rw [e]

private theorem multiset_eq (hS : Likeness S) (hv : S v v') (hw : S w w') (op : MultisetOp) :
    op.apply v w = op.apply v' w' := by
  cases op with
  | count =>
    simp only [MultisetOp.apply, hS.asMultiset_eq hv]
    congr 1
    funext counts
    exact hS.demand_eq hw _ fun e => by rw [e]
  | _ =>
    simp only [MultisetOp.apply, MultisetOp.onMultisets, hS.asMultiset_eq hv, hS.asMultiset_eq hw,
      hS.inMultiset_eq hv hw]

private theorem updateMultiset_eq (hS : Likeness S) (hv : S v v') (hw : S w w') (hx : S x x') :
    TernaryOp.updateMultiset v w x = TernaryOp.updateMultiset v' w' x' := by
  simp only [TernaryOp.updateMultiset, hS.asMultiset_eq hv, hS.asInt_eq hx]
  congr 1
  funext counts
  exact hS.demand_eq hw _ fun e => by rw [e]

private theorem equalSeqs_eq (hS : Likeness S) (hv : S v v') (hw : S w w') (op : Operator) :
    v.equalSeqs op w = v'.equalSeqs op w' := by
  refine Together.eq ((hS.asSeq_like hv op).discard.bind fun _ _ _ =>
    (hS.asSeq_like hw op).discard.bind fun _ _ _ => ?_)
  rw [hS.equals_eq hv hw]
  exact .refl (fun _ => rfl) (fun _ => rfl) _

private theorem comparableSeqs_eq (hS : Likeness S) (hv : S v v') (hw : S w w') (op : Operator) :
    v.comparableSeqs op w = v'.comparableSeqs op w' := by
  refine Together.eq ((hS.asSeq_forms hv op).bind ?_)
  rintro xs xs' ⟨rfl, rfl⟩
  refine (hS.asSeq_forms hw op).bind ?_
  rintro ys ys' ⟨rfl, rfl⟩
  refine hS.demand hv op fun ev => hS.demand hw op fun ew => .ok ?_
  rw [Value.seq.inj ev, Value.seq.inj ew]

private theorem inSeq_eq (hS : Likeness S) (hx : S x x') (hv : S v v') (op : Operator) :
    x.inSeq op v = x'.inSeq op v' := by
  refine Together.eq ((hS.asSeq_forms hv op).bind ?_)
  rintro xs ys ⟨rfl, rfl⟩
  refine hS.demand hx op fun ex => hS.demand hv op fun ev => .ok ?_
  rw [ex, Value.seq.inj ev]

private theorem getElem?_like {xs ys : List Value} (h : List.Forall₂ S xs ys) (n : Nat) :
    Option.Rel S xs[n]? ys[n]? := by
  induction h generalizing n with
  | nil => exact .none
  | cons hxy _ ih =>
    cases n with
    | zero => exact .some hxy
    | succ n => simpa using ih n

private theorem set_like {xs ys : List Value} (h : List.Forall₂ S xs ys) (hx : S x x') (n : Nat) :
    List.Forall₂ S (xs.set n x) (ys.set n x') := by
  induction h generalizing n with
  | nil => exact .nil
  | cons hxy hrest ih =>
    cases n with
    | zero => exact .cons hx hrest
    | succ n => exact .cons hxy (ih n)

private theorem seq_like (hS : Likeness S) (hv : S v v') (hw : S w w') (op : SeqOp) :
    Together Eq S (op.apply v w) (op.apply v' w') := by
  cases op with
  | eq => exact hS.same (by simp only [SeqOp.apply, hS.equalSeqs_eq hv hw])
  | neq => exact hS.same (by simp only [SeqOp.apply, hS.equalSeqs_eq hv hw])
  | begins => exact hS.same (by simp only [SeqOp.apply, hS.comparableSeqs_eq hv hw])
  | properlyBegins => exact hS.same (by simp only [SeqOp.apply, hS.comparableSeqs_eq hv hw])
  | mem => exact hS.same (by simp only [SeqOp.apply, hS.inSeq_eq hv hw])
  | notMem => exact hS.same (by simp only [SeqOp.apply, hS.inSeq_eq hv hw])
  | concat =>
    refine (hS.asSeq_like hv _).bind fun xs xs' hxs => ?_
    refine (hS.asSeq_like hw _).bind fun ys ys' hys => ?_
    exact .ok (hS.seq.mpr (List.rel_append hxs hys))
  | select =>
    refine (hS.asSeq_like hv _).bind fun xs xs' hxs => ?_
    rw [hS.asInt_eq hw, hxs.length_eq]
    refine .bind_same (fun _ => rfl) _ fun i => .bind_same (fun _ => rfl) _ fun n => ?_
    have hget := getElem?_like hxs n
    generalize xs[n]? = y, xs'[n]? = y' at hget
    cases hget with
    | none => exact .error rfl
    | some hy => exact .ok hy
  | take =>
    refine (hS.asSeq_like hv _).bind fun xs xs' hxs => ?_
    rw [hS.asInt_eq hw, hxs.length_eq]
    refine .bind_same (fun _ => rfl) _ fun i => .bind_same (fun _ => rfl) _ fun n => ?_
    exact .ok (hS.seq.mpr (List.forall₂_take n hxs))
  | drop =>
    refine (hS.asSeq_like hv _).bind fun xs xs' hxs => ?_
    rw [hS.asInt_eq hw, hxs.length_eq]
    refine .bind_same (fun _ => rfl) _ fun i => .bind_same (fun _ => rfl) _ fun n => ?_
    exact .ok (hS.seq.mpr (List.forall₂_drop n hxs))

private theorem updateSeq_like (hS : Likeness S) (hv : S v v') (hw : S w w') (hx : S x x') :
    Together Eq S (TernaryOp.updateSeq v w x) (TernaryOp.updateSeq v' w' x') := by
  refine (hS.asSeq_like hv _).bind fun xs xs' hxs => ?_
  rw [hS.asInt_eq hw, hxs.length_eq]
  refine .bind_same (fun _ => rfl) _ fun i => .bind_same (fun _ => rfl) _ fun n => ?_
  exact .ok (hS.seq.mpr (set_like hxs hx n))

private theorem subseq_like (hS : Likeness S) (hv : S v v') (hw : S w w') (hx : S x x') :
    Together Eq S (TernaryOp.subseq v w x) (TernaryOp.subseq v' w' x') := by
  refine (hS.asSeq_like hv _).bind fun xs xs' hxs => ?_
  rw [hS.asInt_eq hw, hS.asInt_eq hx, hxs.length_eq]
  refine .bind_same (fun _ => rfl) _ fun i => .bind_same (fun _ => rfl) _ fun m => ?_
  refine .bind_same (fun _ => rfl) _ fun j => .bind_same (fun _ => rfl) _ fun n => ?_
  split
  · exact .error rfl
  · exact .ok (hS.seq.mpr (List.forall₂_take _ (List.forall₂_drop _ hxs)))

private theorem equalMaps_eq (hS : Likeness S) (hv : S v v') (hw : S w w') (op : Operator) :
    v.equalMaps op w = v'.equalMaps op w' := by
  refine Together.eq ((hS.asMap_like hv op).discard.bind fun _ _ _ =>
    (hS.asMap_like hw op).discard.bind fun _ _ _ => ?_)
  rw [hS.equals_eq hv hw]
  exact .refl (fun _ => rfl) (fun _ => rfl) _

private theorem inMap_eq (hS : Likeness S) (hx : S x x') (hv : S v v') (op : Operator) :
    x.inMap op v = x'.inMap op v' := by
  refine Together.eq ((hS.asMap_like hv op).bind fun m m' hm => hS.demand hx op fun ex => .ok ?_)
  have hget := Ascending.get?_like x hm
  rw [ex] at hget ⊢
  generalize Ascending.get? x' m = y, Ascending.get? x' m' = y' at hget
  cases hget <;> rfl

private theorem map_like (hS : Likeness S) (hv : S v v') (hw : S w w') (op : MapOp) :
    Together Eq S (op.apply v w) (op.apply v' w') := by
  cases op with
  | eq => exact hS.same (by simp only [MapOp.apply, hS.equalMaps_eq hv hw])
  | neq => exact hS.same (by simp only [MapOp.apply, hS.equalMaps_eq hv hw])
  | mem => exact hS.same (by simp only [MapOp.apply, hS.inMap_eq hv hw])
  | notMem => exact hS.same (by simp only [MapOp.apply, hS.inMap_eq hv hw])
  | merge =>
    refine (hS.asMap_like hv _).bind fun m m' hm => (hS.asMap_like hw _).bind fun n n' hn => ?_
    exact .ok (hS.map.mpr (Ascending.putAll_like hm hn))
  | subtract =>
    refine (hS.asMap_like hv _).bind fun m m' hm => ?_
    rw [hS.asSet_eq hw]
    refine .bind_same (fun _ => rfl) _ fun removed => .ok (hS.map.mpr ?_)
    exact List.rel_filter (fun p q hpq => by simp [hpq.key_eq]) hm
  | select =>
    refine (hS.asMap_like hv _).bind fun m m' hm => hS.demand hw _ fun ew => ?_
    subst ew
    have hget := Ascending.get?_like w hm
    generalize Ascending.get? w m = y, Ascending.get? w m' = y' at hget
    cases hget with
    | none => exact .error rfl
    | some hy => exact .ok hy

private theorem updateMap_like (hS : Likeness S) (hv : S v v') (hw : S w w') (hx : S x x') :
    Together Eq S (TernaryOp.updateMap v w x) (TernaryOp.updateMap v' w' x') := by
  refine (hS.asMap_like hv _).bind fun m m' hm => hS.demand hw _ fun ew => .ok ?_
  rw [ew]
  exact hS.map.mpr (Ascending.put_like w' hx hm)

private theorem pair_like (hS : Likeness S) (h : S v v') :
    Together Eq (SameKey S) (Collection.pair v) (Collection.pair v') := by
  refine (hS.asSeq_like h _).bind fun xs ys hxy => ?_
  rcases hxy with _ | ⟨hk, _ | ⟨hx, _ | ⟨hy, hrest⟩⟩⟩
  · exact .error rfl
  · exact .error rfl
  · exact hS.demand hk _ fun ek => .ok (ek ▸ .mk _ hx)
  · exact .error (by simp [hrest.length_eq])

private theorem addPairs_like (hS : Likeness S) {vs ws : List Value} (h : List.Forall₂ S vs ws)
    {m m' : List (Value × Value)} (hm : List.Forall₂ (SameKey S) m m') :
    Together Eq (List.Forall₂ (SameKey S)) (Collection.addPairs m vs)
      (Collection.addPairs m' ws) := by
  induction h generalizing m m' with
  | nil => exact .ok hm
  | cons hvw _ ih =>
    refine (hS.pair_like hvw).bind ?_
    rintro _ _ ⟨k, hvw⟩
    have hget := Ascending.get?_like k hm
    simp only
    generalize Ascending.get? k m = y, Ascending.get? k m' = y' at hget
    cases hget with
    | none => exact ih (Ascending.put_like k hvw hm)
    | some hy => exact .error rfl

private theorem demandAll_forms (hS : Likeness S) (kind : Collection) {vs ws : List Value}
    (h : List.Forall₂ S vs ws) :
    Together Eq (fun _ _ => vs = ws) (kind.demandComparable vs) (kind.demandComparable ws) := by
  induction h with
  | nil => exact .ok rfl
  | cons hvw _ ih =>
    refine hS.demand hvw _ fun e => ih.mono (fun _ _ => id) fun _ _ hrest => ?_
    rw [e, hrest]

private theorem build_like (hS : Likeness S) (kind : Collection) {vs ws : List Value}
    (h : List.Forall₂ S vs ws) : Together Eq S (kind.build vs) (kind.build ws) := by
  cases kind with
  | seq => exact .ok (hS.seq.mpr h)
  | set => exact (hS.demandAll_forms .set h).bind fun _ _ e => .ok (e ▸ hS.refl _)
  | multiset => exact (hS.demandAll_forms .multiset h).bind fun _ _ e => .ok (e ▸ hS.refl _)
  | map => exact (hS.addPairs_like h .nil).bind fun m m' hm => .ok (hS.map.mpr hm)

private theorem binary_like (hS : Likeness S) (hv : S v v') (hw : S w w') (op : BinaryOp) :
    Together Eq S (op.apply v w) (op.apply v' w') := by
  cases op with
  | numeric op => exact hS.same (hS.numeric_eq hv hw op)
  | iff => exact hS.same (hS.iff_eq hv hw)
  | equality op => exact hS.same (hS.equality_eq hv hw op)
  | bits op => exact hS.same (hS.bits_eq hv hw op)
  | set op => exact hS.same (hS.set_eq hv hw op)
  | multiset op => exact hS.same (hS.multiset_eq hv hw op)
  | seq op => exact hS.seq_like hv hw op
  | map op => exact hS.map_like hv hw op

private theorem ternary_like (hS : Likeness S) (hv : S v v') (hw : S w w') (hx : S x x')
    (op : TernaryOp) : Together Eq S (op.apply v w x) (op.apply v' w' x') := by
  cases op with
  | seqUpdate => exact hS.updateSeq_like hv hw hx
  | seqSubseq => exact hS.subseq_like hv hw hx
  | multisetUpdate => exact hS.same (hS.updateMultiset_eq hv hw hx)
  | mapUpdate => exact hS.updateMap_like hv hw hx

/-- An operator on alike operands, however many: alike results, or the same error. Only a call may
fail with errors that differ, as far as the call of these operands does. -/
theorem applyWith_like {E : EvalError → EvalError → Prop} (hS : Likeness S) (hE : ∀ x, E x x)
    {call : Value → List Value → EvalResult Value} (op : EagerOp) {vs ws : List Value}
    (h : List.Forall₂ S vs ws)
    (hcall : ∀ f g args args', vs = f :: args → ws = g :: args' →
      Together E S (call f args) (call g args')) :
    Together E S (op.applyWith call vs) (op.applyWith call ws) := by
  have weaken : ∀ {r r' : EvalResult Value}, Together Eq S r r' → Together E S r r' :=
    fun hr => hr.mono (fun x _ e => e ▸ hE x) fun _ _ => id
  have arity : ∀ n, Together E S (.error (.arityMismatch n vs.length))
      (.error (.arityMismatch n ws.length)) := fun n => .error (h.length_eq ▸ hE _)
  cases op with
  | unary op =>
    rcases h with _ | ⟨hv, _ | ⟨_, _⟩⟩
    · exact arity 1
    · exact weaken (hS.same (hS.unary_eq hv op))
    · exact arity 1
  | binary op =>
    rcases h with _ | ⟨hv, _ | ⟨hw, _ | ⟨_, _⟩⟩⟩
    · exact arity 2
    · exact arity 2
    · exact weaken (hS.binary_like hv hw op)
    · exact arity 2
  | ternary op =>
    rcases h with _ | ⟨hv, _ | ⟨hw, _ | ⟨hx, _ | ⟨_, _⟩⟩⟩⟩
    · exact arity 3
    · exact arity 3
    · exact arity 3
    · exact weaken (hS.ternary_like hv hw hx op)
    · exact arity 3
  | display kind => exact weaken (hS.build_like kind h)
  | call =>
    rcases h with _ | ⟨_, _⟩
    · exact arity 1
    · exact hcall _ _ _ _ rfl rfl

end Likeness

end CheckedPass
