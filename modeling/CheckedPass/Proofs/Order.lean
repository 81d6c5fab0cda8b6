import CheckedPass.Proofs.Likeness
import CheckedPass.Proofs.Tree
import Mathlib.Data.Rat.Defs
/-!
# The orders are linear

Literals, expressions and values are ordered by kind and then part by part, so each order is linear
as seen from a node if it is as seen from the parts of the node.
-/

namespace CheckedPass

/-- Comparisons of a first with a second and of the second with a third fit the comparison of the
first with the third. -/
def Composes (ab bc ac : Ordering) : Prop :=
  (ab = .eq → ac = bc) ∧ (bc = .eq → ac = ab) ∧ (ab = .lt → bc = .lt → ac = .lt)

theorem Composes.then {ab bc ac ab' bc' ac' : Ordering} (h : Composes ab bc ac)
    (h' : ab = .eq → bc = .eq → Composes ab' bc' ac') :
    Composes (ab.then ab') (bc.then bc') (ac.then ac') := by
  obtain ⟨hl, hr, hlt⟩ := h
  cases ab <;> cases bc <;> cases ac <;> simp_all [Composes, Ordering.then]

/-- As seen from `a`, the comparison is a linear order. -/
structure Placed {α : Type} (cmp : α → α → Ordering) (a : α) : Prop where
  swap : ∀ b, cmp b a = (cmp a b).swap
  composes : ∀ b c, Composes (cmp a b) (cmp b c) (cmp a c)

namespace Placed

variable {α β : Type} {cmp : α → α → Ordering}

private theorem of_transCmp [Std.TransCmp cmp] (a : α) : Placed cmp a where
  swap _ := Std.OrientedCmp.eq_swap
  composes _ _ := ⟨fun h => Std.TransCmp.congr_left h, fun h => (Std.TransCmp.congr_right h).symm,
    fun h h' => Std.TransCmp.lt_trans h h'⟩

theorem ord [Ord α] [Std.TransOrd α] (a : α) : Placed compare a := of_transCmp a

private theorem transCmp (h : ∀ a, Placed cmp a) : Std.TransCmp cmp where
  eq_swap := (h _).swap _
  isLE_trans := by
    intro a b c hab hbc
    obtain ⟨hl, hr, hlt⟩ := (h a).composes b c
    cases hab' : cmp a b <;> cases hbc' : cmp b c <;> simp_all

theorem comap {g : β → α} {b : β} (h : Placed cmp (g b)) :
    Placed (fun x y => cmp (g x) (g y)) b where
  swap c := h.swap (g c)
  composes c d := h.composes (g c) (g d)

private theorem lex {cmp' : α → α → Ordering} {a : α} (h : Placed cmp a) (h' : Placed cmp' a) :
    Placed (fun x y => (cmp x y).then (cmp' x y)) a where
  swap b := by rw [h.swap, h'.swap, Ordering.swap_then]
  composes b c := (h.composes b c).then fun _ _ => h'.composes b c

theorem pair {cmp' : β → β → Ordering} {a : α} {b : β} (ha : Placed cmp a) (hb : Placed cmp' b) :
    Placed (fun p q : α × β => (cmp p.1 q.1).then (cmp' p.2 q.2)) (a, b) :=
  .lex (.comap ha) (.comap hb)

theorem list {xs : List α} (h : ∀ x ∈ xs, Placed cmp x) : Placed (List.compareLex cmp) xs := by
  induction xs with
  | nil =>
    refine ⟨fun ys => ?_, fun ys zs => ?_⟩
    · cases ys <;> rfl
    · cases ys <;> cases zs <;> simp [Composes, List.compareLex_nil_cons, List.compareLex_cons_nil]
  | cons x xs ih =>
    have hx := h x List.mem_cons_self
    have hxs := ih fun y hy => h y (List.mem_cons_of_mem _ hy)
    refine ⟨fun ys => ?_, fun ys zs => ?_⟩
    · cases ys with
      | nil => rfl
      | cons y ys =>
        rw [List.compareLex_cons_cons, List.compareLex_cons_cons, hx.swap, hxs.swap,
          Ordering.swap_then]
    · cases ys with
      | nil => cases zs <;> simp [Composes, List.compareLex_nil_cons, List.compareLex_cons_nil]
      | cons y ys =>
        cases zs with
        | nil => simp [Composes, List.compareLex_cons_nil]
        | cons z zs =>
          simp only [List.compareLex_cons_cons]
          exact (hx.composes y z).then fun _ _ => hxs.composes ys zs

/-- A comparison by tag that compares what lies under one tag by `inner` is as linear as `inner`. -/
private theorem of_tag {τ : Type} [Ord τ] [Std.LawfulEqOrd τ] [Std.TransOrd τ] {tag : α → τ}
    (htag : ∀ a b, tag a ≠ tag b → cmp a b = compare (tag a) (tag b)) (mk : β → α)
    (inner : β → β → Ordering) (hmk : ∀ a b, tag a = tag (mk b) → ∃ c, a = mk c)
    (hinner : ∀ b c, cmp (mk b) (mk c) = inner b c) {b : β} (hb : Placed inner b) :
    Placed cmp (mk b) where
  swap a := by
    by_cases h : tag a = tag (mk b)
    · obtain ⟨c, rfl⟩ := hmk a b h
      rw [hinner, hinner, hb.swap]
    · rw [htag _ _ h, htag _ _ (Ne.symm h)]
      exact Std.OrientedCmp.eq_swap
  composes a c := by
    have hthen : ∀ x y, cmp x y = (compare (tag x) (tag y)).then (cmp x y) := by
      intro x y
      by_cases h : tag x = tag y
      · rw [h, Std.ReflOrd.compare_self, Ordering.eq_then]
      · rw [htag x y h]
        cases compare (tag x) (tag y) <;> rfl
    rw [hthen (mk b) a, hthen a c, hthen (mk b) c]
    refine ((of_transCmp (tag (mk b))).composes _ _).then fun h h' => ?_
    have ha := Std.LawfulEqOrd.eq_of_compare h
    have hc := Std.LawfulEqOrd.eq_of_compare h'
    obtain ⟨a', rfl⟩ := hmk a b ha.symm
    obtain ⟨c', rfl⟩ := hmk c b (hc.symm.trans ha.symm)
    rw [hinner, hinner, hinner]
    exact hb.composes a' c'

end Placed

/-- A comparison of lists entry by entry, where the list that ends first is the lesser one. -/
private theorem eq_compareLex {α : Type} {cmp : α → α → Ordering} {f : List α → List α → Ordering}
    (hnil : f [] [] = .eq) (hlt : ∀ y ys, f [] (y :: ys) = .lt) (hgt : ∀ x xs, f (x :: xs) [] = .gt)
    (hcons : ∀ x xs y ys, f (x :: xs) (y :: ys) = (cmp x y).then (f xs ys)) :
    f = List.compareLex cmp := by
  funext xs ys
  induction xs generalizing ys with
  | nil =>
    cases ys with
    | nil => exact hnil
    | cons y ys => exact hlt y ys
  | cons x xs ih =>
    cases ys with
    | nil => exact hgt x xs
    | cons y ys => rw [hcons, List.compareLex_cons_cons, ih]

private theorem compareNumbers_isLE {a b : Rat} : (compareNumbers a b).isLE = true ↔ a ≤ b := by
  simp only [compareNumbers]
  by_cases hab : a < b
  · simp [hab, Rat.le_of_lt hab]
  · by_cases hba : b < a
    · simp [hab, hba, Rat.not_le.mpr hba]
    · simp [hab, hba, Rat.not_lt.mp hba]

instance : Std.TransCmp compareNumbers where
  eq_swap := by
    intro a b
    simp only [compareNumbers]
    by_cases hab : a < b
    · have hba : ¬b < a := Rat.not_lt.mpr (Rat.le_of_lt hab)
      simp [hab, hba]
    · by_cases hba : b < a <;> simp [hab, hba]
  isLE_trans := by
    intro a b c hab hbc
    rw [compareNumbers_isLE] at *
    exact Rat.le_trans hab hbc

instance : Std.TransOrd Fraction :=
  Placed.transCmp fun _ =>
    .lex (.comap (.of_transCmp _)) (.lex (.comap (.ord _)) (.comap (.ord _)))

instance : Std.TransOrd Kind := inferInstanceAs (Std.TransCmp (compareOn Kind.ctorIdx))

instance : Std.TransOrd Shape := inferInstanceAs (Std.TransCmp (compareOn Shape.ctorIdx))

instance : Std.TransOrd Operator := inferInstanceAs (Std.TransCmp (compareOn Operator.place))

namespace Literal

private theorem order_of_place_ne (a b : Literal) (h : a.place ≠ b.place) :
    a.order b = compare a.place b.place := by
  fun_cases order a b with
  | case8 => rfl
  | _ => exact absurd rfl h

private theorem placed (a : Literal) : Placed order a := by
  cases a with
  | unit =>
    exact .of_tag order_of_place_ne (fun _ : Unit => .unit) compare
      (by intro a _ h; cases a <;> simp_all [place]) (fun _ _ => rfl) (.ord ())
  | bool b =>
    exact .of_tag order_of_place_ne .bool compare
      (by intro a _ h; cases a <;> simp_all [place]) (fun _ _ => rfl) (.ord b)
  | int n =>
    exact .of_tag order_of_place_ne .int compare
      (by intro a _ h; cases a <;> simp_all [place]) (fun _ _ => rfl) (.ord n)
  | real f =>
    exact .of_tag order_of_place_ne .real compare
      (by intro a _ h; cases a <;> simp_all [place]) (fun _ _ => rfl) (.ord f)
  | char c =>
    exact .of_tag order_of_place_ne .char compare
      (by intro a _ h; cases a <;> simp_all [place]) (fun _ _ => rfl) (.ord c)
  | bitVector width magnitude =>
    exact .of_tag order_of_place_ne (fun p : UInt32 × Nat => .bitVector p.1 p.2) _
      (by intro a _ h; cases a <;> simp_all [place]) (fun _ _ => rfl)
      (.pair (.ord width) (.ord magnitude))
  | ordinal n =>
    exact .of_tag order_of_place_ne .ordinal compare
      (by intro a _ h; cases a <;> simp_all [place]) (fun _ _ => rfl) (.ord n)

instance : Std.TransOrd Literal := Placed.transCmp placed

end Literal

namespace Expr

private theorem orderList_eq_compareLex : orderList = List.compareLex order :=
  eq_compareLex rfl (fun _ _ => rfl) (fun _ _ => rfl) fun _ _ _ _ => rfl

private theorem order_of_shape_ne (e f : Expr) (h : e.shape ≠ f.shape) :
    e.order f = compare e.shape f.shape := by
  fun_cases order e f with
  | case8 => rfl
  | _ => exact absurd rfl h

private theorem placed (e : Expr) : Placed order e := by
  induction e using children_induction with
  | step e ih =>
    cases e with
    | var x =>
      exact .of_tag order_of_shape_ne .var compare
        (by intro e _ h; cases e <;> simp_all [shape]) (fun _ _ => rfl) (.ord x)
    | lit a =>
      exact .of_tag order_of_shape_ne .lit compare
        (by intro e _ h; cases e <;> simp_all [shape]) (fun _ _ => rfl) (.ord a)
    | fn params body =>
      have hbody := ih body (by simp [children])
      exact .of_tag order_of_shape_ne (fun p : List String × Expr => .fn p.1 p.2) _
        (by intro e _ h; cases e <;> simp_all [shape]) (fun _ _ => rfl)
        (.pair (.ord params) hbody)
    | app op args =>
      exact .of_tag order_of_shape_ne (fun p : Operator × List Expr => .app p.1 p.2) _
        (by intro e _ h; cases e <;> simp_all [shape])
        (fun _ _ => by simp only [order, orderList_eq_compareLex])
        (.pair (.ord op) (.list ih))
    | block items =>
      exact .of_tag order_of_shape_ne .block _
        (by intro e _ h; cases e <;> simp_all [shape])
        (fun _ _ => by simp only [order, orderList_eq_compareLex]) (.list ih)
    | cond test yes no =>
      have htest := ih test (by simp [children])
      have hyes := ih yes (by simp [children])
      have hno := ih no (by simp [children])
      exact .of_tag order_of_shape_ne (fun p : Expr × Expr × Expr => .cond p.1 p.2.1 p.2.2) _
        (by intro e _ h; cases e <;> simp_all [shape]) (fun _ _ => rfl)
        (.pair htest (.pair hyes hno))
    | bind vars vals body =>
      have hvals : Placed (List.compareLex order) vals :=
        .list fun e he => ih e (by simp [children, he])
      have hbody := ih body (by simp [children])
      exact .of_tag order_of_shape_ne
        (fun p : List String × List Expr × Expr => .bind p.1 p.2.1 p.2.2) _
        (by intro e _ h; cases e <;> simp_all [shape])
        (fun _ _ => by simp only [order, orderList_eq_compareLex])
        (.pair (.ord vars) (.pair hvals hbody))

instance : Std.TransOrd Expr := Placed.transCmp placed

end Expr

namespace Value

private theorem orderList_eq_compareLex : orderList = List.compareLex order :=
  eq_compareLex rfl (fun _ _ => rfl) (fun _ _ => rfl) fun _ _ _ _ => rfl

private theorem orderCounts_eq_compareLex :
    orderCounts = List.compareLex fun p q => (order p.1 q.1).then (compare p.2 q.2) :=
  eq_compareLex rfl (fun _ _ => rfl) (fun _ _ => rfl) fun _ _ _ _ => (Ordering.then_assoc ..).symm

private theorem orderEntries_eq_compareLex :
    orderEntries = List.compareLex fun p q => (order p.1 q.1).then (order p.2 q.2) :=
  eq_compareLex rfl (fun _ _ => rfl) (fun _ _ => rfl) fun _ _ _ _ => (Ordering.then_assoc ..).symm

private theorem orderEnv_eq_compareLex :
    orderEnv = List.compareLex fun p q => (compare p.1 q.1).then (order p.2 q.2) :=
  eq_compareLex rfl (fun _ _ => rfl) (fun _ _ => rfl) fun _ _ _ _ => (Ordering.then_assoc ..).symm

private theorem order_of_kind_ne (v w : Value) (h : v.kind ≠ w.kind) :
    v.order w = compare v.kind w.kind := by
  fun_cases order v w with
  | case13 => rfl
  | _ => exact absurd rfl h

private theorem placed (v : Value) : Placed order v := by
  induction v using parts_induction with
  | step v ih =>
    cases v with
    | unit =>
      exact .of_tag order_of_kind_ne (fun _ : Unit => .unit) compare
        (by intro v _ h; cases v <;> simp_all [kind]) (fun _ _ => rfl) (.ord ())
    | bool b =>
      exact .of_tag order_of_kind_ne .bool compare
        (by intro v _ h; cases v <;> simp_all [kind]) (fun _ _ => rfl) (.ord b)
    | char c =>
      exact .of_tag order_of_kind_ne .char compare
        (by intro v _ h; cases v <;> simp_all [kind]) (fun _ _ => rfl) (.ord c)
    | int n =>
      exact .of_tag order_of_kind_ne .int compare
        (by intro v _ h; cases v <;> simp_all [kind]) (fun _ _ => rfl) (.ord n)
    | real q =>
      exact .of_tag order_of_kind_ne .real compareNumbers
        (by intro v _ h; cases v <;> simp_all [kind]) (fun _ _ => rfl) (.of_transCmp q)
    | ordinal n =>
      exact .of_tag order_of_kind_ne .ordinal compare
        (by intro v _ h; cases v <;> simp_all [kind]) (fun _ _ => rfl) (.ord n)
    | bitVector width magnitude =>
      exact .of_tag order_of_kind_ne (fun p : UInt32 × Nat => .bitVector p.1 p.2) _
        (by intro v _ h; cases v <;> simp_all [kind]) (fun _ _ => rfl)
        (.pair (.ord width) (.ord magnitude))
    | seq elems =>
      exact .of_tag order_of_kind_ne .seq _ (by intro v _ h; cases v <;> simp_all [kind])
        (fun _ _ => by simp only [order, orderList_eq_compareLex]) (.list ih)
    | set elems =>
      exact .of_tag order_of_kind_ne .set _ (by intro v _ h; cases v <;> simp_all [kind])
        (fun _ _ => by simp only [order, orderList_eq_compareLex]) (.list ih)
    | multiset counts =>
      exact .of_tag order_of_kind_ne .multiset _ (by intro v _ h; cases v <;> simp_all [kind])
        (fun _ _ => by simp only [order, orderCounts_eq_compareLex])
        (.list fun p hp => .pair (ih p.1 (List.mem_map_of_mem hp)) (.ord p.2))
    | map entries =>
      have hkeys : ∀ p ∈ entries, Placed order p.1 := fun p hp =>
        ih p.1 (List.mem_append_left _ (List.mem_map_of_mem hp))
      exact .of_tag order_of_kind_ne .map _ (by intro v _ h; cases v <;> simp_all [kind])
        (fun _ _ => by simp only [order, orderEntries_eq_compareLex])
        (.list fun p hp => .pair (hkeys p hp) (ih p.2 (mem_parts_map hp)))
    | closure env params body =>
      have henv : Placed (List.compareLex fun p q : String × Value =>
          (compare p.1 q.1).then (order p.2 q.2)) env :=
        .list fun p hp => .pair (.ord p.1) (ih p.2 (List.mem_map_of_mem hp))
      exact .of_tag order_of_kind_ne
        (fun p : List (String × Value) × List String × Expr => .closure p.1 p.2.1 p.2.2) _
        (by intro v _ h; cases v <;> simp_all [kind])
        (fun _ _ => by simp only [order, orderEnv_eq_compareLex])
        (.pair henv (.pair (.ord params) (.ord body)))

instance : Std.TransOrd Value := Placed.transCmp placed

end Value

end CheckedPass
