import CheckedPass.Expr.Visit
import Mathlib.Algebra.GroupWithZero.Nat
import Mathlib.Data.List.Basic
/-!
# Nodes and their children

Every fact about a tree reduces to a node and its children: induction over children, the tree in
pre-order as the node before the trees of its children, and a check of all nodes as a check of the
node and of each child.
-/

namespace CheckedPass.Expr

mutual

private theorem of_children {motive : Expr → Prop}
    (step : ∀ e, (∀ c ∈ e.children, motive c) → motive e) : (e : Expr) → motive e
  | .var _ => step _ (by simp [children])
  | .lit _ => step _ (by simp [children])
  | .fn _ body => step _ (by simpa [children] using of_children step body)
  | .app _ args => step _ (of_children_list step args)
  | .block items => step _ (of_children_list step items)
  | .cond test yes no => by
    have ht := of_children step test
    have hy := of_children step yes
    have hn := of_children step no
    exact step _ (by simp [children, ht, hy, hn])
  | .bind _ vals body => by
    have hv := of_children_list step vals
    have hb := of_children step body
    apply step
    intro c hc
    rcases List.mem_append.mp hc with hc | hc
    · exact hv c hc
    · rw [List.mem_singleton.mp hc]
      exact hb

private theorem of_children_list {motive : Expr → Prop}
    (step : ∀ e, (∀ c ∈ e.children, motive c) → motive e) :
    (es : List Expr) → ∀ c ∈ es, motive c
  | [] => by simp
  | e :: es => by
    have he := of_children step e
    have hes := of_children_list step es
    simpa [he] using hes

end

/-- What every node has once its children have it, every expression has. -/
@[elab_as_elim]
theorem children_induction {motive : Expr → Prop}
    (step : ∀ e, (∀ c ∈ e.children, motive c) → motive e) (e : Expr) : motive e :=
  of_children step e

theorem children_mapChildren (f : Expr → Expr) (e : Expr) :
    (e.mapChildren f).children = e.children.map f := by
  cases e <;> simp [mapChildren, children]

theorem mapChildren_id (e : Expr) : e.mapChildren id = e := by
  cases e <;> simp [mapChildren]

theorem replaceChildren_map (f : Expr → Expr) (e : Expr) :
    e.replaceChildren (e.children.map f) = .ok (e.mapChildren f) := by
  cases e <;> simp [replaceChildren, mapChildren, children]

private theorem nodesList_eq_flatMap (es : List Expr) : nodesList es = es.flatMap nodes := by
  induction es with
  | nil => rfl
  | cons e es ih => rw [nodesList, ih, List.flatMap_cons]

theorem nodes_eq (e : Expr) : e.nodes = e :: e.children.flatMap nodes := by
  cases e <;> simp [nodes, children, nodesList_eq_flatMap]

theorem countP_nodes (p : Expr → Bool) (e : Expr) :
    e.nodes.countP p =
      (e.children.map fun c => c.nodes.countP p).sum + if p e = true then 1 else 0 := by
  rw [nodes_eq, List.countP_cons, List.countP_flatMap]
  rfl

private theorem sizeList_eq_sum (es : List Expr) : sizeList es = (es.map size).sum := by
  induction es with
  | nil => rfl
  | cons e es ih => rw [sizeList, ih, List.map_cons, List.sum_cons]

theorem size_eq (e : Expr) : e.size = 1 + (e.children.map size).sum := by
  cases e <;> simp [size, children, sizeList_eq_sum, Nat.add_assoc]

theorem mem_nodes_self (e : Expr) : e ∈ e.nodes := by
  rw [nodes_eq]
  exact List.mem_cons_self

theorem mem_nodes_of_child {e c n : Expr} (hc : c ∈ e.children) (hn : n ∈ c.nodes) :
    n ∈ e.nodes := by
  rw [nodes_eq]
  exact List.mem_cons_of_mem _ (List.mem_flatMap.mpr ⟨c, hc, hn⟩)

theorem mem_nodes_trans {e n m : Expr} (hm : m ∈ n.nodes) (hn : n ∈ e.nodes) :
    m ∈ e.nodes := by
  induction e using children_induction with
  | step e ih =>
    rw [nodes_eq, List.mem_cons, List.mem_flatMap] at hn
    rcases hn with rfl | ⟨c, hc, hn⟩
    · exact hm
    · exact mem_nodes_of_child hc (ih c hc hn)

/-- A visitor that stops at the first node that fails `p`. -/
private def checker (p : Expr → Bool) (_ : Unit) (n : Expr) : Unit × Step Unit :=
  ((), if p n then .descend else .stop ())

private theorem isNone_andThen (r : Visited Unit Unit) (next : Unit → Visited Unit Unit) :
    (r.andThen next).2.isNone = (r.2.isNone && (next ()).2.isNone) := by
  obtain ⟨⟨⟩, _ | _⟩ := r <;> rfl

private theorem visitList_checker (p : Expr → Bool) (es : List Expr) :
    (visitList (checker p) es ()).2.isNone = es.all (all p) := by
  induction es with
  | nil => simp [visitList]
  | cons e es ih =>
    rw [visitList, isNone_andThen, ih]
    rfl

theorem all_eq (p : Expr → Bool) (e : Expr) : e.all p = (p e && e.children.all (all p)) := by
  have hall : ∀ c, (visit (checker p) c ()).2.isNone = c.all p := fun _ => rfl
  rw [← hall, visit]
  cases hp : p e
  · simp [checker, hp]
  · rw [show checker p () e = ((), .descend) by simp [checker, hp]]
    cases e <;> simp [children, visitList_checker, isNone_andThen, hall]

theorem all_iff (p : Expr → Bool) (e : Expr) : e.all p = true ↔ ∀ n ∈ e.nodes, p n = true := by
  induction e using children_induction with
  | step e ih =>
    rw [all_eq, nodes_eq]
    simp only [Bool.and_eq_true, List.all_eq_true, List.forall_mem_cons, List.forall_mem_flatMap]
    exact and_congr_right fun _ => forall₂_congr ih

theorem all_of_mem_nodes {p : Expr → Bool} {e n : Expr} (h : e.all p = true) (hn : n ∈ e.nodes) :
    n.all p = true :=
  (all_iff p n).mpr fun _ hm => (all_iff p e).mp h _ (mem_nodes_trans hm hn)

theorem all_child {p : Expr → Bool} {e c : Expr} (h : e.all p = true) (hc : c ∈ e.children) :
    c.all p = true :=
  all_of_mem_nodes h (mem_nodes_of_child hc c.mem_nodes_self)

end CheckedPass.Expr
