import CheckedPass.Expr.Basic
/-!
# The order of expressions

Expressions are ordered by shape, then part by part. The order tells any two expressions apart,
which also decides their equality.
-/

namespace CheckedPass

mutual

def Expr.order : Expr → Expr → Ordering
  | .var x, .var y => compare x y
  | .lit a, .lit b => compare a b
  | .fn ps b, .fn qs c => (compare ps qs).then (Expr.order b c)
  | .app f xs, .app g ys => (compare f g).then (Expr.orderList xs ys)
  | .block xs, .block ys => Expr.orderList xs ys
  | .cond a b c, .cond x y z => (Expr.order a x).then ((Expr.order b y).then (Expr.order c z))
  | .bind xs us b, .bind ys vs c =>
    (compare xs ys).then ((Expr.orderList us vs).then (Expr.order b c))
  | e, e' => compare e.shape e'.shape

def Expr.orderList : List Expr → List Expr → Ordering
  | [], [] => .eq
  | [], _ :: _ => .lt
  | _ :: _, [] => .gt
  | e :: es, f :: fs => (Expr.order e f).then (Expr.orderList es fs)

end

instance : Ord Expr where
  compare := Expr.order

namespace Expr

mutual

private theorem order_eq_iff (e e' : Expr) : e.order e' = .eq ↔ e = e' := by
  match e with
  | .var x => cases e' <;> simp [order, shape]
  | .lit a => cases e' <;> simp [order, shape]
  | .fn ps b =>
    have hb := order_eq_iff b
    cases e' <;> simp [order, shape, Ordering.then_eq_eq, hb]
  | .app op args =>
    have ha := orderList_eq_iff args
    cases e' <;> simp [order, shape, Ordering.then_eq_eq, ha]
  | .block items =>
    have hi := orderList_eq_iff items
    cases e' <;> simp [order, shape, hi]
  | .cond a b c =>
    have ha := order_eq_iff a
    have hb := order_eq_iff b
    have hc := order_eq_iff c
    cases e' <;> simp [order, shape, Ordering.then_eq_eq, ha, hb, hc]
  | .bind xs vs b =>
    have hv := orderList_eq_iff vs
    have hb := order_eq_iff b
    cases e' <;> simp [order, shape, Ordering.then_eq_eq, hv, hb]

private theorem orderList_eq_iff (es fs : List Expr) : orderList es fs = .eq ↔ es = fs := by
  match es with
  | [] => cases fs <;> simp [orderList]
  | e :: es =>
    have he := order_eq_iff e
    have hes := orderList_eq_iff es
    cases fs <;> simp [orderList, Ordering.then_eq_eq, he, hes]

end

instance : Std.LawfulEqOrd Expr where
  compare_self {e} := (order_eq_iff e e).mpr rfl
  eq_of_compare {e e'} h := (order_eq_iff e e').mp h

instance : DecidableEq Expr := fun e e' =>
  decidable_of_iff (compare e e' = .eq) Std.LawfulEqOrd.compare_eq_iff_eq

end Expr

deriving instance DecidableEq for Program

end CheckedPass
