import CheckedPass.Expr.Order
import CheckedPass.Value.Basic
/-!
# The order of values

Values are ordered by kind, then part by part; collections and captured environments are compared
entry by entry in ascending order. The order tells any two values apart, which also decides their
equality.
-/

namespace CheckedPass

mutual

def Value.order : Value → Value → Ordering
  | .unit, .unit => .eq
  | .bool a, .bool b => compare a b
  | .char a, .char b => compare a b
  | .int a, .int b => compare a b
  | .real a, .real b => compareNumbers a b
  | .ordinal a, .ordinal b => compare a b
  | .bitVector w a, .bitVector v b => (compare w v).then (compare a b)
  | .seq xs, .seq ys => Value.orderList xs ys
  | .set xs, .set ys => Value.orderList xs ys
  | .multiset xs, .multiset ys => Value.orderCounts xs ys
  | .map xs, .map ys => Value.orderEntries xs ys
  | .closure env ps b, .closure env' qs c =>
    (Value.orderEnv env env').then ((compare ps qs).then (compare b c))
  | v, w => compare v.kind w.kind
termination_by structural v => v

def Value.orderList : List Value → List Value → Ordering
  | [], [] => .eq
  | [], _ :: _ => .lt
  | _ :: _, [] => .gt
  | v :: vs, w :: ws => (Value.order v w).then (Value.orderList vs ws)
termination_by structural vs => vs

def Value.orderCounts : List (Value × Nat) → List (Value × Nat) → Ordering
  | [], [] => .eq
  | [], _ :: _ => .lt
  | _ :: _, [] => .gt
  | (v, m) :: vs, (w, n) :: ws =>
    (Value.order v w).then ((compare m n).then (Value.orderCounts vs ws))
termination_by structural vs => vs

def Value.orderEntries : List (Value × Value) → List (Value × Value) → Ordering
  | [], [] => .eq
  | [], _ :: _ => .lt
  | _ :: _, [] => .gt
  | (k, v) :: vs, (j, w) :: ws =>
    (Value.order k j).then ((Value.order v w).then (Value.orderEntries vs ws))
termination_by structural vs => vs

def Value.orderEnv : List (String × Value) → List (String × Value) → Ordering
  | [], [] => .eq
  | [], _ :: _ => .lt
  | _ :: _, [] => .gt
  | (x, v) :: vs, (y, w) :: ws =>
    (compare x y).then ((Value.order v w).then (Value.orderEnv vs ws))
termination_by structural vs => vs

end

instance : Ord Value where
  compare := Value.order

theorem compareNumbers_eq_iff {a b : Rat} : compareNumbers a b = .eq ↔ a = b := by
  simp only [compareNumbers]
  constructor
  · intro h
    by_cases hab : a < b
    · simp [hab] at h
    · by_cases hba : b < a
      · simp [hab, hba] at h
      · exact Rat.le_antisymm (Rat.not_lt.mp hba) (Rat.not_lt.mp hab)
  · rintro rfl
    simp

namespace Value

mutual

private theorem order_eq_iff (v w : Value) : v.order w = .eq ↔ v = w := by
  match v with
  | .unit => cases w <;> simp [order, kind]
  | .bool _ => cases w <;> simp [order, kind]
  | .char _ => cases w <;> simp [order, kind]
  | .int _ => cases w <;> simp [order, kind]
  | .real _ => cases w <;> simp [order, kind, compareNumbers_eq_iff]
  | .ordinal _ => cases w <;> simp [order, kind]
  | .bitVector _ _ => cases w <;> simp [order, kind, Ordering.then_eq_eq]
  | .seq xs =>
    have h := orderList_eq_iff xs
    cases w <;> simp [order, kind, h]
  | .set xs =>
    have h := orderList_eq_iff xs
    cases w <;> simp [order, kind, h]
  | .multiset xs =>
    have h := orderCounts_eq_iff xs
    cases w <;> simp [order, kind, h]
  | .map xs =>
    have h := orderEntries_eq_iff xs
    cases w <;> simp [order, kind, h]
  | .closure env ps b =>
    have h := orderEnv_eq_iff env
    cases w <;> simp [order, kind, Ordering.then_eq_eq, h]

private theorem orderList_eq_iff (vs ws : List Value) : orderList vs ws = .eq ↔ vs = ws := by
  match vs with
  | [] => cases ws <;> simp [orderList]
  | v :: vs =>
    have hv := order_eq_iff v
    have hvs := orderList_eq_iff vs
    cases ws <;> simp [orderList, Ordering.then_eq_eq, hv, hvs]

private theorem orderCounts_eq_iff (vs ws : List (Value × Nat)) :
    orderCounts vs ws = .eq ↔ vs = ws := by
  match vs with
  | [] => cases ws <;> simp [orderCounts]
  | (v, m) :: vs =>
    have hv := order_eq_iff v
    have hvs := orderCounts_eq_iff vs
    match ws with
    | [] => simp [orderCounts]
    | (w, n) :: ws => simp [orderCounts, Ordering.then_eq_eq, hv, hvs, and_assoc]

private theorem orderEntries_eq_iff (vs ws : List (Value × Value)) :
    orderEntries vs ws = .eq ↔ vs = ws := by
  match vs with
  | [] => cases ws <;> simp [orderEntries]
  | (k, v) :: vs =>
    have hk := order_eq_iff k
    have hv := order_eq_iff v
    have hvs := orderEntries_eq_iff vs
    match ws with
    | [] => simp [orderEntries]
    | (j, w) :: ws => simp [orderEntries, Ordering.then_eq_eq, hk, hv, hvs, and_assoc]

private theorem orderEnv_eq_iff (vs ws : List (String × Value)) :
    orderEnv vs ws = .eq ↔ vs = ws := by
  match vs with
  | [] => cases ws <;> simp [orderEnv]
  | (x, v) :: vs =>
    have hv := order_eq_iff v
    have hvs := orderEnv_eq_iff vs
    match ws with
    | [] => simp [orderEnv]
    | (y, w) :: ws => simp [orderEnv, Ordering.then_eq_eq, hv, hvs, and_assoc]

end

instance : Std.LawfulEqOrd Value where
  compare_self {v} := (order_eq_iff v v).mpr rfl
  eq_of_compare {v w} h := (order_eq_iff v w).mp h

instance : DecidableEq Value := fun v w =>
  decidable_of_iff (compare v w = .eq) Std.LawfulEqOrd.compare_eq_iff_eq

end Value

end CheckedPass
