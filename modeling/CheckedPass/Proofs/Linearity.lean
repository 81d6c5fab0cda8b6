import CheckedPass.Env
import CheckedPass.Proofs.Order
import Mathlib.Data.Rat.Lemmas
/-!
# Any two values stand in one order

The comparisons of values and of all that lies inside them are total orders that take nothing but a
thing itself to be equal to it. A set or a map has one place for each element or key because of
this.
-/

namespace CheckedPass

namespace Fraction

variable {f g : Fraction}

private theorem ofRat_toRat (h : f.IsReduced) : ofRat f.toRat = f := by
  obtain ⟨num, den, hden⟩ := f
  have hpos : 0 < den := h.1
  have hgcd : Int.gcd den num = 1 := by
    rw [Int.gcd_comm]
    exact h.2
  have hnum : (Rat.divInt num den).num = num := by
    simp [Rat.num_divInt, hgcd, Int.sign_eq_one_of_pos hpos]
  have hden' : ((Rat.divInt num den).den : Int) = den := by
    rw [Rat.den_divInt, if_neg hden, hgcd]
    omega
  simp [ofRat, toRat, hnum, hden']

private theorem order_of_isReduced (hf : f.IsReduced) (hg : g.IsReduced) :
    f.order g = compareNumbers f.toRat g.toRat := by
  -- One number has one spelling in lowest terms, so spellings are not told apart any further.
  cases hcmp : compareNumbers f.toRat g.toRat with
  | lt => simp [order, hcmp]
  | gt => simp [order, hcmp]
  | eq =>
    have hnumber : f.toRat = g.toRat := compareNumbers_eq_iff.mp hcmp
    have hsame : f = g := by rw [← ofRat_toRat hf, ← ofRat_toRat hg, hnumber]
    have hself : compare g g = .eq := Std.ReflOrd.compare_self
    rw [hsame]
    exact hself

end Fraction

/-- The comparison is a total order that takes nothing but a thing itself to be equal to it. -/
structure IsLinear {α : Type} (cmp : α → α → Ordering) : Prop where
  total : ∀ a b, (cmp a b).isLE ∨ (cmp b a).isLE
  antisymm : ∀ a b, (cmp a b).isLE → (cmp b a).isLE → a = b
  trans : ∀ a b c, (cmp a b).isLE → (cmp b c).isLE → (cmp a c).isLE
  eq_iff : ∀ a b, cmp a b = .eq ↔ a = b
  gt_iff : ∀ a b, cmp a b = .gt ↔ cmp b a = .lt
  /-- Below, equal or above: one of the three, and no two of them. -/
  trichotomy : ∀ a b,
    (cmp a b = .lt ∧ a ≠ b ∧ cmp a b ≠ .gt) ∨
    (cmp a b ≠ .lt ∧ a = b ∧ cmp a b ≠ .gt) ∨
    (cmp a b ≠ .lt ∧ a ≠ b ∧ cmp a b = .gt)

namespace IsLinear

variable {α β : Type} {cmp : α → α → Ordering}

private theorem of_lawful [Std.TransCmp cmp] [Std.LawfulEqCmp cmp] : IsLinear cmp := by
  have hswap : ∀ a b, cmp b a = (cmp a b).swap := fun _ _ => Std.OrientedCmp.eq_swap
  have heq : ∀ a b, cmp a b = .eq ↔ a = b := fun _ _ => Std.LawfulEqCmp.compare_eq_iff_eq
  constructor
  case total =>
    intro a b
    rw [hswap a b]
    cases cmp a b <;> simp
  case antisymm =>
    intro a b hab hba
    rw [hswap a b] at hba
    apply (heq a b).mp
    cases h : cmp a b with
    | eq => rfl
    | lt => simp [h] at hba
    | gt => simp [h] at hab
  case trans => exact fun a b c => Std.TransCmp.isLE_trans
  case eq_iff => exact heq
  case gt_iff => exact fun a b => Std.OrientedCmp.gt_iff_lt
  case trichotomy =>
    intro a b
    simp only [ne_eq, ← heq]
    cases cmp a b <;> simp

theorem ord (α : Type) [Ord α] [Std.TransOrd α] [Std.LawfulEqOrd α] :
    IsLinear (compare : α → α → Ordering) :=
  of_lawful

theorem comap {g : β → α} (hg : Function.Injective g) (h : IsLinear cmp) :
    IsLinear fun x y => cmp (g x) (g y) where
  total x y := h.total (g x) (g y)
  antisymm x y hxy hyx := hg (h.antisymm _ _ hxy hyx)
  trans x y z := h.trans (g x) (g y) (g z)
  eq_iff x y := (h.eq_iff (g x) (g y)).trans hg.eq_iff
  gt_iff x y := h.gt_iff (g x) (g y)
  trichotomy x y := by simpa only [ne_eq, hg.eq_iff] using h.trichotomy (g x) (g y)

end IsLinear

namespace Env

/-- A function that does nothing but capture the environment. -/
private def captured (env : Env) : Value :=
  .closure env [] .unit

private theorem order_eq_compare_captured (env env' : Env) :
    Env.order env env' = compare (captured env) (captured env') := by
  have hbody : compare Expr.unit Expr.unit = .eq := Std.ReflOrd.compare_self
  have hparts : compare (captured env) (captured env') = (Env.order env env').then
      ((compare ([] : List String) []).then (compare Expr.unit Expr.unit)) := rfl
  rw [hparts, hbody]
  cases Env.order env env' <;> rfl

private theorem order_isLinear : IsLinear Env.order := by
  have hinj : Function.Injective captured := by
    intro env env' h
    exact (Value.closure.inj h).1
  have horder : Env.order = fun env env' => compare (captured env) (captured env') := by
    funext env env'
    exact order_eq_compare_captured env env'
  rw [horder]
  exact (IsLinear.ord Value).comap hinj

end Env

/-- The orders of values and of all that lies inside them. -/
structure LinearOrders : Prop where
  values : IsLinear Value.order
  environments : IsLinear Env.order
  expressions : IsLinear Expr.order
  literals : IsLinear Literal.order
  operators : IsLinear (compare : Operator → Operator → Ordering)
  /-- Fractions in lowest terms are ordered as the numbers that they stand for. -/
  fractions : ∀ f g : Fraction, f.IsReduced → g.IsReduced →
    f.order g = compareNumbers f.toRat g.toRat

/-- Values are totally ordered, whatever lies inside them, and so are the environments, expressions,
literals and operators that lie there. Of any two, either one is below the other or they are equal,
and never both. -/
theorem values_totally_ordered : LinearOrders where
  values := .ord Value
  environments := Env.order_isLinear
  expressions := .ord Expr
  literals := .ord Literal
  operators := .ord Operator
  fractions _ _ := Fraction.order_of_isReduced

/-- Negative numerators included: minus a half lies below a third. -/
theorem values_totally_ordered_fractions :
    let f : Fraction := ⟨-1, 2, by decide⟩
    let g : Fraction := ⟨1, 3, by decide⟩
    f.IsReduced ∧ g.IsReduced ∧ f.order g = .lt ∧
      compareNumbers f.toRat g.toRat = .lt := by
  intro f g
  have hf : f.IsReduced := by decide
  have hg : g.IsReduced := by decide
  have horder := values_totally_ordered.fractions f g hf hg
  have hlt : compareNumbers f.toRat g.toRat = .lt := by decide +kernel
  exact ⟨hf, hg, horder.trans hlt, hlt⟩

end CheckedPass
