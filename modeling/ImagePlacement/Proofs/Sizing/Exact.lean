import ImagePlacement.Sizing
import Mathlib.Algebra.Field.Rat
import Mathlib.Algebra.Order.Field.Basic
import Mathlib.Algebra.Order.Ring.Rat
import Mathlib.Data.Rat.Lemmas

/-! Sizes computed without rounding: a length is a rational number, an infinity or no number at
all. The values that are not finite follow the rules of binary64; there is only one zero. -/
namespace ImagePlacement

inductive Exact where
  | finite (value : ℚ)
  | infinite (isNegative : Bool)
  | nan
  deriving DecidableEq

namespace Exact

def isNegative : Exact → Bool
  | finite a => a < 0
  | infinite negative => negative
  | nan => false

protected def sub : Exact → Exact → Exact
  | finite a, finite b => finite (a - b)
  | infinite m, infinite n => if m = n then nan else infinite m
  | infinite m, finite _ => infinite m
  | finite _, infinite n => infinite !n
  | nan, _ | _, nan => nan

protected def mul : Exact → Exact → Exact
  | finite a, finite b => finite (a * b)
  | nan, _ | _, nan => nan
  | x, y => if x = finite 0 ∨ y = finite 0 then nan else infinite (x.isNegative != y.isNegative)

protected def div : Exact → Exact → Exact
  | finite a, finite b =>
    if b ≠ 0 then finite (a / b) else if a = 0 then nan else infinite (a < 0)
  | finite _, infinite _ => finite 0
  | infinite m, finite b => infinite (m != (finite b).isNegative)
  | infinite _, infinite _ => nan
  | nan, _ | _, nan => nan

protected def abs : Exact → Exact
  | finite a => finite |a|
  | infinite _ => infinite false
  | nan => nan

def isNumber : Exact → Bool
  | finite _ | infinite _ => true
  | nan => false

def isFinite : Exact → Bool
  | finite _ => true
  | infinite _ | nan => false

def less : Exact → Exact → Bool
  | finite a, finite b => a < b
  | infinite m, infinite n => m && !n
  | infinite m, finite _ => m
  | finite _, infinite n => !n
  | nan, _ | _, nan => false

def atMost (x y : Exact) : Bool := x.isNumber && y.isNumber && !y.less x

end Exact

instance : Arithmetic Exact where
  sub := Exact.sub
  mul := Exact.mul
  div := Exact.div
  zero := .finite 0
  one := .finite 1
  unlimited := .infinite false
  tolerance := .finite (1 / 2 ^ 52)
  abs := Exact.abs
  isNumber := Exact.isNumber
  isFinite := Exact.isFinite
  less := Exact.less
  atMost := Exact.atMost

namespace Exact

/-! Among finite lengths all is as among rational numbers -/

@[simp] theorem finite_mul (a b : ℚ) : finite a * finite b = finite (a * b) := rfl

theorem finite_div (a : ℚ) {b : ℚ} (h : b ≠ 0) : finite a / finite b = finite (a / b) := if_pos h

@[simp] theorem atMost_finite {a b : ℚ} :
    Arithmetic.atMost (finite a) (finite b) = true ↔ a ≤ b := by
  change (!decide (b < a)) = true ↔ a ≤ b
  simp

@[simp] theorem less_finite {a b : ℚ} : Arithmetic.less (finite a) (finite b) = true ↔ a < b :=
  decide_eq_true_iff

theorem greatest_finite (a b : ℚ) :
    Arithmetic.greatest (finite a) (finite b) = finite (max a b) := by
  have hGreatest : Arithmetic.greatest (finite a) (finite b) =
      if Arithmetic.less (finite a) (finite b) then finite b else finite a := rfl
  rw [hGreatest]
  split
  · rename_i hLess
    rw [max_eq_right (less_finite.mp hLess).le]
  · rename_i hNot
    rw [max_eq_left (not_lt.mp fun hLess => hNot (less_finite.mpr hLess))]

/-! The order of the numbers -/

variable {x y z : Exact}

theorem isNumber_of_atMost (h : Arithmetic.atMost x y = true) :
    x.isNumber = true ∧ y.isNumber = true := by
  change (x.isNumber && y.isNumber && !y.less x) = true at h
  simp only [Bool.and_eq_true] at h
  exact h.1

theorem atMost_trans (hFirst : Arithmetic.atMost x y = true)
    (hSecond : Arithmetic.atMost y z = true) : Arithmetic.atMost x z = true := by
  change x.atMost y = true at hFirst
  change y.atMost z = true at hSecond
  change x.atMost z = true
  cases x <;> cases y <;> cases z <;> grind [atMost, less, isNumber]

theorem atMost_self (h : x.isNumber = true) : Arithmetic.atMost x x = true := by
  change x.atMost x = true
  cases x <;> grind [atMost, less, isNumber]

theorem atMost_of_less (h : Arithmetic.less x y = true) : Arithmetic.atMost x y = true := by
  change x.less y = true at h
  change x.atMost y = true
  cases x <;> cases y <;> grind [atMost, less, isNumber]

theorem atMost_of_not_less (hx : x.isNumber = true) (hy : y.isNumber = true)
    (h : Arithmetic.less x y ≠ true) : Arithmetic.atMost y x = true := by
  change (y.isNumber && x.isNumber && !Arithmetic.less x y) = true
  simp [hx, hy, h]

/-- The smaller of two numbers is the greatest that is at most both. -/
theorem atMost_least_iff (hx : x.isNumber = true) (hy : y.isNumber = true) :
    Arithmetic.atMost z (Arithmetic.least x y) = true ↔
      Arithmetic.atMost z x = true ∧ Arithmetic.atMost z y = true := by
  have hLeast : Arithmetic.least x y = if Arithmetic.less y x then y else x := if_pos hx
  rw [hLeast]
  split
  · rename_i hLess
    exact ⟨fun h => ⟨atMost_trans h (atMost_of_less hLess), h⟩, And.right⟩
  · rename_i hNot
    exact ⟨fun h => ⟨h, atMost_trans h (atMost_of_not_less hy hx hNot)⟩, And.left⟩

theorem isNumber_least (hx : x.isNumber = true) (hy : y.isNumber = true) :
    (Arithmetic.least x y).isNumber = true := by
  have hLeast : Arithmetic.least x y = if Arithmetic.less y x then y else x := if_pos hx
  rw [hLeast]
  split
  · exact hy
  · exact hx

end Exact

end ImagePlacement
