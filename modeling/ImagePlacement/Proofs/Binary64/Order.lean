import ImagePlacement.Proofs.Binary64.Arithmetic
import Mathlib.Order.Compare
import Mathlib.Order.Monotone.Basic

/-! The order of binary64. A number that is finite has a value, and numbers compare as what they
stand for. -/
namespace ImagePlacement

open Float.Model Exact Binary64
open Float.Model.UnpackedFloat (Sign)

namespace Binary64

variable {x y : Float} {m : Nat} {e : Int} {p q : ℚ}

theorem isFinite_ofFloat (x : Float) : (ofFloat x).isFinite = x.isFinite := by
  change (ofUnpacked x.toModel.unpack).isFinite = x.toModel.unpack.isFinite
  cases x.toModel.unpack with
  | finite _ _ _ _ => rfl
  | zero _ => rfl
  | infinity _ => rfl
  | notANumber => rfl

theorem isNumber_ofFloat (x : Float) : (ofFloat x).isNumber = Arithmetic.isNumber x := by
  change (ofUnpacked x.toModel.unpack).isNumber = !x.toModel.unpack.isNaN
  cases x.toModel.unpack with
  | finite _ _ _ _ => rfl
  | zero _ => rfl
  | infinity _ => rfl
  | notANumber => rfl

theorem abs_ofFloat (x : Float) : ofFloat (Arithmetic.abs x) = Arithmetic.abs (ofFloat x) := by
  have hCanonical := isCanonical_unpack x.toModel
  have hAbs : ofFloat (Arithmetic.abs x) = ofUnpacked (pack x.toModel.unpack.abs).unpack := rfl
  rw [hAbs, ofFloat]
  cases hUnpack : x.toModel.unpack with
  | finite s m e positive =>
      rw [hUnpack] at hCanonical
      have hPositive : IsCanonical (.finite .positive m e positive) := hCanonical
      refine (congrArg ofUnpacked (unpack_pack hPositive)).trans (congrArg finite ?_)
      rw [abs_value, factor, one_mul]
  | zero s =>
      have hPositive : IsCanonical (.zero .positive) := trivial
      exact (congrArg ofUnpacked (unpack_pack hPositive)).trans (congrArg finite abs_zero.symm)
  | infinity s =>
      have hPositive : IsCanonical (.infinity .positive) := trivial
      exact congrArg ofUnpacked (unpack_pack hPositive)
  | notANumber =>
      have hNone : IsCanonical .notANumber := trivial
      exact congrArg ofUnpacked (unpack_pack hNone)

/-- How two numbers compare; what is no number does not compare. -/
def compare? (x y : Exact) : Option Ordering :=
  if x.isNumber && y.isNumber then
    some (if x.less y then .lt else if y.less x then .gt else .eq)
  else none

theorem compare?_finite (p q : ℚ) : compare? (finite p) (finite q) = some (cmp p q) := by
  simp [compare?, cmp, cmpUsing, isNumber, Exact.less]

section Digits

variable {n : Nat} {f : Int} {hm : 0 < m} {hn : 0 < n} {s t : Sign}

/-- Exponents decide before digits: a number with a greater exponent has all its digits. -/
theorem value_lt_of_exponent (hFirst : IsCanonical (.finite s m e hm))
    (hSecond : IsCanonical (.finite t n f hn)) (hLess : e < f) : (m : ℚ) * 2 ^ e < n * 2 ^ f := by
  obtain ⟨hDigits, hLeast, -, -⟩ := hFirst
  obtain ⟨-, -, -, hFull⟩ := hSecond
  have hAll : 2 ^ 52 ≤ n := hFull.resolve_right (by omega)
  calc (m : ℚ) * 2 ^ e < 2 ^ 53 * 2 ^ e :=
        mul_lt_mul_of_pos_right (by exact_mod_cast hDigits) (two_zpow_pos e)
    _ = 2 ^ (53 + e) := by rw [zpow_add₀ two_ne_zero]; rfl
    _ ≤ 2 ^ (52 + f) := zpow_le_zpow_right₀ one_le_two (by omega)
    _ = 2 ^ 52 * 2 ^ f := by rw [zpow_add₀ two_ne_zero]; rfl
    _ ≤ n * 2 ^ f := mul_le_mul_of_nonneg_right (by exact_mod_cast hAll) (two_zpow_pos f).le

theorem compare_digits (hFirst : IsCanonical (.finite s m e hm))
    (hSecond : IsCanonical (.finite t n f hn)) :
    (compare e f).then (compare m n) = cmp ((m : ℚ) * 2 ^ e) (n * 2 ^ f) := by
  rcases lt_trichotomy e f with hLess | rfl | hMore
  · rw [(value_lt_of_exponent hFirst hSecond hLess).cmp_eq_lt, Int.compare_eq_lt.mpr hLess]
    rfl
  · rw [cmp_mul_pos_right (two_zpow_pos e), Nat.strictMono_cast.cmp_map_eq, cmp_eq_compare,
      Int.compare_eq_eq.mpr rfl]
    rfl
  · rw [(value_lt_of_exponent hSecond hFirst hMore).cmp_eq_gt, Int.compare_eq_gt.mpr hMore]
    rfl

/-- Finite numbers compare by their signs first, and then by what the digits stand for. -/
theorem compare_finite (hFirst : IsCanonical (.finite s m e hm))
    (hSecond : IsCanonical (.finite t n f hn)) :
    UnpackedFloat.compare (.finite s m e hm) (.finite t n f hn) =
      some (cmp (factor s * (m * 2 ^ e)) (factor t * (n * 2 ^ f))) := by
  have hPos := value_pos (e := e) hm
  have hOther := value_pos (e := f) hn
  have hDigits := compare_digits hFirst hSecond
  cases s with
  | negative =>
      cases t with
      | negative =>
          rw [cmp_mul_neg_left (by decide), ← cmp_swap, ← hDigits]
          rfl
      | positive =>
          rw [factor, factor, neg_one_mul, one_mul,
            ((neg_neg_of_pos hPos).trans hOther).cmp_eq_lt]
          rfl
  | positive =>
      cases t with
      | negative =>
          rw [factor, factor, neg_one_mul, one_mul,
            ((neg_neg_of_pos hOther).trans hPos).cmp_eq_gt]
          rfl
      | positive =>
          rw [factor, one_mul, one_mul, ← hDigits]
          rfl

theorem compare_zero_finite : UnpackedFloat.compare (.zero s) (.finite t n f hn) =
    some (cmp 0 (factor t * (n * 2 ^ f))) := by
  have hPos := value_pos (e := f) hn
  cases t with
  | negative =>
      rw [factor, neg_one_mul, (neg_neg_of_pos hPos).cmp_eq_gt]
      rfl
  | positive =>
      rw [factor, one_mul, hPos.cmp_eq_lt]
      rfl

theorem compare_finite_zero : UnpackedFloat.compare (.finite s m e hm) (.zero t) =
    some (cmp (factor s * (m * 2 ^ e)) 0) := by
  have hPos := value_pos (e := e) hm
  cases s with
  | negative =>
      rw [factor, neg_one_mul, (neg_neg_of_pos hPos).cmp_eq_lt]
      rfl
  | positive =>
      rw [factor, one_mul, hPos.cmp_eq_gt]
      rfl

end Digits

/-- Numbers that are held compare as what they stand for. -/
theorem compare_ofUnpacked {f g : UnpackedFloat} (hf : IsCanonical f) (hg : IsCanonical g) :
    f.compare g = compare? (ofUnpacked f) (ofUnpacked g) := by
  cases f with
  | notANumber => rfl
  | infinity s =>
      cases g with
      | notANumber => cases s <;> rfl
      | infinity t => cases s <;> cases t <;> rfl
      | zero t => cases s <;> rfl
      | finite t n f hn => cases s <;> rfl
  | zero s =>
      cases g with
      | notANumber => rfl
      | infinity t => cases t <;> rfl
      | zero t => exact (compare?_finite 0 0).symm
      | finite t n f hn => exact compare_zero_finite.trans (compare?_finite 0 _).symm
  | finite s m e hm =>
      cases g with
      | notANumber => cases s <;> rfl
      | infinity t => cases s <;> cases t <;> rfl
      | zero t => exact compare_finite_zero.trans (compare?_finite _ 0).symm
      | finite t n f hn => exact (compare_finite hf hg).trans (compare?_finite _ _).symm

theorem less_eq_compare? (x y : Exact) : x.less y = (compare? x y == some .lt) := by
  cases x <;> cases y <;> grind [compare?, Exact.less, isNumber]

theorem atMost_eq_compare? (x y : Exact) : x.atMost y = (compare? x y).any (·.isLE) := by
  cases x <;> cases y <;> grind [compare?, Exact.less, Exact.atMost, isNumber, Ordering.isLE]

theorem less_ofFloat (x y : Float) :
    Arithmetic.less x y = Arithmetic.less (ofFloat x) (ofFloat y) := by
  have hLess : Arithmetic.less x y = x.toModel.unpack.lt y.toModel.unpack := by
    rw [Bool.eq_iff_iff]
    exact decide_eq_true_iff.trans decide_eq_true_iff
  rw [hLess]
  refine Eq.trans ?_ (less_eq_compare? _ _).symm
  exact congrArg (· == some Ordering.lt)
    (compare_ofUnpacked (isCanonical_unpack x.toModel) (isCanonical_unpack y.toModel))

theorem atMost_ofFloat (x y : Float) :
    Arithmetic.atMost x y = Arithmetic.atMost (ofFloat x) (ofFloat y) := by
  have hAtMost : Arithmetic.atMost x y = x.toModel.unpack.le y.toModel.unpack := by
    rw [Bool.eq_iff_iff]
    exact decide_eq_true_iff.trans decide_eq_true_iff
  rw [hAtMost]
  refine Eq.trans ?_ (atMost_eq_compare? _ _).symm
  exact congrArg (Option.any (·.isLE))
    (compare_ofUnpacked (isCanonical_unpack x.toModel) (isCanonical_unpack y.toModel))

/-! Finite numbers -/

theorem exists_of_isFinite (h : x.isFinite = true) : ∃ q, ofFloat x = finite q := by
  rw [← isFinite_ofFloat] at h
  cases hValue : ofFloat x with
  | finite q => exact ⟨q, rfl⟩
  | infinite negative =>
      rw [hValue] at h
      cases h
  | nan =>
      rw [hValue] at h
      cases h

theorem lt_iff (hx : ofFloat x = finite p) (hy : ofFloat y = finite q) : x < y ↔ p < q := by
  have hLess := less_ofFloat x y
  rw [hx, hy] at hLess
  rw [← less_finite, ← hLess]
  exact decide_eq_true_iff.symm

theorem le_iff (hx : ofFloat x = finite p) (hy : ofFloat y = finite q) : x ≤ y ↔ p ≤ q := by
  have hAtMost := atMost_ofFloat x y
  rw [hx, hy] at hAtMost
  rw [← atMost_finite, ← hAtMost]
  exact decide_eq_true_iff.symm

/-! Constants, and the smaller and the larger of two numbers -/

theorem ofFloat_zero : ofFloat Arithmetic.zero = finite 0 := by
  decide

theorem ofFloat_one : ofFloat Arithmetic.one = finite 1 := by
  decide +kernel

theorem ofFloat_tolerance : ofFloat Arithmetic.tolerance = finite (1 / 2 ^ 52) := by
  decide +kernel

theorem ofFloat_unlimited : ofFloat Arithmetic.unlimited = infinite false := by
  decide

theorem ofFloat_greatest (x y : Float) :
    ofFloat (Arithmetic.greatest x y) = Arithmetic.greatest (ofFloat x) (ofFloat y) := by
  unfold Arithmetic.greatest
  rw [less_ofFloat, ← isNumber_ofFloat, apply_ite ofFloat, apply_ite ofFloat]
  rfl

theorem ofFloat_least (x y : Float) :
    ofFloat (Arithmetic.least x y) = Arithmetic.least (ofFloat x) (ofFloat y) := by
  unfold Arithmetic.least
  rw [less_ofFloat, ← isNumber_ofFloat, apply_ite ofFloat, apply_ite ofFloat]
  rfl

end Binary64

end ImagePlacement
