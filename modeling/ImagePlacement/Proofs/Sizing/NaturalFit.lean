import ImagePlacement.Proofs.Sizing.Exact
import Mathlib.Order.Bounds.Defs
import Mathlib.Tactic.Linarith

/-! The size of an image that no extent is asked for, computed without rounding. It is the largest
that fits its region, keeps the proportions and does not enlarge the image. -/
namespace ImagePlacement

open Exact

/-- A length fits an axis if the axis has no finite extent, or one that the length does not exceed.
An extent below zero leaves no room. -/
def Fits (extent : Option Exact) (length : ℚ) : Prop :=
  ∀ c, extent = some (.finite c) → length ≤ max c 0

/-- The scale that an axis allows for a natural extent; all that there are, if it is not limited. -/
def axisScale (extent : Option Exact) (natural : ℚ) : Exact :=
  ((Region.limit? extent).map (· / finite natural)).getD Arithmetic.unlimited

section Axis

variable {extent : Option Exact} {natural t : ℚ}

theorem fits_zero (extent : Option Exact) : Fits extent 0 := fun c _ => le_max_right c 0

theorem limit?_finite (c : ℚ) : Region.limit? (some (finite c)) = some (finite (max c 0)) :=
  congrArg some (greatest_finite c 0)

theorem axisScale_finite (c : ℚ) (hPositive : 0 < natural) :
    axisScale (some (finite c)) natural = finite (max c 0 / natural) := by
  rw [axisScale, limit?_finite]
  exact finite_div _ hPositive.ne'

/-- An axis allows a scale exactly if the scaled extent fits it. -/
theorem atMost_axisScale_iff (hPositive : 0 < natural) :
    Arithmetic.atMost (finite t) (axisScale extent natural) = true ↔ Fits extent (t * natural) := by
  have hUnlimited : Arithmetic.atMost (finite t) Arithmetic.unlimited = true := rfl
  cases extent with
  | none => exact iff_of_true hUnlimited nofun
  | some x =>
      cases x with
      | finite c =>
          rw [axisScale_finite c hPositive, atMost_finite, le_div_iff₀ hPositive]
          simp [Fits]
      | infinite negative => exact iff_of_true hUnlimited nofun
      | nan => exact iff_of_true hUnlimited nofun

end Axis

section Region

variable {width height t : ℚ} {region : Region Exact}

/-- A scale is at most the one that the image is fitted with exactly if it does not enlarge the
image and both scaled extents fit. -/
theorem atMost_fitScale_iff (hWidth : 0 < width) (hHeight : 0 < height) (region : Region Exact)
    (t : ℚ) :
    Arithmetic.atMost (finite t) (Size.fitScale ⟨finite width, finite height⟩ region) = true ↔
      Fits region.width (t * width) ∧ Fits region.height (t * height) ∧ t ≤ 1 := by
  have hScale : Size.fitScale ⟨finite width, finite height⟩ region =
      Arithmetic.least (Arithmetic.least (axisScale region.width width)
        (axisScale region.height height)) (finite 1) := rfl
  have hNumber {extent : Option Exact} {natural : ℚ} (hPositive : 0 < natural) :
      (axisScale extent natural).isNumber = true := by
    have hZero : Fits extent (0 * natural) := by
      rw [zero_mul]
      exact fits_zero extent
    exact (isNumber_of_atMost ((atMost_axisScale_iff hPositive).mpr hZero)).2
  rw [hScale, atMost_least_iff (isNumber_least (hNumber hWidth) (hNumber hHeight)) rfl,
    atMost_least_iff (hNumber hWidth) (hNumber hHeight), atMost_axisScale_iff hWidth,
    atMost_axisScale_iff hHeight, atMost_finite, and_assoc]

/-- The image is fitted with the greatest scale that is allowed. -/
theorem exists_fitScale (hWidth : 0 < width) (hHeight : 0 < height) (region : Region Exact) :
    ∃ t, Size.fitScale ⟨finite width, finite height⟩ region = finite t ∧
      IsGreatest {t | 0 ≤ t ∧ t ≤ 1 ∧ Fits region.width (t * width) ∧
        Fits region.height (t * height)} t := by
  have hAllowed := atMost_fitScale_iff hWidth hHeight region
  have hZero : Arithmetic.atMost (finite 0)
      (Size.fitScale ⟨finite width, finite height⟩ region) = true := by
    rw [hAllowed, zero_mul, zero_mul]
    exact ⟨fits_zero _, fits_zero _, zero_le_one⟩
  cases hScale : Size.fitScale ⟨finite width, finite height⟩ region with
  | finite t =>
      simp only [hScale, atMost_finite] at hAllowed hZero
      obtain ⟨hFitsWidth, hFitsHeight, hOne⟩ := (hAllowed t).mp le_rfl
      refine ⟨t, rfl, ⟨hZero, hOne, hFitsWidth, hFitsHeight⟩, ?_⟩
      rintro other ⟨-, hOtherOne, hOtherWidth, hOtherHeight⟩
      exact (hAllowed other).mpr ⟨hOtherWidth, hOtherHeight, hOtherOne⟩
  | infinite negative =>
      rw [hScale] at hZero
      cases negative with
      | true => cases hZero
      | false =>
          -- no scale above one is allowed
          have hTwo := hAllowed 2
          rw [hScale] at hTwo
          exact absurd (hTwo.mp rfl).2.2 (by norm_num)
  | nan =>
      rw [hScale] at hZero
      cases hZero

/-- An image drawn at a common multiple of both its extents has that multiple as both scales. -/
theorem fit_of_drawn {e : Extents Exact} (hWidth : 0 < width) (hHeight : 0 < height)
    (hValid : e.isValid = true)
    (hDrawn : Size.drawn ⟨finite width, finite height⟩ e region =
      ⟨finite (t * width), finite (t * height)⟩) :
    Box.fit ⟨finite width, finite height⟩ e region =
      .ok ⟨finite (t * width), finite (t * height), finite t, finite t⟩ := by
  have hPositive : Size.isPositive ⟨finite width, finite height⟩ = true :=
    Bool.and_eq_true_iff.mpr ⟨less_finite.mpr hWidth, less_finite.mpr hHeight⟩
  simp only [Box.fit, hPositive, hValid, hDrawn, Bool.not_true, Bool.false_eq_true, if_false,
    finite_div _ hWidth.ne', finite_div _ hHeight.ne', mul_div_cancel_right₀ t hWidth.ne',
    mul_div_cancel_right₀ t hHeight.ne']

theorem fit_natural_of_fitScale (hWidth : 0 < width) (hHeight : 0 < height)
    (hScale : Size.fitScale ⟨finite width, finite height⟩ region = finite t) :
    Box.fit ⟨finite width, finite height⟩ .natural region =
      .ok ⟨finite (t * width), finite (t * height), finite t, finite t⟩ := by
  refine fit_of_drawn hWidth hHeight rfl ?_
  simp only [Size.drawn, Extents.natural, hScale, finite_mul, mul_comm t]

/-- For a positive natural size and any region, an image that no extent is asked for is scaled by
the greatest number between zero and one with which both extents fit. So its box fits, is nowhere
larger than the image, and keeps its proportions; and no box with these properties is larger on
either axis. -/
theorem fit_natural_isGreatest (hWidth : 0 < width) (hHeight : 0 < height)
    (region : Region Exact) :
    ∃ t, Box.fit ⟨finite width, finite height⟩ .natural region =
        .ok ⟨finite (t * width), finite (t * height), finite t, finite t⟩ ∧
      IsGreatest {t | 0 ≤ t ∧ t ≤ 1 ∧ Fits region.width (t * width) ∧
        Fits region.height (t * height)} t ∧
      (Fits region.width (t * width) ∧ Fits region.height (t * height) ∧
        t * width ≤ width ∧ t * height ≤ height ∧
        t * width * height = t * height * width) ∧
      ∀ w h, Fits region.width w → Fits region.height h → w ≤ width → h ≤ height →
        w * height = h * width → w ≤ t * width ∧ h ≤ t * height := by
  obtain ⟨t, hScale, hGreatest⟩ := exists_fitScale hWidth hHeight region
  have ⟨⟨hZero, hOne, hFitsWidth, hFitsHeight⟩, hUpper⟩ := hGreatest
  refine ⟨t, fit_natural_of_fitScale hWidth hHeight hScale, hGreatest,
    ⟨hFitsWidth, hFitsHeight, ?_, ?_, mul_right_comm t width height⟩, ?_⟩
  · exact mul_le_of_le_one_left hWidth.le hOne
  · exact mul_le_of_le_one_left hHeight.le hOne
  · intro w h hw hh hWider hHigher hAspect
    -- The other box has a common scale as well.
    have hScaleWidth : w / width * width = w := div_mul_cancel₀ w hWidth.ne'
    have hScaleHeight : w / width * height = h := by
      rw [div_mul_eq_mul_div, hAspect, mul_div_cancel_right₀ h hWidth.ne']
    have hLe : w / width ≤ t := by
      rcases le_or_gt 0 (w / width) with hNatural | hBelow
      · refine hUpper ⟨hNatural, (div_le_one hWidth).mpr hWider, ?_, ?_⟩
        · rwa [hScaleWidth]
        · rwa [hScaleHeight]
      · exact hBelow.le.trans hZero
    constructor
    · calc
        w = w / width * width := hScaleWidth.symm
        _ ≤ t * width := mul_le_mul_of_nonneg_right hLe hWidth.le
    · calc
        h = w / width * height := hScaleHeight.symm
        _ ≤ t * height := mul_le_mul_of_nonneg_right hLe hHeight.le

/-- A wide image in a region without a width that is a number. -/
theorem fit_natural_isGreatest_wide : ∃ t,
    (0 : ℚ) < 400 ∧ (0 : ℚ) < 200 ∧
    Box.fit ⟨finite 400, finite 200⟩ .natural ⟨some .nan, some (finite 50)⟩ =
      .ok ⟨finite (t * 400), finite (t * 200), finite t, finite t⟩ ∧ t = 1 / 4 := by
  have hWidth : (0 : ℚ) < 400 := by norm_num
  have hHeight : (0 : ℚ) < 200 := by norm_num
  obtain ⟨t, hFit, ⟨⟨-, -, -, hFits⟩, hUpper⟩, -⟩ :=
    fit_natural_isGreatest hWidth hHeight ⟨some .nan, some (finite 50)⟩
  refine ⟨t, hWidth, hHeight, hFit, le_antisymm ?_ ?_⟩
  · have hBound : t * 200 ≤ max 50 0 := hFits 50 rfl
    rw [max_eq_left (by norm_num)] at hBound
    linarith
  · refine hUpper ⟨by norm_num, by norm_num, nofun, ?_⟩
    rintro c ⟨⟩
    norm_num

end Region

end ImagePlacement
