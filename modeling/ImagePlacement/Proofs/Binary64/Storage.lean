import ImagePlacement.Proofs.Binary64.Layout
import ImagePlacement.Proofs.Binary64.Rounding
import ImagePlacement.Proofs.Sizing.Exact
import Mathlib.Tactic.Positivity

/-! How binary64 holds the result of an operation. The digits are shifted to where 53 of them are
left and rounded by what was shifted out; too great a number becomes an infinity. -/
namespace ImagePlacement.Binary64

open Float.Model
open Float.Model.UnpackedFloat (Sign ExtendedMantissa Accuracy)

variable {m : Nat} {e : Int} {v x : ℚ}

/-! Rounding of digits -/

/-- A number lies where the digits, the half that follows them and the remainder say. -/
def Describes (digits : ExtendedMantissa) (x : ℚ) : Prop :=
  match digits with
  | ⟨n, false, false⟩ => x = n
  | ⟨n, false, true⟩ => n < x ∧ x < n + 1 / 2
  | ⟨n, true, false⟩ => x = n + 1 / 2
  | ⟨n, true, true⟩ => n + 1 / 2 < x ∧ x < n + 1

namespace Describes

variable {digits : ExtendedMantissa}

theorem shiftRightOne (h : Describes digits x) : Describes digits.shiftRightOne (x / 2) := by
  obtain ⟨n, half, rest⟩ := digits
  have hHalves : ((n / 2 : ℕ) : ℚ) * 2 + (n % 2 : ℕ) = n := by
    exact_mod_cast Nat.div_add_mod' n 2
  rcases Nat.mod_two_eq_zero_or_one n with hEven | hOdd
  · have hBit : (n % 2 != 0) = false := by rw [hEven]; rfl
    rw [hEven, Nat.cast_zero, add_zero] at hHalves
    cases half <;> cases rest <;>
      simp only [Describes, ExtendedMantissa.shiftRightOne, hBit, Bool.or_false, Bool.or_true]
        at h ⊢
    · linarith
    · constructor <;> linarith [h.1, h.2]
    · constructor <;> linarith
    · constructor <;> linarith [h.1, h.2]
  · have hBit : (n % 2 != 0) = true := by rw [hOdd]; rfl
    rw [hOdd, Nat.cast_one] at hHalves
    cases half <;> cases rest <;>
      simp only [Describes, ExtendedMantissa.shiftRightOne, hBit, Bool.or_false, Bool.or_true]
        at h ⊢
    · linarith
    · constructor <;> linarith [h.1, h.2]
    · constructor <;> linarith
    · constructor <;> linarith [h.1, h.2]

theorem shiftRight (h : Describes digits x) (count : Nat) :
    Describes (digits >>> count) (x / 2 ^ count) := by
  induction count with
  | zero =>
      rw [pow_zero, div_one]
      exact h
  | succ count ih =>
      rw [pow_succ, ← div_div]
      exact ih.shiftRightOne

theorem bounds (h : Describes digits x) : digits.mantissa ≤ x ∧ x < digits.mantissa + 1 := by
  obtain ⟨n, half, rest⟩ := digits
  cases half <;> cases rest <;> simp only [Describes] at h ⊢
  · constructor <;> linarith
  · constructor <;> linarith [h.1, h.2]
  · constructor <;> linarith
  · constructor <;> linarith [h.1, h.2]

theorem roundedMantissa_bounds (digits : ExtendedMantissa) :
    digits.mantissa ≤ digits.roundedMantissa ∧
      digits.roundedMantissa ≤ digits.mantissa + 1 := by
  obtain ⟨n, half, rest⟩ := digits
  have := Nat.mod_lt n two_pos
  cases half <;> cases rest <;>
    simp only [ExtendedMantissa.roundedMantissa, ExtendedMantissa.accuracy,
      Accuracy.roundToNearestEven] <;> omega

/-- The digits are rounded by one half at most. -/
theorem abs_roundedMantissa_sub_le (h : Describes digits x) :
    |(digits.roundedMantissa : ℚ) - x| ≤ 1 / 2 := by
  obtain ⟨n, half, rest⟩ := digits
  cases half <;> cases rest <;> simp only [Describes, ExtendedMantissa.roundedMantissa,
      ExtendedMantissa.accuracy, Accuracy.roundToNearestEven] at h ⊢
  · rw [h, sub_self, abs_zero]
    norm_num
  · rw [abs_le]
    constructor <;> linarith [h.1, h.2]
  · have hTie : ((n % 2 : ℕ) : ℚ) ≤ 1 := by exact_mod_cast Nat.lt_succ_iff.mp (Nat.mod_lt n two_pos)
    have hNonneg : (0 : ℚ) ≤ ((n % 2 : ℕ) : ℚ) := Nat.cast_nonneg _
    rw [abs_le]
    push_cast
    constructor <;> linarith
  · rw [abs_le]
    push_cast
    constructor <;> linarith [h.1, h.2]

end Describes

/-! Numbers as they are stored -/

def factor : Sign → ℚ
  | .negative => -1
  | .positive => 1

theorem abs_factor (s : Sign) : |factor s| = 1 := by
  cases s with
  | negative => rfl
  | positive => rfl

end ImagePlacement.Binary64

namespace ImagePlacement.Exact

open Float.Model
open Float.Model.UnpackedFloat (Sign ExtendedMantissa Accuracy)

/-- The number that a sign, digits and an exponent stand for. -/
def ofUnpacked : UnpackedFloat → Exact
  | .finite s m e _ => finite (Binary64.factor s * (m * 2 ^ e))
  | .zero _ => finite 0
  | .infinity s => infinite (s == .negative)
  | .notANumber => nan

end ImagePlacement.Exact

namespace ImagePlacement.Binary64

open Float.Model Exact
open Float.Model.UnpackedFloat (Sign Accuracy ExtendedMantissa roundWithAccuracy
  shiftToTargetExponent)

variable {f : UnpackedFloat} {s : Sign} {m : Nat} {e : Int} {positive : 0 < m} {q r v : ℚ}

/-- What binary64 holds in the place of a number: the number rounded, or an infinity if that is too
large. -/
def Stores (x : Exact) (q : ℚ) : Prop :=
  ∃ r, Rounds q r ∧ x = if |r| < 2 ^ 1024 then finite r else infinite (q < 0)

theorem abs_value (s : Sign) (m : Nat) (e : Int) :
    |factor s * (m * 2 ^ e)| = (m : ℚ) * 2 ^ e := by
  rw [abs_mul, abs_factor, one_mul, abs_of_nonneg]
  exact mul_nonneg (Nat.cast_nonneg m) (two_zpow_pos e).le

theorem value_lt (h : IsCanonical (.finite s m e positive)) : (m : ℚ) * 2 ^ e < 2 ^ 1024 := by
  obtain ⟨hDigits, -, hGreatest, -⟩ := h
  calc (m : ℚ) * 2 ^ e < 2 ^ 53 * 2 ^ e :=
        mul_lt_mul_of_pos_right (by exact_mod_cast hDigits) (two_zpow_pos e)
    _ ≤ 2 ^ 53 * 2 ^ (971 : ℤ) :=
        mul_le_mul_of_nonneg_left (zpow_le_zpow_right₀ one_le_two hGreatest) (by positivity)
    _ = 2 ^ 1024 := by rw [← zpow_natCast, ← zpow_add₀ two_ne_zero]; rfl

/-- A number with an exponent that may be too great is stored as it is, or as an infinity. -/
theorem ofUnpacked_pack (hDigits : m < 2 ^ 53) (hLeast : -1074 ≤ e)
    (hFull : 2 ^ 52 ≤ m ∨ e = -1074) :
    ofUnpacked (pack (.finite s m e positive)).unpack =
      if |factor s * (m * 2 ^ e)| < 2 ^ 1024 then finite (factor s * (m * 2 ^ e))
      else infinite (s == .negative) := by
  rw [abs_value]
  rcases le_or_gt e 971 with hSmall | hLarge
  · have hCanonical : IsCanonical (.finite s m e positive) := ⟨hDigits, hLeast, hSmall, hFull⟩
    rw [if_pos (value_lt hCanonical), unpack_pack hCanonical]
    rfl
  · have hOver : (2 : ℚ) ^ 1024 ≤ m * 2 ^ e := by
      have hAll : 2 ^ 52 ≤ m := hFull.resolve_right (by omega)
      calc (2 : ℚ) ^ 1024 = 2 ^ 52 * 2 ^ (972 : ℤ) := by
            rw [← zpow_natCast, ← zpow_natCast, ← zpow_add₀ two_ne_zero]; rfl
        _ ≤ 2 ^ 52 * 2 ^ e :=
            mul_le_mul_of_nonneg_left (zpow_le_zpow_right₀ one_le_two hLarge) (by positivity)
        _ ≤ m * 2 ^ e :=
            mul_le_mul_of_nonneg_right (by exact_mod_cast hAll) (two_zpow_pos e).le
    rw [if_neg (not_lt.mpr hOver), unpack_pack_of_large hLarge]
    rfl

theorem stores_zero (s : Sign) : Stores (ofUnpacked (pack (.zero s)).unpack) 0 := by
  refine ⟨0, rounds_zero, ?_⟩
  rw [abs_zero, if_pos (by positivity), unpack_pack (by trivial)]
  rfl

theorem targetExponent_eq (m : Nat) (e : Int) :
    Format.binary64.targetExponent (totalExponent m e) =
      max ((m.log2 : Int) + 1 + e - 53) (-1074) := rfl

/-- Digits that are too few to be shifted stay as they are. -/
theorem shiftToTargetExponent_of_lt (hDigits : m < 2 ^ 53) (hLeast : -1074 ≤ e) :
    shiftToTargetExponent Format.binary64 m e .exact = (⟨m, false, false⟩, e) := by
  have hLog : m.log2 ≤ 52 := by
    rcases Nat.eq_zero_or_pos m with rfl | hPos
    · decide
    · have := (Nat.log2_lt hPos.ne').mpr hDigits
      omega
  have hStay : (max ((m.log2 : Int) + 1 + e - 53) (-1074) - e).toNat = 0 := by omega
  simp only [shiftToTargetExponent, targetExponent_eq, UnpackedFloat.shiftToExponent, hStay,
    Int.natCast_zero, add_zero]
  rfl

theorem shiftToTargetExponent_two_pow (hLeast : -1074 ≤ e) :
    shiftToTargetExponent Format.binary64 (2 ^ 53) e .exact = (⟨2 ^ 52, false, false⟩, e + 1) := by
  have hStep : (max (((2 ^ 53).log2 : Int) + 1 + e - 53) (-1074) - e).toNat = 1 := by
    rw [Nat.log2_two_pow]
    omega
  simp only [shiftToTargetExponent, targetExponent_eq, UnpackedFloat.shiftToExponent, hStep]
  rfl

theorem Rounds.signed (h : Rounds v r) (s : Sign) : Rounds (factor s * v) (factor s * r) := by
  cases s with
  | negative =>
      rw [factor, neg_one_mul, neg_one_mul]
      exact h.neg
  | positive =>
      rw [factor, one_mul, one_mul]
      exact h

/-- The sign of a number is that of what is stored in its place. -/
theorem stores_of_eq (hPos : 0 < v) (h : Rounds v r) {x : Exact}
    (hx : x = if |factor s * r| < 2 ^ 1024 then finite (factor s * r)
      else infinite (s == .negative)) : Stores x (factor s * v) := by
  refine ⟨_, h.signed s, ?_⟩
  have hSign : (s == .negative) = decide (factor s * v < 0) := by
    cases s with
    | negative =>
        have hBelow : factor .negative * v < 0 := by
          rw [factor, neg_one_mul]
          exact neg_neg_of_pos hPos
        exact (decide_eq_true hBelow).symm
    | positive =>
        have hAbove : ¬ factor .positive * v < 0 := by
          rw [factor, one_mul]
          exact not_lt.mpr hPos.le
        exact (decide_eq_false hAbove).symm
  rw [hx, hSign]

/-- The leading digit of a number that starts with given digits. -/
theorem leading_of_describes {accuracy : Accuracy}
    (h : Describes (.ofMantissaAndAccuracy m accuracy) (v / 2 ^ e)) :
    v < 2 ^ ((m.log2 : Int) + 1 + e) ∧ (m ≠ 0 → 2 ^ ((m.log2 : Int) + e) ≤ v) := by
  have hMantissa : (ExtendedMantissa.ofMantissaAndAccuracy m accuracy).mantissa = m := by
    rcases accuracy with _ | _ | _ | _ <;> rfl
  have hPow := two_zpow_pos e
  obtain ⟨hLow, hHigh⟩ := h.bounds
  rw [hMantissa] at hLow hHigh
  constructor
  · have hNext : (m : ℚ) + 1 ≤ 2 ^ (m.log2 + 1) := by
      exact_mod_cast Nat.lt_log2_self
    rw [div_lt_iff₀ hPow] at hHigh
    rw [zpow_add₀ two_ne_zero]
    exact hHigh.trans_le (mul_le_mul_of_nonneg_right (by exact_mod_cast hNext) hPow.le)
  · intro hNonzero
    have hLead : (2 : ℚ) ^ m.log2 ≤ m := by exact_mod_cast Nat.log2_self_le hNonzero
    rw [le_div_iff₀ hPow] at hLow
    rw [zpow_add₀ two_ne_zero, zpow_natCast]
    exact (mul_le_mul_of_nonneg_right hLead hPow.le).trans hLow

/-- The digits that a number is rounded to, before those that are one too many are shifted out. -/
theorem roundsAt_shift {accuracy : Accuracy} (hFine : 52 ≤ m.log2 ∨ e ≤ -1074) (hPos : 0 < v)
    (h : Describes (.ofMantissaAndAccuracy m accuracy) (v / 2 ^ e)) :
    ∃ digits t, shiftToTargetExponent Format.binary64 m e accuracy = (digits, t) ∧
      RoundsAt t v (digits.roundedMantissa * 2 ^ t) ∧ digits.roundedMantissa ≤ 2 ^ 53 ∧
      (2 ^ 52 ≤ digits.roundedMantissa ∨ t = -1074) := by
  obtain ⟨hUpper, hLower⟩ := leading_of_describes h
  generalize hTarget : max ((m.log2 : Int) + 1 + e - 53) (-1074) = t
  have hLeast : -1074 ≤ t := by omega
  have hAim : e ≤ t := by omega
  have hCount : ((t - e).toNat : Int) = t - e := Int.toNat_of_nonneg (by omega)
  have hPow := two_zpow_pos t
  have hShift := h.shiftRight (t - e).toNat
  rw [div_div, ← zpow_natCast, ← zpow_add₀ two_ne_zero, hCount, add_sub_cancel] at hShift
  have hLt : v < 2 ^ (t + 53) :=
    hUpper.trans_le (zpow_le_zpow_right₀ one_le_two (by omega))
  have hFull : 2 ^ (t + 52) ≤ v ∨ t = -1074 := by
    by_cases hMin : t = -1074
    · exact Or.inr hMin
    · have hLog : 52 ≤ m.log2 := by omega
      have hNonzero : m ≠ 0 := by
        rintro rfl
        exact absurd hLog (by decide)
      have hExponent : t + 52 = (m.log2 : Int) + e := by omega
      rw [hExponent]
      exact Or.inl (hLower hNonzero)
  generalize hDigits : ExtendedMantissa.ofMantissaAndAccuracy m accuracy >>> (t - e).toNat = digits
    at hShift
  obtain ⟨hFloor, hCeil⟩ := hShift.bounds
  obtain ⟨hMore, hLess⟩ := Describes.roundedMantissa_bounds digits
  refine ⟨digits, t, ?_, ⟨hLeast, ?_, ?_, ⟨digits.roundedMantissa, by norm_cast⟩, ?_⟩, ?_, ?_⟩
  · simp only [shiftToTargetExponent, targetExponent_eq, hTarget, UnpackedFloat.shiftToExponent,
      hDigits, hCount, add_sub_cancel]
  · rwa [abs_of_pos hPos]
  · rwa [abs_of_pos hPos]
  · have hNear := mul_le_mul_of_nonneg_right hShift.abs_roundedMantissa_sub_le hPow.le
    rw [← abs_of_pos hPow, ← abs_mul, abs_of_pos hPow, sub_mul, div_mul_cancel₀ v hPow.ne',
      one_div_mul_eq_div] at hNear
    exact hNear
  · have hBelow : digits.mantissa < 2 ^ 53 := by
      have hQuotient : v / 2 ^ t < 2 ^ 53 := by
        rw [div_lt_iff₀ hPow, ← zpow_natCast, ← zpow_add₀ two_ne_zero, add_comm]
        exact hLt
      exact_mod_cast hFloor.trans_lt hQuotient
    omega
  · refine hFull.imp_left fun hAll => ?_
    have hQuotient : 2 ^ 52 ≤ v / 2 ^ t := by
      rw [le_div_iff₀ hPow, ← zpow_natCast, ← zpow_add₀ two_ne_zero, add_comm]
      exact hAll
    have hAbove : 2 ^ 52 < digits.mantissa + 1 := by exact_mod_cast hQuotient.trans_lt hCeil
    omega

/-- Rounding is two shifts, with the digits rounded in between. -/
theorem roundWithAccuracy_eq {accuracy : Accuracy} {digits final : ExtendedMantissa} {t last : Int}
    (hFirst : shiftToTargetExponent Format.binary64 m e accuracy = (digits, t))
    (hSecond : shiftToTargetExponent Format.binary64 digits.roundedMantissa t .exact =
      (final, last)) :
    roundWithAccuracy Format.binary64 s m e accuracy =
      if h : final.mantissa = 0 then .zero s
      else .finite s final.mantissa last (Nat.pos_of_ne_zero h) := by
  rw [roundWithAccuracy, hFirst]
  dsimp only
  rw [hSecond]

theorem stores_roundWithAccuracy {accuracy : Accuracy} (hFine : 52 ≤ m.log2 ∨ e ≤ -1074)
    (hPos : 0 < v) (h : Describes (.ofMantissaAndAccuracy m accuracy) (v / 2 ^ e)) (s : Sign) :
    Stores (ofUnpacked (pack (roundWithAccuracy Format.binary64 s m e accuracy)).unpack)
      (factor s * v) := by
  obtain ⟨digits, t, hShift, hRounds, hDigits, hFull⟩ := roundsAt_shift hFine hPos h
  have hLeast := hRounds.least
  refine stores_of_eq hPos ⟨t, hRounds⟩ ?_
  rcases hDigits.lt_or_eq with hLess | hCarry
  · rw [roundWithAccuracy_eq hShift (shiftToTargetExponent_of_lt hLess hLeast)]
    by_cases hZero : digits.roundedMantissa = 0
    · have hNone : (digits.roundedMantissa : ℚ) = 0 := by exact_mod_cast hZero
      rw [dif_pos hZero, hNone, zero_mul, mul_zero, abs_zero, if_pos (by positivity),
        unpack_pack (by trivial)]
      rfl
    · rw [dif_neg hZero]
      exact ofUnpacked_pack hLess hLeast hFull
  · have hSecond := shiftToTargetExponent_two_pow hLeast
    rw [← hCarry] at hSecond
    have hSame : (digits.roundedMantissa : ℚ) * 2 ^ t = (2 ^ 52 : ℕ) * 2 ^ (t + 1) := by
      rw [hCarry, zpow_add₀ two_ne_zero]
      norm_num
      ring
    rw [roundWithAccuracy_eq hShift hSecond, hSame]
    exact ofUnpacked_pack (by decide) (by omega) (Or.inl le_rfl)

/-! What is known of a stored number -/

namespace Stores

variable {c : ℚ} {z : Exact}

theorem rounds (h : Stores (finite r) q) : Rounds q r := by
  obtain ⟨found, hRounds, hStored⟩ := h
  split at hStored
  · obtain rfl := Exact.finite.inj hStored
    exact hRounds
  · cases hStored

/-- Nothing leads beyond a number that is held as it is. -/
theorem atMost (h : Stores z q) (hc : Rounds c c) (hNonneg : 0 ≤ c) (hLe : c ≤ q) :
    Arithmetic.atMost (finite c) z = true := by
  obtain ⟨found, hRounds, rfl⟩ := h
  split
  · exact atMost_finite.mpr (hRounds.ge_of_ge hc hNonneg hLe)
  · rw [decide_eq_false (not_lt.mpr (hNonneg.trans hLe))]
    rfl

/-- What does not exceed a number that is held is stored as a number. -/
theorem exists_finite (h : Stores z q) (hc : Rounds c c) (hUnder : c < 2 ^ 1024) (hLe : |q| ≤ c) :
    ∃ r, z = finite r ∧ Rounds q r := by
  obtain ⟨r, hRounds, rfl⟩ := h
  have hBound : |r| ≤ c := hRounds.abs.le_of_le hc (abs_nonneg q) hLe
  exact ⟨r, if_pos (hBound.trans_lt hUnder), hRounds⟩

theorem eq_zero (h : Stores z 0) : z = finite 0 := by
  obtain ⟨r, rfl, hRounds⟩ :=
    h.exists_finite rounds_zero (by positivity) (abs_zero (α := ℚ)).le
  rw [hRounds.eq_of_self rounds_zero le_rfl]

end Stores

end ImagePlacement.Binary64
