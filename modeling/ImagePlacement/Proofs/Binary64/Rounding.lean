import Mathlib.Algebra.Order.Field.Basic
import Mathlib.Algebra.Order.Field.Power
import Mathlib.Algebra.Order.Field.Rat
import Mathlib.Tactic.Linarith
import Mathlib.Tactic.NormNum
import Mathlib.Tactic.Ring

/-! Rational numbers rounded to 53 binary digits. Only what holds however halves are rounded is used
here. -/
namespace ImagePlacement.Binary64

variable {e k : ℤ} {a b c q r : ℚ}

/-- A whole multiple of a power of two. -/
def IsMultiple (e : ℤ) (q : ℚ) : Prop := ∃ n : ℤ, q = n * 2 ^ e

theorem two_zpow_pos (e : ℤ) : (0 : ℚ) < 2 ^ e := zpow_pos two_pos e

theorem two_zpow_lt_iff : (2 : ℚ) ^ e < 2 ^ k ↔ e < k := zpow_lt_zpow_iff_right₀ one_lt_two

namespace IsMultiple

theorem mono (h : IsMultiple k q) (hLe : e ≤ k) : IsMultiple e q := by
  obtain ⟨n, rfl⟩ := h
  refine ⟨n * 2 ^ (k - e).toNat, ?_⟩
  have hSplit : (2 : ℚ) ^ k = 2 ^ (k - e).toNat * 2 ^ e := by
    rw [← zpow_natCast, ← zpow_add₀ two_ne_zero]
    congr 1
    omega
  rw [hSplit]
  push_cast
  ring

theorem neg (h : IsMultiple e q) : IsMultiple e (-q) := by
  obtain ⟨n, rfl⟩ := h
  exact ⟨-n, by push_cast; ring⟩

theorem add (ha : IsMultiple e a) (hb : IsMultiple e b) : IsMultiple e (a + b) := by
  obtain ⟨m, rfl⟩ := ha
  obtain ⟨n, rfl⟩ := hb
  exact ⟨m + n, by push_cast; ring⟩

theorem sub (ha : IsMultiple e a) (hb : IsMultiple e b) : IsMultiple e (a - b) := by
  rw [sub_eq_add_neg]
  exact ha.add hb.neg

theorem step (e : ℤ) : IsMultiple e (2 ^ e) := ⟨1, by rw [Int.cast_one, one_mul]⟩

theorem abs (h : IsMultiple e q) : IsMultiple e |q| := by
  rcases abs_choice q with hSame | hOther
  · rwa [hSame]
  · rw [hOther]
    exact h.neg

/-- Between two multiples there is at least one whole step. -/
theorem le_of_lt_add (ha : IsMultiple e a) (hb : IsMultiple e b) (h : a < b + 2 ^ e) : a ≤ b := by
  obtain ⟨m, rfl⟩ := ha
  obtain ⟨n, rfl⟩ := hb
  have hPos := two_zpow_pos e
  have hStep : (m : ℚ) < n + 1 := by
    refine lt_of_mul_lt_mul_right ?_ hPos.le
    rwa [add_mul, one_mul]
  have hLe : m ≤ n := Int.lt_add_one_iff.mp (by exact_mod_cast hStep)
  exact mul_le_mul_of_nonneg_right (by exact_mod_cast hLe) hPos.le

theorem eq_of_abs_sub_lt (ha : IsMultiple e a) (hb : IsMultiple e b) (h : |a - b| < 2 ^ e) :
    a = b := by
  obtain ⟨hLow, hHigh⟩ := abs_lt.mp h
  exact le_antisymm (ha.le_of_lt_add hb (by linarith)) (hb.le_of_lt_add ha (by linarith))

end IsMultiple

/-- A number is rounded to a nearest multiple of a power of two: the one that leaves it 53 binary
digits, or the least one there is. -/
structure RoundsAt (e : ℤ) (q r : ℚ) : Prop where
  least : -1074 ≤ e
  lt : |q| < 2 ^ (e + 53)
  full : 2 ^ (e + 52) ≤ |q| ∨ e = -1074
  multiple : IsMultiple e r
  near : |r - q| ≤ 2 ^ e / 2

def Rounds (q r : ℚ) : Prop := ∃ e, RoundsAt e q r

namespace RoundsAt

theorem le_of_abs_lt (h : RoundsAt e q r) (hLeast : -1074 ≤ k) (hLt : |q| < 2 ^ (k + 53)) :
    e ≤ k := by
  rcases h.full with hFull | rfl
  · have := two_zpow_lt_iff.mp (hFull.trans_lt hLt)
    omega
  · exact hLeast

theorem le_of_le_abs (h : RoundsAt e q r) (hLe : 2 ^ (k + 52) ≤ |q|) : k ≤ e := by
  have := two_zpow_lt_iff.mp (hLe.trans_lt h.lt)
  omega

theorem half_le (h : RoundsAt e q r) (hNormal : 2 ^ (-1022 : ℤ) ≤ |q|) : 2 ^ (e + 52) ≤ |q| := by
  rcases h.full with hFull | rfl
  · exact hFull
  · exact hNormal

end RoundsAt

theorem rounds_zero : Rounds 0 0 := by
  refine ⟨-1074, le_rfl, ?_, Or.inr rfl, ⟨0, by simp⟩, ?_⟩
  · rw [abs_zero]
    exact two_zpow_pos _
  · rw [sub_self, abs_zero]
    exact (half_pos (two_zpow_pos _)).le

/-- A power of two that is not too small is held as it is. -/
theorem rounds_two_zpow (hLeast : -1022 ≤ e) : Rounds (2 ^ e) (2 ^ e) := by
  have hPos := two_zpow_pos e
  refine ⟨e - 52, by omega, ?_, Or.inl ?_, (IsMultiple.step e).mono (by omega), ?_⟩
  · rw [abs_of_pos hPos]
    exact two_zpow_lt_iff.mpr (by omega)
  · rw [abs_of_pos hPos, sub_add_cancel]
  · rw [sub_self, abs_zero]
    exact (half_pos (two_zpow_pos _)).le

/-- A whole number with no more than 53 digits is held as it is. -/
theorem rounds_natCast {n : ℕ} (hLt : n < 2 ^ 53) : Rounds n n := by
  rcases Nat.eq_zero_or_pos n with rfl | hPos
  · rw [Nat.cast_zero]
    exact rounds_zero
  have hLog : n.log2 < 53 := (Nat.log2_lt hPos.ne').mpr hLt
  have hWhole : IsMultiple 0 n := ⟨n, by rw [zpow_zero, mul_one, Int.cast_natCast]⟩
  have hUpper : (n.log2 : ℤ) - 52 + 53 = (n.log2 + 1 : ℕ) := by omega
  refine ⟨n.log2 - 52, by omega, ?_, Or.inl ?_, hWhole.mono (by omega), ?_⟩
  · rw [Nat.abs_cast, hUpper, zpow_natCast]
    exact_mod_cast Nat.lt_log2_self
  · rw [Nat.abs_cast, sub_add_cancel, zpow_natCast]
    exact_mod_cast Nat.log2_self_le hPos.ne'
  · rw [sub_self, abs_zero]
    exact (half_pos (two_zpow_pos _)).le

namespace Rounds

theorem neg (h : Rounds q r) : Rounds (-q) (-r) := by
  obtain ⟨e, h⟩ := h
  refine ⟨e, h.least, ?_, ?_, h.multiple.neg, ?_⟩
  · rw [abs_neg]
    exact h.lt
  · rw [abs_neg]
    exact h.full
  · rw [neg_sub_neg, abs_sub_comm]
    exact h.near

theorem abs (h : Rounds q r) : Rounds |q| |r| := by
  obtain ⟨e, h⟩ := h
  refine ⟨e, h.least, ?_, ?_, h.multiple.abs, (abs_abs_sub_abs_le r q).trans h.near⟩
  · rw [abs_abs]
    exact h.lt
  · rw [abs_abs]
    exact h.full

theorem isMultiple (h : Rounds q r) (hLe : 2 ^ (k + 52) ≤ |q|) : IsMultiple k r := by
  obtain ⟨e, h⟩ := h
  exact h.multiple.mono (h.le_of_le_abs hLe)

theorem abs_sub_le_of_lt (h : Rounds q r) (hLeast : -1074 ≤ k) (hLt : |q| < 2 ^ (k + 53)) :
    |r - q| ≤ 2 ^ k / 2 := by
  obtain ⟨e, h⟩ := h
  have hPow : (2 : ℚ) ^ e ≤ 2 ^ k :=
    zpow_le_zpow_right₀ one_le_two (h.le_of_abs_lt hLeast hLt)
  linarith [h.near]

/-- A number that has few digits is not changed. -/
theorem eq_self (h : Rounds q r) (hLeast : -1074 ≤ k) (hLt : |q| < 2 ^ (k + 53))
    (hMultiple : IsMultiple k q) : r = q := by
  obtain ⟨e, h⟩ := h
  refine h.multiple.eq_of_abs_sub_lt (hMultiple.mono (h.le_of_abs_lt hLeast hLt)) ?_
  have := two_zpow_pos e
  linarith [h.near]

theorem abs_sub_le_of_le (h : Rounds q r) (hLeast : -1074 ≤ k) (hNonneg : 0 ≤ q)
    (hLe : q ≤ 2 ^ (k + 53)) : |r - q| ≤ 2 ^ k / 2 := by
  rcases hLe.lt_or_eq with hLt | rfl
  · refine h.abs_sub_le_of_lt hLeast ?_
    rwa [abs_of_nonneg hNonneg]
  · have hSelf : r = 2 ^ (k + 53) := by
      refine h.eq_self (k := k + 1) (by omega) ?_ ((IsMultiple.step _).mono (by omega))
      rw [abs_of_nonneg hNonneg]
      exact two_zpow_lt_iff.mpr (by omega)
    rw [hSelf, sub_self, abs_zero]
    exact (half_pos (two_zpow_pos k)).le

/-- A number that is not too small is changed by no more than one part in `2 ^ 53`. -/
theorem abs_sub_le (h : Rounds q r) (hNormal : 2 ^ (-1022 : ℤ) ≤ |q|) : |r - q| ≤ |q| / 2 ^ 53 := by
  obtain ⟨e, h⟩ := h
  have hHalf : (2 : ℚ) ^ e / 2 = 2 ^ (e + 52) / 2 ^ 53 := by
    rw [zpow_add₀ two_ne_zero]
    norm_num
    ring
  have := div_le_div_of_nonneg_right (h.half_le hNormal) (by positivity : (0 : ℚ) ≤ 2 ^ 53)
  linarith [h.near]

/-- Rounding does not lead beyond a number that is held as it is. -/
theorem le_of_le (h : Rounds q r) (hc : Rounds c c) (hNonneg : 0 ≤ q) (hLe : q ≤ c) : r ≤ c := by
  obtain ⟨e, h⟩ := h
  obtain ⟨k, hc⟩ := hc
  have hExponent : e ≤ k := by
    refine h.le_of_abs_lt hc.least ?_
    rw [abs_of_nonneg hNonneg]
    exact hLe.trans_lt ((le_abs_self c).trans_lt hc.lt)
  refine h.multiple.le_of_lt_add (hc.multiple.mono hExponent) ?_
  have := two_zpow_pos e
  linarith [(abs_le.mp h.near).2]

theorem ge_of_ge (h : Rounds q r) (hc : Rounds c c) (hNonneg : 0 ≤ c) (hLe : c ≤ q) : c ≤ r := by
  obtain ⟨e, h⟩ := h
  obtain ⟨k, hc⟩ := hc
  have hPos := two_zpow_pos e
  have hBelow : q < r + 2 ^ e := by linarith [(abs_le.mp h.near).1]
  rcases le_or_gt e k with hExponent | hExponent
  · exact (hc.multiple.mono hExponent).le_of_lt_add h.multiple (hLe.trans_lt hBelow)
  · -- The other number is so small that the least one with all its digits lies between the two.
    have hFull : 2 ^ (e + 52) ≤ |q| := h.full.resolve_right fun hLeast => by
      have := hc.least
      omega
    have hMultiple : IsMultiple e (2 ^ (e + 52)) :=
      ⟨2 ^ 52, by rw [zpow_add₀ two_ne_zero]; norm_num [mul_comm]⟩
    rw [abs_of_nonneg (hNonneg.trans hLe)] at hFull
    have hBetween : c < 2 ^ (e + 52) := (le_abs_self c).trans_lt
      (hc.lt.trans_le (zpow_le_zpow_right₀ one_le_two (by omega)))
    exact hBetween.le.trans (hMultiple.le_of_lt_add h.multiple (hFull.trans_lt hBelow))

/-- Numbers that are held as they are lie apart by more than one part in `2 ^ 53`. -/
theorem lt_of_lt (ha : Rounds a a) (hc : Rounds c c) (hPos : 0 < c) (hLt : c < a) :
    c + c / 2 ^ 53 < a := by
  obtain ⟨e, ha⟩ := ha
  obtain ⟨k, hc⟩ := hc
  have hSmall : |c| < 2 ^ (k + 53) := hc.lt
  rw [abs_of_pos hPos] at hSmall
  have hExponent : k ≤ e := by
    rcases hc.full with hFull | rfl
    · refine ha.le_of_le_abs ?_
      rw [abs_of_pos hPos] at hFull
      exact (hFull.trans hLt.le).trans (le_abs_self a)
    · exact ha.least
  have hApart : c + 2 ^ k ≤ a := by
    by_contra hNear
    exact absurd ((ha.multiple.mono hExponent).le_of_lt_add hc.multiple (not_le.mp hNear))
      (not_le.mpr hLt)
  have hPart : c / 2 ^ 53 < 2 ^ k := by
    rw [div_lt_iff₀ (by positivity), ← zpow_natCast, ← zpow_add₀ two_ne_zero]
    exact hSmall
  linarith

theorem eq_of_self (h : Rounds q r) (hq : Rounds q q) (hNonneg : 0 ≤ q) : r = q :=
  le_antisymm (h.le_of_le hq hNonneg le_rfl) (h.ge_of_ge hq hNonneg le_rfl)

theorem nonneg (h : Rounds q r) (hNonneg : 0 ≤ q) : 0 ≤ r := h.ge_of_ge rounds_zero le_rfl hNonneg

end Rounds

end ImagePlacement.Binary64
