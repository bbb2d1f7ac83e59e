import ImagePlacement.Proofs.Binary64.Storage
import Mathlib.Tactic.FieldSimp

/-! The arithmetic of binary64 read as one of rational numbers. Products, quotients and differences
of numbers are rounded, and numbers compare as what they stand for. -/
namespace ImagePlacement

open Float.Model Exact Binary64
open Float.Model.UnpackedFloat (Sign Accuracy ExtendedMantissa roundWithAccuracy)

namespace Exact

/-- The number that a binary64 stands for. -/
def ofFloat (x : Float) : Exact := ofUnpacked x.toModel.unpack

end Exact

namespace Binary64

variable {x y : Float} {m : Nat} {e : Int} {p q v : ℚ}

theorem finite_cases (h : ofFloat x = finite q) :
    (∃ s, x.toModel.unpack = .zero s ∧ q = 0) ∨ ∃ s m e positive,
      x.toModel.unpack = .finite s m e positive ∧ q = factor s * (m * 2 ^ e) := by
  unfold ofFloat at h
  cases hUnpack : x.toModel.unpack with
  | finite s m e positive =>
      rw [hUnpack] at h
      cases h
      exact Or.inr ⟨s, m, e, positive, rfl, rfl⟩
  | zero s =>
      rw [hUnpack] at h
      cases h
      exact Or.inl ⟨s, rfl, rfl⟩
  | infinity s =>
      rw [hUnpack] at h
      cases h
  | notANumber =>
      rw [hUnpack] at h
      cases h

theorem value_pos (positive : 0 < m) : (0 : ℚ) < m * 2 ^ e :=
  mul_pos (Nat.cast_pos.mpr positive) (two_zpow_pos e)

/-- A number that is held is rounded to itself. -/
theorem rounds_of_isCanonical {s : Sign} {positive : 0 < m}
    (h : IsCanonical (.finite s m e positive)) : Rounds (m * 2 ^ e) (m * 2 ^ e) := by
  obtain ⟨hDigits, hLeast, -, hFull⟩ := h
  have hPow := two_zpow_pos e
  refine ⟨e, hLeast, ?_, ?_, ⟨m, by norm_cast⟩, ?_⟩
  · rw [abs_of_pos (value_pos positive), add_comm, zpow_add₀ two_ne_zero]
    exact mul_lt_mul_of_pos_right (by exact_mod_cast hDigits) hPow
  · rw [abs_of_pos (value_pos positive), add_comm, zpow_add₀ two_ne_zero]
    exact hFull.imp_left fun hAll => mul_le_mul_of_nonneg_right (by exact_mod_cast hAll) hPow.le
  · rw [sub_self, abs_zero]
    exact (half_pos hPow).le

theorem stores_of_isCanonical {s : Sign} {positive : 0 < m}
    (h : IsCanonical (.finite s m e positive)) :
    Stores (ofUnpacked (pack (.finite s m e positive)).unpack) (factor s * (m * 2 ^ e)) :=
  stores_of_eq (value_pos positive) (rounds_of_isCanonical h)
    (ofUnpacked_pack h.1 h.2.1 h.2.2.2)

theorem rounds_of_ofFloat (h : ofFloat x = finite q) : Rounds q q := by
  rcases finite_cases h with ⟨s, -, rfl⟩ | ⟨s, m, e, positive, hUnpack, rfl⟩
  · exact rounds_zero
  · have hCanonical := isCanonical_unpack x.toModel
    rw [hUnpack] at hCanonical
    exact (rounds_of_isCanonical hCanonical).signed s

theorem abs_lt_of_ofFloat (h : ofFloat x = finite q) : |q| < 2 ^ 1024 := by
  rcases finite_cases h with ⟨s, -, rfl⟩ | ⟨s, m, e, positive, hUnpack, rfl⟩
  · rw [abs_zero]
    positivity
  · have hCanonical := isCanonical_unpack x.toModel
    rw [hUnpack] at hCanonical
    rw [abs_value]
    exact value_lt hCanonical

/-- Digits that are known exactly. -/
theorem describes_exact (hv : v = m * 2 ^ e) :
    Describes (.ofMantissaAndAccuracy m .exact) (v / 2 ^ e) := by
  rw [hv, mul_div_cancel_right₀ _ (two_zpow_pos e).ne']
  rfl

theorem factor_mul (s t : Sign) : factor (s * t) = factor s * factor t := by
  cases s <;> cases t <;> simp [factor]

theorem factor_div (s t : Sign) : factor (s / t) = factor s / factor t := by
  cases s <;> cases t <;> simp [factor] <;> rfl

theorem stores_mul {n : Nat} {f : Int} {s t : Sign} {hm : 0 < m} {hn : 0 < n}
    (hFirst : IsCanonical (.finite s m e hm)) (hSecond : IsCanonical (.finite t n f hn)) :
    Stores (ofUnpacked (pack (UnpackedFloat.mul Format.binary64 (.finite s m e hm)
      (.finite t n f hn))).unpack) (factor s * (m * 2 ^ e) * (factor t * (n * 2 ^ f))) := by
  obtain ⟨-, -, -, hFull⟩ := hFirst
  obtain ⟨-, -, -, hOtherFull⟩ := hSecond
  have hPos : 0 < m * n := Nat.mul_pos hm hn
  have hFine : 52 ≤ (m * n).log2 ∨ e + f ≤ -1074 := by
    by_cases hMin : e = -1074 ∧ f = -1074
    · right
      omega
    · left
      rw [Nat.le_log2 hPos.ne']
      rcases not_and_or.mp hMin with hOne | hOne
      · exact (hFull.resolve_right hOne).trans (Nat.le_mul_of_pos_right m hn)
      · exact (hOtherFull.resolve_right hOne).trans (Nat.le_mul_of_pos_left n hm)
  have hValue : factor s * (m * 2 ^ e) * (factor t * (n * 2 ^ f)) =
      factor (s * t) * ((m * n : ℕ) * 2 ^ (e + f)) := by
    rw [factor_mul, zpow_add₀ two_ne_zero]
    push_cast
    ring
  rw [hValue]
  exact stores_roundWithAccuracy hFine (value_pos hPos) (describes_exact rfl) _

/-- A product is stored rounded. -/
theorem ofFloat_mul (hx : ofFloat x = finite p) (hy : ofFloat y = finite q) :
    Stores (ofFloat (x * y)) (p * q) := by
  have hProduct : ofFloat (x * y) = ofUnpacked (pack (UnpackedFloat.mul Format.binary64
    x.toModel.unpack y.toModel.unpack)).unpack := rfl
  have hxCanonical := isCanonical_unpack x.toModel
  have hyCanonical := isCanonical_unpack y.toModel
  rw [hProduct]
  rcases finite_cases hx with ⟨s, hUnpack, rfl⟩ | ⟨s, m, e, positive, hUnpack, rfl⟩
  · rw [hUnpack, zero_mul]
    rcases finite_cases hy with ⟨t, hOther, rfl⟩ | ⟨t, n, f, positive', hOther, rfl⟩
    · rw [hOther]
      exact stores_zero _
    · rw [hOther]
      exact stores_zero _
  rw [hUnpack] at hxCanonical ⊢
  rcases finite_cases hy with ⟨t, hOther, rfl⟩ | ⟨t, n, f, positive', hOther, rfl⟩
  · rw [hOther, mul_zero]
    exact stores_zero _
  · rw [hOther] at hyCanonical ⊢
    exact stores_mul hxCanonical hyCanonical

/-- What is left of a division says where the quotient lies behind its whole part. -/
theorem describes_fraction {n d : Nat} (hPos : 0 < d) :
    Describes (.ofMantissaAndAccuracy (n / d) (UnpackedFloat.accuracyOfFraction (n % d) d))
      ((n : ℚ) / d) := by
  have hDivisor : (0 : ℚ) < d := Nat.cast_pos.mpr hPos
  have hSplit : (n : ℚ) / d = (n / d : ℕ) + (n % d : ℕ) / d := by
    rw [eq_comm, ← mul_div_cancel_right₀ ((n / d : ℕ) : ℚ) hDivisor.ne', ← add_div]
    congr 1
    exact_mod_cast Nat.div_add_mod' n d
  have hLess : ((n % d : ℕ) : ℚ) / d < 1 := by
    rw [div_lt_one hDivisor]
    exact_mod_cast Nat.mod_lt n hPos
  rw [hSplit]
  generalize n / d = whole at *
  generalize n % d = left at *
  unfold UnpackedFloat.accuracyOfFraction
  split
  · rename_i hNone
    simp [hNone, Describes, ExtendedMantissa.ofMantissaAndAccuracy]
  · rename_i hSome
    have hLeft : (0 : ℚ) < left := Nat.cast_pos.mpr (Nat.pos_of_ne_zero hSome)
    have hPart : 0 < (left : ℚ) / d := div_pos hLeft hDivisor
    cases hHalf : compare (2 * left) d with
    | lt =>
        have hBelow : 2 * (left : ℚ) < d := by exact_mod_cast Nat.compare_eq_lt.mp hHalf
        have hQuotient : (left : ℚ) / d < 1 / 2 := by
          rw [div_lt_iff₀ hDivisor]
          linarith
        exact ⟨by linarith, by linarith⟩
    | eq =>
        have hSame : 2 * (left : ℚ) = d := by exact_mod_cast Nat.compare_eq_eq.mp hHalf
        have hQuotient : (left : ℚ) / d = 1 / 2 := by
          rw [div_eq_iff hDivisor.ne']
          linarith
        change _ = _
        rw [hQuotient]
    | gt =>
        have hAbove : d < 2 * (left : ℚ) := by exact_mod_cast Nat.compare_eq_gt.mp hHalf
        have hQuotient : 1 / 2 < (left : ℚ) / d := by
          rw [lt_div_iff₀ hDivisor]
          linarith
        exact ⟨by linarith, by linarith⟩

/-- Shifting the dividend far enough leaves a quotient with all its digits. -/
theorem le_log2_div {n d count : Nat} (hPos : 0 < n) (hDivisor : 0 < d)
    (hFar : d.log2 + 53 ≤ n.log2 + count) : 52 ≤ (n <<< count / d).log2 := by
  have hQuotient : 2 ^ 52 ≤ n <<< count / d := by
    rw [Nat.le_div_iff_mul_le hDivisor, Nat.shiftLeft_eq]
    calc 2 ^ 52 * d ≤ 2 ^ 52 * 2 ^ (d.log2 + 1) := Nat.mul_le_mul_left _ Nat.lt_log2_self.le
      _ = 2 ^ (d.log2 + 53) := by rw [← pow_add]; congr 1; omega
      _ ≤ 2 ^ (n.log2 + count) := Nat.pow_le_pow_right two_pos hFar
      _ = 2 ^ n.log2 * 2 ^ count := pow_add ..
      _ ≤ n * 2 ^ count := Nat.mul_le_mul_right _ (Nat.log2_self_le hPos.ne')
  exact (Nat.le_log2 (by omega)).mpr hQuotient

theorem shifted_div {n count : Nat} {f aim : Int} (hCount : count = e - f - aim) :
    (m : ℚ) * 2 ^ e / (n * 2 ^ f) = ((m <<< count : ℕ) : ℚ) / n * 2 ^ aim := by
  have hPower : (2 : ℚ) ^ e = 2 ^ count * 2 ^ aim * 2 ^ f := by
    rw [← zpow_natCast, ← zpow_add₀ two_ne_zero, ← zpow_add₀ two_ne_zero, hCount]
    congr 1
    omega
  have hOwn := (two_zpow_pos f).ne'
  rw [hPower, Nat.shiftLeft_eq]
  push_cast
  field_simp

/-- The exponent of a quotient before it is rounded: small enough for all the digits. -/
def quotientExponent (m n : Nat) (e f : Int) : Int :=
  min (e - f) (max ((m.log2 : Int) + 1 + e - (n.log2 + 1 + f) - 53) (-1074))

theorem stores_div {n : Nat} {f : Int} (s t : Sign) (hm : 0 < m) (hn : 0 < n) :
    Stores (ofUnpacked (pack (UnpackedFloat.div Format.binary64 (.finite s m e hm)
      (.finite t n f hn))).unpack) (factor s * (m * 2 ^ e) / (factor t * (n * 2 ^ f))) := by
  have hAim : quotientExponent m n e f =
    min (e - f) (max ((m.log2 : Int) + 1 + e - (n.log2 + 1 + f) - 53) (-1074)) := rfl
  have hDivision : UnpackedFloat.div Format.binary64 (.finite s m e hm) (.finite t n f hn) =
      roundWithAccuracy Format.binary64 (s / t)
        (m <<< (e - f - quotientExponent m n e f).toNat / n) (quotientExponent m n e f)
        (UnpackedFloat.accuracyOfFraction
          (m <<< (e - f - quotientExponent m n e f).toNat % n) n) := rfl
  rw [hDivision]
  generalize quotientExponent m n e f = aim at *
  have hCount : ((e - f - aim).toNat : Int) = e - f - aim := Int.toNat_of_nonneg (by omega)
  generalize (e - f - aim).toNat = count at hCount
  rw [mul_div_mul_comm, ← factor_div, shifted_div hCount]
  refine stores_roundWithAccuracy ?_ ?_ ?_ (s / t)
  · by_cases hMin : aim ≤ -1074
    · exact Or.inr hMin
    · exact Or.inl (le_log2_div hm hn (by omega))
  · have hDividend : 0 < m <<< count := by
      rw [Nat.shiftLeft_eq]
      exact Nat.mul_pos hm (Nat.two_pow_pos count)
    exact mul_pos (div_pos (Nat.cast_pos.mpr hDividend) (Nat.cast_pos.mpr hn)) (two_zpow_pos aim)
  · rw [mul_div_cancel_right₀ _ (two_zpow_pos aim).ne']
    exact describes_fraction hn

/-- A quotient is stored rounded. -/
theorem ofFloat_div (hx : ofFloat x = finite p) (hy : ofFloat y = finite q) (hNonzero : q ≠ 0) :
    Stores (ofFloat (x / y)) (p / q) := by
  have hQuotient : ofFloat (x / y) = ofUnpacked (pack (UnpackedFloat.div Format.binary64
    x.toModel.unpack y.toModel.unpack)).unpack := rfl
  rw [hQuotient]
  rcases finite_cases hy with ⟨t, -, rfl⟩ | ⟨t, n, f, hDivisor, hOther, rfl⟩
  · exact absurd rfl hNonzero
  rcases finite_cases hx with ⟨s, hUnpack, rfl⟩ | ⟨s, m, e, positive, hUnpack, rfl⟩
  · rw [hUnpack, hOther, zero_div]
    exact stores_zero _
  · rw [hUnpack, hOther]
    exact stores_div s t positive hDivisor

theorem log2_shiftLeft (positive : 0 < m) (count : Nat) : (m <<< count).log2 = m.log2 + count := by
  rw [Nat.shiftLeft_eq, Nat.log2_eq_iff (Nat.mul_pos positive (Nat.two_pow_pos count)).ne']
  constructor
  · rw [pow_add]
    exact Nat.mul_le_mul_right _ (Nat.log2_self_le positive.ne')
  · rw [add_right_comm, pow_add]
    exact Nat.mul_lt_mul_of_pos_right Nat.lt_log2_self (Nat.two_pow_pos count)

theorem shiftLeft_mul_zpow (m count : Nat) (e : Int) :
    ((m <<< count : ℕ) : ℚ) * 2 ^ (e - count) = m * 2 ^ e := by
  rw [Nat.shiftLeft_eq, zpow_sub₀ two_ne_zero, zpow_natCast]
  push_cast
  field_simp

/-- A number is stored rounded, however its digits are given. -/
theorem stores_round (positive : 0 < m) (s : Sign) (e : Int) :
    Stores (ofUnpacked (pack (UnpackedFloat.round Format.binary64 s m e)).unpack)
      (factor s * (m * 2 ^ e)) := by
  generalize hTarget : max ((m.log2 : Int) + 1 + e - 53) (-1074) = aim
  have hPos : 0 < m <<< (e - aim).toNat := by
    rw [Nat.shiftLeft_eq]
    exact Nat.mul_pos positive (Nat.two_pow_pos _)
  have hFine : 52 ≤ (m <<< (e - aim).toNat).log2 ∨ e - (e - aim).toNat ≤ -1074 := by
    rw [log2_shiftLeft positive]
    omega
  rw [← shiftLeft_mul_zpow m (e - aim).toNat e]
  simp only [UnpackedFloat.round, UnpackedFloat.decreaseExponent, targetExponent_eq, hTarget]
  exact stores_roundWithAccuracy hFine (value_pos hPos) (describes_exact rfl) s

theorem stores_normalize (n : Int) (e : Int) (z : Sign) :
    Stores (ofUnpacked (pack (UnpackedFloat.normalize Format.binary64 n e z)).unpack)
      (n * 2 ^ e) := by
  unfold UnpackedFloat.normalize
  split
  · rename_i hSign
    have hNegative : n < 0 := Int.compare_eq_lt.mp hSign
    have hValue : (n : ℚ) * 2 ^ e = factor .negative * ((-n).toNat * 2 ^ e) := by
      have hDigits : (((-n).toNat : ℤ) : ℚ) = -n := by
        rw [Int.toNat_of_nonneg (by omega)]
        push_cast
        rfl
      rw [Int.cast_natCast] at hDigits
      rw [hDigits, factor]
      ring
    rw [hValue]
    exact stores_round (by omega) _ _
  · rename_i hSign
    obtain rfl : n = 0 := Int.compare_eq_eq.mp hSign
    rw [Int.cast_zero, zero_mul]
    exact stores_zero z
  · rename_i hSign
    have hPositive : 0 < n := Int.compare_eq_gt.mp hSign
    have hValue : (n : ℚ) * 2 ^ e = factor .positive * (n.toNat * 2 ^ e) := by
      have hDigits : ((n.toNat : ℤ) : ℚ) = n := by rw [Int.toNat_of_nonneg hPositive.le]
      rw [Int.cast_natCast] at hDigits
      rw [hDigits, factor, one_mul]
    rw [hValue]
    exact stores_round (by omega) _ _

theorem factor_neg (s : Sign) : factor (-s) = -factor s := by
  cases s with
  | negative => exact (neg_neg 1).symm
  | positive => rfl

theorem cast_apply (s : Sign) (n : Int) : ((s.apply n : ℤ) : ℚ) = factor s * n := by
  cases s with
  | negative => simp [Sign.apply, factor]
  | positive => simp [Sign.apply, factor]

/-- Both numbers are written with the smaller exponent before they are subtracted. -/
theorem stores_sub {n : Nat} {f : Int} (s t : Sign) (hm : 0 < m) (hn : 0 < n) :
    Stores (ofUnpacked (pack (UnpackedFloat.sub Format.binary64 (.finite s m e hm)
      (.finite t n f hn))).unpack) (factor s * (m * 2 ^ e) - factor t * (n * 2 ^ f)) := by
  have hAlign {own : Int} (hLe : min e f ≤ own) (digits : Nat) : (digits : ℚ) * 2 ^ own =
      ((digits <<< (own - min e f).toNat : ℕ) : ℚ) * 2 ^ min e f := by
    rw [← shiftLeft_mul_zpow digits (own - min e f).toNat own, Int.toNat_of_nonneg (by omega),
      sub_sub_cancel]
  have hValue : factor s * (m * 2 ^ e) - factor t * (n * 2 ^ f) =
      ((s.apply (m <<< (e - min e f).toNat : ℕ) -
        t.apply (n <<< (f - min e f).toNat : ℕ) : ℤ) : ℚ) * 2 ^ min e f := by
    rw [hAlign (min_le_left e f), hAlign (min_le_right e f), Int.cast_sub, cast_apply, cast_apply,
      Int.cast_natCast, Int.cast_natCast]
    ring
  rw [hValue]
  exact stores_normalize _ _ _

/-- A difference is stored rounded. -/
theorem ofFloat_sub (hx : ofFloat x = finite p) (hy : ofFloat y = finite q) :
    Stores (ofFloat (x - y)) (p - q) := by
  have hDifference : ofFloat (x - y) = ofUnpacked (pack (UnpackedFloat.sub Format.binary64
    x.toModel.unpack y.toModel.unpack)).unpack := rfl
  have hxCanonical := isCanonical_unpack x.toModel
  have hyCanonical := isCanonical_unpack y.toModel
  rw [hDifference]
  rcases finite_cases hx with ⟨s, hUnpack, rfl⟩ | ⟨s, m, e, positive, hUnpack, rfl⟩
  · rw [hUnpack]
    rcases finite_cases hy with ⟨t, hOther, rfl⟩ | ⟨t, n, f, positive', hOther, rfl⟩
    · rw [hOther, sub_zero]
      cases s <;> cases t <;> exact stores_zero _
    · rw [hOther] at hyCanonical ⊢
      rw [zero_sub, ← neg_mul, ← factor_neg]
      exact stores_of_isCanonical hyCanonical
  rw [hUnpack] at hxCanonical ⊢
  rcases finite_cases hy with ⟨t, hOther, rfl⟩ | ⟨t, n, f, positive', hOther, rfl⟩
  · rw [hOther, sub_zero]
    exact stores_of_isCanonical hxCanonical
  · rw [hOther]
    exact stores_sub s t positive positive'

end Binary64

end ImagePlacement
