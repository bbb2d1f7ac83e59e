import ImagePlacement.Proofs.Binary64.Rounding

/-! Scales that are the same number but for the roundings on the way to them, and how far apart
those can bring them. -/
namespace ImagePlacement.Binary64

variable {a b c d m q s t w x y : ℚ} {e : ℤ}

/-- Scales of which one is below one half. -/
theorem abs_sub_le_of_small (hx : Rounds s x) (hy : Rounds q y) (hPos : 0 < s)
    (hLow : s * (1 - 1 / 2 ^ 53) ^ 2 ≤ q) (hHigh : q ≤ s * (1 + 1 / 2 ^ 53) ^ 2)
    (hSmall : s < 1 / 2 ∨ q < 1 / 2) : |x - y| ≤ 1 / 2 ^ 52 := by
  have hNonneg : 0 ≤ q := (mul_nonneg hPos.le (sq_nonneg _)).trans hLow
  rcases hSmall with hSmall | hSmall
  · have hxNear := hx.abs_sub_le_of_le (k := -54) (by norm_num) hPos.le (by norm_num; linarith)
    have hyNear := hy.abs_sub_le_of_le (k := -53) (by norm_num) hNonneg (by norm_num; linarith)
    norm_num at *
    rw [abs_le] at *
    constructor <;> linarith
  · have hxNear := hx.abs_sub_le_of_le (k := -53) (by norm_num) hPos.le (by norm_num; linarith)
    have hyNear := hy.abs_sub_le_of_le (k := -54) (by norm_num) hNonneg (by norm_num; linarith)
    norm_num at *
    rw [abs_le] at *
    constructor <;> linarith

/-- Scales of which neither is below one half and none above one. -/
theorem abs_sub_lt_of_le_one (hx : Rounds s x) (hy : Rounds q y) (hPos : 0 < s)
    (hUnit : s = 1 ∨ s + s / 2 ^ 53 < 1) (hLow : s * (1 - 1 / 2 ^ 53) ^ 2 ≤ q)
    (hHigh : q ≤ s * (1 + 1 / 2 ^ 53) ^ 2) (hOne : q ≤ 1) : |x - y| < 3 / 2 ^ 53 := by
  have hsOne : s ≤ 1 := by
    rcases hUnit with rfl | hLess
    · exact le_rfl
    · linarith [div_pos hPos (by positivity : (0 : ℚ) < 2 ^ 53)]
  have hNonneg : 0 ≤ q := (mul_nonneg hPos.le (sq_nonneg _)).trans hLow
  have hxNear := hx.abs_sub_le_of_le (k := -53) (by norm_num) hPos.le (by norm_num; linarith)
  have hyNear := hy.abs_sub_le_of_le (k := -53) (by norm_num) hNonneg (by norm_num; linarith)
  norm_num at *
  rw [abs_le] at hxNear hyNear
  rw [abs_lt]
  rcases hUnit with rfl | hUnit
  · constructor <;> linarith
  · constructor <;> linarith

/-- Scales of which the one that was derived is above one. -/
theorem abs_sub_lt_of_one_lt (hx : Rounds s x) (hy : Rounds q y) (hPos : 0 < s)
    (hUnit : s = 1 ∨ s + s / 2 ^ 53 < 1) (hHigh : q ≤ s * (1 + 1 / 2 ^ 53) ^ 2) (hOne : 1 < q) :
    |x - y| < 3 / 2 ^ 53 := by
  have hRoundsOne : Rounds 1 1 := rounds_two_zpow (e := 0) (by norm_num)
  have hNonneg : 0 ≤ q := zero_le_one.trans hOne.le
  have hyMultiple : IsMultiple (-52) y :=
    hy.isMultiple (by rw [abs_of_nonneg hNonneg]; norm_num; linarith)
  have hOneMultiple : IsMultiple (-52) 1 := (IsMultiple.step 0).mono (by norm_num)
  have hyLow : 1 ≤ y := hy.ge_of_ge hRoundsOne zero_le_one hOne.le
  rcases hUnit with rfl | hUnit
  · have hyNear := hy.abs_sub_le_of_le (k := -52) (by norm_num) hNonneg (by norm_num; linarith)
    have hyHigh : y ≤ 1 + 2 ^ (-52 : ℤ) := by
      refine hyMultiple.le_of_lt_add (hOneMultiple.add (IsMultiple.step (-52))) ?_
      norm_num at *
      linarith [(abs_le.mp hyNear).2]
    rw [hx.eq_of_self hRoundsOne zero_le_one, abs_lt]
    norm_num at *
    constructor <;> linarith
  · have hsOne : s ≤ 1 := by linarith [div_pos hPos (by positivity : (0 : ℚ) < 2 ^ 53)]
    have hxNear := hx.abs_sub_le_of_le (k := -53) (by norm_num) hPos.le (by norm_num; linarith)
    have hyNear := hy.abs_sub_le_of_le (k := -52) (by norm_num) hNonneg (by norm_num; linarith)
    have hyHigh : y ≤ 1 := by
      refine hyMultiple.le_of_lt_add hOneMultiple ?_
      norm_num at *
      linarith [(abs_le.mp hyNear).2]
    norm_num at *
    rw [abs_le] at hxNear
    rw [abs_lt]
    constructor <;> linarith

/-- Two scales of which the first does not enlarge anything. -/
theorem abs_sub_le_of_le_one (hx : Rounds s x) (hy : Rounds q y) (hPos : 0 < s)
    (hUnit : s = 1 ∨ s + s / 2 ^ 53 < 1) (hLow : s * (1 - 1 / 2 ^ 53) ^ 2 ≤ q)
    (hHigh : q ≤ s * (1 + 1 / 2 ^ 53) ^ 2) : |x - y| ≤ 1 / 2 ^ 52 := by
  by_cases hSmall : s < 1 / 2 ∨ q < 1 / 2
  · exact abs_sub_le_of_small hx hy hPos hLow hHigh hSmall
  · obtain ⟨hs, hq⟩ := not_or.mp hSmall
    rw [not_lt] at hs hq
    -- Both scales are multiples of one step, and they lie less than three of those apart.
    have hxMultiple : IsMultiple (-53) x :=
      hx.isMultiple (by rw [abs_of_pos hPos]; norm_num; linarith)
    have hyMultiple : IsMultiple (-53) y :=
      hy.isMultiple (by rw [abs_of_nonneg (by linarith)]; norm_num; linarith)
    have hLess : |x - y| < 3 / 2 ^ 53 := by
      rcases le_or_gt q 1 with hOne | hOne
      · exact abs_sub_lt_of_le_one hx hy hPos hUnit hLow hHigh hOne
      · exact abs_sub_lt_of_one_lt hx hy hPos hUnit hHigh hOne
    have hBound := (hxMultiple.sub hyMultiple).abs.le_of_lt_add
      ((IsMultiple.step (-53)).add (IsMultiple.step (-53))) (by norm_num at *; exact hLess)
    norm_num at hBound ⊢
    exact hBound

/-- What two roundings make of the scale that an extent is derived and measured with. -/
theorem derived_scale_bounds (ha : 0 < a) (hb : 0 < b) (hm : |m - c * b| ≤ c * b / 2 ^ 53)
    (hd : |d - m / a| ≤ m / a / 2 ^ 53) :
    c / a * (1 - 1 / 2 ^ 53) ^ 2 ≤ d / b ∧ d / b ≤ c / a * (1 + 1 / 2 ^ 53) ^ 2 := by
  obtain ⟨hmLow, hmHigh⟩ := abs_sub_le_iff.mp hm |>.symm
  obtain ⟨hdLow, hdHigh⟩ := abs_sub_le_iff.mp hd |>.symm
  constructor
  · rw [le_div_iff₀ hb]
    calc c / a * (1 - 1 / 2 ^ 53) ^ 2 * b
        = c * b * (1 - 1 / 2 ^ 53) / a * (1 - 1 / 2 ^ 53) := by ring
      _ ≤ m / a * (1 - 1 / 2 ^ 53) := by
          refine mul_le_mul_of_nonneg_right (div_le_div_of_nonneg_right ?_ ha.le) (by norm_num)
          linarith
      _ ≤ d := by linarith
  · rw [div_le_iff₀ hb]
    calc d ≤ m / a * (1 + 1 / 2 ^ 53) := by linarith
      _ ≤ c * b * (1 + 1 / 2 ^ 53) / a * (1 + 1 / 2 ^ 53) := by
          refine mul_le_mul_of_nonneg_right (div_le_div_of_nonneg_right ?_ ha.le) (by norm_num)
          linarith
      _ = c / a * (1 + 1 / 2 ^ 53) ^ 2 * b := by ring

/-! One rounding apart -/

/-- Scales on both sides of a power of two, the upper one next to it. -/
theorem steps_of_lt (hx : RoundsAt e s x) (hy : Rounds q y) (hExponent : 0 < e + 53)
    (hFull : 2 ^ (e + 52) ≤ s) (hxFull : 2 ^ (e + 52) ≤ x) (hNear : |q - s| ≤ s / 2 ^ 53)
    (hBelow : q < 2 ^ (e + 52)) :
    2 ^ (e + 52) ≤ y ∧ |x - y| ≤ 2 ^ e ∨ 2 ^ (e + 51) ≤ y ∧ |x - y| ≤ 2 ^ (e - 1) := by
  have hUnit := two_zpow_pos e
  have hFloor : (2 : ℚ) ^ (e + 52) = 2 ^ e * 2 ^ 52 := zpow_add₀ two_ne_zero e 52
  have hHalf : (2 : ℚ) ^ (e - 1) = 2 ^ e / 2 := zpow_sub₀ two_ne_zero e 1
  have hLower : (2 : ℚ) ^ (e + 51) = 2 ^ e * 2 ^ 51 := zpow_add₀ two_ne_zero e 51
  have hxNear := abs_le.mp hx.near
  rw [abs_le] at hNear
  have hqLower : 2 ^ (e + 51) ≤ q := by
    rw [hLower]
    rw [hFloor] at hFull
    norm_num at *
    linarith
  have hNonneg : 0 ≤ q := (two_zpow_pos _).le.trans hqLower
  have hyLower : 2 ^ (e + 51) ≤ y :=
    hy.ge_of_ge (rounds_two_zpow (by omega)) (two_zpow_pos _).le hqLower
  have hyNear := abs_le.mp (hy.abs_sub_le_of_le (k := e - 1) (by omega) hNonneg
    (by rw [show e - 1 + 53 = e + 52 by omega]; exact hBelow.le))
  have hyMultiple : IsMultiple (e - 1) y :=
    hy.isMultiple (by rwa [abs_of_nonneg hNonneg, show e - 1 + 52 = e + 51 by omega])
  have hxFine : IsMultiple (e - 1) x := hx.multiple.mono (by omega)
  have hPower : IsMultiple e (2 ^ (e + 52)) := (IsMultiple.step _).mono (by omega)
  have hPowerFine : IsMultiple (e - 1) (2 ^ (e + 52)) := hPower.mono (by omega)
  rw [hHalf] at hyNear
  rcases lt_or_ge y (2 ^ (e + 52)) with hyBelow | hyAbove
  · right
    have hyStep : y ≤ 2 ^ (e + 52) - 2 ^ (e - 1) := by
      refine hyMultiple.le_of_lt_add (hPowerFine.sub (IsMultiple.step _)) ?_
      rwa [sub_add_cancel]
    have hxLeast : x ≤ 2 ^ (e + 52) := by
      refine hx.multiple.le_of_lt_add hPower ?_
      rw [hFloor, hHalf] at hyStep
      rw [hFloor]
      norm_num at *
      linarith
    have hyLeast : 2 ^ (e + 52) ≤ y + 2 ^ (e - 1) := by
      refine hPowerFine.le_of_lt_add (hyMultiple.add (IsMultiple.step _)) ?_
      rw [hFloor] at hFull ⊢
      rw [hHalf]
      norm_num at *
      linarith
    refine ⟨hyLower, ?_⟩
    rw [le_antisymm hxLeast hxFull, abs_le]
    constructor <;> linarith
  · left
    rw [hFloor] at hFull hBelow hxFull hyAbove ⊢
    refine ⟨hyAbove, ?_⟩
    refine (hxFine.sub hyMultiple).abs.le_of_lt_add ((IsMultiple.step e).mono (by omega)) ?_
    rw [hHalf]
    norm_num at *
    rw [abs_lt]
    constructor <;> linarith

/-- Scales on both sides of a power of two, the lower one next to it. -/
theorem steps_of_gt (hx : RoundsAt e s x) (hy : Rounds q y) (hExponent : 0 < e + 53)
    (hPos : 0 ≤ s) (hLt : s < 2 ^ (e + 53)) (hNear : |q - s| ≤ s / 2 ^ 53)
    (hBeyond : 2 ^ (e + 53) < q) : 2 ^ (e + 52) ≤ y ∧ |x - y| ≤ 2 ^ e := by
  have hUnit := two_zpow_pos e
  have hCeil : (2 : ℚ) ^ (e + 53) = 2 ^ e * 2 ^ 53 := zpow_add₀ two_ne_zero e 53
  have hTwice : (2 : ℚ) ^ (e + 1) = 2 ^ e * 2 := zpow_add₀ two_ne_zero e 1
  have hUpper : (2 : ℚ) ^ (e + 54) = 2 ^ e * 2 ^ 54 := zpow_add₀ two_ne_zero e 54
  have hxNear := abs_le.mp hx.near
  rw [abs_le] at hNear
  have hNonneg : 0 ≤ q := (two_zpow_pos _).le.trans hBeyond.le
  have hqUpper : q ≤ 2 ^ (e + 54) := by
    rw [hUpper]
    rw [hCeil] at hLt
    norm_num at *
    linarith
  have hyNear := abs_le.mp (hy.abs_sub_le_of_le (k := e + 1) (by omega) hNonneg
    (by rwa [show e + 1 + 53 = e + 54 by omega]))
  have hyMultiple : IsMultiple (e + 1) y :=
    hy.isMultiple (by
      rw [abs_of_nonneg hNonneg, show e + 1 + 52 = e + 53 by omega]
      exact hBeyond.le)
  -- The other scale is rounded down to the power of two between them.
  have hyLow : 2 ^ (e + 53) ≤ y :=
    hy.ge_of_ge (rounds_two_zpow (by omega)) (two_zpow_pos _).le hBeyond.le
  have hyHigh : y ≤ 2 ^ (e + 53) := by
    refine hyMultiple.le_of_lt_add ((IsMultiple.step (e + 53)).mono (by omega)) ?_
    rw [hTwice] at hyNear ⊢
    rw [hCeil] at hLt ⊢
    norm_num at *
    linarith
  have hxHigh : x ≤ 2 ^ (e + 53) :=
    Rounds.le_of_le ⟨e, hx⟩ (rounds_two_zpow (by omega)) hPos hLt.le
  have hxLow : 2 ^ (e + 53) ≤ x + 2 ^ e := by
    refine ((IsMultiple.step (e + 53)).mono (by omega)).le_of_lt_add
      (hx.multiple.add (IsMultiple.step e)) ?_
    rw [hCeil] at hLt hBeyond ⊢
    norm_num at *
    linarith
  refine ⟨(zpow_le_zpow_right₀ one_le_two (by omega)).trans hyLow, ?_⟩
  rw [le_antisymm hyHigh hyLow, abs_le]
  constructor <;> linarith

/-- Two scales of at least one that lie as close together as a single rounding leaves them. -/
theorem steps_of_one_le (hx : RoundsAt e s x) (hy : Rounds q y) (hOne : 1 ≤ s)
    (hNear : |q - s| ≤ s / 2 ^ 53) : 2 ^ (e + 52) ≤ x ∧
      (2 ^ (e + 52) ≤ y ∧ |x - y| ≤ 2 ^ e ∨ 2 ^ (e + 51) ≤ y ∧ |x - y| ≤ 2 ^ (e - 1)) := by
  have hPos : 0 ≤ s := zero_le_one.trans hOne
  have hLt : s < 2 ^ (e + 53) := (le_abs_self s).trans_lt hx.lt
  have hExponent : 0 < e + 53 :=
    two_zpow_lt_iff.mp (by rw [zpow_zero]; exact hOne.trans_lt hLt)
  have hFull : 2 ^ (e + 52) ≤ s := by
    have hFull := hx.full.resolve_right (by omega)
    rwa [abs_of_nonneg hPos] at hFull
  have hxFull : 2 ^ (e + 52) ≤ x :=
    Rounds.ge_of_ge ⟨e, hx⟩ (rounds_two_zpow (by omega)) (two_zpow_pos _).le hFull
  refine ⟨hxFull, ?_⟩
  rcases lt_or_ge q (2 ^ (e + 52)) with hBelow | hAbove
  · exact steps_of_lt hx hy hExponent hFull hxFull hNear hBelow
  rcases le_or_gt q (2 ^ (e + 53)) with hWithin | hBeyond
  · have hNonneg : 0 ≤ q := (two_zpow_pos _).le.trans hAbove
    have hyFull : 2 ^ (e + 52) ≤ y :=
      hy.ge_of_ge (rounds_two_zpow (by omega)) (two_zpow_pos _).le hAbove
    have hxNear := abs_le.mp hx.near
    have hyNear := abs_le.mp (hy.abs_sub_le_of_le (k := e) (by omega) hNonneg hWithin)
    have hyMultiple : IsMultiple e y := hy.isMultiple (by rwa [abs_of_nonneg hNonneg])
    have hSteps : |x - y| < 2 ^ e + 2 ^ e := by
      have hCeil : (2 : ℚ) ^ (e + 53) = 2 ^ e * 2 ^ 53 := zpow_add₀ two_ne_zero e 53
      rw [hCeil] at hLt
      rw [abs_le] at hNear
      norm_num at *
      rw [abs_lt]
      constructor <;> linarith
    exact Or.inl ⟨hyFull, (hx.multiple.sub hyMultiple).abs.le_of_lt_add (IsMultiple.step e) hSteps⟩
  · exact Or.inl (steps_of_gt hx hy hExponent hPos hLt hNear hBeyond)

/-- The scale that an extent has after it was multiplied by one. -/
theorem abs_div_sub_le (hPos : 0 < a) (h : |w - a * t| ≤ a * c) : |w / a - t| ≤ c := by
  rw [← mul_div_cancel_left₀ t hPos.ne', ← sub_div, abs_div, abs_of_pos hPos, div_le_iff₀ hPos,
    mul_comm c]
  exact h

theorem abs_scaled_sub_le (hLarge : 2 ^ (-1021 : ℤ) ≤ a) (hNonneg : 0 ≤ t)
    (hw : Rounds (a * t) w) : |w / a - t| ≤ t / 2 ^ 53 ∨ t ≤ 1 / 2 ∧ |w / a - t| ≤ 1 / 2 ^ 54 := by
  have hPos : 0 < a := (two_zpow_pos _).trans_le hLarge
  have hProduct : 0 ≤ a * t := mul_nonneg hPos.le hNonneg
  have hHalf : (2 : ℚ) ^ (-1021 : ℤ) = 2 ^ (-1022 : ℤ) * 2 := zpow_add₀ two_ne_zero (-1022) 1
  rcases le_or_gt (2 ^ (-1022 : ℤ)) (a * t) with hNormal | hTiny
  · left
    have hPart := hw.abs_sub_le (by rwa [abs_of_nonneg hProduct])
    rw [abs_of_nonneg hProduct, mul_div_assoc] at hPart
    exact abs_div_sub_le hPos hPart
  · right
    constructor
    · have hMost : 2 ^ (-1021 : ℤ) * t ≤ a * t := mul_le_mul_of_nonneg_right hLarge hNonneg
      rw [hHalf, mul_assoc] at hMost
      have hTwice : 2 * t ≤ 1 := by
        refine le_of_mul_le_mul_left ?_ (two_zpow_pos (-1022))
        rw [mul_one]
        exact hMost.trans hTiny.le
      linarith
    · refine abs_div_sub_le hPos ?_
      have hStep := hw.abs_sub_le_of_lt (k := -1074) le_rfl (by
        rw [abs_of_nonneg hProduct]
        exact hTiny.trans (two_zpow_lt_iff.mpr (by norm_num)))
      have hUnit : (2 : ℚ) ^ (-1074 : ℤ) / 2 = 2 ^ (-1021 : ℤ) * (1 / 2 ^ 54) := by
        have hSplit : (2 : ℚ) ^ (-1074 : ℤ) = 2 ^ (-1021 : ℤ) * 2 ^ (-53 : ℤ) :=
          zpow_add₀ two_ne_zero (-1021) (-53)
        rw [hSplit, mul_div_assoc]
        norm_num
      rw [hUnit] at hStep
      exact hStep.trans (mul_le_mul_of_nonneg_right hLarge (by positivity))

/-- An extent that is scaled and measured again by the extent it came from gives the scale back up
to one step. -/
theorem abs_sub_scale_le (ha : Rounds a a) (hLarge : 2 ^ (-1021 : ℤ) ≤ a) (ht : Rounds t t)
    (hNonneg : 0 ≤ t) (hOne : t ≤ 1) (hw : Rounds (a * t) w) (hx : Rounds (w / a) x) :
    |x - t| ≤ 1 / 2 ^ 53 := by
  have hPos : 0 < a := (two_zpow_pos _).trans_le hLarge
  have hProduct : 0 ≤ a * t := mul_nonneg hPos.le hNonneg
  have hScale := abs_scaled_sub_le hLarge hNonneg hw
  have hQuotient : 0 ≤ w / a := div_nonneg (hw.nonneg hProduct) hPos.le
  have hQuotientOne : w / a ≤ 1 :=
    (div_le_one hPos).mpr (hw.le_of_le ha hProduct (mul_le_of_le_one_right hPos.le hOne))
  clear hLarge ha hw hProduct
  have hxNear := hx.abs_sub_le_of_le (k := -53) (by norm_num) hQuotient
    (by norm_num; exact hQuotientOne)
  generalize w / a = q at *
  rcases le_or_gt t (1 / 2) with hSmall | hBig
  · have hNear : |q - t| ≤ 1 / 2 ^ 54 := by
      rcases hScale with hPart | ⟨-, hStep⟩
      · norm_num at *
        linarith
      · exact hStep
    norm_num at *
    rw [abs_le] at *
    constructor <;> linarith
  · have hPart := hScale.resolve_right fun h => absurd h.1 (not_le.mpr hBig)
    have htMultiple : IsMultiple (-53) t :=
      ht.isMultiple (by rw [abs_of_nonneg hNonneg]; norm_num; linarith)
    -- The scale is a whole step above one half, so what is measured is not below one half.
    have htStep : 1 / 2 + 1 / 2 ^ 53 ≤ t := by
      by_contra hNear
      have hHalf : t ≤ 2 ^ (-1 : ℤ) := by
        refine htMultiple.le_of_lt_add ((IsMultiple.step (-1)).mono (by norm_num)) ?_
        norm_num at *
        exact hNear
      norm_num at hHalf
      linarith
    have hqHalf : 1 / 2 ≤ q := by
      norm_num at *
      rw [abs_le] at *
      linarith
    have hxMultiple : IsMultiple (-53) x :=
      hx.isMultiple (by rw [abs_of_nonneg hQuotient]; norm_num; linarith)
    have hSteps : |x - t| < 2 ^ (-53 : ℤ) + 2 ^ (-53 : ℤ) := by
      norm_num at *
      rw [abs_le] at *
      rw [abs_lt]
      constructor <;> linarith
    have hBound := (hxMultiple.sub htMultiple).abs.le_of_lt_add (IsMultiple.step (-53)) hSteps
    norm_num at hBound ⊢
    exact hBound

end ImagePlacement.Binary64
