import ImagePlacement.Proofs.Binary64.Order
import ImagePlacement.Proofs.Binary64.Scale
import ImagePlacement.Proofs.Sizing.Explicit

/-! Whether a box counts as stretched, in binary64. The scales of a box that keeps the proportions
of its image are one number that was rounded in two ways, and the test for a common scale allows for
one part in `2 ^ 52`. That is enough as long as nothing is enlarged; an image that is enlarged needs
a product that is not rounded. -/
namespace ImagePlacement

open Exact Binary64

variable {c p q : ℚ} {x y : Float}

/-! The test for a common scale -/

/-- Two scales lie so close together that the test for a common scale cannot tell them apart, in
whichever order it takes them. -/
def Close (p q : ℚ) : Prop :=
  ∃ c, Rounds c c ∧ |p - q| ≤ c ∧ c ≤ 1 / 2 ^ 52 * max |p| 1 ∧ c ≤ 1 / 2 ^ 52 * max |q| 1

theorem Close.symm (h : Close p q) : Close q p := by
  obtain ⟨c, hc, hNear, hFirst, hSecond⟩ := h
  exact ⟨c, hc, by rwa [abs_sub_comm], hSecond, hFirst⟩

theorem close_of_abs_sub_le (h : |p - q| ≤ 1 / 2 ^ 52) : Close p q := by
  have hLeast (t : ℚ) : 1 / 2 ^ 52 ≤ 1 / 2 ^ 52 * max |t| 1 :=
    le_mul_of_one_le_right (by positivity) (le_max_right _ _)
  exact ⟨1 / 2 ^ 52, rounds_of_ofFloat ofFloat_tolerance, h, hLeast p, hLeast q⟩

/-- A step that is a power of two and that both scales are large for. -/
theorem close_of_step {k : ℤ} (hLeast : -1022 ≤ k) (h : |p - q| ≤ 2 ^ k) (hp : 2 ^ (k + 52) ≤ p)
    (hq : 2 ^ (k + 52) ≤ q) : Close p q := by
  have hTolerance {t : ℚ} (ht : 2 ^ (k + 52) ≤ t) : 2 ^ k ≤ 1 / 2 ^ 52 * max |t| 1 := by
    have hMax : 2 ^ (k + 52) ≤ max |t| 1 := ht.trans ((le_abs_self t).trans (le_max_left _ _))
    have hSplit : (2 : ℚ) ^ (k + 52) = 2 ^ k * 2 ^ 52 := zpow_add₀ two_ne_zero k 52
    rw [hSplit] at hMax
    rw [one_div_mul_eq_div, le_div_iff₀ (by positivity)]
    exact hMax
  exact ⟨2 ^ k, rounds_two_zpow hLeast, h, hTolerance hp, hTolerance hq⟩

/-- Two scales that were computed are finite and lie that close together. -/
def Agree (x y : Float) : Prop :=
  ∃ p q, ofFloat x = finite p ∧ ofFloat y = finite q ∧ Close p q

theorem Agree.symm (h : Agree x y) : Agree y x := by
  obtain ⟨p, q, hp, hq, hClose⟩ := h
  exact ⟨q, p, hq, hp, hClose.symm⟩

/-- Scales that agree count as one. -/
theorem Box.scale?_of_agree {b : Box Float} (h : Agree b.scaleX b.scaleY) :
    b.scale? = some b.scaleX := by
  obtain ⟨p, q, hX, hY, c, hc, hNear, hTolerance, -⟩ := h
  have hLargestPos : 0 < max |p| 1 := zero_lt_one.trans_le (le_max_right _ _)
  have hUnder : c < 2 ^ 1024 := by
    refine hTolerance.trans_lt ((mul_le_of_le_one_left hLargestPos.le (by norm_num)).trans_lt ?_)
    exact max_lt (abs_lt_of_ofFloat hX) (one_lt_pow₀ one_lt_two (by norm_num))
  obtain ⟨d, hDifference, hRounds⟩ := (ofFloat_sub hX hY).exists_finite hc hUnder hNear
  have hAbs : ofFloat (Arithmetic.abs (b.scaleX - b.scaleY)) = finite |d| := by
    rw [abs_ofFloat, hDifference]
    rfl
  have hLargest : ofFloat (Arithmetic.greatest (Arithmetic.abs b.scaleX) Arithmetic.one) =
      finite (max |p| 1) := by
    rw [ofFloat_greatest, abs_ofFloat, hX, ofFloat_one]
    exact greatest_finite |p| 1
  have hNonneg : 0 ≤ c := (abs_nonneg _).trans hNear
  have hWithin : |d| ≤ c := hRounds.abs.le_of_le hc (abs_nonneg _) hNear
  have hReach := (ofFloat_mul ofFloat_tolerance hLargest).atMost hc hNonneg hTolerance
  have hTest : Arithmetic.atMost (Arithmetic.abs (b.scaleX - b.scaleY))
      (Arithmetic.tolerance * Arithmetic.greatest (Arithmetic.abs b.scaleX) Arithmetic.one) =
        true := by
    rw [atMost_ofFloat, hAbs]
    exact atMost_trans (atMost_finite.mpr hWithin) hReach
  exact if_pos hTest

/-! One given extent -/

/-- The least length that binary64 holds with all its digits. -/
def leastFull : Float := Float.ofBits 0x0010000000000000

/-- A number of which only the leading digit is not zero is a power of two. -/
theorem ofFloat_of_unpack {e : Int} (positive : 0 < 2 ^ 52)
    (h : x.toModel.unpack = .finite .positive (2 ^ 52) e positive) :
    ofFloat x = finite (2 ^ (e + 52)) := by
  refine (congrArg ofUnpacked h).trans (congrArg finite ?_)
  rw [factor, one_mul, add_comm, zpow_add₀ two_ne_zero, Nat.cast_pow]
  rfl

theorem ofFloat_leastFull : ofFloat leastFull = finite (2 ^ (-1022 : ℤ)) :=
  ofFloat_of_unpack (e := -1074) (by decide) rfl

theorem isFinite_of_eq (h : ofFloat x = finite q) : x.isFinite = true := by
  rw [← isFinite_ofFloat, h]
  rfl

/-- A length is above the least one that binary64 holds with all its digits. -/
def IsFull (x : Float) : Prop := x.isFinite = true ∧ leastFull < x

theorem IsFull.exists_value (h : IsFull x) : ∃ q, ofFloat x = finite q ∧ 2 ^ (-1022 : ℤ) < q := by
  obtain ⟨q, hValue⟩ := exists_of_isFinite h.1
  exact ⟨q, hValue, (lt_iff ofFloat_leastFull hValue).mp h.2⟩

theorem isFull_of_lt (h : ofFloat x = finite q) (hLt : 2 ^ (-1022 : ℤ) < q) : IsFull x :=
  ⟨isFinite_of_eq h, (lt_iff ofFloat_leastFull h).mpr hLt⟩

/-- A number that is stored with all its digits is changed by no more than one part in `2 ^ 53`. -/
theorem IsFull.near (hx : IsFull x) (h : Stores (ofFloat x) q) (hNonneg : 0 ≤ q) :
    ∃ r, ofFloat x = finite r ∧ 0 < r ∧ |r - q| ≤ q / 2 ^ 53 := by
  obtain ⟨r, hValue, hAbove⟩ := hx.exists_value
  rw [hValue] at h
  have hNormal : 2 ^ (-1022 : ℤ) ≤ q := by
    by_contra hBelow
    exact absurd hAbove (not_lt.mpr
      (h.rounds.le_of_le (rounds_two_zpow le_rfl) hNonneg (not_le.mp hBelow).le))
  have hNear := h.rounds.abs_sub_le (by rwa [abs_of_nonneg hNonneg])
  rw [abs_of_nonneg hNonneg] at hNear
  exact ⟨r, hValue, (two_zpow_pos _).trans hAbove, hNear⟩

/-- The other extent is derived from a given one and measured again without loss: all digits are
kept on the way, and if the image is enlarged, the product is not rounded and no scale is too
large. -/
structure Derives (given own other : Float) : Prop where
  isFull : 0 < given → IsFull (given * other) ∧ IsFull (given * other / own)
  isExact : own < given → ofFloat (given * other) = ofFloat given * ofFloat other
  isFinite : own < given →
    (given / own).isFinite = true ∧ (given * other / own / other).isFinite = true

section Derive

variable {given own other : Float} {a b m d : ℚ}

theorem ofFloat_ofNat_zero : ofFloat 0 = finite 0 := by
  decide

theorem agree_zero (hOwn : ofFloat own = finite a) (hOther : ofFloat other = finite b)
    (hGiven : ofFloat given = finite 0) (ha : 0 < a) (hb : 0 < b) :
    Agree (given / own) (given * other / own / other) := by
  have hQuotient {x y : Float} {t : ℚ} (hx : ofFloat x = finite 0) (hy : ofFloat y = finite t)
      (ht : 0 < t) : ofFloat (x / y) = finite 0 := by
    have hStores := ofFloat_div hx hy ht.ne'
    rw [zero_div] at hStores
    exact hStores.eq_zero
  have hProduct : ofFloat (given * other) = finite 0 := by
    have hStores := ofFloat_mul hGiven hOther
    rw [zero_mul] at hStores
    exact hStores.eq_zero
  refine ⟨0, 0, hQuotient hGiven hOwn ha, hQuotient (hQuotient hProduct hOwn ha) hOther hb,
    close_of_abs_sub_le ?_⟩
  rw [sub_self, abs_zero]
  positivity

theorem agree_of_le (hOwn : ofFloat own = finite a) (hOther : ofFloat other = finite b)
    (hGiven : ofFloat given = finite c) (hb : 0 < b) (hc : 0 < c) (hLe : c ≤ a)
    (hProduct : IsFull (given * other)) (hDerived : IsFull (given * other / own)) :
    Agree (given / own) (given * other / own / other) := by
  have ha : 0 < a := hc.trans_le hLe
  have hScale : 0 < c / a := div_pos hc ha
  have hScaleOne : c / a ≤ 1 := (div_le_one ha).mpr hLe
  obtain ⟨m, hm, hmPos, hmNear⟩ :=
    hProduct.near (ofFloat_mul hGiven hOther) (mul_pos hc hb).le
  obtain ⟨d, hd, hdPos, hdNear⟩ :=
    hDerived.near (ofFloat_div hm hOwn ha.ne') (div_pos hmPos ha).le
  have hUnit : c / a = 1 ∨ c / a + c / a / 2 ^ 53 < 1 := by
    rcases hLe.lt_or_eq with hLt | rfl
    · right
      rw [div_right_comm, ← add_div, div_lt_one ha]
      exact (rounds_of_ofFloat hOwn).lt_of_lt (rounds_of_ofFloat hGiven) hc hLt
    · exact Or.inl (div_self ha.ne')
  obtain ⟨hLow, hHigh⟩ := derived_scale_bounds ha hb hmNear hdNear
  have hMost : d / b ≤ 2 := by
    refine hHigh.trans ((mul_le_of_le_one_left (by positivity) hScaleOne).trans ?_)
    norm_num
  have hTwo : Rounds 2 2 := rounds_two_zpow (e := 1) (by norm_num)
  have hUnder : (2 : ℚ) < 2 ^ 1024 := lt_self_pow₀ one_lt_two (by norm_num)
  obtain ⟨p, hp, hpRounds⟩ := (ofFloat_div hGiven hOwn ha.ne').exists_finite hTwo hUnder (by
    rw [abs_of_pos hScale]
    exact hScaleOne.trans one_le_two)
  obtain ⟨q, hq, hqRounds⟩ := (ofFloat_div hd hOther hb.ne').exists_finite hTwo hUnder (by
    rw [abs_of_pos (div_pos hdPos hb)]
    exact hMost)
  exact ⟨p, q, hp, hq, close_of_abs_sub_le
    (abs_sub_le_of_le_one hpRounds hqRounds hScale hUnit hLow hHigh)⟩

theorem agree_of_exact (hOwn : ofFloat own = finite a) (hOther : ofFloat other = finite b)
    (hGiven : ofFloat given = finite c) (ha : 0 < a) (hb : 0 < b) (hLt : a < c)
    (hExact : ofFloat (given * other) = finite (c * b)) (hDerived : IsFull (given * other / own))
    (hFirst : (given / own).isFinite = true)
    (hSecond : (given * other / own / other).isFinite = true) :
    Agree (given / own) (given * other / own / other) := by
  have hc : 0 < c := ha.trans hLt
  have hScaleOne : 1 ≤ c / a := (one_le_div ha).mpr hLt.le
  obtain ⟨d, hd, hdPos, hdNear⟩ :=
    hDerived.near (ofFloat_div hExact hOwn ha.ne') (div_pos (mul_pos hc hb) ha).le
  have hNear : |d / b - c / a| ≤ c / a / 2 ^ 53 := by
    refine abs_div_sub_le hb ?_
    rwa [mul_comm c b, mul_div_assoc, mul_div_assoc] at hdNear
  obtain ⟨p, hp⟩ := exists_of_isFinite hFirst
  obtain ⟨q, hq⟩ := exists_of_isFinite hSecond
  have hpStores := ofFloat_div hGiven hOwn ha.ne'
  have hqStores := ofFloat_div hd hOther hb.ne'
  rw [hp] at hpStores
  rw [hq] at hqStores
  obtain ⟨e, hpRounds⟩ := hpStores.rounds
  have hExponent : -53 < e := by
    have hLead : (2 : ℚ) ^ (0 : ℤ) < 2 ^ (e + 53) :=
      hScaleOne.trans_lt ((le_abs_self _).trans_lt hpRounds.lt)
    have := two_zpow_lt_iff.mp hLead
    omega
  refine ⟨p, q, hp, hq, ?_⟩
  obtain ⟨hpFull, ⟨hqFull, hStep⟩ | ⟨hqFull, hStep⟩⟩ :=
    steps_of_one_le hpRounds hqStores.rounds hScaleOne hNear
  · exact close_of_step (by omega) hStep hpFull hqFull
  · have hHalf : e - 1 + 52 = e + 51 := by omega
    refine close_of_step (k := e - 1) (by omega) hStep ?_ (by rwa [hHalf])
    exact (zpow_le_zpow_right₀ one_le_two (by omega)).trans hpFull

/-- The two scales of a box for one given extent. -/
theorem Derives.agree (h : Derives given own other) (hOwn : ofFloat own = finite a)
    (hOther : ofFloat other = finite b) (hGiven : ofFloat given = finite c) (ha : 0 < a)
    (hb : 0 < b) (hc : 0 ≤ c) :
    Agree (given / own) (given * other / own / other) := by
  rcases hc.eq_or_lt with rfl | hc
  · exact agree_zero hOwn hOther hGiven ha hb
  obtain ⟨hProduct, hDerived⟩ := h.isFull ((lt_iff ofFloat_ofNat_zero hGiven).mpr hc)
  rcases le_or_gt c a with hLe | hLt
  · exact agree_of_le hOwn hOther hGiven hb hc hLe hProduct hDerived
  · have hEnlarged : own < given := (lt_iff hOwn hGiven).mpr hLt
    obtain ⟨hFirst, hSecond⟩ := h.isFinite hEnlarged
    have hExact := h.isExact hEnlarged
    rw [hGiven, hOther] at hExact
    exact agree_of_exact hOwn hOther hGiven ha hb hLt hExact hDerived hFirst hSecond

/-- A number that is divided by one that is not below one is stored as a number no greater. -/
theorem exists_quotient (hx : ofFloat x = finite p) (hy : ofFloat y = finite q) (hp : 0 ≤ p)
    (hq : 1 ≤ q) (hc : Rounds c c) (hUnder : c < 2 ^ 1024) (hLe : p ≤ c) :
    ∃ r, ofFloat (x / y) = finite r ∧ Rounds (p / q) r ∧ 0 ≤ r ∧ r ≤ c := by
  have hPos : 0 < q := zero_lt_one.trans_le hq
  have hNonneg : 0 ≤ p / q := div_nonneg hp hPos.le
  have hBound : p / q ≤ c := (div_le_self hp hq).trans hLe
  obtain ⟨r, hr, hRounds⟩ := (ofFloat_div hx hy hPos.ne').exists_finite hc hUnder
    (by rwa [abs_of_nonneg hNonneg])
  exact ⟨r, hr, hRounds, hRounds.nonneg hNonneg, hRounds.le_of_le hc hNonneg hBound⟩

/-- Where an image is measured in whole numbers and asked for one, nothing is rounded before the
quotients. -/
theorem derives_of_natCast {n k l : ℕ} (hGiven : ofFloat given = finite n)
    (hOwn : ofFloat own = finite k) (hOther : ofFloat other = finite l) (hk : 0 < k) (hl : 0 < l)
    (hOwnLt : k < 2 ^ 53) (hLt : n * l < 2 ^ 53) : Derives given own other := by
  have hkOne : (1 : ℚ) ≤ k := by exact_mod_cast hk
  have hlOne : (1 : ℚ) ≤ l := by exact_mod_cast hl
  have hHeld := rounds_natCast hLt
  push_cast at hHeld
  have hProductNonneg : (0 : ℚ) ≤ n * l := by positivity
  have hUnder : (n : ℚ) * l < 2 ^ 1024 := by
    have hDigits : (n : ℚ) * l < 2 ^ 53 := by exact_mod_cast hLt
    exact hDigits.trans (pow_lt_pow_right₀ one_lt_two (by norm_num))
  obtain ⟨m, hm, hmRounds⟩ := (ofFloat_mul hGiven hOther).exists_finite hHeld hUnder
    (abs_of_nonneg hProductNonneg).le
  obtain rfl := hmRounds.eq_of_self hHeld hProductNonneg
  obtain ⟨d, hd, hdRounds, hdNonneg, hdLe⟩ :=
    exists_quotient hm hOwn hProductNonneg hkOne hHeld hUnder le_rfl
  obtain ⟨p, hp, -⟩ := exists_quotient hGiven hOwn (Nat.cast_nonneg n) hkOne hHeld hUnder
    (le_mul_of_one_le_right (Nat.cast_nonneg n) hlOne)
  obtain ⟨q, hq, -⟩ := exists_quotient hd hOther hdNonneg hlOne hHeld hUnder hdLe
  have hOne (hPositive : 0 < given) : (1 : ℚ) ≤ n * l := by
    have hn : 0 < n := by exact_mod_cast (lt_iff ofFloat_ofNat_zero hGiven).mp hPositive
    exact_mod_cast Nat.mul_pos hn hl
  refine ⟨fun hPositive => ⟨?_, ?_⟩, fun _ => ?_, fun _ => ⟨?_, ?_⟩⟩
  · refine isFull_of_lt hm ?_
    exact (zpow_lt_one_of_neg₀ one_lt_two (by norm_num)).trans_le (hOne hPositive)
  · refine isFull_of_lt hd ?_
    have hLow : (2 : ℚ) ^ (-53 : ℤ) ≤ n * l / k := by
      have hDigits : (k : ℚ) ≤ 2 ^ 53 := by exact_mod_cast hOwnLt.le
      rw [zpow_neg, ← one_div]
      exact div_le_div₀ hProductNonneg (hOne hPositive) (by positivity) hDigits
    have hLeast : (2 : ℚ) ^ (-1022 : ℤ) < 2 ^ (-53 : ℤ) := two_zpow_lt_iff.mpr (by norm_num)
    exact hLeast.trans_le
      (hdRounds.ge_of_ge (rounds_two_zpow (by norm_num)) (two_zpow_pos _).le hLow)
  · rw [hm, hGiven, hOther]
    rfl
  · exact isFinite_of_eq hp
  · exact isFinite_of_eq hq

end Derive

/-! No given extent -/

section Natural

variable {a b t : ℚ} {s : Size Float}

theorem exists_between {z : Exact} (hLow : Arithmetic.atMost (finite 0) z = true)
    (hHigh : Arithmetic.atMost z (finite 1) = true) : ∃ t, z = finite t ∧ 0 ≤ t ∧ t ≤ 1 := by
  cases z with
  | finite t => exact ⟨t, rfl, atMost_finite.mp hLow, atMost_finite.mp hHigh⟩
  | infinite negative =>
      cases negative with
      | true => cases hLow
      | false => cases hHigh
  | nan => cases hLow

/-- An axis allows no negative scale. -/
theorem atMost_axis (hx : ofFloat x = finite a) (ha : 0 < a) (extent : Option Float) :
    Arithmetic.atMost (finite 0)
      (ofFloat (((Region.limit? extent).map (· / x)).getD Arithmetic.unlimited)) = true := by
  have hUnlimited : Arithmetic.atMost (finite 0) (ofFloat Arithmetic.unlimited) = true := by
    rw [ofFloat_unlimited]
    rfl
  cases extent with
  | none => exact hUnlimited
  | some y =>
      cases hFinite : y.isFinite with
      | false =>
          have hNone : Region.limit? (some y) = none := by
            rw [Region.limit?, Option.filter_some_neg]
            · rfl
            · exact hFinite
          rw [hNone]
          exact hUnlimited
      | true =>
          have hSome : Region.limit? (some y) = some (Arithmetic.greatest y Arithmetic.zero) := by
            rw [Region.limit?, Option.filter_some_pos]
            · rfl
            · exact hFinite
          obtain ⟨c, hy⟩ := exists_of_isFinite hFinite
          have hLimit : ofFloat (Arithmetic.greatest y Arithmetic.zero) = finite (max c 0) := by
            rw [ofFloat_greatest, hy, ofFloat_zero, greatest_finite]
          have hRoom : 0 ≤ max c 0 := le_max_right c 0
          rw [hSome]
          exact (ofFloat_div hLimit hx ha.ne').atMost rounds_zero le_rfl (div_nonneg hRoom ha.le)

/-- An image is fitted with a scale between zero and one. -/
theorem Size.exists_ofFloat_fitScale (hWidth : ofFloat s.width = finite a) (ha : 0 < a)
    (hHeight : ofFloat s.height = finite b) (hb : 0 < b) (r : Region Float) :
    ∃ t, ofFloat (s.fitScale r) = finite t ∧ 0 ≤ t ∧ t ≤ 1 := by
  have hByWidth := atMost_axis hWidth ha r.width
  have hByHeight := atMost_axis hHeight hb r.height
  have hFirst := (isNumber_of_atMost hByWidth).2
  have hSecond := (isNumber_of_atMost hByHeight).2
  have hBoth := isNumber_least hFirst hSecond
  have hOne : (finite 1).isNumber = true := rfl
  have hBounds {z : Exact} := atMost_least_iff (z := z) hBoth hOne
  unfold Size.fitScale
  rw [ofFloat_least, ofFloat_least, ofFloat_one]
  refine exists_between (hBounds.mpr ⟨?_, ?_⟩) (hBounds.mp (atMost_self ?_)).2
  · exact (atMost_least_iff hFirst hSecond).mpr ⟨hByWidth, hByHeight⟩
  · exact atMost_finite.mpr zero_le_one
  · exact isNumber_least hBoth hOne

/-- An extent that is scaled gives the scale back up to one step. -/
theorem exists_scaled (hx : ofFloat x = finite a) (hLarge : 2 ^ (-1021 : ℤ) ≤ a)
    (hy : ofFloat y = finite t) (hNonneg : 0 ≤ t) (hOne : t ≤ 1) :
    ∃ p, ofFloat (x * y / x) = finite p ∧ |p - t| ≤ 1 / 2 ^ 53 := by
  have ha : 0 < a := (two_zpow_pos _).trans_le hLarge
  have hProduct : 0 ≤ a * t := mul_nonneg ha.le hNonneg
  have hLess : a * t ≤ a := mul_le_of_le_one_right ha.le hOne
  have hHeld := rounds_of_ofFloat hx
  obtain ⟨w, hw, hwRounds⟩ := (ofFloat_mul hx hy).exists_finite hHeld
    ((le_abs_self a).trans_lt (abs_lt_of_ofFloat hx)) (by rwa [abs_of_nonneg hProduct])
  have hwOne : w / a ≤ 1 := (div_le_one ha).mpr (hwRounds.le_of_le hHeld hProduct hLess)
  obtain ⟨p, hp, hpRounds⟩ := (ofFloat_div hw hx ha.ne').exists_finite
    (rounds_of_ofFloat ofFloat_one) (one_lt_pow₀ one_lt_two (by norm_num)) (by
      rwa [abs_of_nonneg (div_nonneg (hwRounds.nonneg hProduct) ha.le)])
  exact ⟨p, hp, abs_sub_scale_le hHeld hLarge (rounds_of_ofFloat hy) hNonneg hOne hwRounds hpRounds⟩

/-- The two scales of a box that no extent was asked for. -/
theorem agree_natural (hWidth : ofFloat s.width = finite a) (ha : 2 ^ (-1021 : ℤ) ≤ a)
    (hHeight : ofFloat s.height = finite b) (hb : 2 ^ (-1021 : ℤ) ≤ b) (r : Region Float) :
    Agree (s.width * s.fitScale r / s.width) (s.height * s.fitScale r / s.height) := by
  obtain ⟨t, ht, hNonneg, hOne⟩ := Size.exists_ofFloat_fitScale hWidth
    ((two_zpow_pos _).trans_le ha) hHeight ((two_zpow_pos _).trans_le hb) r
  obtain ⟨p, hp, hpNear⟩ := exists_scaled hWidth ha ht hNonneg hOne
  obtain ⟨q, hq, hqNear⟩ := exists_scaled hHeight hb ht hNonneg hOne
  refine ⟨p, q, hp, hq, close_of_abs_sub_le ((abs_sub_le p t q).trans ?_)⟩
  rw [abs_sub_comm t q]
  calc |p - t| + |q - t| ≤ 1 / 2 ^ 53 + 1 / 2 ^ 53 := add_le_add hpNear hqNear
    _ = 1 / 2 ^ 52 := by norm_num

end Natural

/-! The boxes -/

/-- Twice the least length that binary64 holds with all its digits. -/
def leastScaled : Float := Float.ofBits 0x0020000000000000

theorem ofFloat_leastScaled : ofFloat leastScaled = finite (2 ^ (-1021 : ℤ)) :=
  ofFloat_of_unpack (e := -1073) (by decide) rfl

/-- No length that a box is computed with is too small or too large, and the one that follows from a
given one is derived without loss. -/
structure IsModerate (s : Size Float) (e : Extents Float) : Prop where
  ofWidth : ∀ w, e.width = some w → Derives w s.width s.height
  ofHeight : ∀ h, e.height = some h → Derives h s.height s.width
  ofNatural : e = .natural → leastScaled ≤ s.width ∧ leastScaled ≤ s.height

section Boxes

variable {s : Size Float} {e : Extents Float}

theorem exists_nonneg {x : Float}
    (h : (x.isFinite && Arithmetic.atMost Arithmetic.zero x) = true) :
    ∃ c, ofFloat x = finite c ∧ 0 ≤ c := by
  obtain ⟨hFinite, hNonneg⟩ := Bool.and_eq_true_iff.mp h
  obtain ⟨c, hx⟩ := exists_of_isFinite hFinite
  rw [atMost_ofFloat, ofFloat_zero, hx] at hNonneg
  exact ⟨c, hx, atMost_finite.mp hNonneg⟩

theorem exists_positive {x : Float} (hFinite : x.isFinite = true)
    (hPositive : Arithmetic.less Arithmetic.zero x = true) : ∃ a, ofFloat x = finite a ∧ 0 < a := by
  obtain ⟨a, hx⟩ := exists_of_isFinite hFinite
  rw [less_ofFloat, ofFloat_zero, hx] at hPositive
  exact ⟨a, hx, less_finite.mp hPositive⟩

theorem agree_drawn (hWidth : s.width.isFinite = true) (hHeight : s.height.isFinite = true)
    (hPositive : s.isPositive = true) (hValid : e.isValid = true)
    (hOne : e.width = none ∨ e.height = none) (hModerate : IsModerate s e) (r : Region Float) :
    Agree ((s.drawn e r).width / s.width) ((s.drawn e r).height / s.height) := by
  obtain ⟨hWider, hHigher⟩ := Bool.and_eq_true_iff.mp hPositive
  obtain ⟨a, ha, haPos⟩ := exists_positive hWidth hWider
  obtain ⟨b, hb, hbPos⟩ := exists_positive hHeight hHigher
  obtain ⟨hValidWidth, hValidHeight⟩ := Bool.and_eq_true_iff.mp hValid
  obtain ⟨width, height⟩ := e
  match width, height with
  | some _, some _ => rcases hOne with h | h <;> cases h
  | some w, none =>
      obtain ⟨c, hc, hcNonneg⟩ := exists_nonneg hValidWidth
      exact (hModerate.ofWidth w rfl).agree ha hb hc haPos hbPos hcNonneg
  | none, some h =>
      obtain ⟨c, hc, hcNonneg⟩ := exists_nonneg hValidHeight
      exact ((hModerate.ofHeight h rfl).agree hb ha hc hbPos haPos hcNonneg).symm
  | none, none =>
      obtain ⟨hLargeWidth, hLargeHeight⟩ := hModerate.ofNatural rfl
      exact agree_natural ha ((le_iff ofFloat_leastScaled ha).mp hLargeWidth)
        hb ((le_iff ofFloat_leastScaled hb).mp hLargeHeight) r

end Boxes

/-- An image that at most one extent is asked for is not stretched, whatever room there is: its box
has a common scale. This takes lengths that are moderate; nothing more is asked of an image that is
not enlarged. -/
theorem fit_uniform (s : Size Float) (e : Extents Float) (r : Region Float)
    (hWidth : s.width.isFinite = true) (hHeight : s.height.isFinite = true)
    (hPositive : s.isPositive = true) (hValid : e.isValid = true)
    (hOne : e.width = none ∨ e.height = none) (hModerate : IsModerate s e) :
    ∃ b, Box.fit s e r = .ok b ∧ b.scale? = some b.scaleX ∧ b.isStretched = false := by
  have hScale := Box.scale?_of_agree (b := ⟨(s.drawn e r).width, (s.drawn e r).height,
    (s.drawn e r).width / s.width, (s.drawn e r).height / s.height⟩)
    (agree_drawn hWidth hHeight hPositive hValid hOne hModerate r)
  exact ⟨_, Box.fit_eq_ok hPositive hValid r, hScale, congrArg Option.isNone hScale⟩

/-- An image of 400 by 200 that is asked to be 800 wide. -/
theorem fit_uniform_enlarged : ∃ b,
    Box.fit (⟨400, 200⟩ : Size Float) ⟨some 800, none⟩ .unbounded = .ok b ∧
      b.scale? = some b.scaleX ∧ b.isStretched = false := by
  have hGiven : ofFloat 800 = finite (800 : ℕ) := by decide +kernel
  have hOwn : ofFloat 400 = finite (400 : ℕ) := by decide +kernel
  have hOther : ofFloat 200 = finite (200 : ℕ) := by decide +kernel
  have hDerives : Derives 800 400 200 :=
    derives_of_natCast hGiven hOwn hOther (by decide) (by decide) (by decide) (by decide)
  have hModerate : IsModerate ⟨400, 200⟩ ⟨some 800, none⟩ := by
    refine ⟨?_, fun h hNone => ?_, fun hNatural => ?_⟩
    · rintro w ⟨⟩
      exact hDerives
    · cases hNone
    · cases congrArg Extents.width hNatural
  exact fit_uniform ⟨400, 200⟩ ⟨some 800, none⟩ .unbounded (by decide) (by decide) (by decide)
    (by decide) (Or.inr rfl) hModerate

/-- A square of 1.5 that is asked to be 2.7 wide has scales two steps apart, so that it counts as
stretched. -/
theorem not_fit_uniform_square : ¬ ∀ (s : Size Float) (e : Extents Float) (r : Region Float),
    s.width.isFinite = true → s.height.isFinite = true → s.isPositive = true → e.isValid = true →
    e.width = none ∨ e.height = none →
    ∃ b, Box.fit s e r = .ok b ∧ b.scale?.isSome = true ∧ b.isStretched = false := by
  intro hUniform
  obtain ⟨b, hFit, -, hStretched⟩ := hUniform ⟨1.5, 1.5⟩ ⟨some 2.7, none⟩ .unbounded (by decide)
    (by decide) (by decide) (by decide) (Or.inr rfl)
  have hFound : (Box.fit (⟨1.5, 1.5⟩ : Size Float) ⟨some 2.7, none⟩ .unbounded).map
      Box.isStretched = .ok true := by
    decide +kernel
  rw [hFit] at hFound
  cases hStretched.symm.trans (Except.ok.inj hFound)

end ImagePlacement
