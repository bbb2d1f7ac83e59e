import Mathlib.Data.Nat.Log
import Mathlib.Tactic.NormNum

/-! The bits of binary64. What a number is packed into is unpacked to the same number, as long as it
has no more digits than there is room for. -/
namespace ImagePlacement.Binary64

open Float.Model UnpackedFloat

/-- The form in which binary64 holds a number. -/
def IsCanonical : UnpackedFloat → Prop
  | .finite _ m e _ => m < 2 ^ 53 ∧ -1074 ≤ e ∧ e ≤ 971 ∧ (2 ^ 52 ≤ m ∨ e = -1074)
  | .zero _ | .infinity _ | .notANumber => True

/-- What a sign, an exponent and digits stand for. -/
def ofParts (s : Sign) (exponent : BitVec 11) (digits : BitVec 52) : UnpackedFloat :=
  if exponent = -1 then
    if digits = 0 then .infinity s else .notANumber
  else if exponent = 0 then
    if h : digits = 0 then .zero s
    else .finite s digits.toNat (-1074)
      (Nat.pos_of_ne_zero fun hZero => h (BitVec.eq_of_toNat_eq hZero))
  else .finite s (2 ^ 52 + digits.toNat) (exponent.toNat - 1075) (by omega)

variable {s : Sign} {m : Nat} {e : Int} {positive : 0 < m}

theorem finite_congr {n : Nat} {f : Int} {positive' : 0 < n} (hDigits : m = n) (hExponent : e = f) :
    UnpackedFloat.finite s m e positive = .finite s n f positive' := by
  subst hDigits hExponent
  rfl

theorem unpack_eq_ofParts (bits : BitVec Format.binary64.numBits) :
    UnpackedFloat.unpack Format.binary64 bits =
      ofParts (Sign.ofBitVec (unpackSign bits)) (unpackExponent bits) (unpackMantissa bits) := by
  have hDigits : (1#1 ++ unpackMantissa bits).toNat = 2 ^ 52 + (unpackMantissa bits).toNat := by
    rw [BitVec.toNat_append, ← Nat.shiftLeft_add_eq_or_of_lt (unpackMantissa bits).isLt]
    rfl
  refine ite_congr rfl (fun _ => rfl) fun _ => ite_congr rfl (fun hZero => ?_) fun _ => ?_
  · refine dite_congr rfl (fun _ => rfl) fun _ => ?_
    exact finite_congr rfl (by rw [hZero]; rfl)
  · exact finite_congr hDigits rfl

theorem isCanonical_ofParts (s : Sign) (exponent : BitVec 11) (digits : BitVec 52) :
    IsCanonical (ofParts s exponent digits) := by
  have hDigits := digits.isLt
  have hExponent := exponent.isLt
  by_cases hOnes : exponent = -1
  · rw [ofParts, if_pos hOnes]
    by_cases hZero : digits = 0
    · rw [if_pos hZero]
      trivial
    · rw [if_neg hZero]
      trivial
  rw [ofParts, if_neg hOnes]
  by_cases hLeast : exponent = 0
  · rw [if_pos hLeast]
    by_cases hZero : digits = 0
    · rw [dif_pos hZero]
      trivial
    · rw [dif_neg hZero]
      exact ⟨by omega, by decide, by decide, Or.inr rfl⟩
  · rw [if_neg hLeast]
    have hLow : exponent.toNat ≠ 0 := fun h => hLeast (BitVec.eq_of_toNat_eq h)
    have hHigh : exponent.toNat ≠ 2047 := fun h => hOnes (BitVec.eq_of_toNat_eq h)
    exact ⟨by omega, by omega, by omega, Or.inl (by omega)⟩

theorem isCanonical_unpack (x : Float.Model) : IsCanonical x.unpack := by
  have hParts := unpack_eq_ofParts x.toBits.toBitVec
  rw [Float.Model.unpack, hParts]
  exact isCanonical_ofParts _ _ _

theorem unpackSign_packComponents (s : Sign) (exponent : BitVec 11) (digits : BitVec 52) :
    unpackSign (packComponents Format.binary64 s exponent digits) = s.toBitVec := by
  have hTop : (s.toBitVec ++ exponent ++ digits).getLsbD 63 = s.toBitVec.getLsbD 0 := by
    rw [BitVec.getLsbD_append, if_neg (by decide), BitVec.getLsbD_append, if_neg (by decide)]
  ext i hi
  obtain rfl : i = 0 := by omega
  change (BitVec.extractLsb' 63 1 (s.toBitVec ++ exponent ++ digits))[0] = s.toBitVec[0]
  rw [BitVec.getElem_extractLsb']
  exact hTop

theorem ofBitVec_toBitVec (s : Sign) : Sign.ofBitVec s.toBitVec = s := by
  cases s with
  | negative => rfl
  | positive => rfl

theorem unpack_packComponents (s : Sign) (exponent : BitVec 11) (digits : BitVec 52) :
    UnpackedFloat.unpack Format.binary64 (packComponents Format.binary64 s exponent digits) =
      ofParts s exponent digits := by
  rw [unpack_eq_ofParts, unpackSign_packComponents, unpackExponent_packComponents,
    unpackMantissa_packComponents, ofBitVec_toBitVec]

/-- A number with all its digits, of which the leading one is not written. -/
theorem ofParts_full {exponent : Nat} (hLow : 0 < exponent) (hHigh : exponent < 2047)
    (hAll : 2 ^ 52 ≤ m) (hDigits : m < 2 ^ 53) :
    ofParts s (BitVec.ofNat 11 exponent) (BitVec.ofNat 52 m) =
      .finite s m (exponent - 1075) positive := by
  have hExponent : (BitVec.ofNat 11 exponent).toNat = exponent := by
    rw [BitVec.toNat_ofNat, Nat.mod_eq_of_lt (by omega)]
  have hRest : 2 ^ 52 + (BitVec.ofNat 52 m).toNat = m := by
    rw [BitVec.toNat_ofNat]
    omega
  have hOnes : BitVec.ofNat 11 exponent ≠ -1 := by
    intro h
    rw [h] at hExponent
    have : (-1 : BitVec 11).toNat = 2047 := rfl
    omega
  have hZero : BitVec.ofNat 11 exponent ≠ 0 := by
    intro h
    rw [h] at hExponent
    have : (0 : BitVec 11).toNat = 0 := rfl
    omega
  rw [ofParts, if_neg hOnes, if_neg hZero]
  exact finite_congr hRest (by rw [hExponent])

theorem ofParts_least (hDigits : m < 2 ^ 52) :
    ofParts s 0 (BitVec.ofNat 52 m) = .finite s m (-1074) positive := by
  have hRest : (BitVec.ofNat 52 m).toNat = m := by
    rw [BitVec.toNat_ofNat, Nat.mod_eq_of_lt hDigits]
  have hZero : BitVec.ofNat 52 m ≠ 0 := by
    intro h
    rw [h] at hRest
    have : (0 : BitVec 52).toNat = 0 := rfl
    omega
  have hOnes : (0 : BitVec 11) ≠ -1 := by decide
  rw [ofParts, if_neg hOnes, if_pos rfl, dif_neg hZero]
  exact finite_congr hRest rfl

theorem unpack_pack {f : UnpackedFloat} (h : IsCanonical f) : (pack f).unpack = f := by
  change UnpackedFloat.unpack Format.binary64 (UnpackedFloat.pack Format.binary64 f) = f
  cases f with
  | infinity s => exact unpack_packComponents s (-1) 0
  | notANumber => exact unpack_packComponents .positive (-1) _
  | zero s => exact unpack_packComponents s 0 0
  | finite s m e positive =>
      obtain ⟨hDigits, hLeast, hGreatest, hFull⟩ := h
      have hUnder : ¬ 2 ^ 11 ≤ (e + 1023 + 52).toNat + 1 := by omega
      change UnpackedFloat.unpack Format.binary64 (if 2 ^ 11 ≤ (e + 1023 + 52).toNat + 1 then _
        else if m.log2 + 1 = 53 then _ else _) = _
      rw [if_neg hUnder]
      by_cases hAll : 2 ^ 52 ≤ m
      · have hLog : m.log2 + 1 = 53 := by
          have := (Nat.le_log2 positive.ne').mpr hAll
          have := (Nat.log2_lt positive.ne').mpr hDigits
          omega
        have hExponent : ((e + 1023 + 52).toNat : Int) - 1075 = e := by omega
        rw [if_pos hLog]
        have hParts : ofParts s (BitVec.ofNat 11 (e + 1023 + 52).toNat) (BitVec.ofNat 52 m) =
            .finite s m ((e + 1023 + 52).toNat - 1075) positive :=
          ofParts_full (by omega) (by omega) hAll hDigits
        rw [hExponent] at hParts
        exact (unpack_packComponents s _ _).trans hParts
      · obtain rfl := hFull.resolve_left hAll
        have hLog : ¬ m.log2 + 1 = 53 := by
          have := (Nat.log2_lt positive.ne').mpr (not_le.mp hAll)
          omega
        rw [if_neg hLog]
        exact (unpack_packComponents s _ _).trans (ofParts_least (not_le.mp hAll))

theorem unpack_pack_of_large (hLarge : 971 < e) :
    (pack (.finite s m e positive)).unpack = .infinity s := by
  have hOver : 2 ^ 11 ≤ (e + 1023 + 52).toNat + 1 := by omega
  change UnpackedFloat.unpack Format.binary64
    (if 2 ^ 11 ≤ (e + 1023 + 52).toNat + 1 then _ else _) = _
  rw [if_pos hOver]
  exact unpack_packComponents s (-1) 0

end ImagePlacement.Binary64
