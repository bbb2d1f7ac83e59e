import ImagePlacement.Text.Utf8
import ImagePlacement.Proofs.Text.Ascii

/-! The bytes of a text are read back as that text -/
namespace ImagePlacement.Utf8

section Sequences

variable {lead second third fourth : UInt8} {rest : Bytes}

theorem isContinuation_iff {b : UInt8} :
    isContinuation b = true ↔ 0x80 ≤ b.toNat ∧ b.toNat ≤ 0xBF := by
  simp [isContinuation, UInt8.le_iff_toNat_le]

theorem isSecondOfThree_of (hSecond : isContinuation second = true)
    (hLow : lead.toNat = 0xE0 → 0xA0 ≤ second.toNat)
    (hHigh : lead.toNat = 0xED → second.toNat ≤ 0x9F) : isSecondOfThree lead second = true := by
  have hRange := isContinuation_iff.mp hSecond
  unfold isSecondOfThree
  split
  case isTrue h => simpa [UInt8.le_iff_toNat_le] using ⟨hLow (by rw [h]; rfl), hRange.2⟩
  case isFalse =>
    split
    case isTrue h => simpa [UInt8.le_iff_toNat_le] using ⟨hRange.1, hHigh (by rw [h]; rfl)⟩
    case isFalse => exact hSecond

theorem isSecondOfFour_of (hSecond : isContinuation second = true)
    (hLow : lead.toNat = 0xF0 → 0x90 ≤ second.toNat)
    (hHigh : lead.toNat = 0xF4 → second.toNat ≤ 0x8F) : isSecondOfFour lead second = true := by
  have hRange := isContinuation_iff.mp hSecond
  unfold isSecondOfFour
  split
  case isTrue h => simpa [UInt8.le_iff_toNat_le] using ⟨hLow (by rw [h]; rfl), hRange.2⟩
  case isFalse =>
    split
    case isTrue h => simpa [UInt8.le_iff_toNat_le] using ⟨hRange.1, hHigh (by rw [h]; rfl)⟩
    case isFalse => exact hSecond

theorem charAt_one (hLead : lead.toNat < 0x80) :
    charAt lead rest = (some (Char.ofNat lead.toNat), 0) := if_pos hLead

theorem charAt_two (hLead : 0xC2 ≤ lead.toNat ∧ lead.toNat ≤ 0xDF)
    (hSecond : isContinuation second = true) : charAt lead (second :: rest) =
      (some (Char.ofNat (lead.toNat % 32 * 64 + second.toNat % 64)), 1) := by
  have hOne : ¬ lead < 0x80 := by simp [UInt8.lt_iff_toNat_lt]; omega
  have hTwo : (0xC2 ≤ lead && lead ≤ 0xDF) = true := by simpa [UInt8.le_iff_toNat_le] using hLead
  simp only [charAt, if_neg hOne, if_pos hTwo, if_pos hSecond]
  rfl

theorem charAt_three (hLead : 0xE0 ≤ lead.toNat ∧ lead.toNat ≤ 0xEF)
    (hSecond : isSecondOfThree lead second = true) (hThird : isContinuation third = true) :
    charAt lead (second :: third :: rest) = (some (Char.ofNat
      (lead.toNat % 16 * 4096 + second.toNat % 64 * 64 + third.toNat % 64)), 2) := by
  have hOne : ¬ lead < 0x80 := by simp [UInt8.lt_iff_toNat_lt]; omega
  have hTwo : ¬ (0xC2 ≤ lead && lead ≤ 0xDF) = true := by simp [UInt8.le_iff_toNat_le]; omega
  have hThree : (0xE0 ≤ lead && lead ≤ 0xEF) = true := by
    simpa [UInt8.le_iff_toNat_le] using hLead
  simp only [charAt, if_neg hOne, if_neg hTwo, if_pos hThree, if_pos hSecond, if_pos hThird]
  rfl

theorem charAt_four (hLead : 0xF0 ≤ lead.toNat ∧ lead.toNat ≤ 0xF4)
    (hSecond : isSecondOfFour lead second = true) (hThird : isContinuation third = true)
    (hFourth : isContinuation fourth = true) :
    charAt lead (second :: third :: fourth :: rest) = (some (Char.ofNat
      (lead.toNat % 8 * 262144 + second.toNat % 64 * 4096 + third.toNat % 64 * 64 +
        fourth.toNat % 64)), 3) := by
  have hOne : ¬ lead < 0x80 := by simp [UInt8.lt_iff_toNat_lt]; omega
  have hTwo : ¬ (0xC2 ≤ lead && lead ≤ 0xDF) = true := by simp [UInt8.le_iff_toNat_le]; omega
  have hThree : ¬ (0xE0 ≤ lead && lead ≤ 0xEF) = true := by simp [UInt8.le_iff_toNat_le]; omega
  have hFour : (0xF0 ≤ lead && lead ≤ 0xF4) = true := by
    simpa [UInt8.le_iff_toNat_le] using hLead
  simp only [charAt, if_neg hOne, if_neg hTwo, if_neg hThree, if_pos hFour, if_pos hSecond,
    if_pos hThird, if_pos hFourth]
  rfl

end Sequences

theorem toNat_ofNat {n : Nat} (h : n < 256) : (UInt8.ofNat n).toNat = n := by
  rw [UInt8.toNat_ofNat']
  exact Nat.mod_eq_of_lt h

section Codes

variable {n : Nat} {rest : Bytes}

theorem isContinuation_ofNat (m : Nat) : isContinuation (UInt8.ofNat (m % 64 + 128)) = true := by
  rw [isContinuation_iff, toNat_ofNat (by omega)]
  omega

theorem charAt_code_one (h : n ≤ 0x7F) :
    charAt (UInt8.ofNat n) rest = (some (Char.ofNat n), 0) := by
  rw [charAt_one (by rw [toNat_ofNat (by omega)]; omega), toNat_ofNat (by omega)]

theorem charAt_code_two (h : 0x7F < n ∧ n ≤ 0x7FF) :
    charAt (UInt8.ofNat (n / 64 % 32 + 192)) (UInt8.ofNat (n % 64 + 128) :: rest) =
      (some (Char.ofNat n), 1) := by
  have hLead : (UInt8.ofNat (n / 64 % 32 + 192)).toNat = n / 64 % 32 + 192 :=
    toNat_ofNat (by omega)
  have hSum : (n / 64 % 32 + 192) % 32 * 64 + (n % 64 + 128) % 64 = n := by omega
  rw [charAt_two (by omega) (isContinuation_ofNat n), hLead, toNat_ofNat (by omega), hSum]

/-- The codes of surrogates have three bytes too, but stand for no character. -/
theorem charAt_code_three (h : 0x7FF < n ∧ n ≤ 0xFFFF) (hValid : n < 0xD800 ∨ 0xDFFF < n) :
    charAt (UInt8.ofNat (n / 4096 % 16 + 224))
      (UInt8.ofNat (n / 64 % 64 + 128) :: UInt8.ofNat (n % 64 + 128) :: rest) =
        (some (Char.ofNat n), 2) := by
  have hLead : (UInt8.ofNat (n / 4096 % 16 + 224)).toNat = n / 4096 % 16 + 224 :=
    toNat_ofNat (by omega)
  have hSecond : (UInt8.ofNat (n / 64 % 64 + 128)).toNat = n / 64 % 64 + 128 :=
    toNat_ofNat (by omega)
  have hSum : (n / 4096 % 16 + 224) % 16 * 4096 + (n / 64 % 64 + 128) % 64 * 64 +
      (n % 64 + 128) % 64 = n := by omega
  rw [charAt_three (by omega) (isSecondOfThree_of (isContinuation_ofNat _) (by omega) (by omega))
    (isContinuation_ofNat n), hLead, hSecond, toNat_ofNat (by omega), hSum]

theorem charAt_code_four (h : 0xFFFF < n ∧ n < 0x110000) :
    charAt (UInt8.ofNat (n / 262144 % 8 + 240)) (UInt8.ofNat (n / 4096 % 64 + 128) ::
      UInt8.ofNat (n / 64 % 64 + 128) :: UInt8.ofNat (n % 64 + 128) :: rest) =
        (some (Char.ofNat n), 3) := by
  have hLead : (UInt8.ofNat (n / 262144 % 8 + 240)).toNat = n / 262144 % 8 + 240 :=
    toNat_ofNat (by omega)
  have hSecond : (UInt8.ofNat (n / 4096 % 64 + 128)).toNat = n / 4096 % 64 + 128 :=
    toNat_ofNat (by omega)
  have hSum : (n / 262144 % 8 + 240) % 8 * 262144 + (n / 4096 % 64 + 128) % 64 * 4096 +
      (n / 64 % 64 + 128) % 64 * 64 + (n % 64 + 128) % 64 = n := by omega
  rw [charAt_four (by omega) (isSecondOfFour_of (isContinuation_ofNat _) (by omega) (by omega))
    (isContinuation_ofNat _) (isContinuation_ofNat n), hLead, hSecond, toNat_ofNat (by omega),
    toNat_ofNat (by omega), hSum]

end Codes

/-- A character is read from the front of its own bytes, whatever comes after them. -/
theorem charAt_utf8EncodeChar (c : Char) (rest : Bytes) : ∃ lead more,
    String.utf8EncodeChar c = lead :: more ∧ charAt lead (more ++ rest) = (some c, more.length) := by
  have hChar : Char.ofNat c.val.toNat = c := Char.ofNat_toNat c
  have hRange : c.val.toNat < 0xD800 ∨ 0xDFFF < c.val.toNat ∧ c.val.toNat < 0x110000 := c.valid
  simp only [String.utf8EncodeChar]
  generalize c.val.toNat = n at *
  rw [← hChar]
  split
  case isTrue h => exact ⟨_, _, rfl, charAt_code_one h⟩
  case isFalse h1 =>
    split
    case isTrue h2 => exact ⟨_, _, rfl, charAt_code_two (by omega)⟩
    case isFalse h2 =>
      split
      case isTrue h3 => exact ⟨_, _, rfl, charAt_code_three (by omega) (by omega)⟩
      case isFalse h3 => exact ⟨_, _, rfl, charAt_code_four (by omega)⟩

theorem decodeLossy_append (c : Char) (rest : Bytes) :
    decodeLossy (String.utf8EncodeChar c ++ rest) = c :: decodeLossy rest := by
  obtain ⟨lead, more, hBytes, hRead⟩ := charAt_utf8EncodeChar c rest
  rw [hBytes, List.cons_append, decodeLossy, hRead]
  change c :: decodeLossy ((more ++ rest).drop more.length) = _
  rw [List.drop_left]

theorem decodeLossy_ofText (text : String) : decodeLossy (Bytes.ofText text) = text.toList := by
  rw [Bytes.ofText_eq]
  induction text.toList with
  | nil => rw [List.flatMap_nil, decodeLossy]
  | cons c text ih => rw [List.flatMap_cons, decodeLossy_append, ih]

theorem decodeAfter?_append (done : List Char) (c : Char) (rest : Bytes) :
    decodeAfter? done (String.utf8EncodeChar c ++ rest) = decodeAfter? (c :: done) rest := by
  obtain ⟨lead, more, hBytes, hRead⟩ := charAt_utf8EncodeChar c rest
  rw [hBytes, List.cons_append, decodeAfter?]
  simp only [hRead]
  rw [List.drop_left]

theorem decode?_ofText (text : String) : decode? (Bytes.ofText text) = some text.toList := by
  have hAfter (chars done : List Char) :
      decodeAfter? done (chars.flatMap String.utf8EncodeChar) = some (done.reverse ++ chars) := by
    induction chars generalizing done with
    | nil => rw [List.flatMap_nil, decodeAfter?, List.append_nil]
    | cons c chars ih =>
        rw [List.flatMap_cons, decodeAfter?_append, ih, List.reverse_cons, List.append_assoc,
          List.singleton_append]
  rw [Bytes.ofText_eq, decode?, hAfter]
  rfl

end ImagePlacement.Utf8
