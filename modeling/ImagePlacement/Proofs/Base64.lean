import ImagePlacement.Base64
import ImagePlacement.Proofs.Text.Ascii

/-! The standard encoding is the only text that decodes to given bytes: every three bytes are the
group of their four digits, and a last group of fewer is padded and has no spare bits. -/
namespace ImagePlacement.Base64

variable {a b c d : UInt8} {n offset pads : Nat} {bs digits last whole content encoded : Bytes}

/-! Digits and their values -/

theorem value?_symbol : ∀ n < 64, value? (symbol n) = some n := by decide

theorem value?_eq_some (h : value? b = some n) : n < 64 ∧ symbol n = b := by
  simp only [value?, UInt8.le_iff_toNat_le] at h
  split at h
  case isTrue hUpper =>
      obtain rfl := Option.some.inj h
      have hLow : 65 ≤ b.toNat := hUpper.1
      have hHigh : b.toNat ≤ 90 := hUpper.2
      refine ⟨show b.toNat - 65 < 64 by omega, ?_⟩
      have hCode : 0x41 + (b.toNat - 65) = b.toNat := by omega
      rw [symbol, if_pos (by omega), hCode, UInt8.ofNat_toNat]
  case isFalse =>
  split at h
  case isTrue hLower =>
      obtain rfl := Option.some.inj h
      have hLow : 97 ≤ b.toNat := hLower.1
      have hHigh : b.toNat ≤ 122 := hLower.2
      refine ⟨show b.toNat - 97 + 26 < 64 by omega, ?_⟩
      have hCode : 0x61 + (b.toNat - 97 + 26 - 26) = b.toNat := by omega
      rw [symbol, if_neg (by omega), if_pos (by omega), hCode, UInt8.ofNat_toNat]
  case isFalse =>
  split at h
  case isTrue hDecimal =>
      obtain rfl := Option.some.inj h
      have hLow : 48 ≤ b.toNat := hDecimal.1
      have hHigh : b.toNat ≤ 57 := hDecimal.2
      refine ⟨show b.toNat - 48 + 52 < 64 by omega, ?_⟩
      have hCode : 0x30 + (b.toNat - 48 + 52 - 52) = b.toNat := by omega
      rw [symbol, if_neg (by omega), if_neg (by omega), if_pos (by omega), hCode,
        UInt8.ofNat_toNat]
  case isFalse =>
  split at h
  case isTrue hPlus =>
      obtain rfl := Option.some.inj h
      exact ⟨by decide, hPlus.symm⟩
  case isFalse =>
  split at h
  case isTrue hSlash =>
      obtain rfl := Option.some.inj h
      exact ⟨by decide, hSlash.symm⟩
  case isFalse => cases h

theorem isDigit_symbol (h : n < 64) : isDigit (symbol n) = true := by
  rw [isDigit, value?_symbol n h]
  rfl

theorem value_symbol (h : n < 64) : value (symbol n) = n := by
  rw [value, value?_symbol n h]
  rfl

theorem value_of_isDigit (h : isDigit b = true) : value b < 64 ∧ symbol (value b) = b := by
  obtain ⟨n, hValue⟩ := Option.isSome_iff_exists.mp h
  rw [value, hValue]
  exact value?_eq_some hValue

theorem symbol_eq (h : isDigit b = true) (hValue : n = value b) : symbol n = b :=
  hValue ▸ (value_of_isDigit h).2

theorem ofNat_eq (h : n = b.toNat) : UInt8.ofNat n = b := by rw [h, UInt8.ofNat_toNat]

/-! Whole groups -/

theorem group_symbol (a b c : UInt8) :
    group (symbol (a.toNat / 4)) (symbol (a.toNat % 4 * 16 + b.toNat / 16))
      (symbol (b.toNat % 16 * 4 + c.toNat / 64)) (symbol (c.toNat % 64)) = [a, b, c] := by
  have ha := a.toNat_lt
  have hb := b.toNat_lt
  have hc := c.toNat_lt
  rw [group, value_symbol (by omega), value_symbol (by omega), value_symbol (by omega),
    value_symbol (by omega), ofNat_eq (b := a) (by omega), ofNat_eq (b := b) (by omega),
    ofNat_eq (b := c) (by omega)]

theorem encode_group (ha : isDigit a = true) (hb : isDigit b = true) (hc : isDigit c = true)
    (hd : isDigit d = true) (rest : Bytes) :
    encode (group a b c d ++ rest) = a :: b :: c :: d :: encode rest := by
  obtain ⟨hA, -⟩ := value_of_isDigit ha
  obtain ⟨hB, -⟩ := value_of_isDigit hb
  obtain ⟨hC, -⟩ := value_of_isDigit hc
  obtain ⟨hD, -⟩ := value_of_isDigit hd
  simp only [group, List.cons_append, List.nil_append, encode, UInt8.toNat_ofNat']
  rw [symbol_eq ha (by omega), symbol_eq hb (by omega), symbol_eq hc (by omega),
    symbol_eq hd (by omega)]

theorem length_encode (content : Bytes) :
    (encode content).length = (content.length + 2) / 3 * 4 := by
  fun_induction encode content with
  | case1 => rfl
  | case2 a => simp
  | case3 a b => simp
  | case4 a b c rest ih =>
      simp only [List.length_cons, ih]
      omega

theorem encode_append (h : whole.length % 3 = 0) (last : Bytes) :
    encode (whole ++ last) = encode whole ++ encode last := by
  fun_induction encode whole with
  | case1 => rfl
  | case2 a => simp at h
  | case3 a b => simp at h
  | case4 a b c rest ih =>
      simp only [List.length_cons] at h
      simp only [List.cons_append, encode, ih (by omega)]

theorem isDigit_of_mem_encode (h : whole.length % 3 = 0) :
    ∀ b ∈ encode whole, isDigit b = true := by
  fun_induction encode whole with
  | case1 => nofun
  | case2 a => simp at h
  | case3 a b => simp at h
  | case4 a b c rest ih =>
      have ha := a.toNat_lt
      have hb := b.toNat_lt
      have hc := c.toNat_lt
      simp only [List.length_cons] at h
      simp only [List.forall_mem_cons]
      exact ⟨isDigit_symbol (by omega), isDigit_symbol (by omega), isDigit_symbol (by omega),
        isDigit_symbol (by omega), ih (by omega)⟩

theorem decodeGroups_eq (done : Bytes) : ∀ encoded : Bytes,
    decodeGroups done encoded = done.reverse ++ decodeGroups [] encoded
  | [] | [_] | [_, _] | [_, _, _] => (List.append_nil _).symm
  | a :: b :: c :: d :: rest => by
      rw [decodeGroups, decodeGroups, decodeGroups_eq _ rest, decodeGroups_eq (_ ++ []) rest]
      simp only [List.reverse_append, List.reverse_reverse, List.reverse_nil, List.append_assoc,
        List.nil_append]

theorem decodeGroups_cons (a b c d : UInt8) (rest : Bytes) :
    decodeGroups [] (a :: b :: c :: d :: rest) = group a b c d ++ decodeGroups [] rest := by
  rw [decodeGroups, decodeGroups_eq, List.append_nil, List.reverse_reverse]

theorem decodeGroups_encode (h : whole.length % 3 = 0) :
    decodeGroups [] (encode whole) = whole := by
  fun_induction encode whole with
  | case1 => rfl
  | case2 a => simp at h
  | case3 a b => simp at h
  | case4 a b c rest ih =>
      simp only [List.length_cons] at h
      rw [decodeGroups_cons, group_symbol, ih (by omega)]
      rfl

theorem encode_decodeGroups : ∀ encoded : Bytes, (∀ b ∈ encoded, isDigit b = true) →
    encoded.length % 4 = 0 → ∀ rest,
    encode (decodeGroups [] encoded ++ rest) = encoded ++ encode rest
  | [], _, _, rest => rfl
  | [_], _, hLength, _ | [_, _], _, hLength, _ | [_, _, _], _, hLength, _ => by simp at hLength
  | a :: b :: c :: d :: encoded, hDigits, hLength, rest => by
      simp only [List.forall_mem_cons] at hDigits
      obtain ⟨ha, hb, hc, hd, hText⟩ := hDigits
      simp only [List.length_cons] at hLength
      rw [decodeGroups_cons, List.append_assoc, encode_group ha hb hc hd,
        encode_decodeGroups encoded hText (by omega)]
      rfl

/-! The last group -/

theorem takeWhile_isDigit (hDigits : ∀ b ∈ digits, isDigit b = true) (pads : Nat) :
    (digits ++ List.replicate pads padding).takeWhile isDigit = digits := by
  rw [List.takeWhile_append_of_pos hDigits]
  cases pads <;> simp [List.replicate_succ, show isDigit padding = false by decide]

theorem dropWhile_isDigit (hDigits : ∀ b ∈ digits, isDigit b = true) (pads : Nat) :
    (digits ++ List.replicate pads padding).dropWhile isDigit = List.replicate pads padding := by
  rw [List.dropWhile_append_of_pos hDigits]
  cases pads <;> simp [List.replicate_succ, show isDigit padding = false by decide]

theorem splitLast_eq_ok_iff :
    splitLast offset last = .ok (digits, pads) ↔
      last = digits ++ List.replicate pads padding ∧ (∀ b ∈ digits, isDigit b = true) ∧
        (pads = 0 ∨ 2 ≤ digits.length) := by
  constructor
  · intro h
    have hLast := List.takeWhile_append_dropWhile (p := isDigit) (l := last)
    have hDigits : ∀ b ∈ last.takeWhile isDigit, isDigit b = true :=
      List.all_eq_true.mp List.all_takeWhile
    simp only [splitLast] at h
    split at h
    case h_1 hDrop =>
        obtain ⟨rfl, rfl⟩ := Prod.mk.inj (Except.ok.inj h)
        rw [hDrop] at hLast
        exact ⟨hLast.symm, hDigits, Or.inl rfl⟩
    case h_2 b more hDrop =>
        split at h
        case isTrue => cases h
        case isFalse hPads =>
            obtain ⟨rfl, rfl⟩ := Prod.mk.inj (Except.ok.inj h)
            rw [not_or, not_or, not_not, Nat.not_lt, Bool.not_eq_true, List.any_eq_false] at hPads
            obtain ⟨rfl, hTwo, hMore⟩ := hPads
            have hReplicate : more = List.replicate more.length padding :=
              List.eq_replicate_of_mem fun b hb => by simpa using hMore b hb
            rw [hDrop, hReplicate] at hLast
            exact ⟨hLast.symm, hDigits, Or.inr hTwo⟩
  · rintro ⟨rfl, hDigits, hPads⟩
    simp only [splitLast, takeWhile_isDigit hDigits, dropWhile_isDigit hDigits]
    cases pads with
    | zero => rfl
    | succ pads =>
        have hTwo : 2 ≤ digits.length := hPads.resolve_left (Nat.succ_ne_zero _)
        have hMore : (List.replicate pads padding).any (· ≠ padding) = false := by simp
        simp only [List.replicate_succ]
        rw [if_neg, List.length_replicate]
        rw [not_or, not_or, not_not, Nat.not_lt, Bool.not_eq_true]
        exact ⟨rfl, hTwo, hMore⟩

/-- The last group of a text stands for these bytes, one to three of them. -/
def Ends (offset : Nat) (last bs : Bytes) : Prop :=
  ∃ digits pads, splitLast offset last = .ok (digits, pads) ∧ 2 ≤ digits.length ∧
    digits.length + pads = 4 ∧ decodeLast offset digits = .ok bs

theorem eq_encode_of_ends (h : Ends offset last bs) : last = encode bs := by
  obtain ⟨digits, pads, hSplit, hTwo, hFour, hLast⟩ := h
  obtain ⟨rfl, hDigits, -⟩ := splitLast_eq_ok_iff.mp hSplit
  match digits with
  | [] | [_] => simp at hTwo
  | [a, b] =>
      simp only [List.forall_mem_cons] at hDigits
      obtain ⟨ha, hb, -⟩ := hDigits
      obtain ⟨hA, -⟩ := value_of_isDigit ha
      obtain ⟨hB, -⟩ := value_of_isDigit hb
      obtain rfl : pads = 2 := Nat.add_left_cancel hFour
      simp only [decodeLast] at hLast
      split at hLast
      case isTrue hSpare =>
          obtain rfl := Except.ok.inj hLast
          simp only [group, List.take_succ_cons, List.take_zero, encode, UInt8.toNat_ofNat']
          rw [symbol_eq ha (by omega), symbol_eq hb (by omega)]
          rfl
      case isFalse => cases hLast
  | [a, b, c] =>
      simp only [List.forall_mem_cons] at hDigits
      obtain ⟨ha, hb, hc, -⟩ := hDigits
      obtain ⟨hA, -⟩ := value_of_isDigit ha
      obtain ⟨hB, -⟩ := value_of_isDigit hb
      obtain ⟨hC, -⟩ := value_of_isDigit hc
      obtain rfl : pads = 1 := Nat.add_left_cancel hFour
      simp only [decodeLast] at hLast
      split at hLast
      case isTrue hSpare =>
          obtain rfl := Except.ok.inj hLast
          simp only [group, List.take_succ_cons, List.take_zero, encode, UInt8.toNat_ofNat']
          rw [symbol_eq ha (by omega), symbol_eq hb (by omega), symbol_eq hc (by omega)]
          rfl
      case isFalse => cases hLast
  | [a, b, c, d] =>
      simp only [List.forall_mem_cons] at hDigits
      obtain ⟨ha, hb, hc, hd, -⟩ := hDigits
      obtain rfl : pads = 0 := Nat.add_left_cancel hFour
      obtain rfl := Except.ok.inj hLast
      exact (encode_group ha hb hc hd []).symm
  | _ :: _ :: _ :: _ :: _ :: _ =>
      simp only [List.length_cons] at hFour
      omega

theorem ends_encode (hOne : bs ≠ []) (hThree : bs.length ≤ 3) : Ends offset (encode bs) bs := by
  match bs with
  | [] => exact absurd rfl hOne
  | [a] =>
      have ha := a.toNat_lt
      refine ⟨[symbol (a.toNat / 4), symbol (a.toNat % 4 * 16)], 2, ?_, by simp, by simp, ?_⟩
      · refine splitLast_eq_ok_iff.mpr ⟨rfl, ?_, Or.inr (by simp)⟩
        simp only [List.forall_mem_cons]
        exact ⟨isDigit_symbol (by omega), isDigit_symbol (by omega), nofun⟩
      · rw [decodeLast, value_symbol (by omega), if_pos (by omega), group, value_symbol (by omega),
          value_symbol (by omega), ofNat_eq (b := a) (by omega)]
        rfl
  | [a, b] =>
      have ha := a.toNat_lt
      have hb := b.toNat_lt
      refine ⟨[symbol (a.toNat / 4), symbol (a.toNat % 4 * 16 + b.toNat / 16),
        symbol (b.toNat % 16 * 4)], 1, ?_, by simp, by simp, ?_⟩
      · refine splitLast_eq_ok_iff.mpr ⟨rfl, ?_, Or.inr (by simp)⟩
        simp only [List.forall_mem_cons]
        exact ⟨isDigit_symbol (by omega), isDigit_symbol (by omega), isDigit_symbol (by omega),
          nofun⟩
      · rw [decodeLast, value_symbol (by omega), if_pos (by omega), group, value_symbol (by omega),
          value_symbol (by omega), value_symbol (by omega), ofNat_eq (b := a) (by omega),
          ofNat_eq (b := b) (by omega)]
        rfl
  | [a, b, c] =>
      have ha := a.toNat_lt
      have hb := b.toNat_lt
      have hc := c.toNat_lt
      refine ⟨encode [a, b, c], 0, ?_, by simp [encode], by simp [encode], ?_⟩
      · exact splitLast_eq_ok_iff.mpr
          ⟨(List.append_nil _).symm, isDigit_of_mem_encode (by simp), Or.inl rfl⟩
      · exact congrArg Except.ok (group_symbol a b c)
  | _ :: _ :: _ :: _ :: _ =>
      simp only [List.length_cons] at hThree
      omega

/-! Whole texts -/

theorem firstStray?_eq_none_iff (offset : Nat) (encoded : Bytes) :
    firstStray? offset encoded = none ↔ ∀ b ∈ encoded, isDigit b = true := by
  fun_induction firstStray? offset encoded with
  | case1 => simp
  | case2 offset b rest hDigit ih => simp [ih, hDigit]
  | case3 offset b rest hDigit => simp [hDigit]

/-- A text that is not empty decodes by its whole groups and its last one. -/
theorem decode_eq_ok_iff_ends (h : encoded ≠ []) {start : Nat}
    (hStart : start = (encoded.length - 1) / 4 * 4) :
    decode encoded = .ok content ↔ loneStray? encoded = none ∧
      (∀ b ∈ encoded.take start, isDigit b = true) ∧ ∃ bs, Ends start (encoded.drop start) bs ∧
        content = decodeGroups [] (encoded.take start) ++ bs := by
  rw [← firstStray?_eq_none_iff 0]
  simp only [decode, Ends, ← hStart]
  cases loneStray? encoded with
  | some stray => simp
  | none =>
  cases firstStray? 0 (encoded.take start) with
  | some stray => simp
  | none =>
  cases splitLast start (encoded.drop start) with
  | error fault => simp [bind, Except.bind]
  | ok parts =>
      obtain ⟨digits, pads⟩ := parts
      -- The tests that are left are what `Ends` asks for, in the same order.
      simp only [bind, Except.bind, h, ne_eq, not_false_eq_true, true_and, Except.ok.injEq,
        Prod.mk.injEq]
      by_cases hTwo : digits.length < 2
      · rw [if_pos hTwo]
        refine iff_of_false nofun ?_
        rintro ⟨bs, ⟨_, _, ⟨rfl, rfl⟩, hLong, -⟩, -⟩
        omega
      · rw [if_neg hTwo]
        by_cases hFour : digits.length + pads = 4
        · rw [if_neg (not_not.mpr hFour)]
          cases hLast : decodeLast start digits with
          | error fault => simp [hLast]
          | ok bs =>
              simp only [Except.ok.injEq]
              constructor
              · rintro rfl
                exact ⟨bs, ⟨digits, pads, ⟨rfl, rfl⟩, Nat.le_of_not_lt hTwo, hFour, hLast⟩, rfl⟩
              · rintro ⟨_, ⟨_, _, ⟨rfl, rfl⟩, -, -, hSame⟩, rfl⟩
                rw [hLast, Except.ok.injEq] at hSame
                rw [hSame]
        · rw [if_pos hFour]
          refine iff_of_false nofun ?_
          rintro ⟨bs, ⟨_, _, ⟨rfl, rfl⟩, -, hSum, -⟩, -⟩
          exact hFour hSum

/-- Bytes are whole groups of three and a last group of one to three. -/
theorem exists_groups (h : content ≠ []) : ∃ whole last, content = whole ++ last ∧
    whole.length % 3 = 0 ∧ last ≠ [] ∧ last.length ≤ 3 := by
  have hPos : 0 < content.length := List.length_pos_iff.mpr h
  have hLast : (content.drop ((content.length - 1) / 3 * 3)).length =
      content.length - (content.length - 1) / 3 * 3 := List.length_drop
  refine ⟨_, _, (List.take_append_drop ((content.length - 1) / 3 * 3) content).symm, ?_, ?_, ?_⟩
  · rw [List.length_take]
    omega
  · rw [← List.length_pos_iff]
    omega
  · omega

theorem decode_encode (content : Bytes) : decode (encode content) = .ok content := by
  by_cases hEmpty : content = []
  · rw [hEmpty]
    rfl
  obtain ⟨whole, last, rfl, hWhole, hLast, hThree⟩ := exists_groups hEmpty
  have hOne : 0 < last.length := List.length_pos_iff.mpr hLast
  have hFront : (encode whole).length = (whole.length + 2) / 3 * 4 := length_encode whole
  have hFour : (encode last).length = 4 := by
    rw [length_encode]
    omega
  -- Every three bytes have become four digits, so the text is cut where the bytes are.
  rw [encode_append hWhole]
  have hLength : (encode whole ++ encode last).length = (encode whole).length + 4 := by
    rw [List.length_append, hFour]
  have hSome : encode whole ++ encode last ≠ [] := by
    rw [← List.length_pos_iff]
    omega
  have hStart : (encode whole).length = ((encode whole ++ encode last).length - 1) / 4 * 4 := by
    omega
  refine (decode_eq_ok_iff_ends hSome hStart).mpr ⟨?_, ?_, last, ?_, ?_⟩
  · exact if_neg (by omega)
  · rw [List.take_left]
    exact isDigit_of_mem_encode hWhole
  · rw [List.drop_left]
    exact ends_encode hLast hThree
  · rw [List.take_left, decodeGroups_encode hWhole]

/-- Decoding takes the standard encodings, each to what it encodes, and nothing else. -/
theorem decode_eq_ok_iff : decode encoded = .ok content ↔ encoded = encode content := by
  constructor
  · intro h
    by_cases hEmpty : encoded = []
    · subst hEmpty
      obtain rfl := Except.ok.inj h
      rfl
    obtain ⟨-, hDigits, bs, ends, rfl⟩ := (decode_eq_ok_iff_ends hEmpty rfl).mp h
    have hWhole : (encoded.take ((encoded.length - 1) / 4 * 4)).length % 4 = 0 := by
      have hPos : 0 < encoded.length := List.length_pos_iff.mpr hEmpty
      rw [List.length_take]
      omega
    rw [encode_decodeGroups _ hDigits hWhole, ← eq_encode_of_ends ends, List.take_append_drop]
  · rintro rfl
    exact decode_encode content

/-! The encoding as text -/

/-- What is true of every digit and of the padding is true of all bytes of an encoding. -/
theorem forall_mem_encode {P : UInt8 → Prop} (hSymbol : ∀ n < 64, P (symbol n))
    (hPadding : P padding) (content : Bytes) : ∀ b ∈ encode content, P b := by
  fun_induction encode content with
  | case1 => nofun
  | case2 a =>
      have ha := a.toNat_lt
      simp only [List.forall_mem_cons]
      exact ⟨hSymbol _ (by omega), hSymbol _ (by omega), hPadding, hPadding, nofun⟩
  | case3 a b =>
      have ha := a.toNat_lt
      have hb := b.toNat_lt
      simp only [List.forall_mem_cons]
      exact ⟨hSymbol _ (by omega), hSymbol _ (by omega), hSymbol _ (by omega), hPadding, nofun⟩
  | case4 a b c rest ih =>
      have ha := a.toNat_lt
      have hb := b.toNat_lt
      have hc := c.toNat_lt
      simp only [List.forall_mem_cons]
      exact ⟨hSymbol _ (by omega), hSymbol _ (by omega), hSymbol _ (by omega),
        hSymbol _ (by omega), ih⟩

/-- The standard encoding as text. -/
def text (content : Bytes) : String := Bytes.toText (encode content)

theorem toList_text (content : Bytes) :
    (text content).toList = (encode content).map fun b => Char.ofNat b.toNat :=
  String.toList_ofList

theorem ofText_text (content : Bytes) : Bytes.ofText (text content) = encode content :=
  Bytes.ofText_toText (forall_mem_encode (by decide) (by decide) content)

theorem ofText_eq_encode_iff {written : String} :
    Bytes.ofText written = encode content ↔ written = text content := by
  constructor
  · intro h
    exact Bytes.ofText_injective (h.trans (ofText_text content).symm)
  · rintro rfl
    exact ofText_text content

theorem length_text (content : Bytes) : (text content).length = (content.length + 2) / 3 * 4 := by
  rw [← String.length_toList, toList_text, List.length_map, length_encode]

theorem forall_mem_text {P : Char → Prop} (hSymbol : ∀ n < 64, P (Char.ofNat (symbol n).toNat))
    (hPadding : P '=') (content : Bytes) : ∀ c ∈ (text content).toList, P c := by
  rw [toList_text]
  exact List.forall_mem_map.mpr (forall_mem_encode hSymbol hPadding content)

end ImagePlacement.Base64
