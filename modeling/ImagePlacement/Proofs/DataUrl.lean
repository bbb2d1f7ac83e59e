import ImagePlacement.DataUrl
import ImagePlacement.Proofs.Base64
import ImagePlacement.Proofs.Text.Blank

/-! Texts that give bytes: a data URL for an image, or base64 without one, with blanks around it.
The encoded part must be the standard encoding, so no other bytes are read from it, and no other
encoding gives the same bytes. -/
namespace ImagePlacement.DataUrl

variable {text word before rest url encoded : List Char} {content : Bytes} {limit : Nat}

/-! The first place of a word -/

/-- A word stands between `before` and `rest`, and nowhere earlier. -/
def IsFirst (word before rest : List Char) : Prop :=
  ∀ front back, before ++ word ++ rest = front ++ word ++ back → before.length ≤ front.length

theorem after?_eq_some_iff (hWord : word ≠ []) : after? word text = some rest ↔
    ∃ before, text = before ++ word ++ rest ∧ IsFirst word before rest := by
  induction text with
  | nil =>
      refine iff_of_false nofun ?_
      rintro ⟨before, hText, -⟩
      simp [hWord] at hText
  | cons c text ih =>
      rw [after?]
      by_cases hHere : word.isPrefixOf (c :: text) = true
      · rw [if_pos hHere]
        obtain ⟨back, hBack⟩ := List.isPrefixOf_iff_prefix.mp hHere
        constructor
        · intro h
          have hRest : back = rest := by
            rwa [← hBack, List.drop_left, Option.some.injEq] at h
          exact ⟨[], by rw [← hBack, hRest]; rfl, fun front back _ => Nat.zero_le _⟩
        · rintro ⟨before, hText, hFirst⟩
          have hZero : before.length ≤ 0 := hFirst [] back (by rw [← hText, ← hBack]; rfl)
          obtain rfl := List.eq_nil_of_length_eq_zero (Nat.le_zero.mp hZero)
          rw [hText, List.nil_append, List.drop_left]
      · rw [if_neg hHere, ih]
        rw [List.isPrefixOf_iff_prefix] at hHere
        constructor
        · rintro ⟨before, rfl, hFirst⟩
          refine ⟨c :: before, rfl, ?_⟩
          intro front back hBoth
          cases front with
          | nil => exact absurd ⟨back, hBoth.symm⟩ hHere
          | cons d front =>
              have hTail := (List.cons_eq_cons.mp hBoth).2
              exact Nat.succ_le_succ (hFirst front back hTail)
        · rintro ⟨before, hText, hFirst⟩
          cases before with
          | nil => exact absurd ⟨rest, hText.symm⟩ hHere
          | cons d before =>
              obtain ⟨rfl, rfl⟩ := List.cons_eq_cons.mp hText
              refine ⟨before, rfl, ?_⟩
              intro front back hBoth
              exact Nat.le_of_succ_le_succ (hFirst (c :: front) back (congrArg (c :: ·) hBoth))

/-- Where a text goes on with a character that its front does not contain, the front has ended. -/
theorem prefix_of_not_mem {front back : List Char} {c : Char} (hMissing : c ∉ front)
    (h : front ++ url = before ++ c :: back) : front <+: before := by
  rcases List.append_eq_append_iff.mp h with ⟨more, hBefore, -⟩ | ⟨more, hFront, hRest⟩
  · exact ⟨more, hBefore.symm⟩
  · cases more with
    | nil => exact ⟨[], by rw [hFront, List.append_nil, List.append_nil]⟩
    | cons d more =>
        obtain ⟨rfl, -⟩ := List.cons_eq_cons.mp hRest
        exact absurd (hFront ▸ List.mem_append_right before List.mem_cons_self) hMissing

theorem isFirst_marker (h : ';' ∉ before) (rest : List Char) : IsFirst marker before rest := by
  intro front back hBoth
  have hSplit : before ++ (marker ++ rest) = front ++ ';' :: (marker.tail ++ back) := by
    rw [← List.append_assoc, hBoth, List.append_assoc]
    rfl
  exact (prefix_of_not_mem h hSplit).length_le

/-- The first marker stands after the media type. -/
theorem after?_marker_iff : after? marker (mediaType ++ url) = some encoded ↔
    ∃ kind, url = kind ++ marker ++ encoded ∧ IsFirst marker (mediaType ++ kind) encoded := by
  rw [after?_eq_some_iff (by decide)]
  constructor
  · rintro ⟨before, hUrl, hFirst⟩
    -- The marker starts with a character that the media type lacks, so it cannot start inside it.
    have hSplit : mediaType ++ url = before ++ ';' :: (marker.tail ++ encoded) := by
      rw [hUrl, List.append_assoc]
      rfl
    have hMedia : mediaType <+: before := prefix_of_not_mem (by decide) hSplit
    obtain ⟨kind, rfl⟩ := hMedia
    refine ⟨kind, ?_, hFirst⟩
    rwa [List.append_assoc, List.append_assoc, List.append_cancel_left_eq, ← List.append_assoc]
      at hUrl
  · rintro ⟨kind, rfl, hFirst⟩
    exact ⟨mediaType ++ kind, by simp only [List.append_assoc], hFirst⟩

/-! The encoded part of a text -/

/-- What a text without blanks around it carries in base64. In a data URL for an image it follows
the first marker; a text that is no data URL is nothing else. -/
inductive Carries : List Char → List Char → Prop where
  | image (kind encoded : List Char)
      (first : IsFirst ";base64,".toList ("image/".toList ++ kind) encoded) :
      Carries ("data:image/".toList ++ kind ++ ";base64,".toList ++ encoded) encoded
  | plain (encoded : List Char) (h : ¬ "data:".toList <+: encoded) : Carries encoded encoded

theorem payload_eq_ok_iff : payload text = .ok encoded ↔ Carries text encoded := by
  have hOpening : "data:image/".toList = scheme ++ mediaType := by decide
  have hWhole (kind encoded : List Char) : "data:image/".toList ++ kind ++ ";base64,".toList ++
      encoded = scheme ++ (mediaType ++ (kind ++ marker ++ encoded)) := by
    rw [hOpening, List.append_assoc, List.append_assoc, List.append_assoc, List.append_assoc]
    rfl
  constructor
  · intro h
    unfold payload at h
    split at h
    case isTrue hScheme =>
        obtain ⟨url, rfl⟩ := List.isPrefixOf_iff_prefix.mp hScheme
        rw [List.drop_left] at h
        dsimp only at h
        split at h
        case isTrue hMedia =>
            obtain ⟨url, rfl⟩ := List.isPrefixOf_iff_prefix.mp hMedia
            split at h
            case h_1 found hFound =>
                obtain rfl := Except.ok.inj h
                obtain ⟨kind, rfl, hFirst⟩ := after?_marker_iff.mp hFound
                rw [← hWhole]
                exact .image kind found hFirst
            case h_2 => cases h
        case isFalse => cases h
    case isFalse hScheme =>
        obtain rfl := Except.ok.inj h
        exact .plain text fun hData => hScheme (List.isPrefixOf_iff_prefix.mpr hData)
  · intro carries
    cases carries with
    | image kind encoded first =>
        have hScheme : scheme.isPrefixOf (scheme ++ (mediaType ++ (kind ++ marker ++ encoded))) :=
          List.isPrefixOf_iff_prefix.mpr (List.prefix_append ..)
        have hMedia : mediaType.isPrefixOf (mediaType ++ (kind ++ marker ++ encoded)) :=
          List.isPrefixOf_iff_prefix.mpr (List.prefix_append ..)
        rw [hWhole, payload, if_pos hScheme, List.drop_left]
        dsimp only
        rw [if_pos hMedia, after?_marker_iff.mpr ⟨kind, rfl, first⟩]
    | plain encoded h =>
        exact if_neg fun hScheme => h (List.isPrefixOf_iff_prefix.mp hScheme)

/-- What a text carries once the blanks around it are gone. -/
def Holds (text encoded : String) : Prop :=
  ∃ body, Trims text.toList body ∧ Carries body encoded.toList

theorem holds_iff {text encoded : String} :
    Holds text encoded ↔ payload (trimBlanks text.toList) = .ok encoded.toList := by
  simp only [Holds, ← trimBlanks_eq_iff, exists_eq_left', payload_eq_ok_iff]

theorem not_blank_of_mem_text (content : Bytes) :
    ∀ c ∈ (Base64.text content).toList, isBlank c = false :=
  Base64.forall_mem_text (by decide) (by decide) content

/-- An encoding that stands alone is no data URL. -/
theorem carries_text (content : Bytes) :
    Carries (Base64.text content).toList (Base64.text content).toList := by
  have hColon : ∀ c ∈ (Base64.text content).toList, c ≠ ':' :=
    Base64.forall_mem_text (by decide) (by decide) content
  exact .plain _ fun hScheme => hColon ':' (hScheme.subset (by decide)) rfl

/-- Nothing but blanks in the encoded part could make a text start or end with a blank. -/
theorem Carries.not_blank {body : List Char} (carries : Carries body encoded)
    (h : ∀ c ∈ encoded, isBlank c = false) :
    (∀ c ∈ body.head?, isBlank c = false) ∧ ∀ c ∈ body.getLast?, isBlank c = false := by
  cases carries with
  | image kind encoded first =>
      constructor
      · intro c hc
        obtain rfl : 'd' = c := Option.some.inj hc
        decide
      · intro c hc
        rw [List.getLast?_append] at hc
        cases hLast : encoded.getLast? with
        | none =>
            rw [hLast, Option.none_or, List.getLast?_append] at hc
            obtain rfl : ',' = c := Option.some.inj hc
            decide
        | some d =>
            rw [hLast] at hc
            obtain rfl : d = c := Option.some.inj hc
            exact h d (List.mem_of_getLast? hLast)
  | plain encoded hScheme =>
      exact ⟨fun c hc => h c (List.mem_of_head? hc), fun c hc => h c (List.mem_of_getLast? hc)⟩

/-- Blanks around a text that carries an encoding do not count. -/
theorem holds_text {before after body : String} (hBefore : ∀ c ∈ before.toList, isBlank c = true)
    (hAfter : ∀ c ∈ after.toList, isBlank c = true)
    (carries : Carries body.toList (Base64.text content).toList) :
    Holds (before ++ body ++ after) (Base64.text content) := by
  obtain ⟨hHead, hLast⟩ := carries.not_blank (not_blank_of_mem_text content)
  refine ⟨body.toList, ⟨before.toList, after.toList, ?_, hBefore, hAfter, hHead, hLast⟩, carries⟩
  rw [String.toList_append, String.toList_append]

theorem Holds.unique {text encoded encoded' : String} (holds : Holds text encoded)
    (holds' : Holds text encoded') : encoded = encoded' := by
  rw [holds_iff] at holds holds'
  rw [holds, Except.ok.injEq] at holds'
  exact String.toList_inj.mp holds'

/-! Reading -/

theorem estimate_text (content : Bytes) :
    estimate (Base64.encode content).length = ((Base64.text content).length + 3) / 4 * 3 := by
  rw [estimate, Base64.length_encode, Base64.length_text]

/-- A standard encoding is read if the estimate for it is within the limit. -/
theorem read_of_holds {text : String} (holds : Holds text (Base64.text content)) :
    read limit text =
      let expected := ((Base64.text content).length + 3) / 4 * 3
      if limit < expected then .error (.tooLarge expected limit) else .ok content := by
  have hPayload := holds_iff.mp holds
  simp only [read, hPayload, bind, Except.bind, String.ofList_toList, Base64.ofText_text,
    estimate_text, Base64.decode_encode]
  rfl

/-- What is read is what a standard encoding within the limit stands for. -/
theorem read_eq_ok_iff {text : String} : read limit text = .ok content ↔
    Holds text (Base64.text content) ∧ ((Base64.text content).length + 3) / 4 * 3 ≤ limit := by
  constructor
  · intro h
    cases hPayload : payload (trimBlanks text.toList) with
    | error fault =>
        rw [read, hPayload] at h
        cases h
    | ok encoded =>
        simp only [read, hPayload, bind, Except.bind] at h
        split at h
        case isTrue => cases h
        case isFalse hWithin =>
            have hEncoded : Bytes.ofText (String.ofList encoded) = Base64.encode content := by
              rw [← Base64.decode_eq_ok_iff]
              cases hDecoded : Base64.decode (Bytes.ofText (String.ofList encoded)) with
              | ok bytes =>
                  rw [hDecoded] at h
                  exact congrArg Except.ok (Except.ok.inj h)
              | error fault =>
                  rw [hDecoded] at h
                  cases h
            rw [hEncoded, estimate_text] at hWithin
            refine ⟨?_, Nat.le_of_not_lt hWithin⟩
            rw [holds_iff, hPayload, ← Base64.ofText_eq_encode_iff.mp hEncoded,
              String.toList_ofList]
  · rintro ⟨holds, hWithin⟩
    rw [read_of_holds holds]
    exact if_neg (Nat.not_lt.mpr hWithin)

/-- A text gives bytes exactly when it holds their standard encoding, on its own or in a data URL
for an image, and the estimate for it is within the limit. So whatever bytes are encoded in either
form are read back, with any blanks around them, and texts with different encodings never give the
same bytes. -/
theorem read_iff_canonical :
    (∀ limit text content, read limit text = .ok content ↔
      Holds text (Base64.text content) ∧ ((Base64.text content).length + 3) / 4 * 3 ≤ limit) ∧
    (∀ limit content, ((Base64.text content).length + 3) / 4 * 3 ≤ limit → ∀ before after : String,
      (∀ c ∈ before.toList, isBlank c = true) → (∀ c ∈ after.toList, isBlank c = true) →
        read limit (before ++ Base64.text content ++ after) = .ok content ∧
        ∀ kind : String, IsFirst ";base64,".toList ("image/".toList ++ kind.toList)
          (Base64.text content).toList →
          read limit (before ++ ("data:image/" ++ kind ++ ";base64," ++ Base64.text content) ++
            after) = .ok content) ∧
    ∀ limit other first second content encoded encoded', read limit first = .ok content →
      read other second = .ok content → Holds first encoded → Holds second encoded' →
      encoded = encoded' := by
  refine ⟨fun limit text content => read_eq_ok_iff, ?_, ?_⟩
  · intro limit content hWithin before after hBefore hAfter
    refine ⟨read_eq_ok_iff.mpr ⟨holds_text hBefore hAfter (carries_text content), hWithin⟩, ?_⟩
    intro kind hFirst
    refine read_eq_ok_iff.mpr ⟨holds_text hBefore hAfter ?_, hWithin⟩
    simp only [String.toList_append]
    exact .image kind.toList _ hFirst
  · intro limit other first second content encoded encoded' hFirst hSecond holds holds'
    have hEncoded := holds.unique (read_eq_ok_iff.mp hFirst).1
    have hEncoded' := holds'.unique (read_eq_ok_iff.mp hSecond).1
    rw [hEncoded, hEncoded']

/-- Two bytes need one padded group, so the estimate for them is three. A blank and a data URL are
taken off, and the text of the group alone gives the same bytes. -/
theorem read_iff_canonical_padded :
    Holds "iVA=" (Base64.text [0x89, 0x50]) ∧ read 3 "iVA=" = .ok [0x89, 0x50] ∧
    read 3 " data:image/png;base64,iVA=\n" = .ok [0x89, 0x50] ∧
    read 2 "iVA=" ≠ .ok [0x89, 0x50] ∧
    ∀ limit text encoded, read limit text = .ok [0x89, 0x50] → Holds text encoded →
      encoded = "iVA=" := by
  have hText : Base64.text [0x89, 0x50] = "iVA=" := by decide
  obtain ⟨canonical, complete, unique⟩ := read_iff_canonical
  have blank : ∀ c ∈ " ".toList, isBlank c = true := List.forall_mem_singleton.mpr rfl
  have newline : ∀ c ∈ "\n".toList, isBlank c = true := List.forall_mem_singleton.mpr rfl
  have none : ∀ c ∈ "".toList, isBlank c = true := nofun
  have hWithin : ((Base64.text [0x89, 0x50]).length + 3) / 4 * 3 ≤ 3 := by decide
  have hAlone := (complete 3 [0x89, 0x50] hWithin "" "" none none).1
  have hUrl := (complete 3 [0x89, 0x50] hWithin " " "\n" blank newline).2 "png"
    (isFirst_marker (by decide) _)
  rw [hText] at hAlone hUrl ⊢
  have hHolds := ((canonical 3 "iVA=" [0x89, 0x50]).mp hAlone).1
  rw [hText] at hHolds
  refine ⟨hHolds, hAlone, hUrl, ?_, ?_⟩
  · intro h
    exact absurd ((canonical 2 "iVA=" [0x89, 0x50]).mp h).2 (by decide)
  · intro limit text encoded h holds
    exact unique limit 3 text "iVA=" [0x89, 0x50] encoded "iVA=" h hAlone holds hHolds

end ImagePlacement.DataUrl
