import ImagePlacement.Proofs.DataUrl
import ImagePlacement.Source.Content

/-! The estimate that guards the decoding of a data URL. It is never below the number of bytes that
come out and at most two above it, so what gets past it is within the limit, and what is beyond the
limit is refused before it is decoded. -/
namespace ImagePlacement.DataUrl

variable {limit : Nat} {text encoded : String} {content : Bytes} {settings : Settings}

/-- An encoding of whole groups is estimated at three bytes for every group. -/
theorem estimate_encode (content : Bytes) :
    estimate (Base64.encode content).length = (content.length + 2) / 3 * 3 := by
  rw [estimate, Base64.length_encode]
  omega

theorem length_le_estimate (content : Bytes) :
    content.length ≤ estimate (Base64.encode content).length := by
  rw [estimate_encode]
  omega

theorem estimate_le_length_add (content : Bytes) :
    estimate (Base64.encode content).length ≤ content.length + 2 := by
  rw [estimate_encode]
  omega

/-- The length of the encoded part decides whether it is decoded at all. -/
theorem read_eq (holds : Holds text encoded) : read limit text =
    if limit < estimate (Bytes.ofText encoded).length then
      .error (.tooLarge (estimate (Bytes.ofText encoded).length) limit)
    else (Base64.decode (Bytes.ofText encoded)).mapError .encoding := by
  rw [read, holds_iff.mp holds]
  simp only [bind, Except.bind, String.ofList_toList]

theorem read_eq_tooLarge_iff (holds : Holds text encoded) {expected bound : Nat} :
    read limit text = .error (.tooLarge expected bound) ↔
      limit < estimate (Bytes.ofText encoded).length ∧
        expected = estimate (Bytes.ofText encoded).length ∧ bound = limit := by
  rw [read_eq holds]
  split
  · rename_i hOver
    simp [hOver, eq_comm]
  · rename_i hWithin
    refine iff_of_false ?_ fun h => hWithin h.1
    -- a fault of the decoding is told as such
    cases Base64.decode (Bytes.ofText encoded) <;> nofun

theorem exists_of_read (h : read limit text = .ok content) : Holds text (Base64.text content) ∧
    estimate (Base64.encode content).length ≤ limit := by
  obtain ⟨holds, hWithin⟩ := read_eq_ok_iff.mp h
  exact ⟨holds, estimate_text content ▸ hWithin⟩

/-- What a data URL gives is within the limit on files. -/
theorem read_of_source {identity : String} {s : Source}
    (h : (source identity text settings).1 = .ok s) (view : FileView) :
    ∃ content, read settings.maxFileSize.toNat text = .ok content ∧
      s.read view settings = .ok content := by
  rw [source] at h
  split at h
  · rename_i content hRead
    obtain rfl := Except.ok.inj h
    have hWithin := Nat.le_trans (length_le_estimate content) (exists_of_read hRead).2
    exact ⟨content, hRead, Settings.checkSize_of_le hWithin⟩
  · cases h

/-- The estimate for an encoded part is at least the number of bytes read from it, at most the
limit, and at most two too high. So a source made of a data URL is read under the same settings. The
encoding of more bytes than the limit is too large, and whether a text is too large hangs on the
length of its encoded part alone. -/
theorem estimate_guards :
    (∀ limit text content, read limit text = .ok content →
      (∃ encoded, Holds text encoded) ∧ ∀ encoded, Holds text encoded →
        content.length ≤ estimate (Bytes.ofText encoded).length ∧
        estimate (Bytes.ofText encoded).length ≤ limit ∧
        estimate (Bytes.ofText encoded).length - content.length ≤ 2) ∧
    (∀ identity text settings s, (source identity text settings).1 = .ok s →
      ∀ view, ∃ content, s.read view settings = .ok content) ∧
    (∀ limit text content, Holds text (Base64.text content) → limit < content.length →
      read limit text =
        .error (.tooLarge (estimate (Base64.encode content).length) limit)) ∧
    ∀ limit text encoded, Holds text encoded → ∀ expected bound,
      read limit text = .error (.tooLarge expected bound) ↔
        limit < estimate (Bytes.ofText encoded).length ∧
          expected = estimate (Bytes.ofText encoded).length ∧ bound = limit := by
  refine ⟨?_, ?_, ?_, fun limit text encoded holds expected bound => read_eq_tooLarge_iff holds⟩
  · intro limit text content h
    obtain ⟨holds, hWithin⟩ := exists_of_read h
    refine ⟨⟨_, holds⟩, fun encoded holds' => ?_⟩
    rw [holds'.unique holds, Base64.ofText_text]
    exact ⟨length_le_estimate content, hWithin,
      Nat.sub_le_iff_le_add'.mpr (estimate_le_length_add content)⟩
  · intro identity text settings s h view
    obtain ⟨content, -, hRead⟩ := read_of_source h view
    exact ⟨content, hRead⟩
  · intro limit text content holds hLong
    have hOver := Nat.lt_of_lt_of_le hLong (length_le_estimate content)
    rw [read_eq_tooLarge_iff holds, Base64.ofText_text]
    exact ⟨hOver, rfl, rfl⟩

/-- Two bytes in a padded group are estimated at three. A limit of three lets them pass, also as a
source; a limit of one is too small. -/
theorem estimate_guards_padded :
    read 3 "iVA=" = .ok [0x89, 0x50] ∧ estimate (Bytes.ofText "iVA=").length = 3 ∧
    ([0x89, 0x50] : Bytes).length ≤ estimate (Bytes.ofText "iVA=").length ∧
    estimate (Bytes.ofText "iVA=").length ≤ 3 ∧
    estimate (Bytes.ofText "iVA=").length - ([0x89, 0x50] : Bytes).length ≤ 2 ∧
    (∃ content, (Source.embedded "dot.png" [0x89, 0x50]).read (fun _ => .absent .missing)
      { Settings.standard with maxFileSize := 3 } = .ok content) ∧
    read 1 "iVA=" = .error (.tooLarge 3 1) := by
  have hText : Base64.text [0x89, 0x50] = "iVA=" := by decide
  have holds : Holds "iVA=" "iVA=" := holds_iff.mpr (by decide)
  have hRead : read 3 "iVA=" = .ok [0x89, 0x50] :=
    read_eq_ok_iff.mpr ⟨hText.symm ▸ holds, by decide⟩
  have hSource : (source "dot.png" "iVA=" { Settings.standard with maxFileSize := 3 }).1 =
      .ok (Source.embedded "dot.png" [0x89, 0x50]) := by
    rw [source, show UInt64.toNat 3 = 3 from rfl, hRead]
  have hEstimate : estimate (Bytes.ofText "iVA=").length = 3 := by
    rw [← hText, Base64.ofText_text]
    rfl
  obtain ⟨bounded, admitted, refused, -⟩ := estimate_guards
  obtain ⟨hLeast, hWithin, hGap⟩ := (bounded 3 "iVA=" [0x89, 0x50] hRead).2 "iVA=" holds
  exact ⟨hRead, hEstimate, hLeast, hWithin, hGap, admitted _ _ _ _ hSource _,
    refused 1 "iVA=" [0x89, 0x50] (hText.symm ▸ holds) (by decide)⟩

end ImagePlacement.DataUrl
