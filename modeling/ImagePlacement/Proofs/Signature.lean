import ImagePlacement.Signature
import ImagePlacement.Proofs.Svg.Comment
import ImagePlacement.Proofs.Text.Utf8

/-! Recognising the format of a content -/
namespace ImagePlacement.Signature

/-- Bytes that are claimed as an image encoding, and not as a book. -/
def Claimed (bs : Bytes) : Prop :=
  ¬ bookMark <+: bs.drop 60 ∧
    ([0xFF, 0xD8, 0xFF] <+: bs ∨ [0x89, 0x50, 0x4E, 0x47] <+: bs ∨
      [0x57, 0x45, 0x42, 0x50] <+: bs.drop 8)

instance (bs : Bytes) : Decidable (Claimed bs) :=
  inferInstanceAs (Decidable (¬ bookMark <+: bs.drop 60 ∧
    ([0xFF, 0xD8, 0xFF] <+: bs ∨ [0x89, 0x50, 0x4E, 0x47] <+: bs ∨
      [0x57, 0x45, 0x42, 0x50] <+: bs.drop 8)))

theorem magic?_eq_none_iff (bs : Bytes) : magic? bs = none ↔ ¬ Claimed bs := by
  simp only [magic?, Claimed, List.isPrefixOf_iff_prefix]
  split
  case isTrue hBook => exact iff_of_true rfl fun h => h.1 hBook
  case isFalse hBook =>
    split
    case isTrue hJpeg => exact iff_of_false nofun fun h => h ⟨hBook, Or.inl hJpeg⟩
    case isFalse hJpeg =>
      split
      case isTrue hPng => exact iff_of_false nofun fun h => h ⟨hBook, Or.inr (Or.inl hPng)⟩
      case isFalse hPng => simp [hBook, hJpeg, hPng]

theorem magic?_ne_svg (bs : Bytes) : magic? bs ≠ some .svg := by
  unfold magic?
  (repeat' split) <;> nofun

/-- A content is SVG exactly when its first bytes are claimed by no image encoding and, read as
text, open an SVG document. -/
theorem sniff_svg_iff_opening (content : Bytes) : sniff content = .svg ↔
    ¬ Claimed (content.take window) ∧ ∃ opening : Svg.Prologue.Opening,
      Utf8.decodeLossy (content.take window) = opening.text := by
  rw [← magic?_eq_none_iff, ← Svg.Prologue.accepts_iff, sniff]
  split
  case h_1 format hMagic =>
    refine iff_of_false ?_ fun h => ?_
    · rintro rfl
      exact magic?_ne_svg _ hMagic
    · rw [h.1] at hMagic
      exact absurd hMagic nofun
  case h_2 hMagic =>
    rw [hMagic]
    split
    case isTrue hAccepts => simp [hAccepts]
    case isFalse hAccepts => simp [hAccepts]

/-! A comment at the front -/

theorem take_window {content : Bytes} (hFits : content.length ≤ window) :
    content.take window = content := List.take_of_length_le hFits

/-- A short text that no image encoding claims is judged by its characters. -/
theorem sniff_ofText {text : String} (hFits : (Bytes.ofText text).length ≤ window)
    (hUnclaimed : ¬ Claimed (Bytes.ofText text)) : sniff (Bytes.ofText text) =
      if Svg.Prologue.accepts text.toList then .svg else .unknown := by
  simp only [sniff, take_window hFits, (magic?_eq_none_iff _).mpr hUnclaimed,
    Utf8.decodeLossy_ofText]

theorem length_ofText_append (first second : String) :
    (Bytes.ofText (first ++ second)).length =
      (Bytes.ofText first).length + (Bytes.ofText second).length := by
  simp only [Bytes.ofText_eq, String.toList_append, List.flatMap_append, List.length_append]

/-- Without its leading comment a text is judged the same, unless a document opens behind a later
terminator: then the text with the comment is SVG, whatever it is without. -/
theorem sniff_leading_comment (body rest : String)
    (hBody : ¬ "-->".toList <:+: body.toList) (hMark : rest.toList.head? ≠ some '\uFEFF')
    (hFits : (Bytes.ofText ("<!--" ++ body ++ "-->" ++ rest)).length ≤ window)
    (hWhole : ¬ Claimed (Bytes.ofText ("<!--" ++ body ++ "-->" ++ rest)))
    (hRest : ¬ Claimed (Bytes.ofText rest)) :
    (Svg.Prologue.Resumes rest.toList →
      sniff (Bytes.ofText ("<!--" ++ body ++ "-->" ++ rest)) = .svg) ∧
    (¬ Svg.Prologue.Resumes rest.toList →
      sniff (Bytes.ofText ("<!--" ++ body ++ "-->" ++ rest)) = sniff (Bytes.ofText rest)) := by
  have hShort : (Bytes.ofText rest).length ≤ window := by
    rw [length_ofText_append] at hFits
    omega
  have hText : ("<!--" ++ body ++ "-->" ++ rest).toList =
      "<!--".toList ++ (body.toList ++ ("-->".toList ++ rest.toList)) := by
    simp only [String.toList_append, List.append_assoc]
  have hAccepts : Svg.Prologue.accepts ("<!--" ++ body ++ "-->" ++ rest).toList = true ↔
      Svg.Prologue.accepts rest.toList = true ∨ Svg.Prologue.Resumes rest.toList := by
    rw [hText, Svg.Prologue.accepts_eq_true_iff_starts (by simp),
      Svg.Prologue.accepts_eq_true_iff_starts hMark, Svg.Prologue.starts_comment_iff hBody]
  rw [sniff_ofText hFits hWhole, sniff_ofText hShort hRest]
  constructor
  · intro hResumes
    exact if_pos (hAccepts.mpr (Or.inr hResumes))
  · intro hResumes
    have hSame := hAccepts.trans (or_iff_left hResumes)
    simp only [hSame]

/-- The comment passes over the text behind its first terminator. -/
theorem sniff_leading_comment_resumed :
    sniff (Bytes.ofText ("<!--" ++ " a " ++ "-->" ++ " b --><svg>")) = .svg := by
  have hResumes : Svg.Prologue.Resumes " b --><svg>".toList :=
    ⟨" b ".toList, ⟨false, [], [], '>', [], by simp, by simp, Or.inr (Or.inl rfl)⟩, rfl, rfl⟩
  refine (sniff_leading_comment " a " " b --><svg>" (by decide) (by decide) ?_ ?_ ?_).1 hResumes
  all_goals
    simp only [Bytes.ofText_eq]
    decide

/-- A text with a leading comment is not always judged as the text without it. -/
theorem not_sniff_eq_of_leading_comment : ¬ ∀ body rest : String,
    ¬ "-->".toList <:+: body.toList → rest.toList.head? ≠ some '\uFEFF' →
    (Bytes.ofText ("<!--" ++ body ++ "-->" ++ rest)).length ≤ window →
    ¬ Claimed (Bytes.ofText ("<!--" ++ body ++ "-->" ++ rest)) → ¬ Claimed (Bytes.ofText rest) →
    sniff (Bytes.ofText ("<!--" ++ body ++ "-->" ++ rest)) = sniff (Bytes.ofText rest) := by
  intro h
  have hFits : (Bytes.ofText ("<!--" ++ " a " ++ "-->" ++ " b --><svg>")).length ≤ window := by
    rw [Bytes.ofText_eq]
    decide
  have hWhole : ¬ Claimed (Bytes.ofText ("<!--" ++ " a " ++ "-->" ++ " b --><svg>")) := by
    rw [Bytes.ofText_eq]
    decide
  have hShort : (Bytes.ofText " b --><svg>").length ≤ window := by
    rw [Bytes.ofText_eq]
    decide
  have hRest : ¬ Claimed (Bytes.ofText " b --><svg>") := by
    rw [Bytes.ofText_eq]
    decide
  have hSame := h " a " " b --><svg>" (by decide) (by decide) hFits hWhole hRest
  rw [sniff_ofText hFits hWhole, sniff_ofText hShort hRest] at hSame
  exact absurd hSame (by decide)

end ImagePlacement.Signature
