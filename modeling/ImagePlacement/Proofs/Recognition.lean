import ImagePlacement.Proofs.Header
import ImagePlacement.Proofs.Jpeg.Stream
import ImagePlacement.Proofs.Png.Datastream
import ImagePlacement.Proofs.Signature

/-! Three readers look at the front of a stream: the one that recognises its format, and the checks
of the two formats made of pixels. What a check accepts is recognised as its format, so that a
stream that decodes is never refused for a format that is not known. -/
namespace ImagePlacement

theorem Png.prefix_of_inspect {bs : Bytes} {header : Header} (h : inspect bs = .ok header) :
    [0x89, 0x50, 0x4E, 0x47] <+: bs := by
  obtain ⟨rest, rfl⟩ := List.isPrefixOf_iff_prefix.mp (signature_of_inspect h)
  exact ⟨[0x0D, 0x0A, 0x1A, 0x0A] ++ rest, rfl⟩

namespace Jpeg

/-- An item starts with the byte that every marker starts with. -/
theorem Item.exists_bytes_eq (item : Item) : ∃ rest, item.bytes = 0xFF :: rest := by
  cases item with
  | marker fill code => exact ⟨_, rfl⟩
  | segment fill code payload => exact ⟨_, rfl⟩

/-- The third byte of the signature belongs to the first item after the start of the image. -/
theorem prefix_of_inspect {bs : Bytes} {header : Header} (h : inspect bs = .ok header) :
    [0xFF, 0xD8, 0xFF] <+: bs := by
  obtain ⟨⟨items, fill, scanHeader, scan⟩, -, rfl⟩ := exists_stream h
  cases items with
  | nil => exact ⟨_, rfl⟩
  | cons item items =>
      obtain ⟨rest, hRest⟩ := item.exists_bytes_eq
      simp only [Stream.bytes, List.flatMap_cons, hRest]
      exact ⟨_, rfl⟩

end Jpeg

namespace Signature

variable {content : Bytes} {format : Format}

/-- The signatures of the two formats made of pixels are looked for before anything else is: a
content that starts with one of them is told by it. -/
def RastersFirst (start : Bytes) : Prop :=
  ([0xFF, 0xD8, 0xFF] <+: start → magic? start = some .jpeg) ∧
    ([0x89, 0x50, 0x4E, 0x47] <+: start → magic? start = some .png)

/-- Only the mark of a book comes before them. -/
theorem rastersFirst_iff {start : Bytes} : RastersFirst start ↔
    ¬ (bookMark <+: start.drop 60 ∧
      ([0xFF, 0xD8, 0xFF] <+: start ∨ [0x89, 0x50, 0x4E, 0x47] <+: start)) := by
  simp only [RastersFirst, magic?, List.isPrefixOf_iff_prefix]
  by_cases hBook : bookMark <+: start.drop 60
  · simp [hBook]
  · refine iff_of_true ⟨fun hJpeg => ?_, fun hPng => ?_⟩ fun h => hBook h.1
    · rw [if_neg hBook, if_pos hJpeg]
    · -- the two signatures differ in their first byte
      have hOther : ¬ [0xFF, 0xD8, 0xFF] <+: start := by
        obtain ⟨rest, rfl⟩ := hPng
        rintro ⟨other, hSame⟩
        cases hSame
      rw [if_neg hBook, if_neg hOther, if_pos hPng]

theorem sniff_of_magic? (h : magic? (content.take window) = some format) :
    sniff content = format := by
  simp only [sniff, h]

theorem sniff_of_png (hFirst : RastersFirst (content.take window)) {header : Png.Header}
    (h : Png.inspect content = .ok header) : sniff content = .png :=
  sniff_of_magic? (hFirst.2 (List.prefix_take_iff.mpr ⟨Png.prefix_of_inspect h, by decide⟩))

theorem sniff_of_jpeg (hFirst : RastersFirst (content.take window)) {header : Jpeg.Header}
    (h : Jpeg.inspect content = .ok header) : sniff content = .jpeg :=
  sniff_of_magic? (hFirst.1 (List.prefix_take_iff.mpr ⟨Jpeg.prefix_of_inspect h, by decide⟩))

end Signature

/-- What decodes as the format that it is recognised as is only ever refused for a limit. -/
theorem Decoding.run_builtin_of_decode (settings : Settings) (path : String) {content : Bytes}
    {image : Image} (h : Registry.builtin.decode (Signature.sniff content) content = .done image) :
    (run settings .builtin path content).1 = .done image ∨
      ∃ reason, (run settings .builtin path content).1 = .failed (.overLimit reason) := by
  have hHeader := (of_builtin h).2
  cases hChecked : settings.checkRaster (headerSize? (Signature.sniff content) content) with
  | ok _ => exact Or.inl (run_eq_done_iff.mpr ⟨hChecked, h, hHeader ▸ hChecked⟩)
  | error e =>
      obtain ⟨⟨reason, rfl⟩, -⟩ := Settings.checkRaster_eq_error hChecked
      exact Or.inr ⟨reason, run_of_error hChecked⟩

namespace Signature

/-- If the signatures of pixel formats are looked for first, a stream that passes the check of such
a format is recognised as that format, and one that decodes comes out of the decoding under any
limits or is refused for one of them. No stream passes both checks. -/
theorem sniff_of_inspect (bs : Bytes) :
    (RastersFirst (bs.take window) →
      (∀ header, Png.inspect bs = .ok header → sniff bs = .png) ∧
      (∀ header, Jpeg.inspect bs = .ok header → sniff bs = .jpeg) ∧
      ∀ settings path image, Registry.builtin.decode .png bs = .done image ∨
        Registry.builtin.decode .jpeg bs = .done image →
          (Decoding.run settings .builtin path bs).1 = .done image ∨
            ∃ reason, (Decoding.run settings .builtin path bs).1 = .failed (.overLimit reason)) ∧
    ∀ header frame, Png.inspect bs = .ok header → Jpeg.inspect bs ≠ .ok frame := by
  constructor
  · intro hFirst
    refine ⟨fun _ => sniff_of_png hFirst, fun _ => sniff_of_jpeg hFirst, ?_⟩
    rintro settings path image (hDecoded | hDecoded)
    · obtain ⟨header, hHeader, -⟩ :=
        Png.decode_eq_ok_iff.mp (Outcome.ofExcept_eq_done_iff.mp hDecoded)
      rw [← sniff_of_png hFirst hHeader] at hDecoded
      exact Decoding.run_builtin_of_decode settings path hDecoded
    · obtain ⟨header, hHeader, -⟩ :=
        Jpeg.decode_eq_ok_iff.mp (Outcome.ofExcept_eq_done_iff.mp hDecoded)
      rw [← sniff_of_jpeg hFirst hHeader] at hDecoded
      exact Decoding.run_builtin_of_decode settings path hDecoded
  · intro header frame hPng hJpeg
    obtain ⟨rest, rfl⟩ := Png.prefix_of_inspect hPng
    obtain ⟨other, hOther⟩ := Jpeg.prefix_of_inspect hJpeg
    cases hOther

/-- A JPEG of a single pixel. A comment puts the mark of another format where it is looked for. -/
def disguised : Bytes :=
  [0xFF, 0xD8, 0xFF, 0xFE, 0x00, 0x0A, 0x20, 0x20, 0x57, 0x45, 0x42, 0x50, 0x20, 0x20,
    0xFF, 0xC0, 0x00, 0x08, 0x08, 0x00, 0x01, 0x00, 0x01, 0x00,
    0xFF, 0xDA, 0x00, 0x02, 0x12, 0xFF, 0x00, 0xFF, 0xD9]

/-- A JPEG with the mark of another format further in, and a PNG under a path that suggests a
drawing. -/
theorem sniff_of_inspect_disguised : ∃ frame image,
    Jpeg.inspect disguised = .ok frame ∧ [0x57, 0x45, 0x42, 0x50] <+: disguised.drop 8 ∧
    sniff disguised = .jpeg ∧
    Registry.builtin.decode .png Dot.content = .done image ∧ sniff Dot.content = .png ∧
    ((Decoding.run Settings.standard .builtin "dot.svg" Dot.content).1 = .done image ∨
      ∃ reason, (Decoding.run Settings.standard .builtin "dot.svg" Dot.content).1 =
        .failed (.overLimit reason)) := by
  have hJpeg : (Jpeg.inspect disguised).isOk = true := by decide +kernel
  have hDecodes : (Registry.builtin.decode .png Dot.content).isDone = true := by decide +kernel
  obtain ⟨-, hDisguised, -⟩ := (sniff_of_inspect disguised).1 (rastersFirst_iff.mpr (by decide))
  obtain ⟨hDot, -, hRun⟩ := (sniff_of_inspect Dot.content).1 (rastersFirst_iff.mpr (by decide))
  cases hInspect : Jpeg.inspect disguised with
  | error fault =>
      rw [hInspect] at hJpeg
      cases hJpeg
  | ok frame =>
      obtain ⟨image, hDecoded⟩ := Outcome.exists_of_isDone hDecodes
      obtain ⟨header, hHeader, -⟩ :=
        Png.decode_eq_ok_iff.mp (Outcome.ofExcept_eq_done_iff.mp hDecoded)
      exact ⟨frame, image, rfl, ⟨_, rfl⟩, hDisguised frame hInspect, hDecoded, hDot header hHeader,
        hRun _ _ image (Or.inl hDecoded)⟩

end Signature

end ImagePlacement
