import ImagePlacement.Proofs.Decoding

/-! What a header is probed for, and what is decoded behind it. A stream of pixels that decodes has
the size that the probe finds, so the check before decoding refuses nothing that the check after it
would let pass. -/
namespace ImagePlacement

namespace Image

variable {format : Format} {size : PixelSize} {image : Image}

theorem of_make {width height : Float} {payload : Payload}
    (h : make format width height payload = .ok image) :
    image.format = format ∧ image.payload = payload := by
  unfold make at h
  split at h
  case isTrue =>
      obtain rfl := Except.ok.inj h
      exact ⟨rfl, rfl⟩
  case isFalse => cases h

theorem of_ofPixels {density : Option Density} (h : ofPixels format size density = .ok image) :
    image.format = format ∧ image.pixelSize? = some size := by
  obtain ⟨hFormat, hPayload⟩ := of_make h
  refine ⟨hFormat, ?_⟩
  rw [pixelSize?, hPayload]

end Image

namespace Png

variable {bs : Bytes} {size : PixelSize} {image : Image}

/-- The pixels are behind the preamble that the probe reads too. -/
theorem probeSize?_of_pixels? (hSignature : signature.isPrefixOf bs = true)
    (h : pixels? bs = some size) : probeSize? bs = some size := by
  obtain ⟨⟨preamble, rest⟩, hPreamble, hRest⟩ := Option.bind_eq_some_iff.mp h
  rw [probeSize?, if_pos hSignature, hPreamble, Option.map_some, Option.some.injEq]
  dsimp only at hRest
  split at hRest
  case isTrue => cases hRest
  case isFalse =>
      obtain ⟨pieces, -, hRest⟩ := Option.bind_eq_some_iff.mp hRest
      obtain ⟨pixels, -, hRest⟩ := Option.bind_eq_some_iff.mp hRest
      split at hRest
      case isTrue => exact Option.some.inj hRest
      case isFalse => cases hRest

theorem signature_of_inspect {header : Header} (h : inspect bs = .ok header) :
    signature.isPrefixOf bs = true := by
  unfold inspect at h
  split at h
  case isTrue hSignature => exact hSignature
  case isFalse => cases h

theorem decode_eq_ok_iff : decode bs = .ok image ↔ ∃ header, inspect bs = .ok header ∧
    pixels? bs = some header.size ∧ Image.ofPixels .png header.size header.density = .ok image := by
  cases hInspect : inspect bs with
  | error fault =>
      rw [decode, hInspect]
      refine iff_of_false nofun ?_
      rintro ⟨_, hOther, _⟩
      cases hOther
  | ok header =>
      have hHeader : (inspect bs).mapError Fault.toDecodeError = .ok header := by
        rw [hInspect]
        rfl
      simp only [decode, hHeader, bind, Except.bind, Except.ok.injEq, exists_eq_left']
      cases hPixels : pixels? bs with
      | none => exact iff_of_false nofun fun h => nomatch h.1
      | some size =>
          by_cases hSize : size = header.size
          · simp [hSize]
          · simp [hSize]

theorem of_decode (h : decode bs = .ok image) :
    image.format = .png ∧ ∃ size, image.pixelSize? = some size ∧ probeSize? bs = some size := by
  obtain ⟨header, hInspect, hPixels, hImage⟩ := decode_eq_ok_iff.mp h
  obtain ⟨hFormat, hSize⟩ := Image.of_ofPixels hImage
  exact ⟨hFormat, header.size, hSize,
    probeSize?_of_pixels? (signature_of_inspect hInspect) hPixels⟩

end Png

namespace Jpeg

variable {bs : Bytes} {size : PixelSize} {image : Image}

/-- The scans are behind the frame header that the probe reads too. -/
theorem probeSize?_of_pixels? (h : pixels? bs = some size) : probeSize? bs = some size := by
  obtain ⟨⟨setup, header, rest⟩, hSetup, hRest⟩ := Option.bind_eq_some_iff.mp h
  obtain ⟨frame, hFrame, hRest⟩ := Option.bind_eq_some_iff.mp hRest
  rw [probeSize?, hSetup, Option.bind_some, hFrame, Option.map_some, Option.some.injEq]
  dsimp only at hRest
  split at hRest
  case isTrue => cases hRest
  case isFalse =>
      split at hRest
      all_goals
        split at hRest
        case isTrue => exact Option.some.inj hRest
        case isFalse => cases hRest

theorem decode_eq_ok_iff : decode bs = .ok image ↔ ∃ header, inspect bs = .ok header ∧
    pixels? bs = some header.size ∧ Image.ofPixels .jpeg header.size header.density = .ok image := by
  cases hInspect : inspect bs with
  | error fault =>
      rw [decode, hInspect]
      refine iff_of_false nofun ?_
      rintro ⟨_, hOther, _⟩
      cases hOther
  | ok header =>
      have hHeader : (inspect bs).mapError Fault.toDecodeError = .ok header := by
        rw [hInspect]
        rfl
      simp only [decode, hHeader, bind, Except.bind, Except.ok.injEq, exists_eq_left']
      cases hPixels : pixels? bs with
      | none => exact iff_of_false nofun fun h => nomatch h.1
      | some size =>
          by_cases hSize : size = header.size
          · simp [hSize]
          · simp [hSize]

theorem of_decode (h : decode bs = .ok image) :
    image.format = .jpeg ∧ ∃ size, image.pixelSize? = some size ∧ probeSize? bs = some size := by
  obtain ⟨header, _, hPixels, hImage⟩ := decode_eq_ok_iff.mp h
  obtain ⟨hFormat, hSize⟩ := Image.of_ofPixels hImage
  exact ⟨hFormat, header.size, hSize, probeSize?_of_pixels? hPixels⟩

end Jpeg

/-- A drawing has no pixels. -/
theorem Svg.of_decode {bs : Bytes} {image : Image} (h : decode bs = .ok image) :
    image.format = .svg ∧ image.pixelSize? = none := by
  unfold decode at h
  split at h
  · cases h
  · split at h
    · cases h
    · obtain ⟨hFormat, hPayload⟩ := Image.of_make h
      refine ⟨hFormat, ?_⟩
      rw [Image.pixelSize?, hPayload]

/-- A PNG of a single pixel, in 70 bytes. -/
def Dot.content : Bytes :=
  [0x89, 0x50, 0x4E, 0x47, 0x0D, 0x0A, 0x1A, 0x0A,
    0x00, 0x00, 0x00, 0x0D, 0x49, 0x48, 0x44, 0x52, 0x00, 0x00, 0x00, 0x01, 0x00, 0x00, 0x00, 0x01,
    0x08, 0x00, 0x00, 0x00, 0x00, 0x3A, 0x7E, 0x9B, 0x55,
    0x00, 0x00, 0x00, 0x0D, 0x49, 0x44, 0x41, 0x54, 0x78, 0x01, 0x01, 0x02, 0x00, 0xFD, 0xFF, 0x00,
    0x00, 0x00, 0x02, 0x00, 0x01, 0x7E, 0x05, 0x0D, 0xD2,
    0x00, 0x00, 0x00, 0x00, 0x49, 0x45, 0x4E, 0x44, 0xAE, 0x42, 0x60, 0x82]

namespace Decoding

variable {settings : Settings} {path : String} {content : Bytes} {image : Image}

/-- The decoders that come with the library decode to the format that they are for, and to the size
that the header gives. -/
theorem of_builtin {format : Format} (h : Registry.builtin.decode format content = .done image) :
    image.format = format ∧ headerSize? format content = image.pixelSize? := by
  have hDone {decode : Bytes → Except DecodeError Image}
      (h : (Outcome.ofExcept ∘ decode) content = .done image) : decode content = .ok image :=
    Outcome.ofExcept_eq_done_iff.mp h
  cases format with
  | png =>
      obtain ⟨hFormat, size, hSize, hProbe⟩ := Png.of_decode (hDone h)
      exact ⟨hFormat, hProbe.trans hSize.symm⟩
  | jpeg =>
      obtain ⟨hFormat, size, hSize, hProbe⟩ := Jpeg.of_decode (hDone h)
      exact ⟨hFormat, hProbe.trans hSize.symm⟩
  | svg =>
      obtain ⟨hFormat, hNone⟩ := Svg.of_decode (hDone h)
      exact ⟨hFormat, hNone.symm⟩
  | unknown => cases h

/-- An image comes out exactly when its content decodes to it and its pixels, if it has any, pass
the checks. It then has the format that its content shows, whatever its path suggests. -/
theorem run_builtin_eq_done_iff (settings : Settings) (path : String) (content : Bytes)
    (image : Image) :
    ((run settings .builtin path content).1 = .done image ↔
      Registry.builtin.decode (Signature.sniff content) content = .done image ∧
        ∀ size, image.pixelSize? = some size →
          settings.checkPixels size = .ok () ∧ settings.checkMemory size = .ok ()) ∧
    ((run settings .builtin path content).1 = .done image →
      image.format = Signature.sniff content) := by
  rw [← Settings.checkRaster_eq_ok_iff, run_eq_done_iff]
  refine ⟨⟨And.right, ?_⟩, fun h => (of_builtin h.2.1).1⟩
  rintro ⟨hDecoded, hPassed⟩
  refine ⟨?_, hDecoded, hPassed⟩
  rw [(of_builtin hDecoded).2]
  exact hPassed

/-- Under a path that suggests another format, and with a limit of one pixel. -/
theorem run_builtin_eq_done_iff_dot : ∃ image,
    Registry.builtin.decode (Signature.sniff Dot.content) Dot.content = .done image ∧
    image.pixelSize? = some ⟨1, 1⟩ ∧ image.format = .png ∧
    (run { Settings.standard with maxPixels := 1 } .builtin "dot.jpg" Dot.content).1 =
      .done image := by
  have hSniff : Signature.sniff Dot.content = .png := by decide +kernel
  have hDecodes : (match Registry.builtin.decode .png Dot.content with
      | .done image => image.pixelSize? == some ⟨1, 1⟩
      | _ => false) = true := by decide +kernel
  split at hDecodes
  case h_1 image hDecoded =>
      rw [← hSniff] at hDecoded
      have hSize : image.pixelSize? = some ⟨1, 1⟩ := eq_of_beq hDecodes
      obtain ⟨verdict, format⟩ := run_builtin_eq_done_iff
        { Settings.standard with maxPixels := 1 } "dot.jpg" Dot.content image
      have hRun := verdict.mpr ⟨hDecoded, fun size h => by
        obtain rfl := Option.some.inj (hSize.symm.trans h)
        exact ⟨by rfl, by rfl⟩⟩
      exact ⟨image, hDecoded, hSize, (format hRun).trans hSniff, hRun⟩
  case h_2 => cases hDecodes

end Decoding

end ImagePlacement
