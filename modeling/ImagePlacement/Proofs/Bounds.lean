import ImagePlacement.Proofs.Header
import ImagePlacement.Proofs.Jpeg.InPlace
import ImagePlacement.Proofs.Jpeg.Standalone
import ImagePlacement.Proofs.Png.InPlace

/-! What both walks by offsets keep to, whatever bytes they are given. -/
namespace ImagePlacement

open InPlace

/-- Walks by offsets over any bytes that fit in memory come to what the inspection comes to. No
access is out of bounds, no sum of offsets too large, and no loop goes round more often than there
are bytes left: the offset of each loop climbs and stays inside. A walk that comes to its end has
found a size. -/
theorem inspect_in_bounds (bs : Bytes) (hSize : bs.length ≤ 0x7FFFFFFFFFFFFFFF) :
    (Png.InPlace.inspect bs = .ofExcept (Png.inspect bs) ∧
      (∀ reason, Png.InPlace.inspect bs ≠ .aborted reason) ∧
      Climbs (Png.InPlace.round bs) Position.offset bs.length ∧
      Png.inspect bs ≠ .error .noHeader) ∧
    Jpeg.InPlace.inspect bs = .ofExcept (Jpeg.inspect bs) ∧
    (∀ reason, Jpeg.InPlace.inspect bs ≠ .aborted reason) ∧
    Climbs (Jpeg.InPlace.round bs) Position.offset bs.length ∧
    Climbs (Jpeg.InPlace.fillRound bs) id bs.length ∧
    Climbs (Jpeg.InPlace.scanRound bs) id bs.length ∧
    Jpeg.inspect bs ≠ .error .noFrame := by
  have hPng := Png.InPlace.inspect_eq hSize
  have hJpeg := Jpeg.InPlace.inspect_eq hSize
  refine ⟨⟨hPng, ?_, climbs_of_agrees (Png.InPlace.round_agrees hSize), Png.inspect_ne_noHeader⟩,
    hJpeg, ?_, climbs_of_agrees (Jpeg.InPlace.round_agrees hSize),
    climbs_of_agrees (Jpeg.InPlace.fillRound_agrees hSize pure),
    climbs_of_agrees (Jpeg.InPlace.scanRound_agrees hSize), Jpeg.inspect_ne_noFrame⟩
  · rw [hPng]
    exact Outcome.ofExcept_ne_aborted _
  · rw [hJpeg]
    exact Outcome.ofExcept_ne_aborted _

open Jpeg.Speck in
/-- Both walks get to the end of an image. -/
theorem inspect_in_bounds_pixel :
    Dot.content.length ≤ 0x7FFFFFFFFFFFFFFF ∧
    (opening ++ scan ++ ending).length ≤ 0x7FFFFFFFFFFFFFFF ∧
    (∃ header, Png.InPlace.inspect Dot.content = .done header ∧ header.size = ⟨1, 1⟩) ∧
    Jpeg.InPlace.inspect (opening ++ scan ++ ending) = .done ⟨1, 1, none⟩ := by
  have hDotSize : Dot.content.length ≤ 0x7FFFFFFFFFFFFFFF := by decide
  have hSpeckSize : (opening ++ scan ++ ending).length ≤ 0x7FFFFFFFFFFFFFFF := by decide
  obtain ⟨⟨hPng, -⟩, -⟩ := inspect_in_bounds Dot.content hDotSize
  obtain ⟨-, hJpeg, -⟩ := inspect_in_bounds (opening ++ scan ++ ending) hSpeckSize
  refine ⟨hDotSize, hSpeckSize, ?_, ?_⟩
  · have hDot : (match Png.inspect Dot.content with
        | .ok header => header.size == ⟨1, 1⟩
        | .error _ => false) = true := by decide +kernel
    cases hFound : Png.inspect Dot.content with
    | error fault =>
        rw [hFound] at hDot
        cases hDot
    | ok header =>
        rw [hFound] at hDot hPng
        exact ⟨header, hPng, eq_of_beq hDot⟩
  · rw [hJpeg, inspect_eq_ok]
    rfl

end ImagePlacement
