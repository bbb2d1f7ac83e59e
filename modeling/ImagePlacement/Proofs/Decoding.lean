import ImagePlacement.Decoding

/-! Limits over unbounded numbers. A size in words of 32 bits has no more pixels, and takes no more
bytes, than fit in 64 and 66 bits, so that overflow is never the reason for a wrong refusal. -/
namespace ImagePlacement

/-- How many pixels there are, over unbounded numbers. -/
def PixelSize.area (size : PixelSize) : Nat := size.width.toNat * size.height.toNat

theorem PixelSize.exists_pixels?_eq (size : PixelSize) :
    ∃ pixels, size.pixels? = some pixels ∧ pixels.toNat = size.area := by
  have hArea : size.area < UInt64.size :=
    Nat.mul_lt_mul'' size.width.toNat_lt size.height.toNat_lt
  have hPixels := UInt64.toNat_ofNat_of_lt' hArea
  refine ⟨UInt64.ofNat size.area, product?_eq_some_iff.mpr ?_, hPixels⟩
  rw [hPixels, UInt32.toNat_toUInt64, UInt32.toNat_toUInt64, area]

namespace Settings

variable {settings : Settings} {size : PixelSize} {e : LoadError}

/-- A raster of this size exceeds no limit. -/
def Admits (settings : Settings) (size : PixelSize) : Prop :=
  size.area ≤ settings.maxPixels.toNat ∧ 4 * size.area ≤ settings.maxDecodedBytes.toNat

instance (settings : Settings) (size : PixelSize) : Decidable (settings.Admits size) :=
  inferInstanceAs (Decidable (_ ∧ _))

theorem checkPixels_cases (settings : Settings) (size : PixelSize) :
    settings.checkPixels size = .ok () ∧ size.area ≤ settings.maxPixels.toNat ∨
    (∃ reason, settings.checkPixels size = .error (.overLimit reason)) ∧
      settings.maxPixels.toNat < size.area := by
  obtain ⟨pixels, hPixels, hArea⟩ := size.exists_pixels?_eq
  simp only [checkPixels, hPixels, UInt64.lt_iff_toNat_lt, hArea]
  split
  case isTrue hOver => exact Or.inr ⟨⟨_, rfl⟩, hOver⟩
  case isFalse hWithin => exact Or.inl ⟨rfl, Nat.le_of_not_lt hWithin⟩

theorem checkMemory_cases (settings : Settings) (size : PixelSize) :
    settings.checkMemory size = .ok () ∧ 4 * size.area ≤ settings.maxDecodedBytes.toNat ∨
    (∃ reason, settings.checkMemory size = .error (.overLimit reason)) ∧
      settings.maxDecodedBytes.toNat < 4 * size.area := by
  obtain ⟨pixels, hPixels, hArea⟩ := size.exists_pixels?_eq
  simp only [checkMemory, PixelSize.bytes?, hPixels, Option.bind_some]
  cases hBytes : product? pixels 4 with
  | none =>
      refine Or.inr ⟨⟨_, rfl⟩, ?_⟩
      have hOver : UInt64.size ≤ pixels.toNat * 4 := by
        simpa [product?] using hBytes
      have := settings.maxDecodedBytes.toNat_lt_size
      omega
  | some bytes =>
      have hTotal : bytes.toNat = 4 * size.area := by
        rw [← product?_eq_some_iff.mp hBytes, hArea, Nat.mul_comm]
        rfl
      simp only [UInt64.lt_iff_toNat_lt, hTotal]
      split
      case isTrue hOver => exact Or.inr ⟨⟨_, rfl⟩, hOver⟩
      case isFalse hWithin => exact Or.inl ⟨rfl, Nat.le_of_not_lt hWithin⟩

theorem checkPixels_eq_ok_iff :
    settings.checkPixels size = .ok () ↔ size.area ≤ settings.maxPixels.toNat := by
  rcases settings.checkPixels_cases size with ⟨hOk, hWithin⟩ | ⟨⟨reason, hError⟩, hOver⟩
  · exact iff_of_true hOk hWithin
  · rw [hError]
    exact iff_of_false nofun (Nat.not_le_of_lt hOver)

theorem checkMemory_eq_ok_iff :
    settings.checkMemory size = .ok () ↔ 4 * size.area ≤ settings.maxDecodedBytes.toNat := by
  rcases settings.checkMemory_cases size with ⟨hOk, hWithin⟩ | ⟨⟨reason, hError⟩, hOver⟩
  · exact iff_of_true hOk hWithin
  · rw [hError]
    exact iff_of_false nofun (Nat.not_le_of_lt hOver)

/-- Every refusal for too many pixels shows their number after an equals sign. -/
theorem checkPixels_ne_overflow :
    settings.checkPixels size ≠ .error (.overLimit "pixel count overflow") := by
  obtain ⟨pixels, hPixels, _⟩ := size.exists_pixels?_eq
  intro h
  simp only [checkPixels, hPixels] at h
  split at h
  case isTrue =>
      have hText := LoadError.overLimit.inj (Except.error.inj h)
      have hShown : '=' ∈ "pixel count overflow".toList := by
        simp only [← hText, String.toList_append, List.mem_append]
        exact Or.inl (Or.inl (Or.inl (Or.inl (Or.inr (by decide)))))
      exact absurd hShown (by decide)
  case isFalse => cases h

/-- A raster passes the checks exactly when it exceeds no limit, and is else refused for one. -/
theorem checkRaster_cases (settings : Settings) (size : PixelSize) :
    settings.checkRaster (some size) = .ok () ∧ settings.Admits size ∨
    (∃ reason, settings.checkRaster (some size) = .error (.overLimit reason)) ∧
      ¬ settings.Admits size := by
  rcases settings.checkPixels_cases size with ⟨hPixels, hWithin⟩ | ⟨⟨reason, hPixels⟩, hOver⟩
  · have hCheck : settings.checkRaster (some size) = settings.checkMemory size := by
      simp only [checkRaster, hPixels]
      rfl
    rw [hCheck]
    rcases settings.checkMemory_cases size with ⟨hMemory, hFits⟩ | ⟨hMemory, hOver⟩
    · exact Or.inl ⟨hMemory, hWithin, hFits⟩
    · exact Or.inr ⟨hMemory, fun h => Nat.not_le_of_lt hOver h.2⟩
  · refine Or.inr ⟨⟨reason, ?_⟩, fun h => Nat.not_le_of_lt hOver h.1⟩
    simp only [checkRaster, hPixels]
    rfl

theorem checkRaster_of_not_admits (h : ¬ settings.Admits size) :
    ∃ reason, settings.checkRaster (some size) = .error (.overLimit reason) := by
  rcases settings.checkRaster_cases size with ⟨_, hAdmits⟩ | ⟨hError, _⟩
  · exact absurd hAdmits h
  · exact hError

/-- A size passes both checks, and without a size there is nothing to check. -/
theorem checkRaster_eq_ok_iff {found : Option PixelSize} : settings.checkRaster found = .ok () ↔
    ∀ size, found = some size →
      settings.checkPixels size = .ok () ∧ settings.checkMemory size = .ok () := by
  cases found with
  | none => exact iff_of_true rfl nofun
  | some size =>
      simp only [Option.some.injEq, forall_eq', checkRaster]
      cases hPixels : settings.checkPixels size with
      | ok _ => simp [bind, Except.bind]
      | error e => exact iff_of_false nofun fun h => nomatch h.1

/-- Only a size that exceeds a limit is refused. -/
theorem checkRaster_eq_error {found : Option PixelSize} (h : settings.checkRaster found = .error e) :
    (∃ reason, e = .overLimit reason) ∧ ∃ size, found = some size ∧ ¬ settings.Admits size := by
  cases found with
  | none => cases h
  | some size =>
      rcases settings.checkRaster_cases size with ⟨hOk, _⟩ | ⟨⟨reason, hError⟩, hRefused⟩
      · rw [hOk] at h
        cases h
      · rw [hError, Except.error.injEq] at h
        exact ⟨⟨reason, h.symm⟩, size, rfl, hRefused⟩

end Settings

namespace Decoding

variable {settings : Settings} {registry : Registry} {path : String} {content : Bytes}
  {image : Image} {e : LoadError}

theorem approve_of_error (h : settings.checkRaster image.pixelSize? = .error e) :
    approve settings image = .failed e := by
  rw [approve, h]
  rfl

theorem approve_of_ok (h : settings.checkRaster image.pixelSize? = .ok ()) :
    approve settings image = .done image := by
  rw [approve, h]
  rfl

theorem approve_eq_done_iff {approved : Image} : approve settings image = .done approved ↔
    image = approved ∧ settings.checkRaster image.pixelSize? = .ok () := by
  cases hChecked : settings.checkRaster image.pixelSize? with
  | error e => simp [approve_of_error hChecked]
  | ok _ => simp [approve_of_ok hChecked]

/-- What a header refuses is not decoded. -/
theorem run_of_error
    (h : settings.checkRaster (headerSize? (Signature.sniff content) content) = .error e) :
    (run settings registry path content).1 = .failed e := by
  simp only [run, h]

theorem run_of_ok
    (h : settings.checkRaster (headerSize? (Signature.sniff content) content) = .ok ()) :
    (run settings registry path content).1 =
      ((registry.decode (Signature.sniff content) content).mapError .undecodable).bind
        (approve settings) := by
  simp only [run, h]

/-- An image comes out when the header passes, the content decodes to it and it passes too. -/
theorem run_eq_done_iff : (run settings registry path content).1 = .done image ↔
    settings.checkRaster (headerSize? (Signature.sniff content) content) = .ok () ∧
      registry.decode (Signature.sniff content) content = .done image ∧
      settings.checkRaster image.pixelSize? = .ok () := by
  cases hHeader : settings.checkRaster (headerSize? (Signature.sniff content) content) with
  | error e =>
      rw [run_of_error hHeader]
      refine iff_of_false ?_ ?_
      · rintro ⟨⟩
      · rintro ⟨⟨⟩, _⟩
  | ok _ =>
      rw [run_of_ok hHeader, Outcome.bind_eq_done_iff]
      simp only [Outcome.mapError_eq_done_iff, approve_eq_done_iff]
      constructor
      · rintro ⟨_, hDecoded, rfl, hPassed⟩
        exact ⟨trivial, hDecoded, hPassed⟩
      · rintro ⟨-, hDecoded, hPassed⟩
        exact ⟨image, hDecoded, rfl, hPassed⟩

/-- An image that comes out is within the limits. -/
theorem admits_of_run (h : (run settings registry path content).1 = .done image) {size : PixelSize}
    (hSize : image.pixelSize? = some size) : settings.Admits size := by
  have hPassed := (run_eq_done_iff.mp h).2.2
  obtain ⟨hPixels, hMemory⟩ := Settings.checkRaster_eq_ok_iff.mp hPassed size hSize
  exact ⟨Settings.checkPixels_eq_ok_iff.mp hPixels, Settings.checkMemory_eq_ok_iff.mp hMemory⟩

/-- A size is found for a content: its header gives it, or the decoded image has it. -/
def Finds (registry : Registry) (content : Bytes) (size : PixelSize) : Prop :=
  headerSize? (Signature.sniff content) content = some size ∨
    ∃ image, registry.decode (Signature.sniff content) content = .done image ∧
      image.pixelSize? = some size

/-- Decoding ends with a limit exactly when a size is found that exceeds one. -/
theorem run_overLimit_iff :
    (∃ reason, (run settings registry path content).1 = .failed (.overLimit reason)) ↔
      ∃ size, Finds registry content size ∧ ¬ settings.Admits size := by
  cases hHeader : settings.checkRaster (headerSize? (Signature.sniff content) content) with
  | error e =>
      rw [run_of_error hHeader]
      obtain ⟨⟨reason, rfl⟩, size, hSize, hRefused⟩ := Settings.checkRaster_eq_error hHeader
      exact iff_of_true ⟨reason, rfl⟩ ⟨size, Or.inl hSize, hRefused⟩
  | ok _ =>
      rw [run_of_ok hHeader]
      constructor
      · rintro ⟨reason, hRun⟩
        cases hDecoded : registry.decode (Signature.sniff content) content with
        | done image =>
            rw [hDecoded] at hRun
            cases hImage : settings.checkRaster image.pixelSize? with
            | ok _ =>
                have hApproved : approve settings image = _ := hRun
                rw [approve_of_ok hImage] at hApproved
                cases hApproved
            | error e =>
                obtain ⟨_, size, hSize, hRefused⟩ := Settings.checkRaster_eq_error hImage
                exact ⟨size, Or.inr ⟨image, hDecoded, hSize⟩, hRefused⟩
        | failed cause =>
            rw [hDecoded] at hRun
            cases hRun
        | aborted reason =>
            rw [hDecoded] at hRun
            cases hRun
      · rintro ⟨size, hSize | ⟨image, hDecoded, hSize⟩, hRefused⟩
        · obtain ⟨reason, hError⟩ := Settings.checkRaster_of_not_admits hRefused
          rw [hSize, hError] at hHeader
          cases hHeader
        · obtain ⟨reason, hError⟩ := Settings.checkRaster_of_not_admits hRefused
          rw [← hSize] at hError
          rw [hDecoded]
          exact ⟨reason, approve_of_error hError⟩

end Decoding

end ImagePlacement
