import ImagePlacement.Proofs.Header
import ImagePlacement.Proofs.Jpeg.Truncation
import ImagePlacement.Proofs.Png.Truncation
import Mathlib.Data.Nat.Find

/-! Where an image ends in its bytes. Cut anywhere before, it is corrupt; whatever comes after does
not count. -/
namespace ImagePlacement

section Extent

variable {ε α : Type} {inspect : Bytes → Except ε α} {Settled : Except ε α → Prop}

/-- If more bytes never change a verdict that is settled, there is a shortest part of the front that
is accepted, no verdict is settled before it, and nothing can be cut off its end. -/
theorem exists_extent (hAppend : ∀ bs, Settled (inspect bs) →
      ∀ tail, inspect (bs ++ tail) = inspect bs) (hOk : ∀ found, Settled (.ok found))
    {bs : Bytes} {found : α} (h : inspect bs = .ok found) :
    ∃ n ≤ bs.length, inspect (bs.take n) = .ok found ∧
      (∀ m < n, ∃ e, inspect (bs.take m) = .error e ∧ ¬ Settled (.error e)) ∧
      ∀ front tail, bs.take n = front ++ tail → inspect front = .ok found → tail = [] := by
  classical
  have hWhole {m : Nat} (hSettled : Settled (inspect (bs.take m))) :
      inspect (bs.take m) = .ok found := by
    rw [← hAppend _ hSettled (bs.drop m), List.take_append_drop, h]
  have hSome : ∃ n, inspect (bs.take n) = .ok found := ⟨bs.length, by rwa [List.take_length]⟩
  have hLe : Nat.find hSome ≤ bs.length := Nat.find_le (by rwa [List.take_length])
  refine ⟨Nat.find hSome, hLe, Nat.find_spec hSome, ?_, ?_⟩
  · intro m hm
    have hNot := Nat.find_min hSome hm
    cases hInspect : inspect (bs.take m) with
    | ok other =>
        refine absurd (hWhole ?_) hNot
        rw [hInspect]
        exact hOk other
    | error e =>
        refine ⟨e, rfl, fun hSettled => hNot (hWhole ?_)⟩
        rwa [hInspect]
  · intro front tail hFront hFound
    have hLength := congrArg List.length hFront
    rw [List.length_take, List.length_append, Nat.min_eq_left hLe] at hLength
    have hTake : bs.take front.length = front := by
      rw [← List.take_append_drop (Nat.find hSome) bs, hFront, List.append_assoc, List.take_left]
    have hMin : Nat.find hSome ≤ front.length := Nat.find_le (by rwa [hTake])
    exact List.eq_nil_of_length_eq_zero (by omega)

end Extent

/-- A stream that passes for an image has an end: of a PNG, that of its first ending chunk; of a
JPEG, that of the marker that ends its first scan. Cut before it, the stream is corrupt, to the
check of its header and to the decoder; with any other bytes after it, it says the same. -/
theorem corrupt_until_end :
    (∀ bs header, Png.inspect bs = .ok header → ∃ n ≤ bs.length,
      (∃ stream : Png.Datastream, stream.Describes header ∧ bs.take n = stream.bytes) ∧
      (∀ m < n, ∃ fault reason, Png.inspect (bs.take m) = .error fault ∧
        fault.toDecodeError = .corrupt .png reason ∧
        Png.decode (bs.take m) = .error (.corrupt .png reason)) ∧
      ∀ tail, Png.inspect (bs.take n ++ tail) = .ok header) ∧
    (∀ bs header, Jpeg.inspect bs = .ok header → ∃ n ≤ bs.length,
      (∃ stream : Jpeg.Stream, stream.Describes header ∧ Jpeg.ClosedScan stream.scan ∧
        bs.take n = stream.bytes) ∧
      (∀ m < n, ∃ fault reason, Jpeg.inspect (bs.take m) = .error fault ∧
        fault.toDecodeError = .corrupt .jpeg reason ∧
        Jpeg.decode (bs.take m) = .error (.corrupt .jpeg reason)) ∧
      ∀ tail, Jpeg.inspect (bs.take n ++ tail) = .ok header) := by
  constructor
  · intro bs header h
    obtain ⟨n, hLe, hFound, hBefore, hAlone⟩ :=
      exists_extent (fun _ => Png.inspect_append) (fun _ => trivial) h
    refine ⟨n, hLe, ?_, ?_, ?_⟩
    · exact Png.exists_datastream_eq hFound hAlone
    · intro m hm
      obtain ⟨fault, hFault, hOpen⟩ := hBefore m hm
      have hCorrupt := Png.toDecodeError_of_not_settled hOpen
      refine ⟨fault, _, hFault, hCorrupt, ?_⟩
      rw [Png.decode_of_inspect hFault, hCorrupt]
    · intro tail
      rw [Png.inspect_append (by rw [hFound]; trivial), hFound]
  · intro bs header h
    obtain ⟨n, hLe, hFound, hBefore, hAlone⟩ :=
      exists_extent (fun _ => Jpeg.inspect_append) (fun _ => trivial) h
    refine ⟨n, hLe, ?_, ?_, ?_⟩
    · exact Jpeg.exists_closed_stream hFound hAlone
    · intro m hm
      obtain ⟨fault, hFault, hOpen⟩ := hBefore m hm
      have hCorrupt := Jpeg.toDecodeError_of_not_settled hOpen
      refine ⟨fault, _, hFault, hCorrupt, ?_⟩
      rw [Jpeg.decode_of_inspect hFault, hCorrupt]
    · intro tail
      rw [Jpeg.inspect_append (by rw [hFound]; trivial), hFound]

/-- What is accepted with anything after it is longer than what is refused. -/
theorem lt_of_refused {ε α : Type} {inspect : Bytes → Except ε α} {bs : Bytes} {found : α}
    {m n : Nat} (hAfter : ∀ tail, inspect (bs.take n ++ tail) = .ok found)
    (hRefused : (inspect (bs.take m)).isOk = false) : m < n := by
  refine Nat.lt_of_not_le fun hLe => ?_
  have hTake : bs.take m = bs.take n ++ (bs.take m).drop n := by
    have hSplit := (List.take_append_drop n (bs.take m)).symm
    rwa [List.take_take, Nat.min_eq_left hLe] at hSplit
  rw [hTake, hAfter] at hRefused
  cases hRefused

/-- A JPEG whose only frame header is of a single pixel, in 21 bytes. -/
def Spot.content : Bytes :=
  [0xFF, 0xD8, 0xFF, 0xC0, 0x00, 0x08, 0x08, 0x00, 0x01, 0x00, 0x01, 0x00,
    0xFF, 0xDA, 0x00, 0x02, 0x12, 0xFF, 0x00, 0xFF, 0xD9]

/-- Of a PNG the last byte is cut off, and of a JPEG the last byte of the marker that ends it. -/
theorem corrupt_until_end_by_one : ∃ header reason frame why,
    Png.inspect (Dot.content ++ [0xFF]) = .ok header ∧
    Png.decode (Dot.content.take 69) = .error (.corrupt .png reason) ∧
    Jpeg.inspect (Spot.content ++ [0xFF]) = .ok frame ∧
    Jpeg.decode (Spot.content.take 20) = .error (.corrupt .jpeg why) := by
  have hPng : (Png.inspect (Dot.content ++ [0xFF])).isOk = true := by decide +kernel
  have hPngCut : (Png.inspect ((Dot.content ++ [0xFF]).take 69)).isOk = false := by decide +kernel
  have hJpeg : (Jpeg.inspect (Spot.content ++ [0xFF])).isOk = true := by decide +kernel
  have hJpegCut : (Jpeg.inspect ((Spot.content ++ [0xFF]).take 20)).isOk = false := by
    decide +kernel
  cases hHeader : Png.inspect (Dot.content ++ [0xFF]) with
  | error fault =>
      rw [hHeader] at hPng
      cases hPng
  | ok header =>
      cases hFrame : Jpeg.inspect (Spot.content ++ [0xFF]) with
      | error fault =>
          rw [hFrame] at hJpeg
          cases hJpeg
      | ok frame =>
          obtain ⟨n, _, _, hBefore, hAfter⟩ := corrupt_until_end.1 _ header hHeader
          obtain ⟨_, reason, _, _, hDecode⟩ := hBefore 69 (lt_of_refused hAfter hPngCut)
          obtain ⟨k, _, _, hBefore', hAfter'⟩ := corrupt_until_end.2 _ frame hFrame
          obtain ⟨_, why, _, _, hDecode'⟩ := hBefore' 20 (lt_of_refused hAfter' hJpegCut)
          exact ⟨header, reason, frame, why, rfl, hDecode, rfl, hDecode'⟩

end ImagePlacement
