import ImagePlacement.Image
import ImagePlacement.Jpeg.Segment

namespace ImagePlacement.Jpeg

/-- What the segments of a stream say about its image. -/
structure Header where
  width : UInt16
  height : UInt16
  density : Option Density

/-- The size in pixels. -/
def Header.size (h : Header) : PixelSize := ⟨h.width.toUInt32, h.height.toUInt32⟩

/-- What the segments read so far say. -/
structure Survey where
  size : Option (UInt16 × UInt16)
  density : Option Density

/-- Centimetres in an inch. -/
def inch : Float := 2.54

/-- A byte in two capital hexadecimal digits. -/
private def hexByte (b : UInt8) : String :=
  let digit (n : Nat) : Char := Char.ofNat (if n < 10 then 48 + n else 55 + n)
  String.ofList [digit (b.toNat / 16), digit (b.toNat % 16)]

namespace Fault

def message : Fault → String
  | noStart => "missing SOI marker"
  | noMarker offset => "truncated stream at offset " ++ toString offset
  | notMarker offset found =>
    "expected marker at offset " ++ toString offset ++ ", found 0x" ++ hexByte found
  | shortMarker offset => "truncated marker at offset " ++ toString offset
  | zeroMarker offset => "invalid marker 0x00 at offset " ++ toString offset
  | repeatedStart offset => "unexpected SOI at offset " ++ toString offset
  | endBeforeScan => "EOI before start of scan"
  | shortLength offset => "truncated segment length at offset " ++ toString offset
  | lengthTooSmall length offset =>
    "segment length " ++ toString length ++ " at offset " ++ toString offset
  | shortSegment offset => "truncated segment at offset " ++ toString offset
  | repeatedFrame offset => "duplicate frame header at offset " ++ toString offset
  | shortFrame => "frame header too short"
  | noPixels .. => "no pixels"
  | scanBeforeFrame => "scan before frame header"
  | noEnd => "truncated stream: missing EOI marker"
  | noFrame => "missing frame header"

/-- An image without pixels is degenerate; every other fault is corruption. -/
def toDecodeError (f : Fault) : DecodeError :=
  match f with
  | noPixels width height => .degenerate width.toFloat height.toFloat
  | _ => .corrupt .jpeg f.message

end Fault

/-- A number of two bytes. -/
private def word (high low : UInt8) : UInt16 := UInt16.ofNat (256 * high.toNat + low.toNat)

/-- The width and height that a frame header gives. -/
def frameSize : Bytes → Except Fault (UInt16 × UInt16)
  | _ :: h₁ :: h₀ :: w₁ :: w₀ :: _ :: _ =>
    let width := word w₁ w₀
    let height := word h₁ h₀
    if width = 0 ∨ height = 0 then .error (.noPixels width height) else .ok (width, height)
  | _ => .error .shortFrame

/-- The five bytes that mark the payload of a density segment. -/
def densityMark : Bytes := [0x4A, 0x46, 0x49, 0x46, 0x00]

/-- The density that an application segment gives, in dots per inch or per centimetre, both
axes positive. Any other payload gives none. -/
def declaredDensity? (payload : Bytes) : Option Density :=
  match densityMark.isPrefixOf payload, payload.drop 7 with
  | true, unit :: x₁ :: x₀ :: y₁ :: y₀ :: _ =>
    let x := word x₁ x₀
    let y := word y₁ y₀
    if x = 0 ∨ y = 0 then none
    else if unit = 1 then some ⟨x.toFloat, y.toFloat⟩
    else if unit = 2 then some ⟨x.toFloat * inch, y.toFloat * inch⟩
    else none
  | _, _ => none

/-- Checks that a scan goes on to the end of the image. Inside it a lead byte stands before
a zero, a restart marker, another lead byte, or a segment. -/
def checkScan (offset : Nat) (bs : Bytes) : Except Fault Unit :=
  match bs with
  | [] => .error .noEnd
  | b :: rest =>
    if b ≠ Marker.lead then checkScan (offset + 1) rest
    else
      match rest with
      | [] => .error .noEnd
      | m :: more =>
        if m = 0 ∨ Marker.isRestart m then checkScan (offset + 2) more
        else if m = Marker.lead then checkScan (offset + 1) (m :: more)
        else if m = Marker.ending then .ok ()
        else if m = Marker.start then .error (.repeatedStart offset)
        else
          match _hSegment : Segment.read (offset + 2) more with
          | .error fault => .error fault
          | .ok (payload, after) => checkScan (offset + 4 + payload.length) after
termination_by bs.length
decreasing_by
  all_goals try (simp only [List.length_cons]; omega)
  have hLength := Segment.read_length _hSegment
  simp only [List.length_cons]
  omega

namespace Survey

def start : Survey := ⟨none, none⟩

/-- What is known after one more segment, whose marker stands at an offset. There is one
frame header, and the first density counts. -/
def add (s : Survey) (offset : Nat) (m : UInt8) (payload : Bytes) : Except Fault Survey :=
  if Marker.isFrame m then
    if s.size.isSome then .error (.repeatedFrame offset)
    else do return { s with size := some (← frameSize payload) }
  else if m = Marker.application then
    .ok { s with density := s.density.or (declaredDensity? payload) }
  else .ok s

/-- What is known at the end. -/
def finish (s : Survey) : Except Fault Header :=
  match s.size with
  | some (width, height) => .ok ⟨width, height, s.density⟩
  | none => .error .noFrame

/-- What the segments up to the first scan say, those before `offset` included, if the scan
goes on to the end of the image. -/
def walk (s : Survey) (offset : Nat) (bs : Bytes) : Except Fault Header :=
  match _hMarker : Marker.read offset bs with
  | .error fault => .error fault
  | .ok (m, rest) =>
    let place := offset + (bs.length - rest.length)
    if Marker.isStandalone m then s.walk place rest
    else if m = Marker.start then .error (.repeatedStart offset)
    else if m = Marker.ending then .error .endBeforeScan
    else
      match _hSegment : Segment.read place rest with
      | .error fault => .error fault
      | .ok (payload, after) =>
        let next := place + 2 + payload.length
        if m = Marker.scan then
          if s.size.isNone then .error .scanBeforeFrame
          else
            match checkScan next after with
            | .error fault => .error fault
            | .ok _ => s.finish
        else
          match s.add offset m payload with
          | .error fault => .error fault
          | .ok s => s.walk next after
termination_by bs.length
decreasing_by
  · exact Marker.read_length _hMarker
  · have hMarker := Marker.read_length _hMarker
    have hSegment := Segment.read_length _hSegment
    omega

end Survey

/-- What the segments of a stream say about its image, without a look at the pixels. -/
def inspect (bs : Bytes) : Except Fault Header :=
  match bs with
  | a :: b :: rest =>
    if a = Marker.lead ∧ b = Marker.start then Survey.start.walk 2 rest else .error .noStart
  | _ => .error .noStart

end ImagePlacement.Jpeg
