import ImagePlacement.Image
import ImagePlacement.Png.Chunk

namespace ImagePlacement.Png

/-- What the chunks of a stream say about its image. -/
structure Header where
  size : PixelSize
  density : Option Density

/-- What the chunks read so far say. -/
structure Survey where
  size : Option PixelSize
  density : Option Density
  hasData : Bool

/-- Why a stream is no sequence of chunks that makes up an image. -/
inductive Fault where
  | noSignature
  /-- The stream ends after a chunk that does not end the image. -/
  | noEnd
  | badChunk (offset : Nat) (fault : ChunkFault)
  | repeatedHeader
  | headerLength (length : Nat)
  | noPixels (size : PixelSize)
  | headerNotFirst (kind : Bytes)
  | noData
  | noHeader
  deriving DecidableEq

/-- The bytes that every stream starts with. -/
def signature : Bytes := [0x89, 0x50, 0x4E, 0x47, 0x0D, 0x0A, 0x1A, 0x0A]

/-- Metres in an inch. -/
def inch : Float := 0.0254

def ChunkFault.message (offset : Nat) : ChunkFault → String
  | shortHeader => "truncated chunk header at offset " ++ toString offset
  | lengthOutOfRange length =>
    "chunk length " ++ toString length ++ " out of range at offset " ++ toString offset
  | badKind => "invalid chunk type at offset " ++ toString offset
  | incomplete kind =>
    "truncated " ++ Bytes.toText kind ++ " chunk at offset " ++ toString offset

namespace Fault

def message : Fault → String
  | noSignature => "missing png signature"
  | noEnd => "truncated stream: missing IEND chunk"
  | badChunk offset fault => fault.message offset
  | repeatedHeader => "duplicate IHDR chunk"
  | headerLength length => "IHDR length " ++ toString length ++ " (expected 13)"
  | noPixels _ => "no pixels"
  | headerNotFirst kind => "first chunk must be IHDR, found " ++ Bytes.toText kind
  | noData => "no IDAT chunk before IEND"
  | noHeader => "missing IHDR chunk"

/-- An image without pixels is degenerate; every other fault is corruption. -/
def toDecodeError (f : Fault) : DecodeError :=
  match f with
  | noPixels size => .degenerate size.width.toFloat size.height.toFloat
  | _ => .corrupt .png f.message

end Fault

/-- Two numbers of four bytes each. -/
def pair (data : Bytes) : UInt32 × UInt32 :=
  (UInt32.ofNat (Bytes.toNat (data.take 4)), UInt32.ofNat (Bytes.toNat ((data.drop 4).take 4)))

/-- The size that the data of a header chunk gives. -/
def headerSize (data : Bytes) : Except Fault PixelSize :=
  if data.length ≠ 13 then .error (.headerLength data.length)
  else
    let (width, height) := pair data
    if width = 0 ∨ height = 0 then .error (.noPixels ⟨width, height⟩) else .ok ⟨width, height⟩

/-- The density that the data of a density chunk gives: pixels per metre on both axes, both
positive, and the unit one. Any other data gives none. -/
def declaredDensity? (data : Bytes) : Option Density :=
  if data.length = 9 ∧ data.getLast? = some 1 then
    let (x, y) := pair data
    if 0 < x ∧ 0 < y then some ⟨x.toFloat * inch, y.toFloat * inch⟩ else none
  else none

namespace Survey

def start : Survey := ⟨none, none, false⟩

/-- What is known after one more chunk. The header comes first and once, and data comes before
the end. The last density counts. -/
def add (s : Survey) (c : Chunk) : Except Fault Survey :=
  if c.kind = Chunk.header then
    if s.size.isSome then .error .repeatedHeader
    else do return { s with size := some (← headerSize c.data) }
  else if s.size.isNone then .error (.headerNotFirst c.kind)
  else if c.kind = Chunk.imageData then .ok { s with hasData := true }
  else if c.kind = Chunk.physicalSize then
    .ok { s with density := (declaredDensity? c.data).or s.density }
  else if c.kind = Chunk.ending ∧ !s.hasData then .error .noData
  else .ok s

/-- What is known at the end. -/
def finish (s : Survey) : Except Fault Header :=
  match s.size with
  | some size => .ok ⟨size, s.density⟩
  | none => .error .noHeader

/-- What the chunks up to the end of the image say, those before `offset` included. -/
def walk (s : Survey) (offset : Nat) (bs : Bytes) : Except Fault Header :=
  if bs = [] then .error .noEnd
  else
    match _hChunk : Chunk.read bs with
    | .error fault => .error (.badChunk offset fault)
    | .ok (c, rest) =>
      match s.add c with
      | .error fault => .error fault
      | .ok s => if c.kind = Chunk.ending then s.finish else s.walk (offset + c.size) rest
termination_by bs.length
decreasing_by
  have hLength := Chunk.split?_length (Chunk.split?_of_read _hChunk)
  simp only [Chunk.size] at hLength
  omega

end Survey

/-- What the chunks of a stream say about its image, without a look at the pixels. -/
def inspect (bs : Bytes) : Except Fault Header :=
  if signature.isPrefixOf bs then
    Survey.start.walk signature.length (bs.drop signature.length)
  else .error .noSignature

end ImagePlacement.Png
