import ImagePlacement.Checksum.Crc32
import ImagePlacement.Png.Chunk
import ImagePlacement.Png.Form

namespace ImagePlacement.Png

/-- Whether a chunk has the checksum of its kind and data. -/
def Chunk.isIntact (c : Chunk) : Bool :=
  Bytes.toNat c.checksum == (Crc32.ofBytes (c.kind ++ c.data)).toNat

/-- What the chunks before the pixels say to a decoder. -/
structure Preamble where
  form : Form
  /-- The kinds of the chunks that count once and have been met. -/
  seen : List Bytes
  /-- The number of the last description of a frame. -/
  frame : Option Nat
  /-- Bytes that are kept from chunks. -/
  kept : Nat

namespace Preamble

def hasPalette (p : Preamble) : Bool := p.seen.contains Chunk.palette

def isTransparent (p : Preamble) : Bool := p.seen.contains Chunk.transparency

/-- Takes the palette: one at most, of one to 256 colours, and intact. -/
def addPalette? (p : Preamble) (c : Chunk) : Option Preamble :=
  if p.hasPalette || !c.isIntact || c.data.length < 3 || 768 < c.data.length then none
  else some { p with seen := c.kind :: p.seen, kept := p.kept + c.data.length }

/-- Takes what makes colours transparent, if it fits the form. Indices need the palette
first. -/
def addTransparency (p : Preamble) (c : Chunk) : Preamble :=
  let fits := match p.form.colour with
    | 0 => decide (2 ≤ c.data.length)
    | 2 => decide (6 ≤ c.data.length)
    | 3 => p.hasPalette
    | _ => false
  if fits && !p.isTransparent then
    { p with seen := c.kind :: p.seen, kept := p.kept + c.data.length }
  else p

/-- Whether the description of a frame is sound that is the image itself: two numbers for its
size, which is the size of the image, two for its place, which is the origin, two for its
duration, and how it is disposed of and blended. -/
def isWholeFrame (size : PixelSize) (data : Bytes) : Bool :=
  let number (place length : Nat) : Nat := Bytes.toNat ((data.drop place).take length)
  26 ≤ data.length && number 4 4 = size.width.toNat && number 8 4 = size.height.toNat &&
    number 12 4 = 0 && number 16 4 = 0 && number 24 1 ≤ 2 && number 25 1 ≤ 1

/-- Takes the description of a frame. They are numbered from zero. -/
def addFrame? (p : Preamble) (data : Bytes) : Option Preamble :=
  let number := Bytes.toNat (data.take 4)
  let expected := match p.frame with
    | none => 0
    | some n => n + 1
  if number = expected && isWholeFrame p.form.size data then some { p with frame := some number }
  else none

/-- Takes the first chunk of a kind that has `length` bytes and no more. Shorter ones are
skipped. -/
def addExact? (p : Preamble) (c : Chunk) (length : Nat) (isSound : Bool) : Option Preamble :=
  if p.seen.contains c.kind || c.data.length < length then some p
  else if c.data.length = length ∧ isSound then some { p with seen := c.kind :: p.seen }
  else none

/-- What is known after one more chunk. Unknown critical chunks are refused. A chunk that is
not critical is skipped if it cannot be used, with few exceptions, and its checksum does
not matter. -/
def add? (p : Preamble) (c : Chunk) : Option Preamble :=
  if c.kind = Chunk.palette then p.addPalette? c
  else if c.isCritical then none
  else if c.kind = Chunk.transparency then some (p.addTransparency c)
  else if c.kind = Chunk.frameControl then p.addFrame? c.data
  else if c.kind = Chunk.codePoints then
    if p.hasPalette then some p
    else p.addExact? c 4 (c.data.getD 2 0 = 0 && c.data.getD 3 0 ≤ 1)
  else if c.kind = Chunk.masteringVolume then
    if p.hasPalette then some p else p.addExact? c 24 true
  else if c.kind = Chunk.contentLight then p.addExact? c 8 true
  else some p

/-- What the header chunk says, which must be intact. -/
def start? (c : Chunk) : Option Preamble :=
  if c.kind = Chunk.header && c.isIntact then
    (Form.ofData? c.data).map fun form => ⟨form, [], none, 0⟩
  else none

/-- Whether the pixels begin with a chunk of a kind and a length. The data of a frame counts if
its description has come before. -/
def opensData (p : Preamble) (kind : Bytes) (length : Nat) : Option Bool :=
  if kind = Chunk.imageData then some true
  else if kind = Chunk.frameData then if p.frame.isSome ∧ 4 ≤ length then some true else none
  else some false

/-- What the chunks before the pixels say, those before included, and the stream from the pixels
on. -/
def follow? (p : Option Preamble) (bs : Bytes) : Option (Preamble × Bytes) :=
  match Chunk.lead? bs with
  | none => none
  | some (length, kind, _) =>
    match p.map fun p => (p, p.opensData kind length) with
    | some (_, none) => none
    | some (p, some true) => some (p, bs)
    | _ =>
      match _hChunk : Chunk.split? bs with
      | none => none
      | some (c, rest) =>
        match p.elim (start? c) fun p => p.add? c with
        | none => none
        | some p => follow? (some p) rest
termination_by bs.length
decreasing_by
  have hLength := Chunk.split?_length _hChunk
  simp only [Chunk.size] at hLength
  omega

/-- The most memory that a decoder takes: 512 MiB. -/
def budget : Nat := 512 * 1024 * 1024

/-- Whether what is kept and a row of expanded pixels fit into the memory, and every byte of the
image has an address. -/
def fits (p : Preamble) : Bool :=
  let width := p.form.size.width.toNat
  p.kept + p.form.expandedBytes p.isTransparent width ≤ budget &&
    p.form.expandedBytes p.isTransparent (width * p.form.size.height.toNat) < UInt64.size

/-- Whether all expanded pixels fit into the memory. -/
def fitsWhole (p : Preamble) : Bool :=
  let pixels := p.form.size.width.toNat * p.form.size.height.toNat
  p.form.expandedBytes p.isTransparent pixels ≤ budget

/-- What the chunks before the pixels of a stream say, and the stream from the pixels on. -/
def ofStream? (bs : Bytes) : Option (Preamble × Bytes) :=
  (follow? none bs).filter fun found => found.1.fits

end Preamble

end ImagePlacement.Png
