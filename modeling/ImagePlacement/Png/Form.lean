import ImagePlacement.Bytes
import ImagePlacement.Image

namespace ImagePlacement.Png

/-- How the pixels of a stream are stored. -/
structure Form where
  size : PixelSize
  /-- Bits of a sample. -/
  depth : Nat
  /-- Zero for grey, 2 for colour, 3 for palette indices; 4 more with transparency. -/
  colour : Nat
  interlaced : Bool

namespace Form

/-- The depths that each kind of colour may have. -/
def depths (colour : Nat) : List Nat :=
  match colour with
  | 0 => [1, 2, 4, 8, 16]
  | 3 => [1, 2, 4, 8]
  | 2 | 4 | 6 => [8, 16]
  | _ => []

/-- The form that the data of a header chunk describes. -/
def ofData? (data : Bytes) : Option Form :=
  match data.drop 8 with
  | [depth, colour, compression, filter, interlace] =>
    let width := UInt32.ofNat (Bytes.toNat (data.take 4))
    let height := UInt32.ofNat (Bytes.toNat ((data.drop 4).take 4))
    if width = 0 ∨ height = 0 ∨ compression ≠ 0 ∨ filter ≠ 0 ∨ 1 < interlace then none
    else if (depths colour.toNat).contains depth.toNat then
      some ⟨⟨width, height⟩, depth.toNat, colour.toNat, interlace = 1⟩
    else none
  | _ => none

/-- Samples of a stored pixel. -/
def samples (f : Form) : Nat :=
  match f.colour with
  | 2 => 3
  | 4 => 2
  | 6 => 4
  | _ => 1

/-- Samples of a pixel after indices have become colours, with one more where a chunk makes some
colours transparent. -/
def expandedSamples (f : Form) (transparent : Bool) : Nat :=
  (if f.colour = 3 then 3 else f.samples) + (if transparent then 1 else 0)

/-- Bytes of a number of pixels when every sample has whole bytes. -/
def expandedBytes (f : Form) (transparent : Bool) (pixels : Nat) : Nat :=
  pixels * f.expandedSamples transparent * (if f.depth = 16 then 2 else 1)

/-- Bytes of a stored row of pixels. -/
def rowLength (f : Form) (width : Nat) : Nat := (width * f.samples * f.depth + 7) / 8

/-- The first column and row and the steps of each pass of an interlaced image. -/
def passes : List ((Nat × Nat) × (Nat × Nat)) :=
  [((0, 0), (8, 8)), ((4, 0), (8, 8)), ((0, 4), (4, 8)), ((2, 0), (4, 4)), ((0, 2), (2, 4)),
    ((1, 0), (2, 2)), ((0, 1), (1, 2))]

/-- How many of `total` places a pass takes. -/
def taken (total first step : Nat) : Nat := (total - first + step - 1) / step

/-- The widths and heights of the images that are stored one after the other. -/
def stored (f : Form) : List (Nat × Nat) :=
  let width := f.size.width.toNat
  let height := f.size.height.toNat
  if f.interlaced then
    (passes.map fun (first, step) =>
      (taken width first.1 step.1, taken height first.2 step.2)).filter
        fun (w, h) => w ≠ 0 ∧ h ≠ 0
  else [(width, height)]

/-- Bytes of all stored rows, each of which starts with a filter. -/
def storedBytes (f : Form) : Nat :=
  f.stored.foldl (fun total (w, h) => total + h * (f.rowLength w + 1)) 0

end Form

end ImagePlacement.Png
