import ImagePlacement.Arithmetic

namespace ImagePlacement

open Arithmetic

/-- The natural size of an image, in points. -/
structure Size (α : Type) where
  width : α
  height : α
  deriving DecidableEq, Repr

/-- The extents that a document asks for; an axis may be left open. -/
structure Extents (α : Type) where
  width : Option α
  height : Option α
  deriving DecidableEq, Repr

/-- The room that a page offers; an axis may be unlimited. -/
structure Region (α : Type) where
  width : Option α
  height : Option α
  deriving DecidableEq, Repr

/-- The box that an image is drawn in, and its scales relative to the natural size. -/
structure Box (α : Type) where
  width : α
  height : α
  scaleX : α
  scaleY : α
  deriving DecidableEq, Repr

/-- A request that breaks what the sizing rules take for granted. -/
inductive SizingMisuse where
  | intrinsicNotPositive
  | extentsInvalid
  deriving DecidableEq, Repr

def SizingMisuse.message : SizingMisuse → String
  | intrinsicNotPositive => "intrinsic size must be positive"
  | extentsInvalid => "explicit extents must be finite and non-negative"

variable {α : Type} [Arithmetic α]

/-- No extent is asked for. -/
def Extents.natural : Extents α := ⟨none, none⟩

/-- No axis is limited. -/
def Region.unbounded : Region α := ⟨none, none⟩

/-- Both axes are positive. -/
def Size.isPositive (s : Size α) : Bool := less zero s.width && less zero s.height

/-- A given extent must be finite and not negative. -/
def Extents.isValid (e : Extents α) : Bool :=
  let proper (extent : Option α) := extent.all fun x => isFinite x && atMost zero x
  proper e.width && proper e.height

/-- The limit that an axis of a region sets: none if it is not finite, and no room at
all if it is negative. -/
def Region.limit? (extent : Option α) : Option α :=
  (extent.filter fun x => isFinite x).map fun x => greatest x zero

/-- The limit on the width. -/
def Region.widthLimit? (r : Region α) : Option α := limit? r.width

/-- The limit on the height. -/
def Region.heightLimit? (r : Region α) : Option α := limit? r.height

/-- The scale that fits a size into a region: the smaller of what the two limited axes
allow, never above one. -/
def Size.fitScale (s : Size α) (r : Region α) : α :=
  let byWidth := (r.widthLimit?.map (· / s.width)).getD unlimited
  let byHeight := (r.heightLimit?.map (· / s.height)).getD unlimited
  least (least byWidth byHeight) one

/-- The drawn size. Given extents are taken as they are and beat the region; a missing one
follows from the natural proportions; with none given the image keeps its natural size
or shrinks to fit the region. -/
def Size.drawn (s : Size α) (e : Extents α) (r : Region α) : Size α :=
  match e.width, e.height with
  | some w, some h => ⟨w, h⟩
  | some w, none => ⟨w, w * s.height / s.width⟩
  | none, some h => ⟨h * s.width / s.height, h⟩
  | none, none => let scale := s.fitScale r; ⟨s.width * scale, s.height * scale⟩

/-- The box of an image of a given natural size. -/
def Box.fit (s : Size α) (e : Extents α) (r : Region α) : Except SizingMisuse (Box α) :=
  if !s.isPositive then .error .intrinsicNotPositive
  else if !e.isValid then .error .extentsInvalid
  else
    let drawn := s.drawn e r
    .ok ⟨drawn.width, drawn.height, drawn.width / s.width, drawn.height / s.height⟩

/-- The common scale of both axes, if they agree up to the tolerance. -/
def Box.scale? (b : Box α) : Option α :=
  if atMost (abs (b.scaleX - b.scaleY)) (tolerance * greatest (abs b.scaleX) one) then
    some b.scaleX
  else none

/-- Whether the proportions of the image were changed. -/
def Box.isStretched (b : Box α) : Bool := b.scale?.isNone

end ImagePlacement
