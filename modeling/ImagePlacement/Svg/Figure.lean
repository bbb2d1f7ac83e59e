import ImagePlacement.Svg.Item
import ImagePlacement.Svg.Transform
import ImagePlacement.Svg.ViewBox

namespace ImagePlacement.Svg

/-- What percentages of lengths refer to. -/
structure Room where
  width : Float32
  height : Float32

/-- The directions that lengths may have. -/
inductive Axis where
  | across
  | down
  | neither
  deriving DecidableEq, Repr

namespace Room

def ofBox (b : ViewBox) : Room := ⟨b.width, b.height⟩

/-- What all of a room is worth along an axis. -/
def extent (r : Room) : Axis → Float32
  | .across => r.width
  | .down => r.height
  | .neither => ((r.width * r.width + r.height * r.height) / 2.0).sqrt

end Room

/-- Whether lengths are fractions of the box of what they apply to. -/
inductive Units where
  | ofUser
  | ofBox
  deriving DecidableEq, Repr

/-- An item where it stands in its drawing. -/
structure Figure where
  item : Item
  /-- Its parent and further ancestors, the nearest first. -/
  above : List Item
  /-- How many items come before at each level, the innermost level first. -/
  place : List Nat

namespace Figure

def ofRoot (root : Item) : Figure := ⟨root, [], [0]⟩

def tag (f : Figure) : String := f.item.tag

/-- Items of one parent as figures. -/
def row (above : List Item) (place : List Nat) (before : Nat) : List Item → List Figure
  | [] => []
  | i :: rest => ⟨i, above, before :: place⟩ :: row above place (before + 1) rest

def children (f : Figure) : List Figure := row (f.item :: f.above) f.place 0 f.item.items

mutual

/-- An item and all items in it, in the order of their opening tags. -/
def within (above : List Item) (place : List Nat) : Item → List Figure
  | .mk tag settings items =>
    ⟨.mk tag settings items, above, place⟩ ::
      withinAll (.mk tag settings items :: above) place 0 items

def withinAll (above : List Item) (place : List Nat) (before : Nat) : List Item → List Figure
  | [] => []
  | i :: rest => within above (before :: place) i ++ withinAll above place (before + 1) rest

end

/-- A figure and all figures in it, in the order of their opening tags. -/
def all (f : Figure) : List Figure := within f.above f.place f.item

/-- The value that an item itself gives. -/
def value? (f : Figure) (name : String) : Option String := f.item.settings.value? name

def has (f : Figure) (name : String) : Bool := (f.value? name).isSome

/-- The value that an item or the nearest item around it gives. -/
def nearest? (f : Figure) (name : String) : Option String :=
  (f.item :: f.above).findSome? (·.settings.value? name)

/-- The font size in an item, from the outermost one inwards. -/
def fontSize (f : Figure) : Float32 :=
  (f.item :: f.above).foldr (fun i size =>
    match i.settings.value? "font-size" with
    | some text => FontSize.ofText size text
    | none => size) FontSize.standard

/-- The size of a length in an item. -/
def pixels (f : Figure) (room : Room) (axis : Axis) (l : Length) : Float32 :=
  match l.unit with
  | .em | .ex => l.pixels f.fontSize 0.0
  | _ => l.pixels 0.0 (room.extent axis)

/-- The length that an attribute writes. -/
def lengthOf? (f : Figure) (name : String) : Option Length := (f.value? name).bind Length.ofText?

/-- The size of an attribute's length, or of the one given where it has none. -/
def length (f : Figure) (room : Room) (axis : Axis) (name : String) (missing : Length) : Float32 :=
  f.pixels room axis ((f.lengthOf? name).getD missing)

/-- The size of an attribute's length in some units. -/
def lengthIn (f : Figure) (units : Units) (room : Room) (axis : Axis) (name : String)
    (missing : Length) : Float32 :=
  let l := (f.lengthOf? name).getD missing
  if units = .ofBox ∧ l.unit = .percent then l.number.toFloat32 / 100.0
  else f.pixels room axis l

/-- The units that an attribute names. -/
def units (f : Figure) (name : String) (missing : Units) : Units :=
  match f.value? name with
  | some "userSpaceOnUse" => .ofUser
  | some "objectBoundingBox" => .ofBox
  | _ => missing

/-- The rectangle that a mask or a filter is for. By itself it is somewhat larger than the box of
what it applies to. -/
def region? (f : Figure) (units : Units) (room : Room) : Option Bounds :=
  (some (Bounds.ofSides (f.lengthIn units room .across "x" ⟨-10.0, .percent⟩)
    (f.lengthIn units room .down "y" ⟨-10.0, .percent⟩)
    (f.lengthIn units room .across "width" ⟨120.0, .percent⟩)
    (f.lengthIn units room .down "height" ⟨120.0, .percent⟩))).filter Bounds.isSolid

def viewBox? (f : Figure) : Option ViewBox := (f.value? "viewBox").bind ViewBox.ofText?

def fit (f : Figure) : Fit := ((f.value? "preserveAspectRatio").bind Fit.ofText?).getD .standard

/-- The map that `transform` writes, if it can be read. -/
def matrix? (f : Figure) : Option Affine :=
  ((f.value? "transform").bind Matrix.ofText?).map Matrix.toAffine

/-- The map of an item, around its origin if it has one. A map that flattens does nothing. -/
def transform (f : Figure) (room : Room) : Affine :=
  let m := ((f.matrix?).filter Affine.isRegular).getD .identity
  match (f.value? "transform-origin").bind Origin.ofText? with
  | some o =>
    let x := f.pixels room .across o.x
    let y := f.pixels room .down o.y
    ((Affine.shift x y).compose m).compose (.shift (-x) (-y))
  | none => m

/-- The language of the reader. -/
def language : String := "en"

/-- The parts of a text between commas. -/
private def betweenCommas (text : List Char) : List (List Char) :=
  text.foldr (fun c parts =>
    if c = ',' then [] :: parts
    else
      match parts with
      | part :: rest => (c :: part) :: rest
      | [] => [[c]]) [[]]

/-- Whether the conditions of an item hold: nothing special is asked for, and one of its
languages is the reader's, with or without further parts. -/
def isAsked (f : Figure) : Bool :=
  let isOurs (tag : List Char) : Bool :=
    let tag := trimBlanks tag
    tag = language.toList ||
      (tag.contains '-' && tag.takeWhile (· ≠ '-') = language.toList)
  !f.has "requiredExtensions" && !f.has "requiredFeatures" &&
    (f.value? "systemLanguage").all fun text => (betweenCommas text.toList).any isOurs

/-- Whether an item takes part in the drawing with what is in it. -/
def isShown (f : Figure) : Bool :=
  f.value? "display" ≠ some "none" && f.matrix?.all Affine.isRegular && f.isAsked

/-- Whether what an item draws itself is to be seen. -/
def isVisible (f : Figure) : Bool :=
  (f.nearest? "visibility").getD "visible" ∉ ["hidden", "collapse"]

end Figure

end ImagePlacement.Svg
