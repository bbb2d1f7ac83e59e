import ImagePlacement.Svg.Effect
import ImagePlacement.Svg.Shape
import ImagePlacement.Svg.Vertex

namespace ImagePlacement.Svg

/-- The boxes of something that is drawn: in the space around it and in the whole drawing. -/
structure Drawn where
  own : Bounds
  placed : Bounds

namespace Drawn

/-- A group of drawn things under a map. An empty group is a point. -/
def group (m : Affine) (members : List Drawn) : Drawn :=
  let own := (Bounds.unionAll? (members.map own)).getD .zero
  { own := (m.applyBounds? own).getD own
    placed := (Bounds.unionAll? (members.map placed)).getD .zero }

/-- The box around several drawn things, if it has an inside. -/
def box? (members : List Drawn) : Option Bounds :=
  (Bounds.unionAll? (members.map own)).filter Bounds.isSolid

end Drawn

/-- What the items around one mean for it. -/
structure Surroundings where
  room : Room
  /-- The sides that a use gives to what it uses. -/
  useWidth : Option Float32
  useHeight : Option Float32
  /-- What is drawn is the inside of a clip. -/
  isClip : Bool
  /-- The places of the markers that are being drawn. -/
  markers : List (List Nat)

/-- A drawing with what its items refer to. -/
structure Scene where
  /-- Figures by their identifiers. Of several with one identifier the last counts. -/
  named : List (String × Figure)
  /-- The places of items whose clips would come to hold themselves, which have none. -/
  unclipped : List (List Nat)
  /-- The same for masks. -/
  unmasked : List (List Nat)
  /-- The sides of the picture that a reference holds. -/
  pictureSides? : String → Option (Float32 × Float32)

namespace Scene

/-- The figure that a value such as `url(#name)` refers to. -/
def target? (s : Scene) (value : Option String) : Option Figure :=
  (value.bind Link.ofCall?).bind fun name => s.named.lookup name

/-- A reference from one place to another. -/
private abbrev Reference := List Nat × List Nat

/-- A reference that makes one of `holders` hold itself: from inside of it to it, or from inside
of something that is referred to from inside of it. -/
private def selfHolding? (holders : List (List Nat)) (references : List Reference) :
    Option (List Nat) :=
  let inside (outer : List Nat) : List Reference := references.filter fun r => outer.isSuffixOf r.1
  holders.findSome? fun holder =>
    (inside holder).findSome? fun r =>
      if r.2 = holder then some r.1
      else ((inside r.2).find? fun r => r.2 = holder).map (·.1)

/-- The places of references that have to go so that nothing holds itself. Each round removes
one. -/
private def cuts (holders : List (List Nat)) : Nat → List Reference → List (List Nat)
  | 0, _ => []
  | rounds + 1, references =>
    match selfHolding? holders references with
    | none => []
    | some place => place :: cuts holders rounds (references.filter fun r => r.1 ≠ place)

/-- The scene of a drawing. -/
def ofRoot (pictureSides? : String → Option (Float32 × Float32)) (root : Item) : Scene :=
  let all := (Figure.ofRoot root).all
  let named := (all.filterMap fun f => (f.value? "id").map fun id => (id, f)).reverse
  let scene : Scene := ⟨named, [], [], pictureSides?⟩
  let cutsOf (tag property : String) : List (List Nat) :=
    let references := all.filterMap fun f =>
      (scene.target? (f.value? property)).map fun g => (f.place, g.place)
    cuts ((all.filter (·.tag = tag)).map Figure.place) references.length references
  ⟨named, cutsOf "clipPath" "clip-path", cutsOf "mask" "mask", pictureSides?⟩

/-- The clip of a figure, or what stands in its place. -/
def clip? (s : Scene) (f : Figure) : Option Figure :=
  if s.unclipped.contains f.place then none else s.target? (f.value? "clip-path")

/-- The mask of a figure, or what stands in its place. -/
def mask? (s : Scene) (f : Figure) : Option Figure :=
  if s.unmasked.contains f.place then none else s.target? (f.value? "mask")

end Scene

/-- How the parts of a drawing are drawn that stand one step deeper than the part at hand. -/
structure Brush where
  /-- What a figure draws under a map. -/
  draw : Surroundings → Affine → Figure → List Drawn
  /-- Whether a figure can clip something with the given box. -/
  clips : Surroundings → Figure → Option Bounds → Bool
  /-- Whether a figure can mask something with the given box. -/
  masks : Surroundings → Figure → Option Bounds → Bool

namespace Brush

/-- Draws nothing. -/
def none : Brush := ⟨fun _ _ _ => [], fun _ _ _ => false, fun _ _ _ => false⟩

def drawAll (b : Brush) (around : Surroundings) (m : Affine) (figures : List Figure) :
    List Drawn :=
  figures.flatMap (b.draw around m)

end Brush

/-- The members of a group once it is known what becomes of the group. -/
inductive Grouped where
  | dropped
  /-- Nothing asks for a group, so its members stand by themselves. -/
  | loose (members : List Drawn)
  | group (members : List Drawn)

/-- What a group draws under the map that is its own. -/
def Grouped.under (m : Affine) : Grouped → List Drawn
  | dropped => []
  | loose members => members
  | group members => [.group m members]

namespace Scene

/-- The opacity of a figure; all of it where none can be read. -/
private def opacity (f : Figure) : Float32 :=
  match f.lengthOf? "opacity" with
  | some ⟨n, .percent⟩ => n.toFloat32 / 100.0
  | some ⟨n, .pixel⟩ => n.toFloat32
  | _ => 1.0

/-- The ways of blending that are not the usual one. -/
private def blendModes : List String :=
  ["multiply", "screen", "overlay", "darken", "lighten", "color-dodge", "color-burn", "hard-light",
    "soft-light", "difference", "exclusion", "hue", "saturation", "color", "luminosity"]

/-- Whether a figure has an effect on its members as a whole, clips, masks and filters apart. -/
private def isWhole (around : Surroundings) (f : Figure) : Bool :=
  ["g", "use"].contains f.tag || !(f.transform around.room).isIdentity ||
    (!around.isClip && opacity f < 1.0) ||
    (f.value? "mix-blend-mode").any blendModes.contains || f.value? "isolation" = some "isolate"

/-- Whether filters apply to something with the given box: none if a filter that is referred to
is not sound and no other one takes its place. -/
private def filters? (s : Scene) (around : Surroundings) (f : Figure) (box : Option Bounds) :
    Option Bool :=
  match (f.value? "filter").filter (· ≠ "none") with
  | none => some false
  | some text =>
    match Effect.listOf? text with
    | none => some false
    | some effects =>
      let isSound : Effect → Bool
        | .link name => (s.named.lookup name).any fun g => Effect.isSound g around.room box
        | .named => box.isSome
      let isLink : Effect → Bool
        | .link _ => true
        | .named => false
      if effects.any isSound then some true
      else if effects.any isLink then none
      else some false

/-- What becomes of the members of a figure. A clip, mask or filter that is not sound drops
them. -/
def grouped (s : Scene) (b : Brush) (around : Surroundings) (f : Figure) (isForced : Bool)
    (members : List Drawn) : Grouped :=
  let box := Drawn.box? members
  let clip? := s.clip? f
  let mask? := if around.isClip then none else s.mask? f
  let filters? := if around.isClip then some false else s.filters? around f box
  match clip?.all fun g => b.clips around g box, mask?.all fun g => b.masks around g box, filters? with
  | true, true, some isFiltered =>
    if clip?.isSome || mask?.isSome || isFiltered || isForced || isWhole around f then
      .group members
    else .loose members
  | _, _, _ => .dropped

/-- The sides that a use or a nested drawing has. -/
private def sides (around : Surroundings) (f : Figure) : Float32 × Float32 :=
  let width := f.length around.room .across "width" .whole
  let height := f.length around.room .down "height" .whole
  if f.tag = "svg" then (around.useWidth.getD width, around.useHeight.getD height)
  else (width, height)

/-- Where a use or a nested drawing is moved to. -/
private def corner (around : Surroundings) (f : Figure) : Float32 × Float32 :=
  (f.length around.room .across "x" .zero, f.length around.room .down "y" .zero)

/-- The map from the view box of `content`, if it has one, into the area of a figure. -/
private def inArea (around : Surroundings) (f content : Figure) : Affine :=
  let (x, y) := corner around f
  let (width, height) := sides around f
  let moved := Affine.shift x y
  match content.viewBox? with
  | some box =>
    if isSide width && isSide height then moved.compose (box.fitted content.fit width height)
    else moved
  | none => moved

/-- Whether the area of a figure cuts off what `content` draws outside of it. -/
private def isCut (around : Surroundings) (f content : Figure) : Bool :=
  let isSized := around.useWidth.isSome || around.useHeight.isSome ||
    (f.has "width" && f.has "height")
  let (x, y) := corner around f
  let (width, height) := sides around f
  (content.value? "overflow").getD "" ∉ ["visible", "auto"] &&
    (f.tag ≠ "svg" || isSized) && isSide width && isSide height &&
    (Bounds.ofSides x y width height).isSolid

/-- The items in a figure as a group under a map in addition to its own one. -/
private def inner (s : Scene) (b : Brush) (around : Surroundings) (m : Affine) (f : Figure)
    (added : Affine) : List Drawn :=
  let m := (m.compose added).compose (f.transform around.room)
  (s.grouped b around f (!added.isIdentity) (b.drawAll around m f.children)).under added

/-- What a use draws. What is used stands in it as its only item. -/
private def used (s : Scene) (b : Brush) (around : Surroundings) (m : Affine) (f : Figure) :
    List Drawn :=
  match f.children with
  | [] => []
  | content :: _ =>
    let own := f.transform around.room
    if content.tag = "symbol" then
      if around.isClip then []
      else
        let area := inArea around f content
        let m' := m.compose own
        if isCut around f content then
          match (s.grouped b around f true (s.inner b around m' content area)).under .identity with
          | [] => []
          | members => [.group own members]
        else
          (s.grouped b around f false (s.inner b around m' content (own.compose area))).under
            .identity
    else
      let (x, y) := corner around f
      let side (name : String) (axis : Axis) : Option Float32 :=
        if f.has name then some (f.length around.room axis name .whole) else none
      let around :=
        if content.tag = "svg" then
          { around with useWidth := side "width" .across, useHeight := side "height" .down }
        else around
      s.inner b around m f (own.compose (.shift x y))

/-- What a nested drawing draws. -/
private def nested (s : Scene) (b : Brush) (around : Surroundings) (m : Affine) (f : Figure) :
    List Drawn :=
  let own := f.transform around.room
  let area := inArea around f f
  let (x, y) := corner around f
  let (width, height) := sides around f
  let room :=
    match f.viewBox?, (some (Bounds.ofSides x y width height)).filter Bounds.isSolid with
    | some box, _ | none, some box => Room.ofBox box
    | none, none => around.room
  let inside := { around with room := room }
  if isCut around f f then [.group own (s.inner b inside m f area)]
  else s.inner b inside m f (own.compose area)

/-- The marker that a figure has for vertices of a kind. -/
private def marker? (s : Scene) (f : Figure) (kind : MarkerKind) : Option Figure :=
  let name := match kind with
    | .start => "marker-start"
    | .middle => "marker-mid"
    | .finish => "marker-end"
  s.target? (f.nearest? name)

/-- The direction that a marker has at a vertex, in degrees. -/
private def direction (marker : Figure) (kind : MarkerKind) (v : Vertex) : Float32 :=
  match marker.value? "orient" with
  | some "auto" => v.angle
  | some "auto-start-reverse" =>
    if kind = .start then
      let turned := v.angle + 180.0
      if 360.0 ≤ turned then turned - 360.0 else turned
    else v.angle
  | some text =>
    match takeNumber? text.toList with
    | some (x, rest) =>
      match String.ofList rest with
      | "" | "deg" => x.toFloat32
      | "grad" => (x * 180.0 / 200.0).toFloat32
      | "rad" => (x * (180.0 / halfTurn)).toFloat32
      | "turn" => (x * 360.0).toFloat32
      | _ => 0.0
    | none => 0.0
  | none => 0.0

/-- What the markers of one kind draw along an outline. Markers ignore the maps around the
figure. -/
private def marked (s : Scene) (b : Brush) (around : Surroundings) (f : Figure) (outline : Outline)
    (kind : MarkerKind) : List Drawn :=
  match (s.marker? f kind).filter fun g => g.tag = "marker" && !around.markers.contains g.place with
  | none => []
  | some marker =>
    let factor :=
      if marker.value? "markerUnits" = some "userSpaceOnUse" then 1.0
      else
        let width := ((f.nearest? "stroke-width").bind Length.ofText?).getD ⟨1.0, .pixel⟩
        f.pixels around.room .neither width
    let side (axis : Axis) (name : String) (missing : Length) : Float32 :=
      marker.length around.room axis name missing
    let area := Bounds.ofSides (side .across "refX" .zero) (side .down "refY" .zero)
      (side .across "markerWidth" ⟨3.0, .pixel⟩) (side .down "markerHeight" ⟨3.0, .pixel⟩)
    let scale : Affine :=
      match marker.viewBox? with
      | some box =>
        let fitted := box.fitted marker.fit (area.width * factor) (area.height * factor)
        .scaling fitted.sx fitted.sy
      | none => .scaling factor factor
    let inside := { around with markers := marker.place :: around.markers }
    if !area.isSolid || !isSide factor then []
    else
      (Vertex.ofKind kind outline).filterMap fun v =>
        let turned := (Affine.shift v.point.x v.point.y).compose
          (.rotation (direction marker kind v))
        let m := (turned.compose scale).compose (.shift (-area.left) (-area.top))
        match b.drawAll inside m marker.children with
        | [] => none
        | members => some (.group m members)

/-- What a basic shape draws: itself, seen or not, and its markers. -/
private def shape (s : Scene) (b : Brush) (around : Surroundings) (m : Affine) (f : Figure) :
    List Drawn :=
  let found := do
    let outline ← f.outline? around.room
    let own ← outline.bounds?
    let placed ← outline.mappedBounds? m
    return (outline, Drawn.mk own placed)
  match found with
  | none => []
  | some (outline, drawn) =>
    let mayHave := ["line", "path", "polyline", "polygon"].contains f.tag &&
      !(f.item :: f.above).any (·.tag = "clipPath") && f.isVisible
    let kinds : List MarkerKind := [.start, .middle, .finish]
    if mayHave && kinds.any fun kind => (s.marker? f kind).isSome then
      [drawn, .group .identity (kinds.flatMap (s.marked b around f outline))]
    else [drawn]

/-- The sides of a picture that is fitted into an area. -/
private def fittedSides (fit : Fit) (width height areaWidth areaHeight : Float32) :
    Float32 × Float32 :=
  match fit with
  | .stretched => (areaWidth, areaHeight)
  | .even _ _ isCovering =>
    let across := areaHeight * width / height
    if (if isCovering then across ≤ areaWidth else areaWidth ≤ across) then
      (areaWidth, areaWidth * height / width)
    else (across, areaHeight)

/-- What a picture draws. A side that is not given is as long as the picture, or as the other side
asks for. -/
private def picture (s : Scene) (around : Surroundings) (m : Affine) (f : Figure) : List Drawn :=
  match (f.value? "href").bind s.pictureSides? with
  | none => []
  | some (width, height) =>
    let (x, y) := corner around f
    let across? := (f.lengthOf? "width").map (f.pixels around.room .across)
    let down? := (f.lengthOf? "height").map (f.pixels around.room .down)
    let (areaWidth, areaHeight) : Float32 × Float32 :=
      match across?, down? with
      | some across, some down => (across, down)
      | some across, none => (across, height * (across / width))
      | none, some down => (width * (down / height), down)
      | none, none => (width, height)
    let area := Bounds.ofSides x y areaWidth areaHeight
    let (fittedWidth, fittedHeight) := fittedSides f.fit width height area.width area.height
    let corner : Point :=
      match f.fit with
      | .stretched => ⟨x, y⟩
      | .even alongX alongY _ =>
        ⟨x + alongX.before (area.width - fittedWidth),
          y + alongY.before (area.height - fittedHeight)⟩
    let fitted := Bounds.ofSides corner.x corner.y fittedWidth fittedHeight
    if !area.isSolid || !fitted.isSolid then []
    else
      let own : Affine :=
        ⟨fitted.width / width, 0.0, 0.0, fitted.height / height, fitted.left, fitted.top⟩
      let box : Bounds := ⟨0.0, 0.0, width, height⟩
      match (m.compose own).applyBounds? box with
      | some placed => [.group own [⟨box, placed⟩]]
      | none => []

/-- What a figure draws under a map. Containers draw nothing in a clip. -/
def draw (s : Scene) (b : Brush) (around : Surroundings) (m : Affine) (f : Figure) : List Drawn :=
  let isContainer := ["g", "svg", "switch"].contains f.tag
  let isKnown := f.isShape || ["image", "text", "use"].contains f.tag ||
    (isContainer && !around.isClip)
  if !isKnown || !f.isShown then []
  else if f.tag = "use" then s.used b around m f
  else
    let own := f.transform around.room
    let m := m.compose own
    let members :=
      match f.tag with
      | "g" => b.drawAll around m f.children
      | "switch" => b.drawAll around m ((f.children.find? Figure.isAsked).toList)
      | "svg" => if f.above.isEmpty then b.drawAll around m f.children else s.nested b around m f
      | "image" => if around.isClip then [] else s.picture around m f
      | _ => s.shape b around m f
    if f.tag = "switch" && !f.children.any Figure.isAsked then []
    else (s.grouped b around f false members).under own

/-- Whether a figure can clip something with the given box. It has to be a clip that draws
something, and so has its own clip. -/
def clips (s : Scene) (b : Brush) (around : Surroundings) (f : Figure) (box : Option Bounds) :
    Bool :=
  let isRegular := !f.has "transform" || f.matrix?.any Affine.isRegular
  let needsBox := f.units "clipPathUnits" .ofUser = .ofBox
  let inside := { around with isClip := true }
  f.tag = "clipPath" && isRegular && (box.isSome || !needsBox) &&
    (s.clip? f).all (fun g => b.clips around g box) &&
    !(b.drawAll inside .identity f.children).isEmpty

/-- Whether a figure can mask something with the given box. It has to be a mask that draws
something, unless it masks all because there is no box. -/
def masks (s : Scene) (b : Brush) (around : Surroundings) (f : Figure) (box : Option Bounds) :
    Bool :=
  let units := f.units "maskUnits" .ofBox
  let needsBox := f.units "maskContentUnits" .ofUser = .ofBox
  let m := if needsBox then (box.map Affine.ofUnit).getD .identity else .identity
  f.tag = "mask" && (f.region? units around.room).isSome && (box.isSome || !needsBox) &&
    (s.mask? f).all (fun g => b.masks around g box) &&
    ((units = .ofBox && box.isNone) || !(b.drawAll around m f.children).isEmpty)

/-- How a scene is drawn down to some depth. -/
def brush (s : Scene) : Nat → Brush
  | 0 => .none
  | depth + 1 =>
    let b := brush s depth
    ⟨s.draw b, s.clips b, s.masks b⟩

end Scene

/-- What a drawing draws in the room that its own size gives. Figures stand in or refer to each
other at most as deep as there are figures. -/
def drawnIn (pictureSides? : String → Option (Float32 × Float32)) (room : Room) (root : Item) :
    List Drawn :=
  let f := Figure.ofRoot root
  let brush := (Scene.ofRoot pictureSides? root).brush (f.all.length + 1)
  brush.draw ⟨room, none, none, false, []⟩ .identity f

end ImagePlacement.Svg
