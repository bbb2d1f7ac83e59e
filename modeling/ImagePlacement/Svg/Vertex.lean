import ImagePlacement.Svg.Geometry

namespace ImagePlacement.Svg

/-- Which vertices of an outline a marker stands at. -/
inductive MarkerKind where
  | start
  | middle
  | finish
  deriving DecidableEq, Repr

/-- A vertex of an outline with the directions in which the outline comes and goes on there, as
far as it has them. -/
structure Vertex where
  point : Point
  incoming : Option Point
  outgoing : Option Point

namespace Vertex

/-- The direction from one point to the first other point of several. -/
private def direction? (p : Point) (others : List Point) : Option Point :=
  (others.find? fun q => q.x != p.x || q.y != p.y).map fun q => ⟨q.x - p.x, q.y - p.y⟩

/-- The vertices of steps, in order: one at the end of each. `here` is where the step before
ended and `origin` is where its part began. -/
private def along (here origin : Point) : Outline → List Vertex
  | [] => []
  | s :: rest =>
    let points := if s.points.isEmpty then [origin] else s.points
    let finish := points.getLast?.getD here
    let incoming :=
      match s with
      | .move _ => none
      | _ => (direction? finish ((here :: points).reverse.drop 1)).map fun d => ⟨-d.x, -d.y⟩
    let origin := match s with
      | .move p => p
      | _ => origin
    let outgoing :=
      match rest with
      | .move _ :: _ | [] => none
      | .close :: _ => direction? finish [origin]
      | next :: _ => direction? finish next.points
    ⟨finish, incoming, outgoing⟩ :: along finish origin rest

/-- The vertices of an outline that markers of a kind stand at. -/
def ofKind (kind : MarkerKind) (outline : Outline) : List Vertex :=
  let all := along ⟨0.0, 0.0⟩ ⟨0.0, 0.0⟩ outline
  match kind with
  | .start => all.take 1
  | .finish =>
    match outline.getLast? with
    | none | some (.move _) => []
    | some _ => all.getLast?.toList
  | .middle =>
    ((outline.zip all).drop 1).dropLast.filterMap fun (s, v) =>
      match s with
      | .close => none
      | _ => some v

/-- Half of a full turn in radians. -/
private def halfTurn : Float32 := 3.1415927

/-- An angle from zero up to a full turn. -/
private def normal (x : Float32) : Float32 := if x < 0.0 then x + 2.0 * halfTurn else x

/-- The angle in degrees halfway between the directions of a vertex. -/
def angle (v : Vertex) : Float32 :=
  let angleOf (d : Point) : Float32 := normal (d.y.atan2 d.x)
  let middle : Float32 :=
    match v.incoming, v.outgoing with
    | some a, some b =>
      let turn := (angleOf b - angleOf a) * 0.5
      let middle := angleOf a + turn
      if halfTurn / 2.0 < turn.abs then middle - halfTurn else middle
    | some d, none | none, some d => angleOf d
    | none, none => 0.0
  normal middle * (180.0 / halfTurn)

end Vertex

end ImagePlacement.Svg
