import ImagePlacement.Svg.Arc
import ImagePlacement.Svg.Number

namespace ImagePlacement.Svg.Outline

/-- Places with both numbers, as many as can be read. -/
def takePlaces (rounds : Nat) (text : List Char) : List Place :=
  match rounds, takeNumbers? text 2 with
  | rounds + 1, some ([x, y], rest) => ⟨x, y⟩ :: takePlaces rounds rest
  | _, _ => []

/-- How path data goes on from one command to the next. -/
structure Pen where
  /-- Where the last command ended. -/
  here : Place
  /-- Where the current part of the path began. -/
  origin : Place
  /-- The last command closed a part. -/
  isClosed : Bool
  /-- The last control point of a cubic curve that has just been drawn. -/
  cubic : Option Place
  /-- The control point of a quadratic curve that has just been drawn. -/
  quadratic : Option Place
  /-- The steps so far, the last one first. -/
  drawn : List Segment

namespace Pen

def start : Pen := ⟨⟨0.0, 0.0⟩, ⟨0.0, 0.0⟩, false, none, none, []⟩

/-- The pen after steps that end at a place. After a part has been closed, drawing begins with a
move to where that part began. -/
def draw (pen : Pen) (segments : List Segment) (p : Place) : Pen :=
  let drawn := if pen.isClosed then .move pen.origin.toPoint :: pen.drawn else pen.drawn
  { pen with
    here := p, isClosed := false, cubic := none, quadratic := none
    drawn := segments.reverse ++ drawn }

/-- The pen after a move. -/
def moveTo (pen : Pen) (p : Place) : Pen :=
  ⟨p, p, false, none, none, .move p.toPoint :: pen.drawn⟩

/-- The pen after a part has been closed, which counts once. -/
def close (pen : Pen) : Pen :=
  let drawn := if pen.isClosed then pen.drawn else .close :: pen.drawn
  ⟨pen.origin, pen.origin, true, none, none, drawn⟩

/-- The place opposite to another one, seen from where the pen is. -/
def mirrored (pen : Pen) (p : Option Place) : Place :=
  match p with
  | some p => ⟨2.0 * pen.here.x - p.x, 2.0 * pen.here.y - p.y⟩
  | none => pen.here

/-- The pen after a command with its numbers. Lower case means places relative to the pen. -/
def run (pen : Pen) (command : Char) (numbers : List Float) : Pen :=
  let base : Place := if command.isLower then pen.here else ⟨0.0, 0.0⟩
  let place (x y : Float) : Place := base.add ⟨x, y⟩
  match command.toLower, numbers with
  | 'm', [x, y] => pen.moveTo (place x y)
  | 'l', [x, y] => let p := place x y; pen.draw [.line p.toPoint] p
  | 'h', [x] => let p := ⟨base.x + x, pen.here.y⟩; pen.draw [.line p.toPoint] p
  | 'v', [y] => let p := ⟨pen.here.x, base.y + y⟩; pen.draw [.line p.toPoint] p
  | 'c', [a, b, c, d, x, y] =>
    let control := place c d
    let p := place x y
    { pen.draw [.cubic (place a b).toPoint control.toPoint p.toPoint] p with cubic := some control }
  | 's', [c, d, x, y] =>
    let first := pen.mirrored pen.cubic
    let control := place c d
    let p := place x y
    { pen.draw [.cubic first.toPoint control.toPoint p.toPoint] p with cubic := some control }
  | 'q', [c, d, x, y] =>
    let control := place c d
    let p := place x y
    { pen.draw [.quadratic control.toPoint p.toPoint] p with quadratic := some control }
  | 't', [x, y] =>
    let control := pen.mirrored pen.quadratic
    let p := place x y
    { pen.draw [.quadratic control.toPoint p.toPoint] p with quadratic := some control }
  | 'a', [rx, ry, rotation, large, sweep, x, y] =>
    let p := place x y
    let arc : Arc := ⟨pen.here, p, rx, ry, radians rotation, large != 0.0, sweep != 0.0⟩
    pen.draw arc.steps p
  | _, _ => pen.close

end Pen

/-- A flag, which is one digit, and the text after it. One comma and white space may follow. -/
private def takeFlag? (text : List Char) : Option (Float × List Char) :=
  let after (rest : List Char) : List Char :=
    match rest with
    | ',' :: rest => skipSpaces rest
    | _ => skipSpaces rest
  match skipSpaces text with
  | '0' :: rest => some (0.0, after rest)
  | '1' :: rest => some (1.0, after rest)
  | _ => none

/-- The numbers of an arc, and the text after them. -/
private def takeArc? (text : List Char) : Option (List Float × List Char) := do
  let (shape, rest) ← takeNumbers? text 3
  let (large, rest) ← takeFlag? rest
  let (sweep, rest) ← takeFlag? rest
  let (finish, rest) ← takeNumbers? rest 2
  return (shape ++ [large, sweep] ++ finish, rest)

/-- The numbers that a command takes, and the text after them. -/
private def takeOperands? (command : Char) (text : List Char) : Option (List Float × List Char) :=
  match command.toLower with
  | 'm' | 'l' | 't' => takeNumbers? text 2
  | 'h' | 'v' => takeNumbers? text 1
  | 'c' => takeNumbers? text 6
  | 's' | 'q' => takeNumbers? text 4
  | 'a' => takeArc? text
  | 'z' => some ([], text)
  | _ => none

/-- The command that numbers without one belong to. -/
private def repeated? (command : Char) : Option Char :=
  match command with
  | 'M' => some 'L'
  | 'm' => some 'l'
  | 'Z' | 'z' => none
  | c => some c

/-- The pen after path data, as far as it can be read. A path begins with a move. -/
def follow (rounds : Nat) (pen : Pen) (last : Option Char) (text : List Char) : Pen :=
  match rounds, skipSpaces text with
  | 0, _ | _, [] => pen
  | rounds + 1, c :: rest =>
    let (command?, body) := if c.isAlpha then (some c, rest) else (last.bind repeated?, c :: rest)
    match command? with
    | none => pen
    | some command =>
      if last.isNone && command.toLower != 'm' then pen
      else
        match takeOperands? command body with
        | none => pen
        | some (numbers, rest) => follow rounds (pen.run command numbers) (some command) rest

/-- The outline that path data draws. -/
def ofPathData? (text : String) : Option Outline :=
  ofSteps? (follow (text.length + 1) .start none text.toList).drawn.reverse

/-- Straight lines through the places that a text lists, of which there must be two. -/
def ofPlaces? (text : String) (isClosed : Bool) : Option Outline :=
  match takePlaces text.length text.toList with
  | p :: q :: rest =>
    ofSteps? (.move p.toPoint :: (q :: rest).map (fun p => .line p.toPoint) ++
      if isClosed then [.close] else [])
  | _ => none

/-- The steps of an arc between points that are not turned, in the direction of growing
angles. -/
private def corner (rx ry : Float32) (start finish : Point) : List Segment :=
  Arc.steps ⟨.ofPoint start, .ofPoint finish, rx.toFloat, ry.toFloat, 0.0, false, true⟩

/-- The outline through corners, where each arc starts at the end of the step before. -/
private def ellipseSteps (rx ry : Float32) (start : Point) : List Point → List Segment
  | [] => [.close]
  | p :: rest =>
    let steps := corner rx ry start p
    let finish := ((steps.getLast?.map Segment.points).bind List.getLast?).getD p
    steps ++ ellipseSteps rx ry finish rest

/-- The outline of an ellipse, from its rightmost point. -/
def ellipse? (cx cy rx ry : Float32) : Option Outline :=
  let start : Point := ⟨cx + rx, cy⟩
  ofSteps? (.move start :: ellipseSteps rx ry start
    [⟨cx, cy + ry⟩, ⟨cx - rx, cy⟩, ⟨cx, cy - ry⟩, ⟨cx + rx, cy⟩])

/-- The outline of a rectangle. -/
def ofBounds? (b : Bounds) : Option Outline :=
  if b.isSound then
    match b.corners with
    | p :: rest => ofSteps? (.move p :: rest.map Segment.line ++ [.close])
    | [] => none
  else none

/-- The outline of a rectangle with rounded corners. -/
def rounded? (x y width height rx ry : Float32) : Option Outline :=
  if rx == 0.0 && ry == 0.0 then ofBounds? (.ofSides x y width height)
  else
    let side (start finish : Point) : List Segment := .line start :: corner rx ry start finish
    ofSteps? (.move ⟨x + rx, y⟩ ::
      side ⟨x + width - rx, y⟩ ⟨x + width, y + ry⟩ ++
      side ⟨x + width, y + height - ry⟩ ⟨x + width - rx, y + height⟩ ++
      side ⟨x + rx, y + height⟩ ⟨x, y + height - ry⟩ ++
      side ⟨x, y + ry⟩ ⟨x + rx, y⟩ ++ [.close])

/-- The outline of a line. -/
def line? (p q : Point) : Option Outline := ofSteps? [.move p, .line q]

end ImagePlacement.Svg.Outline
