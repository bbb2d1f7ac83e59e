import ImagePlacement.Svg.Figure

namespace ImagePlacement.Svg

/-- One item of a list of filters. -/
inductive Effect where
  /-- A filter that a drawing defines. -/
  | link (name : String)
  /-- A function of its own. -/
  | named
  deriving DecidableEq, Repr

namespace Effect

private def functions : List String :=
  ["blur", "brightness", "contrast", "drop-shadow", "grayscale", "hue-rotate", "invert", "opacity",
    "saturate", "sepia"]

/-- The filters of a list. Each takes characters, so as many rounds suffice as the text has. -/
private def listIn? (rounds : Nat) (done : List Effect) (text : List Char) : Option (List Effect) :=
  match rounds, skipSpaces text with
  | _, [] => some done.reverse
  | 0, _ => none
  | rounds + 1, text =>
    match Link.takeCall? text with
    | some (name, rest) => listIn? rounds (.link name :: done) rest
    | none =>
      let (word, rest) := takeWord text
      match functions.contains word, skipSpaces rest with
      | true, '(' :: rest =>
        match rest.dropWhile (· ≠ ')') with
        | _ :: rest => listIn? rounds (.named :: done) rest
        | [] => none
      | _, _ => none

/-- The filters that a text lists. -/
def listOf? (text : String) : Option (List Effect) := listIn? text.length [] text.toList

/-- The steps that a filter may consist of. -/
private def steps : List String :=
  ["feBlend", "feColorMatrix", "feComponentTransfer", "feComposite", "feConvolveMatrix",
    "feDiffuseLighting", "feDisplacementMap", "feDropShadow", "feFlood", "feGaussianBlur",
    "feImage", "feMerge", "feMorphology", "feOffset", "feSpecularLighting", "feTile",
    "feTurbulence"]

/-- Whether a figure is a filter that works on something with the given box: it has steps, and
what it is for can be told. -/
def isSound (f : Figure) (room : Room) (box : Option Bounds) : Bool :=
  let units := f.units "filterUnits" .ofBox
  let needsBox := units = .ofBox || f.units "primitiveUnits" .ofUser = .ofBox
  f.tag = "filter" && (f.region? units room).isSome && (box.isSome || !needsBox) &&
    f.item.items.any fun i => steps.contains i.tag

end Effect

end ImagePlacement.Svg
