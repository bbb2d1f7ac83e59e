import ImagePlacement.Css.Declaration
import ImagePlacement.Svg.Length

namespace ImagePlacement.Svg

/-- A value that an element gives to an attribute or a property. -/
structure Setting where
  name : String
  value : String
  isImportant : Bool
  deriving DecidableEq, Repr

/-- The settings of an element. Of several with one name the first counts. -/
abbrev Settings := List Setting

namespace Settings

def value? (settings : Settings) (name : String) : Option String :=
  (settings.find? (·.name = name)).map Setting.value

/-- Settings with one more. It takes the place of an earlier one of its name unless that one is
important. -/
def insert (s : Setting) : Settings → Settings
  | [] => [s]
  | t :: rest =>
    if t.name = s.name then (if t.isImportant then t else s) :: rest else t :: insert s rest

end Settings

namespace Property

/-- The properties that elements take from those around them, as far as they bear on what is
drawn. -/
def isInherited (name : String) : Bool :=
  ["font-size", "marker-end", "marker-mid", "marker-start", "paint-order", "stroke-width",
    "visibility"].contains name

/-- The properties that are set for one element alone, as far as they bear on what is drawn. -/
def isOwn (name : String) : Bool :=
  ["clip-path", "display", "filter", "isolation", "mask", "mix-blend-mode", "opacity", "overflow",
    "transform", "transform-origin"].contains name

/-- Whether a style may set something. -/
def isStyled (name : String) : Bool := isInherited name || isOwn name

/-- The properties that only a style may set. -/
def isStyledOnly (name : String) : Bool := ["isolation", "mix-blend-mode"].contains name

/-- What a property is where nothing gives it a value, for those that may be asked to be as they
are around. -/
def initial? (name : String) : Option String :=
  match name with
  | "clip-path" | "filter" | "mask" | "marker-end" | "marker-mid" | "marker-start" => some "none"
  | "opacity" | "stroke-width" => some "1"
  | "display" => some "inline"
  | "font-size" => some "medium"
  | "overflow" | "visibility" => some "visible"
  | _ => none

/-- What the word `inherit` means for a property, where the settings around are given, the
nearest first. Properties of one element alone are taken from the next one only. -/
def inherited? (name : String) (around : List Settings) : Option String :=
  let given := (if isInherited name then around else around.take 1).findSome? (·.value? name)
  given.or (initial? name)

/-- The setting that a value makes, if it makes one. -/
def setting? (around : List Settings) (name value : String) (isImportant : Bool) :
    Option Setting :=
  if value = "inherit" ∧ (initial? name).isSome then
    (inherited? name around).map fun value => ⟨name, value, isImportant⟩
  else some ⟨name, value, isImportant⟩

end Property

namespace FontSize

/-- The words before the size of a font, of which there are four at most. -/
private def skipWords (text : List Char) : Nat → List Char
  | 0 => text
  | n + 1 =>
    let (word, rest) := takeWord text
    if ["normal", "small-caps", "italic", "oblique", "bold", "bolder", "lighter", "100", "200",
        "300", "400", "500", "600", "700", "800", "900", "ultra-condensed", "extra-condensed",
        "condensed", "semi-condensed", "semi-expanded", "expanded", "extra-expanded",
        "ultra-expanded"].contains word then
      skipWords (skipSpaces rest) n
    else text

/-- The size in a description of a font: words for its shape, the size, perhaps a slash and the
height of lines, and the family. -/
def ofFont? (text : String) : Option String := do
  let text := skipWords (skipSpaces text.toList) 4
  let rest ← if (text.head?.map Char.isDigit).getD false then (Length.take? text).map (·.2)
    else
      let (word, rest) := takeWord text
      if isNamed word then some rest else none
  let size := text.take (text.length - rest.length)
  let rest ← match skipSpaces rest with
    | '/' :: rest => (Length.take? rest).map fun found => skipSpaces found.2
    | rest => some rest
  if rest = [] then none else return String.ofList size

end FontSize

namespace Settings

/-- The settings after a declaration of a style. Some names stand for several properties. -/
def declare (around : List Settings) (settings : Settings) (d : Css.Declaration) : Settings :=
  let put (settings : Settings) (name value : String) : Settings :=
    match Property.setting? around name value d.isImportant with
    | some s => settings.insert s
    | none => settings
  match d.name with
  | "marker" =>
    ["marker-start", "marker-mid", "marker-end"].foldl (fun s name => put s name d.value) settings
  | "font" =>
    match FontSize.ofFont? d.value with
    | some size => put settings "font-size" size
    | none => settings
  | name => if Property.isStyled name then put settings name d.value else settings

end Settings

end ImagePlacement.Svg
