import ImagePlacement.Css.Sheet
import ImagePlacement.Svg.Link
import ImagePlacement.Svg.Property

namespace ImagePlacement.Svg

open Xml (Spot)

/-- The namespace of drawings. -/
def space : String := Xml.Scope.standard "2000/svg"

/-- The namespace of links. -/
def linkSpace : String := Xml.Scope.standard "1999/xlink"

/-- An element of a drawing with the settings that its attributes and the styles give it. An
element that uses another one holds a copy of it. -/
inductive Item where
  | mk (tag : String) (settings : Settings) (items : List Item)

namespace Item

def tag : Item → String
  | mk tag _ _ => tag

def settings : Item → Settings
  | mk _ settings _ => settings

def items : Item → List Item
  | mk _ _ items => items

/-- The elements of drawings. Others are left out with all that is in them. -/
def tags : List String :=
  ["a", "circle", "clipPath", "defs", "ellipse", "feBlend", "feColorMatrix", "feComponentTransfer",
    "feComposite", "feConvolveMatrix", "feDiffuseLighting", "feDisplacementMap", "feDistantLight",
    "feDropShadow", "feFlood", "feFuncA", "feFuncB", "feFuncG", "feFuncR", "feGaussianBlur",
    "feImage", "feMerge", "feMergeNode", "feMorphology", "feOffset", "fePointLight",
    "feSpecularLighting", "feSpotLight", "feTile", "feTurbulence", "filter", "g", "image", "line",
    "linearGradient", "marker", "mask", "path", "pattern", "polygon", "polyline",
    "radialGradient", "rect", "stop", "style", "svg", "switch", "symbol", "text", "textPath",
    "tref", "tspan", "use"]

/-- The name of an element of drawings. -/
def tagOf? (e : Xml.Element) : Option String :=
  if (e.name.space.all (· = space)) && tags.contains e.name.name then some e.name.name else none

/-- How many elements a drawing may have, copies included. -/
def maxCount : Nat := 1000000

/-- How deep elements may stand in each other. Each use of another element counts twice. -/
def maxDepth : Nat := 1025

/-- A document as far as the elements of its drawing depend on it. -/
structure Context where
  rules : List Css.Rule
  /-- Elements by their identifiers. Of several with one identifier the first counts. -/
  named : List (String × Spot)

namespace Context

/-- The styles that a document holds. -/
private def sheets (all : List Spot) : List String :=
  all.filterMap fun s =>
    let kind := (s.element.value? "type").getD ""
    if s.element.name.name = "style" ∧ (kind = "" ∨ kind = "text/css") then some s.element.lead
    else none

def ofRoot (root : Xml.Element) : Context :=
  let all := Spot.ofRoot root :: (Spot.ofRoot root).descendants
  { rules := Css.Rule.listOfAll (sheets all)
    named := all.filterMap fun s => (s.element.value? "id").map fun id => (id, s) }

/-- The element that another one refers to. -/
def target? (c : Context) (s : Spot) : Option Spot := do
  let text ← (s.element.attributes.lookup ⟨some linkSpace, "href"⟩).or (s.element.value? "href")
  c.named.lookup (← Link.ofReference? text)

/-- The element that a use copies, where the copy that it stands in has been made for the one at
`origin`. None may come to hold itself. -/
def used? (c : Context) (origin : List Nat) (s : Spot) : Option Spot := do
  let target ← c.target? s
  let isUse (t : Spot) : Bool := t.element.name = ⟨some space, "use"⟩
  let leadsBack (t : Spot) : Bool :=
    (c.target? t).any fun u => u.place = s.place || u.place = target.place
  if target.place = s.place ∨ target.place = origin then none
  else if target.descendants.any fun t => isUse t && leadsBack t then none
  else some target

/-- The settings of an element: attributes, then styles for it, then its own style. Copies have
no identifiers. -/
def settings (c : Context) (isCopy : Bool) (around : List Settings) (s : Spot) : Settings :=
  let attributes := s.element.attributes.filterMap fun (name, value) =>
    if name.space ∉ [none, some space, some linkSpace, some Xml.Scope.xml] then none
    else if name.name = "style" ∨ name.name = "class" ∨ Property.isStyledOnly name.name then none
    else if isCopy && name.name = "id" then none
    else Property.setting? around name.name value false
  let declarations := Css.Rule.declarationsFor c.rules s ++
    ((s.element.value? "style").map Css.Declaration.listOf).getD []
  declarations.foldl (Settings.declare around) attributes

/-- The items of some elements that stand in one parent, and the number of items after they have
been added. `levels` is how much deeper elements may stand, `origin` is the place of the use that
a copy is made for, and `around` are the settings of the elements around. -/
def itemsOf? (c : Context) : (levels : Nat) → (origin : List Nat) → (isCopy : Bool) →
    (around : List Settings) → (spots : List Spot) → (count : Nat) → Option (List Item × Nat)
  | 0, _, _, _, spots, count => if spots.isEmpty then some ([], count) else none
  | levels + 1, origin, isCopy, around, spots, count => do
    let (done, count) ← spots.foldlM (fun (state : List Item × Nat) s =>
      let (done, count) := state
      match tagOf? s.element with
      | none | some "style" => some state
      | some tag =>
        if maxCount < count then none
        else do
          let tag := if tag = "a" then "g" else tag
          let own := c.settings isCopy around s
          let (items, count) ← match tag with
            | "text" => some ([], count + 1)
            | "use" =>
              match c.used? origin s, levels with
              | none, _ => some ([], count + 1)
              | some _, 0 => none
              | some target, deeper + 1 =>
                itemsOf? c deeper s.place true (own :: around) [target] (count + 1)
            | _ =>
              if levels = 0 ∧ s.element.lead ≠ "" then none
              else itemsOf? c levels origin isCopy (own :: around) s.children (count + 1)
          some (.mk tag own items :: done, count)) ([], count)
    return (done.reverse, count)
termination_by structural levels => levels

end Context

/-- The item of a document's root with all that is in it. -/
def ofRoot? (root : Xml.Element) : Option Item := do
  let (items, _) ← (Context.ofRoot root).itemsOf? maxDepth [] false [] [Spot.ofRoot root] 1
  match items with
  | [item] => if item.tag = "svg" then some item else none
  | _ => none

end Item

end ImagePlacement.Svg
