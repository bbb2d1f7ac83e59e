import ImagePlacement.Xml.Reference
import ImagePlacement.Xml.Token

namespace ImagePlacement.Xml

/-- A name with the namespace that it belongs to. -/
structure ExpandedName where
  space : Option String
  name : String
  deriving DecidableEq, Repr

/-- An element with its attributes, the text that it starts with and the elements in it. Other
text is not kept. -/
inductive Element where
  | mk (name : ExpandedName) (attributes : List (ExpandedName × String)) (lead : String)
    (children : List Element)

namespace Element

def name : Element → ExpandedName
  | mk name _ _ _ => name

def attributes : Element → List (ExpandedName × String)
  | mk _ attributes _ _ => attributes

/-- The text before anything else in an element. -/
def lead : Element → String
  | mk _ _ lead _ => lead

def children : Element → List Element
  | mk _ _ _ children => children

/-- The value of an attribute without a namespace. -/
def value? (e : Element) (name : String) : Option String := e.attributes.lookup ⟨none, name⟩

end Element

/-- Namespaces by their qualifiers, the innermost first; the empty one is the default. -/
abbrev Scope := List (String × String)

namespace Scope

/-- A namespace of the standards for markup: their common address and a path below it. -/
def standard (path : String) : String := "http://www.w3.org/" ++ path

/-- The namespace that the qualifier `xml` always stands for. -/
def xml : String := standard "XML/1998/namespace"

/-- The namespace of declarations, which cannot be declared itself. -/
def declarations : String := standard "2000/xmlns/"

/-- The namespace of the qualifier of an element. One that is not declared is a fault. -/
def ofElement? (scope : Scope) (qualifier : String) : Option (Option String) :=
  match scope.lookup qualifier with
  | some space => some (some space)
  | none => if qualifier = "" then some none else none

/-- The namespace of the qualifier of an attribute. Without a qualifier there is none. -/
def ofAttribute? (scope : Scope) (qualifier : String) : Option (Option String) :=
  if qualifier = "" then some none
  else if qualifier = "xml" then some (some xml)
  else scope.ofElement? qualifier

/-- The qualifier that an attribute declares, if it declares one. -/
def declared? (name : Name) : Option String :=
  if name.qualifier = "xmlns" then some name.name
  else if name = ⟨"", "xmlns"⟩ then some ""
  else none

/-- Adds the namespaces that an element declares. A qualifier is declared once at most, and the
names of XML itself keep their meaning. -/
def declare? (own : Scope) (outer : Scope) : List (Name × String) → Option Scope
  | [] => some (own ++ outer)
  | (name, space) :: rest =>
    match declared? name with
    | none => declare? own outer rest
    | some qualifier =>
      if space = declarations ∨ (qualifier = "xml") ≠ (space = xml) ∨
          (own.lookup qualifier).isSome then none
      else if qualifier = "xml" then declare? own outer rest
      else declare? ((qualifier, space) :: own) outer rest

end Scope

/-- An element that has been opened and not yet closed. -/
structure Frame where
  tag : Name
  name : ExpandedName
  attributes : List (ExpandedName × String)
  scope : Scope
  /-- The pieces of the text that it starts with, the last one first. -/
  lead : List (List Char)
  /-- Something else than text has been met in it. -/
  isLeadOver : Bool
  /-- The elements in it so far, the last one first. -/
  children : List Element

/-- A document as far as it has been read. -/
structure Builder where
  /-- The open elements, the innermost first. -/
  frames : List Frame
  root : Option Element
  /-- References used inside the entity being read. -/
  used : Nat

namespace Builder

def start : Builder := ⟨[], none, 0⟩

/-- The document after a change to the innermost element. -/
def mapInnermost (b : Builder) (change : Frame → Frame) : Builder :=
  match b.frames with
  | [] => b
  | frame :: outer => { b with frames := change frame :: outer }

/-- The document after text. -/
def addText (b : Builder) (text : List Char) : Builder :=
  b.mapInnermost fun frame =>
    if frame.isLeadOver then frame else { frame with lead := text :: frame.lead }

/-- The document after something that is no text. -/
def endLead (b : Builder) : Builder := b.mapInnermost fun frame => { frame with isLeadOver := true }

/-- The document after an element has been closed. -/
def deliver (b : Builder) (outer : List Frame) (e : Element) : Builder :=
  match outer with
  | [] => { b with frames := [], root := some e }
  | frame :: outer => { b with frames := { frame with children := e :: frame.children } :: outer }

/-- The values of attributes as they are meant, and the number of references used. -/
def values? (entities : Entities) (levels used : Nat) :
    List (Name × List Char) → Option (List (Name × String) × Nat)
  | [] => some ([], used)
  | (name, value) :: rest => do
    let (value, used) ← attributeValue? entities levels used value
    let (more, used) ← values? entities levels used rest
    return ((name, value) :: more, used)

/-- The attributes other than declarations. No two have the same name and namespace. -/
def expandNames? (scope : Scope) (attributes : List (Name × String)) :
    Option (List (ExpandedName × String)) := do
  let plain := attributes.filter fun a => (Scope.declared? a.1).isNone
  let expanded ← plain.mapM fun (name, value) => do
    let space ← scope.ofAttribute? name.qualifier
    return (ExpandedName.mk space name.name, value)
  if (expanded.map (·.1)).Nodup then some expanded else none

/-- Opens an element. There is one root. -/
def openElement? (b : Builder) (entities : Entities) (levels : Nat) (tag : Name)
    (attributes : List (Name × List Char)) (isEmpty : Bool) : Option Builder := do
  if b.frames.isEmpty && b.root.isSome then none
  if tag.qualifier = "xmlns" then none
  let (values, used) ← values? entities levels b.used attributes
  let outer := (b.frames.head?.map Frame.scope).getD []
  let scope ← Scope.declare? [] outer values
  let name := ExpandedName.mk (← scope.ofElement? tag.qualifier) tag.name
  let expanded ← expandNames? scope values
  let b := { b.endLead with used := used }
  if isEmpty then return b.deliver b.frames (.mk name expanded "" [])
  else return { b with frames := ⟨tag, name, expanded, scope, [], false, []⟩ :: b.frames }

/-- Closes the innermost element, which must have been opened by the same tag. -/
def closeElement? (b : Builder) (tag : Name) : Option Builder :=
  match b.frames with
  | frame :: outer =>
    if frame.tag = tag then
      let lead := String.ofList frame.lead.reverse.flatten
      some (b.deliver outer (.mk frame.name frame.attributes lead frame.children.reverse))
    else none
  | [] => none

/-- Reads tokens. Outside the root only blank text may stand. An entity in text is read in place,
and must close what it opens. `levels` is how much deeper entities may stand. -/
def read? (entities : Entities) : Nat → Builder → List Token → Option Builder
  | levels, b, tokens =>
    let floor := b.frames.length
    tokens.foldlM (fun (b : Builder) token =>
      match token with
      | .aside => some b.endLead
      | .literal content => if b.frames.isEmpty then none else some (b.addText (lineEnds content))
      | .openTag tag attributes isEmpty => b.openElement? entities levels tag attributes isEmpty
      | .closeTag tag => if floor < b.frames.length then b.closeElement? tag else none
      | .text content =>
        if b.frames.isEmpty then if content.all isSpace then some b else none
        else do
          let pieces ← Piece.ofText? (lineEnds content)
          pieces.foldlM (fun (b : Builder) piece =>
            match piece, levels with
            | .char c, _ | .escaped c, _ => some (b.addText [c])
            | .entity _, 0 => none
            | .entity name, deeper + 1 => do
              let inner ← Token.ofText? (← entities.lookup name)
              let used ← countReference? levels b.used
              let after ← read? entities deeper { b with used := used } inner
              if after.frames.length = b.frames.length then some after else none) b) b

end Builder

/-- The root element of a document. -/
def rootOf? (text : List Char) : Option Element := do
  let (entities, rest) ← takeProlog? text
  let tokens ← Token.ofText? rest
  let b ← Builder.start.read? entities maxNesting tokens
  if b.frames.isEmpty then b.root else none

end ImagePlacement.Xml
