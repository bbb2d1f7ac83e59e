import ImagePlacement.Xml.Document

namespace ImagePlacement.Xml

/-- An element where it stands in its document. -/
structure Spot where
  element : Element
  /-- The elements before it in the same parent, the nearest first. -/
  before : List Element
  /-- Its parent and further ancestors with the elements before each, the nearest first. -/
  above : List (Element × List Element)

namespace Spot

/-- The root of a document. -/
def ofRoot (root : Element) : Spot := ⟨root, [], []⟩

/-- How many elements come before at each level, the innermost level first. It tells elements of
one document apart. -/
def place (s : Spot) : List Nat := s.before.length :: s.above.map (·.2.length)

def parent? (s : Spot) : Option Spot :=
  match s.above with
  | [] => none
  | (e, before) :: above => some ⟨e, before, above⟩

def previous? (s : Spot) : Option Spot :=
  match s.before with
  | [] => none
  | e :: before => some ⟨e, before, s.above⟩

/-- Ancestors with the elements before each as spots. -/
def ofAbove : List (Element × List Element) → List Spot
  | [] => []
  | (e, before) :: above => ⟨e, before, above⟩ :: ofAbove above

/-- The parent and further ancestors, the nearest first. -/
def ancestors (s : Spot) : List Spot := ofAbove s.above

/-- Elements of one parent as spots, after those of `before`. -/
def row (above : List (Element × List Element)) (before : List Element) :
    List Element → List Spot
  | [] => []
  | e :: rest => ⟨e, before, above⟩ :: row above (e :: before) rest

def children (s : Spot) : List Spot :=
  row ((s.element, s.before) :: s.above) [] s.element.children

mutual

/-- An element and all elements in it, in the order of their opening tags. -/
def within (before : List Element) (above : List (Element × List Element)) : Element → List Spot
  | .mk name attributes lead children =>
    let e := Element.mk name attributes lead children
    ⟨e, before, above⟩ :: withinAll ((e, before) :: above) [] children

def withinAll (above : List (Element × List Element)) (before : List Element) :
    List Element → List Spot
  | [] => []
  | e :: rest => within before above e ++ withinAll above (e :: before) rest

end

/-- The elements in an element at any depth, in the order of their opening tags. -/
def descendants (s : Spot) : List Spot :=
  withinAll ((s.element, s.before) :: s.above) [] s.element.children

end Spot

end ImagePlacement.Xml
