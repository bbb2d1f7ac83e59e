import ImagePlacement.Text.Blank

namespace ImagePlacement.Svg.Prologue

/-- What can be read at one place of a text, up to and including the start of
an `svg` root element. Each field answers for the whole rest of the text. -/
structure Readings where
  /-- White space and prologue items, then the root. -/
  prologue : Bool
  /-- The rest of an instruction: no `>` up to its `?>`. -/
  instruction : Bool
  /-- The rest of a comment: any text up to some `-->`. -/
  comment : Bool
  /-- The rest of a document type declaration, before an internal subset. -/
  doctype : Bool
  /-- The rest of an internal subset: any text up to some `]`. -/
  subset : Bool
  /-- White space and the `>` that end a declaration after its subset. -/
  closing : Bool
  deriving DecidableEq, Repr

/-- Nothing can be read at the end of a text. -/
def Readings.none : Readings := ⟨false, false, false, false, false, false⟩

/-- Whether a text starts with `<svg` and a character that ends the name. -/
def startsRoot : List Char → Bool
  | '<' :: 's' :: 'v' :: 'g' :: c :: _ => isBlank c || c == '>' || c == '/'
  | _ => false

/-- The readings of `c :: rest`, from those of `rest` and its suffixes. -/
def readingsAt (c : Char) (rest : List Char) (later : List Readings) : Readings :=
  let after (n : Nat) : Readings := (later.drop n).headD .none
  { prologue :=
      startsRoot (c :: rest) ||
      (isBlank c && (after 0).prologue) ||
      (['<', '?'].isPrefixOf (c :: rest) && (after 1).instruction) ||
      ("<!--".toList.isPrefixOf (c :: rest) && (after 3).comment) ||
      ("<!DOCTYPE".toList.isPrefixOf (c :: rest) && (after 8).doctype)
    instruction :=
      (['?', '>'].isPrefixOf (c :: rest) && (after 1).prologue) ||
      (c != '>' && (after 0).instruction)
    comment :=
      ("-->".toList.isPrefixOf (c :: rest) && (after 2).prologue) || (after 0).comment
    doctype :=
      if c = '>' then (after 0).prologue
      else if c = '[' then (after 0).subset
      else (after 0).doctype
    subset := (c == ']' && (after 0).closing) || (after 0).subset
    closing := (c == '>' && (after 0).prologue) || (isBlank c && (after 0).closing) }

/-- The readings at every place of a text, computed from its end. Comments and
subsets may end at any of several places; keeping all readings makes the choice
unnecessary. -/
def readings : List Char → List Readings
  | [] => []
  | c :: rest => let later := readings rest; readingsAt c rest later :: later

/-- Whether a text starts like an SVG document: an optional byte order mark, white
space, instructions, comments and document type declarations, then an `svg` root. -/
def accepts (text : List Char) : Bool :=
  let body := match text with
    | '\uFEFF' :: rest => rest
    | _ => text
  ((readings body).headD .none).prologue

end ImagePlacement.Svg.Prologue
