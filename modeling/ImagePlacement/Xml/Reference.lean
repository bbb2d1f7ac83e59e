import ImagePlacement.Xml.Prolog
import ImagePlacement.Json.Token

namespace ImagePlacement.Xml

/-- A piece of text or of a value. -/
inductive Piece where
  | char (c : Char)
  /-- A character written as a reference. -/
  | escaped (c : Char)
  | entity (name : String)
  deriving DecidableEq

namespace Piece

/-- The characters that every document has names for. -/
def predefined : List (String × Char) :=
  [("quot", '\x22'), ("amp", '&'), ("apos", '\x27'), ("lt", '<'), ("gt", '>')]

/-- The number that the digits of a character reference write, in base sixteen after an `x`. -/
def code? (body : List Char) : Option Nat :=
  let number? (base : Nat) (digits : List Char) : Option Nat := do
    if digits = [] then none
    let values ← digits.mapM Json.Token.hexDigit?
    let n := values.foldl (fun n d => base * n + d) 0
    if values.all (· < base) && n < UInt32.size then some n else none
  match body with
  | 'x' :: digits => number? 16 digits
  | digits => number? 10 digits

/-- The character of a code point; a surrogate or a number beyond all characters stands for
U+FFFD. -/
def charOf (n : Nat) : Char := if n.isValidChar then Char.ofNat n else '\uFFFD'

/-- A reference after its ampersand, and the text after its semicolon. -/
def reference? (text : List Char) : Option (Piece × List Char) :=
  match text with
  | '#' :: rest =>
    match rest.dropWhile (· ≠ ';') with
    | _ :: after => do
      let c := charOf (← code? (rest.takeWhile (· ≠ ';')))
      if isAllowed c then some (escaped c, after) else none
    | [] => none
  | _ => do
    let (name, rest) ← takeName? text
    let rest ← expect? ";" rest
    match predefined.lookup name with
    | some c => some (escaped c, rest)
    | none => some (entity name, rest)

/-- The pieces of a text after those of `done`, which are kept in reverse order. -/
def split? (rounds : Nat) (done : List Piece) (text : List Char) : Option (List Piece) :=
  match rounds, text with
  | _, [] => some done.reverse
  | 0, _ => none
  | rounds + 1, '&' :: rest =>
    match reference? rest with
    | some (piece, rest) => split? rounds (piece :: done) rest
    | none => none
  | rounds + 1, c :: rest => split? rounds (char c :: done) rest

/-- The pieces of a text. -/
def ofText? (text : List Char) : Option (List Piece) := split? text.length [] text

end Piece

/-- How deep entities may stand in each other. -/
def maxNesting : Nat := 10

/-- How many references may stand inside an entity of the text, at any depth. -/
def maxReferences : Nat := 255

/-- The number of references used inside entities, after one more at a given nesting; none if
that is too many. Outside of entities they are not counted. -/
def countReference? (levels used : Nat) : Option Nat :=
  if levels = maxNesting then some 0
  else if used = maxReferences then none
  else some (used + 1)

/-- A value with its references replaced, and the number of references used. White space other
than blanks becomes blanks unless it was written as a reference. Inside an entity no reference
may write `<`. `levels` is how much deeper entities may stand. -/
def expandValue? (entities : Entities) : Nat → Nat → List Char → Option (List Char × Nat)
  | levels, used, value => do
    let pieces ← Piece.ofText? value
    let (done, used) ← pieces.foldlM (fun (state : List Char × Nat) piece =>
      match piece with
      | .char c => some ((if isSpace c then ' ' else c) :: state.1, state.2)
      | .escaped c =>
        if levels < maxNesting ∧ c = '<' then none else some (c :: state.1, state.2)
      | .entity name =>
        match levels with
        | 0 => none
        | deeper + 1 => do
          let content ← entities.lookup name
          let used ← countReference? (deeper + 1) state.2
          let (inner, used) ← expandValue? entities deeper used content
          some (inner.reverse ++ state.1, used)) ([], used)
    return (done.reverse, used)

/-- A text in which every line ends by one character. -/
def lineEnds (text : List Char) : List Char :=
  text.foldr (fun c later =>
    if c = '\r' then if later.head? = some '\n' then later else '\n' :: later
    else c :: later) []

/-- An attribute value as it is meant. -/
def attributeValue? (entities : Entities) (levels used : Nat) (value : List Char) :
    Option (String × Nat) :=
  (expandValue? entities levels used (lineEnds value)).map fun (text, used) =>
    (String.ofList text, used)

end ImagePlacement.Xml
