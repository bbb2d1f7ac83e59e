import ImagePlacement.Xml.Scan

namespace ImagePlacement.Xml

/-- The texts that entity names stand for; the first declaration of a name counts. -/
abbrev Entities := List (String × List Char)

/-- One item of a declaration: a name that begins with a word, and a value. -/
private def takeItem? (word : String) (text : List Char) : Option (List Char) :=
  if (expect? word text).isSome then do
    let (_, rest) ← takeQualified? text
    let (_, rest) ← takeValue? (← expectEquals? rest)
    return rest
  else none

/-- White space after an item, which may only be missing before the end. -/
private def spaceOrEnd? (text : List Char) : Option (List Char) :=
  if text = [] ∨ (expect? "?>" text).isSome then some text else expectSpace? text

/-- The rest of an XML declaration: a version, and perhaps an encoding and a standalone
item. -/
def takeDeclaration? (text : List Char) : Option (List Char) := do
  let rest ← takeItem? "version" (skipSpaces text)
  let rest ← spaceOrEnd? rest
  let rest ← if (expect? "encoding" rest).isSome then
      (takeItem? "encoding" rest).bind spaceOrEnd?
    else some rest
  let rest ← if (expect? "standalone" rest).isSome then takeItem? "standalone" rest
    else some rest
  expect? "?>" (skipSpaces rest)

/-- The rest of an external identifier, if one stands here: `SYSTEM` and one literal or
`PUBLIC` and two. -/
def takeExternal? (text : List Char) : Option (Option (List Char)) :=
  let literal? (text : List Char) : Option (List Char) :=
    (expectSpace? text).bind fun rest => (takeQuoted? rest).map (·.2)
  match expect? "SYSTEM" text, expect? "PUBLIC" text with
  | some rest, _ => (literal? rest).map some
  | none, some rest => ((literal? rest).bind literal?).map some
  | none, none => some none

/-- An entity declaration after its opening: the name, its text if it has one here, and what
follows. -/
def takeEntity? (text : List Char) : Option (String × Option (List Char) × List Char) := do
  let rest ← expectSpace? text
  let (isGeneral, rest) ← match expect? "%" rest with
    | some rest => (expectSpace? rest).map fun rest => (false, rest)
    | none => some (true, rest)
  let (name, rest) ← takeName? rest
  let rest ← expectSpace? rest
  let (value, rest) ← match takeQuoted? rest with
    | some (value, rest) => some (some value, rest)
    | none => do
      let rest ← (takeExternal? rest).join
      let unparsed? := expect? "NDATA" (skipSpaces rest)
      match isGeneral, unparsed? with
      | true, some rest => (takeName? (← expectSpace? rest)).map fun found => (none, found.2)
      | _, _ => some (none, rest)
  let rest ← expect? ">" (skipSpaces rest)
  return (name, value, rest)

/-- A declaration that is skipped to its end. -/
private def skipDeclaration? (text : List Char) : Option (List Char) :=
  match text.dropWhile (· ≠ '>') with
  | _ :: rest => some rest
  | [] => none

/-- An internal subset after its opening bracket, up to the end of the document type. The
entities declared before are kept in reverse order. -/
def takeSubset? (rounds : Nat) (done : Entities) (text : List Char) :
    Option (Entities × List Char) :=
  let text := skipSpaces text
  let opens (word : String) : Bool := (expect? word text).isSome
  match rounds with
  | 0 => none
  | rounds + 1 =>
    if text = [] then some (done.reverse, [])
    else
      match expect? "<!ENTITY" text, expect? "<!--" text, expect? "<?" text, expect? "]" text with
      | some rest, _, _, _ => do
        let (name, value, rest) ← takeEntity? rest
        let done := match value with
          | some value => (name, value) :: done
          | none => done
        takeSubset? rounds done rest
      | _, some rest, _, _ => (takeComment? rest).bind (takeSubset? rounds done)
      | _, _, some rest, _ => (takeInstruction? rest).bind (takeSubset? rounds done)
      | _, _, _, some rest => (expect? ">" (skipSpaces rest)).map fun rest => (done.reverse, rest)
      | none, none, none, none =>
        if opens "<!ELEMENT" || opens "<!ATTLIST" || opens "<!NOTATION" then
          (skipDeclaration? text).bind (takeSubset? rounds done)
        else none

/-- A document type declaration after its opening. -/
def takeDoctype? (text : List Char) : Option (Entities × List Char) := do
  let (_, rest) ← takeName? (← expectSpace? text)
  let rest := skipSpaces rest
  let rest := skipSpaces ((← takeExternal? rest).getD rest)
  match rest with
  | '>' :: rest => some ([], rest)
  | '[' :: rest => takeSubset? (rest.length + 1) [] rest
  | _ => none

/-- The entities that a document declares, and the text from its root on. A byte order mark
and a declaration may come first, and one document type before the root. -/
def takeProlog? (text : List Char) : Option (Entities × List Char) := do
  let text := match text with
    | '\uFEFF' :: rest => rest
    | _ => text
  let rest ← match expect? "<?xml " text with
    | some rest => takeDeclaration? rest
    | none => some text
  let rest ← skipMisc? rest.length rest
  match expect? "<!DOCTYPE" rest with
  | some rest => do
    let (entities, rest) ← takeDoctype? rest
    let rest ← skipMisc? rest.length rest
    return (entities, rest)
  | none => some ([], rest)

end ImagePlacement.Xml
