import ImagePlacement.Xml.Character

namespace ImagePlacement.Xml

/-- A name with an optional part before a colon. -/
structure Name where
  qualifier : String
  name : String
  deriving DecidableEq, Repr

/-- A text without the white space before it. -/
def skipSpaces (text : List Char) : List Char := text.dropWhile isSpace

/-- What follows a fixed word. -/
def expect? (word : String) (text : List Char) : Option (List Char) :=
  if word.toList.isPrefixOf text then some (text.drop word.length) else none

/-- What follows at least one white space. -/
def expectSpace? (text : List Char) : Option (List Char) :=
  match text with
  | c :: rest => if isSpace c then some (skipSpaces rest) else none
  | [] => none

/-- What follows an equals sign with white space around it. -/
def expectEquals? (text : List Char) : Option (List Char) :=
  (expect? "=" (skipSpaces text)).map skipSpaces

/-- The characters before the first place where a word stands, and those after it, with those
of `done` before them in reverse order. All must be allowed in a document. -/
def splitAtWord? (word : List Char) (done : List Char) : List Char →
    Option (List Char × List Char)
  | [] => none
  | c :: rest =>
    if word.isPrefixOf (c :: rest) then some (done.reverse, (c :: rest).drop word.length)
    else if isAllowed c then splitAtWord? word (c :: done) rest
    else none

/-- The text up to a word, and the text after the word. -/
def takeUntil? (word : String) (text : List Char) : Option (List Char × List Char) :=
  splitAtWord? word.toList [] text

/-- A name, and the text after it. -/
def takeName? (text : List Char) : Option (String × List Char) :=
  match text with
  | c :: _ =>
    if isNameStart c then
      some (String.ofList (text.takeWhile isNamePart), text.dropWhile isNamePart)
    else none
  | [] => none

/-- A name that may have a qualifier, and the text after it. It holds one colon at most. -/
def takeQualified? (text : List Char) : Option (Name × List Char) :=
  let whole := text.takeWhile isNamePart
  let rest := text.dropWhile isNamePart
  let startsWell (part : List Char) : Bool := (part.head?.map isNameStart).getD false
  let first := whole.takeWhile (· ≠ ':')
  match whole.dropWhile (· ≠ ':') with
  | [] => if startsWell first then some (⟨"", String.ofList first⟩, rest) else none
  | _ :: second =>
    if second.contains ':' || !startsWell second || !(first.isEmpty || startsWell first) then none
    else some (⟨String.ofList first, String.ofList second⟩, rest)

/-- A quoted text without its quotes, and the text after it. Any characters are allowed. -/
def takeQuoted? (text : List Char) : Option (List Char × List Char) :=
  match text with
  | q :: rest =>
    if q = '\x22' ∨ q = '\x27' then
      match rest.dropWhile (· ≠ q) with
      | _ :: after => some (rest.takeWhile (· ≠ q), after)
      | [] => none
    else none
  | [] => none

/-- A quoted attribute value. It holds no `<` and only characters that are allowed. -/
def takeValue? (text : List Char) : Option (List Char × List Char) :=
  (takeQuoted? text).filter fun found => found.1.all fun c => isAllowed c && c != '<'

/-- A comment after its opening. It holds no double hyphen and ends with none. -/
def takeComment? (text : List Char) : Option (List Char) := do
  let (body, rest) ← takeUntil? "-->" text
  if (takeUntil? "--" body).isSome || body.getLast? == some '-' then none else some rest

/-- A processing instruction after its opening. A declaration is none. -/
def takeInstruction? (text : List Char) : Option (List Char) :=
  if (expect? "xml " text).isSome then none
  else do
    let (_, rest) ← takeName? text
    let (_, rest) ← takeUntil? "?>" (skipSpaces rest)
    return rest

/-- White space, comments and instructions. Each of them takes characters, so as many rounds
suffice as the text has. -/
def skipMisc? (rounds : Nat) (text : List Char) : Option (List Char) :=
  let text := skipSpaces text
  match rounds with
  | 0 => some text
  | rounds + 1 =>
    match expect? "<!--" text, expect? "<?" text with
    | some rest, _ => (takeComment? rest).bind (skipMisc? rounds)
    | none, some rest => (takeInstruction? rest).bind (skipMisc? rounds)
    | none, none => some text

end ImagePlacement.Xml
