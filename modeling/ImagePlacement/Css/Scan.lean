namespace ImagePlacement.Css

/-- The white space of style sheets. -/
def isSpace (c : Char) : Bool :=
  c == ' ' || c == '\t' || c == '\n' || c == '\r' || c == '\x0C'

def skipSpaces (text : List Char) : List Char := text.dropWhile isSpace

/-- Characters that a name may start with. -/
def isNameStart (c : Char) : Bool := c.isAlpha || c == '_' || 0xA0 ≤ c.toNat

/-- Characters that a name may go on with. -/
def isNamePart (c : Char) : Bool := isNameStart c || c.isDigit || c == '-'

/-- What follows white space and comments, in a comment or outside. -/
private def skipAsidesFrom? : (isInside : Bool) → List Char → Option (List Char)
  | false, [] => some []
  | true, [] => none
  | true, '*' :: '/' :: rest => skipAsidesFrom? false rest
  | true, _ :: rest => skipAsidesFrom? true rest
  | false, '/' :: '*' :: rest => skipAsidesFrom? true rest
  | false, '/' :: _ => none
  | false, c :: rest => if isSpace c then skipAsidesFrom? false rest else some (c :: rest)

/-- What follows white space and comments. A slash that opens no comment is a fault, and so is
a comment without an end. -/
def skipAsides? (text : List Char) : Option (List Char) := skipAsidesFrom? false text

/-- What follows the end of a comment. -/
def skipComment? : List Char → Option (List Char)
  | [] => none
  | '*' :: '/' :: rest => some rest
  | _ :: rest => skipComment? rest

/-- A name, perhaps after a hyphen, and the text after it. -/
def takeName? (text : List Char) : Option (String × List Char) :=
  let (sign, body) := match text with
    | '-' :: rest => (['-'], rest)
    | _ => ([], text)
  if (body.head?.map isNameStart).getD false then
    some (String.ofList (sign ++ body.takeWhile isNamePart), body.dropWhile isNamePart)
  else none

/-- The characters up to a quotation mark, and those after it. A mark after a backslash ends
nothing. `previous` is the character before the text. -/
def splitAtMark? (mark previous : Char) : List Char → Option (List Char × List Char)
  | [] => none
  | c :: rest =>
    if c = mark ∧ previous ≠ '\\' then some ([], rest)
    else (splitAtMark? mark c rest).map fun (inner, after) => (c :: inner, after)

/-- A quoted text without its marks, and the text after it. -/
def takeQuoted? (text : List Char) : Option (List Char × List Char) :=
  match text with
  | c :: rest => if c = '\x22' ∨ c = '\x27' then splitAtMark? c c rest else none
  | [] => none

end ImagePlacement.Css
