import ImagePlacement.Xml.Scan

namespace ImagePlacement.Xml

/-- A piece of content. Values and texts still hold their references. -/
inductive Token where
  | openTag (name : Name) (attributes : List (Name × List Char)) (isEmpty : Bool)
  | closeTag (name : Name)
  | text (content : List Char)
  /-- Text without references, even if it is blank. -/
  | literal (content : List Char)
  /-- Comments and instructions. -/
  | aside
  deriving DecidableEq

namespace Token

/-- The attributes of a tag and its end: `true` if the element is empty. White space comes
before every attribute. Those read before are kept in reverse order. -/
def takeAttributes? (rounds : Nat) (done : List (Name × List Char)) (text : List Char) :
    Option (List (Name × List Char) × Bool × List Char) :=
  match rounds with
  | 0 => none
  | rounds + 1 =>
    match skipSpaces text with
    | '>' :: rest => some (done.reverse, false, rest)
    | '/' :: '>' :: rest => some (done.reverse, true, rest)
    | _ => do
      let (name, rest) ← takeQualified? (← expectSpace? text)
      let (value, rest) ← takeValue? (← expectEquals? rest)
      takeAttributes? rounds ((name, value) :: done) rest

/-- The token that a text starts with, and the text after it. As many rounds suffice as the text
has characters. -/
def next? (rounds : Nat) (text : List Char) : Option (Token × List Char) :=
  match text with
  | '<' :: '!' :: rest =>
    match expect? "--" rest, expect? "[CDATA[" rest with
    | some rest, _ => (takeComment? rest).map fun rest => (aside, rest)
    | none, some rest => (takeUntil? "]]>" rest).map fun (content, rest) => (literal content, rest)
    | none, none => none
  | '<' :: '?' :: rest => (takeInstruction? rest).map fun rest => (aside, rest)
  | '<' :: '/' :: rest => do
    let (name, rest) ← takeQualified? rest
    let rest ← expect? ">" (skipSpaces rest)
    return (closeTag name, rest)
  | '<' :: rest => do
    let (name, rest) ← takeQualified? rest
    let (attributes, isEmpty, rest) ← takeAttributes? rounds [] rest
    return (openTag name attributes isEmpty, rest)
  | _ =>
    let content := text.takeWhile (· ≠ '<')
    if content.all isAllowed && (takeUntil? "]]>" content).isNone then
      some (Token.text content, text.dropWhile (· ≠ '<'))
    else none

/-- The tokens of a text after those of `done`, which are kept in reverse order. Every token
takes a character, so as many rounds suffice as the text has. -/
def readAll? (rounds : Nat) (done : List Token) (text : List Char) : Option (List Token) :=
  match rounds, text with
  | _, [] => some done.reverse
  | 0, _ => none
  | rounds + 1, text =>
    match next? (rounds + 1) text with
    | some (token, rest) => readAll? rounds (token :: done) rest
    | none => none

/-- The tokens of a text. -/
def ofText? (text : List Char) : Option (List Token) := readAll? text.length [] text

end Token

end ImagePlacement.Xml
