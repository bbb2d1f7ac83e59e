import ImagePlacement.Decimal.Literal
import ImagePlacement.Xml.Character

namespace ImagePlacement.Svg

/-- The digits that a text starts with, and the text after them. -/
private def takeDigits (text : List Char) : List Char × List Char :=
  (text.takeWhile Char.isDigit, text.dropWhile Char.isDigit)

/-- An exponent that stands here, and the text after it. The `e` of a unit starts none. -/
private def takeExponent? (text : List Char) : Option (List Char × List Char) :=
  match text with
  | e :: rest =>
    if e = 'e' ∨ e = 'E' then
      match rest with
      | [] => none
      | 'm' :: _ | 'x' :: _ => some ([], text)
      | c :: more =>
        if c = '+' ∨ c = '-' then
          let (digits, after) := takeDigits more
          some (e :: c :: digits, after)
        else if c.isDigit then
          let (digits, after) := takeDigits rest
          some (e :: digits, after)
        else none
    else some ([], text)
  | [] => some ([], [])

/-- A text without the white space before it. -/
def skipSpaces (text : List Char) : List Char := text.dropWhile Xml.isSpace

/-- A finite number after white space, and the text after it. -/
def takeNumber? (text : List Char) : Option (Float × List Char) := do
  let text := skipSpaces text
  let (sign, body) := match text with
    | '-' :: rest => (['-'], rest)
    | '+' :: rest => (['+'], rest)
    | _ => ([], text)
  let (whole, rest) := takeDigits body
  if whole = [] ∧ rest.head? ≠ some '.' then none
  let (fraction, rest) := match rest with
    | '.' :: rest => let (digits, rest) := takeDigits rest; ('.' :: digits, rest)
    | _ => ([], rest)
  let (exponent, rest) ← takeExponent? rest
  match Decimal.read (String.ofList (sign ++ whole ++ fraction ++ exponent)) with
  | .ok x => if x.isFinite then some (x, rest) else none
  | .error _ => none

/-- What follows white space and one comma. -/
def skipSeparator (text : List Char) : List Char :=
  match skipSpaces text with
  | ',' :: rest => rest
  | rest => rest

/-- A number of a list, and the text after it. White space and one comma may follow. -/
def takeListed? (text : List Char) : Option (Float × List Char) := do
  if text = [] then none
  let (x, rest) ← takeNumber? text
  return (x, skipSeparator rest)

/-- As many numbers of a list as wanted. -/
def takeNumbers? (text : List Char) : Nat → Option (List Float × List Char)
  | 0 => some ([], text)
  | n + 1 => do
    let (x, rest) ← takeListed? text
    let (more, rest) ← takeNumbers? rest n
    return (x :: more, rest)

/-- The letters, digits, hyphens and underscores that a text starts with, and the text after
them. -/
def takeWord (text : List Char) : String × List Char :=
  let isPart (c : Char) : Bool := c.isAlphanum || c == '-' || c == '_'
  (String.ofList (text.takeWhile isPart), text.dropWhile isPart)

end ImagePlacement.Svg
