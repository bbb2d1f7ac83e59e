import ImagePlacement.Svg.Number
import ImagePlacement.Text.Blank

namespace ImagePlacement.Svg.Link

/-- The identifier that a reference such as `#name` gives, with white space around it. -/
def ofReference? (text : String) : Option String :=
  match skipSpaces text.toList with
  | '#' :: rest =>
    let name := rest.takeWhile (· ≠ ' ')
    if name = [] ∨ skipSpaces (rest.dropWhile (· ≠ ' ')) ≠ [] then none
    else some (String.ofList name)
  | _ => none

private def isMark (c : Char) : Bool := c == '\x22' || c == '\x27'

/-- The identifier in a call such as `url(#name)`, perhaps quoted, and the text after it. -/
def takeCall? (text : List Char) : Option (String × List Char) := do
  let word := "url(".toList
  if !word.isPrefixOf text then none
  let rest := skipSpaces (text.drop word.length)
  let mark := rest.head?.filter isMark
  let rest := if mark.isSome then skipSpaces (rest.drop 1) else rest
  match rest with
  | '#' :: rest =>
    let isInside (c : Char) : Bool :=
      match mark with
      | some m => c ≠ m
      | none => c ≠ ' ' && c ≠ ')'
    let name := rest.takeWhile isInside
    let name := if mark.isSome then (skipBlanks name.reverse).reverse else name
    let rest := skipSpaces (rest.dropWhile isInside)
    let rest ← match mark, rest with
      | none, _ => some rest
      | some m, c :: rest => if c = m then some (skipSpaces rest) else none
      | some _, [] => none
    match rest with
    | ')' :: rest =>
      if name = [] ∨ name.any isMark then none else return (String.ofList name, rest)
    | _ => none
  | _ => none

/-- The identifier that a text gives by a call and nothing else. -/
def ofCall? (text : String) : Option String :=
  match takeCall? (skipSpaces text.toList) with
  | some (name, rest) => if skipSpaces rest = [] then some name else none
  | none => none

end ImagePlacement.Svg.Link
