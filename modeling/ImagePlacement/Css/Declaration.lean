import ImagePlacement.Css.Scan
import ImagePlacement.Text.Blank

namespace ImagePlacement.Css

/-- A property with its value. -/
structure Declaration where
  name : String
  value : String
  isImportant : Bool
  deriving DecidableEq, Repr

namespace Declaration

/-- What follows a number: digits, a fraction, and a percent sign or a unit. -/
private def skipNumber (text : List Char) : List Char :=
  let rest := text.dropWhile Char.isDigit
  let rest := match rest with
    | '.' :: rest => rest.dropWhile Char.isDigit
    | _ => rest
  match rest with
  | '%' :: rest => rest
  | '-' :: unit => ((takeName? rest).map (·.2)).getD unit
  | _ => ((takeName? rest).map (·.2)).getD rest

/-- What follows one term of a value: a hash, a number, a quoted text, a comma, a name or a call
of a function. -/
def skipTerm? (text : List Char) : Option (List Char) :=
  match text with
  | [] => none
  | '#' :: rest =>
    match takeName? rest with
    | some (_, rest) => some rest
    | none =>
      let digits := match rest with
        | '-' :: rest => rest
        | _ => rest
      some (digits.dropWhile fun c => c.isDigit || ('a' ≤ c && c ≤ 'f') || ('A' ≤ c && c ≤ 'F'))
  | ',' :: rest => some rest
  | '\x22' :: _ | '\x27' :: _ => (takeQuoted? text).map (·.2)
  | c :: rest =>
    if c.isDigit || c == '+' || c == '-' || c == '.' then some (skipNumber rest)
    else do
      let (_, rest) ← takeName? text
      match rest with
      | '(' :: _ =>
        match rest.dropWhile (· ≠ ')') with
        | _ :: rest => some rest
        | [] => none
      | _ => some rest

/-- What remains where no further term could be read: a quoted text or a call without an end
takes all that follows. -/
private def afterFault (text : List Char) : List Char :=
  if text.head? = some '\x22' ∨ text.head? = some '\x27' ∨ (takeName? text).isSome then [] else text

/-- What follows the last term of a value, and where reading goes on. Every term takes
characters, so as many rounds suffice as the text has. -/
def skipTerms? (rounds : Nat) (finish text : List Char) : Option (List Char × List Char) :=
  match rounds, skipTerm? text with
  | rounds + 1, some rest => (skipAsides? rest).bind (skipTerms? rounds rest)
  | _, _ => some (finish, afterFault text)

/-- Whether an exclamation mark makes a declaration important, and what follows. -/
private def takeMark? (text : List Char) : Option (Bool × List Char) :=
  match text with
  | '!' :: rest => do
    let rest ← skipAsides? rest
    let word := "important".toList
    if word.isPrefixOf rest then return (true, rest.drop word.length) else return (false, rest)
  | _ => some (false, text)

/-- What follows semicolons with white space and comments between them. -/
private def skipEnds? (rounds : Nat) (text : List Char) : Option (List Char) :=
  match rounds, text with
  | rounds + 1, ';' :: rest => (skipAsides? rest).bind (skipEnds? rounds)
  | _, _ => some text

/-- A declaration, and what follows it and its semicolons. The value is not empty. As many rounds
suffice as the text has characters. -/
def take? (rounds : Nat) (text : List Char) : Option (Declaration × List Char) := do
  let rest ← skipAsides? text
  let rest := match rest with
    | '*' :: rest => rest
    | _ => rest
  let (name, rest) ← takeName? rest
  match ← skipAsides? rest with
  | ':' :: rest =>
    let start ← skipAsides? rest
    let (finish, rest) ← skipTerms? rounds start start
    let value := trimBlanks (start.take (start.length - finish.length))
    let (isImportant, rest) ← takeMark? rest
    let rest ← skipAsides? rest
    let rest ← skipEnds? rounds rest
    if value = [] then none
    else return (⟨name, String.ofList value, isImportant⟩, rest)
  | _ => none

/-- Declarations after those of `done`, which are kept in reverse order. Reading ends at the
first one that is malformed. -/
private def listIn (rounds : Nat) (done : List Declaration) (text : List Char) :
    List Declaration :=
  match rounds, take? rounds text with
  | rounds + 1, some (d, rest) => listIn rounds (d :: done) rest
  | _, _ => done.reverse

/-- The declarations that a style attribute holds, up to the first one that is malformed. -/
def listOf (text : String) : List Declaration := listIn text.length [] text.toList

end Declaration

end ImagePlacement.Css
