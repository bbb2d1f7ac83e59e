import ImagePlacement.Css.Declaration
import ImagePlacement.Css.Selector

namespace ImagePlacement.Css

/-- Declarations for the elements that a selector accepts. -/
structure Rule where
  selector : Selector
  declarations : List Declaration
  deriving DecidableEq, Repr

namespace Rule

/-- What follows the brace that closes as many as have been opened from here. -/
private def skipBlock (depth : Int) : List Char → List Char
  | [] => []
  | '{' :: rest => skipBlock (depth + 1) rest
  | '}' :: rest => if depth = 1 then rest else skipBlock (depth - 1) rest
  | _ :: rest => skipBlock depth rest

/-- What follows a rule of another kind: a semicolon or a block ends it. -/
private def skipOther (text : List Char) : List Char :=
  match takeName? text with
  | none => text
  | some (_, rest) =>
    match rest.dropWhile fun c => c ≠ ';' ∧ c ≠ '{' with
    | ';' :: rest => rest
    | rest => skipBlock 0 rest

/-- The declarations of a block, after those of `done` in reverse order, and what follows. One
that is malformed ends the block. -/
private def takeBlock (rounds : Nat) (done : List Declaration) (text : List Char) :
    List Declaration × List Char :=
  match rounds, text with
  | 0, _ | _, [] | _, '}' :: _ => (done.reverse, text)
  | rounds + 1, _ =>
    match Declaration.take? (rounds + 1) text with
    | some (d, rest) => takeBlock rounds (d :: done) rest
    | none => (done.reverse, skipBlock 0 text)

/-- The selectors before a block, after those of `done` in reverse order, and what follows up
to the block. Commas part them, and one that is malformed counts for nothing. -/
private def takeSelectors (rounds : Nat) (done : List Selector) (text : List Char) :
    List Selector × List Char :=
  let (selector, rest) := Selector.take rounds text
  let done := selector.toList ++ done
  match rounds, skipSpaces rest with
  | rounds + 1, ',' :: rest => takeSelectors rounds done rest
  | _, rest => (done.reverse, rest.dropWhile (· ≠ '{'))

/-- Rules that share a block, and what follows it. As many rounds suffice as the text has
characters. -/
private def takeGroup (rounds : Nat) (text : List Char) : List Rule × List Char :=
  let (selectors, rest) := takeSelectors rounds [] text
  match rest with
  | [] => ([], [])
  | _ :: block =>
    let (declarations, rest) := takeBlock rounds [] block
    let rest := match rest with
      | '}' :: rest => rest
      | _ => rest
    (selectors.map fun s => ⟨s, declarations⟩, rest)

/-- The rules of a sheet, after those of `done` in reverse order. Every round takes characters,
so as many suffice as the text has. -/
private def readAll (rounds : Nat) (done : List Rule) (text : List Char) : List Rule :=
  match rounds, skipAsides? text with
  | 0, _ | _, none | _, some [] => done.reverse
  | rounds + 1, some ('@' :: rest) => readAll rounds done (skipOther rest)
  | rounds + 1, some rest =>
    let (found, rest) := takeGroup (rounds + 1) rest
    readAll rounds (found.reverse ++ done) rest

/-- The rules of one sheet in the order of the text. Those without declarations are left out. -/
def listOf (text : String) : List Rule :=
  (readAll text.length [] text.toList).filter fun rule => !rule.declarations.isEmpty

/-- The rules of several sheets, those that weigh less first and otherwise in order. -/
def listOfAll (texts : List String) : List Rule :=
  (texts.flatMap listOf).mergeSort fun a b => a.selector.weight.isUpTo b.selector.weight

/-- The declarations for an element, those that weigh less first. -/
def declarationsFor (rules : List Rule) (s : Xml.Spot) : List Declaration :=
  (rules.filter fun rule => rule.selector.accepts s).flatMap Rule.declarations

end Rule

end ImagePlacement.Css
