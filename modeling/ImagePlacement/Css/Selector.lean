import ImagePlacement.Css.Scan
import ImagePlacement.Text.Blank
import ImagePlacement.Xml.Spot

namespace ImagePlacement.Css

/-- What a selector asks of an element itself. -/
inductive Test where
  | has (name : String)
  | equals (name value : String)
  /-- One of the words of an attribute is the given one. -/
  | includes (name word : String)
  /-- An attribute is the given text, or starts with it and a hyphen. -/
  | startsWith (name text : String)
  | isFirstChild
  /-- States of a page in use, which a still drawing has not. -/
  | never
  deriving DecidableEq, Repr

/-- Where the element before stands, seen from the one after. -/
inductive Combinator where
  | descendant
  | child
  | adjacent
  deriving DecidableEq, Repr

/-- What a selector asks of one element. -/
structure Compound where
  tag : Option String
  tests : List Test
  deriving DecidableEq, Repr

/-- A selector: what it asks of an element, and of those around it from right to left. -/
structure Selector where
  last : Compound
  before : List (Combinator × Compound)
  deriving DecidableEq, Repr

/-- The words of a text, which single blanks part. -/
private def words (text : List Char) : List (List Char) :=
  text.foldr (fun c parts =>
    if c = ' ' then [] :: parts
    else
      match parts with
      | part :: rest => (c :: part) :: rest
      | [] => [[c]]) [[]]

/-- Whether an element passes a test. -/
def Test.accepts (s : Xml.Spot) : Test → Bool
  | has name => (s.element.value? name).isSome
  | equals name value => s.element.value? name = some value
  | includes name word =>
    (s.element.value? name).any fun value => (words value.toList).contains word.toList
  | startsWith name text =>
    (s.element.value? name).any fun value =>
      value = text || (text.toList ++ ['-']).isPrefixOf value.toList
  | isFirstChild => s.before.isEmpty
  | never => false

/-- Whether an element is as asked. Names are compared without their namespaces. -/
def Compound.accepts (c : Compound) (s : Xml.Spot) : Bool :=
  c.tag.all (· = s.element.name.name) && c.tests.all (Test.accepts s)

namespace Selector

/-- Whether the elements around one are as asked. -/
def fits (s : Xml.Spot) : List (Combinator × Compound) → Bool
  | [] => true
  | (.descendant, c) :: rest => s.ancestors.any fun t => c.accepts t && fits t rest
  | (.child, c) :: rest => s.parent?.any fun t => c.accepts t && fits t rest
  | (.adjacent, c) :: rest => s.previous?.any fun t => c.accepts t && fits t rest

def accepts (x : Selector) (s : Xml.Spot) : Bool := x.last.accepts s && fits s x.before

/-- What decides between selectors: tests of the identifier first, then other tests, then
names of elements. -/
structure Weight where
  ids : Nat
  tests : Nat
  tags : Nat
  deriving DecidableEq, Repr

/-- Whether a weight is at most another one. -/
def Weight.isUpTo (a b : Weight) : Bool :=
  a.ids < b.ids ||
    (a.ids == b.ids && (a.tests < b.tests || (a.tests == b.tests && a.tags ≤ b.tags)))

/-- Weights are counted up to here. -/
def maxCount : Nat := 255

private def asksForId : Test → Bool
  | .has name | .equals name _ | .includes name _ | .startsWith name _ => name = "id"
  | _ => false

def weight (x : Selector) : Weight :=
  let all := x.last :: x.before.map (·.2)
  let tests := all.flatMap Compound.tests
  { ids := min maxCount (tests.countP asksForId)
    tests := min maxCount (tests.countP fun t => !asksForId t)
    tags := min maxCount (all.countP (·.tag.isSome)) }

/-- What is known of a selector while it is read. -/
structure Draft where
  /-- What has been read, from right to left; the combinator of the leftmost one is of no use. -/
  parts : List (Combinator × Compound)
  /-- The combinator after the last part. At the start there is none and a part is due as well. -/
  pending : Option Combinator
  isDue : Bool

namespace Draft

def start : Draft := ⟨[], none, true⟩

/-- The draft after a new compound. -/
def add (d : Draft) (c : Compound) : Draft :=
  ⟨(d.pending.getD .descendant, c) :: d.parts, none, false⟩

/-- The draft after a test, which belongs to the last compound unless a new one is due. -/
def addTest (d : Draft) (t : Test) : Draft :=
  match d.parts, d.pending with
  | (joint, c) :: rest, none => ⟨(joint, { c with tests := c.tests ++ [t] }) :: rest, none, false⟩
  | _, _ => d.add ⟨none, [t]⟩

/-- The draft after a combinator. -/
def join (d : Draft) (c : Combinator) : Draft := { d with pending := some c, isDue := true }

/-- The selector, if nothing is due and it begins with no combinator. -/
def selector? (d : Draft) : Option Selector :=
  match d.parts with
  | [] => none
  | (joint, c) :: rest =>
    let rec chain (joint : Combinator) : List (Combinator × Compound) → List (Combinator × Compound)
      | [] => []
      | (next, c) :: rest => (joint, c) :: chain next rest
    if d.isDue then none else some ⟨c, chain joint rest⟩

end Draft

/-- The test of an attribute after its opening bracket, and what follows the closing one. -/
private def takeAttribute? (text : List Char) : Option (Test × List Char) := do
  let (name, rest) ← takeName? text
  let quoted? (make : String → Test) (rest : List Char) : Option (Test × List Char) := do
    match ← takeQuoted? rest with
    | (value, ']' :: rest) => return (make (String.ofList value), rest)
    | _ => none
  match rest with
  | ']' :: rest => return (.has name, rest)
  | '=' :: rest => quoted? (.equals name) rest
  | '~' :: '=' :: rest => quoted? (.includes name) rest
  | '|' :: '=' :: rest => quoted? (.startsWith name) rest
  | _ => none

/-- The test of a state after its colon, or none for a state that is not known, and what
follows. -/
private def takeState (text : List Char) : Option Test × List Char :=
  match takeName? text with
  | none => (none, text)
  | some ("first-child", rest) => (some .isFirstChild, rest)
  | some ("lang", '(' :: rest) =>
    match rest.dropWhile (· ≠ ')') with
    | _ :: after =>
      (if trimBlanks (rest.takeWhile (· ≠ ')')) = [] then none else some .never, after)
    | [] => (none, [])
  | some (name, rest) =>
    (if ["link", "visited", "hover", "active", "focus"].contains name then some .never else none,
      rest)

/-- What follows comments with white space after each, or what follows a fault in them. -/
private def skipComments (rounds : Nat) (text : List Char) : Except (List Char) (List Char) :=
  match rounds, text with
  | rounds + 1, '/' :: '*' :: rest =>
    match skipComment? rest with
    | some rest => skipComments rounds (skipSpaces rest)
    | none => .error []
  | _, '/' :: rest => .error rest
  | _, _ => .ok text

/-- How reading a selector ended. -/
inductive Outcome where
  | done (selector : Option Selector) (rest : List Char)
  | more (draft : Draft) (rest : List Char)

/-- One step of reading a selector at a character that ends none. A selector that is malformed
is none, and what follows the fault is left. -/
private def step (rounds : Nat) (d : Draft) (text : List Char) (c : Char) (rest : List Char) :
    Outcome :=
  let tested (found : Option (Test × List Char)) : Outcome :=
    match found with
    | some (t, rest) => .more (d.addTest t) rest
    | none => .done none rest
  let named (make : String → Test) : Outcome :=
    tested ((takeName? rest).map fun (name, rest) => (make name, rest))
  match c with
  | '*' => if d.isDue then .more (d.add ⟨none, []⟩) rest else .done none text
  | '#' => named (.equals "id")
  | '.' => named (.includes "class")
  | '[' => tested (takeAttribute? rest)
  | ':' =>
    match takeState rest with
    | (some t, rest) => .more (d.addTest t) rest
    | (none, rest) => .done none rest
  | '>' => if d.isDue then .done none text else .more (d.join .child) rest
  | '+' => if d.isDue then .done none text else .more (d.join .adjacent) rest
  | '/' =>
    match rest with
    | '*' :: rest =>
      match skipComment? rest with
      | some rest => .more d rest
      | none => .done none []
    | _ => .done d.selector? text
  | _ =>
    if isSpace c then
      if d.isDue then .more d (skipSpaces rest)
      else
        match skipComments rounds (skipSpaces rest) with
        | .error rest => .done none rest
        | .ok rest =>
          match rest with
          | [] | '>' :: _ | '+' :: _ | ',' :: _ | '{' :: _ => .more d rest
          | _ => .more (d.join .descendant) rest
    else
      match takeName? text with
      | some (name, rest) =>
        if d.isDue then .more (d.add ⟨some name, []⟩) rest else .done none rest
      | none => .done none text

/-- What a draft becomes as the text goes on. Every step takes characters, so as many rounds
suffice as the text has. -/
def takeIn (rounds : Nat) (d : Draft) (text : List Char) : Option Selector × List Char :=
  match rounds, text with
  | _, [] => (d.selector?, [])
  | 0, _ => (none, text)
  | _, ',' :: _ | _, '{' :: _ => (d.selector?, text)
  | rounds + 1, c :: rest =>
    match step rounds d text c rest with
    | .done selector rest => (selector, rest)
    | .more d rest => takeIn rounds d rest

/-- The selector that a text starts with, if it is well-formed, and what remains from its end or
its fault on. -/
def take (rounds : Nat) (text : List Char) : Option Selector × List Char :=
  takeIn rounds .start text

end Selector

end ImagePlacement.Css
