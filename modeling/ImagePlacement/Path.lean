import ImagePlacement.Format

namespace ImagePlacement

namespace Path

/-- One step of a slash-separated path. -/
inductive Component where
  /-- The slash that makes a path absolute. -/
  | root
  /-- A leading single dot. -/
  | here
  /-- Two dots. -/
  | up
  | name (text : List Char)
  deriving DecidableEq, Repr

/-- The pieces of a text between its slashes: one more than there are slashes. -/
def pieces : List Char → List (List Char)
  | [] => [[]]
  | c :: rest =>
    if c = '/' then [] :: pieces rest
    else
      match pieces rest with
      | [] => [[c]]
      | piece :: more => (c :: piece) :: more

/-- What one piece contributes: empty pieces and single dots are dropped. -/
private def componentOf (piece : List Char) : Option Component :=
  if piece = [] ∨ piece = ['.'] then none
  else if piece = ['.', '.'] then some .up
  else some (.name piece)

/-- The steps of a path. Two paths are the same place exactly when their components
agree, so repeated slashes, inner single dots and a trailing slash do not count, while a
leading single dot and every double dot do. -/
def components (path : String) : List Component :=
  let text := path.toList
  let steps := (pieces text).filterMap componentOf
  match text with
  | '/' :: _ => .root :: steps
  | ['.'] => .here :: steps
  | '.' :: '/' :: _ => .here :: steps
  | _ => steps

/-- The last component, if it is a name. -/
def fileName? (path : String) : Option (List Char) :=
  match (components path).getLast? with
  | some (.name text) => some text
  | _ => none

/-- What follows the last dot of a file name. A name whose only dot is its first
character has no extension. -/
def extension? (path : String) : Option (List Char) := do
  let name ← fileName? path
  let after := name.reverse.takeWhile (· ≠ '.')
  if after.length + 1 < name.length then some after.reverse else none

/-- The format that the path's extension suggests. -/
def suggestedFormat (path : String) : Format :=
  Format.ofExtension (String.ofList ((extension? path).getD []))

end Path

end ImagePlacement
