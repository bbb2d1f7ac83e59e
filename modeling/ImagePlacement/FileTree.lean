import ImagePlacement.Path
import ImagePlacement.Bytes

namespace ImagePlacement

/-- What stands at a path. -/
inductive Node where
  | file (content : Bytes)
  | folder

/-- What is told of what stands at a path. -/
inductive Metadata where
  | file (length : Nat)
  | folder

/-- Why a path leads nowhere, or what stands there cannot be read. -/
inductive PathFault where
  | missing
  /-- The path goes on after a file. -/
  | notFolder
  | isFolder
  | nameTooLong
  | embeddedNul
  /-- The files cannot be seen for another reason. -/
  | other (reason : String)
  deriving DecidableEq, Repr

def PathFault.message : PathFault → String
  | missing => "No such file or directory (os error 2)"
  | notFolder => "Not a directory (os error 20)"
  | isFolder => "Is a directory (os error 21)"
  | nameTooLong => "File name too long (os error 36)"
  | embeddedNul => "file name contained an unexpected NUL byte"
  | other reason => reason

/-- What comes back when a program asks what stands at a path, and when it reads it after that. What
stands there may change in between, so that the two need not agree. -/
structure PathView where
  metadata : Except PathFault Metadata
  content : Except PathFault Bytes

namespace PathView

/-- Whether anything was found. -/
def isThere (p : PathView) : Bool := p.metadata.isOk

def file (content : Bytes) : PathView := ⟨.ok (.file content.length), .ok content⟩

def folder : PathView := ⟨.ok .folder, .error .isFolder⟩

def absent (fault : PathFault) : PathView := ⟨.error fault, .error fault⟩

/-- What a program sees of a node that stays as it is. -/
def ofNode : Except PathFault Node → PathView
  | .ok (.file content) => file content
  | .ok .folder => folder
  | .error fault => absent fault

end PathView

/-- What a program sees of the files around it. -/
abbrev FileView := String → PathView

/-- A folder with all that is in it. Every entry is known by the names that lead to it, and the
folders on the way are entries too. -/
structure FileTree where
  entries : List (List (List Char) × Node)

/-- Where a walk along a path stands. -/
inductive FilePlace where
  /-- In the tree, after the given names, the last one first. -/
  | within (names : List (List Char))
  /-- In a folder above the tree, of which nothing else is known. -/
  | above

namespace FileTree

def empty : FileTree := ⟨[]⟩

/-- The longest name, in bytes. -/
def maxName : Nat := 255

/-- The longest path, in bytes. -/
def maxPath : Nat := 4095

/-- What stands at a place. The tree itself and all above it are folders. -/
def nodeAt? (t : FileTree) : FilePlace → Option Node
  | .above => some .folder
  | .within [] => some .folder
  | .within names => t.entries.lookup names

/-- Goes on from a place by one piece of a path. Empty pieces and single dots stay. -/
def step (t : FileTree) (place : FilePlace) (piece : List Char) : Except PathFault FilePlace :=
  match t.nodeAt? place with
  | none => .error .missing
  | some (.file _) => .error .notFolder
  | some .folder =>
    if piece = [] ∨ piece = ['.'] then .ok place
    else if piece = ['.', '.'] then
      match place with
      | .within (_ :: outer) => .ok (.within outer)
      | _ => .ok .above
    else if maxName < (String.ofList piece).utf8ByteSize then .error .nameTooLong
    else
      match place with
      | .within names =>
        let next := .within (piece :: names)
        if (t.nodeAt? next).isSome then .ok next else .error .missing
      | .above => .error .missing

/-- The place that a path leads to. -/
def placeOf (t : FileTree) (path : String) : Except PathFault FilePlace :=
  let text := path.toList
  (Path.pieces text).foldlM t.step (if text.head? = some '/' then .above else .within [])

/-- What stands at a path, seen from the tree. -/
def node (t : FileTree) (path : String) : Except PathFault Node :=
  if path.contains '\x00' then .error .embeddedNul
  else if path = "" then .error .missing
  else if maxPath < path.utf8ByteSize then .error .nameTooLong
  else do
    match t.nodeAt? (← t.placeOf path) with
    | some node => .ok node
    | none => .error .missing

/-- What a program sees of a tree that nobody changes. -/
def find (t : FileTree) : FileView := fun path => .ofNode (t.node path)

/-- Makes an entry a folder unless it stands already. -/
def ensureFolder (t : FileTree) (names : List (List Char)) : FileTree :=
  if (t.nodeAt? (.within names)).isSome then t else ⟨(names, .folder) :: t.entries⟩

/-- Makes every folder on a way, and tells the names that the way ends with, the last one first.
Double dots go back by one name, but the folder that they leave is made too. -/
def ensureWay (t : FileTree) (way : List Path.Component) : FileTree × List (List Char) :=
  way.foldl (fun (t, names) component =>
    match component with
    | .root | .here => (t, names)
    | .up => (t, names.tail)
    | .name text => (t.ensureFolder (text :: names), text :: names)) (t, [])

/-- Writes a file, together with the folders on the way to it. A folder stays what it is. -/
def write (t : FileTree) (path : String) (content : Bytes) : FileTree :=
  let (t, outer) := t.ensureWay (Path.components path).dropLast
  match Path.fileName? path with
  | none => t
  | some name =>
    let names := name :: outer
    match t.nodeAt? (.within names) with
    | some .folder => t
    | _ => ⟨(names, .file content) :: t.entries.filter fun entry => entry.1 ≠ names⟩

/-- Makes a folder, together with the folders on the way to it. -/
def makeFolder (t : FileTree) (path : String) : FileTree :=
  (t.ensureWay (Path.components path)).1

/-- Removes a file, if one stands there. -/
def remove (t : FileTree) (path : String) : FileTree :=
  match t.placeOf path with
  | .ok (.within names) =>
    match t.nodeAt? (.within names) with
    | some (.file _) => ⟨t.entries.filter fun entry => entry.1 ≠ names⟩
    | _ => t
  | _ => t

end FileTree

end ImagePlacement
