import ImagePlacement.Decimal.Text

namespace ImagePlacement.Json

/-- A JSON value that is to be written. -/
inductive Written where
  | null
  | natural (n : Nat)
  | number (x : Float)
  | text (s : String)
  | list (items : List Written)
  | fields (members : List (String × Written))

namespace Written

def ofOption {α : Type} (write : α → Written) : Option α → Written
  | some a => write a
  | none => null

/-- A character inside quotes. -/
def escape (c : Char) : List Char :=
  let digit (n : Nat) : Char := Char.ofNat (if n < 10 then 48 + n else 87 + n)
  if c = '\x22' ∨ c = '\\' then ['\\', c]
  else if c = '\x08' then ['\\', 'b']
  else if c = '\x0c' then ['\\', 'f']
  else if c = '\n' then ['\\', 'n']
  else if c = '\r' then ['\\', 'r']
  else if c = '\t' then ['\\', 't']
  else if c.toNat < 0x20 then ['\\', 'u', '0', '0', digit (c.toNat / 16), digit (c.toNat % 16)]
  else [c]

def quoted (s : String) : String := String.ofList ('\x22' :: s.toList.flatMap escape ++ ['\x22'])

/-- A new line with two blanks for every open bracket. -/
def newline (depth : Nat) : String := "\n" ++ String.ofList (List.replicate (2 * depth) ' ')

/-- Elements between brackets, each on a line of its own. -/
def enclose (opening closing : String) (depth : Nat) (elements : List String) : String :=
  if elements.isEmpty then opening ++ closing
  else
    opening ++ newline (depth + 1) ++ ("," ++ newline (depth + 1)).intercalate elements ++
      newline depth ++ closing

mutual

/-- The text of a value inside a number of brackets. -/
def pretty (depth : Nat) : Written → String
  | null => "null"
  | natural n => toString n
  | number x => Decimal.asJson x
  | text s => quoted s
  | list items => enclose "[" "]" depth (prettyItems (depth + 1) items)
  | fields members => enclose "\x7b" "\x7d" depth (prettyMembers (depth + 1) members)

def prettyItems (depth : Nat) : List Written → List String
  | [] => []
  | item :: rest => pretty depth item :: prettyItems depth rest

def prettyMembers (depth : Nat) : List (String × Written) → List String
  | [] => []
  | (name, value) :: rest =>
    (quoted name ++ ": " ++ pretty depth value) :: prettyMembers depth rest

end

end Written

end ImagePlacement.Json
