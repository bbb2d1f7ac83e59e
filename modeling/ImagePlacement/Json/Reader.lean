import ImagePlacement.Json.Basic
import ImagePlacement.Json.Token

namespace ImagePlacement.Json

/-- A value that has been opened and not yet closed. What it holds so far is kept in
reverse order. -/
inductive Frame where
  | array (items : List Json)
  | object (members : List (Option String × Json))
  /-- An object whose last key has no value yet. -/
  | member (members : List (Option String × Json)) (key : Option String)

/-- What the next token may be. -/
inductive Demand where
  /-- A value. -/
  | value
  /-- A value, or the end of the array just opened. -/
  | firstItem
  /-- A key, or the end of the object just opened. -/
  | firstKey
  | key
  | colon
  /-- A comma, or the end of the innermost open value. -/
  | separator

/-- A reader between two tokens. -/
structure Reader where
  frames : List Frame
  demand : Demand
  /-- The whole value, once it has been read. -/
  result : Option Json

namespace Reader

def start : Reader := ⟨[], .value, none⟩

/-- The reader after a complete value. -/
def deliver (frames : List Frame) (value : Json) : Option Reader :=
  match frames with
  | [] => some ⟨[], .separator, some value⟩
  | .array items :: outer => some ⟨.array (value :: items) :: outer, .separator, none⟩
  | .member members key :: outer =>
    some ⟨.object ((key, value) :: members) :: outer, .separator, none⟩
  | .object _ :: _ => none

/-- A token that may start a value. -/
def begin (frames : List Frame) : Token → Option Reader
  | .null => deliver frames .null
  | .bool b => deliver frames (.bool b)
  | .number n => deliver frames (.number n)
  | .string s => deliver frames (.string s)
  | .openArray => some ⟨.array [] :: frames, .firstItem, none⟩
  | .openObject => some ⟨.object [] :: frames, .firstKey, none⟩
  | _ => none

/-- The end of the innermost open value. -/
def close (frames : List Frame) : Token → Option Reader
  | .closeArray =>
    match frames with
    | .array items :: outer => deliver outer (.array items.reverse)
    | _ => none
  | .closeObject =>
    match frames with
    | .object members :: outer => deliver outer (.object members.reverse)
    | _ => none
  | _ => none

/-- A key of the innermost open object. -/
def enterKey (frames : List Frame) : Token → Option Reader
  | .string key =>
    match frames with
    | .object members :: outer => some ⟨.member members key :: outer, .colon, none⟩
    | _ => none
  | _ => none

/-- A comma after a complete element. -/
def proceed (frames : List Frame) : Option Reader :=
  match frames with
  | .array _ :: _ => some ⟨frames, .value, none⟩
  | .object _ :: _ => some ⟨frames, .key, none⟩
  | _ => none

/-- The reader after one more token, unless the token may not stand there. -/
def step (r : Reader) (token : Token) : Option Reader :=
  match r.demand, token with
  | .value, _ => begin r.frames token
  | .firstItem, .closeArray | .firstKey, .closeObject => close r.frames token
  | .firstItem, _ => begin r.frames token
  | .firstKey, _ | .key, _ => enterKey r.frames token
  | .colon, .colon => some ⟨r.frames, .value, none⟩
  | .colon, _ => none
  | .separator, .comma => proceed r.frames
  | .separator, _ => close r.frames token

end Reader

/-- The value that a text writes, if it writes exactly one. -/
def ofText? (text : List Char) : Option Json := do
  let tokens ← Token.ofText text
  let reader ← tokens.foldlM Reader.step Reader.start
  reader.result

end ImagePlacement.Json
