import ImagePlacement.Decimal.Literal

namespace ImagePlacement.Json

/-- The words that JSON text is made of. -/
inductive Token where
  | null
  | bool (value : Bool)
  | number (natural : Option Nat)
  | string (text : Option String)
  | openArray
  | closeArray
  | openObject
  | closeObject
  | colon
  | comma
  deriving DecidableEq, Repr

namespace Token

/-- The white space of JSON. -/
def isSpace (c : Char) : Bool := c == ' ' || c == '\t' || c == '\n' || c == '\r'

/-- One element of a string: a character, or a code unit written as an escape. -/
inductive Piece where
  | char (c : Char)
  | code (n : Nat)
  deriving DecidableEq, Repr

/-- The value of a hexadecimal digit. -/
def hexDigit? (c : Char) : Option Nat :=
  if '0' ≤ c ∧ c ≤ '9' then some (c.toNat - 48)
  else if 'a' ≤ c ∧ c ≤ 'f' then some (c.toNat - 87)
  else if 'A' ≤ c ∧ c ≤ 'F' then some (c.toNat - 55)
  else none

/-- The number that four hexadecimal digits write. -/
def code? (a b c d : Char) : Option Nat := do
  return (((← hexDigit? a) * 16 + (← hexDigit? b)) * 16 + (← hexDigit? c)) * 16 + (← hexDigit? d)

/-- The character that a letter after a backslash stands for. -/
def simpleEscape? (c : Char) : Option Char :=
  match c with
  | '\x22' | '\\' | '/' => some c
  | 'b' => some '\x08'
  | 'f' => some '\x0c'
  | 'n' => some '\n'
  | 'r' => some '\r'
  | 't' => some '\t'
  | _ => none

/-- The elements of a string up to its closing quote, and the text after that. Elements
read before are kept in reverse order. -/
def readPieces (done : List Piece) : List Char → Option (List Piece × List Char)
  | '\\' :: 'u' :: a :: b :: c :: d :: rest =>
    match code? a b c d with
    | some n => readPieces (.code n :: done) rest
    | none => none
  | '\\' :: c :: rest =>
    match simpleEscape? c with
    | some e => readPieces (.char e :: done) rest
    | none => none
  | '\\' :: [] => none
  | c :: rest =>
    if c = '\x22' then some (done.reverse, rest)
    else if c.toNat < 0x20 then none
    else readPieces (.char c :: done) rest
  | [] => none

/-- A code unit that opens a surrogate pair. -/
def isHighSurrogate (n : Nat) : Bool := 0xD800 ≤ n && n ≤ 0xDBFF

/-- A code unit that closes a surrogate pair. -/
def isLowSurrogate (n : Nat) : Bool := 0xDC00 ≤ n && n ≤ 0xDFFF

/-- The text of string elements, unless a surrogate stands alone. Characters read before
are kept in reverse order. -/
def joinPieces (done : List Char) : List Piece → Option (List Char)
  | [] => some done.reverse
  | .char c :: rest => joinPieces (c :: done) rest
  | .code n :: rest =>
    if isLowSurrogate n then none
    else if isHighSurrogate n then
      match rest with
      | .code m :: rest =>
        if isLowSurrogate m then
          joinPieces (Char.ofNat (0x10000 + (n - 0xD800) * 1024 + (m - 0xDC00)) :: done) rest
        else none
      | _ => none
    else joinPieces (Char.ofNat n :: done) rest

/-- A string, after its opening quote. -/
def string? (text : List Char) : Option (Token × List Char) :=
  (readPieces [] text).map fun (pieces, rest) =>
    (string ((joinPieces [] pieces).map String.ofList), rest)

/-- Digits, at least one. -/
def digits? (text : List Char) : Option (List Nat × List Char) :=
  match Decimal.takeDigits text with
  | ([], _) => none
  | found => some found

/-- The digits of an integer: no zero stands before other digits. -/
def integer? (text : List Char) : Option (List Nat × List Char) :=
  match text with
  | '0' :: rest => some ([0], rest)
  | _ => digits? text

/-- What follows a fraction, if there is one; `true` if there is one. -/
def fraction? (text : List Char) : Option (Bool × List Char) :=
  match text with
  | '.' :: rest => (digits? rest).map fun found => (true, found.2)
  | _ => some (false, text)

/-- What follows an exponent, if there is one; `true` if there is one. -/
def exponent? (text : List Char) : Option (Bool × List Char) :=
  match text with
  | c :: rest =>
    if c = 'e' ∨ c = 'E' then
      (digits? (Decimal.takeSign rest).2).map fun found => (true, found.2)
    else some (false, text)
  | [] => some (false, [])

/-- A number, from its sign on. -/
def number? (text : List Char) : Option (Token × List Char) := do
  let (negative, body) := match text with
    | '-' :: rest => (true, rest)
    | _ => (false, text)
  let (digits, rest) ← integer? body
  let (fractional, rest) ← fraction? rest
  let (scaled, rest) ← exponent? rest
  let natural := if negative || fractional || scaled then none else some (Decimal.ofDigits digits)
  return (number natural, rest)

/-- A fixed word, and the text after it. -/
def word? (word : String) (token : Token) (text : List Char) : Option (Token × List Char) :=
  if word.toList.isPrefixOf text then some (token, text.drop word.length) else none

/-- The token that a text starts with, and the text after it. -/
def next? : List Char → Option (Token × List Char)
  | [] => none
  | '[' :: rest => some (openArray, rest)
  | ']' :: rest => some (closeArray, rest)
  | '\x7b' :: rest => some (openObject, rest)
  | '\x7d' :: rest => some (closeObject, rest)
  | ':' :: rest => some (colon, rest)
  | ',' :: rest => some (comma, rest)
  | '\x22' :: rest => string? rest
  | 'n' :: rest => word? "ull" null rest
  | 't' :: rest => word? "rue" (bool true) rest
  | 'f' :: rest => word? "alse" (bool false) rest
  | text => number? text

/-- The tokens of a text; those read before are kept in reverse order. Every token takes
a character, so as many rounds suffice as the text has characters. -/
def readAll (rounds : Nat) (done : List Token) (text : List Char) : Option (List Token) :=
  match rounds, text.dropWhile isSpace with
  | _, [] => some done.reverse
  | 0, _ => none
  | rounds + 1, text =>
    match next? text with
    | some (token, rest) => readAll rounds (token :: done) rest
    | none => none

/-- The tokens of a text, unless it holds something else. -/
def ofText (text : List Char) : Option (List Token) := readAll text.length [] text

end Token

end ImagePlacement.Json
