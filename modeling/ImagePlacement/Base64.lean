import ImagePlacement.Bytes

namespace ImagePlacement.Base64

/-- The byte that fills up the last group of a text. -/
def padding : UInt8 := 0x3D

/-- The digit of a value below 64. -/
def symbol (value : Nat) : UInt8 :=
  if value < 26 then UInt8.ofNat (0x41 + value)
  else if value < 52 then UInt8.ofNat (0x61 + (value - 26))
  else if value < 62 then UInt8.ofNat (0x30 + (value - 52))
  else if value = 62 then 0x2B
  else 0x2F

/-- The value of a digit; nothing for any other byte. -/
def value? (b : UInt8) : Option Nat :=
  if 0x41 ≤ b ∧ b ≤ 0x5A then some (b.toNat - 0x41)
  else if 0x61 ≤ b ∧ b ≤ 0x7A then some (b.toNat - 0x61 + 26)
  else if 0x30 ≤ b ∧ b ≤ 0x39 then some (b.toNat - 0x30 + 52)
  else if b = 0x2B then some 62
  else if b = 0x2F then some 63
  else none

def isDigit (b : UInt8) : Bool := (value? b).isSome

def value (b : UInt8) : Nat := (value? b).getD 0

/-- The standard encoding: every three bytes become four digits, and a last group of one
or two bytes is padded to four. -/
def encode : Bytes → Bytes
  | [] => []
  | [a] => [symbol (a.toNat / 4), symbol (a.toNat % 4 * 16), padding, padding]
  | [a, b] =>
    [symbol (a.toNat / 4), symbol (a.toNat % 4 * 16 + b.toNat / 16),
      symbol (b.toNat % 16 * 4), padding]
  | a :: b :: c :: rest =>
    symbol (a.toNat / 4) :: symbol (a.toNat % 4 * 16 + b.toNat / 16) ::
      symbol (b.toNat % 16 * 4 + c.toNat / 64) :: symbol (c.toNat % 64) :: encode rest

/-- Why a text is no standard encoding. Offsets count from its first byte. -/
inductive Fault where
  | badSymbol (byte : UInt8) (offset : Nat)
  /-- The last digit has bits that belong to no byte. -/
  | badLastSymbol (byte : UInt8) (offset : Nat)
  | badLength (length : Nat)
  | badPadding
  deriving DecidableEq, Repr

def Fault.message : Fault → String
  | badSymbol byte offset =>
    "Invalid symbol " ++ toString byte.toNat ++ ", offset " ++ toString offset ++ "."
  | badLastSymbol byte offset =>
    "Invalid last symbol " ++ toString byte.toNat ++ ", offset " ++ toString offset ++ "."
  | badLength length => "Invalid input length: " ++ toString length
  | badPadding => "Invalid padding"

/-- The first byte that is no digit, with its offset. -/
def firstStray? (offset : Nat) : Bytes → Option (UInt8 × Nat)
  | [] => none
  | b :: rest => if isDigit b then firstStray? (offset + 1) rest else some (b, offset)

/-- The first bytes of the three that four digits stand for. -/
def group (a b c d : UInt8) : Bytes :=
  [UInt8.ofNat (value a * 4 + value b / 16), UInt8.ofNat (value b % 16 * 16 + value c / 4),
    UInt8.ofNat (value c % 4 * 64 + value d)]

/-- The bytes of whole groups of digits, after those of the groups before, which are
kept in reverse order. -/
def decodeGroups (done : Bytes) : Bytes → Bytes
  | a :: b :: c :: d :: rest => decodeGroups ((group a b c d).reverse ++ done) rest
  | _ => done.reverse

/-- The digits and the number of padding bytes of the last group, which starts at a given
offset. Padding may only follow two digits or more, and only padding may follow it. -/
def splitLast (offset : Nat) (last : Bytes) : Except Fault (Bytes × Nat) :=
  let digits := last.takeWhile isDigit
  match last.dropWhile isDigit with
  | [] => .ok (digits, 0)
  | b :: more =>
    if b ≠ padding ∨ digits.length < 2 ∨ more.any (· ≠ padding) then
      .error (.badSymbol b (offset + digits.length))
    else .ok (digits, more.length + 1)

/-- The bytes of the digits of the last group. Bits that fill no byte must be zero. -/
def decodeLast (offset : Nat) (digits : Bytes) : Except Fault Bytes :=
  match digits with
  | [a, b] =>
    if value b % 16 = 0 then .ok ((group a b 0x41 0x41).take 1)
    else .error (.badLastSymbol b (offset + 1))
  | [a, b, c] =>
    if value c % 4 = 0 then .ok ((group a b c 0x41).take 2)
    else .error (.badLastSymbol c (offset + 2))
  | [a, b, c, d] => .ok (group a b c d)
  | _ => .ok []

/-- A single byte after whole groups that is neither digit nor padding. -/
def loneStray? (text : Bytes) : Option (UInt8 × Nat) :=
  if text.length % 4 = 1 then
    (text.getLast?.filter fun b => !isDigit b && b != padding).map (·, text.length - 1)
  else none

/-- The bytes that a text encodes. Faults before the last group are found first, but a
lone last byte is judged even before them. -/
def decode (text : Bytes) : Except Fault Bytes :=
  let start := (text.length - 1) / 4 * 4
  match loneStray? text, firstStray? 0 (text.take start) with
  | some (b, offset), _ => .error (.badSymbol b offset)
  | none, some (b, offset) => .error (.badSymbol b offset)
  | none, none => do
    let (digits, pads) ← splitLast start (text.drop start)
    if text ≠ [] ∧ digits.length < 2 then .error (.badLength (start + digits.length))
    else if text ≠ [] ∧ digits.length + pads ≠ 4 then .error .badPadding
    else
      let last ← decodeLast start digits
      .ok (decodeGroups [] (text.take start) ++ last)

end ImagePlacement.Base64
