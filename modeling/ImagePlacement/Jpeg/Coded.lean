import ImagePlacement.Jpeg.Segment

namespace ImagePlacement.Jpeg

/-- A prefix code: how many words there are of the lengths 1, 2, …, and the symbols in the order
of their words. -/
structure PrefixCode where
  counts : List Nat
  symbols : Array UInt8

namespace PrefixCode

/-- Bits of the longest word. -/
def longest : Nat := 16

/-- Whether the numbers of words of the lengths 1, 2, … leave the word of all ones free at each
length; `word` is the first one of the length reached. -/
def isRoomy (word length : Nat) : List Nat → Bool
  | [] => true
  | n :: rest =>
    let next := word + n
    next < 1 <<< length && isRoomy (2 * next) (length + 1) rest

/-- The symbol and the length of the word that a number of `longest` bits starts with. Words of
the length reached start at `first` and their symbols at `index`. -/
def findFrom? (symbols : Array UInt8) (bits length first index : Nat) :
    List Nat → Option (UInt8 × Nat)
  | [] => none
  | n :: counts =>
    let word := bits >>> (longest - length)
    if word < first + n then (symbols[index + (word - first)]?).map (·, length)
    else findFrom? symbols bits (length + 1) (2 * (first + n)) (index + n) counts

/-- The symbol and the length of the word that a number of `longest` bits starts with. -/
def find? (code : PrefixCode) (bits : Nat) : Option (UInt8 × Nat) :=
  findFrom? code.symbols bits 1 0 0 code.counts

end PrefixCode

/-- The coded bits of a scan, as far as they have been fetched, and the bytes after them. -/
structure Coded where
  rest : Bytes
  /-- The bits that have been fetched and not been read, as a number. -/
  window : Nat
  /-- How many they are. -/
  count : Nat
  /-- The marker that ends the bits. -/
  marker : Option UInt8

namespace Coded

def ofBytes (rest : Bytes) : Coded := ⟨rest, 0, 0, none⟩

/-- Fetches a byte, unless a marker has ended the bits. A zero after a lead byte is no part of
the bits, and the bits go on with zeros after the end. -/
def fetch (c : Coded) : Coded :=
  let push (b : UInt8) (rest : Bytes) : Coded :=
    { c with rest := rest, window := 256 * c.window + b.toNat, count := c.count + 8 }
  if c.marker.isSome then c
  else
    match c.rest with
    | [] => push 0 []
    | b :: rest =>
      if b ≠ Marker.lead then push b rest
      else
        match rest.dropWhile (· = Marker.lead) with
        | [] => push b []
        | m :: after => if m = 0 then push b after else { c with rest := after, marker := some m }

/-- Bits that are fetched ahead. -/
def ahead : Nat := 32

/-- Fetches up to four bytes where few bits are left. A marker that is not known is a fault. -/
def refill? (c : Coded) : Option Coded :=
  let c := if c.count < ahead then c.fetch.fetch.fetch.fetch else c
  if c.marker.all Marker.isKnown then some c else none

/-- The number that the next `n` bits make up, filled up with zeros. -/
def peek (c : Coded) (n : Nat) : Nat :=
  if n ≤ c.count then c.window >>> (c.count - n) else c.window <<< (n - c.count)

def drop (c : Coded) (n : Nat) : Coded :=
  { c with window := c.window % (1 <<< (c.count - n)), count := c.count - n }

/-- The next symbol of a code. -/
def symbol? (c : Coded) (code : PrefixCode) : Option (UInt8 × Coded) := do
  let c ← c.refill?
  let (symbol, length) ← code.find? (c.peek PrefixCode.longest)
  return (symbol, c.drop length)

/-- Whether a marker has been met and all bits before it have been read. -/
def isDry (c : Coded) : Bool := c.marker.isSome && c.count = 0

end Coded

end ImagePlacement.Jpeg
