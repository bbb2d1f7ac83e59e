import ImagePlacement.Bytes

namespace ImagePlacement.Deflate

/-- Why compressed data cannot be read on. -/
inductive Flaw where
  /-- The data ends too early. -/
  | exhausted
  /-- The data breaks a rule. -/
  | broken
  deriving DecidableEq, Repr

/-- A stream of bits, read from the lowest bit of each byte on. -/
structure Bits where
  /-- The bytes not yet begun. -/
  rest : Bytes
  /-- The unread bits of the byte that has been begun. -/
  held : Nat
  /-- How many they are. -/
  count : Nat

namespace Bits

def ofBytes (bs : Bytes) : Bits := ⟨bs, 0, 0⟩

/-- How many bits are left. -/
def size (s : Bits) : Nat := 8 * s.rest.length + s.count

/-- Whether at least `n` bits are left. -/
def has (s : Bits) (n : Nat) : Bool := n ≤ 8 * (s.rest.take (n / 8 + 1)).length + s.count

/-- The next bit, as zero or one. -/
def next (s : Bits) : Except Flaw (Nat × Bits) :=
  if s.count = 0 then
    match s.rest with
    | [] => .error .exhausted
    | b :: rest => .ok (b.toNat % 2, ⟨rest, b.toNat / 2, 7⟩)
  else .ok (s.held % 2, ⟨s.rest, s.held / 2, s.count - 1⟩)

/-- The number that the next `n` bits make up, lowest first. -/
def take (s : Bits) : Nat → Except Flaw (Nat × Bits)
  | 0 => .ok (0, s)
  | n + 1 =>
    match s.next with
    | .error flaw => .error flaw
    | .ok (low, s) => (s.take n).map fun (high, s) => (low + 2 * high, s)

/-- The bytes after the one that has been begun. -/
def aligned (s : Bits) : Bytes := s.rest

end Bits

end ImagePlacement.Deflate
