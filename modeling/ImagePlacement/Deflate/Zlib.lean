import ImagePlacement.Deflate.Inflate

namespace ImagePlacement

namespace Deflate.Reader

/-- Whether the block that a stream starts with is compressed by the fixed codes and holds
nothing; if so, whether it is the last one, and the stream after it. -/
def emptyBlock? (s : Bits) : Option (Bool × Bits) :=
  match s.take 10 with
  | .ok (n, s) => if n / 2 = 1 then some (n % 2 = 1, s) else none
  | .error _ => none

/-- Whether the headers that follow a reader's place are sound, as far as they are read ahead. No
symbol but the end of a block is read, and that only where the longest word would fit. -/
def isSoundAhead (r : Reader) : Nat → Bool
  | 0 => true
  | rounds + 1 =>
    match r.phase with
    | .finished => true
    | .stored 0 final => { r with phase := .afterBlock final }.isSoundAhead rounds
    | .stored _ _ => true
    | .symbols codes final =>
      if !r.bits.has Huffman.longest then true
      else
        match codes.literals.symbol r.bits with
        | .ok (symbol, s) =>
          if symbol = endOfBlock then
            { r with phase := .afterBlock final, bits := s }.isSoundAhead rounds
          else true
        | .error _ => true
    | .header =>
      match r.bits.has 10, emptyBlock? r.bits, takeHeader r.bits false with
      | false, _, _ => true
      | true, some (final, s), _ =>
        { r with phase := .afterBlock final, bits := s }.isSoundAhead rounds
      | true, none, .ok (phase, s) =>
        { r with phase := phase, bits := s }.isSoundAhead rounds
      | true, none, .error flaw => flaw = .exhausted

/-- The reader without the data after the piece that it stands in. -/
def cut (r : Reader) (pieces : List Bytes) : Reader :=
  let total := pieces.flatten.length
  let begun := total - r.bits.rest.length
  let ends := pieces.foldl (fun ends piece => (ends.headD 0 + piece.length) :: ends) []
  match ends.reverse.find? (begun ≤ ·) with
  | some stop => { r with bits := { r.bits with rest := r.bits.rest.take (stop - begun) } }
  | none => r

end Deflate.Reader

namespace Zlib

/-- The compressed data after a header of two bytes. -/
def body? : Bytes → Option Bytes
  | method :: flags :: rest =>
    if method.toNat % 16 = 8 ∧ method.toNat / 16 ≤ 7 ∧ flags.toNat / 32 % 2 = 0 ∧
        (256 * method.toNat + flags.toNat) % 31 = 0 then some rest
    else none
  | _ => none

/-- The first `size` bytes of the content of a zlib stream that comes in pieces. The stream may
end there. What follows is only looked at if no byte more has come out and if it is in the same
piece; then the block headers that can be read ahead must be sound. -/
def take? (pieces : List Bytes) (size : Nat) : Option ByteArray := do
  let r := Deflate.Reader.start (← body? pieces.flatten)
  match r.run false (some size) r.rounds with
  | .error _ => none
  | .ok r =>
    if r.out.size < size then none
    else if r.out.size = size then
      let r := r.cut pieces
      if r.isSoundAhead r.rounds then some r.out else none
    else some r.out

end Zlib

end ImagePlacement
