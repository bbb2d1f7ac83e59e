import ImagePlacement.Deflate.Huffman

namespace ImagePlacement.Deflate

/-- The two codes of a block of compressed data. -/
structure Codes where
  /-- Literal bytes, the end of the block and lengths of copies. -/
  literals : Huffman
  /-- Distances of copies. -/
  distances : Huffman

/-- Where a reader of compressed data stands. -/
inductive Phase where
  /-- Before a block. -/
  | header
  /-- Inside a block that is not compressed, with so many bytes to come. -/
  | stored (left : Nat) (final : Bool)
  /-- Inside a compressed block. -/
  | symbols (codes : Codes) (final : Bool)
  /-- After the last block. -/
  | finished

/-- The literal that ends a block. -/
def endOfBlock : Nat := 256

/-- The least length of each length symbol from 257 on, and its number of extra bits. -/
def lengthBases : List (Nat × Nat) :=
  [(3, 0), (4, 0), (5, 0), (6, 0), (7, 0), (8, 0), (9, 0), (10, 0), (11, 1), (13, 1), (15, 1),
    (17, 1), (19, 2), (23, 2), (27, 2), (31, 2), (35, 3), (43, 3), (51, 3), (59, 3), (67, 4),
    (83, 4), (99, 4), (115, 4), (131, 5), (163, 5), (195, 5), (227, 5), (258, 0)]

/-- The least distance of each distance symbol, and its number of extra bits. -/
def distanceBases : List (Nat × Nat) :=
  [(1, 0), (2, 0), (3, 0), (4, 0), (5, 1), (7, 1), (9, 2), (13, 2), (17, 3), (25, 3), (33, 4),
    (49, 4), (65, 5), (97, 5), (129, 6), (193, 6), (257, 7), (385, 7), (513, 8), (769, 8),
    (1025, 9), (1537, 9), (2049, 10), (3073, 10), (4097, 11), (6145, 11), (8193, 12),
    (12289, 12), (16385, 13), (24577, 13)]

/-- The order in which a block gives the lengths of the code for code lengths. -/
def lengthOrder : List Nat :=
  [16, 17, 18, 0, 8, 7, 9, 6, 10, 5, 11, 4, 12, 3, 13, 2, 14, 1, 15]

/-- The codes of blocks that give none of their own. -/
def fixedCodes? : Option Codes := do
  let literals ← Huffman.ofLengths?
    (List.replicate 144 8 ++ List.replicate 112 9 ++ List.replicate 24 7 ++
      List.replicate 8 8) false
  let distances ← Huffman.ofLengths? (List.replicate 32 5) false
  return ⟨literals, distances⟩

/-- `n` numbers of three bits. -/
def takeTriples (s : Bits) : Nat → Except Flaw (List Nat × Bits)
  | 0 => .ok ([], s)
  | n + 1 => do
    let (first, s) ← s.take 3
    let (more, s) ← takeTriples s n
    return (first :: more, s)

/-- `wanted` code lengths after those in `done`, which are kept in reverse order. A length
may be repeated, and runs of zeros are written short. A word is looked for only where the
longest one would still fit. -/
def takeLengths (code : Huffman) (s : Bits) (done : List Nat) (wanted : Nat) :
    Nat → Except Flaw (List Nat × Bits)
  | 0 => .error .broken
  | rounds + 1 =>
    if done.length = wanted then .ok (done.reverse, s)
    else if wanted < done.length then .error .broken
    else if !s.has 7 then .error .exhausted
    else do
      let (symbol, s) ← code.symbol s
      if symbol < 16 then takeLengths code s (symbol :: done) wanted rounds
      else if symbol = 16 then
        let (extra, s) ← s.take 2
        match done.head? with
        | some last => takeLengths code s (List.replicate (3 + extra) last ++ done) wanted rounds
        | none => .error .broken
      else
        let (extra, s) ← s.take (if symbol = 17 then 3 else 7)
        let least := if symbol = 17 then 3 else 11
        takeLengths code s (List.replicate (least + extra) 0 ++ done) wanted rounds

/-- A table of words, or a flaw where the lengths give none. -/
def codeOf (lengths : List Nat) (sparse : Bool) : Except Flaw Huffman :=
  match Huffman.ofLengths? lengths sparse with
  | some code => .ok code
  | none => .error .broken

/-- The codes that a block gives before its data. It must be able to end. -/
def takeCodes (s : Bits) (sparse : Bool) : Except Flaw (Codes × Bits) := do
  let (literalCount, s) ← s.take 5
  let (distanceCount, s) ← s.take 5
  let (lengthCount, s) ← s.take 4
  let literalCount := literalCount + 257
  let distanceCount := distanceCount + 1
  if 286 < literalCount ∨ 30 < distanceCount then .error .broken
  let (triples, s) ← takeTriples s (lengthCount + 4)
  let given := lengthOrder.zip triples
  let lengthCode ← codeOf ((List.range 19).map fun n => (given.lookup n).getD 0) false
  let wanted := literalCount + distanceCount
  let (lengths, s) ← takeLengths lengthCode s [] wanted (wanted + 1)
  let literalLengths := lengths.take literalCount
  if literalLengths.getD endOfBlock 0 = 0 then .error .broken
  let literals ← codeOf literalLengths sparse
  let distances ← codeOf (lengths.drop literalCount) true
  return (⟨literals, distances⟩, s)

/-- The length of a block that is not compressed, which follows with its complement at the next
whole byte. -/
def takeLength (s : Bits) : Except Flaw (Nat × Bits) :=
  match s.aligned with
  | a :: b :: c :: d :: rest =>
    if c ≠ a ^^^ 0xFF ∨ d ≠ b ^^^ 0xFF then .error .broken
    else .ok (a.toNat + 256 * b.toNat, Bits.ofBytes rest)
  | _ => .error .exhausted

/-- The phase that the header of a block leads to. A code for literals may be `sparse` only
where that is asked for. -/
def takeHeader (s : Bits) (sparse : Bool) : Except Flaw (Phase × Bits) := do
  let (final, s) ← s.take 1
  let (kind, s) ← s.take 2
  match kind, fixedCodes? with
  | 0, _ =>
    let (length, s) ← takeLength s
    return (.stored length (final = 1), s)
  | 1, some codes => return (.symbols codes (final = 1), s)
  | 2, _ =>
    let (codes, s) ← takeCodes s sparse
    return (.symbols codes (final = 1), s)
  | _, _ => .error .broken

/-- The phase after a block has ended. -/
def Phase.afterBlock (final : Bool) : Phase := if final then .finished else .header

/-- Appends `n` bytes, each equal to the one `distance` places before it. -/
def copyBack (out : ByteArray) (distance : Nat) : Nat → ByteArray
  | 0 => out
  | n + 1 =>
    let source := out.size - distance
    copyBack (out.push (if h : source < out.size then out[source] else 0)) distance n

/-- A number from a table of least values and extra bits. -/
def takeExtended (bases : List (Nat × Nat)) (symbol : Nat) (s : Bits) :
    Except Flaw (Nat × Bits) :=
  match bases[symbol]? with
  | none => .error .broken
  | some (least, extraBits) => (s.take extraBits).map fun (extra, s) => (least + extra, s)

/-- A reader of compressed data: where it stands, what is left and what has come out. -/
structure Reader where
  phase : Phase
  bits : Bits
  out : ByteArray

/-- The most bits that are looked at to find two literals at once. -/
def pairWidth : Nat := 12

/-- Whether a literal between two places is held back at the end of the data, because zeros after
the end would make up a second literal with it. -/
def isHeldBack (literals : Huffman) (before after : Bits) : Bool :=
  match before.rest with
  | _ :: _ :: _ => false
  | _ =>
    let padded := { after with rest := after.rest ++ [0, 0] }
    match literals.symbol padded with
    | .ok (second, s) =>
      let length := padded.size - s.size
      second < endOfBlock && 2 ≤ length && after.size < length &&
        before.size - after.size + length ≤ pairWidth
    | .error _ => false

namespace Reader

def start (bs : Bytes) : Reader := ⟨.header, Bits.ofBytes bs, ByteArray.empty⟩

/-- Reads one block header, what there is of a stored block, or one symbol. -/
def step (r : Reader) (sparse : Bool) : Except Flaw Reader :=
  match r.phase with
  | .finished => .ok r
  | .header => (takeHeader r.bits sparse).map fun (phase, s) => { r with phase := phase, bits := s }
  | .stored 0 final => .ok { r with phase := .afterBlock final }
  | .stored left final =>
    match r.bits.rest.take left with
    | [] => .error .exhausted
    | front =>
      .ok
        { phase := .stored (left - front.length) final
          bits := Bits.ofBytes (r.bits.rest.drop left)
          out := front.foldl ByteArray.push r.out }
  | .symbols codes final => do
    let (symbol, s) ← codes.literals.symbol r.bits
    if symbol < endOfBlock then
      if isHeldBack codes.literals r.bits s then .error .exhausted
      else return { r with bits := s, out := r.out.push (UInt8.ofNat symbol) }
    else if symbol = endOfBlock then return { r with phase := .afterBlock final, bits := s }
    else
      let (length, s) ← takeExtended lengthBases (symbol - 257) s
      let (distanceSymbol, s) ← codes.distances.symbol s
      let (distance, s) ← takeExtended distanceBases distanceSymbol s
      if r.out.size < distance then .error .broken
      else return { r with bits := s, out := copyBack r.out distance length }

/-- Whether the last block has ended. -/
def isFinished (r : Reader) : Bool :=
  match r.phase with
  | .finished => true
  | _ => false

/-- Takes at most `rounds` steps, until the last block has ended or `wanted` bytes have come
out. -/
def run (r : Reader) (sparse : Bool) (wanted : Option Nat) : Nat → Except Flaw Reader
  | 0 => .error .exhausted
  | rounds + 1 =>
    if r.isFinished || wanted.any (· ≤ r.out.size) then .ok r
    else
      match r.step sparse with
      | .error flaw => .error flaw
      | .ok r => r.run sparse wanted rounds

/-- As many steps as there can be: each of them takes a bit or goes from a stored block to what
follows it. -/
def rounds (r : Reader) : Nat := 2 * r.bits.size + 2

end Reader

/-- The content of compressed data, and the bytes after it. -/
def inflate? (bs : Bytes) : Option (ByteArray × Bytes) :=
  let r := Reader.start bs
  match r.run true none r.rounds with
  | .ok r => some (r.out, r.bits.aligned)
  | .error _ => none

end ImagePlacement.Deflate
