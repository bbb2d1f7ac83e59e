import ImagePlacement.Checksum.Crc32
import ImagePlacement.Deflate.Inflate

namespace ImagePlacement.Gzip

/-- What follows a field that ends with a zero byte. -/
private def skipText? (bs : Bytes) : Option Bytes :=
  match bs.dropWhile (· ≠ 0) with
  | _ :: rest => some rest
  | [] => none

/-- What follows a field that starts with its length in two bytes. -/
private def skipExtra? : Bytes → Option Bytes
  | low :: high :: rest => (Bytes.splitAt? (low.toNat + 256 * high.toNat) rest).map (·.2)
  | _ => none

/-- The compressed data after a header, with the optional fields that the flags announce: extra
data, a name, a comment and a checksum of the header. -/
def body? (bs : Bytes) : Option Bytes := do
  let (header, rest) ← Bytes.splitAt? 10 bs
  let flags ← match header with
    | 0x1F :: 0x8B :: 8 :: flags :: _ => some flags.toNat
    | _ => none
  let has (bit : Nat) : Bool := flags.testBit bit
  if 32 ≤ flags then none
  let rest ← if has 2 then skipExtra? rest else some rest
  let rest ← if has 3 then skipText? rest else some rest
  let rest ← if has 4 then skipText? rest else some rest
  if has 1 then (Bytes.splitAt? 2 rest).map (·.2) else some rest

/-- The content of a gzip member: its checksum and its length follow the data. -/
def content? (bs : Bytes) : Option ByteArray := do
  let (content, rest) ← Deflate.inflate? (← body? bs)
  let (checksum, rest) ← Bytes.splitAt? 4 rest
  let (length, _) ← Bytes.splitAt? 4 rest
  let intact := Bytes.toNat checksum.reverse = (Crc32.ofBytes content.toList).toNat
  let complete := Bytes.toNat length.reverse = content.size % UInt32.size
  if intact ∧ complete then some content else none

end ImagePlacement.Gzip
