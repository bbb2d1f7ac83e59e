import ImagePlacement.Base64
import ImagePlacement.Json.Token
import ImagePlacement.Svg.Geometry

namespace ImagePlacement.Svg

/-- A picture that a drawing holds in one of its attributes. -/
inductive Embedded where
  | raster (content : Bytes)
  | drawing (content : Bytes)

namespace Embedded

/-- The value of a hexadecimal digit. -/
private def digit? (b : UInt8) : Option UInt8 :=
  (Json.Token.hexDigit? (Char.ofNat b.toNat)).map UInt8.ofNat

/-- Bytes in which a percent sign and two digits stand for one byte. -/
def unescape : Bytes → Bytes
  | 0x25 :: high :: low :: rest =>
    match digit? high, digit? low with
    | some h, some l => (h * 16 + l) :: unescape rest
    | _, _ => 0x25 :: unescape (high :: low :: rest)
  | b :: rest => b :: unescape rest
  | [] => []

/-- The bytes of a lenient encoding: white space does not count, padding may be missing, and bits
that fill no byte are left out. -/
def decode? (text : Bytes) : Option Bytes :=
  let isSpace (b : UInt8) : Bool := [0x20, 0x09, 0x0A, 0x0D, 0x0C].contains b
  let text := text.filter fun b => !isSpace b
  let digits := text.takeWhile Base64.isDigit
  let pads := text.dropWhile Base64.isDigit
  let whole := digits.length / 4 * 4
  if pads.any (· ≠ Base64.padding) then none
  else
    let last? : Option Bytes :=
      match digits.drop whole, pads.length with
      | [], 0 => some []
      | [a, b], 0 | [a, b], 2 => some ((Base64.group a b 0x41 0x41).take 1)
      | [a, b, c], 0 | [a, b, c], 1 => some ((Base64.group a b c 0x41).take 2)
      | _, _ => none
    last?.map fun last => Base64.decodeGroups [] (digits.take whole) ++ last

/-- What follows a word in any case. -/
private def after? (word : String) (text : List Char) : Option (List Char) :=
  if (text.take word.length).map Char.toLower = word.toList then some (text.drop word.length)
  else none

/-- A text without the characters on both ends that satisfy a test. -/
private def trim (isOuter : Char → Bool) (text : List Char) : List Char :=
  ((text.dropWhile isOuter).reverse.dropWhile isOuter).reverse

/-- The head of a data URL without the mark of an encoding at its end, if it has one. -/
private def unmarked? (head : List Char) : Option (List Char) :=
  match after? "46esab" head.reverse with
  | some rest =>
    match rest.dropWhile (· = ' ') with
    | ';' :: rest => some rest.reverse
    | _ => none
  | none => none

/-- The characters of the names of media types. -/
private def isToken (c : Char) : Bool :=
  c.isAlphanum || ("!#$%&\x27*+-.^_|~".toList ++ [Char.ofNat 0x60]).contains c

/-- The media type of a head in lower case, without parameters. One that is malformed counts as
plain text. -/
def mediaType (head : List Char) : String :=
  let head := trim (· = ' ') head
  let kind := head.takeWhile (· ≠ '/')
  let rest := ((head.dropWhile (· ≠ '/')).drop 1).takeWhile (· ≠ ';')
  let subtype := (rest.reverse.dropWhile (· = ' ')).reverse
  if kind = [] ∨ subtype = [] ∨ !(kind ++ subtype).all isToken then "text/plain"
  else String.ofList ((kind ++ '/' :: subtype).map Char.toLower)

/-- The media type and the bytes of a data URL. Line ends and tabs do not count, and what follows
a hash does not belong to it. -/
def ofDataUrl? (text : String) : Option (String × Bytes) := do
  let isBreak (c : Char) : Bool := c == '\t' || c == '\n' || c == '\r'
  let text := trim (· ≤ ' ') (text.toList.filter fun c => !isBreak c)
  let text := (← after? "data:" text).takeWhile (· ≠ '#')
  match text.dropWhile (· ≠ ',') with
  | [] => none
  | _ :: body =>
    let head := trim (· = ' ') (text.takeWhile (· ≠ ','))
    let plain := unescape (Bytes.ofText (String.ofList body))
    match unmarked? head with
    | some head => return (mediaType head, ← decode? plain)
    | none => return (mediaType head, plain)

/-- The number whose little-endian digits to base 256 are the given bytes. -/
private def littleEndian (bs : Bytes) : Nat := Bytes.toNat bs.reverse

/-- Some bytes from an offset on. -/
private def slice? (bs : Bytes) (offset length : Nat) : Option Bytes :=
  (Bytes.splitAt? length (bs.drop offset)).map (·.1)

/-- The sides in the frame header of a picture made of marked segments. Each segment takes bytes,
so as many rounds suffice as there are. -/
private def framedSides? (rounds : Nat) (depth : Nat) (bs : Bytes) : Option (Nat × Nat) :=
  match rounds, bs with
  | rounds + 1, 0xFF :: marker :: rest =>
    let isFrame := 0xC0 ≤ marker && marker ≤ 0xCF && marker ∉ [0xC4, 0xC8, 0xCC]
    if isFrame && depth = 0 then
      match rest.drop 3 with
      | a :: b :: c :: d :: _ => some (Bytes.toNat [c, d], Bytes.toNat [a, b])
      | _ => none
    else if marker = 0xD9 && depth = 0 then none
    else
      let depth := if marker = 0xD8 then depth + 1 else if marker = 0xD9 then depth - 1 else depth
      match rest with
      | a :: b :: _ => framedSides? rounds depth (rest.drop (Bytes.toNat [a, b]))
      | _ => none
  | _, _ => none

/-- A side of a picture in chunks takes fourteen bits. -/
private def sideBound : Nat := 0x4000

/-- The sides of a picture in chunks after its twelve first bytes. -/
private def chunkedSides? (bs : Bytes) : Option (Nat × Nat) := do
  match (← slice? bs 12 4).getLast? with
  | some 0x20 =>
    let side (offset : Nat) : Option Nat := (slice? bs offset 2).map (littleEndian · % sideBound)
    return (← side 26, ← side 28)
  | some 0x4C =>
    let packed := littleEndian (← slice? bs 21 4)
    return (packed % sideBound + 1, packed / sideBound % sideBound + 1)
  | some 0x58 =>
    return (littleEndian (← slice? bs 24 3) + 1, littleEndian (← slice? bs 27 3) + 1)
  | _ => none

/-- The pixels along both sides that the header of a raster picture gives. -/
def sides? (bs : Bytes) : Option (Nat × Nat) := do
  let front ← slice? bs 0 12
  if [0xFF, 0xD8, 0xFF].isPrefixOf front then framedSides? bs.length 0 (bs.drop 2)
  else if [0x89, 0x50, 0x4E, 0x47, 0x0D, 0x0A, 0x1A, 0x0A].isPrefixOf front then
    return (Bytes.toNat (← slice? bs 16 4), Bytes.toNat (← slice? bs 20 4))
  else if [0x47, 0x49, 0x46, 0x38].isPrefixOf front then
    return (littleEndian (← slice? bs 6 2), littleEndian (← slice? bs 8 2))
  else if [0x52, 0x49, 0x46, 0x46].isPrefixOf front && [0x57, 0x45, 0x42, 0x50] = front.drop 8 then
    chunkedSides? bs
  else none

/-- The picture that a reference holds. References to other places hold none. -/
def ofReference? (text : String) : Option Embedded := do
  let (kind, content) ← ofDataUrl? text
  match kind with
  | "image/png" | "image/jpeg" | "image/jpg" | "image/gif" | "image/webp" => return .raster content
  | "image/svg+xml" => return .drawing content
  | "text/plain" => if (sides? content).isSome then return .raster content else return .drawing content
  | _ => none

end Embedded

end ImagePlacement.Svg
