import ImagePlacement.Bytes

namespace ImagePlacement.Utf8

/-- A byte that continues a multi-byte sequence. -/
def isContinuation (b : UInt8) : Bool := 0x80 ≤ b && b ≤ 0xBF

/-- Six payload bits of a continuation byte. -/
private def low (b : UInt8) : Nat := b.toNat % 64

/-- Which second bytes may follow a given lead byte of a three-byte sequence:
the bounds leave out overlong forms and surrogates. -/
def isSecondOfThree (lead second : UInt8) : Bool :=
  if lead = 0xE0 then 0xA0 ≤ second && second ≤ 0xBF
  else if lead = 0xED then 0x80 ≤ second && second ≤ 0x9F
  else isContinuation second

/-- Which second bytes may follow a given lead byte of a four-byte sequence:
the bounds leave out overlong forms and code points above U+10FFFF. -/
def isSecondOfFour (lead second : UInt8) : Bool :=
  if lead = 0xF0 then 0x90 ≤ second && second ≤ 0xBF
  else if lead = 0xF4 then 0x80 ≤ second && second ≤ 0x8F
  else isContinuation second

/-- The character that starts at a lead byte, with the number of bytes taken after
the lead. An ill-formed sequence gives no character and takes its longest
prefix that could still have been continued. -/
def charAt (lead : UInt8) (rest : Bytes) : Option Char × Nat :=
  if lead < 0x80 then (some (Char.ofNat lead.toNat), 0)
  else if 0xC2 ≤ lead && lead ≤ 0xDF then
    match rest with
    | second :: _ =>
      if isContinuation second then
        (some (Char.ofNat ((lead.toNat % 32) * 64 + low second)), 1)
      else (none, 0)
    | [] => (none, 0)
  else if 0xE0 ≤ lead && lead ≤ 0xEF then
    match rest with
    | second :: third =>
      if isSecondOfThree lead second then
        match third with
        | third :: _ =>
          if isContinuation third then
            (some (Char.ofNat ((lead.toNat % 16) * 4096 + low second * 64 + low third)), 2)
          else (none, 1)
        | [] => (none, 1)
      else (none, 0)
    | [] => (none, 0)
  else if 0xF0 ≤ lead && lead ≤ 0xF4 then
    match rest with
    | second :: third =>
      if isSecondOfFour lead second then
        match third with
        | third :: fourth =>
          if isContinuation third then
            match fourth with
            | fourth :: _ =>
              if isContinuation fourth then
                (some (Char.ofNat ((lead.toNat % 8) * 262144 + low second * 4096
                  + low third * 64 + low fourth)), 3)
              else (none, 2)
            | [] => (none, 2)
          else (none, 1)
        | [] => (none, 1)
      else (none, 0)
    | [] => (none, 0)
  else (none, 0)

/-- The characters of well-formed UTF-8 after those in `done`, which are kept in reverse
order; nothing for any other byte string. -/
def decodeAfter? (done : List Char) (bs : Bytes) : Option (List Char) :=
  match bs with
  | [] => some done.reverse
  | lead :: rest =>
    match charAt lead rest with
    | (some c, taken) => decodeAfter? (c :: done) (rest.drop taken)
    | (none, _) => none
termination_by bs.length
decreasing_by simp only [List.length_drop, List.length_cons]; omega

/-- The text of well-formed UTF-8, and nothing for any other byte string. -/
def decode? (bs : Bytes) : Option (List Char) := decodeAfter? [] bs

/-- The text of any byte string: every ill-formed sequence becomes U+FFFD. -/
def decodeLossy (bs : Bytes) : List Char :=
  match bs with
  | [] => []
  | lead :: rest =>
    let (c, taken) := charAt lead rest
    c.getD '\uFFFD' :: decodeLossy (rest.drop taken)
termination_by bs.length
decreasing_by simp only [List.length_drop, List.length_cons]; omega

end ImagePlacement.Utf8
