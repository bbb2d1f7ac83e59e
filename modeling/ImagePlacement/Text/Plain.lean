import ImagePlacement.Text.Utf8

namespace ImagePlacement.Plain

/-- Where a reader of text for a terminal stands between two bytes. -/
inductive Mode where
  /-- Bytes are shown. -/
  | ground
  /-- After the byte that starts a control sequence. -/
  | escape
  | escapeIntermediate
  /-- After the bracket of a sequence with parameters. -/
  | csiEntry
  | csiParameter
  | csiIntermediate
  | csiIgnored
  /-- In the head of a device string. -/
  | dcsEntry
  | dcsParameter
  | dcsIntermediate
  | dcsIgnored
  /-- In the body of a device string. -/
  | dcsBody
  /-- In a string for the terminal itself. -/
  | string
  | command
  deriving DecidableEq, Repr

namespace Mode

/-- Whether a number lies between two others. -/
private def lies (n low high : Nat) : Bool := low ≤ n && n ≤ high

/-- The mode after a byte that starts, ends or goes on with a control sequence. -/
def step (mode : Mode) (b : UInt8) : Mode :=
  let n := b.toNat
  if n = 0x1B then escape
  else if n = 0x18 ∨ n = 0x1A then ground
  else
    match mode with
    | ground => ground
    | escape =>
      if lies n 0x20 0x2F then escapeIntermediate
      else if n = 0x50 then dcsEntry
      else if n = 0x58 ∨ n = 0x5E ∨ n = 0x5F then string
      else if n = 0x5B then csiEntry
      else if n = 0x5D then command
      else if lies n 0x30 0x7E then ground
      else escape
    | escapeIntermediate => if lies n 0x30 0x7E then ground else escapeIntermediate
    | csiEntry =>
      if lies n 0x20 0x2F then csiIntermediate
      else if lies n 0x30 0x3F then csiParameter
      else if lies n 0x40 0x7E then ground
      else csiEntry
    | csiParameter =>
      if lies n 0x20 0x2F then csiIntermediate
      else if lies n 0x3C 0x3F then csiIgnored
      else if lies n 0x40 0x7E then ground
      else csiParameter
    | csiIntermediate =>
      if lies n 0x30 0x3F then csiIgnored
      else if lies n 0x40 0x7E then ground
      else csiIntermediate
    | csiIgnored => if lies n 0x40 0x7E then ground else csiIgnored
    | dcsEntry =>
      if lies n 0x20 0x2F then dcsIntermediate
      else if n = 0x3A then dcsIgnored
      else if lies n 0x30 0x3F then dcsParameter
      else if lies n 0x40 0x7E then dcsBody
      else dcsEntry
    | dcsParameter =>
      if lies n 0x20 0x2F then dcsIntermediate
      else if n = 0x3A ∨ lies n 0x3C 0x3F then dcsIgnored
      else if lies n 0x40 0x7E then dcsBody
      else dcsParameter
    | dcsIntermediate =>
      if lies n 0x30 0x3F then dcsIgnored
      else if lies n 0x40 0x7E then dcsBody
      else dcsIntermediate
    | dcsIgnored => if n = 0x9C then ground else dcsIgnored
    | dcsBody => if n = 0x9C then ground else dcsBody
    | string => if n = 0x9C then ground else string
    | command => if n = 0x07 then ground else command

/-- Whether white space is shown although a sequence is open; it breaks the sequence off. -/
def showsSpace : Mode → Bool
  | ground | escape | escapeIntermediate | csiEntry | csiParameter | csiIntermediate
  | csiIgnored => true
  | dcsEntry | dcsParameter | dcsIntermediate | dcsIgnored | dcsBody | string | command => false

end Mode

/-- White space other than the blank. -/
def isControlSpace (b : UInt8) : Bool := b == 0x09 || b == 0x0A || b == 0x0C || b == 0x0D

/-- The bytes of one character after its first. -/
private def isContinuation (b : UInt8) : Bool := Utf8.isContinuation b

/-- What is shown of a byte string that is read from a mode on. Control sequences and
controls other than white space are left out. -/
def shown : Mode → Bytes → Bytes
  | _, [] => []
  | .ground, b :: rest =>
    if (0x20 ≤ b && b < 0x7F) || isControlSpace b || 0x80 ≤ b then b :: shown .ground rest
    else shown (Mode.ground.step b) rest
  | mode, b :: rest =>
    if isControlSpace b && mode.showsSpace then b :: shown .ground rest
    else
      let next := mode.step b
      if next = .ground && 0x80 ≤ b then shown .ground (rest.dropWhile isContinuation)
      else shown next rest
termination_by _ bs => bs.length
decreasing_by
  all_goals
    have hDrop := (List.dropWhile_sublist isContinuation (l := rest)).length_le
    simp only [List.length_cons]
    omega

/-- A text as it is shown where control sequences mean nothing. -/
def encode (text : String) : String :=
  String.ofList (Utf8.decodeLossy (shown .ground (Bytes.ofText text)))

end ImagePlacement.Plain
