import ImagePlacement.Jpeg.Layout
import ImagePlacement.Jpeg.StandardCodes

namespace ImagePlacement.Jpeg

/-- A component of a frame. -/
structure Component where
  id : UInt8
  /-- Samples across and down in the smallest unit that holds all components. -/
  across : Nat
  down : Nat
  /-- The place of its quantisation table. -/
  quantisation : Nat
  deriving DecidableEq

/-- What the components of an image mean. -/
inductive ColourModel where
  | grey
  /-- Lightness and two differences of colour. -/
  | differences
  | inks
  /-- Lightness, two differences of colour and black ink. -/
  | differencesInk
  deriving DecidableEq, Repr

/-- A frame that can be decoded. -/
structure Frame where
  size : PixelSize
  progressive : Bool
  components : List Component

/-- A component of a scan: its index in the frame, and the places of its codes. -/
structure ScanPart where
  index : Nat
  direct : Nat
  alternating : Nat

/-- The header of a scan: its components, its first and last coefficient, and the bits that the
coefficients lacked before it. -/
structure ScanHeader where
  parts : List ScanPart
  first : Nat
  last : Nat
  high : Nat

/-- What a decoder knows between two segments. Tables and codes are known by their places, and the
last one at a place counts. -/
structure Setup where
  frame : Option Frame
  colour : ColourModel
  quantisation : List Nat
  direct : List (Nat × PrefixCode)
  alternating : List (Nat × PrefixCode)
  /-- The codes may be left out. -/
  hasStandardCodes : Bool
  /-- Units between two restarts. -/
  interval : Option Nat

namespace Setup

def start : Setup := ⟨none, .differences, [], [], [], false, none⟩

/-- Adds the codes of a segment: a class and a place, sixteen numbers of words, and the
symbols. -/
def addCodes? (s : Setup) (payload : Bytes) : Option Setup :=
  match payload with
  | [] => some s
  | info :: rest =>
    let kind := info.toNat / 16
    let place := info.toNat % 16
    let counts := (rest.take PrefixCode.longest).map UInt8.toNat
    let total := counts.foldl (· + ·) 0
    let symbols := (rest.drop PrefixCode.longest).take total
    if counts.length < PrefixCode.longest ∨ 1 < kind ∨ 4 ≤ place ∨ 256 < total ∨
        symbols.length < total ∨ !PrefixCode.isRoomy 0 1 counts ∨
        (kind = 0 ∧ symbols.any (15 < ·)) then none
    else
      let code := (place, PrefixCode.mk counts symbols.toArray)
      let s := if kind = 0 then { s with direct := code :: s.direct }
        else { s with alternating := code :: s.alternating }
      s.addCodes? (rest.drop (PrefixCode.longest + total))
termination_by payload.length
decreasing_by simp only [List.length_drop, List.length_cons]; omega

/-- Adds the quantisation tables of a segment: a precision and a place, and 64 values of one or
two bytes. -/
def addQuantisation? (s : Setup) (payload : Bytes) : Option Setup :=
  match payload with
  | [] => some s
  | info :: rest =>
    let precision := info.toNat / 16
    let place := info.toNat % 16
    let length := 64 * (precision + 1)
    if 1 < precision ∨ 4 ≤ place ∨ rest.length < length then none
    else { s with quantisation := place :: s.quantisation }.addQuantisation? (rest.drop length)
termination_by payload.length
decreasing_by simp only [List.length_drop, List.length_cons]; omega

/-- The components that a frame header lists, with one to four samples each way. -/
def components? : Bytes → Option (List Component)
  | [] => some []
  | id :: sampling :: table :: rest =>
    let across := sampling.toNat / 16
    let down := sampling.toNat % 16
    if 1 ≤ across ∧ across ≤ 4 ∧ 1 ≤ down ∧ down ≤ 4 ∧ table < 4 then
      (components? rest).map (⟨id, across, down, table.toNat⟩ :: ·)
    else none
  | _ => none

/-- What the components of a frame mean: one is grey, and four are inks unless the stream has said
otherwise. -/
def colourOf (before : ColourModel) (components : Nat) : ColourModel :=
  if components = 1 then .grey
  else if components = 4 ∧ before = .differences then .inks
  else before

/-- Sets the frame: eight bits a sample, one to four components. -/
def setFrame? (s : Setup) (progressive : Bool) (payload : Bytes) : Option Setup :=
  match s.frame, payload with
  | none, precision :: h₁ :: h₀ :: w₁ :: w₀ :: count :: rest => do
    let width := 256 * w₁.toNat + w₀.toNat
    let height := 256 * h₁.toNat + h₀.toNat
    let components ← components? rest
    if precision = 8 ∧ width ≠ 0 ∧ height ≠ 0 ∧ components.length = count.toNat ∧
        1 ≤ count ∧ count ≤ 4 then
      let size := ⟨UInt32.ofNat width, UInt32.ofNat height⟩
      return { s with
        frame := some ⟨size, progressive, components⟩
        colour := colourOf s.colour components.length }
    else none
  | _, _ => none

/-- The mark of streams that leave out the standard codes. -/
def motionMark : Bytes := [0x41, 0x56, 0x49, 0x31, 0x00]

/-- The mark of a segment that says what the components mean. -/
def colourMark : Bytes := [0x41, 0x64, 0x6F, 0x62, 0x65]

/-- Sets what the components mean, from a segment with the mark for it. -/
def setColour? (s : Setup) (payload : Bytes) : Option Setup :=
  if payload.length < 12 then none
  else if colourMark.isPrefixOf payload then
    match payload.drop 11 with
    | 0 :: _ => some { s with colour := .inks }
    | 1 :: _ => some { s with colour := .differences }
    | 2 :: _ => some { s with colour := .differencesInk }
    | _ => none
  else some s

/-- The mark of metadata that goes on from another segment. -/
def extensionMark : Bytes :=
  [0x68, 0x74, 0x74, 0x70, 0x3A, 0x2F, 0x2F, 0x6E, 0x73, 0x2E, 0x61, 0x64, 0x6F, 0x62, 0x65, 0x2E,
    0x63, 0x6F, 0x6D, 0x2F, 0x78, 0x6D, 0x70, 0x2F, 0x65, 0x78, 0x74, 0x65, 0x6E, 0x73, 0x69,
    0x6F, 0x6E, 0x2F, 0x00]

/-- Whether metadata is complete: one that goes on from another segment says where. -/
def isMetadata (payload : Bytes) : Bool :=
  !(extensionMark.isPrefixOf payload && payload.length < extensionMark.length + 40)

/-- The header of a scan, for components of the frame, each given once. -/
def scanHeader? (s : Setup) (payload : Bytes) : Option ScanHeader :=
  match s.frame, payload with
  | some frame, count :: rest => do
    let n := count.toNat
    if n = 0 ∨ 4 < n ∨ payload.length ≠ 4 + 2 * n then none
    let pairs := (List.range n).map fun i => (rest.getD (2 * i) 0, rest.getD (2 * i + 1) 0)
    if !(pairs.map (·.1)).Nodup then none
    let parts ← pairs.mapM fun (id, places) => do
      let index ← frame.components.findIdx? fun c => c.id = id
      return ScanPart.mk index (places.toNat / 16) (places.toNat % 16)
    match rest.drop (2 * n) with
    | [first, last, approximation] =>
      let high := approximation.toNat / 16
      if first ≤ 63 ∧ last ≤ 63 ∧ high ≤ 13 ∧ approximation.toNat % 16 ≤ 13 then
        return ⟨parts, first.toNat, last.toNat, high⟩
      else none
    | _ => none
  | _, _ => none

/-- What a decoder does with a segment: the header of a scan is told, otherwise the setup
changes. -/
inductive Reaction where
  | goOn (setup : Setup)
  | scan (header : ScanHeader)

/-- The reaction to a marker with the length of its segment and what follows. Segments that set
nothing up are skipped, even past the end. -/
def react? (s : Setup) (m : UInt8) (length : Nat) (rest : Bytes) : Option Reaction :=
  let payload := rest.take (length - 2)
  let complete := payload.length + 2 = length
  if length < 2 then none
  else if m = 0xC0 ∨ m = 0xC1 ∨ m = 0xC2 then
    if complete then (s.setFrame? (m = 0xC2) payload).map .goOn else none
  else if m = 0xC4 then if complete then (s.addCodes? payload).map .goOn else none
  else if m = 0xDB then if complete then (s.addQuantisation? payload).map .goOn else none
  else if m = 0xDA then if complete then (s.scanHeader? payload).map .scan else none
  else if m = 0xDD then
    match length, payload with
    | 4, [high, low] =>
      let interval := 256 * high.toNat + low.toNat
      some (.goOn { s with interval := if interval = 0 then none else some interval })
    | _, _ => none
  else if m = 0xE0 then
    some (.goOn { s with
      hasStandardCodes := s.hasStandardCodes || (5 < length && motionMark.isPrefixOf rest) })
  else if m = 0xE1 then if complete && isMetadata payload then some (.goOn s) else none
  else if m = 0xE2 ∨ m = 0xED then if complete then some (.goOn s) else none
  else if m = 0xEE then if complete then (s.setColour? payload).map .goOn else none
  else if m = 0xCC ∨ m = 0xDC ∨ m = 0xD9 then none
  else some (.goOn s)

/-- The reaction to a marker, and the bytes after its segment. -/
def meet? (s : Setup) (m : UInt8) (bs : Bytes) : Option (Reaction × Bytes) :=
  match bs with
  | high :: low :: rest =>
    let length := 256 * high.toNat + low.toNat
    (s.react? m length rest).map fun reaction => (reaction, rest.drop (length - 2))
  | _ => none

theorem meet?_length {s : Setup} {m : UInt8} {bs rest : Bytes} {r : Reaction}
    (h : s.meet? m bs = some (r, rest)) : rest.length < bs.length := by
  simp only [meet?] at h
  split at h
  · simp only [Option.map_eq_some_iff, Prod.mk.injEq] at h
    obtain ⟨_, -, -, rfl⟩ := h
    simp only [List.length_drop, List.length_cons]
    omega
  · simp at h

/-- Reads on to the first scan. Bytes that make up no marker are passed over; `last` is the
byte before. -/
def search? (s : Setup) (last : UInt8) (bs : Bytes) : Option (Setup × ScanHeader × Bytes) :=
  match bs with
  | [] => none
  | b :: rest =>
    let isFill (b : UInt8) : Bool := b = Marker.lead ∨ b = 0
    if last ≠ Marker.lead then s.search? b rest
    else if isFill b then
      if b = Marker.lead then s.search? Marker.lead rest
      else
        match rest.dropWhile isFill with
        | [] => none
        | _ =>
          let fill := rest.takeWhile isFill
          s.search? (fill.getLast?.getD b) (rest.drop fill.length)
    else
      match _hMeet : s.meet? b rest with
      | none => none
      | some (.scan header, after) => some (s, header, after)
      | some (.goOn s, after) => s.search? b after
termination_by bs.length
decreasing_by
  · simp only [List.length_cons]; omega
  · simp only [List.length_cons]; omega
  · simp only [List.length_drop, List.length_cons]; omega
  · have hLength := meet?_length _hMeet
    simp only [List.length_cons]
    omega

/-- What a decoder knows at the first scan of a stream, the header of the scan, and what
follows. -/
def ofStream? (bs : Bytes) : Option (Setup × ScanHeader × Bytes) :=
  match bs with
  | a :: b :: rest =>
    if a = Marker.lead ∧ b = Marker.start then start.search? 0 rest else none
  | _ => none

/-- The code at a place. -/
def codeAt? (s : Setup) (codes : List (Nat × PrefixCode)) (standard : List PrefixCode)
    (place : Nat) : Option PrefixCode :=
  (codes.lookup place).or (if s.hasStandardCodes then standard[place]? else none)

/-- The code for direct coefficients at a place. -/
def directAt? (s : Setup) (place : Nat) : Option PrefixCode :=
  s.codeAt? s.direct [.lightnessDirect, .colourDirect] place

/-- The code for alternating coefficients at a place. -/
def alternatingAt? (s : Setup) (place : Nat) : Option PrefixCode :=
  s.codeAt? s.alternating [.lightnessAlternating, .colourAlternating] place

end Setup

/-- The size that a decoder finds in a stream's header. -/
def probeSize? (bs : Bytes) : Option PixelSize :=
  (Setup.ofStream? bs).bind fun found => found.1.frame.map (·.size)

end ImagePlacement.Jpeg
