import ImagePlacement.Jpeg.Setup

namespace ImagePlacement.Jpeg

namespace Coded

/-- What follows the alternating coefficients of a block from index `k` on. -/
def passAlternating? (code : PrefixCode) : Nat → Nat → Coded → Option Coded
  | 0, _, c => some c
  | rounds + 1, k, c =>
    if 64 ≤ k then some c
    else do
      let (symbol, c) ← c.symbol? code
      let run := symbol.toNat / 16
      let size := symbol.toNat % 16
      if size ≠ 0 then passAlternating? code rounds (k + run + 1) (c.drop size)
      else if run = 15 then passAlternating? code rounds (k + 16) c
      else return c

/-- What follows a direct coefficient. -/
def passDirect? (code : PrefixCode) (c : Coded) : Option Coded := do
  let (size, c) ← c.symbol? code
  return c.drop size.toNat

/-- What follows a whole block. -/
def passBlock? (direct alternating : PrefixCode) (c : Coded) : Option Coded := do
  passAlternating? alternating 63 1 (← c.passDirect? direct)

/-- What follows a bit that refines a direct coefficient. There must be one. -/
def passRefinement? (c : Coded) : Option Coded := do
  let c ← if c.count = 0 then c.refill? else some c
  if c.count = 0 then none else some (c.drop 1)

end Coded

/-- How the coded bits of a scan end. -/
inductive ScanEnd where
  /-- Nothing that follows is looked at. -/
  | settled
  | failed
  /-- A marker stands after them. -/
  | marker (m : UInt8) (rest : Bytes)

/-- What remains of the whole units of a scan after the restart that is due in `left` units. Between
here and there a unit takes no bits. -/
def unitsAfterRestart? (units : Nat) (left : Option Nat) : Option Nat :=
  left.bind fun n => if n ≤ units then some (units - n) else none

theorem unitsAfterRestart?_le {units n : Nat} {left : Option Nat}
    (h : unitsAfterRestart? units left = some n) : n ≤ units := by
  simp only [unitsAfterRestart?, Option.bind_eq_some_iff] at h
  obtain ⟨m, -, h⟩ := h
  split at h
  · simp only [Option.some.injEq] at h
    omega
  · simp at h

/-- Reads a scan in which every block is complete. A unit is a list of blocks, each with its codes.
Bad bits settle it, and so does the end of the image. A restart is due in `left` units; until
then its marker waits. -/
def readSequential (blocks : List (PrefixCode × PrefixCode)) (interval : Option Nat) (units : Nat)
    (left : Option Nat) (c : Coded) : ScanEnd :=
  match units with
  | 0 => .settled
  | units + 1 =>
    match blocks.foldlM (fun c codes => Coded.passBlock? codes.1 codes.2 c) c with
    | none => .settled
    | some c =>
      let isDue : Bool := left = some 1
      let later := left.map (· - 1)
      match c.marker with
      | none => readSequential blocks interval units (if isDue then interval else later) c
      | some m =>
        if m = Marker.ending then .settled
        else if !Marker.isRestart m then if isDue then .failed else .marker m c.rest
        else if isDue then readSequential blocks interval units interval (Coded.ofBytes c.rest)
        else if c.isDry then
          match _hUnits : unitsAfterRestart? units later with
          | some units => readSequential blocks interval units interval (Coded.ofBytes c.rest)
          | none => .settled
        else readSequential blocks interval units later c
termination_by units
decreasing_by
  · omega
  · omega
  · have hLe := unitsAfterRestart?_le _hUnits
    omega
  · omega

/-- The coded bits of a progressive scan, with what is known of earlier scans. -/
structure Refinement where
  coded : Coded
  /-- Blocks that are still covered by the end that has been read for several at once. -/
  run : Nat
  /-- Which coefficients are not zero, for each block as the bits of a number. -/
  masks : Array Nat

namespace Refinement

/-- Whether a coefficient of a block is not zero. -/
private def isSet (mask k : Nat) : Bool := mask.testBit k

/-- A block in which one more coefficient is not zero. -/
private def set (mask k : Nat) : Nat := mask ||| 1 <<< k

/-- The number of blocks that an end covers, given by its length and further bits. -/
private def takeRun (size : Nat) (c : Coded) : Nat × Coded := (1 <<< size + c.peek size, c.drop size)

/-- Reads alternating coefficients of a block for the first time. Gives the blocks that the end
covers, the coefficients that are not zero, and what follows. -/
def introduce? (code : PrefixCode) (last : Nat) : Nat → Nat → Nat → Coded →
    Option (Nat × Nat × Coded)
  | 0, _, mask, c => some (0, mask, c)
  | rounds + 1, k, mask, c => do
    let (symbol, c) ← c.symbol? code
    let run := symbol.toNat / 16
    let size := symbol.toNat % 16
    if size = 0 ∧ run < 15 then
      let (covered, c) := takeRun run c
      return (covered - 1, mask, c)
    else
      let c := c.drop size
      let next := k + run + 1
      let mask := if size = 0 then mask else set mask ((k + run) % 64)
      if last < next then return (0, mask, c)
      else introduce? code last rounds next mask c

/-- Reads a bit for every coefficient from index `k` on that is not zero, and passes over `zeros`
that are; gives the index of the zero after them, or the last one. -/
def correct? (last : Nat) (mask : Nat) : Nat → Nat → Nat → Coded → Option (Nat × Coded)
  | 0, k, _, c => some (k, c)
  | rounds + 1, k, zeros, c => do
    if last < k then return (k, c)
    if isSet mask (k % 64) then
      let c := c.drop 1
      let c ← if c.count = 0 then c.refill? else some c
      if k = last then return (k, c)
      correct? last mask rounds (k + 1) zeros c
    else if zeros = 0 ∨ k = last then return (k, c)
    else correct? last mask rounds (k + 1) (zeros - 1) c

/-- Reads a bit for every coefficient from index `k` on that is not zero. -/
def correctAll? (last : Nat) (mask : Nat) : Nat → Nat → Coded → Option Coded
  | 0, _, c => some c
  | rounds + 1, k, c => do
    if last < k then return c
    let c := if isSet mask (k % 64) then c.drop 1 else c
    let c ← if c.count = 0 then c.refill? else some c
    correctAll? last mask rounds (k + 1) c

/-- Refines alternating coefficients of a block from index `k` on. Gives the index reached, the
blocks that an end covers, this one included, the coefficients that are not zero, and what
follows. -/
def refineFrom? (code : PrefixCode) (last : Nat) : Nat → Nat → Nat → Coded →
    Option (Nat × Nat × Nat × Coded)
  | 0, k, mask, c => some (k, 0, mask, c)
  | rounds + 1, k, mask, c => do
    let (symbol, c) ← c.symbol? code
    let run := symbol.toNat / 16
    let size := symbol.toNat % 16
    if size = 0 ∧ run < 15 then
      let (covered, c) := takeRun run c
      return (k, covered, mask, c)
    else if 1 < size then none
    else
      let c := c.drop size
      let (k, c) ← correct? last mask 65 k run c
      let mask := if size = 0 then mask else set mask (k % 64)
      if last < k + 1 then return (k + 1, 0, mask, c)
      else refineFrom? code last rounds (k + 1) mask c

/-- Reads the alternating coefficients of the block with a given number. -/
def passAlternating? (r : Refinement) (h : ScanHeader) (code : PrefixCode) (n : Nat) :
    Option Refinement := do
  let mask := r.masks.getD n 0
  if h.high = 0 then
    if 0 < r.run then return { r with run := r.run - 1 }
    let (run, mask, c) ← introduce? code h.last 64 h.first mask r.coded
    return ⟨c, run, r.masks.setIfInBounds n mask⟩
  else
    let (k, run, mask, c) ←
      if r.run = 0 then refineFrom? code h.last 64 h.first mask r.coded
      else some (h.first, r.run, mask, r.coded)
    if run = 0 then return ⟨c, 0, r.masks.setIfInBounds n mask⟩
    let c ← if mask / 2 = 0 then some c
      else do correctAll? h.last mask 64 k (← c.refill?)
    return ⟨c, run - 1, r.masks.setIfInBounds n mask⟩

/-- The refinement after a restart. -/
def restart (r : Refinement) : Refinement := { r with coded := Coded.ofBytes r.coded.rest, run := 0 }

/-- Reads the units of a scan from the one with number `n` on. Where a restart is due, no marker but
its own and the end may wait. As soon as the bits have run dry, the units up to the next
restart are all alike. -/
def read? (pass : Refinement → Nat → Option Refinement) (interval : Option Nat) (units n : Nat)
    (left : Option Nat) (r : Refinement) : Option Refinement :=
  match units with
  | 0 => some r
  | units + 1 =>
    match pass r n with
    | none => none
    | some r =>
      let isDue : Bool := left = some 1
      let later := left.map (· - 1)
      match isDue, r.coded.marker with
      | true, none => read? pass interval units (n + 1) interval r
      | true, some m =>
        if Marker.isRestart m then read? pass interval units (n + 1) interval r.restart
        else if m = Marker.ending then some r
        else none
      | false, _ =>
        if r.coded.isDry && r.run = 0 then
          match _hUnits : unitsAfterRestart? units later, r.coded.marker with
          | none, _ => some r
          | some rest, some m =>
            if Marker.isRestart m then
              read? pass interval rest (n + 1 + (units - rest)) interval r.restart
            else if m = Marker.ending then some r
            else none
          | some _, none => some r
        else read? pass interval units (n + 1) later r
termination_by units
decreasing_by
  · omega
  · omega
  · have hLe := unitsAfterRestart?_le _hUnits
    omega
  · omega

end Refinement

/-- The marker that a byte string goes on to. One that is not known is a fault. -/
def nextMarker? (bs : Bytes) : Option (UInt8 × Bytes) :=
  match bs with
  | [] => none
  | b :: rest =>
    if b ≠ Marker.lead then nextMarker? rest
    else
      match _hDrop : rest.dropWhile (· = Marker.lead) with
      | [] => none
      | m :: after =>
        if m = 0 then nextMarker? after
        else if Marker.isKnown m then some (m, after)
        else none
termination_by bs.length
decreasing_by
  · simp only [List.length_cons]; omega
  · have hLe := Marker.length_dropWhile_le (· = Marker.lead) rest
    rw [_hDrop] at hLe
    simp only [List.length_cons] at hLe ⊢
    omega

namespace Frame

/-- The most samples that a component has in a unit, across and down. -/
def unit (f : Frame) : Nat × Nat :=
  f.components.foldl (fun most c => (max most.1 c.across, max most.2 c.down)) (1, 1)

/-- How many squares of eight pixels times a number each way the image takes. -/
def squares (f : Frame) (across down : Nat) : Nat :=
  let count (pixels side : Nat) : Nat := (pixels + side - 1) / side
  count f.size.width.toNat (8 * across) * count f.size.height.toNat (8 * down)

/-- Units of a scan of several components. -/
def units (f : Frame) : Nat := f.squares f.unit.1 f.unit.2

/-- Blocks of a unit. A single component has one whatever its samples are. -/
def blocksOf (f : Frame) (c : Component) : Nat :=
  if f.components.length = 1 then 1 else c.across * c.down

/-- Units of an image with one component, or with several. -/
def sequentialUnits (f : Frame) : Nat :=
  if f.components.length = 1 then f.squares 1 1 else f.units

/-- Units of a progressive scan of one component. -/
def ownUnits (f : Frame) (c : Component) : Nat :=
  if f.components.length = 1 ∨ c.across ≠ 1 ∨ c.down ≠ 1 then f.squares 1 1 else f.units

end Frame

/-- A reader of the scans of a frame. -/
structure ScanReader where
  setup : Setup
  frame : Frame
  /-- For each component, which coefficients are not zero. -/
  masks : List (Nat × Array Nat)

namespace ScanReader

/-- The blocks of a unit with their codes; nothing if a code is missing. -/
def blocks? (r : ScanReader) (h : ScanHeader) : Option (List (PrefixCode × PrefixCode)) := do
  let groups ← h.parts.mapM fun part => do
    let component ← r.frame.components[part.index]?
    let codes := (← r.setup.directAt? part.direct, ← r.setup.alternatingAt? part.alternating)
    return List.replicate (r.frame.blocksOf component) codes
  return groups.flatten

/-- Goes on from a marker to the header of the next scan, if there is one. Unless `further` is set,
one segment is looked at. Gives what is known then, or nothing for a bad segment. -/
def nextScan? (s : Setup) (further : Bool) (m : UInt8) (rest : Bytes) : Nat →
    Option (Setup × Option (ScanHeader × Bytes))
  | 0 => some (s, none)
  | rounds + 1 =>
    if m = Marker.ending then some (s, none)
    else
      match s.meet? m rest with
      | none => none
      | some (.scan h, rest) => some (s, some (h, rest))
      | some (.goOn s, rest) =>
        match further, nextMarker? rest with
        | true, some (m, rest) => nextScan? s further m rest rounds
        | _, _ => some (s, none)

/-- Whether the scans of an image that is not progressive can be decoded. If the first scan has all
components, at most one segment after it is looked at; otherwise the scans that follow are
read in the same way. -/
def decodesSequential (r : ScanReader) (isWhole : Bool) (h : ScanHeader) (bs : Bytes) :
    Nat → Bool
  | 0 => true
  | rounds + 1 =>
    match r.blocks? h with
    | none => false
    | some blocks =>
      let interval := r.setup.interval
      match readSequential blocks interval r.frame.sequentialUnits interval (Coded.ofBytes bs) with
      | .settled => true
      | .failed => false
      | .marker m rest =>
        match nextScan? r.setup (!isWhole) m rest rest.length with
        | none => false
        | some (s, some (h, rest)) =>
          isWhole || decodesSequential { r with setup := s } isWhole h rest rounds
        | some (_, none) => true

/-- Reads a progressive scan. A scan of several components has direct coefficients only, and so has
one that starts with them. -/
def readScan? (r : ScanReader) (h : ScanHeader) (bs : Bytes) : Option (Coded × ScanReader) := do
  let interval := r.setup.interval
  let start (masks : Array Nat) : Refinement := ⟨Coded.ofBytes bs, 0, masks⟩
  let passDirect (code : PrefixCode) (c : Coded) : Option Coded :=
    if h.high = 0 then c.passDirect? code else c.passRefinement?
  match h.parts with
  | [part] =>
    let component ← r.frame.components[part.index]?
    let units := r.frame.ownUnits component
    if h.first = 0 then
      if h.last ≠ 0 then none
      let code ← r.setup.directAt? part.direct
      let pass (s : Refinement) (_ : Nat) : Option Refinement := do
        return { s with coded := ← passDirect code s.coded }
      return ((← (start #[]).read? pass interval units 0 interval).coded, r)
    else
      let code ← r.setup.alternatingAt? part.alternating
      let masks := (r.masks.lookup part.index).getD (Array.replicate units 0)
      let done ← (start masks).read? (fun s n => s.passAlternating? h code n) interval units 0
        interval
      return (done.coded, { r with masks := (part.index, done.masks) :: r.masks })
  | parts =>
    if h.last ≠ 0 then none
    let groups ← parts.mapM fun part => do
      let component ← r.frame.components[part.index]?
      return List.replicate (r.frame.blocksOf component) (← r.setup.directAt? part.direct)
    let pass (s : Refinement) (_ : Nat) : Option Refinement := do
      return { s with coded := ← groups.flatten.foldlM (fun c code => passDirect code c) s.coded }
    return ((← (start #[]).read? pass interval r.frame.units 0 interval).coded, r)

/-- The most scans of a progressive image. -/
def maxScans : Nat := 100

/-- Whether the segments and scans from a marker on can be decoded; `scans` have been read before.
Bad bits end the search. -/
def decodesFrom (r : ScanReader) (scans : Nat) (m : UInt8) (bs : Bytes) : Nat → Bool
  | 0 => true
  | rounds + 1 =>
    let goOn (r : ScanReader) (scans : Nat) (found : Option (UInt8 × Bytes)) : Bool :=
      match found with
      | none => true
      | some (m, rest) => scans ≤ maxScans && r.decodesFrom scans m rest rounds
    if m = Marker.ending then true
    else if Marker.isRestart m then goOn r scans (nextMarker? bs)
    else
      match r.setup.meet? m bs with
      | none => false
      | some (.goOn s, rest) => goOn { r with setup := s } scans (nextMarker? rest)
      | some (.scan h, rest) =>
        match r.readScan? h rest with
        | none => true
        | some (c, r) =>
          goOn r (scans + 1) ((c.marker.map fun m => (m, c.rest)).or (nextMarker? c.rest))

/-- Whether the scans of a progressive image can be decoded. A marker must follow the bits of the
first one. -/
def decodesProgressive (r : ScanReader) (h : ScanHeader) (bs : Bytes) : Bool :=
  match r.readScan? h bs with
  | none => true
  | some (c, r) =>
    match c.marker with
    | none => false
    | some m => r.decodesFrom 1 m c.rest c.rest.length

end ScanReader

/-- The most memory that pixels take: 512 MiB. -/
def budget : Nat := 512 * 1024 * 1024

namespace Setup

/-- Whether the pixels of a frame can be decoded as far as the segments before the first scan
decide: every component has a quantisation table, the components are as many as their meaning
needs, and the pixels fit into the memory. -/
def isComplete (s : Setup) (f : Frame) : Bool :=
  let samples := if s.colour = .grey then 1 else 3
  f.components.all (fun c => s.quantisation.contains c.quantisation) &&
    samples ≤ f.components.length &&
    f.size.width.toNat * f.size.height.toNat * samples ≤ budget

end Setup

/-- The size of the pixels of a stream, if they decode. -/
def pixels? (bs : Bytes) : Option PixelSize := do
  let (setup, header, rest) ← Setup.ofStream? bs
  let frame ← setup.frame
  if !setup.isComplete frame then none
  let r : ScanReader := ⟨setup, frame, []⟩
  let isWhole : Bool := header.parts.length = frame.components.length
  if frame.progressive then
    if r.decodesProgressive header rest then some frame.size else none
  else if r.decodesSequential isWhole header rest rest.length then some frame.size
  else none

end ImagePlacement.Jpeg
