import ImagePlacement.Proofs.InPlace
import ImagePlacement.Proofs.Jpeg.Stream

/-! The walk over segments by offsets. It comes to what the walk over the bytes that are left comes
to, and the offsets of markers, fill bytes and segments are inside the stream. -/
namespace ImagePlacement.Jpeg

variable {β : Type} {bs rest payload : Bytes} {m : UInt8} {offset : Nat}

/-! What is left after a marker and after a segment -/

/-- After a marker that is read the bytes go on with what is left of it. -/
theorem Marker.drop_of_read (hOffset : offset ≤ bs.length)
    (h : read offset (bs.drop offset) = .ok (m, rest)) :
    let place := offset + ((bs.drop offset).length - rest.length)
    bs.drop place = rest ∧ offset < place ∧ place ≤ bs.length := by
  have hLength := read_length h
  obtain ⟨-, -, fill, hBytes⟩ := read_eq_ok_iff.mp h
  have hSuffix : rest <:+ bs.drop offset := by
    rw [hBytes]
    exact ⟨List.replicate (fill + 1) lead ++ [m], by rw [List.append_assoc]; rfl⟩
  dsimp only
  refine ⟨?_, ?_, ?_⟩
  · rw [← List.drop_drop]
    exact (List.suffix_iff_eq_drop.mp hSuffix).symm
  · omega
  · rw [List.length_drop] at hLength ⊢
    omega

/-- After a segment that is read the bytes go on with what is left of it. -/
theorem Segment.drop_of_read (hOffset : offset ≤ bs.length)
    (h : read offset (bs.drop offset) = .ok (payload, rest)) :
    bs.drop (offset + 2 + payload.length) = rest ∧ offset + 2 + payload.length ≤ bs.length := by
  have hLength := read_length h
  obtain ⟨-, hBytes⟩ := read_eq_ok_iff.mp h
  have hTaken : (Segment.bytes payload).length = 2 + payload.length := by
    rw [hBytes, List.length_append] at hLength
    omega
  constructor
  · rw [Nat.add_assoc, ← List.drop_drop, hBytes, ← hTaken, List.drop_left]
  · rw [List.length_drop] at hLength
    omega

/-- Any number of lead bytes may come before a code. -/
theorem Marker.read_of_lead (h : bs.head? = some lead) : read offset bs =
    match bs.dropWhile (· = lead) with
    | [] => .error (.shortMarker (offset + (bs.takeWhile (· = lead)).length))
    | m :: rest =>
      if m = 0 then .error (.zeroMarker (offset + (bs.takeWhile (· = lead)).length))
      else .ok (m, rest) := by
  cases bs with
  | nil => cases h
  | cons b more =>
      obtain rfl := Option.some.inj h
      rw [read]
      exact if_neg (not_not.mpr rfl)

/-! The lead bytes that a check of a scan finds -/

/-- A scan without a lead byte does not end. -/
theorem checkScan_of_findIdx?_none (h : bs.findIdx? (· = Marker.lead) = none) :
    checkScan offset bs = .error .noEnd := by
  induction bs generalizing offset with
  | nil => rw [checkScan]
  | cons b bs ih =>
      rw [List.findIdx?_cons] at h
      split at h
      · cases h
      · rename_i hPlain
        rw [decide_eq_true_eq] at hPlain
        rw [checkScan_of_ne hPlain]
        exact ih (Option.map_eq_none_iff.mp h)

/-- A check of a scan goes on at the first lead byte. -/
theorem checkScan_of_findIdx? {found : Nat} (h : bs.findIdx? (· = Marker.lead) = some found) :
    bs[found]? = some Marker.lead ∧
      checkScan offset bs = checkScan (offset + found) (bs.drop found) := by
  induction bs generalizing offset found with
  | nil => cases h
  | cons b bs ih =>
      rw [List.findIdx?_cons] at h
      split at h
      · rename_i hLead
        obtain rfl := Option.some.inj h
        rw [decide_eq_true_eq] at hLead
        rw [hLead]
        exact ⟨rfl, rfl⟩
      · rename_i hPlain
        obtain ⟨found, hFound, rfl⟩ := Option.map_eq_some_iff.mp h
        obtain ⟨hLead, hCheck⟩ := @ih (offset + 1) found hFound
        rw [decide_eq_true_eq] at hPlain
        rw [checkScan_of_ne hPlain, hCheck, Nat.add_right_comm, Nat.add_assoc]
        exact ⟨hLead, rfl⟩

namespace InPlace

open ImagePlacement.InPlace

/-- One round over the lead bytes before a code. -/
def fillRound (bs : Bytes) (offset : Nat) : Outcome Fault (Round Nat Nat) :=
  if bs[offset]? = some Marker.lead then do return .again (← sum offset 1)
  else return .leave offset

/-- The marker at an offset, and the offset after it. The loop may go round again as often as there
are bytes left. -/
def nextMarker (bs : Bytes) (offset : Nat) : Outcome Fault (UInt8 × Nat) :=
  match bs[offset]? with
  | none => .failed (.noMarker offset)
  | some b =>
    if b ≠ Marker.lead then .failed (.notMarker offset b)
    else do
      let place ← loop (fillRound bs) (bs.length - offset) offset
      match bs[place]? with
      | none => .failed (.shortMarker place)
      | some m =>
        if m = 0 then .failed (.zeroMarker place)
        else return (m, ← sum place 1)

/-- The payload of the segment whose length stands at an offset, and the offset after it. -/
def readSegment (bs : Bytes) (offset : Nat) : Outcome Fault (Bytes × Nat) := do
  match slice? bs offset (← sum offset 2) with
  | none => .failed (.shortLength offset)
  | some field => do
    let length ← half field
    if length.toNat < 2 then .failed (.lengthTooSmall length.toNat offset)
    else do
      let stop ← sum offset length.toNat
      match slice? bs (← sum offset 2) stop with
      | none => .failed (.shortSegment offset)
      | some payload => return (payload, stop)

/-- The width and height that a frame header gives. -/
def frameSize (payload : Bytes) : Outcome Fault (UInt16 × UInt16) :=
  if payload.length < 6 then .failed .shortFrame
  else do
    let height ← half (← slice payload 1 3)
    let width ← half (← slice payload 3 5)
    if width = 0 ∨ height = 0 then .failed (.noPixels width height)
    else return (width, height)

/-- The density that an application segment gives. -/
def declaredDensity? (payload : Bytes) : Outcome Fault (Option Density) :=
  if payload.length < 12 ∨ !densityMark.isPrefixOf payload then return none
  else do
    let x ← half (← slice payload 8 10)
    let y ← half (← slice payload 10 12)
    if x = 0 ∨ y = 0 then return none
    else do
      let unit ← byte payload 7
      if unit = 1 then return some ⟨x.toFloat, y.toFloat⟩
      else if unit = 2 then return some ⟨x.toFloat * inch, y.toFloat * inch⟩
      else return none

/-- What a lead byte inside a scan comes to, by the code after it. -/
def scanUnit (bs : Bytes) (place : Nat) (m : UInt8) : Outcome Fault (Round Nat Unit) :=
  if m = 0 ∨ Marker.isRestart m then do return .again (← sum place 2)
  else if m = Marker.lead then do return .again (← sum place 1)
  else if m = Marker.ending then return .leave ()
  else if m = Marker.start then .failed (.repeatedStart place)
  else do
    let (_, next) ← readSegment bs (← sum place 2)
    return .again next

/-- One round of a check of a scan. -/
def scanRound (bs : Bytes) (offset : Nat) : Outcome Fault (Round Nat Unit) := do
  match (← slice bs offset bs.length).findIdx? (· = Marker.lead) with
  | none => .failed .noEnd
  | some found => do
    let place ← sum offset found
    match bs[← sum place 1]? with
    | none => .failed .noEnd
    | some m => scanUnit bs place m

/-- Checks that a scan goes on to the end of the image. The loop may go round again as often as
there are bytes left. -/
def checkScan (bs : Bytes) (offset : Nat) : Outcome Fault Unit :=
  loop (scanRound bs) (bs.length - offset) offset

/-- What is known after one more segment. -/
def add (s : Survey) (offset : Nat) (m : UInt8) (payload : Bytes) : Outcome Fault Survey :=
  if Marker.isFrame m then
    if s.size.isSome then .failed (.repeatedFrame offset)
    else do
      let size ← frameSize payload
      return { s with size := some size }
  else if m = Marker.application ∧ s.density.isNone then do
    let density ← declaredDensity? payload
    return { s with density := density }
  else return s

/-- What the segment at a place comes to, whose marker is known. -/
def segment (bs : Bytes) (s : Position Survey) (m : UInt8) (place : Nat) :
    Outcome Fault (Round (Position Survey) Survey) := do
  let (payload, next) ← readSegment bs place
  if m = Marker.scan then
    if s.survey.size.isNone then .failed .scanBeforeFrame
    else do
      checkScan bs next
      return .leave s.survey
  else do
    let survey ← add s.survey s.offset m payload
    return .again ⟨survey, next⟩

/-- One round of the walk. -/
def round (bs : Bytes) (s : Position Survey) : Outcome Fault (Round (Position Survey) Survey) := do
  let (m, place) ← nextMarker bs s.offset
  if Marker.isStandalone m then return .again ⟨s.survey, place⟩
  else if m = Marker.start then .failed (.repeatedStart s.offset)
  else if m = Marker.ending then .failed .endBeforeScan
  else segment bs s m place

/-- What the segments of a stream say about its image. The loop may go round again as often as there
are bytes after the start. -/
def inspect (bs : Bytes) : Outcome Fault Header :=
  if bs.length < 2 then .failed .noStart
  else do
    if (← byte bs 0) ≠ Marker.lead then .failed .noStart
    else do
      if (← byte bs 1) ≠ Marker.start then .failed .noStart
      else do
        let survey ← loop (round bs) (bs.length - 2) ⟨.start, 2⟩
        match survey.size with
        | some (width, height) => return ⟨width, height, survey.density⟩
        | none => .failed .noFrame

/-! What single segments say -/

theorem frameSize_eq (payload : Bytes) :
    frameSize payload = .ofExcept (Jpeg.frameSize payload) := by
  match payload with
  | precision :: h₁ :: h₀ :: w₁ :: w₀ :: components :: rest =>
      generalize hPayload : precision :: h₁ :: h₀ :: w₁ :: w₀ :: components :: rest = payload
      have hLength : 6 ≤ payload.length := hPayload ▸ Nat.le_add_left 6 rest.length
      have hHeight : (slice payload 1 3 : Outcome Fault Bytes) = .done [h₁, h₀] := by
        rw [slice_eq (by omega) (by omega), ← hPayload]
        rfl
      have hWidth : (slice payload 3 5 : Outcome Fault Bytes) = .done [w₁, w₀] := by
        rw [slice_eq (by omega) (by omega), ← hPayload]
        rfl
      rw [frameSize, if_neg (by omega), hHeight, hWidth, ← hPayload, Jpeg.frameSize_eq]
      simp only [Outcome.done_bind, InPlace.half_eq (show [h₁, h₀].length = 2 from rfl),
        InPlace.half_eq (show [w₁, w₀].length = 2 from rfl)]
      split <;> rfl
  | [] | [_] | [_, _] | [_, _, _] | [_, _, _, _] | [_, _, _, _, _] => rfl

/-- Payloads with the mark and enough bytes after it. -/
theorem exists_of_mark (hLength : ¬ payload.length < 12)
    (hMark : densityMark.isPrefixOf payload = true) : ∃ v₁ v₀ unit x₁ x₀ y₁ y₀ rest,
      payload = densityMark ++ v₁ :: v₀ :: unit :: x₁ :: x₀ :: y₁ :: y₀ :: rest := by
  obtain ⟨after, rfl⟩ := List.isPrefixOf_iff_prefix.mp hMark
  match after with
  | v₁ :: v₀ :: unit :: x₁ :: x₀ :: y₁ :: y₀ :: rest =>
      exact ⟨v₁, v₀, unit, x₁, x₀, y₁, y₀, rest, rfl⟩
  | [] | [_] | [_, _] | [_, _, _] | [_, _, _, _] | [_, _, _, _, _] | [_, _, _, _, _, _] =>
      simp [densityMark] at hLength

theorem declaredDensity?_eq (payload : Bytes) :
    declaredDensity? payload = .done (Jpeg.declaredDensity? payload) := by
  by_cases hGives : payload.length < 12 ∨ !densityMark.isPrefixOf payload
  · have hNone : Jpeg.declaredDensity? payload = none := by
      cases hDensity : Jpeg.declaredDensity? payload with
      | none => rfl
      | some d =>
          obtain ⟨v₁, v₀, unit, x₁, x₀, y₁, y₀, rest, rfl⟩ := exists_of_declaredDensity? hDensity
          rcases hGives with hShort | hMark
          · exact absurd hShort (Nat.not_lt.mpr (Nat.le_add_left 12 rest.length))
          · cases hMark
    rw [declaredDensity?, if_pos hGives, hNone]
    rfl
  · rw [declaredDensity?, if_neg hGives]
    rw [not_or, Bool.not_eq_true', Bool.not_eq_false] at hGives
    obtain ⟨hLength, hMark⟩ := hGives
    obtain ⟨v₁, v₀, unit, x₁, x₀, y₁, y₀, rest, hPayload⟩ := exists_of_mark hLength hMark
    have hX : (slice payload 8 10 : Outcome Fault Bytes) = .done [x₁, x₀] := by
      rw [slice_eq (by omega) (by omega), hPayload]
      rfl
    have hY : (slice payload 10 12 : Outcome Fault Bytes) = .done [y₁, y₀] := by
      rw [slice_eq (by omega) (by omega), hPayload]
      rfl
    have hUnit : (byte payload 7 : Outcome Fault UInt8) = .done unit := by
      rw [hPayload]
      rfl
    rw [hX, hY, hUnit, hPayload, Jpeg.declaredDensity?_eq]
    simp only [Outcome.done_bind, InPlace.half_eq (show [x₁, x₀].length = 2 from rfl),
      InPlace.half_eq (show [y₁, y₀].length = 2 from rfl)]
    split
    · rfl
    · split
      · rfl
      · split <;> rfl

theorem add_eq (s : Survey) (offset : Nat) (m : UInt8) (payload : Bytes) :
    add s offset m payload = .ofExcept (s.add offset m payload) := by
  unfold add Survey.add
  split
  · split
    · rfl
    · rw [frameSize_eq]
      cases Jpeg.frameSize payload <;> rfl
  · by_cases hCode : m = Marker.application
    · cases hDensity : s.density with
      | none =>
          rw [if_pos ⟨hCode, rfl⟩, if_pos hCode, declaredDensity?_eq, Option.none_or]
          rfl
      | some d =>
          rw [if_neg (by simp), if_pos hCode, Option.some_or, ← hDensity]
          rfl
    · rw [if_neg hCode, if_neg (fun h => hCode h.1)]
      rfl

/-! Loops inside the walk -/

/-- The offset after the lead bytes that stand at an offset. -/
def afterFill (bs : Bytes) (offset : Nat) : Nat :=
  offset + ((bs.drop offset).takeWhile (· = Marker.lead)).length

theorem le_afterFill (bs : Bytes) (offset : Nat) : offset ≤ afterFill bs offset :=
  Nat.le_add_right ..

theorem drop_afterFill (bs : Bytes) (offset : Nat) :
    bs.drop (afterFill bs offset) = (bs.drop offset).dropWhile (· = Marker.lead) := by
  generalize hLeft : bs.drop offset = left
  have hParts := @List.takeWhile_append_dropWhile _ (· = Marker.lead) left
  calc
    bs.drop (afterFill bs offset) = left.drop (left.takeWhile (· = Marker.lead)).length := by
      rw [afterFill, ← List.drop_drop, hLeft]
    _ = (left.takeWhile (· = Marker.lead) ++ left.dropWhile (· = Marker.lead)).drop
        (left.takeWhile (· = Marker.lead)).length := by rw [hParts]
    _ = left.dropWhile (· = Marker.lead) := List.drop_left

section Walk

variable (hSize : bs.length ≤ 0x7FFFFFFFFFFFFFFF)

include hSize

theorem fillRound_agrees (next : Nat → Outcome Fault β) (offset : Nat)
    (_ : offset ≤ bs.length) :
    Agrees (fun place => next (afterFill bs place)) next id bs.length offset
      (fillRound bs offset) := by
  unfold fillRound
  split
  · rename_i hLead
    have hDrop := drop_of_getElem? hLead
    obtain ⟨hInside, -⟩ := List.getElem?_eq_some_iff.mp hLead
    have hAfter : afterFill bs offset = afterFill bs (offset + 1) := by
      rw [afterFill, afterFill, hDrop, List.takeWhile_cons_of_pos (by simp), List.length_cons]
      omega
    rw [sum_eq (by omega)]
    exact .again (congrArg next hAfter) (Nat.lt_succ_self _) hInside
  · rename_i hPlain
    have hAfter : afterFill bs offset = offset := by
      have hNone : (bs.drop offset).takeWhile (· = Marker.lead) = [] := by
        cases hDrop : bs.drop offset with
        | nil => rfl
        | cons b more =>
            have hByte : bs[offset]? = some b := by rw [← List.head?_drop, hDrop, List.head?_cons]
            rw [hByte, Option.some.injEq] at hPlain
            exact List.takeWhile_cons_of_neg (by simpa using hPlain)
      rw [afterFill, hNone]
      rfl
    exact .leave (congrArg next hAfter)

/-- At an offset stands the marker that the bytes from there on start with. -/
theorem nextMarker_eq (hOffset : offset ≤ bs.length) : nextMarker bs offset =
    match Marker.read offset (bs.drop offset) with
    | .error fault => .failed fault
    | .ok (m, rest) => .done (m, offset + ((bs.drop offset).length - rest.length)) := by
  have hHead : (bs.drop offset).head? = bs[offset]? := List.head?_drop
  rw [nextMarker]
  cases hByte : bs[offset]? with
  | none =>
      rw [hByte, List.head?_eq_none_iff] at hHead
      rw [hHead]
      rfl
  | some b =>
      rw [hByte] at hHead
      dsimp only
      by_cases hLead : b = Marker.lead
      · have hFound : (bs.drop (afterFill bs offset)).head? = bs[afterFill bs offset]? :=
          List.head?_drop
        rw [if_neg (not_not.mpr hLead), loop_bind_eq (fillRound_agrees hSize _) offset hOffset,
          Marker.read_of_lead (hLead ▸ hHead), ← drop_afterFill, ← hFound]
        cases hRest : bs.drop (afterFill bs offset) with
        | nil => rfl
        | cons m rest =>
            have hBefore := le_afterFill bs offset
            have hLength : bs.length - afterFill bs offset = rest.length + 1 := by
              rw [← List.length_drop, hRest, List.length_cons]
            have hNext : offset + (bs.length - offset - rest.length) = afterFill bs offset + 1 := by
              omega
            simp only [List.head?_cons, List.length_drop]
            split
            · rfl
            · rw [sum_eq (by omega)]
              dsimp only
              rw [hNext]
              rfl
      · rw [if_pos hLead]
        cases hDrop : bs.drop offset with
        | nil =>
            rw [hDrop] at hHead
            cases hHead
        | cons found more =>
            rw [hDrop] at hHead
            obtain rfl := Option.some.inj hHead
            rw [Marker.read, if_pos hLead]

/-- At an offset stands the segment that the bytes from there on start with. -/
theorem readSegment_eq (hOffset : offset ≤ bs.length) : readSegment bs offset =
    match Segment.read offset (bs.drop offset) with
    | .error fault => .failed fault
    | .ok (payload, _) => .done (payload, offset + 2 + payload.length) := by
  rw [readSegment, sum_eq (by omega), Outcome.done_bind, slice?_eq hOffset]
  by_cases hShort : bs.length < offset + 2
  · rw [Bytes.splitAt?_of_lt hOffset hShort, Segment.read, Bytes.splitAt?_of_lt hOffset hShort]
    rfl
  have hField : ((bs.drop offset).take 2).length = 2 := by
    rw [List.length_take, List.length_drop]
    omega
  have hLt := Bytes.toNat_lt ((bs.drop offset).take 2)
  rw [hField] at hLt
  rw [Bytes.splitAt?_of_le (Nat.le_of_not_lt hShort), Segment.read,
    Bytes.splitAt?_of_le (Nat.le_of_not_lt hShort)]
  simp only [Option.map_some]
  rw [InPlace.half_eq hField, Outcome.done_bind, UInt16.toNat_ofNat_of_lt' hLt]
  generalize Bytes.toNat ((bs.drop offset).take 2) = length at hLt ⊢
  split
  · rfl
  · rename_i hLength
    have hStop : offset + length = offset + 2 + (length - 2) := by omega
    have hBound : length < 65536 := hLt
    rw [sum_eq (by omega), Outcome.done_bind, Outcome.done_bind, hStop,
      slice?_eq (Nat.le_of_not_lt hShort)]
    cases hPayload : Bytes.splitAt? (length - 2) (bs.drop (offset + 2)) with
    | none => rfl
    | some found =>
        obtain ⟨payload, rest⟩ := found
        obtain ⟨-, hTaken⟩ := Bytes.splitAt?_eq_some_iff.mp hPayload
        rw [← hTaken]
        rfl

/-! A check of a scan -/

/-- What the check of a scan over the bytes from an offset on comes to. -/
def leftScan (bs : Bytes) (offset : Nat) : Outcome Fault Unit :=
  .ofExcept (Jpeg.checkScan offset (bs.drop offset))

theorem scanUnit_agrees {place : Nat} (hLead : bs[place]? = some Marker.lead)
    (hCode : bs[place + 1]? = some m) :
    Agrees (leftScan bs) pure id bs.length place (scanUnit bs place m) := by
  obtain ⟨hInside, -⟩ := List.getElem?_eq_some_iff.mp hCode
  have hFurther : place < place + 1 ∧ place < place + 2 := by omega
  have hBytes : bs.drop place = Marker.lead :: m :: bs.drop (place + 2) := by
    rw [drop_of_getElem? hLead, drop_of_getElem? hCode]
  have hCheck : leftScan bs place = .ofExcept _ :=
    congrArg Outcome.ofExcept ((congrArg _ hBytes).trans (checkScan_lead m _))
  refine .ite hCheck (fun _ hAlone => ?_) fun _ hCheck => ?_
  · rw [sum_eq (by omega)]
    exact .again hAlone hFurther.2 hInside
  refine .ite hCheck (fun _ hFill => ?_) fun _ hCheck => ?_
  · rw [← drop_of_getElem? hCode] at hFill
    rw [sum_eq (by omega)]
    exact .again hFill hFurther.1 (Nat.le_of_lt hInside)
  refine .ite hCheck (fun _ hEnding => .leave hEnding) fun _ hCheck => ?_
  refine .ite hCheck (fun _ hStart => .failed hStart) fun _ hCheck => ?_
  rw [sum_eq (by omega), Outcome.done_bind, readSegment_eq hSize hInside]
  cases hSegment : Segment.read (place + 2) (bs.drop (place + 2)) with
  | error fault =>
      rw [hSegment] at hCheck
      exact .failed hCheck
  | ok found =>
      obtain ⟨payload, rest⟩ := found
      obtain ⟨hAfter, hWithin⟩ := Segment.drop_of_read hInside hSegment
      have hNext : place < place + 2 + 2 + payload.length := by omega
      rw [hSegment] at hCheck
      dsimp only at hCheck
      rw [← hAfter] at hCheck
      exact .again hCheck hNext hWithin

/-- A round goes on to the next lead byte, and takes the unit that starts there. -/
theorem scanRound_agrees (offset : Nat) (hOffset : offset ≤ bs.length) :
    Agrees (leftScan bs) pure id bs.length offset (scanRound bs offset) := by
  have hAll : (bs.drop offset).take (bs.length - offset) = bs.drop offset :=
    List.take_of_length_le (Nat.le_of_eq List.length_drop)
  rw [scanRound, slice_eq hOffset (Nat.le_refl _), Outcome.done_bind, hAll]
  cases hFound : (bs.drop offset).findIdx? (· = Marker.lead) with
  | none => exact .failed (congrArg Outcome.ofExcept (checkScan_of_findIdx?_none hFound))
  | some found =>
      obtain ⟨hLead, hCheck⟩ := @checkScan_of_findIdx? (bs.drop offset) offset found hFound
      rw [List.getElem?_drop] at hLead
      rw [List.drop_drop] at hCheck
      have hSame : leftScan bs offset = leftScan bs (offset + found) :=
        congrArg Outcome.ofExcept hCheck
      obtain ⟨hInside, -⟩ := List.getElem?_eq_some_iff.mp hLead
      dsimp only
      rw [sum_eq (by omega), Outcome.done_bind, sum_eq (by omega), Outcome.done_bind]
      cases hCode : bs[offset + found + 1]? with
      | none =>
          have hLast : leftScan bs (offset + found) = .failed .noEnd := by
            rw [leftScan, drop_of_getElem? hLead,
              List.drop_eq_nil_of_le (List.getElem?_eq_none_iff.mp hCode), Jpeg.checkScan.eq_def]
            rfl
          exact .failed (hSame.trans hLast)
      | some m => exact (scanUnit_agrees hSize hLead hCode).of_le hSame (Nat.le_add_right ..)

theorem checkScan_eq (hOffset : offset ≤ bs.length) :
    checkScan bs offset = .ofExcept (Jpeg.checkScan offset (bs.drop offset)) := by
  rw [checkScan, ← Outcome.bind_pure (loop _ _ _)]
  exact loop_bind_eq (scanRound_agrees hSize) offset hOffset

/-! The walk -/

/-- What the walk over the bytes from an offset on comes to. -/
def left (bs : Bytes) (s : Position Survey) : Outcome Fault Header :=
  .ofExcept (s.survey.walk s.offset (bs.drop s.offset))

theorem segment_agrees (s : Position Survey) (m : UInt8) {place : Nat} (hFurther : s.offset < place)
    (hInside : place ≤ bs.length) (hSame : left bs s = .ofExcept
      (match Segment.read place (bs.drop place) with
      | .error fault => .error fault
      | .ok (payload, after) =>
        let next := place + 2 + payload.length
        if m = Marker.scan then
          if s.survey.size.isNone then .error .scanBeforeFrame
          else
            match Jpeg.checkScan next after with
            | .error fault => .error fault
            | .ok _ => s.survey.finish
        else
          match s.survey.add s.offset m payload with
          | .error fault => .error fault
          | .ok survey => survey.walk next after)) :
    Agrees (left bs) (.ofExcept ·.finish) Position.offset bs.length s (segment bs s m place) := by
  rw [segment, readSegment_eq hSize hInside]
  cases hSegment : Segment.read place (bs.drop place) with
  | error fault =>
      rw [hSegment] at hSame
      exact .failed hSame
  | ok found =>
      obtain ⟨payload, rest⟩ := found
      obtain ⟨hAfter, hWithin⟩ := Segment.drop_of_read hInside hSegment
      rw [hSegment] at hSame
      dsimp only at hSame
      rw [← hAfter] at hSame
      simp only [Outcome.done_bind]
      generalize hNext : place + 2 + payload.length = next at *
      refine .ite hSame (fun _ hSame => ?_) fun _ hSame => ?_
      · refine .ite hSame (fun _ hNone => .failed hNone) fun _ hSame => ?_
        rw [checkScan_eq hSize hWithin]
        cases hCheck : Jpeg.checkScan next (bs.drop next) with
        | error fault =>
            rw [hCheck] at hSame
            exact .failed hSame
        | ok _ =>
            rw [hCheck] at hSame
            exact .leave hSame
      · rw [add_eq]
        cases hAdd : s.survey.add s.offset m payload with
        | error fault =>
            rw [hAdd] at hSame
            exact .failed hSame
        | ok survey =>
            rw [hAdd] at hSame
            exact .again hSame (by dsimp only; omega) hWithin

/-- A round takes one marker or segment, as the walk over the bytes that are left does. -/
theorem round_agrees (s : Position Survey) (hOffset : s.offset ≤ bs.length) :
    Agrees (left bs) (.ofExcept ·.finish) Position.offset bs.length s (round bs s) := by
  rw [round, nextMarker_eq hSize hOffset]
  cases hMarker : Marker.read s.offset (bs.drop s.offset) with
  | error fault => exact .failed (congrArg Outcome.ofExcept (Survey.walk_of_read_error hMarker))
  | ok found =>
      obtain ⟨m, rest⟩ := found
      obtain ⟨hRest, hFurther, hInside⟩ := Marker.drop_of_read hOffset hMarker
      have hSame : left bs s = .ofExcept _ :=
        congrArg Outcome.ofExcept (Survey.walk_of_read hMarker)
      dsimp only at hSame hRest hFurther hInside ⊢
      rw [Outcome.done_bind]
      dsimp only
      generalize s.offset + ((bs.drop s.offset).length - rest.length) = place at *
      subst hRest
      refine .ite hSame (fun _ hAlone => .again hAlone hFurther hInside) fun _ hSame => ?_
      refine .ite hSame (fun _ hStart => .failed hStart) fun _ hSame => ?_
      refine .ite hSame (fun _ hEnding => .failed hEnding) fun _ hSame => ?_
      exact segment_agrees hSize s m hFurther hInside hSame

end Walk

/-! The whole stream -/

theorem inspect_eq (hSize : bs.length ≤ 0x7FFFFFFFFFFFFFFF) :
    inspect bs = .ofExcept (Jpeg.inspect bs) := by
  have hFinish (survey : Survey) : (match survey.size with
      | some (width, height) => return ⟨width, height, survey.density⟩
      | none => .failed .noFrame : Outcome Fault Header) = .ofExcept survey.finish := by
    rw [Survey.finish]
    cases survey.size <;> rfl
  cases bs with
  | nil => rfl
  | cons a bs =>
      cases bs with
      | nil => rfl
      | cons b rest =>
          have hStart : 2 ≤ (a :: b :: rest).length := Nat.le_add_left 2 rest.length
          have hLoop : (loop (round (a :: b :: rest)) ((a :: b :: rest).length - 2) ⟨.start, 2⟩ >>=
              fun survey => .ofExcept survey.finish) = .ofExcept (Survey.start.walk 2 rest) :=
            loop_bind_eq (round_agrees hSize) ⟨.start, 2⟩ hStart
          have hFirst : (byte (a :: b :: rest) 0 : Outcome Fault UInt8) = .done a := rfl
          have hSecond : (byte (a :: b :: rest) 1 : Outcome Fault UInt8) = .done b := rfl
          simp only [inspect, hFinish]
          rw [if_neg (Nat.not_lt.mpr hStart), hFirst, Outcome.done_bind, hSecond, Outcome.done_bind,
            hLoop, Jpeg.inspect]
          by_cases hLead : a = Marker.lead
          · by_cases hCode : b = Marker.start
            · rw [if_neg (not_not.mpr hLead), if_neg (not_not.mpr hCode), if_pos ⟨hLead, hCode⟩]
            · rw [if_neg (not_not.mpr hLead), if_pos hCode, if_neg fun h => hCode h.2]
              rfl
          · rw [if_pos hLead, if_neg fun h => hLead h.1]
            rfl

end InPlace

/-! The fault of a missing frame header -/

/-- A fault that is handed on is not one that does not arise. -/
theorem handed_on_ne {α β : Type} {x : Except Fault α} {fault other : Fault} (h : x = .error fault)
    (hOther : x ≠ .error other) : (Except.error fault : Except Fault β) ≠ .error other := by
  intro hSame
  obtain rfl := Except.error.inj hSame
  exact hOther h

theorem Marker.read_ne_noFrame : read offset bs ≠ .error .noFrame := by
  intro h
  unfold read at h
  repeat' split at h
  all_goals cases h

theorem Segment.read_ne_noFrame : read offset bs ≠ .error .noFrame := by
  intro h
  unfold read at h
  dsimp only at h
  repeat' split at h
  all_goals cases h

theorem checkScan_ne_noFrame : checkScan offset bs ≠ .error .noFrame := by
  fun_induction checkScan offset bs with
  | case2 offset b rest hLead ih => exact ih
  | case4 offset b hLead m more hCode ih => exact ih
  | case5 offset b hLead more _ ih => exact ih
  | case8 offset b hLead m more _ _ _ _ fault hSegment =>
      exact handed_on_ne hSegment Segment.read_ne_noFrame
  | case9 offset b hLead m more _ _ _ _ payload after hSegment ih => exact ih
  | _ =>
      intro h
      cases h

theorem frameSize_ne_noFrame : frameSize payload ≠ .error .noFrame := by
  intro h
  unfold frameSize at h
  split at h
  · dsimp only at h
    split at h <;> cases h
  · cases h

namespace Survey

variable {s : Survey}

theorem add_ne_noFrame : s.add offset m payload ≠ .error .noFrame := by
  intro h
  unfold add at h
  split at h
  · split at h
    · cases h
    · cases hSize : frameSize payload with
      | error fault =>
          rw [hSize] at h
          exact handed_on_ne hSize frameSize_ne_noFrame h
      | ok size =>
          rw [hSize] at h
          cases h
  · split at h <;> cases h

theorem finish_ne_noFrame (h : ¬ s.size.isNone) : s.finish ≠ .error .noFrame := by
  intro hFinish
  unfold finish at hFinish
  split at hFinish
  · cases hFinish
  · rename_i hSize
    rw [hSize] at h
    exact h rfl

/-- A walk that gets to a scan has found a frame header. -/
theorem walk_ne_noFrame : s.walk offset bs ≠ .error .noFrame := by
  fun_induction walk s offset bs with
  | case1 s offset bs fault hMarker => exact handed_on_ne hMarker Marker.read_ne_noFrame
  | case2 s offset bs m rest hMarker place hAlone ih => exact ih
  | case3 | case4 | case6 =>
      intro h
      cases h
  | case5 s offset bs m rest _ place _ _ _ fault hSegment =>
      exact handed_on_ne hSegment Segment.read_ne_noFrame
  | case7 s offset bs rest place payload after _ next _ fault hScan =>
      exact handed_on_ne hScan checkScan_ne_noFrame
  | case8 s offset bs rest place payload after hSegment next hSize => exact finish_ne_noFrame hSize
  | case9 s offset bs m rest hMarker place hAlone hStart hEnding payload after hSegment hScan fault
      hAdd =>
      exact handed_on_ne hAdd add_ne_noFrame
  | case10 s offset bs m rest hMarker place hAlone hStart hEnding payload after hSegment next hScan
      t hAdd ih => exact ih

end Survey

theorem inspect_ne_noFrame : inspect bs ≠ .error .noFrame := by
  intro h
  unfold inspect at h
  split at h
  · split at h
    · exact Survey.walk_ne_noFrame h
    · cases h
  · cases h

end ImagePlacement.Jpeg
