import ImagePlacement.Proofs.InPlace
import ImagePlacement.Proofs.Png.Fault

/-! The walk over chunks by offsets. It comes to what the walk over the bytes that are left comes
to, and the offset of each chunk is inside the stream. -/
namespace ImagePlacement.Png

variable {bs rest data kind : Bytes} {offset : Nat} {fault : Fault}

/-! A chunk by the number of bytes that are there -/

theorem Chunk.lead?_of_lt (h : rest.length < 8) : lead? rest = none := by
  cases hLead : lead? rest with
  | none => rfl
  | some found =>
      obtain ⟨length, kind, after⟩ := found
      have hLength := lead?_length hLead
      omega

theorem Chunk.lead?_of_le (h : 8 ≤ rest.length) :
    lead? rest = some (Bytes.toNat (rest.take 4), (rest.drop 4).take 4, rest.drop 8) := by
  have hFour : 4 ≤ rest.length := Nat.le_trans (by decide) h
  have hLength : Bytes.splitAt? 4 rest = some (rest.take 4, rest.drop 4) := by
    rw [Bytes.splitAt?, List.length_take_of_le hFour]
    exact if_pos rfl
  have hKind : Bytes.splitAt? 4 (rest.drop 4) = some ((rest.drop 4).take 4, rest.drop 8) :=
    Bytes.splitAt?_of_le h
  rw [lead?, hLength]
  simp only [Option.bind_eq_bind, Option.bind_some, hKind, Option.pure_def]

theorem Chunk.split?_of_le (h : 8 ≤ rest.length) : split? rest =
    let length := Bytes.toNat (rest.take 4)
    if rest.length < 12 + length then none
    else some (⟨(rest.drop 4).take 4, (rest.drop 8).take length,
      (rest.drop (8 + length)).take 4⟩, rest.drop (12 + length)) := by
  rw [split?, Chunk.lead?_of_le h]
  simp only [Option.bind_eq_bind, Option.bind_some, Option.pure_def]
  generalize Bytes.toNat (rest.take 4) = length
  by_cases hData : rest.length < 8 + length
  · rw [Bytes.splitAt?_of_lt h hData, Option.bind_none, if_pos (by omega)]
  · rw [Bytes.splitAt?_of_le (Nat.le_of_not_lt hData), Option.bind_some]
    by_cases hChecksum : rest.length < 8 + length + 4
    · rw [Bytes.splitAt?_of_lt (Nat.le_of_not_lt hData) hChecksum, Option.bind_none,
        if_pos (by omega)]
    · have hAfter : 8 + length + 4 = 12 + length := by omega
      rw [Bytes.splitAt?_of_le (Nat.le_of_not_lt hChecksum), Option.bind_some, if_neg (by omega),
        hAfter]

/-- What is read where there are eight bytes or more: the header of a chunk is there, and the rest
of it is if there are as many bytes as it takes. -/
theorem Chunk.read_of_le (h : 8 ≤ rest.length) : read rest =
    let length := Bytes.toNat (rest.take 4)
    let kind := (rest.drop 4).take 4
    if maxLength < length then .error (.lengthOutOfRange length)
    else if !kind.all Bytes.isLetter then .error .badKind
    else if rest.length < 12 + length then .error (.incomplete kind)
    else .ok (⟨kind, (rest.drop 8).take length, (rest.drop (8 + length)).take 4⟩,
      rest.drop (12 + length)) := by
  simp only [read, Chunk.lead?_of_le h, Chunk.split?_of_le h]
  by_cases hEnd : rest.length < 12 + Bytes.toNat (rest.take 4)
  · simp only [if_pos hEnd]
  · simp only [if_neg hEnd]

/-- After a chunk that is read the bytes go on with what is left of it. -/
theorem Chunk.drop_of_read {c : Chunk} (h : read (bs.drop offset) = .ok (c, rest)) :
    bs.drop (offset + c.size) = rest ∧ (offset ≤ bs.length → offset + c.size ≤ bs.length) := by
  have hLength := split?_length (split?_of_read h)
  obtain ⟨-, hBytes⟩ := read_eq_ok_iff.mp h
  have hTaken : c.bytes.length = c.size := by
    rw [hBytes, List.length_append] at hLength
    omega
  constructor
  · rw [← List.drop_drop, hBytes, ← hTaken, List.drop_left]
  · intro hOffset
    rw [List.length_drop] at hLength
    omega

namespace InPlace

open ImagePlacement.InPlace

/-- Two numbers of four bytes each. -/
def pair (data : Bytes) : Outcome Fault (UInt32 × UInt32) := do
  let first ← word (← slice data 0 4)
  let second ← word (← slice data 4 8)
  return (first, second)

/-- The size that the data of a header chunk gives. -/
def headerSize (data : Bytes) : Outcome Fault PixelSize :=
  if data.length ≠ 13 then .failed (.headerLength data.length)
  else do
    let (width, height) ← pair data
    if width = 0 ∨ height = 0 then .failed (.noPixels ⟨width, height⟩)
    else return ⟨width, height⟩

/-- The density that the data of a density chunk gives. -/
def declaredDensity? (data : Bytes) : Outcome Fault (Option Density) :=
  if data.length = 9 then do
    let unit ← byte data 8
    if unit = 1 then do
      let (x, y) ← pair data
      return if 0 < x ∧ 0 < y then some ⟨x.toFloat * inch, y.toFloat * inch⟩ else none
    else return none
  else return none

/-- What is known after one more chunk. -/
def add (s : Survey) (kind data : Bytes) : Outcome Fault Survey :=
  if kind = Chunk.header then
    if s.size.isSome then .failed .repeatedHeader
    else do
      let size ← headerSize data
      return { s with size := some size }
  else if s.size.isNone then .failed (.headerNotFirst kind)
  else if kind = Chunk.imageData then return { s with hasData := true }
  else if kind = Chunk.physicalSize then do
    let density ← declaredDensity? data
    return { s with density := density.or s.density }
  else if kind = Chunk.ending ∧ !s.hasData then .failed .noData
  else return s

/-- The length and the kind that the eight bytes give which a chunk starts with. -/
def fields (lead : Bytes) : Outcome Fault (Nat × Bytes) := do
  let length ← word (← slice lead 0 4)
  let kind ← slice lead 4 8
  return (length.toNat, kind)

/-- The kind and the data of the chunk at an offset, and the offset after it. -/
def chunk (bs : Bytes) (offset : Nat) : Outcome Fault (Bytes × Bytes × Nat) := do
  match slice? bs offset (← sum offset 8) with
  | none => .failed (.badChunk offset .shortHeader)
  | some lead => do
    let (length, kind) ← fields lead
    if Chunk.maxLength < length then .failed (.badChunk offset (.lengthOutOfRange length))
    else if !kind.all Bytes.isLetter then .failed (.badChunk offset .badKind)
    else do
      let start ← sum offset 8
      let stop ← sum start length
      let next ← sum stop 4
      if bs.length < next then .failed (.badChunk offset (.incomplete kind))
      else do
        let data ← slice bs start stop
        return (kind, data, next)

/-- One round of the walk. -/
def round (bs : Bytes) (s : Position Survey) : Outcome Fault (Round (Position Survey) Survey) :=
  if s.offset = bs.length then .failed .noEnd
  else do
    let (kind, data, next) ← chunk bs s.offset
    let survey ← add s.survey kind data
    if kind = Chunk.ending then return .leave survey
    else return .again ⟨survey, next⟩

/-- What the chunks of a stream say about its image. The loop may go round again as often as there
are bytes after the signature. -/
def inspect (bs : Bytes) : Outcome Fault Header :=
  if bs.length < signature.length then .failed .noSignature
  else do
    if (← slice bs 0 signature.length) ≠ signature then .failed .noSignature
    else do
      let survey ← loop (round bs) (bs.length - signature.length) ⟨.start, signature.length⟩
      match survey.size with
      | some size => return ⟨size, survey.density⟩
      | none => .failed .noHeader

/-! What single chunks say -/

theorem pair_eq (h : 8 ≤ data.length) : pair data = .done (Png.pair data) := by
  have hFirst : (data.take 4).length = 4 := by
    rw [List.length_take]
    omega
  have hSecond : ((data.drop 4).take 4).length = 4 := by
    rw [List.length_take, List.length_drop]
    omega
  rw [pair, slice_eq (by omega) (by omega), slice_eq (by omega) h]
  simp only [Outcome.done_bind, List.drop_zero, Nat.sub_zero, Nat.reduceSub]
  rw [word_eq hFirst, word_eq hSecond]
  rfl

theorem headerSize_eq (data : Bytes) :
    headerSize data = .ofExcept (Png.headerSize data) := by
  unfold headerSize Png.headerSize
  split
  · rfl
  · rename_i hLength
    rw [pair_eq (by omega), Outcome.done_bind]
    dsimp only
    split <;> rfl

theorem declaredDensity?_eq (data : Bytes) :
    declaredDensity? data = .done (Png.declaredDensity? data) := by
  unfold declaredDensity? Png.declaredDensity?
  by_cases hLength : data.length = 9
  · obtain ⟨unit, hUnit⟩ : ∃ unit, data[8]? = some unit := by
      simp [hLength]
    have hLast : data.getLast? = some unit := by
      rw [List.getLast?_eq_getElem?, hLength, ← hUnit]
    rw [if_pos hLength, byte_eq hUnit, Outcome.done_bind, pair_eq (by omega)]
    simp only [hLength, hLast, Option.some.injEq, true_and]
    split <;> rfl
  · rw [if_neg hLength, if_neg (fun h => hLength h.1)]
    rfl

theorem add_eq (s : Survey) (c : Chunk) : add s c.kind c.data = .ofExcept (s.add c) := by
  unfold add Survey.add
  split
  · split
    · rfl
    · rw [headerSize_eq]
      cases Png.headerSize c.data <;> rfl
  · split
    · rfl
    · split
      · rfl
      · split
        · rw [declaredDensity?_eq]
          rfl
        · split <;> rfl

theorem fields_eq (h : 8 ≤ rest.length) :
    fields (rest.take 8) = .done (Bytes.toNat (rest.take 4), (rest.drop 4).take 4) := by
  have hLead : (rest.take 8).length = 8 := by
    rw [List.length_take]
    omega
  have hFour : (rest.take 4).length = 4 := by
    rw [List.length_take]
    omega
  have hHead : (rest.take 8).take 4 = rest.take 4 := by
    rw [List.take_take]
    rfl
  have hKind : ((rest.take 8).drop 4).take 4 = (rest.drop 4).take 4 := by
    rw [List.drop_take, List.take_take]
    rfl
  have hLt : Bytes.toNat (rest.take 4) < UInt32.size := by
    have hDigits := Bytes.toNat_lt (rest.take 4)
    rwa [hFour] at hDigits
  rw [fields, slice_eq (by omega) (by omega), slice_eq (by omega) (by omega)]
  simp only [Outcome.done_bind, List.drop_zero, Nat.sub_zero, Nat.reduceSub]
  rw [hHead, hKind, word_eq hFour, Outcome.done_bind, UInt32.toNat_ofNat_of_lt' hLt]
  rfl

/-! The walk -/

section Walk

variable (hSize : bs.length ≤ 0x7FFFFFFFFFFFFFFF)

include hSize

/-- At an offset stands the chunk that the bytes from there on start with. -/
theorem chunk_eq (hOffset : offset ≤ bs.length) : chunk bs offset =
    match Chunk.read (bs.drop offset) with
    | .error fault => .failed (.badChunk offset fault)
    | .ok (c, _) => .done (c.kind, c.data, offset + c.size) := by
  have hLeft : (bs.drop offset).length = bs.length - offset := List.length_drop
  rw [chunk, sum_eq (by omega), Outcome.done_bind, slice?_eq hOffset]
  by_cases hShort : bs.length < offset + 8
  · rw [Bytes.splitAt?_of_lt hOffset hShort, Chunk.read, Chunk.lead?_of_lt (by omega)]
    rfl
  have hEight : 8 ≤ (bs.drop offset).length := by omega
  rw [Bytes.splitAt?_of_le (Nat.le_of_not_lt hShort), Chunk.read_of_le hEight]
  simp only [Option.map_some]
  rw [fields_eq hEight, Outcome.done_bind]
  dsimp only
  generalize hLength : Bytes.toNat ((bs.drop offset).take 4) = length
  split
  · rfl
  · rename_i hRange
    split
    · rfl
    · have hMax : length ≤ 0x7FFFFFFF := Nat.le_of_not_lt hRange
      rw [Outcome.done_bind, sum_eq (by omega), Outcome.done_bind, sum_eq (by omega),
        Outcome.done_bind]
      by_cases hEnd : bs.length < offset + 8 + length + 4
      · rw [if_pos hEnd, if_pos (by omega)]
      · have hTaken : ((bs.drop (offset + 8)).take length).length = length := by
          rw [List.length_take, List.length_drop]
          omega
        have hNext : offset + 8 + length + 4 = offset + (12 + length) := by omega
        rw [if_neg hEnd, if_neg (by omega), slice_eq (by omega) (by omega)]
        simp only [Outcome.done_bind, Chunk.size, hTaken, Nat.add_sub_cancel_left, List.drop_drop]
        rw [hNext]
        rfl

/-- What the walk over the bytes from an offset on comes to. -/
def left (bs : Bytes) (s : Position Survey) : Outcome Fault Header :=
  .ofExcept (s.survey.walk s.offset (bs.drop s.offset))

/-- A round takes one chunk, as the walk over the bytes that are left does. -/
theorem round_agrees (s : Position Survey) (hOffset : s.offset ≤ bs.length) :
    Agrees (left bs) (.ofExcept ·.finish) Position.offset bs.length s (round bs s) := by
  unfold round
  by_cases hEnd : s.offset = bs.length
  · have hWalk : s.survey.walk s.offset (bs.drop s.offset) = .error .noEnd := by
      rw [hEnd, List.drop_length]
      exact Survey.Stops.atEnd.walk_eq
    rw [if_pos hEnd]
    exact .failed (congrArg Outcome.ofExcept hWalk)
  rw [if_neg hEnd, chunk_eq hSize hOffset]
  cases hRead : Chunk.read (bs.drop s.offset) with
  | error fault =>
      have hSome : bs.drop s.offset ≠ [] := by
        rw [← List.length_pos_iff, List.length_drop]
        omega
      have stops : s.survey.Stops s.offset (bs.drop s.offset) (.badChunk s.offset fault) :=
        .noChunk hSome hRead
      exact .failed (congrArg Outcome.ofExcept stops.walk_eq)
  | ok found =>
      obtain ⟨c, rest⟩ := found
      obtain ⟨hAfter, hWithin⟩ := Chunk.drop_of_read hRead
      have hWalk : s.survey.walk s.offset (bs.drop s.offset) = _ := Survey.walk_of_read hRead
      simp only [Outcome.done_bind, add_eq]
      cases hAdd : s.survey.add c with
      | error fault =>
          rw [hAdd] at hWalk
          exact .failed (congrArg Outcome.ofExcept hWalk)
      | ok survey =>
          have hPositive : 0 < c.size := Nat.lt_of_lt_of_le (by decide) (Nat.le_add_right 12 _)
          rw [hAdd] at hWalk
          rw [Outcome.ofExcept_ok, Outcome.done_bind]
          refine .ite (congrArg Outcome.ofExcept hWalk) (fun _ hLeave => .leave hLeave) ?_
          rw [← hAfter]
          exact fun _ hAgain =>
            .again hAgain (Nat.lt_add_of_pos_right hPositive) (hWithin hOffset)

end Walk

/-! The whole stream -/

theorem take_eq_signature_iff : bs.take signature.length = signature ↔
    signature.isPrefixOf bs = true := by
  rw [List.isPrefixOf_iff_prefix, List.prefix_iff_eq_take]
  exact eq_comm

theorem inspect_eq (hSize : bs.length ≤ 0x7FFFFFFFFFFFFFFF) :
    inspect bs = .ofExcept (Png.inspect bs) := by
  have hFinish (survey : Survey) : (match survey.size with
      | some size => return ⟨size, survey.density⟩
      | none => .failed .noHeader : Outcome Fault Header) = .ofExcept survey.finish := by
    rw [Survey.finish]
    cases survey.size <;> rfl
  simp only [inspect, Png.inspect, hFinish, ← take_eq_signature_iff]
  by_cases hShort : bs.length < signature.length
  · have hTaken : bs.take signature.length ≠ signature := by
      intro h
      have hLength := congrArg List.length h
      rw [List.length_take] at hLength
      omega
    rw [if_pos hShort, if_neg hTaken]
    rfl
  have hStart : signature.length ≤ bs.length := Nat.le_of_not_lt hShort
  have hLoop : (loop (round bs) (bs.length - signature.length) ⟨.start, signature.length⟩ >>=
      fun survey => .ofExcept survey.finish) =
        .ofExcept (Survey.start.walk signature.length (bs.drop signature.length)) :=
    loop_bind_eq (round_agrees hSize) ⟨.start, signature.length⟩ hStart
  rw [if_neg hShort, slice_eq (Nat.zero_le _) hStart, Outcome.done_bind, hLoop, List.drop_zero,
    Nat.sub_zero]
  by_cases hSignature : bs.take signature.length = signature
  · rw [if_pos hSignature, if_neg (not_not.mpr hSignature)]
  · rw [if_neg hSignature, if_pos hSignature]
    rfl

end InPlace

/-! The fault of a missing header -/

theorem Survey.walk_ne_noHeader {s : Survey} : s.walk offset bs ≠ .error .noHeader := by
  intro h
  obtain ⟨run, t, tail, -, -, stops⟩ := Survey.exists_stops h
  cases stops with
  | refused proper hAdd =>
      rcases Survey.add_error_cases hAdd with h | ⟨_, h⟩ | ⟨_, h⟩ | h | h
      all_goals cases h

theorem inspect_ne_noHeader : inspect bs ≠ .error .noHeader := by
  intro h
  unfold inspect at h
  split at h
  · exact Survey.walk_ne_noHeader h
  · cases h

end ImagePlacement.Png
