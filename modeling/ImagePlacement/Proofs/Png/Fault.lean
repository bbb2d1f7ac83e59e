import ImagePlacement.Proofs.Png.Datastream
import ImagePlacement.Proofs.Text.Numeral

/-! Streams that do not pass for images, and what their errors point at. An error names an offset
exactly if the chunks before it are in order and no complete chunk stands there. -/
namespace ImagePlacement.Png

variable {bs body tail : Bytes} {c : Chunk} {run : List Chunk} {fault : Fault} {offset : Nat}

/-! Chunks that the walk gets past -/

/-- The bytes that chunks take in a stream. -/
def Chunk.extent (run : List Chunk) : Nat := run.foldr (fun c n => c.size + n) 0

/-- The bytes start with a complete chunk, whose length and kind are in order. -/
def StartsChunk (bs : Bytes) : Prop := ∃ c rest, c.IsProper ∧ bs = Chunk.bytes c ++ rest

/-- A header of thirteen bytes, the first eight of which are a width and a height. -/
def Chunk.Measures (c : Chunk) (width height : UInt32) : Prop :=
  c.kind = Chunk.header ∧ ∃ rest, rest.length = 5 ∧
    c.data = Bytes.digits 4 width.toNat ++ Bytes.digits 4 height.toNat ++ rest

/-- Complete chunks, each acceptable where it stands: first the header of an image with pixels,
then neither another header nor the ending. -/
structure Passes (run : List Chunk) : Prop where
  proper : ∀ c ∈ run, c.IsProper
  first : ∀ c ∈ run.head?, ∃ width height, c.Measures width height ∧ width ≠ 0 ∧ height ≠ 0
  later : ∀ c ∈ run.tail, c.kind ≠ Chunk.header ∧ c.kind ≠ Chunk.ending

theorem startsChunk_iff : StartsChunk bs ↔ ∃ found, Chunk.read bs = .ok found := by
  simp only [StartsChunk, Prod.exists, Chunk.read_eq_ok_iff]

/-- A header is taken, or refused for its length or for the lack of pixels. -/
theorem headerSize_cases (data : Bytes) :
    (∃ size, headerSize data = .ok size) ∨
      (∃ length, headerSize data = .error (.headerLength length)) ∨
      ∃ size, headerSize data = .error (.noPixels size) := by
  unfold headerSize
  split
  · exact Or.inr (Or.inl ⟨_, rfl⟩)
  · dsimp only
    split
    · exact Or.inr (Or.inr ⟨_, rfl⟩)
    · exact Or.inl ⟨_, rfl⟩

theorem headerSize_eq_noPixels_iff {data : Bytes} :
    (∃ size, headerSize data = .error (.noPixels size)) ↔
      ∃ width height : UInt32, (∃ rest, rest.length = 5 ∧
        data = Bytes.digits 4 width.toNat ++ Bytes.digits 4 height.toNat ++ rest) ∧
          (width = 0 ∨ height = 0) := by
  constructor
  · rintro ⟨size, h⟩
    simp only [headerSize] at h
    split at h
    · cases h
    · rename_i hLength
      split at h
      · rename_i hPixels
        refine ⟨_, _, ⟨data.drop 8, ?_, digits_pair (by omega)⟩, hPixels⟩
        rw [List.length_drop]
        omega
      · cases h
  · rintro ⟨width, height, ⟨rest, hRest, rfl⟩, hPixels⟩
    have hLength : (Bytes.digits 4 width.toNat ++ Bytes.digits 4 height.toNat ++
        rest).length = 13 := by
      simp [hRest]
    refine ⟨⟨width, height⟩, ?_⟩
    simp only [headerSize, hLength, pair_digits, ne_eq, not_true_eq_false, if_false, if_pos hPixels]

namespace Survey

variable {s t u : Survey}

/-- The walk takes chunks one after another, and none of them ends it. -/
inductive Takes : Survey → List Chunk → Survey → Prop where
  | nil (s : Survey) : Takes s [] s
  | cons {s t u : Survey} {c : Chunk} {run : List Chunk} (proper : c.IsProper)
      (first : s.add c = .ok t) (goesOn : c.kind ≠ Chunk.ending) (later : Takes t run u) :
      Takes s (c :: run) u

/-- What stops the walk at an offset: the end of the stream, bytes that are no chunk, or a chunk
that must not stand there. -/
inductive Stops (s : Survey) (offset : Nat) : Bytes → Fault → Prop where
  | atEnd : Stops s offset [] .noEnd
  | noChunk {bs : Bytes} {fault : ChunkFault} (hSome : bs ≠ [])
      (hRead : Chunk.read bs = .error fault) : Stops s offset bs (.badChunk offset fault)
  | refused {c : Chunk} {rest : Bytes} {fault : Fault} (proper : c.IsProper)
      (hAdd : s.add c = .error fault) : Stops s offset (c.bytes ++ rest) fault

theorem size_of_add (h : s.add c = .ok t) : t.size.isSome := by
  cases hSize : s.size with
  | none =>
      obtain ⟨-, size, -, rfl⟩ := (add_eq_ok_iff_first hSize).mp h
      rfl
  | some size =>
      have hKnown : s.size.isSome := Option.isSome_of_eq_some hSize
      obtain ⟨-, -, rfl⟩ := (add_eq_ok_iff hKnown).mp h
      exact hKnown

theorem finish_ne_error (h : s.size.isSome) : s.finish ≠ .error fault := by
  obtain ⟨size, hSize⟩ := Option.isSome_iff_exists.mp h
  rw [finish, hSize]
  intro h
  cases h

/-- Chunks that are taken give a size. -/
theorem Takes.eq_nil (h : Takes s run t) (hSize : t.size = none) : run = [] := by
  have hKnown {s t : Survey} {run : List Chunk} (h : Takes s run t) (hSome : s.size.isSome) :
      t.size.isSome := by
    induction h with
    | nil => exact hSome
    | cons proper first goesOn later ih => exact ih (size_of_add first)
  cases h with
  | nil => rfl
  | cons proper first goesOn later =>
      have hSome := hKnown later (size_of_add first)
      rw [hSize] at hSome
      cases hSome

theorem walk_of_takes (h : Takes s run t) (offset : Nat) (tail : Bytes) :
    s.walk offset (run.flatMap Chunk.bytes ++ tail) =
      t.walk (offset + Chunk.extent run) tail := by
  induction h generalizing offset with
  | nil => rfl
  | @cons s t u c run proper first goesOn later ih =>
      have hRead : Chunk.read ((c :: run).flatMap Chunk.bytes ++ tail) =
          .ok (c, run.flatMap Chunk.bytes ++ tail) := by
        refine Chunk.read_eq_ok_iff.mpr ⟨proper, ?_⟩
        rw [List.flatMap_cons, List.append_assoc]
      have hExtent : offset + Chunk.extent (c :: run) = offset + c.size + Chunk.extent run :=
        (Nat.add_assoc ..).symm
      rw [walk_of_read hRead, first, hExtent]
      exact (if_neg goesOn).trans (ih (offset + c.size))

theorem Stops.walk_eq (h : Stops s offset bs fault) : s.walk offset bs = .error fault := by
  cases h with
  | atEnd => rw [walk, if_pos rfl]
  | noChunk hSome hRead =>
      rw [walk, if_neg hSome]
      split
      · rename_i other hOther
        rw [hRead] at hOther
        rw [Except.error.inj hOther]
      · rename_i found after hFound
        rw [hRead] at hFound
        cases hFound
  | refused proper hAdd => rw [walk_of_read (Chunk.read_eq_ok_iff.mpr ⟨proper, rfl⟩), hAdd]

/-- A walk that fails takes some chunks and is then stopped. -/
theorem exists_stops (h : s.walk offset bs = .error fault) : ∃ run t tail, Takes s run t ∧
    bs = run.flatMap Chunk.bytes ++ tail ∧ t.Stops (offset + Chunk.extent run) tail fault := by
  fun_induction walk s offset bs with
  | case1 s offset =>
      obtain rfl := Except.error.inj h
      exact ⟨[], s, [], .nil s, rfl, .atEnd⟩
  | case2 s offset bs hSome other hRead =>
      obtain rfl := Except.error.inj h
      exact ⟨[], s, bs, .nil s, rfl, .noChunk hSome hRead⟩
  | case3 s offset bs hSome c rest hRead other hAdd =>
      obtain rfl := Except.error.inj h
      obtain ⟨proper, rfl⟩ := Chunk.read_eq_ok_iff.mp hRead
      exact ⟨[], s, _, .nil s, rfl, .refused proper hAdd⟩
  | case4 s offset bs hSome c rest hRead t hAdd hEnding =>
      exact absurd h (finish_ne_error (size_of_add hAdd))
  | case5 s offset bs hSome c rest hRead t hAdd hEnding ih =>
      obtain ⟨proper, rfl⟩ := Chunk.read_eq_ok_iff.mp hRead
      obtain ⟨run, u, tail, hTakes, rfl, hStops⟩ := ih h
      refine ⟨c :: run, u, tail, .cons proper hAdd hEnding hTakes, ?_, ?_⟩
      · rw [List.flatMap_cons, List.append_assoc]
      · rwa [Nat.add_assoc] at hStops

/-- Once the size is known, every complete chunk is taken but a header and the ending. -/
theorem exists_takes_iff (hSize : s.size.isSome) : (∃ t, Takes s run t) ↔
    (∀ c ∈ run, c.IsProper) ∧ ∀ c ∈ run, c.kind ≠ Chunk.header ∧ c.kind ≠ Chunk.ending := by
  constructor
  · rintro ⟨t, h⟩
    induction h with
    | nil => simp
    | cons proper first goesOn later ih =>
        obtain ⟨hHeader, -, rfl⟩ := (add_eq_ok_iff hSize).mp first
        obtain ⟨hProper, hKind⟩ := ih hSize
        exact ⟨List.forall_mem_cons.mpr ⟨proper, hProper⟩,
          List.forall_mem_cons.mpr ⟨⟨hHeader, goesOn⟩, hKind⟩⟩
  · rintro ⟨hProper, hKind⟩
    induction run generalizing s with
    | nil => exact ⟨s, .nil s⟩
    | cons c run ih =>
        obtain ⟨proper, hProper⟩ := List.forall_mem_cons.mp hProper
        obtain ⟨⟨hHeader, goesOn⟩, hKind⟩ := List.forall_mem_cons.mp hKind
        obtain ⟨t, later⟩ := ih (s := s.next c) hSize hProper hKind
        exact ⟨t, .cons proper (add_eq_next hSize hHeader fun h => absurd h goesOn) goesOn later⟩

theorem add_start_iff : (∃ t, start.add c = .ok t) ↔
    ∃ width height, c.Measures width height ∧ width ≠ 0 ∧ height ≠ 0 := by
  constructor
  · rintro ⟨t, h⟩
    obtain ⟨hKind, size, hSize, -⟩ := (add_eq_ok_iff_first rfl).mp h
    obtain ⟨hWidth, hHeight, hField⟩ := headerSize_eq_ok_iff.mp hSize
    exact ⟨size.width, size.height, ⟨hKind, hField⟩, hWidth, hHeight⟩
  · rintro ⟨width, height, ⟨hKind, hField⟩, hWidth, hHeight⟩
    have hSize : headerSize c.data = .ok ⟨width, height⟩ :=
      headerSize_eq_ok_iff.mpr ⟨hWidth, hHeight, hField⟩
    exact ⟨_, (add_eq_ok_iff_first rfl).mpr ⟨hKind, _, hSize, rfl⟩⟩

theorem exists_takes_start_iff : (∃ t, Takes start run t) ↔ Passes run := by
  constructor
  · rintro ⟨t, h⟩
    cases h with
    | nil => exact ⟨by simp, by simp, by simp⟩
    | @cons _ t _ c run proper first goesOn later =>
        obtain ⟨hProper, hKind⟩ := (exists_takes_iff (size_of_add first)).mp ⟨_, later⟩
        refine ⟨List.forall_mem_cons.mpr ⟨proper, hProper⟩, ?_, hKind⟩
        rintro _ ⟨⟩
        exact add_start_iff.mp ⟨t, first⟩
  · rintro ⟨hProper, hFirst, hKind⟩
    cases run with
    | nil => exact ⟨start, .nil start⟩
    | cons c run =>
        obtain ⟨proper, hProper⟩ := List.forall_mem_cons.mp hProper
        obtain ⟨t, first⟩ := add_start_iff.mpr (hFirst c rfl)
        obtain ⟨u, later⟩ := (exists_takes_iff (size_of_add first)).mpr ⟨hProper, hKind⟩
        refine ⟨u, .cons proper first ?_ later⟩
        obtain ⟨_, _, ⟨hHeader, -⟩, -⟩ := hFirst c rfl
        rw [hHeader]
        decide

/-- What a chunk is refused for. -/
theorem add_error_cases (h : s.add c = .error fault) :
    fault = .repeatedHeader ∨ (∃ length, fault = .headerLength length) ∨
      (∃ size, fault = .noPixels size) ∨ fault = .headerNotFirst c.kind ∨ fault = .noData := by
  unfold add at h
  split at h
  · split at h
    · exact Or.inl (Except.error.inj h).symm
    · rcases headerSize_cases c.data with ⟨size, hSize⟩ | ⟨length, hSize⟩ | ⟨size, hSize⟩
      · rw [hSize] at h
        cases h
      · rw [hSize] at h
        exact Or.inr (Or.inl ⟨length, (Except.error.inj h).symm⟩)
      · rw [hSize] at h
        exact Or.inr (Or.inr (Or.inl ⟨size, (Except.error.inj h).symm⟩))
  · split at h
    · exact Or.inr (Or.inr (Or.inr (Or.inl (Except.error.inj h).symm)))
    · split at h
      · cases h
      · split at h
        · cases h
        · split at h
          · exact Or.inr (Or.inr (Or.inr (Or.inr (Except.error.inj h).symm)))
          · cases h

/-- A lack of pixels shows in the first header only. -/
theorem add_eq_noPixels_iff : (∃ size, s.add c = .error (.noPixels size)) ↔
    s.size = none ∧ ∃ width height, c.Measures width height ∧ (width = 0 ∨ height = 0) := by
  by_cases hKind : c.kind = Chunk.header
  · cases hSize : s.size with
    | some size => simp [add, hKind, hSize]
    | none =>
        have hAdd (size : PixelSize) : s.add c = .error (.noPixels size) ↔
            headerSize c.data = .error (.noPixels size) := by
          simp only [add, hSize]
          cases headerSize c.data <;> simp [hKind, bind, Except.bind, pure, Except.pure]
        simp only [hAdd, headerSize_eq_noPixels_iff, Chunk.Measures, hKind, true_and]
  · have hOther (size : PixelSize) : s.add c ≠ .error (.noPixels size) := by
      unfold add
      rw [if_neg hKind]
      repeat' split
      all_goals simp
    simp [hOther, Chunk.Measures, hKind]

end Survey

/-! What errors say -/

/-- An error whose text ends with an offset. -/
def Names (error : DecodeError) (offset : Nat) : Prop :=
  ∃ text, error = .corrupt .png (text ++ " at offset " ++ toString offset)

theorem trailingDigits_offset (text : String) (offset : Nat) :
    trailingDigits (text ++ " at offset " ++ toString offset) =
      (Nat.toDigits 10 offset).reverse := by
  refine trailingDigits_append_toString ?_ offset
  rw [trailingDigits_append text (by decide)]
  decide

/-- Texts that start with different characters differ. -/
theorem append_ne {first second : Char} {lead text : String} (hLead : lead.toList.head? = some first)
    (hText : text.toList.head? = some second) (h : first ≠ second) (rest : String) :
    lead ++ rest ≠ text := by
  rintro rfl
  rw [String.toList_append, List.head?_append, hLead] at hText
  exact h (Option.some.inj hText)

theorem message_of_corrupt {text : String} (h : fault.toDecodeError = .corrupt .png text) :
    fault.message = text := by
  cases fault with
  | noPixels size => cases h
  | _ => exact (DecodeError.corrupt.inj h).2

theorem trailingDigits_of_names (h : Names fault.toDecodeError offset) :
    trailingDigits fault.message = (Nat.toDigits 10 offset).reverse := by
  obtain ⟨text, hError⟩ := h
  rw [message_of_corrupt hError, trailingDigits_offset]

theorem names_badChunk_iff {fault : ChunkFault} {place : Nat} :
    Names (Fault.badChunk place fault).toDecodeError offset ↔ offset = place := by
  have hNames : Names (Fault.badChunk place fault).toDecodeError place := by
    cases fault with
    | shortHeader => exact ⟨"truncated chunk header", rfl⟩
    | lengthOutOfRange length =>
        refine ⟨"chunk length " ++ toString length ++ " out of range", ?_⟩
        have hText : " out of range" ++ " at offset " = " out of range at offset " := rfl
        rw [@String.append_assoc _ " out of range", hText]
        rfl
    | badKind => exact ⟨"invalid chunk type", rfl⟩
    | incomplete kind =>
        refine ⟨"truncated " ++ Bytes.toText kind ++ " chunk", ?_⟩
        have hText : " chunk" ++ " at offset " = " chunk at offset " := rfl
        rw [@String.append_assoc _ " chunk", hText]
        rfl
  constructor
  · intro h
    refine toDigits_injective (List.reverse_inj.mp ?_)
    rw [← trailingDigits_of_names h, trailingDigits_of_names hNames]
  · rintro rfl
    exact hNames

theorem not_names_of_trailingDigits (h : trailingDigits fault.message = []) :
    ¬ Names fault.toDecodeError offset := by
  intro hNames
  rw [trailingDigits_of_names hNames, List.reverse_eq_nil_iff] at h
  exact Nat.toDigits_ne_nil h

/-- A letter is no digit. -/
theorem not_isDigit_of_isLetter {b : UInt8} (h : Bytes.isLetter b) :
    ¬ (Char.ofNat b.toNat).isDigit := by
  have hLt := b.toNat_lt
  have hCode : (Char.ofNat b.toNat).val.toNat = b.toNat := by
    rw [Char.ofNat, dif_pos (Or.inl (by omega))]
    rfl
  simp only [Bytes.isLetter, Bool.or_eq_true, Bool.and_eq_true, decide_eq_true_eq,
    UInt8.le_iff_toNat_le, UInt8.reduceToNat] at h
  simp only [Char.isDigit, Bool.and_eq_true, decide_eq_true_eq, ge_iff_le,
    UInt32.le_iff_toNat_le, hCode, not_and]
  intro _
  change ¬ b.toNat ≤ 57
  omega

theorem trailingDigits_kind (proper : c.IsProper) (lead : String) :
    trailingDigits (lead ++ Bytes.toText c.kind) = [] := by
  have hText : (Bytes.toText c.kind).toList = c.kind.map fun b => Char.ofNat b.toNat :=
    String.toList_ofList
  have hNone : ∀ x ∈ (Bytes.toText c.kind).toList, ¬ x.isDigit := by
    rw [hText]
    simp only [List.forall_mem_map]
    exact fun b hMem => not_isDigit_of_isLetter (proper.kind_letters b hMem)
  obtain ⟨first, hFirst⟩ : ∃ first, first ∈ (Bytes.toText c.kind).toList := by
    refine List.exists_mem_of_length_pos ?_
    rw [hText, List.length_map, proper.kind_length]
    decide
  have hStray : (Bytes.toText c.kind).toList.all Char.isDigit = false :=
    List.all_eq_false.mpr ⟨first, hFirst, hNone first hFirst⟩
  rw [trailingDigits_append lead hStray, trailingDigits, List.takeWhile_eq_nil_iff]
  intro _
  exact hNone _ (List.mem_reverse.mp (List.getElem_mem _))

namespace Survey

variable {s t : Survey}

/-- The text of an error that a chunk is refused with does not end with a number. -/
theorem trailingDigits_of_add (proper : c.IsProper) (h : s.add c = .error fault) :
    trailingDigits fault.message = [] := by
  rcases add_error_cases h with rfl | ⟨length, rfl⟩ | ⟨size, rfl⟩ | rfl | rfl
  · rfl
  · exact trailingDigits_append ("IHDR length " ++ toString length) (by decide)
  · change trailingDigits "no pixels" = []
    rfl
  · exact trailingDigits_kind proper _
  · rfl

theorem message_ne_of_add (h : s.add c = .error fault) :
    fault.message ≠ "truncated stream: missing IEND chunk" := by
  rcases add_error_cases h with rfl | ⟨length, rfl⟩ | ⟨size, rfl⟩ | rfl | rfl
  · exact show "duplicate IHDR chunk" ≠ _ by decide
  · change "IHDR length " ++ toString length ++ " (expected 13)" ≠ _
    rw [String.append_assoc]
    exact append_ne rfl rfl (by decide) _
  · exact show "no pixels" ≠ _ by decide
  · exact append_ne rfl rfl (by decide) _
  · exact show "no IDAT chunk before IEND" ≠ _ by decide

/-- An error names an offset if the walk was stopped there by bytes that are no chunk. -/
theorem Stops.names_iff {place : Nat} (h : s.Stops place tail fault) :
    Names fault.toDecodeError offset ↔ tail ≠ [] ∧ ¬ StartsChunk tail ∧ offset = place := by
  cases h with
  | atEnd => exact iff_of_false (not_names_of_trailingDigits rfl) fun h => h.1 rfl
  | noChunk hSome hRead =>
      have hNone : ¬ StartsChunk tail := by
        rw [startsChunk_iff, hRead]
        exact nofun
      rw [names_badChunk_iff, and_iff_right hSome, and_iff_right hNone]
  | refused proper hAdd =>
      exact iff_of_false (not_names_of_trailingDigits (trailingDigits_of_add proper hAdd))
        fun h => h.2.1 ⟨_, _, proper, rfl⟩

/-- The error for a missing ending means that the walk has come to the end of the stream. -/
theorem Stops.noEnd_iff (h : s.Stops offset tail fault) :
    fault.toDecodeError = .corrupt .png "truncated stream: missing IEND chunk" ↔ tail = [] := by
  cases h with
  | atEnd => exact iff_of_true rfl rfl
  | @noChunk _ other hSome hRead =>
      refine iff_of_false ?_ hSome
      intro hError
      have hNames : Names (Fault.badChunk offset other).toDecodeError offset :=
        names_badChunk_iff.mpr rfl
      have hNone : trailingDigits Fault.noEnd.message = [] := rfl
      rw [hError] at hNames
      exact not_names_of_trailingDigits hNone hNames
  | @refused c rest _ proper hAdd =>
      have hTail : c.bytes ++ rest ≠ [] := by
        simp [Chunk.bytes, Bytes.digits]
      exact iff_of_false (fun hError => message_ne_of_add hAdd (message_of_corrupt hError)) hTail

/-- The walk over a whole stream fails for what stops it behind the chunks that it gets past. -/
theorem inspect_eq_error_iff : inspect (signature ++ body) = .error fault ↔
    ∃ run t tail, Takes start run t ∧ body = run.flatMap Chunk.bytes ++ tail ∧
      t.Stops (8 + Chunk.extent run) tail fault := by
  have hPrefix : signature.isPrefixOf (signature ++ body) = true :=
    List.isPrefixOf_iff_prefix.mpr (List.prefix_append ..)
  rw [inspect, if_pos hPrefix, List.drop_left]
  constructor
  · exact exists_stops
  · rintro ⟨run, t, tail, hTakes, rfl, hStops⟩
    rw [walk_of_takes hTakes]
    exact hStops.walk_eq

end Survey

/-- A stream is refused with an error. -/
def Refuses (bs : Bytes) (error : DecodeError) : Prop :=
  (inspect bs).mapError Fault.toDecodeError = .error error

theorem refuses_iff {error : DecodeError} :
    Refuses bs error ↔ ∃ fault, inspect bs = .error fault ∧ fault.toDecodeError = error := by
  unfold Refuses
  cases inspect bs with
  | error fault => simp [Except.mapError]
  | ok header => simp [Except.mapError]

/-- What the error about a stream with a signature says. It names an offset if the stream goes on
there with no complete chunk, and all before it is in order. It speaks of a missing ending if the
stream ends behind chunks that are in order. It is a lack of pixels if the first chunk is a header
with a side of zero, whatever follows. -/
theorem refuses_located (body : Bytes) :
    (∀ offset, (∃ error, Refuses (signature ++ body) error ∧ Names error offset) ↔
      ∃ run tail, Passes run ∧ body = run.flatMap Chunk.bytes ++ tail ∧ tail ≠ [] ∧
        ¬ StartsChunk tail ∧ offset = 8 + Chunk.extent run) ∧
    (Refuses (signature ++ body) (.corrupt .png "truncated stream: missing IEND chunk") ↔
      ∃ run, Passes run ∧ body = run.flatMap Chunk.bytes) ∧
    ((∃ x y, Refuses (signature ++ body) (.degenerate x y)) ↔
      ∃ first tail width height, first.IsProper ∧ Chunk.Measures first width height ∧
        (width = 0 ∨ height = 0) ∧ body = first.bytes ++ tail) := by
  simp only [refuses_iff, Survey.inspect_eq_error_iff]
  refine ⟨fun offset => ⟨?_, ?_⟩, ⟨?_, ?_⟩, ⟨?_, ?_⟩⟩
  · rintro ⟨_, ⟨fault, ⟨run, t, tail, hTakes, rfl, hStops⟩, rfl⟩, hNames⟩
    exact ⟨run, tail, Survey.exists_takes_start_iff.mp ⟨t, hTakes⟩, rfl, hStops.names_iff.mp hNames⟩
  · rintro ⟨run, tail, passes, rfl, hSome, hNone, rfl⟩
    obtain ⟨t, hTakes⟩ := Survey.exists_takes_start_iff.mpr passes
    cases hRead : Chunk.read tail with
    | ok found => exact absurd (startsChunk_iff.mpr ⟨found, hRead⟩) hNone
    | error fault =>
        exact ⟨_, ⟨_, ⟨run, t, tail, hTakes, rfl, .noChunk hSome hRead⟩, rfl⟩,
          names_badChunk_iff.mpr rfl⟩
  · rintro ⟨fault, ⟨run, t, tail, hTakes, rfl, hStops⟩, hError⟩
    obtain rfl := hStops.noEnd_iff.mp hError
    exact ⟨run, Survey.exists_takes_start_iff.mp ⟨t, hTakes⟩, List.append_nil _⟩
  · rintro ⟨run, passes, rfl⟩
    obtain ⟨t, hTakes⟩ := Survey.exists_takes_start_iff.mpr passes
    exact ⟨.noEnd, ⟨run, t, [], hTakes, (List.append_nil _).symm, .atEnd⟩, rfl⟩
  · rintro ⟨x, y, fault, ⟨run, t, tail, hTakes, rfl, hStops⟩, hError⟩
    cases fault with
    | noPixels size =>
        cases hStops with
        | @refused first rest _ proper hAdd =>
            obtain ⟨hSize, width, height, measures, hPixels⟩ :=
              Survey.add_eq_noPixels_iff.mp ⟨size, hAdd⟩
            obtain rfl := hTakes.eq_nil hSize
            exact ⟨first, rest, width, height, proper, measures, hPixels, rfl⟩
    | _ => cases hError
  · rintro ⟨first, tail, width, height, proper, measures, hPixels, rfl⟩
    obtain ⟨size, hAdd⟩ :=
      (Survey.add_eq_noPixels_iff (s := .start)).mpr ⟨rfl, width, height, measures, hPixels⟩
    exact ⟨_, _, _, ⟨[], .start, _, .nil _, rfl, .refused proper hAdd⟩, rfl⟩

end ImagePlacement.Png
