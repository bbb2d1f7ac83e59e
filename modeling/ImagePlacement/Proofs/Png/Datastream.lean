import ImagePlacement.Png.Layout
import ImagePlacement.Proofs.Png.Chunk

/-! The streams that pass for images: a signature, a header chunk, other chunks with image data
among them, and an ending. Whatever follows the ending does not count. -/
namespace ImagePlacement.Png

variable {c : Chunk} {data bs rest : Bytes} {size : PixelSize} {d : Density} {header : Header}

/-! What the data of single chunks say -/

theorem pair_digits (x y : UInt32) (rest : Bytes) :
    pair (Bytes.digits 4 x.toNat ++ Bytes.digits 4 y.toNat ++ rest) = (x, y) := by
  have hFirst : (Bytes.digits 4 x.toNat ++ (Bytes.digits 4 y.toNat ++ rest)).take 4 =
      Bytes.digits 4 x.toNat := List.take_left' (Bytes.length_digits 4 _)
  have hAfter : (Bytes.digits 4 x.toNat ++ (Bytes.digits 4 y.toNat ++ rest)).drop 4 =
      Bytes.digits 4 y.toNat ++ rest := List.drop_left' (Bytes.length_digits 4 _)
  have hSecond : (Bytes.digits 4 y.toNat ++ rest).take 4 = Bytes.digits 4 y.toNat :=
    List.take_left' (Bytes.length_digits 4 _)
  rw [List.append_assoc, pair, hFirst, hAfter, hSecond, Bytes.word_digits, Bytes.word_digits]

/-- Two words and the bytes after them, where there are enough. -/
theorem digits_pair (h : 8 ≤ data.length) :
    data = Bytes.digits 4 (pair data).1.toNat ++ Bytes.digits 4 (pair data).2.toNat ++
      data.drop 8 := by
  have hFirst : (data.take 4).length = 4 := by
    rw [List.length_take]
    omega
  have hSecond : ((data.drop 4).take 4).length = 4 := by
    rw [List.length_take, List.length_drop]
    omega
  rw [pair, Bytes.digits_word hFirst, Bytes.digits_word hSecond]
  calc data = data.take 4 ++ data.drop 4 := (List.take_append_drop 4 data).symm
    _ = data.take 4 ++ ((data.drop 4).take 4 ++ (data.drop 4).drop 4) :=
        congrArg _ (List.take_append_drop 4 _).symm
    _ = data.take 4 ++ (data.drop 4).take 4 ++ data.drop 8 := by
        rw [List.drop_drop, List.append_assoc]

/-- Thirteen bytes give a size: two words that are not zero. -/
theorem headerSize_eq_ok_iff : headerSize data = .ok size ↔ size.width ≠ 0 ∧ size.height ≠ 0 ∧
    ∃ rest, rest.length = 5 ∧
      data = Bytes.digits 4 size.width.toNat ++ Bytes.digits 4 size.height.toNat ++ rest := by
  constructor
  · intro h
    simp only [headerSize] at h
    split at h
    · cases h
    · rename_i hLength
      split at h
      · cases h
      · rename_i hPixels
        obtain rfl := Except.ok.inj h
        rw [not_or] at hPixels
        refine ⟨hPixels.1, hPixels.2, data.drop 8, ?_, digits_pair (by omega)⟩
        rw [List.length_drop]
        omega
  · rintro ⟨hWidth, hHeight, rest, hRest, rfl⟩
    have hLength : (Bytes.digits 4 size.width.toNat ++ Bytes.digits 4 size.height.toNat ++
        rest).length = 13 := by
      simp [hRest]
    simp only [headerSize, hLength, pair_digits, hWidth, hHeight]
    rfl

/-- Nine bytes give a density: two words that are not zero and count pixels per metre, and the
byte one. -/
def GivesDensity (data : Bytes) (d : Density) : Prop :=
  ∃ x y : UInt32, x ≠ 0 ∧ y ≠ 0 ∧
    data = Bytes.digits 4 x.toNat ++ Bytes.digits 4 y.toNat ++ [1] ∧
    d = ⟨x.toFloat * 0.0254, y.toFloat * 0.0254⟩

theorem declaredDensity?_eq_some_iff : declaredDensity? data = some d ↔ GivesDensity data d := by
  constructor
  · intro h
    simp only [declaredDensity?] at h
    split at h
    · rename_i hUnit
      obtain ⟨hLength, hLast⟩ := hUnit
      split at h
      · rename_i hPositive
        have hEight : 8 ≤ data.length := by omega
        have hData := digits_pair hEight
        have hOne : data.drop 8 = [1] := by
          have hShort : (data.drop 8).length = 1 := by
            rw [List.length_drop]
            omega
          obtain ⟨unit, hDrop⟩ := List.length_eq_one_iff.mp hShort
          rw [hData, hDrop, List.getLast?_concat] at hLast
          rw [hDrop, Option.some.inj hLast]
        rw [hOne] at hData
        obtain rfl := Option.some.inj h
        exact ⟨_, _, UInt32.pos_iff_ne_zero.mp hPositive.1, UInt32.pos_iff_ne_zero.mp hPositive.2,
          hData, rfl⟩
      · cases h
    · cases h
  · rintro ⟨x, y, hX, hY, rfl, rfl⟩
    have hLength : (Bytes.digits 4 x.toNat ++ Bytes.digits 4 y.toNat ++ [(1 : UInt8)]).length =
        9 := by
      simp
    simp only [declaredDensity?, hLength, List.getLast?_concat, pair_digits, and_self, if_true,
      UInt32.pos_iff_ne_zero]
    exact if_pos ⟨hX, hY⟩

/-- A density chunk gives a density. -/
def Chunk.Declares (c : Chunk) (d : Density) : Prop :=
  c.kind = Chunk.physicalSize ∧ GivesDensity c.data d

/-- The density that a chunk gives, if it is one that does. -/
def Chunk.density? (c : Chunk) : Option Density :=
  if c.kind = Chunk.physicalSize then declaredDensity? c.data else none

theorem Chunk.density?_eq_some_iff : c.density? = some d ↔ c.Declares d := by
  unfold density? Declares
  split
  · rename_i hKind
    rw [declaredDensity?_eq_some_iff, and_iff_right hKind]
  · rename_i hKind
    exact ⟨nofun, fun h => absurd h.1 hKind⟩

/-- The density that chunks give is that of the last one that gives any. -/
def LastDensity (chunks : List Chunk) : Option Density → Prop
  | none => ∀ c ∈ chunks, ∀ d, ¬ c.Declares d
  | some d => ∃ before c after, chunks = before ++ c :: after ∧ c.Declares d ∧
      ∀ other ∈ after, ∀ d', ¬ other.Declares d'

theorem Chunk.density?_eq_none_iff : c.density? = none ↔ ∀ d, ¬ c.Declares d := by
  simp only [Option.eq_none_iff_forall_ne_some, ne_eq, density?_eq_some_iff]

theorem lastDensity_iff {chunks : List Chunk} {found : Option Density} :
    LastDensity chunks found ↔ chunks.reverse.findSome? Chunk.density? = found := by
  cases found with
  | none => simp only [LastDensity, List.findSome?_eq_none_iff, List.mem_reverse,
      Chunk.density?_eq_none_iff]
  | some d =>
      simp only [LastDensity, List.findSome?_eq_some_iff, Chunk.density?_eq_some_iff,
        Chunk.density?_eq_none_iff]
      constructor
      · rintro ⟨before, c, after, rfl, hDeclares, hAfter⟩
        refine ⟨after.reverse, c, before.reverse, by simp, hDeclares, ?_⟩
        simpa only [List.mem_reverse] using hAfter
      · rintro ⟨after, c, before, hChunks, hDeclares, hAfter⟩
        refine ⟨before.reverse, c, after.reverse, ?_, hDeclares, ?_⟩
        · rw [← List.reverse_reverse chunks, hChunks]
          simp
        · simpa only [List.mem_reverse] using hAfter

/-! The walk over the chunks -/

namespace Survey

variable {s t : Survey}

theorem add_eq_ok_iff_first (hSize : s.size = none) : s.add c = .ok t ↔
    c.kind = Chunk.header ∧ ∃ size, headerSize c.data = .ok size ∧
      t = { s with size := some size } := by
  simp only [add, hSize]
  by_cases hKind : c.kind = Chunk.header
  · cases headerSize c.data with
    | error fault => simp [hKind, bind, Except.bind]
    | ok size => simp [hKind, bind, Except.bind, pure, Except.pure, eq_comm]
  · simp [hKind]

/-- What is known after a chunk that is no header. -/
def next (s : Survey) (c : Chunk) : Survey :=
  ⟨s.size, c.density?.or s.density, s.hasData || c.kind = Chunk.imageData⟩

theorem add_eq_next (hSize : s.size.isSome) (hHeader : c.kind ≠ Chunk.header)
    (hEnding : c.kind = Chunk.ending → s.hasData = true) : s.add c = .ok (s.next c) := by
  have hKnown : ¬ s.size.isNone = true := by
    rw [Option.isNone_iff_eq_none]
    exact Option.isSome_iff_ne_none.mp hSize
  rw [add, if_neg hHeader, if_neg hKnown, next, Chunk.density?]
  by_cases hData : c.kind = Chunk.imageData
  · have hDensity : c.kind ≠ Chunk.physicalSize := by
      rw [hData]
      decide
    rw [if_pos hData, if_neg hDensity]
    simp [hData]
  · rw [if_neg hData]
    by_cases hDensity : c.kind = Chunk.physicalSize
    · rw [if_pos hDensity, if_pos hDensity]
      simp [hData]
    · have hEnds : ¬ (c.kind = Chunk.ending ∧ (!s.hasData) = true) := by
        rintro ⟨hKind, hNone⟩
        rw [hEnding hKind] at hNone
        cases hNone
      rw [if_neg hDensity, if_neg hDensity, if_neg hEnds]
      simp [hData]

theorem add_of_ending (hSize : s.size.isSome) (hKind : c.kind = Chunk.ending)
    (hNone : s.hasData = false) : s.add c = .error .noData := by
  obtain ⟨size, hSome⟩ := Option.isSome_iff_exists.mp hSize
  simp only [add, hKind, hSome, hNone]
  rfl

theorem add_eq_ok_iff (hSize : s.size.isSome) : s.add c = .ok t ↔
    c.kind ≠ Chunk.header ∧ (c.kind = Chunk.ending → s.hasData = true) ∧ t = s.next c := by
  constructor
  · intro h
    have hHeader : c.kind ≠ Chunk.header := by
      intro hKind
      rw [add, if_pos hKind, if_pos hSize] at h
      cases h
    have hEnding : c.kind = Chunk.ending → s.hasData = true := by
      intro hKind
      cases hHas : s.hasData with
      | true => rfl
      | false =>
          rw [add_of_ending hSize hKind hHas] at h
          cases h
    rw [add_eq_next hSize hHeader hEnding] at h
    exact ⟨hHeader, hEnding, (Except.ok.inj h).symm⟩
  · rintro ⟨hHeader, hEnding, rfl⟩
    exact add_eq_next hSize hHeader hEnding

/-- One round of the walk, by the chunk that it reads. -/
theorem walk_of_read {offset : Nat} (h : Chunk.read bs = .ok (c, rest)) : s.walk offset bs =
    match s.add c with
    | .error fault => .error fault
    | .ok t => if c.kind = Chunk.ending then t.finish else t.walk (offset + c.size) rest := by
  have hSome : bs ≠ [] := by
    rintro rfl
    cases h
  rw [walk, if_neg hSome]
  split
  · rename_i fault hFault
    rw [h] at hFault
    cases hFault
  · rename_i found after hFound
    rw [h] at hFound
    cases hFound
    rfl

/-- One round of the walk takes one chunk. -/
theorem walk_eq_ok_iff_chunk {offset : Nat} : s.walk offset bs = .ok header ↔
    ∃ c rest t, c.IsProper ∧ bs = c.bytes ++ rest ∧ s.add c = .ok t ∧
      if c.kind = Chunk.ending then t.finish = .ok header
      else t.walk (offset + c.size) rest = .ok header := by
  constructor
  · intro h
    rw [walk] at h
    split at h
    · cases h
    · split at h
      · cases h
      · rename_i c rest hRead
        obtain ⟨proper, hBytes⟩ := Chunk.read_eq_ok_iff.mp hRead
        split at h
        · cases h
        · rename_i t hAdd
          refine ⟨c, rest, t, proper, hBytes, hAdd, ?_⟩
          split at h
          · rename_i hKind
            rwa [if_pos hKind]
          · rename_i hKind
            rwa [if_neg hKind]
  · rintro ⟨c, rest, t, proper, hBytes, hAdd, hLater⟩
    rw [walk_of_read (Chunk.read_eq_ok_iff.mpr ⟨proper, hBytes⟩), hAdd]
    dsimp only
    split
    · rename_i hKind
      rwa [if_pos hKind] at hLater
    · rename_i hKind
      rwa [if_neg hKind] at hLater

/-- Chunks after a header, none of them another header, up to the first that ends the image. -/
structure Closes (body : List Chunk) (ending : Chunk) : Prop where
  body_proper : ∀ c ∈ body, c.IsProper
  body_kind : ∀ c ∈ body, c.kind ≠ Chunk.header ∧ c.kind ≠ Chunk.ending
  ending_proper : ending.IsProper
  ending_kind : ending.kind = Chunk.ending

theorem density?_of_ending (h : c.kind = Chunk.ending) : c.density? = none := by
  have hKind : c.kind ≠ Chunk.physicalSize := by
    rw [h]
    decide
  exact if_neg hKind

theorem size_next (hSize : s.size = some size) (c : Chunk) : (s.next c).size = some size := hSize

theorem finish_eq_ok_iff (hSize : s.size = some size) :
    s.finish = .ok header ↔ header = ⟨size, s.density⟩ := by
  simp only [finish, hSize, Except.ok.injEq, eq_comm]

/-- Whether there is data by the end, with one chunk counted before or after. -/
theorem hasData_cons (body : List Chunk) :
    ((s.next c).hasData = true ∨ ∃ other ∈ body, other.kind = Chunk.imageData) ↔
      (s.hasData = true ∨ ∃ other ∈ c :: body, other.kind = Chunk.imageData) := by
  simp [next, or_assoc]

/-- The density by the end, with one chunk counted before or after. -/
theorem density_cons (body : List Chunk) :
    ((c :: body).reverse.findSome? Chunk.density?).or s.density =
      (body.reverse.findSome? Chunk.density?).or (s.next c).density := by
  rw [List.reverse_cons, List.findSome?_append, List.findSome?_singleton, Option.or_assoc]
  rfl

/-- A walk that ends well has taken chunks up to the one that ends the image. -/
theorem exists_body_of_walk {offset : Nat} (hSize : s.size = some size)
    (h : s.walk offset bs = .ok header) : ∃ body ending tail, Closes body ending ∧
      bs = body.flatMap Chunk.bytes ++ ending.bytes ++ tail ∧
      (s.hasData = true ∨ ∃ c ∈ body, c.kind = Chunk.imageData) ∧
      header = ⟨size, (body.reverse.findSome? Chunk.density?).or s.density⟩ := by
  -- a round takes a whole chunk, so the induction is on how many bytes are left
  induction hLength : bs.length using Nat.strongRecOn generalizing s offset bs with
  | ind n ih =>
      obtain ⟨c, rest, t, proper, rfl, hAdd, hLater⟩ := walk_eq_ok_iff_chunk.mp h
      obtain ⟨hHeader, hData, rfl⟩ := (add_eq_ok_iff (Option.isSome_of_eq_some hSize)).mp hAdd
      by_cases hKind : c.kind = Chunk.ending
      · rw [if_pos hKind, finish_eq_ok_iff (size_next hSize c)] at hLater
        refine ⟨[], c, rest, ⟨by simp, by simp, proper, hKind⟩, rfl, Or.inl (hData hKind), ?_⟩
        rw [hLater, next, density?_of_ending hKind]
        rfl
      · rw [if_neg hKind] at hLater
        have hShorter : rest.length < n := by
          rw [← hLength, List.length_append, Chunk.bytes]
          simp only [List.length_append, Bytes.length_digits]
          omega
        obtain ⟨body, ending, tail, closes, rfl, hHas, rfl⟩ :=
          ih _ hShorter (size_next hSize c) hLater rfl
        refine ⟨c :: body, ending, tail, ⟨?_, ?_, closes.ending_proper, closes.ending_kind⟩,
          ?_, ?_, ?_⟩
        · exact List.forall_mem_cons.mpr ⟨proper, closes.body_proper⟩
        · exact List.forall_mem_cons.mpr ⟨⟨hHeader, hKind⟩, closes.body_kind⟩
        · simp only [List.flatMap_cons, List.append_assoc]
        · exact (hasData_cons body).mp hHas
        · rw [density_cons]

/-- Chunks up to the one that ends the image are taken one by one. -/
theorem walk_of_closes {body : List Chunk} {ending : Chunk} {tail : Bytes} {offset : Nat}
    (hSize : s.size = some size) (closes : Closes body ending)
    (hHas : s.hasData = true ∨ ∃ c ∈ body, c.kind = Chunk.imageData) :
    s.walk offset (body.flatMap Chunk.bytes ++ ending.bytes ++ tail) =
      .ok ⟨size, (body.reverse.findSome? Chunk.density?).or s.density⟩ := by
  have hKnown {s : Survey} (hSize : s.size = some size) : s.size.isSome :=
    Option.isSome_of_eq_some hSize
  induction body generalizing s offset with
  | nil =>
      have hEnding := closes.ending_kind
      have hNext : s.add ending = .ok (s.next ending) := by
        refine add_eq_next (hKnown hSize) ?_ fun _ => by simpa using hHas
        rw [hEnding]
        decide
      refine walk_eq_ok_iff_chunk.mpr ⟨ending, tail, s.next ending, closes.ending_proper, rfl,
        hNext, ?_⟩
      rw [if_pos hEnding, finish_eq_ok_iff (size_next hSize ending), next,
        density?_of_ending hEnding]
      rfl
  | cons c body ih =>
      obtain ⟨hHeader, hKind⟩ := closes.body_kind c List.mem_cons_self
      have hNext := add_eq_next (hKnown hSize) hHeader fun h => absurd h hKind
      refine walk_eq_ok_iff_chunk.mpr ⟨c, body.flatMap Chunk.bytes ++ ending.bytes ++ tail,
        s.next c, closes.body_proper c List.mem_cons_self, ?_, hNext, ?_⟩
      · simp only [List.flatMap_cons, List.append_assoc]
      · rw [if_neg hKind, density_cons]
        refine ih (size_next hSize c) ⟨?_, ?_, closes.ending_proper, closes.ending_kind⟩ ?_
        · exact fun c hc => closes.body_proper c (List.mem_cons_of_mem _ hc)
        · exact fun c hc => closes.body_kind c (List.mem_cons_of_mem _ hc)
        · exact (hasData_cons body).mpr hHas

/-- Once the size is known, the walk takes chunks up to the one that ends the image. -/
theorem walk_eq_ok_iff {offset : Nat} (hSize : s.size = some size) :
    s.walk offset bs = .ok header ↔ ∃ body ending tail, Closes body ending ∧
      bs = body.flatMap Chunk.bytes ++ ending.bytes ++ tail ∧
      (s.hasData = true ∨ ∃ c ∈ body, c.kind = Chunk.imageData) ∧
      header = ⟨size, (body.reverse.findSome? Chunk.density?).or s.density⟩ := by
  constructor
  · exact exists_body_of_walk hSize
  · rintro ⟨body, ending, tail, closes, rfl, hHas, rfl⟩
    exact walk_of_closes hSize closes hHas

end Survey

/-- The chunks of an image, in the order in which they stand. -/
structure Datastream where
  header : Chunk
  body : List Chunk
  ending : Chunk

namespace Datastream

def bytes (stream : Datastream) : Bytes :=
  signature ++ stream.header.bytes ++ stream.body.flatMap Chunk.bytes ++ stream.ending.bytes

/-- Chunks that make up an image, and what they say about it. -/
structure Describes (stream : Datastream) (header : Header) : Prop
    extends Survey.Closes stream.body stream.ending where
  header_proper : stream.header.IsProper
  header_kind : stream.header.kind = Chunk.header
  /-- The header is thirteen bytes long and starts with the size. -/
  size : ∃ rest, rest.length = 5 ∧ stream.header.data =
    Bytes.digits 4 header.size.width.toNat ++ Bytes.digits 4 header.size.height.toNat ++ rest
  width_pos : header.size.width ≠ 0
  height_pos : header.size.height ≠ 0
  has_data : ∃ c ∈ stream.body, c.kind = Chunk.imageData
  density : LastDensity stream.body header.density

end Datastream

theorem exists_datastream (h : inspect bs = .ok header) : ∃ stream : Datastream, ∃ tail,
    stream.Describes header ∧ bs = stream.bytes ++ tail := by
  unfold inspect at h
  split at h
  · rename_i hSignature
    obtain ⟨rest, rfl⟩ := List.isPrefixOf_iff_prefix.mp hSignature
    rw [List.drop_left] at h
    obtain ⟨first, rest, t, proper, rfl, hAdd, hLater⟩ := Survey.walk_eq_ok_iff_chunk.mp h
    obtain ⟨hKind, size, hSize, rfl⟩ := (Survey.add_eq_ok_iff_first rfl).mp hAdd
    have hNotEnding : first.kind ≠ Chunk.ending := by
      rw [hKind]
      decide
    rw [if_neg hNotEnding] at hLater
    obtain ⟨body, ending, tail, closes, rfl, hData, rfl⟩ :=
      (Survey.walk_eq_ok_iff rfl).mp hLater
    obtain ⟨hWidth, hHeight, hField⟩ := headerSize_eq_ok_iff.mp hSize
    refine ⟨⟨first, body, ending⟩, tail, ⟨closes, proper, hKind, hField, hWidth, hHeight, ?_, ?_⟩,
      ?_⟩
    · exact hData.resolve_left (by simp [Survey.start])
    · exact lastDensity_iff.mpr (Option.or_none.symm)
    · simp only [Datastream.bytes, List.append_assoc]
  · cases h

theorem Datastream.Describes.inspect_eq {stream : Datastream} (shown : stream.Describes header)
    (tail : Bytes) : inspect (stream.bytes ++ tail) = .ok header := by
  obtain ⟨first, body, ending⟩ := stream
  have hPrefix : signature.isPrefixOf
      (Datastream.bytes ⟨first, body, ending⟩ ++ tail) = true := by
    rw [List.isPrefixOf_iff_prefix, Datastream.bytes]
    simp only [List.append_assoc]
    exact List.prefix_append ..
  have hAfter : (Datastream.bytes ⟨first, body, ending⟩ ++ tail).drop signature.length =
      first.bytes ++ (body.flatMap Chunk.bytes ++ ending.bytes ++ tail) := by
    simp only [Datastream.bytes, List.append_assoc]
    exact List.drop_left
  rw [inspect, if_pos hPrefix, hAfter]
  have hSize := headerSize_eq_ok_iff.mpr ⟨shown.width_pos, shown.height_pos, shown.size⟩
  have hAdd := (Survey.add_eq_ok_iff_first (s := Survey.start) rfl).mpr
    ⟨shown.header_kind, header.size, hSize, rfl⟩
  have hNotEnding : first.kind ≠ Chunk.ending := by
    rw [shown.header_kind]
    decide
  refine Survey.walk_eq_ok_iff_chunk.mpr ⟨first, _, _, shown.header_proper, rfl, hAdd, ?_⟩
  rw [if_neg hNotEnding, Survey.walk_eq_ok_iff rfl]
  refine ⟨body, ending, tail, shown.toCloses, rfl, Or.inr shown.has_data, ?_⟩
  rw [lastDensity_iff.mp shown.density, Survey.start, Option.or_none]

/-- A byte string passes for an image exactly when it starts with the chunks of one. -/
theorem inspect_iff_datastream (bs : Bytes) (header : Header) : inspect bs = .ok header ↔
    ∃ stream : Datastream, ∃ tail, stream.Describes header ∧ bs = stream.bytes ++ tail := by
  constructor
  · exact exists_datastream
  · rintro ⟨stream, tail, shown, rfl⟩
    exact shown.inspect_eq tail

end ImagePlacement.Png
