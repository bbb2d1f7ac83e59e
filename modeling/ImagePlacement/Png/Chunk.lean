import ImagePlacement.Bytes

namespace ImagePlacement.Png

/-- A chunk of a PNG stream. -/
structure Chunk where
  /-- Four bytes that name the chunk. -/
  kind : Bytes
  data : Bytes
  /-- Four bytes, which are not compared with the data here. -/
  checksum : Bytes
  deriving DecidableEq

/-- Why a chunk cannot be read. -/
inductive ChunkFault where
  | shortHeader
  | lengthOutOfRange (length : Nat)
  | badKind
  /-- The stream ends inside the data or the checksum. -/
  | incomplete (kind : Bytes)
  deriving DecidableEq

namespace Chunk

def header : Bytes := [0x49, 0x48, 0x44, 0x52]
def palette : Bytes := [0x50, 0x4C, 0x54, 0x45]
def imageData : Bytes := [0x49, 0x44, 0x41, 0x54]
def ending : Bytes := [0x49, 0x45, 0x4E, 0x44]
def physicalSize : Bytes := [0x70, 0x48, 0x59, 0x73]
def transparency : Bytes := [0x74, 0x52, 0x4E, 0x53]

/-- What describes a frame of an animation. -/
def frameControl : Bytes := [0x66, 0x63, 0x54, 0x4C]

/-- The data of a frame other than the first. -/
def frameData : Bytes := [0x66, 0x64, 0x41, 0x54]

/-- The code points of a colour space. -/
def codePoints : Bytes := [0x63, 0x49, 0x43, 0x50]

/-- The colour volume of the display that was used for mastering. -/
def masteringVolume : Bytes := [0x6D, 0x44, 0x43, 0x56]

/-- How light the content is. -/
def contentLight : Bytes := [0x63, 0x4C, 0x4C, 0x49]

/-- The greatest length that a chunk may declare. -/
def maxLength : Nat := 0x7FFFFFFF

/-- The bytes that a chunk takes in a stream. -/
def size (c : Chunk) : Nat := 12 + c.data.length

/-- The declared length and the kind of a chunk, and the bytes after them. -/
def lead? (bs : Bytes) : Option (Nat × Bytes × Bytes) := do
  let (length, rest) ← Bytes.splitAt? 4 bs
  let (kind, rest) ← Bytes.splitAt? 4 rest
  return (Bytes.toNat length, kind, rest)

/-- The chunk that a stream starts with, if it is complete, and the bytes after it. -/
def split? (bs : Bytes) : Option (Chunk × Bytes) := do
  let (length, kind, rest) ← lead? bs
  let (data, rest) ← Bytes.splitAt? length rest
  let (checksum, rest) ← Bytes.splitAt? 4 rest
  return (⟨kind, data, checksum⟩, rest)

theorem lead?_length {bs : Bytes} {length : Nat} {kind rest : Bytes}
    (h : lead? bs = some (length, kind, rest)) : bs.length = 8 + rest.length := by
  simp only [lead?, Option.bind_eq_bind, Option.bind_eq_some_iff, Option.pure_def,
    Option.some.injEq, Prod.mk.injEq, Prod.exists] at h
  obtain ⟨a, b, hA, c, d, hC, -, -, rfl⟩ := h
  obtain ⟨rfl, hLength⟩ := Bytes.splitAt?_eq_some_iff.1 hA
  obtain ⟨rfl, hKind⟩ := Bytes.splitAt?_eq_some_iff.1 hC
  simp only [List.length_append]
  omega

theorem split?_length {bs rest : Bytes} {c : Chunk} (h : split? bs = some (c, rest)) :
    bs.length = c.size + rest.length := by
  simp only [split?, Option.bind_eq_bind, Option.bind_eq_some_iff, Option.pure_def,
    Option.some.injEq, Prod.mk.injEq, Prod.exists] at h
  obtain ⟨length, kind, body, hLead, data, tail, hData, checksum, after, hChecksum, rfl, rfl⟩ := h
  have hSize := lead?_length hLead
  obtain ⟨rfl, hLength⟩ := Bytes.splitAt?_eq_some_iff.1 hData
  obtain ⟨rfl, hFour⟩ := Bytes.splitAt?_eq_some_iff.1 hChecksum
  simp only [List.length_append] at hSize
  simp only [size]
  omega

/-- The chunk that a stream starts with, and the bytes after it. Its header is judged
before its end is looked for. -/
def read (bs : Bytes) : Except ChunkFault (Chunk × Bytes) :=
  match lead? bs with
  | none => .error .shortHeader
  | some (length, kind, _) =>
    if maxLength < length then .error (.lengthOutOfRange length)
    else if !kind.all Bytes.isLetter then .error .badKind
    else
      match split? bs with
      | none => .error (.incomplete kind)
      | some found => .ok found

theorem split?_of_read {bs rest : Bytes} {c : Chunk} (h : read bs = .ok (c, rest)) :
    split? bs = some (c, rest) := by
  simp only [read] at h
  split at h
  · simp at h
  · split at h
    · simp at h
    · split at h
      · simp at h
      · split at h
        · simp at h
        · rename_i found hSplit
          simp only [Except.ok.injEq] at h
          rw [hSplit, h]

/-- Whether a decoder that does not know the chunk must give up. -/
def isCritical (c : Chunk) : Bool :=
  match c.kind with
  | first :: _ => first.toNat / 32 % 2 = 0
  | [] => false

end Chunk

end ImagePlacement.Png
