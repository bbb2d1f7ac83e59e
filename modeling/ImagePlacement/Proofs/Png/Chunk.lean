import ImagePlacement.Png.Chunk
import ImagePlacement.Proofs.Digits

/-! A chunk as it is written. Reading takes back exactly the chunks that can be written, and leaves
the bytes after them. -/
namespace ImagePlacement.Png.Chunk

/-- A chunk as it stands in a stream: the length of its data, its kind, the data, the checksum. -/
def bytes (c : Chunk) : Bytes :=
  Bytes.digits 4 c.data.length ++ c.kind ++ c.data ++ c.checksum

/-- A chunk that may stand in a stream. Nothing is asked of the four bytes of its checksum. -/
structure IsProper (c : Chunk) : Prop where
  kind_length : c.kind.length = 4
  kind_letters : ∀ b ∈ c.kind, Bytes.isLetter b
  data_length : c.data.length ≤ maxLength
  checksum_length : c.checksum.length = 4

variable {c : Chunk} {bs rest : Bytes}

theorem lead?_eq_some_iff {length : Nat} {kind : Bytes} :
    lead? bs = some (length, kind, rest) ↔
      length < UInt32.size ∧ kind.length = 4 ∧ bs = Bytes.digits 4 length ++ kind ++ rest := by
  simp only [lead?, Option.bind_eq_bind, Option.bind_eq_some_iff, Option.pure_def,
    Option.some.injEq, Prod.mk.injEq, Prod.exists, Bytes.splitAt?_eq_some_iff]
  constructor
  · rintro ⟨field, _, ⟨rfl, hField⟩, _, _, ⟨rfl, hKind⟩, rfl, rfl, rfl⟩
    have hDigits := Bytes.digits_toNat field
    have hLt := Bytes.toNat_lt field
    rw [hField] at hDigits hLt
    refine ⟨hLt, hKind, ?_⟩
    rw [hDigits, List.append_assoc]
  · rintro ⟨hLt, hKind, rfl⟩
    refine ⟨Bytes.digits 4 length, kind ++ rest, ⟨?_, ?_⟩, kind, rest, ⟨rfl, hKind⟩, ?_, rfl, rfl⟩
    · rw [List.append_assoc]
    · exact Bytes.length_digits 4 length
    · exact Bytes.toNat_digits hLt

theorem split?_eq_some_iff :
    split? bs = some (c, rest) ↔ c.data.length < UInt32.size ∧ c.kind.length = 4 ∧
      c.checksum.length = 4 ∧ bs = c.bytes ++ rest := by
  simp only [split?, Option.bind_eq_bind, Option.bind_eq_some_iff, Option.pure_def,
    Option.some.injEq, Prod.mk.injEq, Prod.exists, Bytes.splitAt?_eq_some_iff, lead?_eq_some_iff]
  constructor
  · rintro ⟨_, kind, _, ⟨hLt, hKind, rfl⟩, data, _, ⟨rfl, rfl⟩, checksum, _, ⟨rfl, hChecksum⟩,
      rfl, rfl⟩
    refine ⟨hLt, hKind, hChecksum, ?_⟩
    simp only [bytes, List.append_assoc]
  · rintro ⟨hLt, hKind, hChecksum, rfl⟩
    refine ⟨c.data.length, c.kind, c.data ++ (c.checksum ++ rest), ⟨hLt, hKind, ?_⟩, c.data,
      c.checksum ++ rest, ⟨rfl, rfl⟩, c.checksum, rest, ⟨rfl, hChecksum⟩, rfl, rfl⟩
    simp only [bytes, List.append_assoc]

/-- What is judged first is the header of the chunk that is then split off. -/
theorem lead?_of_split? (h : split? bs = some (c, rest)) :
    lead? bs = some (c.data.length, c.kind, c.data ++ c.checksum ++ rest) := by
  obtain ⟨hLt, hKind, _, rfl⟩ := split?_eq_some_iff.mp h
  refine lead?_eq_some_iff.mpr ⟨hLt, hKind, ?_⟩
  simp only [bytes, List.append_assoc]

theorem read_eq_ok_iff : read bs = .ok (c, rest) ↔ c.IsProper ∧ bs = c.bytes ++ rest := by
  constructor
  · intro h
    have hSplit := split?_of_read h
    obtain ⟨_, hKind, hChecksum, hBytes⟩ := split?_eq_some_iff.mp hSplit
    simp only [read, lead?_of_split? hSplit, hSplit] at h
    split at h
    · cases h
    · rename_i hLength
      split at h
      · cases h
      · rename_i hLetters
        simp only [Bool.not_eq_true, Bool.not_eq_false', List.all_eq_true] at hLetters
        exact ⟨⟨hKind, hLetters, Nat.le_of_not_lt hLength, hChecksum⟩, hBytes⟩
  · rintro ⟨proper, hBytes⟩
    have hLt : c.data.length < UInt32.size := Nat.lt_of_le_of_lt proper.data_length (by decide)
    have hSplit : split? bs = some (c, rest) :=
      split?_eq_some_iff.mpr ⟨hLt, proper.kind_length, proper.checksum_length, hBytes⟩
    have hLetters : c.kind.all Bytes.isLetter = true := List.all_eq_true.mpr proper.kind_letters
    simp only [read, lead?_of_split? hSplit, hSplit, hLetters,
      if_neg (Nat.not_lt.mpr proper.data_length)]
    rfl

end ImagePlacement.Png.Chunk
