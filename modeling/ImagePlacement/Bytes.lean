namespace ImagePlacement

/-- A byte string, read from the front. -/
abbrev Bytes := List UInt8

namespace Bytes

/-- The number whose big-endian digits to base 256 are the given bytes. -/
def toNat (digits : Bytes) : Nat :=
  digits.foldl (fun n b => 256 * n + b.toNat) 0

/-- The first `n` bytes and the bytes after them, when there are that many. -/
def splitAt? (n : Nat) (bs : Bytes) : Option (Bytes × Bytes) :=
  let front := bs.take n
  if front.length = n then some (front, bs.drop n) else none

theorem splitAt?_eq_some_iff {n : Nat} {bs front rest : Bytes} :
    splitAt? n bs = some (front, rest) ↔ bs = front ++ rest ∧ front.length = n := by
  dsimp only [splitAt?]
  constructor
  · intro h
    split at h
    · rename_i hLength
      simp only [Option.some.injEq, Prod.mk.injEq] at h
      obtain ⟨rfl, rfl⟩ := h
      exact ⟨(List.take_append_drop n bs).symm, hLength⟩
    · simp at h
  · rintro ⟨rfl, rfl⟩
    simp

theorem splitAt?_eq_none_iff {n : Nat} {bs : Bytes} :
    splitAt? n bs = none ↔ bs.length < n := by
  simp only [splitAt?, List.length_take]
  split <;> simp <;> omega

/-- Whether a byte is an ASCII letter. -/
def isLetter (b : UInt8) : Bool :=
  (0x41 ≤ b && b ≤ 0x5A) || (0x61 ≤ b && b ≤ 0x7A)

/-- ASCII bytes as text; each byte becomes the character of that code. -/
def toText (bs : Bytes) : String :=
  String.ofList (bs.map fun b => Char.ofNat b.toNat)

/-- The UTF-8 encoding of a text. -/
def ofText (text : String) : Bytes :=
  text.toUTF8.toList

end Bytes

end ImagePlacement
