import ImagePlacement.Bytes

namespace ImagePlacement.Jpeg

/-- Why a stream is no sequence of markers that makes up an image. -/
inductive Fault where
  | noStart
  /-- The stream ends where a marker must begin. -/
  | noMarker (offset : Nat)
  | notMarker (offset : Nat) (found : UInt8)
  /-- The stream ends inside the fill bytes of a marker. -/
  | shortMarker (offset : Nat)
  | zeroMarker (offset : Nat)
  | repeatedStart (offset : Nat)
  | endBeforeScan
  | shortLength (offset : Nat)
  | lengthTooSmall (length offset : Nat)
  | shortSegment (offset : Nat)
  | repeatedFrame (offset : Nat)
  | shortFrame
  | noPixels (width height : UInt16)
  | scanBeforeFrame
  | noEnd
  | noFrame
  deriving DecidableEq

namespace Marker

/-- The byte that every marker starts with. -/
def lead : UInt8 := 0xFF

def start : UInt8 := 0xD8
def ending : UInt8 := 0xD9
def scan : UInt8 := 0xDA
def application : UInt8 := 0xE0

/-- Restart markers, which may stand inside a scan. -/
def isRestart (m : UInt8) : Bool := 0xD0 ≤ m && m ≤ 0xD7

/-- Markers that a decoder of pixels knows: frames that can be decoded, tables, scans, restarts,
the start and the end, some application segments and comments. -/
def isKnown (m : UInt8) : Bool :=
  [0xC0, 0xC1, 0xC2, 0xC4, 0xCC, 0xE0, 0xE1, 0xE2, 0xED, 0xEE, 0xFE].contains m ||
    (0xD0 ≤ m && m ≤ 0xDD)

/-- Markers that no length follows. -/
def isStandalone (m : UInt8) : Bool := m == 0x01 || isRestart m

/-- Markers of frame headers. -/
def isFrame (m : UInt8) : Bool :=
  0xC0 ≤ m && m ≤ 0xCF && m != 0xC4 && m != 0xC8 && m != 0xCC

/-- The marker that stands at an offset, and the bytes after it. Any number of fill bytes
may come before its code, which is not zero. -/
def read (offset : Nat) (bs : Bytes) : Except Fault (UInt8 × Bytes) :=
  match bs with
  | [] => .error (.noMarker offset)
  | b :: _ =>
    if b ≠ lead then .error (.notMarker offset b)
    else
      let place := offset + (bs.takeWhile (· = lead)).length
      match bs.dropWhile (· = lead) with
      | [] => .error (.shortMarker place)
      | m :: rest => if m = 0 then .error (.zeroMarker place) else .ok (m, rest)

theorem length_dropWhile_le {α : Type} (p : α → Bool) (xs : List α) :
    (xs.dropWhile p).length ≤ xs.length := (List.dropWhile_sublist p).length_le

theorem read_length {offset : Nat} {bs rest : Bytes} {m : UInt8}
    (h : read offset bs = .ok (m, rest)) : rest.length < bs.length := by
  simp only [read] at h
  split at h
  · simp at h
  · rename_i b more
    split at h
    · simp at h
    · split at h
      · simp at h
      · rename_i n tail hDrop
        split at h
        · simp at h
        · simp only [Except.ok.injEq, Prod.mk.injEq] at h
          obtain ⟨-, rfl⟩ := h
          have hLe := length_dropWhile_le (fun x => decide (x = lead)) (b :: more)
          rw [hDrop] at hLe
          simp only [List.length_cons] at hLe ⊢
          omega

end Marker

namespace Segment

/-- The payload of the segment whose length field stands at an offset, and the bytes after
it. The length counts its own two bytes. -/
def read (offset : Nat) (bs : Bytes) : Except Fault (Bytes × Bytes) :=
  match Bytes.splitAt? 2 bs with
  | none => .error (.shortLength offset)
  | some (length, rest) =>
    let length := Bytes.toNat length
    if length < 2 then .error (.lengthTooSmall length offset)
    else
      match Bytes.splitAt? (length - 2) rest with
      | none => .error (.shortSegment offset)
      | some found => .ok found

theorem read_length {offset : Nat} {bs payload rest : Bytes}
    (h : read offset bs = .ok (payload, rest)) : bs.length = 2 + payload.length + rest.length := by
  simp only [read] at h
  split at h
  · simp at h
  · rename_i length tail hLength
    split at h
    · simp at h
    · split at h
      · simp at h
      · rename_i found hFound
        simp only [Except.ok.injEq] at h
        obtain ⟨rfl, hTwo⟩ := Bytes.splitAt?_eq_some_iff.1 hLength
        obtain ⟨rfl, -⟩ := Bytes.splitAt?_eq_some_iff.1 (h ▸ hFound)
        simp only [List.length_append]
        omega

end Segment

end ImagePlacement.Jpeg
