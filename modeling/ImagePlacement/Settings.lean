import ImagePlacement.Failure

namespace ImagePlacement

/-- The limits that loading obeys. -/
structure Settings where
  /-- Bytes of a file, at most. -/
  maxFileSize : UInt64
  /-- Pixels of a decoded image, at most. -/
  maxPixels : UInt64
  /-- Bytes of a decoded image, at most, at four bytes a pixel. -/
  maxDecodedBytes : UInt64
  /-- Whether to warn when a file's extension belies its content. -/
  warnOnMismatch : Bool
  deriving DecidableEq, Repr

namespace Settings

/-- 50 MiB of file, forty million pixels, 160 MiB decoded. -/
def standard : Settings := ⟨52428800, 40000000, 167772160, true⟩

/-- The least that `maxDecodedBytes` may be: 1 MiB. -/
def leastDecodedBytes : UInt64 := 1048576

/-- Why settings are refused. -/
inductive Fault where
  | noFileSize
  | noPixels
  | tooFewDecodedBytes
  deriving DecidableEq, Repr

def Fault.message : Fault → String
  | noFileSize => "max_file_size must be greater than 0"
  | noPixels => "max_decoded_pixels must be greater than 0"
  | tooFewDecodedBytes =>
    "max_decoded_bytes must be at least " ++ toString leastDecodedBytes.toNat

/-- The first fault of the settings, if they have one. -/
def fault? (s : Settings) : Option Fault :=
  if s.maxFileSize = 0 then some .noFileSize
  else if s.maxPixels = 0 then some .noPixels
  else if s.maxDecodedBytes < leastDecodedBytes then some .tooFewDecodedBytes
  else none

def IsValid (s : Settings) : Prop := s.fault? = none

instance (s : Settings) : Decidable s.IsValid := inferInstanceAs (Decidable (_ = _))

theorem isValid_iff {s : Settings} :
    s.IsValid ↔ s.maxFileSize ≠ 0 ∧ s.maxPixels ≠ 0 ∧ ¬ s.maxDecodedBytes < leastDecodedBytes := by
  simp only [IsValid, fault?]
  split
  · simp [*]
  · split
    · simp [*]
    · split <;> simp [*]

theorem standard_isValid : standard.IsValid :=
  isValid_iff.mpr ⟨by decide, by decide, by decide⟩

/-- The same settings, or the error that refuses them. -/
def check (s : Settings) : Except LoadError Settings :=
  match s.fault? with
  | some fault => .error (.overLimit fault.message)
  | none => .ok s

section Check

variable {s t : Settings}

theorem exists_fault (h : ¬ s.IsValid) : ∃ fault, s.fault? = some fault :=
  Option.ne_none_iff_exists'.mp h

theorem check_of_isValid (h : s.IsValid) : s.check = .ok s := by
  rw [check, show s.fault? = none from h]

theorem check_of_fault {fault : Fault} (h : s.fault? = some fault) :
    s.check = .error (.overLimit fault.message) := by
  rw [check, h]

theorem check_eq_ok_iff : s.check = .ok t ↔ s.IsValid ∧ s = t := by
  by_cases hValid : s.IsValid
  · rw [check_of_isValid hValid, Except.ok.injEq]
    exact (and_iff_right hValid).symm
  · obtain ⟨fault, hFault⟩ := exists_fault hValid
    rw [check_of_fault hFault]
    exact iff_of_false nofun fun h => hValid h.1

end Check

end Settings

end ImagePlacement
