import ImagePlacement.Source.Content

/-! How reading ends. A file is looked at twice, and its length is asked about both times: as it is
told beforehand, and as it is found. Whatever others do to the file in between, nothing longer than
the limit is ever given out, and only a file that is too long by one of the two is refused for it. -/
namespace ImagePlacement

namespace PathView

variable {p : PathView} {settings : Settings} {path : String}

/-- The length that a file is said to have before it is read. -/
def told? (p : PathView) : Option Nat :=
  match p.metadata with
  | .ok (.file length) => some length
  | _ => none

/-- The bytes of a file, before any limit is asked about. -/
def bytes? (p : PathView) : Option Bytes := p.told?.bind fun _ => p.content.toOption

/-- A file is longer than it may be: it is said to be, or its bytes are. -/
def IsTooLong (p : PathView) (limit : Nat) : Prop :=
  (∃ length, p.told? = some length ∧ limit < length) ∨
    ∃ content, p.bytes? = some content ∧ limit < content.length

theorem not_isTooLong_of_told? {limit : Nat} (h : p.told? = none) : ¬ p.IsTooLong limit := by
  simp [IsTooLong, bytes?, h]

/-- A file that stays as it is has one length. -/
theorem isTooLong_file_iff {content : Bytes} {limit : Nat} :
    (file content).IsTooLong limit ↔ limit < content.length := by
  simp [IsTooLong, told?, bytes?, file, Except.toOption]

/-- Reading ends with the bytes of a file, or refuses their length, or finds none. -/
theorem read_cases (p : PathView) (settings : Settings) (path : String) :
    (¬ p.IsTooLong settings.maxFileSize.toNat ∧
      ∃ content, p.bytes? = some content ∧ p.read settings path = .ok content) ∨
    (p.IsTooLong settings.maxFileSize.toNat ∧
      ∃ reason, p.read settings path = .error (.overLimit reason)) ∨
    (¬ p.IsTooLong settings.maxFileSize.toNat ∧ p.bytes? = none ∧
      ∃ e, p.read settings path = .error e ∧ e.stage = .read) := by
  obtain ⟨metadata, content⟩ := p
  cases metadata with
  | error fault =>
      exact Or.inr (Or.inr ⟨not_isTooLong_of_told? rfl, rfl, _, rfl, fault.stage_toLoadError path⟩)
  | ok metadata =>
      cases metadata with
      | folder => exact Or.inr (Or.inr ⟨not_isTooLong_of_told? rfl, rfl, _, rfl, rfl⟩)
      | file length =>
          simp only [read, IsTooLong, told?, bytes?]
          rcases settings.checkLength_cases length with ⟨hTold, hOk⟩ | ⟨hOver, reason, hError⟩
          · rw [hOk]
            cases content with
            | error fault =>
                refine Or.inr (Or.inr ⟨?_, rfl, _, rfl, fault.stage_toLoadError path⟩)
                simp [Except.toOption, Nat.not_lt.mpr hTold]
            | ok content =>
                rcases settings.checkSize_cases content with ⟨hWithin, hRead⟩ | ⟨hOver, hRead⟩
                · refine Or.inl ⟨?_, content, rfl, hRead⟩
                  simp [Except.toOption, Nat.not_lt.mpr hTold, Nat.not_lt.mpr hWithin]
                · exact Or.inr (Or.inl ⟨Or.inr ⟨content, rfl, hOver⟩, hRead⟩)
          · exact Or.inr (Or.inl ⟨Or.inl ⟨length, rfl, hOver⟩, reason, by rw [hError]; rfl⟩)

end PathView

namespace Source

variable {view : FileView} {settings : Settings} {source : Source} {content : Bytes}

/-- The bytes that a source has, before any limit is asked about. -/
def bytes? (view : FileView) (source : Source) : Option Bytes :=
  match source.content with
  | some content => some content
  | none => (view source.path).bytes?

/-- A source is longer than it may be. -/
def IsTooLong (view : FileView) (settings : Settings) (source : Source) : Prop :=
  match source.content with
  | some content => settings.maxFileSize.toNat < content.length
  | none => (view source.path).IsTooLong settings.maxFileSize.toNat

/-- How reading a source ends. -/
theorem read_cases (view : FileView) (settings : Settings) (source : Source) :
    (¬ source.IsTooLong view settings ∧
      ∃ content, source.bytes? view = some content ∧ source.read view settings = .ok content) ∨
    (source.IsTooLong view settings ∧
      ∃ reason, source.read view settings = .error (.overLimit reason)) ∨
    (¬ source.IsTooLong view settings ∧ source.bytes? view = none ∧
      ∃ e, source.read view settings = .error e ∧ e.stage = .read) := by
  unfold IsTooLong bytes? read
  cases source.content with
  | none => exact (view source.path).read_cases settings source.path
  | some content =>
      rcases settings.checkSize_cases content with ⟨hWithin, hRead⟩ | ⟨hOver, hRead⟩
      · exact Or.inl ⟨Nat.not_lt.mpr hWithin, content, rfl, hRead⟩
      · exact Or.inr (Or.inl ⟨hOver, hRead⟩)

/-- What has been read are the bytes of the source, which is not too long. -/
theorem read_eq_ok_iff : source.read view settings = .ok content ↔
    source.bytes? view = some content ∧ ¬ source.IsTooLong view settings := by
  rcases read_cases view settings source with ⟨hFits, found, hBytes, hRead⟩ |
    ⟨hLong, reason, hRead⟩ | ⟨-, hBytes, e, hRead, -⟩
  · rw [hBytes, hRead, Except.ok.injEq, Option.some.injEq]
    exact (and_iff_left hFits).symm
  · rw [hRead]
    exact iff_of_false nofun fun h => h.2 hLong
  · rw [hRead, hBytes]
    exact iff_of_false nofun fun h => nomatch h.1

theorem isTooLong_of_bytes? (hBytes : source.bytes? view = some content)
    (h : settings.maxFileSize.toNat < content.length) : source.IsTooLong view settings := by
  unfold bytes? at hBytes
  unfold IsTooLong
  cases hInline : source.content with
  | none =>
      rw [hInline] at hBytes
      exact Or.inr ⟨content, hBytes, h⟩
  | some found =>
      rw [hInline, Option.some.injEq] at hBytes
      rwa [hBytes]

/-- What has been read is within the limit on files. -/
theorem length_of_read (h : source.read view settings = .ok content) :
    content.length ≤ settings.maxFileSize.toNat := by
  obtain ⟨hBytes, hFits⟩ := read_eq_ok_iff.mp h
  exact Nat.le_of_not_lt fun hOver => hFits (isTooLong_of_bytes? hBytes hOver)

/-- A failed read is reported by whether the source is too long. -/
theorem stage_of_read {e : LoadError} (h : source.read view settings = .error e) :
    (source.IsTooLong view settings → e.stage = .decode) ∧
      (¬ source.IsTooLong view settings → e.stage = .read) := by
  rcases source.read_cases view settings with ⟨-, content, -, hRead⟩ | ⟨hLong, reason, hRead⟩ |
    ⟨hFits, -, cause, hRead, hStage⟩
  · rw [h] at hRead
    cases hRead
  · obtain rfl := Except.error.inj (h.symm.trans hRead)
    exact ⟨fun _ => rfl, fun hFits => absurd hLong hFits⟩
  · obtain rfl := Except.error.inj (h.symm.trans hRead)
    exact ⟨fun hLong => absurd hLong hFits, fun _ => hStage⟩

/-- Reading refuses only a source that is too long. -/
theorem isTooLong_of_read_overLimit {reason : String}
    (h : source.read view settings = .error (.overLimit reason)) :
    source.IsTooLong view settings := by
  apply Classical.byContradiction
  intro hFits
  have hStage : Stage.decode = .read := (stage_of_read h).2 hFits
  cases hStage

end Source

end ImagePlacement
