import ImagePlacement.DataUrl
import ImagePlacement.Event
import ImagePlacement.FileTree
import ImagePlacement.Settings
import ImagePlacement.Source

namespace ImagePlacement

/-- A number of bytes in mebibytes, as shown in messages. -/
def mebibytes (n : UInt64) : String :=
  Decimal.twoPlaces (n.toFloat / 1024.0 / 1024.0) ++ " MB"

namespace Settings

/-- Refuses a length that is too much. -/
def checkLength (s : Settings) (length : Nat) : Except LoadError Unit :=
  if s.maxFileSize.toNat < length then
    .error (.overLimit ("file too large: " ++ mebibytes (UInt64.ofNat length) ++
      " (limit " ++ mebibytes s.maxFileSize ++ ")"))
  else .ok ()

/-- Refuses content that is too long. -/
def checkSize (s : Settings) (content : Bytes) : Except LoadError Bytes :=
  (s.checkLength content.length).map fun _ => content

/-- A length is within the limit on files, or it is refused for it. -/
theorem checkLength_cases (s : Settings) (length : Nat) :
    length ≤ s.maxFileSize.toNat ∧ s.checkLength length = .ok () ∨
      s.maxFileSize.toNat < length ∧
        ∃ reason, s.checkLength length = .error (.overLimit reason) := by
  unfold checkLength
  split
  case isTrue hOver => exact Or.inr ⟨hOver, _, rfl⟩
  case isFalse hWithin => exact Or.inl ⟨Nat.le_of_not_lt hWithin, rfl⟩

theorem checkSize_cases (s : Settings) (content : Bytes) :
    content.length ≤ s.maxFileSize.toNat ∧ s.checkSize content = .ok content ∨
      s.maxFileSize.toNat < content.length ∧
        ∃ reason, s.checkSize content = .error (.overLimit reason) := by
  unfold checkSize
  rcases s.checkLength_cases content.length with ⟨hWithin, hOk⟩ | ⟨hOver, reason, hError⟩
  · exact Or.inl ⟨hWithin, by rw [hOk]; rfl⟩
  · exact Or.inr ⟨hOver, reason, by rw [hError]; rfl⟩

theorem checkSize_of_le {s : Settings} {content : Bytes}
    (h : content.length ≤ s.maxFileSize.toNat) : s.checkSize content = .ok content := by
  rw [checkSize, checkLength, if_neg (Nat.not_lt.mpr h)]
  rfl

end Settings

/-- The failure that a fault means for the image at a path. -/
def PathFault.toLoadError (path : String) : PathFault → LoadError
  | missing => .missing path
  | fault => .unreadable path fault.message

theorem PathFault.stage_toLoadError (fault : PathFault) (path : String) :
    (fault.toLoadError path).stage = .read := by
  cases fault <;> rfl

/-- The bytes of a file, if they can be had and are not too many. It is refused by the length that
is told of it. It may have changed when it is read, so what has been read is checked again. -/
def PathView.read (p : PathView) (settings : Settings) (path : String) : Except LoadError Bytes :=
  match p.metadata with
  | .error fault => .error (fault.toLoadError path)
  | .ok .folder => .error (.unreadable path "path is a directory")
  | .ok (.file length) => do
    settings.checkLength length
    match p.content with
    | .error fault => .error (fault.toLoadError path)
    | .ok content => settings.checkSize content

/-- The bytes of an image, if they can be had and are not too many. -/
def Source.read (view : FileView) (settings : Settings) (s : Source) : Except LoadError Bytes :=
  match s.content with
  | some content => settings.checkSize content
  | none => (view s.path).read settings s.path

/-- The second look at a file that stays as it is tells nothing new. -/
theorem PathView.read_file (content : Bytes) (settings : Settings) (path : String) :
    (file content).read settings path = settings.checkSize content := by
  simp only [read, file, Settings.checkSize]
  cases settings.checkLength content.length <;> rfl

theorem Source.read_file {view : FileView} {path : String} {content : Bytes}
    (h : view path = .file content) (settings : Settings) :
    (Source.file path).read view settings = settings.checkSize content := by
  simp only [read, file, h, PathView.read_file]

namespace DataUrl

/-- The failure that a fault means for the image of a given identity. -/
def Fault.toLoadError (identity : String) : Fault → LoadError
  | notImage => .unreadable identity "data url is not an image"
  | noMarker => .unreadable identity "data url is missing the base64 marker"
  | tooLarge estimate limit =>
    .overLimit ("base64 payload too large: ~" ++ toString estimate ++ " bytes (limit " ++
      toString limit ++ ")")
  | encoding fault => .unreadable identity ("invalid base64: " ++ fault.message)

/-- What is noted when a data URL is refused. -/
def Fault.events : Fault → List Event
  | tooLarge estimate limit => [.payloadTooLarge estimate limit]
  | _ => []

/-- The inline source that a data URL describes, and what is noted. -/
def source (identity text : String) (settings : Settings) :
    Except LoadError Source × List Event :=
  match read settings.maxFileSize.toNat text with
  | .ok content => (.ok (Source.embedded identity content), [])
  | .error fault => (.error (fault.toLoadError identity), fault.events)

end DataUrl

end ImagePlacement
