import ImagePlacement.FileTree
import ImagePlacement.Settings.Document
import ImagePlacement.Text.Utf8

namespace ImagePlacement.Settings

/-- Why a file holds no settings. -/
inductive FileFault where
  | unread (fault : PathFault)
  | notText
  | notSettings
  deriving DecidableEq, Repr

/-- The reason given when a document gives no settings, in place of a parser's own words. -/
def undescribed : String := "<document>"

def FileFault.message : FileFault → String
  | unread fault => fault.message
  | notText => "stream did not contain valid UTF-8"
  | notSettings => "invalid config: " ++ undescribed

/-- The settings in a file's content. -/
def ofContent (content : Bytes) : Except FileFault Settings :=
  match Utf8.decode? content with
  | none => .error .notText
  | some text =>
    match (Json.ofText? text).bind ofJson? with
    | none => .error .notSettings
    | some s => .ok s

/-- The settings that a file gives, if it can be read. -/
def ofFile (content : Except PathFault Bytes) : Except FileFault Settings :=
  match content with
  | .error fault => .error (.unread fault)
  | .ok content => ofContent content

/-- The settings in a file. Where nothing can be found they are the standard ones. -/
def load (view : FileView) (path : String) : Except LoadError Settings :=
  if (view path).isThere then
    match ofFile (view path).content with
    | .error fault => .error (.unreadable path fault.message)
    | .ok s => s.check
  else .ok standard

theorem load_of_absent {view : FileView} {path : String} (h : (view path).isThere = false) :
    load view path = .ok standard := by
  rw [load, if_neg (Bool.eq_false_iff.mp h)]

/-- What is there but cannot be read is not taken for nothing. -/
theorem load_of_unread {view : FileView} {path : String} {fault : PathFault}
    (h : (view path).isThere = true) (hContent : (view path).content = .error fault) :
    load view path = .error (.unreadable path fault.message) := by
  rw [load, if_pos h, hContent]
  rfl

theorem load_of_content {view : FileView} {path : String} {content : Bytes}
    (h : (view path).isThere = true) (hContent : (view path).content = .ok content) :
    load view path = match ofContent content with
      | .error fault => .error (.unreadable path fault.message)
      | .ok s => s.check := by
  rw [load, if_pos h, hContent]
  rfl

/-- What a file gives has been checked, and where there is none the standard settings hold. -/
theorem isValid_of_load {view : FileView} {path : String} {settings : Settings}
    (h : load view path = .ok settings) : settings.IsValid := by
  cases hThere : (view path).isThere with
  | false =>
      rw [load_of_absent hThere] at h
      obtain rfl := Except.ok.inj h
      exact standard_isValid
  | true =>
      cases hContent : (view path).content with
      | error fault =>
          rw [load_of_unread hThere hContent] at h
          cases h
      | ok content =>
          rw [load_of_content hThere hContent] at h
          split at h
          · cases h
          · obtain ⟨hValid, rfl⟩ := check_eq_ok_iff.mp h
            exact hValid

end ImagePlacement.Settings
