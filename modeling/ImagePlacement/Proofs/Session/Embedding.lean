import ImagePlacement.Proofs.DataUrl
import ImagePlacement.Proofs.Header
import ImagePlacement.Session.Basic

/-! An image that stands in a document as a data URL, and the same bytes as a file. Both are placed
alike, but a data URL is refused by an estimate: as many bytes as its groups could hold. -/
namespace ImagePlacement

namespace DataUrl

variable {settings : Settings}

/-- The data URL of a content that is said to be PNG. -/
def ofContent (content : Bytes) : String := "data:image/png;base64," ++ Base64.text content

/-- What is estimated for a content: whole groups of three bytes. -/
def estimateOf (content : Bytes) : Nat := (content.length + 2) / 3 * 3

theorem carries_ofContent (content : Bytes) :
    Carries (ofContent content).toList (Base64.text content).toList := by
  have hOpening : "data:image/png;base64,".toList =
      "data:image/".toList ++ "png".toList ++ ";base64,".toList := by decide
  have hText : (ofContent content).toList = "data:image/".toList ++ "png".toList ++
      ";base64,".toList ++ (Base64.text content).toList :=
    (String.toList_append ..).trans (congrArg (· ++ (Base64.text content).toList) hOpening)
  rw [hText]
  exact .image "png".toList _ (isFirst_marker (by decide) _)

theorem holds_ofContent (content : Bytes) : Holds (ofContent content) (Base64.text content) := by
  have carries := carries_ofContent content
  obtain ⟨hHead, hLast⟩ := carries.not_blank (not_blank_of_mem_text content)
  exact ⟨_, ⟨[], [], by simp, by simp, by simp, hHead, hLast⟩, carries⟩

theorem read_ofContent (limit : Nat) (content : Bytes) :
    read limit (ofContent content) =
      if limit < estimateOf content then .error (.tooLarge (estimateOf content) limit)
      else .ok content := by
  have hEstimate : ((Base64.text content).length + 3) / 4 * 3 = estimateOf content := by
    rw [Base64.length_text, estimateOf]
    omega
  rw [read_of_holds (holds_ofContent content), hEstimate]

theorem source_of_estimate_le (identity : String) {content : Bytes}
    (h : estimateOf content ≤ settings.maxFileSize.toNat) :
    (source identity (ofContent content) settings).1 = .ok (Source.embedded identity content) := by
  rw [source, read_ofContent, if_neg (Nat.not_lt.mpr h)]

theorem source_of_lt_estimate (identity : String) {content : Bytes}
    (h : settings.maxFileSize.toNat < estimateOf content) :
    ∃ reason, (source identity (ofContent content) settings).1 = .error (.overLimit reason) := by
  rw [source, read_ofContent, if_pos h]
  exact ⟨_, rfl⟩

end DataUrl

/-- What a caller can tell of the end of a request: the image and its box, or the kind of the
failure. -/
abbrev Verdict := Outcome FailureKind (Image × Box Float)

/-- The verdict on an image that is placed. -/
def Answer.verdict (answer : Answer (Outcome Diagnostic Placed)) : Verdict :=
  (answer.result.mapError Diagnostic.kind).map fun placed => (placed.image.image, placed.box)

/-! The encoding of a PNG of 70 bytes has 24 groups, for which 72 bytes are estimated. -/
namespace Dot

def view : FileView := fun _ => .file content

/-- Settings that admit a file of so many bytes. -/
def settings (maxFileSize : UInt64) : Settings := { Settings.standard with maxFileSize }

/-- The verdict on the file. -/
def verdict (s : Session) : Verdict :=
  (s.place view ⟨Source.file "dot.png", .natural, .unbounded, none⟩).verdict

/-- A session whose limit is the length of the content. -/
def tight : Session := ⟨settings 70, .builtin, .empty, by decide⟩

/-- A session whose limit is the estimate for the content. -/
def roomy : Session := ⟨settings 72, .builtin, .empty, by decide⟩

theorem verdict_done {s : Session} (h : s = tight ∨ s = roomy) :
    ∃ image box, verdict s = .done (image, box) := by
  have hDone : (verdict s).isDone = true := by
    rcases h with rfl | rfl <;> decide +kernel
  obtain ⟨⟨image, box⟩, hVerdict⟩ := Outcome.exists_of_isDone hDone
  exact ⟨image, box, hVerdict⟩

end Dot

namespace Session

variable {s : Session} {view other : FileView} {content : Bytes} {path : String}

/-- Turns a text into a source under the settings of a session, and places that. -/
def placeText (s : Session) (view : FileView) (identity text : String) (extents : Extents Float)
    (region : Region Float) (origin : Option Origin) : Verdict :=
  match (DataUrl.source identity text s.settings).1 with
  | .error e => .failed e.kind
  | .ok source => (s.place view ⟨source, extents, region, origin⟩).verdict

theorem placeText_of_lt_estimate
    (h : s.settings.maxFileSize.toNat < DataUrl.estimateOf content) (extents : Extents Float)
    (region : Region Float) (origin : Option Origin) :
    s.placeText view path (DataUrl.ofContent content) extents region origin =
      .failed .resourceLimit := by
  obtain ⟨reason, hSource⟩ := DataUrl.source_of_lt_estimate path h
  rw [placeText, hSource]
  rfl

/-- The place of a reference is told by a diagnostic, but not by its kind. -/
theorem verdict_place (s : Session) (view : FileView) (r : Request) :
    (s.place view r).verdict =
      (((s.loadImage view r.source).result.bind fun image => box image r.extents r.region).mapError
        LoadError.kind).map fun placed => (placed.image.image, placed.box) := by
  simp only [Answer.verdict, place, load, Answer.map]
  cases ((s.loadImage view r.source).result.bind fun image => box image r.extents r.region) <;> rfl

/-- A session looks at what reading a source comes to, and not at where the bytes are from. -/
theorem loadImage_congr {first second : Source} (hPath : first.path = second.path)
    (hRead : first.read view s.settings = second.read other s.settings) :
    s.loadImage view first = s.loadImage other second := by
  simp only [loadImage, hRead, hPath]

theorem verdict_embedded (h : view path = .file content) (extents : Extents Float)
    (region : Region Float) (origin origin' : Option Origin) :
    (s.place other ⟨Source.embedded path content, extents, region, origin⟩).verdict =
      (s.place view ⟨Source.file path, extents, region, origin'⟩).verdict := by
  have hRead : (Source.embedded path content).read other s.settings =
      (Source.file path).read view s.settings := by
    exact (Source.read_file h s.settings).symm
  have hSame : s.loadImage other (Source.embedded path content) =
      s.loadImage view (Source.file path) := loadImage_congr rfl hRead
  rw [verdict_place, verdict_place, hSame]

/-- A file that is too long is refused for it. -/
theorem verdict_of_too_long (h : view path = .file content)
    (hLong : s.settings.maxFileSize.toNat < content.length) (extents : Extents Float)
    (region : Region Float) (origin : Option Origin) :
    (s.place view ⟨Source.file path, extents, region, origin⟩).verdict =
      .failed .resourceLimit := by
  obtain ⟨hFits, -⟩ | ⟨-, reason, hSize⟩ := s.settings.checkSize_cases content
  · exact absurd hLong (Nat.not_lt.mpr hFits)
  have hRead := (Source.read_file h s.settings).trans hSize
  simp only [verdict_place, loadImage, hRead]
  rfl

/-- The data URL of a content is placed as a file with that content is, on the same session: to
the same image and box, or to a failure of the same kind. Only a content that is within the limit
on files while its estimate is not is refused for the limit, whatever comes of the file. -/
theorem placeText_ofContent (s : Session) (view other : FileView) (path : String) (content : Bytes)
    (h : view path = .file content) (extents : Extents Float) (region : Region Float)
    (origin origin' : Option Origin) :
    s.placeText other path (DataUrl.ofContent content) extents region origin =
      if content.length ≤ s.settings.maxFileSize.toNat ∧
        s.settings.maxFileSize.toNat < (content.length + 2) / 3 * 3 then .failed .resourceLimit
      else (s.place view ⟨Source.file path, extents, region, origin'⟩).verdict := by
  rcases Nat.lt_or_ge s.settings.maxFileSize.toNat (DataUrl.estimateOf content) with hOver | hWithin
  · rw [placeText_of_lt_estimate hOver]
    split
    case isTrue => rfl
    case isFalse hLong =>
        exact (verdict_of_too_long h (Nat.lt_of_not_le fun hFits => hLong ⟨hFits, hOver⟩) ..).symm
  · rw [placeText, DataUrl.source_of_estimate_le path hWithin,
      if_neg fun hGap => Nat.not_lt.mpr hWithin hGap.2]
    exact verdict_embedded h extents region origin origin'

/-- A session that places the file refuses its data URL for the estimate; with the estimate as its
limit it places both. -/
theorem placeText_ofContent_dot : ∃ image box image' box',
    Dot.verdict Dot.tight = .done (image, box) ∧
    Dot.tight.placeText Dot.view "dot.png" (DataUrl.ofContent Dot.content) .natural .unbounded
      none = .failed .resourceLimit ∧
    Dot.verdict Dot.roomy = .done (image', box') ∧
    Dot.roomy.placeText Dot.view "dot.png" (DataUrl.ofContent Dot.content) .natural .unbounded
      none = .done (image', box') := by
  obtain ⟨image, box, hDone⟩ := Dot.verdict_done (Or.inl rfl)
  obtain ⟨image', box', hDone'⟩ := Dot.verdict_done (Or.inr rfl)
  have hTight := placeText_ofContent Dot.tight Dot.view Dot.view "dot.png" Dot.content rfl .natural
    .unbounded none none
  have hRoomy := placeText_ofContent Dot.roomy Dot.view Dot.view "dot.png" Dot.content rfl .natural
    .unbounded none none
  rw [if_pos (by decide)] at hTight
  rw [if_neg (by decide)] at hRoomy
  exact ⟨image, box, image', box', hDone, hTight, hDone', hRoomy.trans hDone'⟩

/-- A data URL is not always placed as the file with the same bytes is. -/
theorem not_placeText_as_file : ¬ ∀ settings s view path content extents region,
    Session.start settings .builtin = .ok s → view path = .file content →
    s.placeText view path (DataUrl.ofContent content) extents region none =
      (s.place view ⟨Source.file path, extents, region, none⟩).verdict := by
  intro hClaim
  have hSame : Dot.tight.placeText Dot.view "dot.png" (DataUrl.ofContent Dot.content) .natural
      .unbounded none = Dot.verdict Dot.tight := hClaim (Dot.settings 70) Dot.tight Dot.view
    "dot.png" Dot.content .natural .unbounded rfl rfl
  have hOver : Dot.tight.settings.maxFileSize.toNat < DataUrl.estimateOf Dot.content := by decide
  obtain ⟨image, box, hDone⟩ := Dot.verdict_done (Or.inl rfl)
  rw [placeText_of_lt_estimate hOver, hDone] at hSame
  cases hSame

end Session

end ImagePlacement
