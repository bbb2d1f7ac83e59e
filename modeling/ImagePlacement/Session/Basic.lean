import ImagePlacement.Cache.Steps
import ImagePlacement.Decoding
import ImagePlacement.Diagnostic

namespace ImagePlacement

/-- What images are loaded with during the making of a document. The settings are always
valid. -/
structure Session where
  settings : Settings
  registry : Registry
  cache : Cache
  valid : settings.IsValid

/-- The outcome of a request, what was noted meanwhile, and the session afterwards. -/
structure Answer (α : Type) where
  result : α
  events : List Event
  session : Session

/-- An image with the box that it is drawn in. -/
structure Placed where
  image : Shared
  box : Box Float

/-- A request to place an image. -/
structure Request where
  source : Source
  extents : Extents Float
  region : Region Float
  origin : Option Origin

def Answer.map {α β : Type} (f : α → β) (a : Answer α) : Answer β := ⟨f a.result, a.events, a.session⟩

namespace Session

/-- A session with nothing in its cache, if the settings are valid. -/
def start (settings : Settings) (registry : Registry) : Except LoadError Session :=
  match h : settings.fault? with
  | some fault => .error (.overLimit fault.message)
  | none => .ok ⟨settings, registry, .empty, h⟩

/-- Replaces the settings, if the new ones are valid. Images that are cached stay. -/
def configure (s : Session) (settings : Settings) : Except LoadError Session :=
  match h : settings.fault? with
  | some fault => .error (.overLimit fault.message)
  | none => .ok { s with settings := settings, valid := h }

/-- Drops the images of a path, and tells how many there were. -/
def invalidate (s : Session) (path : String) : Nat × Session :=
  let (dropped, cache) := s.cache.invalidate path
  (dropped, { s with cache := cache })

/-- Drops all images. -/
def clear (s : Session) : Session := { s with cache := s.cache.clear }

/-- Notes a failure of a request. -/
private def noteFailure (path : String) : Outcome LoadError Shared → List Event
  | .failed e => [.loadFailed path e]
  | _ => []

/-- Gets the image of content that has been read. The cache is asked first; the owner of a new
flight decodes. -/
def obtain (s : Session) (path : String) (content : Bytes) : Answer (Outcome LoadError Shared) :=
  match s.cache.enter path content with
  | (.hit image, cache) => ⟨.done image, [], { s with cache := cache }⟩
  | (.wait flight, cache) =>
    ⟨Outcome.ofExcept (cache.delivered flight), [], { s with cache := cache }⟩
  | (.own flight, cache) =>
    let (ending, events) := Decoding.run s.settings s.registry path content
    ⟨ending.map fun image => ⟨flight, image⟩, events,
      { s with cache := cache.finish flight ending }⟩

/-- Loads an image without placing it. -/
def loadImage (s : Session) (view : FileView) (source : Source) :
    Answer (Outcome LoadError Shared) :=
  match source.read view s.settings with
  | .error e => ⟨.failed e, [.loadFailed source.path e], s⟩
  | .ok content =>
    let a := s.obtain source.path content
    { a with events := a.events ++ noteFailure source.path a.result }

/-- The box of an image that has been loaded. -/
def box (image : Shared) (extents : Extents Float) (region : Region Float) :
    Outcome LoadError Placed :=
  match Box.fit image.image.naturalSize extents region with
  | .ok box => .done ⟨image, box⟩
  | .error misuse => .aborted misuse.message

/-- Loads an image and computes its box. -/
def load (s : Session) (view : FileView) (source : Source) (extents : Extents Float)
    (region : Region Float) : Answer (Outcome LoadError Placed) :=
  (s.loadImage view source).map fun result => result.bind fun image => box image extents region

/-- Places an image. A failure is reported with the place of the reference. -/
def place (s : Session) (view : FileView) (r : Request) : Answer (Outcome Diagnostic Placed) :=
  (s.load view r.source r.extents r.region).map fun result =>
    result.mapError fun e => Diagnostic.of e r.source.path r.origin

/-- Places an image as a task of its own. If the task is abandoned, that is a failure like
any other. -/
def placeDetached (s : Session) (view : FileView) (r : Request) :
    Answer (Except Diagnostic Placed) :=
  (s.place view r).map fun result =>
    match result with
    | .done placed => .ok placed
    | .failed d => .error d
    | .aborted reason =>
      .error (Diagnostic.of (.internal ("image task failed: " ++ reason)) r.source.path r.origin)

end Session

end ImagePlacement
