import ImagePlacement.CommandLine.Arguments
import ImagePlacement.Session.Basic
import ImagePlacement.Settings.File

namespace ImagePlacement.CommandLine

/-- What is told about an image that has been placed. -/
structure Report where
  path : String
  image : Image
  box : Box Float
  tally : Tally
  /-- Images in the cache at the end. -/
  entries : Nat

/-- Places an image again a number of times, and tells the last outcome. -/
def placeAgain (view : FileView) (r : Request) : Nat → Answer (Outcome Diagnostic Placed) →
    Answer (Outcome Diagnostic Placed)
  | 0, a => a
  | n + 1, a =>
    match a.result with
    | .done _ =>
      let next := a.session.place view r
      placeAgain view r n { next with events := a.events ++ next.events }
    | _ => a

namespace Order

/-- The settings that an order asks for. -/
def settings (o : Order) (view : FileView) : Except LoadError Settings :=
  match o.config with
  | some path => Settings.load view path
  | none => .ok Settings.standard

/-- The placement that an order asks for. -/
def request (o : Order) : Request := ⟨Source.file o.path, o.extents, o.region, none⟩

/-- Carries an order out in a new session. Whatever fails is reported for the path of the
image. -/
def run (o : Order) (view : FileView) : Outcome Diagnostic Report × List Event :=
  let session := do Session.start (← o.settings view) Registry.builtin
  match session with
  | .error e => (.failed (Diagnostic.of e o.path none), [])
  | .ok session =>
    let first := session.place view o.request
    let a := placeAgain view o.request (o.repeats.toNat - 1) first
    let report (placed : Placed) : Report :=
      ⟨o.path, placed.image.image, placed.box, a.session.cache.tally, a.session.cache.entries⟩
    (a.result.map report, a.events)

end Order

end ImagePlacement.CommandLine
