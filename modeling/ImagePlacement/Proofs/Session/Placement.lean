import ImagePlacement.CommandLine.Report
import ImagePlacement.Proofs.CommandLine.Arguments
import ImagePlacement.Proofs.Header
import ImagePlacement.Proofs.Session.Transparency

/-! What the sizing takes for granted is there whenever an image is placed. Its size was judged when
the image was made, by whichever decoder, and the cache hands out images as they were made; the
extents were judged when they were read, or by the caller. The region may be anything. -/
namespace ImagePlacement

/-- What the sizing takes for granted of an image and of the extents that are asked for. -/
structure Sizable (image : Image) (extents : Extents Float) : Prop where
  width : image.width.isFinite = true ∧ 0.0 < image.width
  height : image.height.isFinite = true ∧ 0.0 < image.height
  extents : extents.isValid = true

section Sizable

variable {image : Image} {extents : Extents Float} {region : Region Float}

theorem isProper_iff {x : Float} : isProper x = true ↔ x.isFinite = true ∧ 0.0 < x := by
  simp [isProper]

/-- Of an image there is nothing to ask. -/
theorem Sizable.of_isValid (image : Image) (hValid : extents.isValid = true) :
    Sizable image extents :=
  ⟨isProper_iff.mp image.width_proper, isProper_iff.mp image.height_proper, hValid⟩

theorem Sizable.exists_fit (sizable : Sizable image extents) (region : Region Float) :
    ∃ box, Box.fit image.naturalSize extents region = .ok box := by
  have hPositive : image.naturalSize.isPositive = true :=
    Bool.and_eq_true_iff.mpr ⟨decide_eq_true sizable.width.2, decide_eq_true sizable.height.2⟩
  unfold Box.fit
  rw [hPositive, sizable.extents]
  exact ⟨_, rfl⟩

end Sizable

namespace Session

variable {session : Session} {view : FileView} {source : Source} {extents : Extents Float}
  {region : Region Float} {placed : Placed} {reason : String}

theorem box_of_isValid (image : Shared) (hValid : extents.isValid = true) (region : Region Float) :
    ∃ box, Box.fit image.image.naturalSize extents region = .ok box ∧
      Session.box image extents region = .done ⟨image, box⟩ := by
  obtain ⟨box, hFit⟩ := (Sizable.of_isValid image.image hValid).exists_fit region
  refine ⟨box, hFit, ?_⟩
  rw [Session.box, hFit]

theorem fit_of_box {image : Shared} (h : Session.box image extents region = .done placed) :
    placed.image = image ∧ Box.fit image.image.naturalSize extents region = .ok placed.box := by
  unfold Session.box at h
  split at h
  · rename_i hFit
    obtain rfl := Outcome.done.inj h
    exact ⟨rfl, hFit⟩
  · cases h

/-- With extents that may be asked for, only a load can be abandoned, and not what is made of it. -/
theorem aborted_of_bind_box (hValid : extents.isValid = true) {result : Outcome LoadError Shared}
    (h : (result.bind fun image => Session.box image extents region) = .aborted reason) :
    result = .aborted reason := by
  obtain hLoaded | ⟨image, -, hAborted⟩ := Outcome.bind_eq_aborted_iff.mp h
  · exact hLoaded
  · obtain ⟨box, -, hBox⟩ := box_of_isValid image hValid region
    cases hBox.symm.trans hAborted

theorem loadImage_of_load_aborted (hValid : extents.isValid = true)
    (h : (session.load view source extents region).result = .aborted reason) :
    (session.loadImage view source).result = .aborted reason :=
  aborted_of_bind_box hValid h

theorem fit_of_load (h : (session.load view source extents region).result = .done placed) :
    (session.loadImage view source).result = .done placed.image ∧
      Box.fit placed.image.image.naturalSize extents region = .ok placed.box := by
  obtain ⟨image, hLoaded, hBox⟩ := Outcome.bind_eq_done_iff.mp h
  obtain ⟨rfl, hFit⟩ := fit_of_box hBox
  exact ⟨hLoaded, hFit⟩

/-- If decoders end, so does a load: whoever waits for a flight is given an error at worst. -/
theorem loadImage_ne_aborted (total : session.registry.IsTotal) (view : FileView)
    (source : Source) (reason : String) :
    (session.loadImage view source).result ≠ .aborted reason := by
  cases hRead : source.read view session.settings with
  | error e =>
      rw [result_of_error hRead]
      nofun
  | ok content =>
      cases hSlot : session.cache.slot? (Key.of source.path content) with
      | none =>
          rw [result_of_own hRead hSlot, Ne, Outcome.map_eq_aborted_iff]
          exact Decoding.run_ne_aborted total source.path content reason
      | some slot =>
          cases slot with
          | ready image =>
              rw [result_of_hit hRead hSlot]
              nofun
          | pending flight =>
              simp only [loadImage, hRead, obtain, Cache.enter, Cache.lookup_pending hSlot]
              exact Outcome.ofExcept_ne_aborted _ reason

end Session

namespace CommandLine

variable {r : Request}

/-- A placement with decoders that end, and with the box that its image has in its region. -/
structure Boxed (r : Request) (a : Answer (Outcome Diagnostic Placed)) : Prop where
  total : a.session.registry.IsTotal
  ends : ∀ reason, a.result ≠ .aborted reason
  fit : ∀ placed, a.result = .done placed →
    Box.fit placed.image.image.naturalSize r.extents r.region = .ok placed.box

theorem boxed_place (hValid : r.extents.isValid = true) {session : Session}
    (total : session.registry.IsTotal) (view : FileView) : Boxed r (session.place view r) where
  total := by
    change (session.loadImage view r.source).session.registry.IsTotal
    rw [Session.registry_loadImage]
    exact total
  ends := by
    intro reason h
    have hLoaded := Outcome.mapError_eq_aborted_iff.mp h
    exact Session.loadImage_ne_aborted total view r.source reason
      (Session.loadImage_of_load_aborted hValid hLoaded)
  fit := fun _ h => (Session.fit_of_load (Outcome.mapError_eq_done_iff.mp h)).2

/-- However often an image is placed again, the last placement is like the first one. -/
theorem boxed_placeAgain (hValid : r.extents.isValid = true) (view : FileView) (n : Nat)
    {a : Answer (Outcome Diagnostic Placed)} (boxed : Boxed r a) :
    Boxed r (placeAgain view r n a) := by
  induction n generalizing a with
  | zero => exact boxed
  | succ n ih =>
      unfold placeAgain
      split
      · have next := boxed_place hValid boxed.total view
        exact ih ⟨next.total, next.ends, next.fit⟩
      · exact boxed

end CommandLine

namespace CommandLine.Order

variable {order : Order}

theorem boxed_run (hValid : order.extents.isValid = true) (view : FileView) :
    (∀ reason, (order.run view).1 ≠ .aborted reason) ∧
      ∀ report, (order.run view).1 = .done report →
        Box.fit report.image.naturalSize order.extents order.region = .ok report.box := by
  unfold run
  dsimp only
  split
  · exact ⟨nofun, nofun⟩
  · rename_i session hStart
    obtain ⟨settings, -, hSession⟩ := exists_of_bind_eq_ok hStart
    have total : session.registry.IsTotal := by
      rw [(Session.of_start hSession).2.1]
      exact Registry.builtin_isTotal
    have first : Boxed order.request (session.place view order.request) :=
      boxed_place hValid total view
    have boxed := boxed_placeAgain hValid view (order.repeats.toNat - 1) first
    refine ⟨fun reason h => boxed.ends reason (Outcome.map_eq_aborted_iff.mp h), fun report h => ?_⟩
    obtain ⟨placed, hPlaced, rfl⟩ := Outcome.map_eq_done_iff.mp h
    exact boxed.fit placed hPlaced

end CommandLine.Order

/-- Whatever the arguments are, and whatever is in the files, the sizing is never given what it
refuses: no placement of an order ends in one of its checks, however often the image is placed. Nor
does one in a session, with any decoders and after any moves of any requests, if the extents may be
asked for: an image that is loaded has a finite positive size and gets its box in every region, and
a request is only abandoned with its load. -/
theorem sizing_never_misused :
    (∀ arguments order, CommandLine.Order.ofArguments arguments = .ok order →
      (∀ image, Sizable image order.extents) ∧ ∀ view,
        (∀ reason, (order.run view).1 ≠ .aborted reason) ∧
        ∀ report, (order.run view).1 = .done report →
          Box.fit report.image.naturalSize order.extents order.region = .ok report.box) ∧
    ∀ session moves s, Service.Runs (Service.start session) moves s →
      ∀ frame : Frame, frame.extents.isValid = true →
        (∀ i order call image, s.orders i = some order → order.frame = some frame →
          s.traffic.calls i = some call → call.progress = .returned (.done image) →
          Sizable image.image frame.extents ∧
          ∃ box, Box.fit image.image.naturalSize frame.extents frame.region = .ok box ∧
            Frame.serve order.frame (.done image) = .done ⟨image, some box⟩) ∧
        (∀ i order reason, s.orders i = some order → order.frame = some frame →
          order.outcome = some (.aborted reason) →
          ∃ call, s.traffic.calls i = some call ∧ call.progress = .returned (.aborted reason)) ∧
        ∀ view source,
          (∀ image, (s.toSession.loadImage view source).result = .done image →
            Sizable image.image frame.extents ∧
            ∃ box, Box.fit image.image.naturalSize frame.extents frame.region = .ok box ∧
              (s.toSession.load view source frame.extents frame.region).result =
                .done ⟨image, box⟩) ∧
          ∀ reason, (s.toSession.load view source frame.extents frame.region).result =
              .aborted reason →
            (s.toSession.loadImage view source).result = .aborted reason := by
  refine ⟨fun arguments order h => ?_, fun session moves s run frame hValid => ⟨?_, ?_, ?_⟩⟩
  · have hValid := CommandLine.Order.isValid_of_ofArguments h
    exact ⟨fun image => .of_isValid image hValid, CommandLine.Order.boxed_run hValid⟩
  · intro i order call image hOrder hFrame hCall hReturned
    obtain ⟨box, hFit, hBox⟩ := Session.box_of_isValid image hValid frame.region
    refine ⟨.of_isValid image.image hValid, box, hFit, ?_⟩
    simp only [hFrame, Frame.serve, Outcome.bind, hBox, Outcome.map]
  · intro i order reason hOrder hFrame hOutcome
    rcases run.sound.answered i order _ hOrder hOutcome with ⟨e, -, hFailed⟩ |
      ⟨call, result, hCall, hReturned, hServed⟩
    · cases hFailed
    · rw [hFrame] at hServed
      have hBound := Outcome.map_eq_aborted_iff.mp hServed.symm
      obtain rfl := Session.aborted_of_bind_box hValid hBound
      exact ⟨call, hCall, hReturned⟩
  · intro view source
    refine ⟨fun image hLoaded => ?_, fun reason => Session.loadImage_of_load_aborted hValid⟩
    obtain ⟨box, hFit, hBox⟩ := Session.box_of_isValid image hValid frame.region
    exact ⟨.of_isValid image.image hValid, box, hFit,
      Outcome.bind_eq_done_iff.mpr ⟨image, hLoaded, hBox⟩⟩

/-- A negative zero for a width, in a region whose axes are no number and below every number. -/
theorem sizing_never_misused_negative_zero : ∃ order report,
    CommandLine.Order.ofArguments ["--width=-0", "--container-width=NaN",
      "--container-height=-inf", "--repeat=3", "dot.png"] = .ok order ∧
    order.extents.width.map Float.toBits = some 0x8000000000000000 ∧
    (order.run fun _ => .file Dot.content).1 = .done report ∧
    Sizable report.image order.extents ∧
    Box.fit report.image.naturalSize order.extents order.region = .ok report.box := by
  have hCheck : (match CommandLine.Order.ofArguments ["--width=-0", "--container-width=NaN",
        "--container-height=-inf", "--repeat=3", "dot.png"] with
      | .ok order =>
        decide (order.extents.width.map Float.toBits = some 0x8000000000000000) &&
          (order.run fun _ => .file Dot.content).1.isDone
      | .error _ => false) = true := by decide +kernel
  split at hCheck
  case h_1 order hOrder =>
      obtain ⟨hBits, hDone⟩ := Bool.and_eq_true_iff.mp hCheck
      obtain ⟨report, hReport⟩ := Outcome.exists_of_isDone hDone
      obtain ⟨hSizable, hRun⟩ := sizing_never_misused.1 _ order hOrder
      exact ⟨order, report, hOrder, of_decide_eq_true hBits, hReport, hSizable report.image,
        (hRun _).2 report hReport⟩
  case h_2 => cases hCheck

end ImagePlacement
