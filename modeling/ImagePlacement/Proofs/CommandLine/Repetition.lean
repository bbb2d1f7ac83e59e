import ImagePlacement.Proofs.Session.Configuration
import ImagePlacement.Proofs.Session.Placement
import ImagePlacement.Proofs.Session.Recovery

/-! An image that is placed again and again. As long as its file stays what it is, only the first
placement decodes; the others are given what that one has filed, and the same box. -/
namespace ImagePlacement

namespace CommandLine

variable {session : Session} {view : FileView} {r : Request} {placed : Placed} {hits : Nat}

/-- The image of a request is all that a session has in its cache. It was decoded once and has been
found a number of times. -/
structure Held (session : Session) (view : FileView) (r : Request) (placed : Placed)
    (hits : Nat) : Prop where
  filed : ∃ content, r.source.read view session.settings = .ok content ∧
    session.cache.slots = [(Key.of r.source.path content, .ready placed.image)]
  box : Session.box placed.image r.extents r.region = .done placed
  tally : session.cache.tally = ⟨hits, 1, 0, 0⟩

theorem settings_place (session : Session) (view : FileView) (r : Request) :
    (session.place view r).session.settings = session.settings :=
  Session.settings_loadImage session view r.source

theorem Held.entries (held : Held session view r placed hits) : session.cache.entries = 1 := by
  obtain ⟨content, -, hSlots⟩ := held.filed
  rw [Cache.entries, hSlots]
  rfl

/-- The first placement decodes. -/
theorem held_of_place (hEmpty : session.cache = .empty)
    (h : (session.place view r).result = .done placed) :
    Held (session.place view r).session view r placed 0 := by
  obtain ⟨image, hLoaded, hBox⟩ :=
    Outcome.bind_eq_done_iff.mp (Outcome.mapError_eq_done_iff.mp h)
  obtain ⟨rfl, -⟩ := Session.fit_of_box hBox
  cases hRead : r.source.read view session.settings with
  | error e =>
      rw [Session.result_of_error hRead] at hLoaded
      cases hLoaded
  | ok content =>
      have hNone : session.cache.slot? (Key.of r.source.path content) = none := by
        rw [hEmpty]
        rfl
      rw [Session.result_of_own hRead hNone] at hLoaded
      obtain ⟨decoded, hRun, hImage⟩ := Outcome.map_eq_done_iff.mp hLoaded
      have hCache := Session.cache_of_own hRead hNone
      rw [hRun] at hCache
      obtain ⟨hSlots, hTally⟩ := Cache.loaded_of_done hNone decoded
      refine ⟨⟨content, ?_, ?_⟩, hBox, ?_⟩
      · rw [settings_place]
        exact hRead
      · rw [← hImage]
        refine (congrArg Cache.slots hCache).trans (hSlots.trans ?_)
        rw [hEmpty]
        rfl
      · refine (congrArg Cache.tally hCache).trans (hTally.trans ?_)
        rw [hEmpty]
        rfl

/-- Every further placement finds what the first one has filed. -/
theorem Held.place (held : Held session view r placed hits) :
    (session.place view r).result = .done placed ∧ (session.place view r).events = [] ∧
      Held (session.place view r).session view r placed (hits + 1) := by
  obtain ⟨content, hRead, hSlots⟩ := held.filed
  have hReady : session.cache.slot? (Key.of r.source.path content) =
      some (.ready placed.image) := by
    rw [Cache.slot?, hSlots, List.lookup_cons_self]
  have hCache := Session.cache_of_hit hRead hReady
  refine ⟨?_, Session.events_of_hit hRead hReady, ⟨content, ?_, ?_⟩, held.box, ?_⟩
  · exact Outcome.mapError_eq_done_iff.mpr (Outcome.bind_eq_done_iff.mpr
      ⟨placed.image, Session.result_of_hit hRead hReady, held.box⟩)
  · rw [settings_place]
    exact hRead
  · exact (congrArg Cache.slots hCache).trans hSlots
  · refine (congrArg Cache.tally hCache).trans ?_
    rw [Cache.count, held.tally]

theorem placeAgain_succ {a : Answer (Outcome Diagnostic Placed)} (hDone : a.result = .done placed)
    (n : Nat) :
    placeAgain view r (n + 1) a = placeAgain view r n { a.session.place view r with
      events := a.events ++ (a.session.place view r).events } := by
  rw [placeAgain, hDone]

/-- However often the image is placed again, it stays the one that was decoded. -/
theorem Held.placeAgain {a : Answer (Outcome Diagnostic Placed)}
    (held : Held a.session view r placed hits) (hDone : a.result = .done placed) (n : Nat) :
    (placeAgain view r n a).result = .done placed ∧
      (placeAgain view r n a).events = a.events ∧
      Held (placeAgain view r n a).session view r placed (hits + n) := by
  induction n generalizing a hits with
  | zero => exact ⟨hDone, rfl, held⟩
  | succ n ih =>
      obtain ⟨hResult, hEvents, next⟩ := held.place
      rw [placeAgain_succ hDone, hEvents, List.append_nil, ← Nat.add_assoc, Nat.add_right_comm]
      exact ih next hResult

/-- Nothing is tried again after a failure. -/
theorem placeAgain_of_not_done {a : Answer (Outcome Diagnostic Placed)}
    (h : a.result.isDone = false) (n : Nat) : placeAgain view r n a = a := by
  cases n with
  | zero => rfl
  | succ n =>
      unfold placeAgain
      split
      case h_1 hDone =>
          rw [hDone] at h
          cases h
      case h_2 => rfl

namespace Order

variable {order : Order} {settings : Settings}

theorem isValid_of_settings (h : order.settings view = .ok settings) : settings.IsValid := by
  unfold Order.settings at h
  split at h
  · exact Settings.isValid_of_load h
  · obtain rfl := Except.ok.inj h
    exact Settings.standard_isValid

theorem run_of_error {e : LoadError} (h : order.settings view = .error e) :
    order.run view = (.failed (Diagnostic.of e order.path none), []) := by
  rw [run, h]
  rfl

/-- In a session that has been opened, the image is placed once and then again. -/
theorem run_of_start (hSettings : order.settings view = .ok settings)
    (hStart : Session.start settings Registry.builtin = .ok session) :
    order.run view =
      let a := placeAgain view order.request (order.repeats.toNat - 1)
        (session.place view order.request)
      (a.result.map fun placed =>
        ⟨order.path, placed.image.image, placed.box, a.session.cache.tally,
          a.session.cache.entries⟩, a.events) := by
  have hOpened : (order.settings view >>= fun s => Session.start s Registry.builtin) =
      .ok session := by
    rw [hSettings]
    exact hStart
  rw [run, hOpened]

theorem run_of_done (hSettings : order.settings view = .ok settings)
    (hStart : Session.start settings Registry.builtin = .ok session)
    (hPlaced : (session.place view order.request).result = .done placed) :
    order.run view =
      (.done ⟨order.path, placed.image.image, placed.box,
        ⟨max order.repeats.toNat 1 - 1, 1, 0, 0⟩, 1⟩,
        (session.place view order.request).events) := by
  have first := held_of_place (Session.of_start hStart).2.2 hPlaced
  obtain ⟨hDone, hEvents, held⟩ := first.placeAgain hPlaced (order.repeats.toNat - 1)
  have hHits : 0 + (order.repeats.toNat - 1) = max order.repeats.toNat 1 - 1 := by omega
  simp only [run_of_start hSettings hStart, hDone, hEvents, held.entries, held.tally, hHits,
    Outcome.map]

theorem run_of_failed (hSettings : order.settings view = .ok settings)
    (hStart : Session.start settings Registry.builtin = .ok session) {d : Diagnostic}
    (hFailed : (session.place view order.request).result = .failed d) :
    order.run view = (.failed d, (session.place view order.request).events) := by
  have hOnce : placeAgain view order.request (order.repeats.toNat - 1)
      (session.place view order.request) = session.place view order.request :=
    placeAgain_of_not_done (congrArg Outcome.isDone hFailed) _
  simp only [run_of_start hSettings hStart, hOnce, hFailed, Outcome.map]

end Order

/-- However often an order places its image, the report is that of a single placement in a new
session, except that every further placement is counted as a hit; no placement at all counts as
one. The order succeeds exactly if the single placement does. A failure is that of the settings or
else that of the single placement, for the path of the image and without a place in a document. -/
theorem repetition_decodes_once {arguments : List String} {order : Order}
    (h : Order.ofArguments arguments = .ok order) (view : FileView) :
    (∀ e, order.settings view = .error e →
      order.run view = (.failed (Diagnostic.of e order.path none), [])) ∧
    ∀ settings, order.settings view = .ok settings →
      ∃ session, Session.start settings Registry.builtin = .ok session ∧
        ∀ first, session.place view order.request = first →
          ((∃ report, (order.run view).1 = .done report) ↔
            ∃ placed, first.result = .done placed) ∧
          (∀ placed, first.result = .done placed → order.run view =
            (.done ⟨order.path, placed.image.image, placed.box,
              ⟨max order.repeats.toNat 1 - 1, 1, 0, 0⟩, 1⟩, first.events)) ∧
          (∀ d, first.result = .failed d → order.run view = (.failed d, first.events) ∧
            d = Diagnostic.of d.error order.path none) ∧
          ∀ reason, first.result ≠ .aborted reason := by
  refine ⟨fun e => Order.run_of_error, fun settings hSettings => ?_⟩
  obtain ⟨session, hStart⟩ : ∃ session, Session.start settings Registry.builtin = .ok session :=
    ⟨_, Session.start_of_isValid (Order.isValid_of_settings hSettings)⟩
  refine ⟨session, hStart, ?_⟩
  rintro first rfl
  have total : session.registry.IsTotal := by
    rw [(Session.of_start hStart).2.1]
    exact Registry.builtin_isTotal
  have boxed : Boxed order.request (session.place view order.request) :=
    boxed_place (Order.isValid_of_ofArguments h) total view
  -- The extents of an order may be asked for, so that the single placement is never abandoned.
  refine ⟨⟨?_, ?_⟩, fun placed => Order.run_of_done hSettings hStart, fun d hFailed => ⟨?_, ?_⟩,
    boxed.ends⟩
  · rintro ⟨report, hReport⟩
    cases hFirst : (session.place view order.request).result with
    | done placed => exact ⟨placed, rfl⟩
    | failed d =>
        rw [Order.run_of_failed hSettings hStart hFirst] at hReport
        cases hReport
    | aborted reason => exact absurd hFirst (boxed.ends reason)
  · rintro ⟨placed, hPlaced⟩
    exact ⟨_, congrArg Prod.fst (Order.run_of_done hSettings hStart hPlaced)⟩
  · exact Order.run_of_failed hSettings hStart hFailed
  · obtain ⟨e, -, rfl⟩ := Outcome.mapError_eq_failed_iff.mp hFailed
    rfl

/-- A file that is placed three times. -/
theorem repetition_decodes_once_dot : ∃ order report events,
    Order.ofArguments ["--repeat=3", "dot.png"] = .ok order ∧
    order.run (fun _ => .file Dot.content) = (.done report, events) ∧
    report.path = "dot.png" ∧ report.tally = ⟨2, 1, 0, 0⟩ ∧ report.entries = 1 := by
  have hCheck : (match Order.ofArguments ["--repeat=3", "dot.png"] with
      | .ok order => order.path == "dot.png" && order.repeats.toNat == 3 && order.config == none &&
          (order.run fun _ => .file Dot.content).1.isDone
      | .error _ => false) = true := by decide +kernel
  split at hCheck
  case h_1 order hOrder =>
      simp only [Bool.and_eq_true, beq_iff_eq] at hCheck
      obtain ⟨⟨⟨hPath, hRepeats⟩, hConfig⟩, hDone⟩ := hCheck
      have hSettings : order.settings (fun _ => .file Dot.content) = .ok .standard := by
        rw [Order.settings, hConfig]
      obtain ⟨session, -, hRun⟩ := (repetition_decodes_once hOrder _).2 _ hSettings
      obtain ⟨hSucceeds, hReport, -, -⟩ := hRun _ rfl
      obtain ⟨placed, hPlaced⟩ := hSucceeds.mp (Outcome.exists_of_isDone hDone)
      refine ⟨order, _, _, hOrder, hReport placed hPlaced, hPath, ?_, rfl⟩
      rw [hRepeats]
      rfl
  case h_2 => cases hCheck

end CommandLine

end ImagePlacement
