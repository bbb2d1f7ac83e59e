import ImagePlacement.Proofs.Decoding
import ImagePlacement.Proofs.Session.Service

/-! What a request that fails leaves behind. A slot is taken before it is known whether there will
be an image; whatever comes instead, the slot is given back, and the request can be made again as
if for the first time. -/
namespace ImagePlacement

namespace Cache

variable {c : Cache} {path : String} {content : Bytes} {ending : Ending}

/-- The cache after a look-up that found nothing and a load that has ended. -/
def loaded (c : Cache) (path : String) (content : Bytes) (ending : Ending) : Cache :=
  ((c.begin path content).count (.own c.nextFlight)).finish c.nextFlight ending

theorem exists_delivery_eq_error (hEnding : ending.isDone = false) (flight : Nat) :
    ∃ e, c.delivery flight ending = .error e := by
  cases ending with
  | done image => cases hEnding
  | failed e => exact ⟨e, rfl⟩
  | aborted reason => exact ⟨_, rfl⟩

theorem others_begin (h : c.slot? (Key.of path content) = none) :
    (c.begin path content).others (Key.of path content) = c.slots := by
  rw [others, begin, List.filter_cons_of_neg (by simp), List.filter_eq_self]
  intro entry hEntry
  have hOther : Key.of path content ≠ entry.1 := by
    simpa using List.lookup_eq_none_iff.mp h entry hEntry
  simpa using hOther.symm

theorem flight_of_count_begin (c : Cache) (path : String) (content : Bytes) (role : Role) :
    ((c.begin path content).count role).flights[c.nextFlight]? =
      some ⟨path, Key.of path content, false, none⟩ := by
  rw [flights_count, flights_begin, if_pos rfl]

/-- A load without an image takes its slot out again, and no other. It is counted as a miss and as
a failure. -/
theorem loaded_of_not_done (h : c.slot? (Key.of path content) = none)
    (hEnding : ending.isDone = false) :
    (c.loaded path content ending).slots = c.slots ∧
      (c.loaded path content ending).tally =
        { c.tally with misses := c.tally.misses + 1, failures := c.tally.failures + 1 } := by
  let counted := (c.begin path content).count (.own c.nextFlight)
  obtain ⟨e, hError⟩ := exists_delivery_eq_error (c := counted) hEnding c.nextFlight
  have hComplete : counted.complete c.nextFlight (.error e) =
      { counted with
        slots := counted.others (Key.of path content)
        tally := { counted.tally with failures := counted.tally.failures + 1 } } := by
    simp only [complete, counted, flight_of_count_begin]
  rw [loaded, finish, hError, hComplete]
  exact ⟨others_begin h, rfl⟩

/-- A load with an image fills its slot, and no other. It is counted as a miss. -/
theorem loaded_of_done (h : c.slot? (Key.of path content) = none) (image : Image) :
    (c.loaded path content (.done image)).slots =
        (Key.of path content, .ready ⟨c.nextFlight, image⟩) :: c.slots ∧
      (c.loaded path content (.done image)).tally =
        { c.tally with misses := c.tally.misses + 1 } := by
  let counted := (c.begin path content).count (.own c.nextFlight)
  have hComplete : counted.complete c.nextFlight (.ok ⟨c.nextFlight, image⟩) =
      { counted with
        slots := (Key.of path content, .ready ⟨c.nextFlight, image⟩) ::
          counted.others (Key.of path content) } := by
    simp only [complete, counted, flight_of_count_begin]
    rfl
  rw [loaded, finish, delivery, hComplete]
  exact ⟨congrArg _ (others_begin h), rfl⟩

theorem misses_complete (flight : Nat) (result : Delivery) :
    (c.complete flight result).tally.misses = c.tally.misses := by
  unfold complete
  split
  · rfl
  · split
    · split <;> rfl
    · rfl

/-- However a load ends, it was a miss. -/
theorem misses_loaded (path : String) (content : Bytes) (ending : Ending) :
    (c.loaded path content ending).tally.misses = c.tally.misses + 1 := misses_complete ..

end Cache

namespace Session

variable {session before after : Session} {view : FileView} {source : Source} {content : Bytes}

/-- Nothing is exchanged, filed or taken out. -/
structure Keeps (before after : Session) : Prop where
  settings : after.settings = before.settings
  registry : after.registry = before.registry
  slots : after.cache.slots = before.cache.slots

/-- A request decodes content itself, whatever comes of it. -/
structure Decodes (session : Session) (view : FileView) (source : Source) (content : Bytes) :
    Prop where
  result : (session.loadImage view source).result =
    (Decoding.run session.settings session.registry source.path content).1.map
      fun image => ⟨session.cache.nextFlight, image⟩
  noted : (Decoding.run session.settings session.registry source.path content).2 <+:
    (session.loadImage view source).events
  missed : (session.loadImage view source).session.cache.tally.misses =
    session.cache.tally.misses + 1

/-- Nothing is being loaded, and every image that is filed has been decoded from its content. -/
structure Settled (session : Session) : Prop where
  idle : ∀ key flight, session.cache.slot? key ≠ some (.pending flight)
  ready : ∀ key image, session.cache.slot? key = some (.ready image) →
    session.registry.decode (Signature.sniff key.content) key.content = .done image.image

theorem loadImage_of_error {e : LoadError} (hRead : source.read view session.settings = .error e) :
    (session.loadImage view source).result = .failed e ∧
      (session.loadImage view source).session = session := by
  refine ⟨result_of_error hRead, ?_⟩
  simp only [loadImage, hRead]

theorem Keeps.slot? (keeps : Keeps before after) (key : Key) :
    after.cache.slot? key = before.cache.slot? key := by
  rw [Cache.slot?, Cache.slot?, keeps.slots]

theorem Settled.of_keeps (settled : before.Settled) (keeps : Keeps before after) :
    after.Settled where
  idle := by
    intro key flight
    rw [keeps.slot?]
    exact settled.idle key flight
  ready := by
    intro key image
    rw [keeps.slot?, keeps.registry]
    exact settled.ready key image

/-- What is not filed is decoded. -/
theorem decodes_of_slot? (hRead : source.read view session.settings = .ok content)
    (hSlot : session.cache.slot? (Key.of source.path content) = none) :
    session.Decodes view source content where
  result := result_of_own hRead hSlot
  noted := by
    simp only [loadImage, hRead, obtain, Cache.enter, Cache.lookup_none hSlot]
    exact List.prefix_append _ _
  missed := by
    rw [cache_of_own hRead hSlot]
    exact Cache.misses_loaded ..

/-- A request without an image for what it has read has found nothing filed, and has decoded it in
vain. -/
theorem Settled.of_not_done (settled : session.Settled)
    (hRead : source.read view session.settings = .ok content)
    (hFailed : (session.loadImage view source).result.isDone = false) :
    session.cache.slot? (Key.of source.path content) = none ∧
      (Decoding.run session.settings session.registry source.path content).1.isDone = false := by
  cases hSlot : session.cache.slot? (Key.of source.path content) with
  | none =>
      rw [result_of_own hRead hSlot, Outcome.isDone_map] at hFailed
      exact ⟨rfl, hFailed⟩
  | some slot =>
      cases slot with
      | pending flight => exact absurd hSlot (settled.idle _ flight)
      | ready image =>
          rw [result_of_hit hRead hSlot] at hFailed
          cases hFailed

theorem Settled.keeps (settled : session.Settled)
    (hRead : source.read view session.settings = .ok content)
    (hFailed : (session.loadImage view source).result.isDone = false) :
    Keeps session (session.loadImage view source).session ∧
      (session.loadImage view source).session.cache.tally =
        { session.cache.tally with
          misses := session.cache.tally.misses + 1
          failures := session.cache.tally.failures + 1 } := by
  obtain ⟨hSlot, hRun⟩ := settled.of_not_done hRead hFailed
  obtain ⟨hSlots, hTally⟩ := Cache.loaded_of_not_done hSlot hRun
  have hCache := cache_of_own hRead hSlot
  refine ⟨⟨settings_loadImage .., registry_loadImage .., ?_⟩, ?_⟩
  · rw [hCache]
    exact hSlots
  · rw [hCache]
    exact hTally

/-- Good content gives its image, whether it is decoded now or has been before. -/
theorem Settled.exists_result (settled : session.Settled)
    (hRead : source.read view session.settings = .ok content) {image : Image}
    (hGood : (Decoding.run session.settings session.registry source.path content).1 =
      .done image) :
    ∃ flight, (session.loadImage view source).result = .done ⟨flight, image⟩ := by
  cases hSlot : session.cache.slot? (Key.of source.path content) with
  | none =>
      refine ⟨session.cache.nextFlight, ?_⟩
      rw [result_of_own hRead hSlot, hGood]
      rfl
  | some slot =>
      cases slot with
      | pending flight => exact absurd hSlot (settled.idle _ flight)
      | ready shared =>
          obtain ⟨flight, filed⟩ := shared
          have hFiled := settled.ready _ _ hSlot
          obtain ⟨-, hDecoded, -⟩ := Decoding.run_eq_done_iff.mp hGood
          obtain rfl : filed = image := Outcome.done.inj (hFiled.symm.trans hDecoded)
          exact ⟨flight, result_of_hit hRead hSlot⟩

end Session

namespace Service

variable {s : Service} {moves : List Move} {session : Session}

/-- No load is under way. -/
def Idle (s : Service) : Prop := ∀ i flight key, ¬ s.traffic.UnderWay i flight key

/-- Whatever has happened and under whatever settings, an image that is filed has been decoded from
the content it is filed for. -/
theorem Runs.settled (run : Runs (start session) moves s) (idle : s.Idle) :
    s.toSession.Settled where
  idle := by
    intro key flight hPending
    obtain ⟨i, hUnder⟩ := (run.traffic.sound.pending key flight).mp hPending
    exact idle i flight key hUnder
  ready := by
    intro key image hReady
    obtain ⟨i, ⟨owner, hOwner, hOwn, rfl, hFiled⟩, -⟩ :=
      (run.traffic.traced.ready key image).mp hReady
    obtain ⟨order, hOrder, -⟩ := run.sound.asked i owner hOwner
    have hRun := run.sound.decoded i owner image.flight order _ hOwner hOwn hOrder
      (Progress.ending?_of_filed? hFiled)
    obtain ⟨-, hDecoded, -⟩ := Decoding.run_eq_done_iff.mp hRun.symm
    exact hDecoded

/-- While no load is under way, a request that fails leaves the session as it was. If its source
cannot be read, not even a counter changes; if there is no image of what has been read, a miss and
a failure are counted. Asked again, the request reads again and decodes whatever has no image yet,
so that it succeeds as soon as what it reads is good. Placing an image leaves what loading it
leaves. -/
theorem failure_leaves_session (run : Runs (start session) moves s) (idle : s.Idle)
    (view : FileView) (request : Request) {a : Answer (Outcome LoadError Shared)}
    (hAsked : s.toSession.loadImage view request.source = a) :
    (∀ e, request.source.read view s.settings = .error e →
      a.result = .failed e ∧ a.session = s.toSession) ∧
    (∀ content, request.source.read view s.settings = .ok content → a.result.isDone = false →
      (Decoding.run s.settings s.registry request.source.path content).1.isDone = false ∧
      a.session.cache.slot? (Key.of request.source.path content) = none ∧
      Session.Keeps s.toSession a.session ∧
      a.session.cache.tally = { s.traffic.cache.tally with
        misses := s.traffic.cache.tally.misses + 1
        failures := s.traffic.cache.tally.failures + 1 }) ∧
    (a.result.isDone = false → ∀ again,
      (∀ e, request.source.read again s.settings = .error e →
        (a.session.loadImage again request.source).result = .failed e) ∧
      ∀ content, request.source.read again s.settings = .ok content →
        (a.session.cache.slot? (Key.of request.source.path content) = none →
          a.session.Decodes again request.source content) ∧
        ∀ image,
          (Decoding.run s.settings s.registry request.source.path content).1 = .done image →
          ∃ flight, (a.session.loadImage again request.source).result = .done ⟨flight, image⟩) ∧
    (s.toSession.load view request.source request.extents request.region).session = a.session ∧
    (s.toSession.place view request).session = a.session ∧
    (s.toSession.placeDetached view request).session = a.session := by
  subst hAsked
  have settled := run.settled idle
  have hKeeps (hFailed : (s.toSession.loadImage view request.source).result.isDone = false) :
      Session.Keeps s.toSession (s.toSession.loadImage view request.source).session := by
    cases hRead : request.source.read view s.settings with
    | error e =>
        rw [(Session.loadImage_of_error hRead).2]
        exact ⟨rfl, rfl, rfl⟩
    | ok content => exact (settled.keeps hRead hFailed).1
  refine ⟨fun e hRead => Session.loadImage_of_error hRead, ?_, ?_, rfl, rfl, rfl⟩
  · intro content hRead hFailed
    obtain ⟨hSlot, hRun⟩ := settled.of_not_done hRead hFailed
    obtain ⟨keeps, hTally⟩ := settled.keeps hRead hFailed
    exact ⟨hRun, (keeps.slot? _).trans hSlot, keeps, hTally⟩
  · intro hFailed again
    have keeps := hKeeps hFailed
    have hSettings : (s.toSession.loadImage view request.source).session.settings = s.settings :=
      keeps.settings
    have hRegistry : (s.toSession.loadImage view request.source).session.registry = s.registry :=
      keeps.registry
    have after := settled.of_keeps keeps
    rw [← hSettings, ← hRegistry]
    exact ⟨fun e hRead => Session.result_of_error hRead, fun content hRead =>
      ⟨Session.decodes_of_slot? hRead, fun image hGood => after.exists_result hRead hGood⟩⟩

/-! A file that brings its decoder down while it is being written, and is good afterwards -/
namespace Mended

def image : Image := ⟨.png, 5.0, 3.0, .raster ⟨5, 3⟩ none, by decide, by decide⟩

def content : Bytes := [0x89, 0x50, 0x4E, 0x47]

/-- What is in the file before it is complete. -/
def partly : Bytes := [0x89, 0x50, 0x4E, 0x47, 0x00]

def registry : Registry :=
  ⟨[(.png, fun bytes => if bytes = content then .done image else .aborted "out of range")]⟩

def opened : Session := ⟨Settings.standard, registry, .empty, Settings.standard_isValid⟩

def view (bytes : Bytes) : FileView := fun _ => .file bytes

def request : Request := ⟨Source.file "b", ⟨none, none⟩, ⟨none, none⟩, none⟩

/-- The same content is loaded from another path. -/
def script : List Move :=
  [.ask 0 (Source.file "a") none, .read 0 (view content), .cache (.lookup 0 "a" content),
    .cache (.count 0), .cache (.load 0 (.done image)), .cache (.complete 0),
    .cache (.publish 0 0), .cache (.answer 0), .answer 0]

theorem exists_runs : ∃ s, Runs (start opened) script s ∧ s.Idle ∧ s.settings = Settings.standard ∧
    s.registry = registry ∧ s.traffic.cache.tally = ⟨0, 1, 0, 0⟩ ∧
    (s.toSession.loadImage (view partly) request.source).result.isDone = false := by
  have idle : Runs (start opened) [] (start opened) := .zero
  have read := (idle.succ (.ask 0 (Source.file "a") none rfl)).succ
    (.read 0 (view content) rfl rfl)
  have entered := read.succ (.cache (.lookup 0 "a" content) ⟨_, rfl, rfl, rfl⟩
    (.lookup 0 "a" content rfl (Cache.lookup_none rfl)))
  have counted := entered.succ (.cache (.count 0) trivial (.count 0 rfl))
  have loaded := counted.succ (.cache (.load 0 (.done image)) ⟨_, _, rfl, rfl, rfl⟩
    (.load 0 (.done image) rfl))
  have published := (loaded.succ (.cache (.complete 0) trivial (.complete 0 rfl))).succ
    (.cache (.publish 0 0) trivial (.publish 0 rfl))
  have run := (published.succ (.cache (.answer 0) trivial (.leave 0 rfl))).succ
    (.answer 0 rfl rfl rfl rfl)
  refine ⟨_, run, ?_, rfl, rfl, rfl, by rfl⟩
  intro i flight key hUnder
  have hPending := (run.traffic.sound.pending key flight).mpr ⟨i, hUnder⟩
  have hMem : (key, Slot.pending flight) ∈ [(Key.of "a" content, Slot.ready ⟨0, image⟩)] :=
    Cache.mem_of_lookup hPending
  cases List.mem_singleton.mp hMem

end Mended

/-- The decoder goes down on what is there of the file; once the file is complete, it is loaded. -/
theorem failure_leaves_session_mended : ∃ s a flight, Runs (start Mended.opened) Mended.script s ∧
    s.Idle ∧ s.toSession.loadImage (Mended.view Mended.partly) Mended.request.source = a ∧
    a.result.isDone = false ∧ Session.Keeps s.toSession a.session ∧
    a.session.cache.tally = ⟨0, 2, 0, 1⟩ ∧
    (a.session.loadImage (Mended.view Mended.content) Mended.request.source).result =
      .done ⟨flight, Mended.image⟩ := by
  obtain ⟨s, run, idle, hSettings, hRegistry, hTally, hFailed⟩ := Mended.exists_runs
  have hRead : Mended.request.source.read (Mended.view Mended.partly) s.settings =
      .ok Mended.partly := by
    rw [hSettings]
    rfl
  have hAgain : Mended.request.source.read (Mended.view Mended.content) s.settings =
      .ok Mended.content := by
    rw [hSettings]
    rfl
  have hGood : (Decoding.run s.settings s.registry Mended.request.source.path Mended.content).1 =
      .done Mended.image := by
    rw [hSettings, hRegistry]
    rfl
  obtain ⟨-, hDecoded, hRetried, -⟩ :=
    failure_leaves_session run idle (Mended.view Mended.partly) Mended.request rfl
  obtain ⟨-, -, keeps, hCounted⟩ := hDecoded _ hRead hFailed
  obtain ⟨flight, hDone⟩ := ((hRetried hFailed _).2 _ hAgain).2 _ hGood
  rw [hTally] at hCounted
  exact ⟨s, _, flight, run, idle, rfl, hFailed, keeps, hCounted, hDone⟩

end Service

end ImagePlacement
