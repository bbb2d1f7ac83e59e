import ImagePlacement.Proofs.Decoding
import ImagePlacement.Proofs.Reading
import ImagePlacement.Proofs.Session.Service

/-! The limits of a session hold for all images that it hands out. Whoever loads an image checks it
under the settings of its request; as long as nobody replaces them, these are the settings of
everybody who is given the image later. -/
namespace ImagePlacement

/-- A request that is served has an image, whatever box it was placed in. -/
theorem Frame.serve_eq_done {frame : Option Frame} {result : Outcome LoadError Shared}
    {served : Served} (h : serve frame result = .done served) : result = .done served.image := by
  cases result with
  | done image =>
      cases frame with
      | none =>
          obtain rfl := Outcome.done.inj h
          rfl
      | some frame =>
          simp only [serve, Outcome.bind, Session.box] at h
          split at h
          · obtain rfl := Outcome.done.inj h
            rfl
          · cases h
  | failed e => cases frame <;> cases h
  | aborted reason => cases frame <;> cases h

namespace Service

variable {s : Service} {moves : List Move} {session : Session}

/-- As long as nobody replaces the settings, an image that has been loaded for a key comes out of
decoding the content of the key under them. -/
theorem Runs.run_of_loaded (run : Runs (start session) moves s)
    (hKept : ∀ move ∈ moves, move.isConfigure = false) {i : Nat} {key : Key} {image : Shared}
    (hLoaded : s.traffic.Loaded i key image) :
    ∃ path, (Decoding.run session.settings session.registry path key.content).1 =
      .done image.image := by
  obtain ⟨owner, hOwner, hOwn, hKey, hFiled⟩ := hLoaded
  obtain ⟨order, hOrder, _⟩ := run.sound.asked i owner hOwner
  have hDecoded := run.sound.decoded i owner image.flight order _ hOwner hOwn hOrder
    (Progress.ending?_of_filed? hFiled)
  rw [(run.settings hKept).2 i order hOrder, run.registry] at hDecoded
  rw [← hKey]
  exact ⟨owner.path, hDecoded.symm⟩

/-! One load serves the request that made it, one that waits for it and one that finds its image in
the cache. -/
namespace Thrice

/-- An image that takes all bytes of a session that admits nothing larger. -/
def image : Image := ⟨.png, 1024.0, 256.0, .raster ⟨1024, 256⟩ none, by decide, by decide⟩

/-- A content without a header: the size of the image is the decoder's word alone. -/
def content : Bytes := [0x89, 0x50, 0x4E, 0x47]

def opened : Session :=
  ⟨⟨4, 262144, 1048576, false⟩, ⟨[(.png, fun _ => .done image)]⟩, .empty, by decide⟩

def source : Source := Source.embedded "a" content

def view : FileView := fun _ => .absent .missing

def script : List Move :=
  [.ask 0 source none, .ask 1 source none, .ask 2 source none, .read 0 view, .read 1 view,
    .read 2 view, .cache (.lookup 0 "a" content), .cache (.lookup 1 "a" content),
    .cache (.count 0), .cache (.count 1), .cache (.load 0 (.done image)), .cache (.complete 0),
    .cache (.publish 0 0), .cache (.answer 0), .cache (.answer 1),
    .cache (.lookup 2 "a" content), .cache (.count 2), .cache (.answer 2), .answer 0, .answer 1,
    .answer 2]

/-- Each of the requests, as it ends. -/
def order : Order :=
  ⟨source, none, opened.settings, some view, some (.done ⟨⟨0, image⟩, none⟩)⟩

theorem run_eq : (Decoding.run opened.settings opened.registry "a" content).1 = .done image := rfl

theorem exists_runs : ∃ s, Runs (start opened) script s ∧ ∀ i < 3, s.orders i = some order := by
  have idle : Runs (start opened) [] (start opened) := .zero
  have asked := ((idle.succ (.ask 0 source none rfl)).succ (.ask 1 source none rfl)).succ
    (.ask 2 source none rfl)
  have read := ((asked.succ (.read 0 view rfl rfl)).succ (.read 1 view rfl rfl)).succ
    (.read 2 view rfl rfl)
  have entered := (read.succ (.cache (.lookup 0 "a" content) ⟨_, rfl, rfl, rfl⟩
    (.lookup 0 "a" content rfl (Cache.lookup_none rfl)))).succ
    (.cache (.lookup 1 "a" content) ⟨_, rfl, rfl, rfl⟩
    (.lookup 1 "a" content rfl (Cache.lookup_pending rfl)))
  have counted := (entered.succ (.cache (.count 0) trivial (.count 0 rfl))).succ
    (.cache (.count 1) trivial (.count 1 rfl))
  have loaded := counted.succ (.cache (.load 0 (.done image)) ⟨_, _, rfl, rfl, run_eq.symm⟩
    (.load 0 (.done image) rfl))
  have published := (loaded.succ (.cache (.complete 0) trivial (.complete 0 rfl))).succ
    (.cache (.publish 0 0) trivial (.publish 0 rfl))
  have left := (published.succ (.cache (.answer 0) trivial (.leave 0 rfl))).succ
    (.cache (.answer 1) trivial (.wake 1 rfl rfl))
  have found := ((left.succ (.cache (.lookup 2 "a" content) ⟨_, rfl, rfl, rfl⟩
    (.lookup 2 "a" content rfl (Cache.lookup_ready rfl)))).succ
    (.cache (.count 2) trivial (.count 2 rfl))).succ (.cache (.answer 2) trivial (.take 2 rfl))
  have run := ((found.succ (.answer 0 rfl rfl rfl rfl)).succ (.answer 1 rfl rfl rfl rfl)).succ
    (.answer 2 rfl rfl rfl rfl)
  refine ⟨_, run, ?_⟩
  intro i hi
  match i, hi with
  | 0, _ | 1, _ | 2, _ => rfl

end Thrice

/-- With any decoders, and as long as nobody replaces the settings, every image that a request is
given has been decoded from the bytes that the request has read, which are not too many, and its
pixels, if it has any, exceed no limit. The checks for this refuse nothing else, and no number of
pixels overflows. -/
theorem within_limits (run : Runs (start session) moves s)
    (hKept : ∀ move ∈ moves, move.isConfigure = false) :
    (∀ i order served, s.orders i = some order → order.outcome = some (.done served) →
      ∃ content, order.read? = some (.ok content) ∧
        content.length ≤ session.settings.maxFileSize.toNat ∧
        session.registry.decode (Signature.sniff content) content = .done served.image.image ∧
        ∀ size, served.image.image.pixelSize? = some size →
          size.width.toNat * size.height.toNat ≤ session.settings.maxPixels.toNat ∧
          4 * (size.width.toNat * size.height.toNat) ≤ session.settings.maxDecodedBytes.toNat) ∧
    ∀ (settings : Settings) (size : PixelSize),
      (settings.checkPixels size = .ok () ↔
        size.width.toNat * size.height.toNat ≤ settings.maxPixels.toNat) ∧
      (settings.checkMemory size = .ok () ↔
        4 * (size.width.toNat * size.height.toNat) ≤ settings.maxDecodedBytes.toNat) ∧
      settings.checkPixels size ≠ .error (.overLimit "pixel count overflow") := by
  refine ⟨?_, fun settings size => ⟨Settings.checkPixels_eq_ok_iff, Settings.checkMemory_eq_ok_iff,
    Settings.checkPixels_ne_overflow⟩⟩
  intro i order served h hOutcome
  rcases run.sound.answered i order _ h hOutcome with ⟨e, _, hFailed⟩ |
    ⟨call, result, hCall, hReturned, hServed⟩
  · cases hFailed
  · obtain rfl := Frame.serve_eq_done hServed.symm
    obtain ⟨asked, hAsked, _, hRead⟩ := run.sound.asked i call hCall
    rw [h, Option.some.injEq] at hAsked
    subst hAsked
    obtain ⟨j, hLoaded⟩ :=
      run.traffic.traced.served run.traffic.sound hCall (Or.inr hReturned)
    obtain ⟨path, hRun⟩ := run.run_of_loaded hKept hLoaded
    obtain ⟨view, _, hSource⟩ := Option.map_eq_some_iff.mp hRead
    rw [(run.settings hKept).2 i order h] at hSource
    exact ⟨call.content, hRead, Source.length_of_read hSource,
      (Decoding.run_eq_done_iff.mp hRun).2.1, fun size => Decoding.admits_of_run hRun⟩

/-- The image of the three requests is as large as the settings let it be. -/
theorem within_limits_thrice : ∃ s, Runs (start Thrice.opened) Thrice.script s ∧
    ∀ i < 3, s.orders i = some Thrice.order ∧
      Thrice.content.length ≤ Thrice.opened.settings.maxFileSize.toNat ∧
      1024 * 256 ≤ Thrice.opened.settings.maxPixels.toNat ∧
      4 * (1024 * 256) ≤ Thrice.opened.settings.maxDecodedBytes.toNat := by
  obtain ⟨s, run, hServed⟩ := Thrice.exists_runs
  refine ⟨s, run, fun i hi => ?_⟩
  obtain ⟨within, _⟩ := within_limits run (by simp [Thrice.script, Move.isConfigure])
  obtain ⟨content, hRead, hLength, _, hSize⟩ := within i Thrice.order _ (hServed i hi) rfl
  obtain rfl : Thrice.content = content := Except.ok.inj (Option.some.inj hRead)
  obtain ⟨hPixels, hBytes⟩ := hSize ⟨1024, 256⟩ rfl
  exact ⟨hServed i hi, hLength, hPixels, hBytes⟩

end Service

end ImagePlacement
