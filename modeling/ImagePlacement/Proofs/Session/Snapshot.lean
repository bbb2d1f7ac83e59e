import ImagePlacement.Proofs.Decoding
import ImagePlacement.Proofs.Reading
import ImagePlacement.Proofs.Session.Service

/-! Whose limits a request is refused for. A request reads and decodes under the settings of the
moment in which it was made. When it waits for the flight of another request, it is given what that
one came to, under settings that may have been replaced since. -/
namespace ImagePlacement

theorem Frame.serve_eq_failed {frame : Option Frame} {result : Outcome LoadError Shared}
    {e : LoadError} (h : serve frame result = .failed e) : result = .failed e := by
  cases result with
  | done image =>
      cases frame with
      | none => cases h
      | some frame =>
          simp only [serve, Outcome.bind, Session.box] at h
          split at h <;> cases h
  | failed error => cases frame <;> exact congrArg Outcome.failed (Outcome.failed.inj h)
  | aborted reason => cases frame <;> cases h

/-- A failure that comes out of a flight is the one its owner met, or stands for a load that was
abandoned. -/
theorem Cache.ending_of_failed {path : String} {flight : Nat} {ending : Ending} {e : LoadError}
    (h : Outcome.ofExcept (settlement path flight ending) = .failed e) :
    ending = .failed e ∨ ∃ reason, ending = .aborted reason ∧
      e = .internal ("decode of " ++ path ++ " panicked") := by
  cases ending with
  | done image => cases h
  | failed cause => exact Or.inl (congrArg Outcome.failed (Outcome.failed.inj h))
  | aborted reason => exact Or.inr ⟨reason, rfl, (Outcome.failed.inj h).symm⟩

/-- Whoever is given a failure has met it in a load of its own, or waits for one that has, or for
one that was abandoned. -/
theorem Traffic.Sound.owner_of_failed {s : Traffic} (sound : s.Sound) {i : Nat} {call : Call}
    {e : LoadError} (h : s.calls i = some call)
    (hReturned : call.progress = .returned (.failed e)) :
    ∃ j owner flight ending, s.calls j = some owner ∧ owner.role = .own flight ∧
      owner.key = call.key ∧ owner.progress.ending? = some ending ∧
      (j = i ∨ call.role = .wait flight) ∧ (ending = .failed e ∨
        ∃ reason, ending = .aborted reason ∧
          e = .internal ("decode of " ++ owner.path ++ " panicked")) := by
  cases hRole : call.role with
  | hit image =>
      have hDue := sound.returned i call _ h hReturned
      rw [hRole] at hDue
      cases (hDue : Outcome.failed _ = Outcome.done image)
  | own flight =>
      refine ⟨i, call, flight, .failed e, h, hRole, rfl, ?_, Or.inl rfl, Or.inl rfl⟩
      rw [hReturned]
      rfl
  | wait flight =>
      obtain ⟨j, owner, ending, hOwner, hOwn, hKey, hPublished, _, hGiven⟩ :=
        sound.returned_of_wait h hRole hReturned
      exact ⟨j, owner, flight, ending, hOwner, hOwn, hKey,
        Progress.ending?_of_filed? (Progress.filed?_of_published? hPublished), Or.inr rfl,
        Cache.ending_of_failed hGiven.symm⟩

/-- Whoever is refused for a limit has met it in a load of its own, or waits for one that has. -/
theorem Traffic.Sound.owner_of_overLimit {s : Traffic} (sound : s.Sound) {i : Nat} {call : Call}
    {reason : String} (h : s.calls i = some call)
    (hReturned : call.progress = .returned (.failed (.overLimit reason))) :
    ∃ j owner flight, s.calls j = some owner ∧ owner.role = .own flight ∧ owner.key = call.key ∧
      owner.progress.ending? = some (.failed (.overLimit reason)) ∧
      (j = i ∨ call.role = .wait flight) := by
  obtain ⟨j, owner, flight, ending, hOwner, hOwn, hKey, hEnding, hCause, rfl | ⟨_, _, hOther⟩⟩ :=
    sound.owner_of_failed h hReturned
  · exact ⟨j, owner, flight, hOwner, hOwn, hKey, hEnding, hCause⟩
  · cases hOther

namespace Order

variable {order : Order} {registry : Registry} {content : Bytes} {size : PixelSize}

/-- The bytes that a request has found, before any limit is asked about. -/
def bytes? (order : Order) : Option Bytes := order.view.bind fun view => order.source.bytes? view

/-- The source of a request is longer than the settings that it was made under let it be, by what
the request is told of it or by the bytes that it finds. -/
def TooLong (order : Order) : Prop :=
  ∃ view, order.view = some view ∧ order.source.IsTooLong view order.settings

/-- A limit of the settings that the request was made under is exceeded, by the source or by a size
that is found for its bytes. -/
def Exceeds (registry : Registry) (order : Order) : Prop :=
  order.TooLong ∨ ∃ content size, order.bytes? = some content ∧
    Decoding.Finds registry content size ∧ ¬ order.settings.Admits size

theorem bytes?_of_read? (h : order.read? = some (.ok content)) :
    order.bytes? = some content := by
  obtain ⟨view, hView, hRead⟩ := Option.map_eq_some_iff.mp h
  rw [bytes?, hView]
  exact (Source.read_eq_ok_iff.mp hRead).1

theorem not_tooLong_of_read? (h : order.read? = some (.ok content)) : ¬ order.TooLong := by
  obtain ⟨view, hView, hRead⟩ := Option.map_eq_some_iff.mp h
  rintro ⟨seen, hSeen, hLong⟩
  obtain rfl := Option.some.inj (hView.symm.trans hSeen)
  exact (Source.read_eq_ok_iff.mp hRead).2 hLong

theorem exceeds_of_finds (hRead : order.read? = some (.ok content))
    (hFound : Decoding.Finds registry content size) (hRefused : ¬ order.settings.Admits size) :
    order.Exceeds registry :=
  Or.inr ⟨content, size, bytes?_of_read? hRead, hFound, hRefused⟩

theorem exceeds_of_read? {reason : String} (h : order.read? = some (.error (.overLimit reason))) :
    order.Exceeds registry := by
  obtain ⟨view, hView, hRead⟩ := Option.map_eq_some_iff.mp h
  exact Or.inl ⟨view, hView, Source.isTooLong_of_read_overLimit hRead⟩

end Order

namespace Service

variable {s : Service} {moves : List Move} {session : Session}

/-- An owner whose load ends with a limit has found a size that its own settings refuse. -/
theorem Runs.finds_of_overLimit (run : Runs (start session) moves s) {i flight : Nat} {call : Call}
    {reason : String} (h : s.traffic.calls i = some call) (hOwn : call.role = .own flight)
    (hEnding : call.progress.ending? = some (.failed (.overLimit reason))) :
    ∃ order size, s.orders i = some order ∧ order.read? = some (.ok call.content) ∧
      Decoding.Finds session.registry call.content size ∧ ¬ order.settings.Admits size := by
  obtain ⟨order, hOrder, _, hRead⟩ := run.sound.asked i call h
  have hDecoded := run.sound.decoded i call flight order _ h hOwn hOrder hEnding
  rw [run.registry] at hDecoded
  obtain ⟨size, hFound, hRefused⟩ := Decoding.run_overLimit_iff.mp ⟨reason, hDecoded.symm⟩
  exact ⟨order, size, hOrder, hRead, hFound, hRefused⟩

/-! The limits are raised between two requests for the same file -/
namespace Raised

/-- Settings that admit a single pixel. -/
def narrow : Settings := { Settings.standard with maxPixels := 1 }

/-- An image of two pixels. -/
def image : Image := ⟨.png, 2.0, 1.0, .raster ⟨2, 1⟩ none, by decide, by decide⟩

def content : Bytes := [0x89, 0x50, 0x4E, 0x47]

def view : FileView := fun _ => .file content

def opened : Session := ⟨narrow, ⟨[(.png, fun _ => .done image)]⟩, .empty, by decide⟩

/-- The second request is made after the settings have been replaced, and finds the load of the
first one under way. -/
def script (reason : String) : List Move :=
  [.ask 0 (Source.file "a") none, .configure Settings.standard, .ask 1 (Source.file "a") none,
    .read 0 view, .read 1 view, .cache (.lookup 0 "a" content), .cache (.lookup 1 "a" content),
    .cache (.count 0), .cache (.count 1), .cache (.load 0 (.failed (.overLimit reason))),
    .cache (.complete 0), .cache (.publish 0 0), .cache (.answer 1), .answer 1]

/-- The second request, as it ends. -/
def refused (reason : String) : Order :=
  ⟨Source.file "a", none, Settings.standard, some view, some (.failed (.overLimit reason))⟩

theorem finds_iff {size : PixelSize} :
    Decoding.Finds opened.registry content size ↔ size = ⟨2, 1⟩ := by
  have hHeader : Decoding.headerSize? (Signature.sniff content) content = none := rfl
  have hDecoded : opened.registry.decode (Signature.sniff content) content = .done image := rfl
  have hSize : image.pixelSize? = some ⟨2, 1⟩ := rfl
  simp [Decoding.Finds, hHeader, hDecoded, hSize, eq_comm]

theorem exists_runs : ∃ s reason, Runs (start opened) (script reason) s ∧
    s.orders 1 = some (refused reason) := by
  obtain ⟨reason, hLoad⟩ : ∃ reason,
      (Decoding.run narrow opened.registry "a" content).1 = .failed (.overLimit reason) :=
    Decoding.run_overLimit_iff.mpr ⟨⟨2, 1⟩, finds_iff.mpr rfl, by decide⟩
  have idle : Runs (start opened) [] (start opened) := .zero
  have asked := ((idle.succ (.ask 0 (Source.file "a") none rfl)).succ
    (.configure Settings.standard Settings.standard_isValid)).succ
    (.ask 1 (Source.file "a") none rfl)
  have read := (asked.succ (.read 0 view rfl rfl)).succ (.read 1 view rfl rfl)
  have entered := (read.succ (.cache (.lookup 0 "a" content) ⟨_, rfl, rfl, rfl⟩
    (.lookup 0 "a" content rfl (Cache.lookup_none rfl)))).succ
    (.cache (.lookup 1 "a" content) ⟨_, rfl, rfl, rfl⟩
    (.lookup 1 "a" content rfl (Cache.lookup_pending rfl)))
  have counted := (entered.succ (.cache (.count 0) trivial (.count 0 rfl))).succ
    (.cache (.count 1) trivial (.count 1 rfl))
  have loaded := counted.succ (.cache (.load 0 (.failed (.overLimit reason)))
    ⟨_, _, rfl, rfl, hLoad.symm⟩ (.load 0 _ rfl))
  have published := (loaded.succ (.cache (.complete 0) trivial (.complete 0 rfl))).succ
    (.cache (.publish 0 0) trivial (.publish 0 rfl))
  have run := (published.succ (.cache (.answer 1) trivial (.wake 1 rfl rfl))).succ
    (.answer 1 rfl rfl rfl rfl)
  exact ⟨_, reason, run, rfl⟩

/-- The settings that the second request is made under admit all that it finds. -/
theorem not_exceeds (reason : String) : ¬ (refused reason).Exceeds opened.registry := by
  have hRead : (refused reason).read? = some (.ok content) := rfl
  rintro (hLong | ⟨found, size, hFound, hSize, hRefused⟩)
  · exact Order.not_tooLong_of_read? hRead hLong
  · obtain rfl := Option.some.inj ((Order.bytes?_of_read? hRead).symm.trans hFound)
    obtain rfl := finds_iff.mp hSize
    exact hRefused (show Settings.standard.Admits ⟨2, 1⟩ by decide)

end Raised

/-! Whose limit it is -/

/-- However requests and replacements of the settings come between each other, a request that is
refused for a limit exceeds one of the settings that it was made under; or else it has waited for
the flight of a request with the same content that was made under other settings, and which
exceeds one of those. -/
theorem own_limit_or_owner_limit (run : Runs (start session) moves s) (i : Nat) (order : Order)
    (reason : String) (h : s.orders i = some order)
    (hOutcome : order.outcome = some (.failed (.overLimit reason))) :
    order.Exceeds session.registry ∨
    ∃ call flight j owner other, s.traffic.calls i = some call ∧ call.role = .wait flight ∧
      s.traffic.calls j = some owner ∧ owner.role = .own flight ∧ owner.key = call.key ∧
      s.orders j = some other ∧ other.bytes? = order.bytes? ∧ other.settings ≠ order.settings ∧
      other.Exceeds session.registry := by
  rcases run.sound.answered i order _ h hOutcome with ⟨e, hRead, hFailed⟩ |
    ⟨call, result, hCall, hReturned, hServed⟩
  · obtain rfl := Outcome.failed.inj hFailed
    exact Or.inl (Order.exceeds_of_read? hRead)
  · obtain rfl := Frame.serve_eq_failed hServed.symm
    obtain ⟨asked, hAsked, _, hRead⟩ := run.sound.asked i call hCall
    rw [h, Option.some.injEq] at hAsked
    subst hAsked
    obtain ⟨j, owner, flight, hOwner, hOwn, hKey, hEnding, hCause⟩ :=
      run.traffic.sound.owner_of_overLimit hCall hReturned
    obtain ⟨other, size, hOther, hOtherRead, hFound, hRefused⟩ :=
      run.finds_of_overLimit hOwner hOwn hEnding
    have hContent : owner.content = call.content := congrArg Key.content hKey
    by_cases hSettings : other.settings = order.settings
    · rw [hSettings] at hRefused
      rw [hContent] at hFound
      exact Or.inl (Order.exceeds_of_finds hRead hFound hRefused)
    · have hWait : call.role = .wait flight := by
        refine hCause.resolve_left ?_
        rintro rfl
        rw [h, Option.some.injEq] at hOther
        exact hSettings (congrArg Order.settings hOther.symm)
      refine Or.inr ⟨call, flight, j, owner, other, hCall, hWait, hOwner, hOwn, hKey, hOther, ?_,
        hSettings, Order.exceeds_of_finds hOtherRead hFound hRefused⟩
      rw [Order.bytes?_of_read? hOtherRead, Order.bytes?_of_read? hRead, hContent]

/-- A request to load an image may be refused although it exceeds no limit of the settings that it
was made under. -/
theorem not_own_limit_only : ¬ ∀ settings registry session moves s i order reason,
    Session.start settings registry = .ok session → Runs (start session) moves s →
    s.orders i = some order → order.frame = none →
    order.outcome = some (.failed (.overLimit reason)) → order.Exceeds registry := by
  intro hClaim
  obtain ⟨s, reason, run, hOrder⟩ := Raised.exists_runs
  exact Raised.not_exceeds reason
    (hClaim Raised.narrow _ Raised.opened _ s 1 _ reason rfl run hOrder rfl rfl)

/-- The request that waits in this run is refused for a limit of the settings that its owner has. -/
theorem own_limit_or_owner_limit_raised : ∃ s reason call flight j owner other,
    Runs (start Raised.opened) (Raised.script reason) s ∧
    s.orders 1 = some (Raised.refused reason) ∧
    (Raised.refused reason).outcome = some (.failed (.overLimit reason)) ∧
    s.traffic.calls 1 = some call ∧ call.role = .wait flight ∧
    s.traffic.calls j = some owner ∧ owner.role = .own flight ∧
    s.orders j = some other ∧ other.settings ≠ Settings.standard ∧
    other.Exceeds Raised.opened.registry := by
  obtain ⟨s, reason, run, hOrder⟩ := Raised.exists_runs
  obtain hOwn | hShared := own_limit_or_owner_limit run 1 _ reason hOrder rfl
  · exact absurd hOwn (Raised.not_exceeds reason)
  · obtain ⟨call, flight, j, owner, other, hCall, hWait, hOwner, hOwn, _, hOther, _, hSettings,
      hExceeds⟩ := hShared
    exact ⟨s, reason, call, flight, j, owner, other, run, hOrder, rfl, hCall, hWait, hOwner, hOwn,
      hOther, hSettings, hExceeds⟩

end Service

end ImagePlacement
