import ImagePlacement.Proofs.Session.Snapshot
import ImagePlacement.Proofs.Session.Transparency

/-! The stage that is reported for a failure. It goes by the kind of the error alone. Content that
is too long is refused while it is read, with an error of the kind that decoding has for its limits,
so it is reported as a failure of decoding. -/
namespace ImagePlacement

/-- The failure that an event notes, with the path of the image. -/
def Event.failure? : Event → Option (String × LoadError)
  | loadFailed path e => some (path, e)
  | _ => none

namespace Decoding

variable {settings : Settings} {registry : Registry} {path : String} {content : Bytes}
  {image : Image} {e : LoadError}

theorem stage_of_checkRaster {found : Option PixelSize}
    (h : settings.checkRaster found = .error e) : e.stage = .decode := by
  obtain ⟨⟨reason, rfl⟩, _⟩ := Settings.checkRaster_eq_error h
  rfl

/-- Whatever decoding fails for, it is reported as a failure of decoding. -/
theorem stage_of_run (h : (run settings registry path content).1 = .failed e) :
    e.stage = .decode := by
  cases hHeader : settings.checkRaster (headerSize? (Signature.sniff content) content) with
  | error limit =>
      rw [run_of_error hHeader] at h
      obtain rfl := Outcome.failed.inj h
      exact stage_of_checkRaster hHeader
  | ok _ =>
      rw [run_of_ok hHeader] at h
      obtain hDecoded | ⟨image, -, hApproved⟩ := Outcome.bind_eq_failed_iff.mp h
      · obtain ⟨cause, -, rfl⟩ := Outcome.mapError_eq_failed_iff.mp hDecoded
        rfl
      · cases hImage : settings.checkRaster image.pixelSize? with
        | ok _ =>
            rw [approve_of_ok hImage] at hApproved
            cases hApproved
        | error limit =>
            rw [approve_of_error hImage] at hApproved
            obtain rfl := Outcome.failed.inj hApproved
            exact stage_of_checkRaster hImage

/-- What decoding notes is no failure; that is left to whoever asked for the image. -/
theorem failure?_of_run : (run settings registry path content).2.filterMap Event.failure? = [] := by
  have hMismatch (format : Format) :
      (mismatch settings path format).filterMap Event.failure? = [] := by
    unfold mismatch
    dsimp only
    split <;> rfl
  simp only [run]
  split
  · exact hMismatch _
  · dsimp only
    split
    · rw [List.filterMap_append, hMismatch]
      rfl
    · exact hMismatch _

end Decoding

namespace Session

variable {session : Session} {view : FileView} {source : Source} {e : LoadError}

/-- A load that fails notes its error, once. -/
theorem failure?_of_loadImage (h : (session.loadImage view source).result = .failed e) :
    (session.loadImage view source).events.filterMap Event.failure? = [(source.path, e)] := by
  unfold loadImage at h ⊢
  split at h
  case h_1 error hRead =>
    obtain rfl := Outcome.failed.inj h
    rfl
  case h_2 content hRead =>
    have hNothing : (session.obtain source.path content).events.filterMap Event.failure? = [] := by
      unfold obtain
      split
      · rfl
      · rfl
      · exact Decoding.failure?_of_run
    change (session.obtain source.path content).result = .failed e at h
    rw [List.filterMap_append, hNothing, h]
    rfl

/-- A placement fails with its load, and the diagnostic keeps the error of that. -/
theorem loadImage_of_place {request : Request} {d : Diagnostic}
    (h : (session.place view request).result = .failed d) :
    (session.loadImage view request.source).result = .failed d.error ∧
      d = Diagnostic.of d.error request.source.path request.origin := by
  obtain ⟨e, hLoad, rfl⟩ := Outcome.mapError_eq_failed_iff.mp h
  obtain hFailed | ⟨image, -, hBox⟩ := Outcome.bind_eq_failed_iff.mp hLoad
  · exact ⟨hFailed, rfl⟩
  · unfold Session.box at hBox
    split at hBox <;> cases hBox

end Session

/-- The stage in which a request has failed. -/
inductive Order.FailsIn (s : Service) (order : Order) (e : LoadError) : Stage → Prop where
  | read (h : order.read? = some (.error e)) : FailsIn s order e .read
  /-- What has been read was decoded, by this request or by one that it has waited for. -/
  | decode {i : Nat} {owner : Order} {content : Bytes} (hOwner : s.orders i = some owner)
      (hRead : order.read? = some (.ok content))
      (h : (Decoding.run owner.settings s.registry order.source.path content).1 = .failed e) :
      FailsIn s order e .decode
  /-- A decoder was abandoned while this request waited for it. -/
  | cache {i : Nat} {owner : Order} {content : Bytes} {reason : String}
      (hOwner : s.orders i = some owner) (hRead : order.read? = some (.ok content))
      (h : (Decoding.run owner.settings s.registry order.source.path content).1 =
        .aborted reason) : FailsIn s order e .cache

/-- What a failed read reports. -/
theorem Order.stage_of_read? {order : Order} {e : LoadError}
    (h : order.read? = some (.error e)) :
    (order.TooLong → e.stage = .decode) ∧ (¬ order.TooLong → e.stage = .read) := by
  obtain ⟨view, hView, hRead⟩ := Option.map_eq_some_iff.mp h
  have hLong : order.TooLong ↔ order.source.IsTooLong view order.settings := by
    simp [TooLong, hView]
  rw [hLong]
  exact Source.stage_of_read hRead

namespace Service

variable {s : Service} {moves : List Move} {session : Session}

/-- A request that has read its source fails with the decoding of what it has read, or waits for one
that is abandoned; both are reported as what they are. -/
theorem Runs.failsIn_of_returned (run : Runs (start session) moves s) {i : Nat} {call : Call}
    {order : Order} {e : LoadError} (h : s.orders i = some order)
    (hCall : s.traffic.calls i = some call) (hReturned : call.progress = .returned (.failed e)) :
    order.FailsIn s e e.stage ∧ ∃ content, order.read? = some (.ok content) := by
  obtain ⟨asked, hAsked, hPath, hRead⟩ := run.sound.asked i call hCall
  rw [h, Option.some.injEq] at hAsked
  subst hAsked
  obtain ⟨j, owner, flight, ending, hOwner, hOwn, hKey, hEnding, -, hCause⟩ :=
    run.traffic.sound.owner_of_failed hCall hReturned
  obtain ⟨other, hOther, -⟩ := run.sound.asked j owner hOwner
  have hContent : owner.content = call.content := congrArg Key.content hKey
  have hRun : (Decoding.run other.settings s.registry order.source.path call.content).1 =
      ending := by
    rw [run.sound.decoded j owner flight other ending hOwner hOwn hOther hEnding, hContent]
    exact Decoding.run_path ..
  refine ⟨?_, call.content, hRead⟩
  rcases hCause with rfl | ⟨reason, rfl, rfl⟩
  · rw [Decoding.stage_of_run hRun]
    exact .decode hOther hRead hRun
  · exact .cache hOther hRead hRun

/-! A file of two bytes where one is allowed -/
namespace TooLong

def settings : Settings := { Settings.standard with maxFileSize := 1 }

def content : Bytes := [0x89, 0x50]

def source : Source := Source.file "a"

def view : FileView := fun _ => .file content

def opened : Session := ⟨settings, Registry.builtin, .empty, by decide⟩

theorem isTooLong : source.IsTooLong view settings :=
  PathView.isTooLong_file_iff.mpr (by decide)

theorem exists_read : ∃ e, source.read view settings = .error e := ⟨_, rfl⟩

end TooLong

/-- Every failed request reports the stage in which it has failed, unless its source is too long:
then it has failed in reading and reports decoding. What a load notes of its failure, and what a
placement tells in its diagnostic, is the error that the load has ended with. -/
theorem stage_unless_too_long (run : Runs (start session) moves s) :
    (∀ i order e, s.orders i = some order → order.outcome = some (.failed e) →
      ∃ stage, order.FailsIn s e stage ∧ (¬ order.TooLong → e.stage = stage) ∧
        (order.TooLong → stage = .read ∧ e.stage = .decode)) ∧
    ∀ view request,
      (∀ e, (s.toSession.loadImage view request.source).result = .failed e →
        (s.toSession.loadImage view request.source).events.filterMap Event.failure? =
          [(request.source.path, e)]) ∧
      ∀ d, (s.toSession.place view request).result = .failed d →
        (s.toSession.loadImage view request.source).result = .failed d.error ∧
          d = Diagnostic.of d.error request.source.path request.origin := by
  refine ⟨?_, fun view request => ⟨fun e h => Session.failure?_of_loadImage h,
    fun d h => Session.loadImage_of_place h⟩⟩
  intro i order e h hOutcome
  rcases run.sound.answered i order _ h hOutcome with ⟨cause, hRead, hFailed⟩ |
    ⟨call, result, hCall, hReturned, hServed⟩
  · obtain rfl := Outcome.failed.inj hFailed
    obtain ⟨hLong, hFits⟩ := Order.stage_of_read? hRead
    exact ⟨.read, .read hRead, hFits, fun h => ⟨rfl, hLong h⟩⟩
  · obtain rfl := Frame.serve_eq_failed hServed.symm
    obtain ⟨fails, content, hRead⟩ := run.failsIn_of_returned h hCall hReturned
    have hFits : ¬ order.TooLong := Order.not_tooLong_of_read? hRead
    exact ⟨e.stage, fails, fun _ => rfl, fun hLong => absurd hLong hFits⟩

/-- A load may fail in reading and report another stage. -/
theorem not_stage_of_read : ¬ ∀ (session : Session) (view : FileView) (source : Source)
    (e : LoadError), source.read view session.settings = .error e →
      (session.loadImage view source).result = .failed e → e.stage = .read := by
  intro hClaim
  obtain ⟨e, hRead⟩ := TooLong.exists_read
  have hStage := hClaim TooLong.opened TooLong.view TooLong.source e hRead
    (Session.result_of_error hRead)
  have hDecode : e.stage = .decode := (Source.stage_of_read hRead).1 TooLong.isTooLong
  rw [hDecode] at hStage
  cases hStage

/-- A request for this file fails in reading and reports decoding. -/
theorem stage_unless_too_long_refused : ∃ s order e,
    Runs (start TooLong.opened)
      [.ask 0 TooLong.source none, .read 0 TooLong.view, .answer 0] s ∧
    s.orders 0 = some order ∧ order.outcome = some (.failed e) ∧ order.TooLong ∧
    order.FailsIn s e .read ∧ e.stage = .decode := by
  obtain ⟨e, hRead⟩ := TooLong.exists_read
  have idle : Runs (start TooLong.opened) [] (start TooLong.opened) := .zero
  have read := (idle.succ (.ask 0 TooLong.source none rfl)).succ (.read 0 TooLong.view rfl rfl)
  have run := read.succ (.refuse 0 rfl rfl (congrArg some hRead))
  have hLong : Order.TooLong ⟨TooLong.source, none, TooLong.settings, some TooLong.view,
      some (.failed e)⟩ := ⟨TooLong.view, rfl, TooLong.isTooLong⟩
  obtain ⟨stage, fails, -, hStages⟩ := (stage_unless_too_long run).1 0 _ e rfl rfl
  obtain ⟨rfl, hDecode⟩ := hStages hLong
  exact ⟨_, _, e, run, rfl, rfl, hLong, fails, hDecode⟩

end Service

end ImagePlacement
