import ImagePlacement.Proofs.Session.Service

/-! The cache cannot be told from none. What is found in it, or comes from the load of another
request, has been decoded from equal content under equal settings, and decoding does not look at
the path. -/
namespace ImagePlacement

/-- No decoder is ever abandoned half-way. -/
def Registry.IsTotal (registry : Registry) : Prop :=
  ∀ entry ∈ registry.table, ∀ content reason, entry.2 content ≠ .aborted reason

theorem Registry.IsTotal.decode_ne_aborted {registry : Registry} (total : registry.IsTotal)
    (format : Format) (content : Bytes) (reason : String) :
    registry.decode format content ≠ .aborted reason := by
  unfold decode decoder?
  split
  · rename_i decoder hDecoder
    split at hDecoder
    · cases hDecoder
    · obtain ⟨before, after, hTable, _⟩ := List.lookup_eq_some_iff.mp hDecoder
      exact total (format, decoder) (by simp [hTable]) content reason
  · nofun

theorem Registry.builtin_isTotal : Registry.builtin.IsTotal := by
  intro entry hEntry content reason
  simp only [builtin, List.mem_cons, List.not_mem_nil, or_false] at hEntry
  rcases hEntry with rfl | rfl | rfl <;> exact Outcome.ofExcept_ne_aborted _ reason

namespace Decoding

variable {settings : Settings} {registry : Registry}

/-- The path is only noted: what comes out of decoding depends on the content alone. -/
theorem run_path (path other : String) (content : Bytes) :
    (run settings registry path content).1 = (run settings registry other content).1 := by
  simp only [run]
  split <;> rfl

theorem run_ne_aborted (total : registry.IsTotal) (path : String) (content : Bytes)
    (reason : String) : (run settings registry path content).1 ≠ .aborted reason := by
  intro h
  simp only [run] at h
  split at h
  · cases h
  · obtain hDecoded | ⟨image, -, hApproved⟩ := Outcome.bind_eq_aborted_iff.mp h
    · exact total.decode_ne_aborted _ _ _ (Outcome.mapError_eq_aborted_iff.mp hDecoded)
    · exact Outcome.ofExcept_ne_aborted _ reason hApproved

end Decoding

namespace Session

variable {settings : Settings} {registry : Registry} {session : Session}

theorem of_start (h : start settings registry = .ok session) :
    session.settings = settings ∧ session.registry = registry ∧ session.cache = .empty := by
  unfold start at h
  split at h
  · cases h
  · obtain rfl := Except.ok.inj h
    exact ⟨rfl, rfl, rfl⟩

/-- A session with an empty cache reads and decodes. -/
theorem image_of_empty (hEmpty : session.cache = .empty) {view : FileView} {source : Source}
    {content : Bytes} (hRead : source.read view session.settings = .ok content) :
    (session.loadImage view source).result.map Shared.image =
      (Decoding.run session.settings session.registry source.path content).1 := by
  have hNone : session.cache.slot? (Key.of source.path content) = none := by
    rw [hEmpty]
    rfl
  rw [result_of_own hRead hNone]
  cases (Decoding.run session.settings session.registry source.path content).1 <;> rfl

end Session

/-- Outcomes that a function makes equal are equal, or are values that it makes equal. -/
theorem Outcome.eq_or_done_of_map_eq {ε α β : Type} {f : α → β} {x y : Outcome ε α}
    (h : x.map f = y.map f) : x = y ∨ ∃ a b, x = .done a ∧ y = .done b ∧ f a = f b := by
  cases x with
  | done a => cases y <;> simp_all [map]
  | failed e => cases y <;> simp_all [map]
  | aborted reason => cases y <;> simp_all [map]

/-- What a caller can tell of the outcome depends on what can be told of the image. -/
theorem Frame.serve_congr (frame : Option Frame) {first second : Outcome LoadError Shared}
    (h : first.map Shared.image = second.map Shared.image) :
    (serve frame first).map Served.value = (serve frame second).map Served.value := by
  rcases Outcome.eq_or_done_of_map_eq h with rfl | ⟨⟨flight, image⟩, ⟨other, _⟩, rfl, rfl, rfl⟩
  · rfl
  · cases frame with
    | none => rfl
    | some frame =>
        simp only [serve, Outcome.bind, Session.box]
        split <;> rfl

namespace Service

variable {s : Service} {moves : List Move} {session : Session}

/-- Whoever loads for a key comes to what decoding its content comes to, under the settings that
everybody has. -/
theorem Runs.ending_eq (run : Runs (start session) moves s)
    (hKept : ∀ move ∈ moves, move.isConfigure = false) {i flight : Nat} {owner : Call}
    {ending : Ending} (h : s.traffic.calls i = some owner) (hOwn : owner.role = .own flight)
    (hEnding : owner.progress.ending? = some ending) {path : String} {content : Bytes}
    (hKey : owner.key = Key.of path content) :
    ending = (Decoding.run session.settings session.registry path content).1 := by
  have sound := run.sound
  obtain ⟨order, hOrder, _⟩ := sound.asked i owner h
  have hDecoded := sound.decoded i owner flight order ending h hOwn hOrder hEnding
  have hContent : owner.content = content := congrArg Key.content hKey
  rw [(run.settings hKept).2 i order hOrder, run.registry, hContent] at hDecoded
  rw [hDecoded, Decoding.run_path owner.path path]

/-- Whatever role the look-up gave it, a call returns what decoding comes to. -/
theorem Runs.image_of_returned (run : Runs (start session) moves s)
    (total : session.registry.IsTotal) (hKept : ∀ move ∈ moves, move.isConfigure = false)
    {i : Nat} {call : Call} {result : Outcome LoadError Shared}
    (h : s.traffic.calls i = some call) (hReturned : call.progress = .returned result) :
    result.map Shared.image =
      (Decoding.run session.settings session.registry call.path call.content).1 := by
  have hDue := run.traffic.sound.returned i call result h hReturned
  cases hRole : call.role with
  | hit image =>
      rw [hRole] at hDue
      obtain rfl : result = .done image := hDue
      obtain ⟨j, owner, hOwner, hOwn, hKey, hFiled⟩ :=
        run.traffic.traced.served run.traffic.sound h (Or.inl hRole)
      exact run.ending_eq hKept hOwner hOwn (Progress.ending?_of_filed? hFiled) hKey
  | wait flight =>
      obtain ⟨j, owner, ending, hOwner, hOwn, hKey, hPublished, _, rfl⟩ :=
        run.traffic.sound.returned_of_wait h hRole hReturned
      have hEnding := Progress.ending?_of_filed? (Progress.filed?_of_published? hPublished)
      have hDecoded := run.ending_eq hKept hOwner hOwn hEnding hKey
      cases ending with
      | done image => exact hDecoded
      | failed e => exact hDecoded
      | aborted reason => exact absurd hDecoded.symm (Decoding.run_ne_aborted total _ _ _)
  | own flight =>
      refine run.ending_eq hKept h hRole ?_ rfl
      rw [hReturned]
      rfl

/-- As long as decoders end and nobody replaces the settings, every request that has ended came to
what a session with an empty cache makes of it alone, with the files as this request saw them:
the same image and box, or the same error. -/
theorem transparent {settings : Settings} {registry : Registry}
    (fresh : Session.start settings registry = .ok session) (total : registry.IsTotal)
    (run : Runs (start session) moves s) (hKept : ∀ move ∈ moves, move.isConfigure = false)
    (i : Nat) (order : Order) (outcome : Outcome LoadError Served) (h : s.orders i = some order)
    (hOutcome : order.outcome = some outcome) :
    ∃ view, order.view = some view ∧
      outcome.map Served.value =
        (session.serve view order.source order.frame).map Served.value := by
  obtain ⟨_, rfl, hEmpty⟩ := Session.of_start fresh
  have hSettings := (run.settings hKept).2 i order h
  rcases run.sound.answered i order outcome h hOutcome with ⟨e, hRead, rfl⟩ |
    ⟨call, result, hCall, hReturned, rfl⟩
  · obtain ⟨view, hView, hRead⟩ := Option.map_eq_some_iff.mp hRead
    rw [hSettings] at hRead
    refine ⟨view, hView, ?_⟩
    rw [Session.serve_eq, Session.result_of_error hRead]
    cases order.frame <;> rfl
  · obtain ⟨asked, hAsked, hPath, hRead⟩ := run.sound.asked i call hCall
    rw [h, Option.some.injEq] at hAsked
    subst hAsked
    obtain ⟨view, hView, hRead⟩ := Option.map_eq_some_iff.mp hRead
    rw [hSettings] at hRead
    refine ⟨view, hView, ?_⟩
    rw [Session.serve_eq]
    apply Frame.serve_congr
    rw [Session.image_of_empty hEmpty hRead, run.image_of_returned total hKept hCall hReturned,
      hPath]

/-- A file and an inline image with the same content, under two spellings of a path, share a
flight; the one that waits is given what it would be given alone. -/
theorem transparent_coalesced : ∃ registry session s view image content outcome,
    Session.start Settings.standard registry = .ok session ∧
    Runs (start session) [.ask 0 (Source.file "a//b") none,
      .ask 1 (Source.embedded "a/b" content) none, .read 0 view, .read 1 view,
      .cache (.lookup 0 "a//b" content), .cache (.lookup 1 "a/b" content), .cache (.count 0),
      .cache (.count 1), .cache (.load 0 (.done image)), .cache (.complete 0),
      .cache (.publish 0 0), .cache (.answer 1), .answer 1] s ∧
    s.orders 1 = some ⟨Source.embedded "a/b" content, none, Settings.standard, some view,
      some outcome⟩ ∧
    outcome.map Served.value = .done (image, none) ∧
    outcome.map Served.value =
      (session.serve view (Source.embedded "a/b" content) none).map Served.value := by
  let image : Image := ⟨.png, 1.0, 1.0, .vector, by decide, by decide⟩
  let registry : Registry := ⟨[(.png, fun _ => .done image)]⟩
  let session : Session := ⟨Settings.standard, registry, .empty, Settings.standard_isValid⟩
  let content : Bytes := [0x89, 0x50, 0x4E, 0x47]
  let view : FileView := fun _ => .file content
  have total : registry.IsTotal := by
    intro entry hEntry content reason
    obtain rfl := List.mem_singleton.mp hEntry
    nofun
  have fresh : Session.start Settings.standard registry = .ok session := rfl
  have idle : Runs (start session) [] (start session) := .zero
  have asked := (idle.succ (.ask 0 (Source.file "a//b") none rfl)).succ
    (.ask 1 (Source.embedded "a/b" content) none rfl)
  have read := (asked.succ (.read 0 view rfl rfl)).succ (.read 1 view rfl rfl)
  have entered := (read.succ (.cache (.lookup 0 "a//b" content) ⟨_, rfl, rfl, rfl⟩
    (.lookup 0 "a//b" content rfl (Cache.lookup_none rfl)))).succ
    (.cache (.lookup 1 "a/b" content) ⟨_, rfl, rfl, rfl⟩
    (.lookup 1 "a/b" content rfl (Cache.lookup_pending rfl)))
  have counted := (entered.succ (.cache (.count 0) trivial (.count 0 rfl))).succ
    (.cache (.count 1) trivial (.count 1 rfl))
  have loaded := counted.succ (.cache (.load 0 (.done image)) ⟨_, _, rfl, rfl, rfl⟩
    (.load 0 (.done image) rfl))
  have published := (loaded.succ (.cache (.complete 0) trivial (.complete 0 rfl))).succ
    (.cache (.publish 0 0) trivial (.publish 0 rfl))
  have run := (published.succ (.cache (.answer 1) trivial (.wake 1 rfl rfl))).succ
    (.answer 1 rfl rfl rfl rfl)
  obtain ⟨_, hView, hSame⟩ := transparent fresh total run (by decide) 1 _ _ rfl rfl
  obtain rfl := Option.some.inj hView
  exact ⟨registry, session, _, view, image, content, _, fresh, run, rfl, rfl, hSame⟩

end Service

end ImagePlacement
