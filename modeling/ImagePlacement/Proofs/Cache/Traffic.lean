import ImagePlacement.Proofs.Cache.View

/-! A cache that many callers use at once. Every step is taken at once, as a lock or an atomic
counter makes it; between two steps of one caller others may take any number of theirs. A load
may end in any way and at any time, or never; it does not call the cache itself. -/
namespace ImagePlacement

/-- How far a call for an image has come. -/
inductive Progress where
  /-- The key has been looked up. -/
  | entered
  /-- The look-up has been counted: a caller with an image is about to return, one who waits is
  waiting, and an owner is loading. -/
  | counted
  /-- The load of an owner has ended. -/
  | loaded (ending : Ending)
  /-- An owner has filed the result, or emptied the slot. -/
  | filed (ending : Ending)
  /-- An owner has handed the result to those who wait. -/
  | published (ending : Ending)
  | returned (result : Outcome LoadError Shared)

/-- A call for the image of content found at a path. -/
structure Call where
  path : String
  content : Bytes
  role : Role
  progress : Progress

/-- One number of the statistics. A snapshot of all of them is read one number after the other. -/
inductive Gauge where
  | hits
  | misses
  | coalesced
  | failures
  | entries

/-- A step, by the call that takes it, and what the step tells. -/
inductive Act where
  | lookup (call : Nat) (path : String) (content : Bytes)
  | count (call : Nat)
  | load (call : Nat) (ending : Ending)
  | complete (call : Nat)
  | publish (call flight : Nat)
  | answer (call : Nat)
  | invalidate (path : String) (dropped : Nat)
  | clear (dropped : Nat)
  | measure (gauge : Gauge) (value : Nat)

/-- A cache and all calls that have been made on it, by their numbers. -/
structure Traffic where
  cache : Cache
  calls : Nat → Option Call

namespace Progress

/-- How the load of an owner ended, once it has. -/
def ending? : Progress → Option Ending
  | entered | counted => none
  | loaded ending | filed ending | published ending => some ending
  | returned result => some (result.map Shared.image)

/-- How the load of an owner ended, once its result is filed. -/
def filed? : Progress → Option Ending
  | entered | counted | loaded _ => none
  | filed ending | published ending => some ending
  | returned result => some (result.map Shared.image)

/-- How the load of an owner ended, once its result is handed out. -/
def published? : Progress → Option Ending
  | entered | counted | loaded _ | filed _ => none
  | published ending => some ending
  | returned result => some (result.map Shared.image)

theorem filed?_of_published? {progress : Progress} {ending : Ending}
    (h : progress.published? = some ending) : progress.filed? = some ending := by
  cases progress with
  | published _ => exact h
  | returned _ => exact h
  | _ => cases h

theorem ending?_of_filed? {progress : Progress} {ending : Ending}
    (h : progress.filed? = some ending) : progress.ending? = some ending := by
  cases progress with
  | filed _ => exact h
  | published _ => exact h
  | returned _ => exact h
  | _ => cases h

end Progress

def Call.key (call : Call) : Key := Key.of call.path call.content

/-- A number of the statistics. -/
def Cache.gauge (c : Cache) : Gauge → Nat
  | .hits => c.tally.hits
  | .misses => c.tally.misses
  | .coalesced => c.tally.coalesced
  | .failures => c.tally.failures
  | .entries => c.entries

namespace Act

/-- Whether a step drops what is filed under a key. -/
def drops (key : Key) : Act → Bool
  | invalidate path _ => key.place = Path.components path
  | clear _ => true
  | _ => false

/-- The call that takes a step, if one does. -/
def caller? : Act → Option Nat
  | lookup i .. | count i | load i _ | complete i | publish i _ | answer i => some i
  | _ => none

/-- Whether a step hands out the result of a flight. -/
def publishes (flight : Nat) : Act → Bool
  | publish _ other => other = flight
  | _ => false

/-- Whether a step neither drops anything nor starts a call. -/
def isQuiet : Act → Bool
  | lookup .. | invalidate .. | clear _ => false
  | _ => true

theorem drops_of_isQuiet {act : Act} (h : act.isQuiet = true) (key : Key) :
    act.drops key = false := by
  cases act with
  | invalidate path dropped => cases h
  | clear dropped => cases h
  | _ => rfl

theorem ne_lookup_of_isQuiet {act : Act} (h : act.isQuiet = true) (i : Nat) (path : String)
    (content : Bytes) : act ≠ .lookup i path content := by
  rintro rfl
  cases h

end Act

namespace Traffic

/-- Nothing cached, and nobody there. -/
def start : Traffic := ⟨Cache.empty, fun _ => none⟩

/-- A call comes to stand like this, and leaves the cache like that. -/
def put (s : Traffic) (i : Nat) (call : Call) (cache : Cache) : Traffic :=
  ⟨cache, fun j => if j = i then some call else s.calls j⟩

/-- One step of a cache in use. -/
inductive Step (s : Traffic) : Act → Traffic → Prop where
  | lookup (i : Nat) (path : String) (content : Bytes) {role : Role} {cache : Cache}
      (fresh : s.calls i = none) (found : s.cache.lookup path content = (role, cache)) :
      Step s (.lookup i path content) (s.put i ⟨path, content, role, .entered⟩ cache)
  | count (i : Nat) {path : String} {content : Bytes} {role : Role}
      (h : s.calls i = some ⟨path, content, role, .entered⟩) :
      Step s (.count i) (s.put i ⟨path, content, role, .counted⟩ (s.cache.count role))
  | load (i : Nat) (ending : Ending) {flight : Nat} {path : String} {content : Bytes}
      (h : s.calls i = some ⟨path, content, .own flight, .counted⟩) :
      Step s (.load i ending) (s.put i ⟨path, content, .own flight, .loaded ending⟩ s.cache)
  | complete (i : Nat) {flight : Nat} {path : String} {content : Bytes} {ending : Ending}
      (h : s.calls i = some ⟨path, content, .own flight, .loaded ending⟩) :
      Step s (.complete i) (s.put i ⟨path, content, .own flight, .filed ending⟩
        (s.cache.complete flight (s.cache.delivery flight ending)))
  | publish (i : Nat) {flight : Nat} {path : String} {content : Bytes} {ending : Ending}
      (h : s.calls i = some ⟨path, content, .own flight, .filed ending⟩) :
      Step s (.publish i flight) (s.put i ⟨path, content, .own flight, .published ending⟩
        (s.cache.publish flight (s.cache.delivery flight ending)))
  /-- A caller who found an image returns it. -/
  | take (i : Nat) {path : String} {content : Bytes} {image : Shared}
      (h : s.calls i = some ⟨path, content, .hit image, .counted⟩) :
      Step s (.answer i) (s.put i ⟨path, content, .hit image, .returned (.done image)⟩ s.cache)
  /-- A caller who waits goes on as soon as there is a result. -/
  | wake (i : Nat) {flight : Nat} {path : String} {content : Bytes}
      (h : s.calls i = some ⟨path, content, .wait flight, .counted⟩)
      (ready : (s.cache.result? flight).isSome) :
      Step s (.answer i) (s.put i ⟨path, content, .wait flight,
        .returned (Outcome.ofExcept (s.cache.delivered flight))⟩ s.cache)
  /-- An owner returns the image it has loaded, or what went wrong. -/
  | leave (i : Nat) {flight : Nat} {path : String} {content : Bytes} {ending : Ending}
      (h : s.calls i = some ⟨path, content, .own flight, .published ending⟩) :
      Step s (.answer i) (s.put i ⟨path, content, .own flight,
        .returned (ending.map fun image => ⟨flight, image⟩)⟩ s.cache)
  | invalidate (path : String) :
      Step s (.invalidate path (s.cache.invalidate path).1)
        { s with cache := (s.cache.invalidate path).2 }
  | clear :
      Step s (.clear (s.cache.slots.length - s.cache.clear.slots.length))
        { s with cache := s.cache.clear }
  | measure (gauge : Gauge) : Step s (.measure gauge (s.cache.gauge gauge)) s

/-- The steps taken from one state to another, the first one first. -/
inductive Runs (s : Traffic) : List Act → Traffic → Prop where
  | zero : Runs s [] s
  | succ {acts : List Act} {t u : Traffic} {act : Act} (prior : Runs s acts t)
      (last : Step t act u) : Runs s (acts ++ [act]) u

/-- A run from the beginning. -/
abbrev Run (acts : List Act) (s : Traffic) : Prop := Runs start acts s

/-- A call found nothing under a key, and has not completed the flight it owns. -/
def UnderWay (s : Traffic) (i flight : Nat) (key : Key) : Prop :=
  ∃ call, s.calls i = some call ∧ call.role = .own flight ∧ call.key = key ∧
    call.progress.filed? = none

/-- A call is running its load for a key. -/
def Loading (s : Traffic) (i : Nat) (key : Key) : Prop :=
  ∃ call flight, s.calls i = some call ∧ call.role = .own flight ∧ call.key = key ∧
    call.progress = .counted

/-- A call has loaded an image for a key, and completed its flight. -/
def Loaded (s : Traffic) (i : Nat) (key : Key) (image : Shared) : Prop :=
  ∃ call, s.calls i = some call ∧ call.role = .own image.flight ∧ call.key = key ∧
    call.progress.filed? = some (.done image.image)

@[simp] theorem put_cache (s : Traffic) (i : Nat) (call : Call) (cache : Cache) :
    (s.put i call cache).cache = cache := rfl

theorem put_self (s : Traffic) (i : Nat) (call : Call) (cache : Cache) :
    (s.put i call cache).calls i = some call := if_pos rfl

theorem put_ne (s : Traffic) {i j : Nat} (h : j ≠ i) (call : Call) (cache : Cache) :
    (s.put i call cache).calls j = s.calls j := if_neg h

/-- A call after a step is the one that took it or one from before. -/
theorem put_cases {s : Traffic} {i j : Nat} {call other : Call} {cache : Cache}
    (h : (s.put i call cache).calls j = some other) :
    j = i ∧ other = call ∨ j ≠ i ∧ s.calls j = some other := by
  by_cases hSame : j = i
  · rw [hSame, put_self] at h
    exact Or.inl ⟨hSame, (Option.some.inj h).symm⟩
  · rw [put_ne s hSame] at h
    exact Or.inr ⟨hSame, h⟩

theorem ne_of_calls {s : Traffic} {i j : Nat} {call : Call} (h : s.calls j = some call)
    (fresh : s.calls i = none) : j ≠ i := by
  rintro rfl
  rw [fresh] at h
  cases h

/-- How a step may take a call further: what it asks for and its role stay, and so does the end
of its load, unless that is what the step brings. -/
structure Moves (act : Act) (i : Nat) (old call : Call) : Prop where
  path : call.path = old.path
  content : call.content = old.content
  role : call.role = old.role
  unreturned : ∀ result, old.progress ≠ .returned result
  ending : ∀ flight, old.role = .own flight → call.progress.ending? = old.progress.ending? ∨
    ∃ ending, act = .load i ending ∧ call.progress = .loaded ending

/-- What a step does to a call: nothing, or it makes the call, or it takes the call further. -/
theorem Step.call_cases {s t : Traffic} {act : Act} (step : Step s act t) {i : Nat} {call : Call}
    (h : t.calls i = some call) :
    s.calls i = some call ∨
    (s.calls i = none ∧ act = .lookup i call.path call.content ∧ call.progress = .entered) ∨
    ∃ old, s.calls i = some old ∧ Moves act i old call := by
  have hMoves {j : Nat} {old moved : Call} {cache : Cache} (hOld : s.calls j = some old)
      (hMoved : (s.put j moved cache).calls i = some call) (moves : Moves act j old moved) :
      s.calls i = some call ∨
      (s.calls i = none ∧ act = .lookup i call.path call.content ∧ call.progress = .entered) ∨
      ∃ old, s.calls i = some old ∧ Moves act i old call := by
    rcases put_cases hMoved with ⟨rfl, rfl⟩ | ⟨_, hSame⟩
    · exact Or.inr (Or.inr ⟨old, hOld, moves⟩)
    · exact Or.inl hSame
  cases step with
  | lookup j path content fresh found =>
      rcases put_cases h with ⟨rfl, rfl⟩ | ⟨_, hOld⟩
      · exact Or.inr (Or.inl ⟨fresh, rfl, rfl⟩)
      · exact Or.inl hOld
  | count j hCall =>
      exact hMoves hCall h ⟨rfl, rfl, rfl, (fun _ he => by cases he), fun _ _ => Or.inl rfl⟩
  | load j ending hCall =>
      refine hMoves hCall h ⟨rfl, rfl, rfl, (fun _ he => by cases he), fun _ _ => Or.inr ?_⟩
      exact ⟨ending, rfl, rfl⟩
  | complete j hCall =>
      exact hMoves hCall h ⟨rfl, rfl, rfl, (fun _ he => by cases he), fun _ _ => Or.inl rfl⟩
  | publish j hCall =>
      exact hMoves hCall h ⟨rfl, rfl, rfl, (fun _ he => by cases he), fun _ _ => Or.inl rfl⟩
  | take j hCall =>
      exact hMoves hCall h ⟨rfl, rfl, rfl, (fun _ he => by cases he), (fun _ hOwn => by cases hOwn)⟩
  | wake j hCall ready =>
      exact hMoves hCall h ⟨rfl, rfl, rfl, (fun _ he => by cases he), (fun _ hOwn => by cases hOwn)⟩
  | @leave j flight path content ending hCall =>
      refine hMoves hCall h ⟨rfl, rfl, rfl, (fun _ he => by cases he), fun _ _ => Or.inl ?_⟩
      cases ending <;> rfl
  | invalidate path => exact Or.inl h
  | clear => exact Or.inl h
  | measure gauge => exact Or.inl h

/-- A call that has been made is never forgotten. -/
theorem Step.calls_isSome {s t : Traffic} {act : Act} (step : Step s act t) {i : Nat}
    (h : (s.calls i).isSome) : (t.calls i).isSome := by
  have hPut (j : Nat) (call : Call) (cache : Cache) : ((s.put j call cache).calls i).isSome := by
    by_cases hSame : i = j
    · rw [hSame, put_self]
      rfl
    · rwa [put_ne s hSame]
  cases step with
  | invalidate path => exact h
  | clear => exact h
  | measure gauge => exact h
  | _ => exact hPut ..

theorem Runs.calls_isSome {s t : Traffic} {acts : List Act} (runs : Runs s acts t) {i : Nat}
    (h : (s.calls i).isSome) : (t.calls i).isSome := by
  induction runs with
  | zero => exact h
  | succ prior last ih => exact last.calls_isSome ih

/-- A call that has returned takes no more steps. -/
theorem Step.calls_of_returned {s t : Traffic} {act : Act} (step : Step s act t) {i : Nat}
    {call : Call} {result : Outcome LoadError Shared} (h : s.calls i = some call)
    (hReturned : call.progress = .returned result) : t.calls i = some call := by
  have hSome := step.calls_isSome (Option.isSome_of_eq_some h)
  obtain ⟨after, hAfter⟩ := Option.isSome_iff_exists.mp hSome
  rcases step.call_cases hAfter with hSame | ⟨hNone, _⟩ | ⟨old, hOld, moves⟩
  · rw [hAfter, ← hSame, h]
  · rw [h] at hNone
    cases hNone
  · rw [h, Option.some.injEq] at hOld
    exact absurd (hOld ▸ hReturned) (moves.unreturned result)

/-- A call that looks up in a run was not there before. -/
theorem Runs.fresh {s t : Traffic} {acts : List Act} (runs : Runs s acts t) {i : Nat}
    {path : String} {content : Bytes} (h : .lookup i path content ∈ acts) :
    s.calls i = none ∧ (t.calls i).isSome := by
  induction runs with
  | zero => cases h
  | succ prior last ih =>
      rcases List.mem_append.mp h with hPrior | hLast
      · obtain ⟨hNone, hSome⟩ := ih hPrior
        exact ⟨hNone, last.calls_isSome hSome⟩
      · rw [List.mem_singleton] at hLast
        subst hLast
        cases last with
        | lookup _ _ _ fresh found =>
            refine ⟨?_, by rw [put_self]; rfl⟩
            cases hBefore : s.calls i with
            | none => rfl
            | some call =>
                have hLater := prior.calls_isSome (Option.isSome_of_eq_some hBefore)
                rw [fresh] at hLater
                cases hLater

theorem Runs.trans {s t u : Traffic} {first second : List Act} (left : Runs s first t)
    (right : Runs t second u) : Runs s (first ++ second) u := by
  induction right with
  | zero => simpa using left
  | succ prior last ih => simpa [List.append_assoc] using ih.succ last

end Traffic

end ImagePlacement
