import ImagePlacement.Proofs.Cache.Ownership

/-! What callers who share a flight are given. The slot changes in one step and the result is
handed out in a later one, so other flights for the key may start in between; the result goes by
the flight and not by the slot, and reaches everyone who waits. -/
namespace ImagePlacement.Traffic

open Cache

variable {s t : Traffic} {act : Act} {acts : List Act}

/-- What is handed out of a flight is what its owner has handed out. -/
theorem Sound.result?_of_own (sound : s.Sound) {i flight : Nat} {call : Call}
    (h : s.calls i = some call) (hOwn : call.role = .own flight) :
    s.cache.result? flight = call.progress.published?.map (settlement call.path flight) := by
  obtain ⟨revoked, hFlight⟩ := sound.flight i call flight h hOwn
  exact result?_of_flight hFlight

/-- A publication writes a result where there was none, and no other step writes or erases one. -/
theorem Sound.result?_step (sound : s.Sound) (step : Step s act t) (flight : Nat) :
    (act.publishes flight = true ∧ s.cache.result? flight = none ∧
      (t.cache.result? flight).isSome) ∨
    (act.publishes flight = false ∧ t.cache.result? flight = s.cache.result? flight) := by
  cases step with
  | lookup i path content fresh found =>
      refine Or.inr ⟨rfl, ?_⟩
      rcases lookup_cases found with ⟨_, _, _, rfl⟩ | ⟨_, _, _, rfl⟩ | ⟨_, _, rfl⟩
      · rfl
      · rfl
      · exact result?_begin path content flight
  | count i h => exact Or.inr ⟨rfl, result?_count _ flight⟩
  | load i ending h => exact Or.inr ⟨rfl, rfl⟩
  | complete i h => exact Or.inr ⟨rfl, result?_complete _ _ flight⟩
  | @publish i other path content ending h =>
      obtain ⟨revoked, hFlight⟩ := sound.flight i _ other h rfl
      have hAfter := result?_publish hFlight (s.cache.delivery other ending) flight
      by_cases hSame : flight = other
      · subst hSame
        refine Or.inl ⟨decide_eq_true rfl, sound.result?_of_own h rfl, ?_⟩
        rw [put_cache, hAfter, if_pos rfl]
        rfl
      · exact Or.inr ⟨decide_eq_false (Ne.symm hSame), hAfter.trans (if_neg hSame)⟩
  | take i h => exact Or.inr ⟨rfl, rfl⟩
  | wake i h ready => exact Or.inr ⟨rfl, rfl⟩
  | leave i h => exact Or.inr ⟨rfl, rfl⟩
  | invalidate path =>
      exact Or.inr ⟨rfl, result?_drop sound.distinct (fun key => key.place = Path.components path) flight⟩
  | clear => exact Or.inr ⟨rfl, result?_drop sound.distinct _ flight⟩
  | measure gauge => exact Or.inr ⟨rfl, rfl⟩

/-- The result of a flight is handed out once, or not yet. -/
theorem Runs.countP_publishes (run : Run acts s) (flight : Nat) :
    acts.countP (Act.publishes flight) = if (s.cache.result? flight).isSome then 1 else 0 := by
  induction run with
  | zero => rfl
  | succ prior last ih =>
      rw [List.countP_append, ih, List.countP_singleton]
      rcases prior.sound.result?_step last flight with ⟨hWrites, hNone, hSome⟩ | ⟨hNot, hSame⟩
      · simp [hWrites, hNone, hSome]
      · simp [hNot, hSame]

/-- What is handed out stays what it is, whatever happens to its slot. -/
theorem Sound.result?_runs (sound : s.Sound) (runs : Runs s acts t) {flight : Nat}
    {result : Delivery} (h : s.cache.result? flight = some result) :
    t.cache.result? flight = some result := by
  induction runs with
  | zero => exact h
  | succ prior last ih =>
      rcases (sound.runs prior).result?_step last flight with ⟨_, hNone, _⟩ | ⟨_, hSame⟩
      · rw [ih] at hNone
        cases hNone
      · exact hSame.trans ih

/-- An owner returns what its load has come to. -/
theorem Sound.returned_of_own (sound : s.Sound) {i flight : Nat} {call : Call} {ending : Ending}
    {result : Outcome LoadError Shared} (h : s.calls i = some call) (hOwn : call.role = .own flight)
    (hEnding : call.progress.published? = some ending) (hResult : call.progress = .returned result) :
    result = ending.map fun image => ⟨flight, image⟩ := by
  have hDue := sound.returned i call result h hResult
  rw [hOwn] at hDue
  obtain ⟨own, rfl⟩ := hDue
  rw [hResult] at hEnding
  obtain rfl := Option.some.inj hEnding
  cases own <;> rfl

/-- Whoever waits for a flight returns what its owner has handed out. -/
theorem Sound.returned_of_wait (sound : s.Sound) {i flight : Nat} {call : Call}
    {result : Outcome LoadError Shared} (h : s.calls i = some call)
    (hWait : call.role = .wait flight) (hResult : call.progress = .returned result) :
    ∃ j owner ending, s.calls j = some owner ∧ owner.role = .own flight ∧ owner.key = call.key ∧
      owner.progress.published? = some ending ∧
      s.cache.result? flight = some (settlement owner.path flight ending) ∧
      result = Outcome.ofExcept (settlement owner.path flight ending) := by
  have hDue := sound.returned i call result h hResult
  rw [hWait] at hDue
  obtain ⟨delivery, hDelivery, rfl⟩ := hDue
  obtain ⟨f, hFlight, hKey⟩ := sound.waits i call flight h hWait
  obtain ⟨j, owner, hOwner, hOwn⟩ := sound.owned flight f hFlight
  obtain ⟨revoked, hOwned⟩ := sound.flight j owner flight hOwner hOwn
  rw [hFlight, Option.some.injEq] at hOwned
  have hGiven := sound.result?_of_own hOwner hOwn
  rw [hDelivery, eq_comm, Option.map_eq_some_iff] at hGiven
  obtain ⟨ending, hEnding, rfl⟩ := hGiven
  refine ⟨j, owner, ending, hOwner, hOwn, ?_, hEnding, hDelivery, rfl⟩
  rw [← hKey, hOwned]
  rfl

/-! Nobody waits in vain -/

/-- A call can hand out the result of a flight by steps of its own. -/
def Finishes (s : Traffic) (i flight : Nat) : Prop :=
  ∃ acts t, Runs s acts t ∧ (∀ act ∈ acts, act.caller? = some i) ∧
    (t.cache.result? flight).isSome

theorem Finishes.of_step {i flight : Nat} (step : Step s act t) (hCaller : act.caller? = some i)
    (h : t.Finishes i flight) : s.Finishes i flight := by
  obtain ⟨more, u, runs, hMore, hSome⟩ := h
  have first : Runs s [act] t := Runs.succ .zero step
  refine ⟨[act] ++ more, u, first.trans runs, ?_, hSome⟩
  intro other hOther
  rcases List.mem_append.mp hOther with hFirst | hLater
  · rw [List.mem_singleton.mp hFirst, hCaller]
  · exact hMore other hLater

/-- Whatever the others do, an owner is free to take the steps that are left to it. -/
theorem Sound.finishes (sound : s.Sound) {i flight : Nat} {call : Call}
    (h : s.calls i = some call) (hOwn : call.role = .own flight) : s.Finishes i flight := by
  obtain ⟨path, content, role, progress⟩ := call
  subst hOwn
  have hGiven {s : Traffic} (sound : s.Sound) {progress : Progress} {ending : Ending}
      (h : s.calls i = some ⟨path, content, .own flight, progress⟩)
      (hEnding : progress.published? = some ending) : s.Finishes i flight := by
    refine ⟨[], s, .zero, by simp, ?_⟩
    rw [sound.result?_of_own h rfl, hEnding]
    rfl
  have hFiled {s : Traffic} (sound : s.Sound) {ending : Ending}
      (h : s.calls i = some ⟨path, content, .own flight, .filed ending⟩) : s.Finishes i flight := by
    have step := Step.publish i h
    exact .of_step step rfl (hGiven (sound.step step) (put_self ..) rfl)
  have hLoaded {s : Traffic} (sound : s.Sound) {ending : Ending}
      (h : s.calls i = some ⟨path, content, .own flight, .loaded ending⟩) : s.Finishes i flight := by
    have step := Step.complete i h
    exact .of_step step rfl (hFiled (sound.step step) (put_self ..))
  have hCounted {s : Traffic} (sound : s.Sound)
      (h : s.calls i = some ⟨path, content, .own flight, .counted⟩) : s.Finishes i flight := by
    have step := Step.load i (.aborted "") h
    exact .of_step step rfl (hLoaded (sound.step step) (put_self ..))
  cases progress with
  | entered =>
      have step := Step.count i h
      exact .of_step step rfl (hCounted (sound.step step) (put_self ..))
  | counted => exact hCounted sound h
  | loaded ending => exact hLoaded sound h
  | filed ending => exact hFiled sound h
  | published ending => exact hGiven sound h rfl
  | returned result => exact hGiven sound h rfl

/-- A flight without a result has an owner who has not handed it out, and who can. -/
theorem Sound.exists_owner (sound : s.Sound) {flight : Nat} (hListed : flight < s.cache.nextFlight)
    (hNone : s.cache.result? flight = none) :
    ∃ i owner, s.calls i = some owner ∧ owner.role = .own flight ∧
      owner.progress.published? = none ∧ s.Finishes i flight := by
  obtain ⟨i, owner, hOwner, hOwn⟩ := sound.owned flight _ (List.getElem?_eq_getElem hListed)
  have hGiven := sound.result?_of_own hOwner hOwn
  rw [hNone, eq_comm, Option.map_eq_none_iff] at hGiven
  exact ⟨i, owner, hOwner, hOwn, hGiven, sound.finishes hOwner hOwn⟩

/-- An abandoned load is told apart from a missing result by the first letter of its message. -/
theorem ending_of_unfinished {path : String} {flight : Nat} {ending : Ending}
    (h : settlement path flight ending = .error unfinished) : ending = .failed unfinished := by
  cases ending with
  | done image => cases h
  | failed e =>
      obtain rfl := Except.error.inj h
      rfl
  | aborted reason =>
      have hText := LoadError.internal.inj (Except.error.inj h)
      have hChars := congrArg String.toList hText
      simp at hChars

/-- In whatever order calls come and go, the result of a flight is handed out once, and stays what
it is; whoever waits for a flight returns the very image or error of the owner, or an error that
names the path of an owner whose load was abandoned; a flight without a result has an owner who
is free to hand it out; and nobody is told that a flight ended without a result. -/
theorem shared_delivery (run : Run acts s) :
    (∀ flight, acts.countP (Act.publishes flight) =
      if (s.cache.result? flight).isSome then 1 else 0) ∧
    (∀ flight result more t, s.cache.result? flight = some result → Runs s more t →
      t.cache.result? flight = some result) ∧
    (∀ i call flight result, s.calls i = some call → call.role = .wait flight →
      call.progress = .returned result →
      ∃ j owner ending, s.calls j = some owner ∧ owner.role = .own flight ∧
        owner.key = call.key ∧ owner.progress.published? = some ending ∧
        s.cache.result? flight = some (settlement owner.path flight ending) ∧
        result = Outcome.ofExcept (settlement owner.path flight ending) ∧
        (∀ own, owner.progress = .returned own →
          own = ending.map fun image => ⟨flight, image⟩) ∧
        (result = .failed unfinished → ending = .failed unfinished)) ∧
    (∀ flight < s.cache.nextFlight, s.cache.result? flight = none →
      ∃ i owner, s.calls i = some owner ∧ owner.role = .own flight ∧
        owner.progress.published? = none ∧ s.Finishes i flight) := by
  have sound := run.sound
  refine ⟨run.countP_publishes, ?_, ?_, ?_⟩
  · intro flight result more t h runs
    exact sound.result?_runs runs h
  · intro i call flight result h hWait hResult
    obtain ⟨j, owner, ending, hOwner, hOwn, hKey, hEnding, hGiven, rfl⟩ :=
      sound.returned_of_wait h hWait hResult
    refine ⟨j, owner, ending, hOwner, hOwn, hKey, hEnding, hGiven, rfl, ?_, ?_⟩
    · intro own hReturned
      exact sound.returned_of_own hOwner hOwn hEnding hReturned
    · intro hMissing
      have hError : settlement owner.path flight ending = .error unfinished := by
        cases hSettled : settlement owner.path flight ending with
        | ok image =>
            rw [hSettled] at hMissing
            cases hMissing
        | error e =>
            rw [hSettled] at hMissing
            exact congrArg Except.error (Outcome.failed.inj hMissing)
      exact ending_of_unfinished hError
  · intro flight hListed hNone
    exact sound.exists_owner hListed hNone

/-- The load of an owner is abandoned after the cache has been cleared, and another flight takes
the slot before the result is handed out: whoever waits for the first one learns what became of it. -/
theorem shared_delivery_abandoned : ∃ s,
    Run [.lookup 0 "a//b" [1], .lookup 1 "a/b" [1], .count 0, .count 1, .clear 0,
      .load 0 (.aborted "overflow"), .complete 0, .lookup 2 "a/b" [1], .publish 0 0, .answer 1] s ∧
    s.cache.slot? (Key.of "a/b" [1]) = some (.pending 1) ∧
    s.calls 1 = some ⟨"a/b", [1], .wait 0,
      .returned (.failed (.internal "decode of a//b panicked"))⟩ ∧
    ∃ j owner, s.calls j = some owner ∧ owner.role = .own 0 ∧
      owner.key = Key.of "a/b" [1] := by
  have idle : Run [] start := .zero
  have asked := (idle.succ (.lookup 0 "a//b" [1] rfl (lookup_none rfl))).succ
    (.lookup 1 "a/b" [1] rfl (lookup_pending rfl))
  have cleared := ((asked.succ (.count 0 rfl)).succ (.count 1 rfl)).succ .clear
  have filed := (cleared.succ (.load 0 (.aborted "overflow") rfl)).succ (.complete 0 rfl)
  have again := filed.succ (.lookup 2 "a/b" [1] rfl (lookup_none rfl))
  have run := (again.succ (.publish 0 rfl)).succ (.wake 1 rfl rfl)
  obtain ⟨_, _, hWaits, _⟩ := shared_delivery run
  obtain ⟨j, owner, ending, hOwner, hOwn, hKey, _⟩ := hWaits 1 _ 0 _ rfl rfl rfl
  exact ⟨_, run, rfl, rfl, j, owner, hOwner, hOwn, hKey⟩

end ImagePlacement.Traffic
