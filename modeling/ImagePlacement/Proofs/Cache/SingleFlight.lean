import ImagePlacement.Proofs.Cache.Ownership

/-! A key is loaded by one caller at a time. A completion writes under its key without a look at
what is there; it is the invariant that makes this safe. -/
namespace ImagePlacement.Traffic

open Cache

variable {s t : Traffic} {i j : Nat} {key : Key}

/-- A load that is running has not been completed. -/
theorem Loading.underWay (h : s.Loading i key) : ∃ flight, s.UnderWay i flight key := by
  obtain ⟨call, flight, hCall, hOwn, hKey, hCounted⟩ := h
  exact ⟨flight, call, hCall, hOwn, hKey, by rw [hCounted]; rfl⟩

/-- A completion finds its own flight in the slot of its key, leaves the image or nothing there,
and touches no other slot. -/
theorem Sound.slot?_of_complete (sound : s.Sound) {call : Call} (h : s.calls i = some call)
    (step : Step s (.complete i) t) :
    ∃ flight, call.role = .own flight ∧ s.cache.slot? call.key = some (.pending flight) ∧
      (t.cache.slot? call.key = none ∨
        ∃ image, t.cache.slot? call.key = some (.ready ⟨flight, image⟩)) ∧
      ∀ other ≠ call.key, t.cache.slot? other = s.cache.slot? other := by
  cases step with
  | @complete _ flight path content ending hLoaded =>
      rw [h, Option.some.injEq] at hLoaded
      subst hLoaded
      obtain ⟨revoked, hFlight⟩ := sound.flight i _ flight h rfl
      have hSlot (other : Key) := slot?_complete sound.distinct hFlight
        (s.cache.delivery flight ending) other
      refine ⟨flight, rfl, (sound.pending _ _).mpr ⟨i, _, h, rfl, rfl, rfl⟩, ?_, ?_⟩
      · have hHere := (hSlot (Key.of path content)).trans (if_pos rfl)
        cases ending with
        | done image =>
            cases revoked with
            | true => exact Or.inl hHere
            | false => exact Or.inr ⟨image, hHere⟩
        | failed e => exact Or.inl hHere
        | aborted reason => exact Or.inl hHere
      · exact fun other hOther => (hSlot other).trans (if_neg hOther)

/-- In whatever order calls come and go, at most one of them has found nothing under a key and
has not completed its flight; the slot of the key is pending exactly as long; a completion always
replaces the pending slot of its own flight; and no two loads for a key run at a time. -/
theorem single_flight {acts : List Act} (run : Run acts s) (key : Key) :
    (∀ i j flight other, s.UnderWay i flight key → s.UnderWay j other key → i = j) ∧
    (∀ flight, s.cache.slot? key = some (.pending flight) ↔ ∃ i, s.UnderWay i flight key) ∧
    (∀ i call t, s.calls i = some call → call.key = key → Step s (.complete i) t →
      ∃ flight, call.role = .own flight ∧ s.cache.slot? key = some (.pending flight) ∧
        (t.cache.slot? key = none ∨ ∃ image, t.cache.slot? key = some (.ready ⟨flight, image⟩)) ∧
        ∀ other ≠ key, t.cache.slot? other = s.cache.slot? other) ∧
    (∀ i j, s.Loading i key → s.Loading j key → i = j) := by
  have sound := run.sound
  refine ⟨?_, sound.pending key, ?_, ?_⟩
  · intro i j flight other hi hj
    exact (sound.underWay_unique hi hj).1
  · rintro i call t hCall rfl step
    exact sound.slot?_of_complete hCall step
  · intro i j hi hj
    obtain ⟨flight, hi⟩ := hi.underWay
    obtain ⟨other, hj⟩ := hj.underWay
    exact (sound.underWay_unique hi hj).1

/-- Two callers spell a path in two ways, and the cache is cleared while the first of them loads:
the second one waits, and no other call can be loading. -/
theorem single_flight_cleared : ∃ s,
    Run [.lookup 0 "a//b" [1], .lookup 1 "a/b" [1], .count 1, .count 0, .clear 0] s ∧
      s.Loading 0 (Key.of "a/b" [1]) ∧
      s.cache.slot? (Key.of "a/b" [1]) = some (.pending 0) ∧
      ∀ j, s.Loading j (Key.of "a/b" [1]) → j = 0 := by
  have idle : Run [] start := .zero
  have asked := (idle.succ (.lookup 0 "a//b" [1] rfl (lookup_none rfl))).succ
    (.lookup 1 "a/b" [1] rfl (lookup_pending rfl))
  have run := ((asked.succ (.count 1 rfl)).succ (.count 0 rfl)).succ .clear
  obtain ⟨_, hPending, _, hAlone⟩ := single_flight run (Key.of "a/b" [1])
  refine ⟨_, run, ⟨_, 0, rfl, rfl, rfl, rfl⟩, (hPending 0).mpr ⟨0, _, rfl, rfl, rfl, rfl⟩, ?_⟩
  exact fun j hj => hAlone j 0 hj ⟨_, 0, rfl, rfl, rfl, rfl⟩

end ImagePlacement.Traffic
