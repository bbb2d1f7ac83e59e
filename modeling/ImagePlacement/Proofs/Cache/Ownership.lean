import ImagePlacement.Proofs.Cache.Traffic

/-! The invariant of a cache in use. A flight and the call that owns it tell the same story: what
is known of the flight follows from how far its owner has come, and a slot is pending exactly as
long as an owner has not completed. Every step keeps it, in whatever order the steps are taken. -/
namespace ImagePlacement

open Cache

/-- What is known of a flight when its owner has come so far. -/
def Call.flight (call : Call) (number : Nat) (revoked : Bool) : Flight :=
  ⟨call.path, call.key, revoked, call.progress.published?.map (settlement call.path number)⟩

theorem Cache.result?_of_flight {c : Cache} {call : Call} {number : Nat} {revoked : Bool}
    (h : c.flights[number]? = some (call.flight number revoked)) :
    c.result? number = call.progress.published?.map (settlement call.path number) := by
  rw [result?, h]
  rfl

/-- What a caller may return, by the role that the look-up gave it. -/
def Cache.Due (c : Cache) : Role → Outcome LoadError Shared → Prop
  | .hit image, result => result = .done image
  | .wait flight, result => ∃ delivery, c.result? flight = some delivery ∧
      result = Outcome.ofExcept delivery
  | .own flight, result => ∃ ending : Ending, result = ending.map fun image => ⟨flight, image⟩

/-- As long as results that are handed out stay what they are, whatever is due stays due. -/
theorem Cache.Due.mono {c d : Cache} {role : Role} {result : Outcome LoadError Shared}
    (h : c.Due role result)
    (hResult : ∀ flight delivery, c.result? flight = some delivery →
      d.result? flight = some delivery) : d.Due role result := by
  cases role with
  | hit image => exact h
  | own flight => exact h
  | wait flight =>
      obtain ⟨delivery, hDelivery, rfl⟩ := h
      exact ⟨delivery, hResult flight delivery hDelivery, rfl⟩

namespace Traffic

structure Sound (s : Traffic) : Prop where
  distinct : s.cache.Distinct
  /-- Every flight has an owner, -/
  owned : ∀ flight f, s.cache.flights[flight]? = some f →
    ∃ i call, s.calls i = some call ∧ call.role = .own flight
  /-- and only one. -/
  unique : ∀ i j call other flight, s.calls i = some call → s.calls j = some other →
    call.role = .own flight → other.role = .own flight → i = j
  flight : ∀ i call number, s.calls i = some call → call.role = .own number →
    ∃ revoked, s.cache.flights[number]? = some (call.flight number revoked)
  pending : ∀ key flight, s.cache.slot? key = some (.pending flight) ↔ ∃ i, s.UnderWay i flight key
  waits : ∀ i call flight, s.calls i = some call → call.role = .wait flight →
    ∃ f, s.cache.flights[flight]? = some f ∧ f.key = call.key
  returned : ∀ i call result, s.calls i = some call → call.progress = .returned result →
    s.cache.Due call.role result

theorem sound_start : Sound start where
  distinct := List.nodup_nil
  owned := by
    intro flight f h
    simp [start, Cache.empty] at h
  unique := by
    intro i j call other flight h
    cases h
  flight := by
    intro i call number h
    cases h
  pending := by
    intro key flight
    constructor
    · intro h
      cases h
    · rintro ⟨i, call, h, _⟩
      cases h
  waits := by
    intro i call flight h
    cases h
  returned := by
    intro i call result h
    cases h

/-- What holds of some call after a step holds of the one that took it or held before. -/
theorem exists_put {s : Traffic} {i j : Nat} {call : Call} {cache : Cache} {P : Call → Prop} :
    (∃ other, (s.put i call cache).calls j = some other ∧ P other) ↔
      (j = i ∧ P call) ∨ (j ≠ i ∧ ∃ other, s.calls j = some other ∧ P other) := by
  by_cases hSame : j = i
  · subst hSame
    simp [put_self]
  · simp [put_ne s hSame, hSame]

/-- What does not change with a step of a call holds of the same calls as before. -/
theorem exists_put_iff {s : Traffic} {i j : Nat} {call moved : Call} (h : s.calls i = some call)
    {P : Call → Prop} (hMoved : P moved ↔ P call) (cache : Cache) :
    (∃ other, (s.put i moved cache).calls j = some other ∧ P other) ↔
      ∃ other, s.calls j = some other ∧ P other := by
  rw [exists_put, hMoved]
  by_cases hSame : j = i
  · subst hSame
    simp [h]
  · simp [hSame]

theorem underWay_put {s : Traffic} {i j flight : Nat} {call : Call} {cache : Cache} {key : Key} :
    (s.put i call cache).UnderWay j flight key ↔
      (j = i ∧ call.role = .own flight ∧ call.key = key ∧ call.progress.filed? = none) ∨
        (j ≠ i ∧ s.UnderWay j flight key) := exists_put

theorem UnderWay.ne_of_fresh {s : Traffic} {i j flight : Nat} {key : Key}
    (h : s.UnderWay j flight key) (fresh : s.calls i = none) : j ≠ i := by
  obtain ⟨call, hCall, _⟩ := h
  exact ne_of_calls hCall fresh

/-- A step that leaves its call as far as before leaves the same calls under way. -/
theorem underWay_put_iff {s : Traffic} {i : Nat} {call moved : Call} (h : s.calls i = some call)
    (hRole : moved.role = call.role) (hKey : moved.key = call.key)
    (hFiled : ∀ flight, call.role = .own flight → moved.progress.filed? = call.progress.filed?)
    (cache : Cache) (j flight : Nat) (key : Key) :
    (s.put i moved cache).UnderWay j flight key ↔ s.UnderWay j flight key := by
  refine exists_put_iff h ?_ cache
  rw [hRole, hKey]
  exact and_congr_right fun hOwn => by rw [hFiled flight hOwn]

section Puts

variable {s : Traffic} {i n : Nat} {call : Call} {cache : Cache} {key : Key}

/-- A flight is under way after a step of a call if the call has it under way, or another one. -/
theorem exists_underWay_put : (∃ j, (s.put i call cache).UnderWay j n key) ↔
    (call.role = .own n ∧ call.key = key ∧ call.progress.filed? = none) ∨
      ∃ j, j ≠ i ∧ s.UnderWay j n key := by
  simp only [underWay_put, exists_or, exists_eq_left]

theorem exists_underWay_put_of_fresh (fresh : s.calls i = none) :
    (∃ j, (s.put i call cache).UnderWay j n key) ↔
      (call.role = .own n ∧ call.key = key ∧ call.progress.filed? = none) ∨
        ∃ j, s.UnderWay j n key := by
  rw [exists_underWay_put]
  apply or_congr_right
  apply exists_congr
  intro j
  exact and_iff_right_of_imp fun hUnder => hUnder.ne_of_fresh fresh

/-- A call may come to stand like this, and leave the cache like that: it owns what it owned and
nothing that another call owns, and the cache tells of its flight how far it has come, and of all
others what it told before. -/
structure Fits (s : Traffic) (i : Nat) (call : Call) (cache : Cache) : Prop where
  distinct : cache.Distinct
  kept : ∀ old n, s.calls i = some old → old.role = .own n → call.role = .own n
  alone : ∀ j other n, s.calls j = some other → other.role = .own n → call.role = .own n → j = i
  others : ∀ n, call.role ≠ .own n → cache.flights[n]? = s.cache.flights[n]?
  flight : ∀ n, call.role = .own n → ∃ revoked, cache.flights[n]? = some (call.flight n revoked)
  key : ∀ n f, call.role = .own n → s.cache.flights[n]? = some f → f.key = call.key
  result : ∀ n delivery, s.cache.result? n = some delivery → cache.result? n = some delivery
  pending : ∀ key n, cache.slot? key = some (.pending n) ↔
    ∃ j, (s.put i call cache).UnderWay j n key
  waits : ∀ n, call.role = .wait n → ∃ f, s.cache.flights[n]? = some f ∧ f.key = call.key
  returned : ∀ result, call.progress = .returned result → cache.Due call.role result

theorem Fits.owned (fits : Fits s i call cache) (sound : s.Sound) {f : Flight}
    (h : cache.flights[n]? = some f) :
    ∃ j other, (s.put i call cache).calls j = some other ∧ other.role = .own n := by
  by_cases hOwn : call.role = .own n
  · exact ⟨i, call, put_self .., hOwn⟩
  · rw [fits.others n hOwn] at h
    obtain ⟨j, other, hCall, hOther⟩ := sound.owned n f h
    have hNe : j ≠ i := by
      rintro rfl
      exact hOwn (fits.kept other n hCall hOther)
    exact ⟨j, other, (put_ne s hNe ..).trans hCall, hOther⟩

theorem Fits.unique (fits : Fits s i call cache) (sound : s.Sound) {j k : Nat}
    {first second : Call} (hj : (s.put i call cache).calls j = some first)
    (hk : (s.put i call cache).calls k = some second) (hFirst : first.role = .own n)
    (hSecond : second.role = .own n) : j = k := by
  rcases put_cases hj with ⟨rfl, rfl⟩ | ⟨_, hj'⟩ <;>
    rcases put_cases hk with ⟨rfl, rfl⟩ | ⟨_, hk'⟩
  · rfl
  · exact (fits.alone k second n hk' hSecond hFirst).symm
  · exact fits.alone j first n hj' hFirst hSecond
  · exact sound.unique j k first second n hj' hk' hFirst hSecond

theorem Fits.owner (fits : Fits s i call cache) (sound : s.Sound) {j : Nat} {other : Call}
    (h : (s.put i call cache).calls j = some other) (hOwn : other.role = .own n) :
    ∃ revoked, cache.flights[n]? = some (other.flight n revoked) := by
  rcases put_cases h with ⟨rfl, rfl⟩ | ⟨hNe, hCall⟩
  · exact fits.flight n hOwn
  · obtain ⟨revoked, hFlight⟩ := sound.flight j other n hCall hOwn
    have hOther : call.role ≠ .own n := fun hSame => hNe (fits.alone j other n hCall hOwn hSame)
    exact ⟨revoked, (fits.others n hOther).trans hFlight⟩

theorem Fits.awaited (fits : Fits s i call cache) (sound : s.Sound) {j : Nat} {other : Call}
    (h : (s.put i call cache).calls j = some other) (hWait : other.role = .wait n) :
    ∃ f, cache.flights[n]? = some f ∧ f.key = other.key := by
  have hBefore : ∃ f, s.cache.flights[n]? = some f ∧ f.key = other.key := by
    rcases put_cases h with ⟨rfl, rfl⟩ | ⟨_, hCall⟩
    · exact fits.waits n hWait
    · exact sound.waits j other n hCall hWait
  obtain ⟨f, hFlight, hKey⟩ := hBefore
  by_cases hOwn : call.role = .own n
  · obtain ⟨revoked, hAfter⟩ := fits.flight n hOwn
    exact ⟨_, hAfter, (fits.key n f hOwn hFlight).symm.trans hKey⟩
  · exact ⟨f, (fits.others n hOwn).trans hFlight, hKey⟩

/-- Whatever a step makes of a call, it keeps the invariant if what it makes fits. -/
theorem Sound.put (sound : s.Sound) (fits : Fits s i call cache) : (s.put i call cache).Sound where
  distinct := fits.distinct
  owned := fun _ _ h => fits.owned sound h
  unique := fun _ _ _ _ _ hj hk hFirst hSecond => fits.unique sound hj hk hFirst hSecond
  flight := fun _ _ _ h hOwn => fits.owner sound h hOwn
  pending := fits.pending
  waits := fun _ _ _ h hWait => fits.awaited sound h hWait
  returned := by
    intro j other result h hResult
    rcases put_cases h with ⟨rfl, rfl⟩ | ⟨_, hCall⟩
    · exact fits.returned result hResult
    · exact (sound.returned j other result hCall hResult).mono fits.result

end Puts

section Moves

variable {s : Traffic} {i : Nat} {path : String} {content : Bytes} {role : Role}
  {progress next : Progress} {cache : Cache}

/-- A step of a call that has been looked up keeps the invariant if it changes no flight but the
one the call owns, and that one as the call has moved. -/
theorem Sound.advance (sound : s.Sound) (h : s.calls i = some ⟨path, content, role, progress⟩)
    (distinct : cache.Distinct)
    (hOthers : ∀ n, role ≠ .own n → cache.flights[n]? = s.cache.flights[n]?)
    (hOwn : ∀ n revoked, role = .own n →
      s.cache.flights[n]? = some (Call.flight ⟨path, content, role, progress⟩ n revoked) →
      cache.flights[n]? = some (Call.flight ⟨path, content, role, next⟩ n revoked))
    (hPublished : ∀ n ending, role = .own n → progress.published? = some ending →
      next.published? = some ending)
    (hPending : ∀ key n, cache.slot? key = some (.pending n) ↔
      ∃ j, (s.put i ⟨path, content, role, next⟩ cache).UnderWay j n key)
    (hReturned : ∀ result, next = .returned result → cache.Due role result) :
    (s.put i ⟨path, content, role, next⟩ cache).Sound := by
  apply sound.put
  constructor
  case distinct => exact distinct
  case kept =>
    intro old n hOld hOwned
    obtain rfl := Option.some.inj (h.symm.trans hOld)
    exact hOwned
  case alone => exact fun j other n hCall hOther hOwned =>
    sound.unique j i other _ n hCall h hOther hOwned
  case others => exact hOthers
  case flight =>
    intro n hOwned
    obtain ⟨revoked, hBefore⟩ := sound.flight i _ n h hOwned
    exact ⟨revoked, hOwn n revoked hOwned hBefore⟩
  case key =>
    intro n f hOwned hFlight
    obtain ⟨revoked, hBefore⟩ := sound.flight i _ n h hOwned
    obtain rfl := Option.some.inj (hFlight.symm.trans hBefore)
    rfl
  case result =>
    intro n delivery hDelivery
    by_cases hOwned : role = .own n
    · obtain ⟨revoked, hBefore⟩ := sound.flight i _ n h hOwned
      rw [result?_of_flight hBefore, Option.map_eq_some_iff] at hDelivery
      obtain ⟨ending, hEnding, rfl⟩ := hDelivery
      rw [result?_of_flight (hOwn n revoked hOwned hBefore), hPublished n ending hOwned hEnding,
        Option.map_some]
    · rw [result?, hOthers n hOwned]
      exact hDelivery
  case pending => exact hPending
  case waits => exact fun n hWait => sound.waits i ⟨path, content, role, progress⟩ n h hWait
  case returned => exact hReturned

/-- A step of a call that leaves all slots and flights alone keeps the invariant, if its flight
is as far as before. -/
theorem Sound.move (sound : s.Sound) (h : s.calls i = some ⟨path, content, role, progress⟩)
    (hSlots : cache.slots = s.cache.slots) (hFlights : cache.flights = s.cache.flights)
    (hFiled : ∀ n, role = .own n → next.filed? = progress.filed?)
    (hPublished : ∀ n, role = .own n → next.published? = progress.published?)
    (hReturned : ∀ result, next = .returned result → s.cache.Due role result) :
    (s.put i ⟨path, content, role, next⟩ cache).Sound := by
  have hSlot (key : Key) : cache.slot? key = s.cache.slot? key := by simp only [slot?, hSlots]
  have hDistinct : cache.Distinct := by
    unfold Distinct
    rw [hSlots]
    exact sound.distinct
  refine sound.advance h hDistinct ?_ ?_ ?_ ?_ ?_
  · exact fun n _ => by rw [hFlights]
  · intro n revoked hOwn hFlight
    rw [hFlights, hFlight]
    simp only [Call.flight, Call.key, hPublished n hOwn]
  · exact fun n ending hOwn hEnding => (hPublished n hOwn).trans hEnding
  · intro key n
    rw [hSlot, sound.pending]
    apply exists_congr
    intro j
    refine (underWay_put_iff h ?_ ?_ ?_ cache j n key).symm
    · rfl
    · rfl
    · exact hFiled
  · intro result hResult
    refine (hReturned result hResult).mono fun n delivery hDelivery => ?_
    rw [result?, hFlights]
    exact hDelivery

end Moves

/-! One lemma for each kind of step -/

section Steps

variable {s : Traffic} {i flight : Nat} {path : String} {content : Bytes} {ending : Ending}

/-- Two calls under way for one key are one call with one flight. -/
theorem Sound.underWay_unique (sound : s.Sound) {j other : Nat} {key : Key}
    (hi : s.UnderWay i flight key) (hj : s.UnderWay j other key) : i = j ∧ flight = other := by
  have hFirst := (sound.pending key flight).mpr ⟨i, hi⟩
  have hSecond := (sound.pending key other).mpr ⟨j, hj⟩
  rw [hFirst, Option.some.injEq, Slot.pending.injEq] at hSecond
  subst hSecond
  obtain ⟨call, hCall, hOwn, _⟩ := hi
  obtain ⟨call', hCall', hOwn', _⟩ := hj
  exact ⟨sound.unique i j call call' flight hCall hCall' hOwn hOwn', rfl⟩

/-- A flight is under way to one key. -/
theorem Sound.underWay_key (sound : s.Sound) {j : Nat} {key other : Key}
    (hi : s.UnderWay i flight key) (hj : s.UnderWay j flight other) : key = other := by
  obtain ⟨call, hCall, hOwn, rfl, _⟩ := hi
  obtain ⟨call', hCall', hOwn', rfl, _⟩ := hj
  obtain rfl := sound.unique i j call call' flight hCall hCall' hOwn hOwn'
  rw [hCall, Option.some.injEq] at hCall'
  rw [hCall']

/-- A new call that finds an image or a load under way. -/
theorem Sound.enter (sound : s.Sound) (fresh : s.calls i = none) {role : Role}
    (hRole : ∀ n, role ≠ .own n)
    (hWaits : ∀ n, role = .wait n →
      ∃ f, s.cache.flights[n]? = some f ∧ f.key = Key.of path content) :
    (s.put i ⟨path, content, role, .entered⟩ s.cache).Sound := by
  apply sound.put
  constructor
  case distinct => exact sound.distinct
  case kept =>
    intro old n hOld
    rw [fresh] at hOld
    cases hOld
  case alone => exact fun _ _ n _ _ hOwn => absurd hOwn (hRole n)
  case others => exact fun _ _ => rfl
  case flight => exact fun n hOwn => absurd hOwn (hRole n)
  case key => exact fun n _ hOwn _ => absurd hOwn (hRole n)
  case result => exact fun _ _ hDelivery => hDelivery
  case pending =>
    intro key n
    rw [exists_underWay_put_of_fresh fresh, or_iff_right fun hOwn => hRole n hOwn.1]
    exact sound.pending key n
  case waits => exact hWaits
  case returned =>
    intro result hResult
    cases hResult

/-- A slot is pending after a call has found nothing if it was before, or is the one that the call
has filled. -/
theorem Sound.pending_begin (sound : s.Sound) (fresh : s.calls i = none)
    (hNone : s.cache.slot? (Key.of path content) = none) (key : Key) (n : Nat) :
    (s.cache.begin path content).slot? key = some (.pending n) ↔
      ∃ j, (s.put i ⟨path, content, .own s.cache.nextFlight, .entered⟩
        (s.cache.begin path content)).UnderWay j n key := by
  rw [slot?_begin, exists_underWay_put_of_fresh fresh, ← sound.pending key n]
  by_cases hKey : key = Key.of path content
  · rw [if_pos hKey, hKey, hNone]
    simp [Call.key, Progress.filed?]
  · rw [if_neg hKey]
    simp [Call.key, Ne.symm hKey]

/-- A new call that finds nothing, and becomes the owner of a new flight. -/
theorem Sound.begin (sound : s.Sound) (fresh : s.calls i = none)
    (hNone : s.cache.slot? (Key.of path content) = none) :
    (s.put i ⟨path, content, .own s.cache.nextFlight, .entered⟩
      (s.cache.begin path content)).Sound := by
  -- No call knows a flight of the new number, since every flight that a call knows is listed.
  have hNew (f : Flight) : s.cache.flights[s.cache.nextFlight]? ≠ some f := by
    simp [nextFlight]
  apply sound.put
  constructor
  case distinct => exact sound.distinct.begin hNone
  case kept =>
    intro old n hOld
    rw [fresh] at hOld
    cases hOld
  case alone =>
    rintro j other n hCall hOther ⟨⟩
    obtain ⟨revoked, hFlight⟩ := sound.flight j other _ hCall hOther
    exact absurd hFlight (hNew _)
  case others =>
    intro n hOther
    rw [flights_begin, if_neg]
    rintro rfl
    exact hOther rfl
  case flight =>
    rintro n ⟨⟩
    exact ⟨false, by rw [flights_begin, if_pos rfl]; rfl⟩
  case key =>
    rintro n f ⟨⟩ hFlight
    exact absurd hFlight (hNew f)
  case result =>
    intro n delivery hDelivery
    rw [result?_begin, hDelivery]
  case pending => exact sound.pending_begin fresh hNone
  case waits =>
    intro n hWait
    cases hWait
  case returned =>
    intro result hResult
    cases hResult

/-- A completion leaves its own slot to nobody, and all others to those who have them. -/
theorem Sound.pending_complete (sound : s.Sound)
    (h : s.calls i = some ⟨path, content, .own flight, .loaded ending⟩) (key : Key) (n : Nat) :
    (s.cache.complete flight (s.cache.delivery flight ending)).slot? key = some (.pending n) ↔
      ∃ j, (s.put i ⟨path, content, .own flight, .filed ending⟩
        (s.cache.complete flight (s.cache.delivery flight ending))).UnderWay j n key := by
  obtain ⟨revoked, hFlight⟩ := sound.flight i _ flight h rfl
  have hHere : s.UnderWay i flight (Key.of path content) := ⟨_, h, rfl, rfl, rfl⟩
  rw [exists_underWay_put, or_iff_right (by simp [Progress.filed?]),
    slot?_complete sound.distinct hFlight]
  change (if key = Key.of path content then _ else _) = _ ↔ _
  by_cases hKey : key = Key.of path content
  · rw [if_pos hKey, hKey]
    apply iff_of_false (kept_ne_pending _ _ _)
    rintro ⟨j, hNe, hUnder⟩
    exact hNe (sound.underWay_unique hUnder hHere).1
  · rw [if_neg hKey, sound.pending]
    apply exists_congr
    intro j
    refine (and_iff_right_of_imp ?_).symm
    rintro ⟨other, hOther, -, hAt, -⟩ rfl
    obtain rfl := Option.some.inj (h.symm.trans hOther)
    exact hKey hAt.symm

/-- A completion empties or fills the slot of its own flight, and no other. -/
theorem Sound.complete (sound : s.Sound)
    (h : s.calls i = some ⟨path, content, .own flight, .loaded ending⟩) :
    (s.put i ⟨path, content, .own flight, .filed ending⟩
      (s.cache.complete flight (s.cache.delivery flight ending))).Sound := by
  refine sound.advance h (sound.distinct.complete ..) ?_ ?_ ?_ (sound.pending_complete h) ?_
  · exact fun n _ => by rw [flights_complete]
  · intro n revoked hOwn hBefore
    rw [flights_complete]
    exact hBefore
  · intro n ending' _ hEnding
    cases hEnding
  · intro result hResult
    cases hResult

/-- A publication is the only step that writes the result of a flight. -/
theorem Sound.publish (sound : s.Sound)
    (h : s.calls i = some ⟨path, content, .own flight, .filed ending⟩) :
    (s.put i ⟨path, content, .own flight, .published ending⟩
      (s.cache.publish flight (s.cache.delivery flight ending))).Sound := by
  obtain ⟨revoked, hFlight⟩ := sound.flight i _ flight h rfl
  refine sound.advance h sound.distinct ?_ ?_ ?_ ?_ ?_
  · intro n hOwn
    rw [flights_publish, if_neg]
    rintro rfl
    exact hOwn rfl
  · intro n revoked' hOwn hBefore
    obtain rfl := Role.own.inj hOwn
    rw [flights_publish, if_pos rfl, hBefore, delivery_eq hFlight]
    rfl
  · intro n ending' _ hEnding
    cases hEnding
  · intro key n
    refine (sound.pending key n).trans (exists_congr fun j => ?_)
    refine (underWay_put_iff h ?_ ?_ ?_ _ j n key).symm
    · rfl
    · rfl
    · exact fun _ _ => rfl
  · intro result hResult
    cases hResult

/-- Dropping images takes none of the loads under way from its owner. -/
theorem Sound.drop (sound : s.Sound) (selected : Key → Bool) :
    Sound { s with cache := s.cache.drop selected } := by
  have hFlights (n : Nat) (f : Flight) (h : s.cache.flights[n]? = some f) :
      ∃ revoked, (s.cache.drop selected).flights[n]? = some { f with revoked } := by
    obtain ⟨revoked, hAfter, _⟩ := flights_drop sound.distinct selected n h
    exact ⟨revoked, hAfter⟩
  constructor
  case distinct => exact sound.distinct.drop selected
  case owned =>
    intro n f hAfter
    have hIndex : n < s.cache.flights.length := by
      rw [← length_flights_drop selected]
      exact (List.getElem?_eq_some_iff.mp hAfter).1
    exact sound.owned n _ (List.getElem?_eq_getElem hIndex)
  case unique => exact sound.unique
  case flight =>
    intro j call n hCall hOwn
    obtain ⟨revoked, hBefore⟩ := sound.flight j call n hCall hOwn
    exact hFlights n _ hBefore
  case pending =>
    intro key n
    refine Iff.trans ?_ (sound.pending key n)
    change (s.cache.drop selected).slot? key = _ ↔ _
    rw [slot?_drop sound.distinct, Option.filter_eq_some_iff]
    simp
  case waits =>
    intro j call n hCall hWait
    obtain ⟨f, hBefore, hKey⟩ := sound.waits j call n hCall hWait
    obtain ⟨revoked, hAfter⟩ := hFlights n f hBefore
    exact ⟨_, hAfter, hKey⟩
  case returned =>
    intro j call result hCall hResult
    exact (sound.returned j call result hCall hResult).mono fun n delivery hDelivery =>
      (result?_drop sound.distinct selected n).trans hDelivery

end Steps

theorem Sound.step {s t : Traffic} {act : Act} (sound : s.Sound) (step : Step s act t) :
    t.Sound := by
  cases step with
  | lookup i path content fresh found =>
      rcases lookup_cases found with ⟨image, _, rfl, rfl⟩ | ⟨flight, hSlot, rfl, rfl⟩ |
        ⟨hSlot, rfl, rfl⟩
      · exact sound.enter fresh (fun n h => by cases h) (fun n h => by cases h)
      · refine sound.enter fresh (fun n h => by cases h) ?_
        rintro n ⟨⟩
        obtain ⟨j, call, hCall, hOwn, hKey, _⟩ := (sound.pending _ _).mp hSlot
        obtain ⟨revoked, hFlight⟩ := sound.flight j call flight hCall hOwn
        exact ⟨_, hFlight, hKey⟩
      · exact sound.begin fresh hSlot
  | count i h =>
      exact sound.move h (slots_count _) (flights_count _) (fun _ _ => rfl) (fun _ _ => rfl)
        (fun _ hResult => by cases hResult)
  | load i ending h =>
      exact sound.move h rfl rfl (fun _ _ => rfl) (fun _ _ => rfl)
        (fun _ hResult => by cases hResult)
  | complete i h => exact sound.complete h
  | publish i h => exact sound.publish h
  | take i h =>
      refine sound.move h rfl rfl (fun n hOwn => by cases hOwn) (fun n hOwn => by cases hOwn) ?_
      rintro result ⟨⟩
      rfl
  | wake i h ready =>
      refine sound.move h rfl rfl (fun n hOwn => by cases hOwn) (fun n hOwn => by cases hOwn) ?_
      rintro result ⟨⟩
      obtain ⟨delivery, hDelivery⟩ := Option.isSome_iff_exists.mp ready
      refine ⟨delivery, hDelivery, ?_⟩
      rw [delivered_eq, hDelivery, Option.getD_some]
  | @leave i flight path content ending h =>
      have hImage : (ending.map fun image => (⟨flight, image⟩ : Shared)).map Shared.image =
          ending := by cases ending <;> rfl
      have hSome := congrArg some hImage
      refine sound.move h rfl rfl (fun _ _ => hSome) (fun _ _ => hSome) ?_
      rintro result ⟨⟩
      exact ⟨ending, rfl⟩
  | invalidate path => exact sound.drop fun key => key.place = Path.components path
  | clear => exact sound.drop _
  | measure gauge => exact sound

theorem Sound.runs {s t : Traffic} {acts : List Act} (sound : s.Sound) (runs : Runs s acts t) :
    t.Sound := by
  induction runs with
  | zero => exact sound
  | succ prior last ih => exact ih.step last

/-- The invariant holds whatever steps have been taken, in whatever order. -/
theorem Runs.sound {acts : List Act} {s : Traffic} (run : Run acts s) : s.Sound :=
  sound_start.runs run

end Traffic

end ImagePlacement
