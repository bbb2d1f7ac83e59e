import ImagePlacement.Proofs.Cache.Requests
import ImagePlacement.Proofs.Cache.Retention

/-! Keys do not influence each other. A run without the calls for other keys is a run, in which
the calls for one key fare as before. Its flights have other numbers, since there are fewer of
them, so that what callers hold is the same up to these numbers. -/
namespace ImagePlacement

/-! The same with other numbers for the flights -/

section Rename

variable (rename : Nat → Nat)

def Shared.renumber (image : Shared) : Shared := ⟨rename image.flight, image.image⟩

def Slot.renumber : Slot → Slot
  | .ready image => .ready (image.renumber rename)
  | .pending flight => .pending (rename flight)

def Role.renumber : Role → Role
  | .hit image => .hit (image.renumber rename)
  | .wait flight => .wait (rename flight)
  | .own flight => .own (rename flight)

def Progress.renumber : Progress → Progress
  | .returned result => .returned (result.map (Shared.renumber rename))
  | .entered => .entered
  | .counted => .counted
  | .loaded ending => .loaded ending
  | .filed ending => .filed ending
  | .published ending => .published ending

def Call.renumber (call : Call) : Call :=
  ⟨call.path, call.content, call.role.renumber rename, call.progress.renumber rename⟩

def Delivery.renumber : Delivery → Delivery := Except.map (Shared.renumber rename)

variable {rename}

theorem Progress.published?_renumber (progress : Progress) :
    (progress.renumber rename).published? = progress.published? := by
  cases progress with
  | returned result => cases result <;> rfl
  | _ => rfl

theorem Progress.filed?_renumber (progress : Progress) :
    (progress.renumber rename).filed? = progress.filed? := by
  cases progress with
  | returned result => cases result <;> rfl
  | _ => rfl

namespace Cache

theorem settlement_renumber (path : String) (flight : Nat) (ending : Ending) :
    settlement path (rename flight) ending =
      Delivery.renumber rename (settlement path flight ending) := by
  cases ending <;> rfl

theorem kept_renumber (revoked : Bool) (result : Delivery) :
    kept revoked (Delivery.renumber rename result) =
      (kept revoked result).map (Slot.renumber rename) := by
  cases result with
  | error e => rfl
  | ok image => cases revoked <;> rfl

/-- Two caches differ in nothing but counters and results. -/
structure Alike (c d : Cache) : Prop where
  slot : ∀ key, d.slot? key = c.slot? key
  keys : d.flights.map Flight.key = c.flights.map Flight.key
  revoked : ∀ flight, d.isRevoked flight = c.isRevoked flight

variable {c d : Cache}

theorem Alike.nextFlight (alike : c.Alike d) : d.nextFlight = c.nextFlight := by
  have hLength := congrArg List.length alike.keys
  rwa [List.length_map, List.length_map] at hLength

theorem Alike.refl : c.Alike c := ⟨fun _ => rfl, rfl, fun _ => rfl⟩

theorem alike_count (role : Role) : c.Alike (c.count role) where
  slot := by intro key; simp only [slot?, slots_count]
  keys := by rw [flights_count]
  revoked := isRevoked_count role

theorem keys_publish (flight : Nat) (result : Delivery) :
    (c.publish flight result).flights.map Flight.key = c.flights.map Flight.key := by
  refine List.ext_getElem? fun n => ?_
  rw [List.getElem?_map, List.getElem?_map, flights_publish]
  split
  · rw [Option.map_map]
    rfl
  · rfl

theorem alike_publish (flight : Nat) (result : Delivery) : c.Alike (c.publish flight result) where
  slot := fun _ => rfl
  keys := keys_publish flight result
  revoked := isRevoked_publish flight result

theorem keys_drop (distinct : c.Distinct) (selected : Key → Bool) :
    (c.drop selected).flights.map Flight.key = c.flights.map Flight.key := by
  refine List.ext_getElem? fun n => ?_
  rw [List.getElem?_map, List.getElem?_map]
  cases hFlight : c.flights[n]? with
  | none =>
      have hBeyond := List.getElem?_eq_none_iff.mp hFlight
      rw [← length_flights_drop selected] at hBeyond
      rw [List.getElem?_eq_none hBeyond]
  | some f =>
      obtain ⟨revoked, hAfter, _⟩ := flights_drop distinct selected n hFlight
      rw [hAfter]
      rfl

theorem keys_begin (path : String) (content : Bytes) :
    (c.begin path content).flights.map Flight.key =
      c.flights.map Flight.key ++ [Key.of path content] := List.map_append

end Cache

end Rename

namespace Traffic

open Cache

variable {s t s' : Traffic} {act : Act} {acts : List Act} {key : Key} {rename : Nat → Nat}
  {i : Nat}

/-- Up to the numbers of flights the slot of the key and the calls for it are the same, and on the
second side there are no other calls. -/
structure Mirrors (key : Key) (rename : Nat → Nat) (s s' : Traffic) : Prop where
  slot : s'.cache.slot? key = (s.cache.slot? key).map (Slot.renumber rename)
  calls : ∀ i, s'.calls i =
    ((s.calls i).filter fun call => call.key = key).map (Call.renumber rename)

/-- What makes the second side stay the mirror image when both go on: its next flight gets the
number that comes next among the flights to the key, and a load that is under way will be kept on
both sides or on neither. -/
structure Shadow (key : Key) (rename : Nat → Nat) (s s' : Traffic) : Prop
    extends Mirrors key rename s s' where
  flights : s'.cache.nextFlight = (s.cache.flights.map Flight.key).count key
  revoked : ∀ i flight, s.UnderWay i flight key →
    s'.cache.isRevoked (rename flight) = s.cache.isRevoked flight

theorem shadow_start : Shadow key rename start start where
  slot := rfl
  calls := fun _ => rfl
  flights := rfl
  revoked := by
    rintro i flight ⟨call, hCall, _⟩
    cases hCall

theorem Mirrors.call (mirrors : Mirrors key rename s s') {call : Call} (h : s.calls i = some call)
    (hKey : call.key = key) : s'.calls i = some (call.renumber rename) := by
  rw [mirrors.calls, h, Option.filter_some_pos (by simpa using hKey)]
  rfl

theorem Mirrors.fresh (mirrors : Mirrors key rename s s') (h : s.calls i = none) :
    s'.calls i = none := by
  rw [mirrors.calls, h]
  rfl

/-- Both sides make the same call, or take it as far. -/
theorem Mirrors.calls_put (mirrors : Mirrors key rename s s') (moved : Call)
    (hKey : moved.key = key) (cache cache' : Cache) (j : Nat) :
    (s'.put i (moved.renumber rename) cache').calls j =
      (((s.put i moved cache).calls j).filter fun call => call.key = key).map
        (Call.renumber rename) := by
  by_cases hSame : j = i
  · subst hSame
    rw [put_self, put_self, Option.filter_some_pos (by simpa using hKey)]
    rfl
  · rw [put_ne s hSame, put_ne s' hSame, mirrors.calls]

/-- A call for another key leaves no trace. -/
theorem Mirrors.calls_put_ne (mirrors : Mirrors key rename s s') (moved : Call)
    (hOld : ∀ call, s.calls i = some call → call.key ≠ key) (hKey : moved.key ≠ key)
    (cache : Cache) (j : Nat) : s'.calls j =
      (((s.put i moved cache).calls j).filter fun call => call.key = key).map
        (Call.renumber rename) := by
  by_cases hSame : j = i
  · subst hSame
    rw [put_self, mirrors.calls, Option.filter_some_neg (by simpa using hKey)]
    cases hCall : s.calls j with
    | none => rfl
    | some call => rw [Option.filter_some_neg (by simpa using hOld call hCall)]
  · rw [put_ne s hSame, mirrors.calls]

/-- A step that leaves no new load under way for the key revokes nothing by itself. -/
theorem Shadow.revoked_put (shadow : Shadow key rename s s') {call : Call} {cache : Cache}
    {j flight : Nat} (hUnder : (s.put i call cache).UnderWay j flight key)
    (hNot : ¬ (call.role = .own flight ∧ call.key = key ∧ call.progress.filed? = none)) :
    s'.cache.isRevoked (rename flight) = s.cache.isRevoked flight := by
  rcases underWay_put.mp hUnder with ⟨_, hHere⟩ | ⟨_, hUnder⟩
  · exact absurd hHere hNot
  · exact shadow.revoked j flight hUnder

/-! One lemma for each kind of step -/

section Steps

variable {path : String} {content : Bytes} {flight : Nat}

/-- A step of a call that leaves slots, keys and revocations as they are. -/
theorem Shadow.move (shadow : Shadow key rename s s') {call moved : Call} {cache cache' : Cache}
    (h : s.calls i = some call) (hMine : call.key = key) (hKey : moved.key = call.key)
    (hRole : moved.role = call.role)
    (hFiled : ∀ n, call.role = .own n → moved.progress.filed? = call.progress.filed?)
    (alike : s.cache.Alike cache) (alike' : s'.cache.Alike cache') :
    Shadow key rename (s.put i moved cache) (s'.put i (moved.renumber rename) cache') where
  slot := by rw [put_cache, put_cache, alike.slot, alike'.slot, shadow.slot]
  calls := shadow.calls_put moved (hKey.trans hMine) cache cache'
  flights := by rw [put_cache, put_cache, alike'.nextFlight, alike.keys, shadow.flights]
  revoked := by
    intro j n hUnder
    rw [put_cache, put_cache, alike'.revoked, alike.revoked]
    exact shadow.revoked j n ((underWay_put_iff h hRole hKey hFiled cache j n key).mp hUnder)

/-- The same step of a call for another key. -/
theorem Shadow.ignore (shadow : Shadow key rename s s') {call moved : Call} {cache : Cache}
    (h : s.calls i = some call) (hKey : moved.key = call.key) (hOther : moved.key ≠ key)
    (alike : s.cache.Alike cache) : Shadow key rename (s.put i moved cache) s' where
  slot := by rw [put_cache, alike.slot, shadow.slot]
  calls := by
    refine shadow.calls_put_ne moved (fun old hOld => ?_) hOther cache
    rwa [call_unique hOld h, ← hKey]
  flights := by rw [put_cache, alike.keys, shadow.flights]
  revoked := by
    intro j n hUnder
    rw [put_cache, alike.revoked]
    exact shadow.revoked_put hUnder fun h => hOther h.2.1

/-- A new call that finds an image or a load under way. -/
theorem Shadow.enter (shadow : Shadow key rename s s') (role : Role) (hRole : ∀ n, role ≠ .own n)
    (hKey : Key.of path content = key) :
    Shadow key rename (s.put i ⟨path, content, role, .entered⟩ s.cache)
      (s'.put i ⟨path, content, role.renumber rename, .entered⟩ s'.cache) where
  slot := shadow.slot
  calls := shadow.calls_put ⟨path, content, role, .entered⟩ hKey s.cache s'.cache
  flights := shadow.flights
  revoked := by
    intro j n hUnder
    exact shadow.revoked_put hUnder fun h => hRole n h.1

/-- A new call that begins a load, which the other side begins under its own number. -/
theorem Shadow.begin (shadow : Shadow key rename s s') (hKey : Key.of path content = key)
    (hNew : rename s.cache.nextFlight = s'.cache.nextFlight) :
    Shadow key rename
      (s.put i ⟨path, content, .own s.cache.nextFlight, .entered⟩ (s.cache.begin path content))
      (s'.put i ⟨path, content, .own s'.cache.nextFlight, .entered⟩
        (s'.cache.begin path content)) where
  slot := by
    rw [put_cache, put_cache, slot?_begin, slot?_begin, if_pos hKey.symm, if_pos hKey.symm, ← hNew]
    rfl
  calls := by
    rw [← hNew]
    exact shadow.calls_put ⟨path, content, .own s.cache.nextFlight, .entered⟩ hKey _ _
  flights := by
    rw [put_cache, put_cache, keys_begin, List.count_append, ← shadow.flights, hKey]
    simp [nextFlight, Cache.begin]
  revoked := by
    intro j n hUnder
    rw [put_cache, put_cache, isRevoked_begin, isRevoked_begin]
    rcases underWay_put.mp hUnder with ⟨_, hOwn, _⟩ | ⟨_, hUnder⟩
    · obtain rfl := Role.own.inj hOwn
      rw [hNew]
      simp [isRevoked, nextFlight]
    · exact shadow.revoked j n hUnder

/-- A new call for another key. -/
theorem Shadow.enter_ne (shadow : Shadow key rename s s') (fresh : s.calls i = none) {role : Role}
    (hKey : Key.of path content ≠ key) {cache : Cache}
    (found : s.cache.lookup path content = (role, cache)) :
    Shadow key rename (s.put i ⟨path, content, role, .entered⟩ cache) s' := by
  have hCache : cache.slot? key = s.cache.slot? key ∧
      (cache.flights.map Flight.key).count key = (s.cache.flights.map Flight.key).count key ∧
      ∀ n, cache.isRevoked n = s.cache.isRevoked n := by
    rcases lookup_cases found with ⟨_, _, _, rfl⟩ | ⟨_, _, _, rfl⟩ | ⟨_, _, rfl⟩
    · exact ⟨rfl, rfl, fun _ => rfl⟩
    · exact ⟨rfl, rfl, fun _ => rfl⟩
    · refine ⟨?_, ?_, isRevoked_begin path content⟩
      · rw [slot?_begin, if_neg (Ne.symm hKey)]
      · rw [keys_begin, List.count_append, List.count_singleton, if_neg (by simpa using hKey),
          Nat.add_zero]
  obtain ⟨hSlot, hFlights, hRevoked⟩ := hCache
  refine { slot := ?slot, calls := ?calls, flights := ?flights, revoked := ?revoked }
  case slot => rw [put_cache, hSlot, shadow.slot]
  case calls =>
    refine shadow.calls_put_ne ⟨path, content, role, .entered⟩ (fun call hCall => ?_) hKey _
    rw [fresh] at hCall
    cases hCall
  case flights => rw [put_cache, hFlights, shadow.flights]
  case revoked =>
    intro j n hUnder
    rw [put_cache, hRevoked]
    exact shadow.revoked_put hUnder fun h => hKey h.2.1

/-- A completion, whose flight is revoked on both sides or on neither. -/
theorem Shadow.complete (shadow : Shadow key rename s s') (sound : s.Sound) (sound' : s'.Sound)
    {ending : Ending} (h : s.calls i = some ⟨path, content, .own flight, .loaded ending⟩)
    (hKey : Key.of path content = key) :
    Shadow key rename
      (s.put i ⟨path, content, .own flight, .filed ending⟩
        (s.cache.complete flight (s.cache.delivery flight ending)))
      (s'.put i ⟨path, content, .own (rename flight), .filed ending⟩
        (s'.cache.complete (rename flight) (s'.cache.delivery (rename flight) ending))) := by
  have h' := shadow.call h hKey
  obtain ⟨revoked, hFlight⟩ := sound.flight i _ flight h rfl
  obtain ⟨revoked', hFlight'⟩ := sound'.flight i _ (rename flight) h' rfl
  have hRevoked := shadow.revoked i flight ⟨_, h, rfl, hKey, rfl⟩
  rw [isRevoked_of_getElem hFlight, isRevoked_of_getElem hFlight'] at hRevoked
  refine { slot := ?slot, calls := ?calls, flights := ?flights, revoked := ?revoked }
  case slot =>
    have hHere := (slot?_complete sound.distinct hFlight (s.cache.delivery flight ending) key).trans
      (if_pos hKey.symm)
    have hThere := (slot?_complete sound'.distinct hFlight'
      (s'.cache.delivery (rename flight) ending) key).trans (if_pos hKey.symm)
    rw [put_cache, put_cache, hHere, hThere, delivery_eq hFlight, delivery_eq hFlight', hRevoked,
      ← kept_renumber]
    exact congrArg (kept _) (settlement_renumber path flight ending)
  case calls => exact shadow.calls_put ⟨path, content, .own flight, .filed ending⟩ hKey _ _
  case flights =>
    rw [put_cache, put_cache, nextFlight, flights_complete, flights_complete, ← nextFlight,
      shadow.flights]
  case revoked =>
    intro j n hUnder
    rw [put_cache, put_cache, isRevoked_complete, isRevoked_complete]
    exact shadow.revoked_put hUnder fun h => Option.some_ne_none _ h.2.2

/-- A completion for another key. -/
theorem Shadow.complete_ne (shadow : Shadow key rename s s') (sound : s.Sound) {ending : Ending}
    (h : s.calls i = some ⟨path, content, .own flight, .loaded ending⟩)
    (hKey : Key.of path content ≠ key) :
    Shadow key rename (s.put i ⟨path, content, .own flight, .filed ending⟩
      (s.cache.complete flight (s.cache.delivery flight ending))) s' := by
  obtain ⟨revoked, hFlight⟩ := sound.flight i _ flight h rfl
  refine { slot := ?slot, calls := ?calls, flights := ?flights, revoked := ?revoked }
  case slot =>
    have hElsewhere := (slot?_complete sound.distinct hFlight (s.cache.delivery flight ending)
      key).trans (if_neg (Ne.symm hKey))
    rw [put_cache, hElsewhere, shadow.slot]
  case calls =>
    refine shadow.calls_put_ne ⟨path, content, .own flight, .filed ending⟩
      (fun old hOld => ?_) hKey _
    rw [call_unique hOld h]
    exact hKey
  case flights => rw [put_cache, flights_complete, shadow.flights]
  case revoked =>
    intro j n hUnder
    rw [put_cache, isRevoked_complete]
    exact shadow.revoked_put hUnder fun h => Option.some_ne_none _ h.2.2

/-- A drop of keys with or without this one, which the other side takes part in or not. -/
theorem Shadow.drop (shadow : Shadow key rename s s') (sound : s.Sound) (sound' : s'.Sound)
    (selected : Key → Bool) (hSelected : selected key = true) :
    Shadow key rename { s with cache := s.cache.drop selected }
      { s' with cache := s'.cache.drop selected } := by
  refine { slot := ?slot, calls := shadow.calls, flights := ?flights, revoked := ?revoked }
  case slot =>
    change (s'.cache.drop selected).slot? key = ((s.cache.drop selected).slot? key).map _
    rw [slot?_drop sound.distinct, slot?_drop sound'.distinct, shadow.slot]
    cases hSlot : s.cache.slot? key with
    | none => rfl
    | some slot => cases slot <;> simp [Slot.renumber, Option.filter, hSelected]
  case flights =>
    change (s'.cache.drop selected).flights.length = _
    rw [length_flights_drop, keys_drop sound.distinct]
    exact shadow.flights
  case revoked =>
    intro j n hUnder
    obtain ⟨call, hCall, hOwn, hKey, hFiled⟩ := hUnder
    have hUnder' : s'.UnderWay j (rename n) key :=
      ⟨_, shadow.call hCall hKey, by rw [Call.renumber, hOwn]; rfl, hKey,
        (Progress.filed?_renumber _).trans hFiled⟩
    change (s'.cache.drop selected).isRevoked _ = (s.cache.drop selected).isRevoked _
    rw [sound.isRevoked_drop ⟨call, hCall, hOwn, hKey, hFiled⟩, sound'.isRevoked_drop hUnder',
      hSelected, Bool.or_true, Bool.or_true]

theorem Shadow.drop_ne (shadow : Shadow key rename s s') (sound : s.Sound)
    (selected : Key → Bool) (hSelected : selected key = false) :
    Shadow key rename { s with cache := s.cache.drop selected } s' := by
  refine { slot := ?slot, calls := shadow.calls, flights := ?flights, revoked := ?revoked }
  case slot =>
    change _ = ((s.cache.drop selected).slot? key).map _
    rw [slot?_drop sound.distinct, shadow.slot]
    cases hSlot : s.cache.slot? key with
    | none => rfl
    | some slot => cases slot <;> simp [Option.filter, hSelected]
  case flights =>
    change _ = ((s.cache.drop selected).flights.map Flight.key).count key
    rw [keys_drop sound.distinct, shadow.flights]
  case revoked =>
    intro j n hUnder
    change _ = (s.cache.drop selected).isRevoked n
    rw [sound.isRevoked_drop hUnder, hSelected, Bool.or_false]
    exact shadow.revoked j n hUnder

/-- What is handed out of a flight is the same on both sides. -/
theorem Shadow.result?_eq (shadow : Shadow key rename s s') (sound : s.Sound) (sound' : s'.Sound)
    {call : Call} (h : s.calls i = some call) (hWait : call.role = .wait flight)
    (hKey : call.key = key) :
    s'.cache.result? (rename flight) =
      (s.cache.result? flight).map (Delivery.renumber rename) := by
  obtain ⟨f, hFlight, hAt⟩ := sound.waits i call flight h hWait
  obtain ⟨j, owner, hOwner, hOwn⟩ := sound.owned flight f hFlight
  obtain ⟨revoked, hKnown⟩ := sound.flight j owner flight hOwner hOwn
  have hMine : owner.key = key := by
    rw [hFlight, Option.some.injEq] at hKnown
    rw [← hKey, ← hAt, hKnown]
    rfl
  rw [sound.result?_of_own hOwner hOwn, sound'.result?_of_own (shadow.call hOwner hMine)
    (show (owner.renumber rename).role = .own (rename flight) by rw [Call.renumber, hOwn]; rfl)]
  change (owner.progress.renumber rename).published?.map _ = _
  rw [Progress.published?_renumber, Option.map_map]
  exact congrArg (Option.map · _) (funext fun ending => settlement_renumber owner.path flight ending)

/-- A look-up finds the same on both sides, since the slot of the key alone decides the role. -/
theorem Shadow.follow_lookup (shadow : Shadow key rename s s')
    (hNew : rename s.cache.nextFlight = s'.cache.nextFlight) (fresh : s.calls i = none)
    (hKey : Key.of path content = key) {role : Role} {cache : Cache}
    (found : s.cache.lookup path content = (role, cache)) :
    ∃ t', Step s' (.lookup i path content) t' ∧
      Shadow key rename (s.put i ⟨path, content, role, .entered⟩ cache) t' := by
  have fresh' := shadow.fresh fresh
  have hSlot' := shadow.slot
  rw [← hKey] at hSlot'
  rcases lookup_cases found with ⟨image, hSlot, rfl, rfl⟩ | ⟨flight, hSlot, rfl, rfl⟩ |
    ⟨hSlot, rfl, rfl⟩
  all_goals rw [hSlot] at hSlot'
  · exact ⟨_, .lookup i path content fresh' (lookup_ready hSlot'),
      shadow.enter (.hit image) nofun hKey⟩
  · exact ⟨_, .lookup i path content fresh' (lookup_pending hSlot'),
      shadow.enter (.wait flight) nofun hKey⟩
  · exact ⟨_, .lookup i path content fresh' (lookup_none hSlot'), shadow.begin hKey hNew⟩

/-- Who waits is given the same on both sides: the owner of the flight is a call for the same key,
so it is there on the other side too. -/
theorem Shadow.follow_wake (shadow : Shadow key rename s s') (sound : s.Sound) (sound' : s'.Sound)
    (h : s.calls i = some ⟨path, content, .wait flight, .counted⟩)
    (hKey : Key.of path content = key) (ready : (s.cache.result? flight).isSome) :
    ∃ t', Step s' (.answer i) t' ∧ Shadow key rename (s.put i ⟨path, content, .wait flight,
      .returned (Outcome.ofExcept (s.cache.delivered flight))⟩ s.cache) t' := by
  have hResult := shadow.result?_eq sound sound' h rfl hKey
  obtain ⟨delivery, hDelivery⟩ := Option.isSome_iff_exists.mp ready
  rw [hDelivery] at hResult
  refine ⟨_, .wake i (shadow.call h hKey) (by rw [hResult]; rfl), ?_⟩
  have hEnd : Progress.returned (Outcome.ofExcept (s'.cache.delivered (rename flight))) =
      (Progress.returned (Outcome.ofExcept (s.cache.delivered flight))).renumber rename := by
    rw [delivered_eq, delivered_eq, hDelivery, hResult]
    cases delivery <;> rfl
  rw [hEnd]
  exact shadow.move h hKey rfl rfl nofun .refl .refl

theorem Shadow.follow_leave (shadow : Shadow key rename s s') {ending : Ending}
    (h : s.calls i = some ⟨path, content, .own flight, .published ending⟩)
    (hKey : Key.of path content = key) :
    ∃ t', Step s' (.answer i) t' ∧ Shadow key rename (s.put i ⟨path, content, .own flight,
      .returned (ending.map fun image => ⟨flight, image⟩)⟩ s.cache) t' := by
  refine ⟨_, .leave i (shadow.call h hKey), ?_⟩
  have hEnd : Progress.returned (ending.map fun image => ⟨rename flight, image⟩) =
      (Progress.returned (ending.map fun image => ⟨flight, image⟩)).renumber rename := by
    cases ending <;> rfl
  rw [hEnd]
  refine shadow.move h hKey rfl rfl (fun _ _ => ?_) .refl .refl
  cases ending <;> rfl

end Steps

/-- A step that concerns the key is taken on both sides. -/
theorem Shadow.follow (shadow : Shadow key rename s s') (sound : s.Sound) (sound' : s'.Sound)
    (hNew : rename s.cache.nextFlight = s'.cache.nextFlight) (step : Step s act t)
    (hMine : ∀ i call, act.caller? = some i → t.calls i = some call → call.key = key)
    (hDrops : act.caller? = none → act.drops key = true) :
    ∃ act' t', Step s' act' t' ∧ act'.request = act.request ∧ Shadow key rename t t' := by
  cases step with
  | lookup i path content fresh found =>
      obtain ⟨t', step', shadow'⟩ :=
        shadow.follow_lookup hNew fresh (hMine i _ rfl (put_self ..)) found
      exact ⟨_, t', step', rfl, shadow'⟩
  | count i h =>
      have hKey : Key.of _ _ = key := hMine i _ rfl (put_self ..)
      exact ⟨_, _, .count i (shadow.call h hKey), rfl, shadow.move h hKey rfl rfl (fun _ _ => rfl)
        (alike_count _) (alike_count _)⟩
  | load i ending h =>
      have hKey : Key.of _ _ = key := hMine i _ rfl (put_self ..)
      exact ⟨_, _, .load i ending (shadow.call h hKey), rfl, shadow.move h hKey rfl rfl
        (fun _ _ => rfl) .refl .refl⟩
  | complete i h =>
      have hKey : Key.of _ _ = key := hMine i _ rfl (put_self ..)
      exact ⟨_, _, .complete i (shadow.call h hKey), rfl, shadow.complete sound sound' h hKey⟩
  | publish i h =>
      have hKey : Key.of _ _ = key := hMine i _ rfl (put_self ..)
      exact ⟨_, _, .publish i (shadow.call h hKey), rfl, shadow.move h hKey rfl rfl
        (fun _ _ => rfl) (alike_publish _ _) (alike_publish _ _)⟩
  | take i h =>
      have hKey : Key.of _ _ = key := hMine i _ rfl (put_self ..)
      exact ⟨_, _, .take i (shadow.call h hKey), rfl, shadow.move h hKey rfl rfl nofun .refl .refl⟩
  | wake i h ready =>
      obtain ⟨t', step', shadow'⟩ :=
        shadow.follow_wake sound sound' h (hMine i _ rfl (put_self ..)) ready
      exact ⟨_, t', step', rfl, shadow'⟩
  | leave i h =>
      obtain ⟨t', step', shadow'⟩ := shadow.follow_leave h (hMine i _ rfl (put_self ..))
      exact ⟨_, t', step', rfl, shadow'⟩
  | invalidate path =>
      exact ⟨_, _, .invalidate path, rfl,
        shadow.drop sound sound' (fun key => key.place = Path.components path) (hDrops rfl)⟩
  | clear => exact ⟨_, _, .clear, rfl, shadow.drop sound sound' _ rfl⟩
  | measure gauge => cases hDrops rfl

/-- A step that does not concern the key changes nothing for it. -/
theorem Shadow.skip (shadow : Shadow key rename s s') (sound : s.Sound) (step : Step s act t)
    (hOther : ∀ i call, act.caller? = some i → t.calls i = some call → call.key ≠ key)
    (hKeeps : act.drops key = false) : Shadow key rename t s' := by
  cases step with
  | lookup i path content fresh found =>
      exact shadow.enter_ne fresh (hOther i _ rfl (put_self ..)) found
  | count i h => exact shadow.ignore h rfl (hOther i _ rfl (put_self ..)) (alike_count _)
  | load i ending h => exact shadow.ignore h rfl (hOther i _ rfl (put_self ..)) .refl
  | complete i h => exact shadow.complete_ne sound h (hOther i _ rfl (put_self ..))
  | publish i h => exact shadow.ignore h rfl (hOther i _ rfl (put_self ..)) (alike_publish _ _)
  | take i h => exact shadow.ignore h rfl (hOther i _ rfl (put_self ..)) .refl
  | wake i h ready => exact shadow.ignore h rfl (hOther i _ rfl (put_self ..)) .refl
  | leave i h => exact shadow.ignore h rfl (hOther i _ rfl (put_self ..)) .refl
  | invalidate path => exact shadow.drop_ne sound (fun key => key.place = Path.components path) hKeeps
  | clear => cases hKeeps
  | measure gauge => exact shadow

/-! Whole runs -/

/-- Flights are listed for good, and stay flights to their keys. -/
theorem Step.keys_prefix (sound : s.Sound) (step : Step s act t) :
    s.cache.flights.map Flight.key <+: t.cache.flights.map Flight.key := by
  have hSame {keys : List Key} (h : keys = s.cache.flights.map Flight.key) :
      s.cache.flights.map Flight.key <+: keys := by
    subst h
    exact List.prefix_rfl
  cases step with
  | lookup i path content fresh found =>
      rcases lookup_cases found with ⟨_, _, _, rfl⟩ | ⟨_, _, _, rfl⟩ | ⟨_, _, rfl⟩
      · exact hSame rfl
      · exact hSame rfl
      · rw [put_cache, keys_begin]
        exact List.prefix_append ..
  | count i h => exact hSame (alike_count _).keys
  | complete i h => exact hSame (by rw [put_cache, flights_complete])
  | publish i h => exact hSame (keys_publish _ _)
  | invalidate path => exact hSame (keys_drop sound.distinct _)
  | clear => exact hSame (keys_drop sound.distinct _)
  | _ => exact hSame rfl

theorem Runs.keys_prefix (sound : s.Sound) (runs : Runs s acts t) :
    s.cache.flights.map Flight.key <+: t.cache.flights.map Flight.key := by
  induction runs with
  | zero => exact List.prefix_rfl
  | succ prior last ih => exact ih.trans (last.keys_prefix (sound.runs prior))

/-- The number of a flight among those to its key, if `keys` are the keys of all flights. -/
def rank (keys : List Key) (key : Key) (flight : Nat) : Nat := (keys.take flight).count key

/-- The next flight gets the same number on both sides. -/
theorem Shadow.rank_nextFlight {keys : List Key} (shadow : Shadow key rename s s')
    (hKeys : s.cache.flights.map Flight.key <+: keys) :
    rank keys key s.cache.nextFlight = s'.cache.nextFlight := by
  have hTake := List.prefix_iff_eq_take.mp hKeys
  rw [List.length_map] at hTake
  rw [shadow.flights, rank, nextFlight, ← hTake]

/-- Flights to one key keep different numbers. -/
theorem rank_injective {keys : List Key} {first second : Nat} (hFirst : keys[first]? = some key)
    (hSecond : keys[second]? = some key) (h : rank keys key first = rank keys key second) :
    first = second := by
  have hLess {m n : Nat} (hm : keys[m]? = some key) (hLt : m < n) :
      rank keys key m < rank keys key n := by
    have hNext : (keys.take (m + 1)).count key = rank keys key m + 1 := by
      rw [List.take_add_one, hm, List.count_append, rank]
      simp
    have hMono : (keys.take (m + 1)).count key ≤ rank keys key n :=
      (List.take_sublist_take_left hLt).count_le key
    omega
  rcases Nat.lt_trichotomy first second with hLt | hEq | hGt
  · exact absurd h (Nat.ne_of_lt (hLess hFirst hLt))
  · exact hEq
  · exact absurd h.symm (Nat.ne_of_lt (hLess hSecond hGt))

/-- The other side goes through the steps that concern the key. -/
theorem Shadow.runs {keys : List Key} {mine : Nat → Bool}
    (shadow : Shadow key (rank keys key) s s') (sound : s.Sound) (sound' : s'.Sound)
    (runs : Runs s acts t) (hKeys : t.cache.flights.map Flight.key <+: keys)
    (hMine : ∀ i call, t.calls i = some call → (mine i = true ↔ call.key = key)) :
    ∃ acts' t', Runs s' acts' t' ∧
      acts'.map Act.request = (acts.filter (Act.concerns key mine)).map Act.request ∧
      Shadow key (rank keys key) t t' := by
  -- by induction on the run; the last step is followed or skipped
  induction runs with
  | zero => exact ⟨[], s', .zero, rfl, shadow⟩
  | @succ acts t u act prior last ih =>
      have hBefore : ∀ i call, t.calls i = some call → (mine i = true ↔ call.key = key) := by
        intro i call hCall
        obtain ⟨after, hAfter, hSame⟩ := last.exists_call hCall
        rw [hMine i after hAfter, hSame]
      have hStep := last.keys_prefix (sound.runs prior)
      obtain ⟨acts', t', runs', hRequests, shadow'⟩ := ih (hStep.trans hKeys) hBefore
      rw [List.filter_append, List.map_append, ← hRequests]
      cases hConcerns : act.concerns key mine with
      | true =>
          obtain ⟨act', u', step', hRequest, hShadow⟩ := shadow'.follow (sound.runs prior)
            (sound'.runs runs') (shadow'.rank_nextFlight (hStep.trans hKeys)) last
            (fun i call hCaller hCall =>
              (hMine i call hCall).mp ((Act.concerns_of_caller hCaller key mine).symm.trans hConcerns))
            (fun hNone => (Act.concerns_of_none hNone key mine).symm.trans hConcerns)
          refine ⟨acts' ++ [act'], u', runs'.succ step', ?_, hShadow⟩
          simp [hConcerns, hRequest]
      | false =>
          refine ⟨acts', t', runs', by simp [hConcerns], shadow'.skip (sound.runs prior) last ?_ ?_⟩
          · intro i call hCaller hCall hKey
            have hTrue := (hMine i call hCall).mpr hKey
            rw [← Act.concerns_of_caller hCaller key mine, hConcerns] at hTrue
            cases hTrue
          · cases hCaller : act.caller? with
            | none => exact (Act.concerns_of_none hCaller key mine).symm.trans hConcerns
            | some i => exact Act.drops_of_caller hCaller key

/-- From any run the calls for other keys can be left out, and the drops that do not concern the
key. What is left is a run in which every call for the key is given the same role and the same
result, and the slot of the key goes through the same values, up to the numbers of flights. -/
theorem separation (run : Run acts s) (key : Key) : ∃ rename acts' s', Run acts' s' ∧
    (∀ m n f g, s.cache.flights[m]? = some f → s.cache.flights[n]? = some g → f.key = key →
      g.key = key → rename m = rename n → m = n) ∧
    acts'.map Act.request =
      (acts.filter (Act.concerns key (asks acts key))).map Act.request ∧
    ∀ before after t, acts = before ++ after → Run before t → Runs t after s →
      ∃ before' after' t', acts' = before' ++ after' ∧
        before'.map Act.request =
          (before.filter (Act.concerns key (asks acts key))).map Act.request ∧
        Run before' t' ∧ Runs t' after' s' ∧ Mirrors key rename t t' := by
  let keys := s.cache.flights.map Flight.key
  have hSplit (before after : List Act) (t : Traffic) (first : Run before t)
      (second : Runs t after s) : ∃ before' after' t' s', Run before' t' ∧ Runs t' after' s' ∧
        before'.map Act.request =
          (before.filter (Act.concerns key (asks acts key))).map Act.request ∧
        after'.map Act.request =
          (after.filter (Act.concerns key (asks acts key))).map Act.request ∧
        Mirrors key (rank keys key) t t' := by
    have hMine (i : Nat) (call : Call) (hCall : s.calls i = some call) :
        asks acts key i = true ↔ call.key = key := by
      rw [run.asks_iff, hCall]
      simp
    have hEarly (i : Nat) (call : Call) (hCall : t.calls i = some call) :
        asks acts key i = true ↔ call.key = key := by
      obtain ⟨after, hAfter, hSame⟩ := second.exists_call hCall
      rw [hMine i after hAfter, hSame]
    obtain ⟨before', t', first', hFirst, shadow⟩ := shadow_start.runs sound_start sound_start first
      (second.keys_prefix first.sound) hEarly
    obtain ⟨after', s', second', hSecond, _⟩ := shadow.runs first.sound first'.sound second
      List.prefix_rfl hMine
    exact ⟨before', after', t', s', first', second', hFirst, hSecond, shadow.toMirrors⟩
  obtain ⟨acts', _, s', _, run', _, hRequests, _, _⟩ := hSplit acts [] s run .zero
  refine ⟨rank keys key, acts', s', run', ?_, hRequests, ?_⟩
  · rintro m n f g hf hg rfl hKey h
    exact rank_injective (by rw [List.getElem?_map, hf]; rfl)
      (by rw [List.getElem?_map, hg, Option.map_some, hKey]) h
  · -- the two parts make up one run with the requests of the whole, and these decide the run
    rintro before after t rfl first second
    obtain ⟨before', after', t', u', first', second', hFirst, hSecond, mirrors⟩ :=
      hSplit before after t first second
    have hSame : acts'.map Act.request = (before' ++ after').map Act.request := by
      rw [hRequests, List.filter_append, List.map_append, List.map_append, hFirst, hSecond]
    obtain ⟨rfl, rfl⟩ := run'.unique (first'.trans second') hSame
    exact ⟨before', after', t', rfl, hFirst, first', second', mirrors⟩

/-- A load for one path never ends, and another path is invalidated: without them the call that
remains owns another flight, and returns the same image. -/
theorem separation_unfinished : ∃ s image,
    Run [.lookup 0 "b" [1], .count 0, .lookup 1 "a" [1], .count 1, .invalidate "b" 0,
      .load 1 (.done image), .complete 1, .publish 1 1, .answer 1] s ∧
    ∃ (rename : Nat → Nat) (acts' : List Act) (s' : Traffic), Run acts' s' ∧
      acts'.map Act.request = [.lookup 1 "a" [1], .count 1, .load 1 (.done image), .complete 1,
        .publish 1 0, .answer 1] ∧
      s'.calls 0 = none ∧
      s'.calls 1 = some ⟨"a", [1], .own (rename 1), .returned (.done ⟨rename 1, image⟩)⟩ := by
  let image : Image := ⟨.png, 1.0, 1.0, .vector, by decide, by decide⟩
  have idle : Run [] start := .zero
  have stuck := (idle.succ (.lookup 0 "b" [1] rfl (lookup_none rfl))).succ (.count 0 rfl)
  have asked := (stuck.succ (.lookup 1 "a" [1] rfl (lookup_none rfl))).succ (.count 1 rfl)
  have loaded := (asked.succ (.invalidate "b")).succ (.load 1 (.done image) rfl)
  have run := ((loaded.succ (.complete 1 rfl)).succ (.publish 1 rfl)).succ (.leave 1 rfl)
  obtain ⟨rename, _, _, _, _, _, hPrefixes⟩ := separation run (Key.of "a" [1])
  obtain ⟨acts', _, s', _, hRequests, run', _, mirrors⟩ := hPrefixes _ [] _ (by simp) run .zero
  refine ⟨_, image, run, rename, acts', s', run', hRequests, ?_, ?_⟩
  · rw [mirrors.calls]
    rfl
  · refine mirrors.call (show _ = some ⟨"a", [1], .own 1, .returned (.done ⟨1, image⟩)⟩ from ?_) rfl
    rfl

end Traffic

end ImagePlacement
