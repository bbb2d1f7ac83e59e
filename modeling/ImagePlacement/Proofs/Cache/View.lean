import ImagePlacement.Cache.Steps

/-! What each step of a cache does to the two things that callers depend on: what is filed under
a key, and what is known of a flight. Later modules use these laws and not the lists behind them. -/
namespace ImagePlacement.Cache

variable {c : Cache}

section Table

variable {entries : List (Key × Slot)}

theorem lookup_of_mem (distinct : (entries.map Prod.fst).Nodup) {key : Key} {slot : Slot}
    (h : (key, slot) ∈ entries) : entries.lookup key = some slot := by
  induction entries with
  | nil => cases h
  | cons entry rest ih =>
      rw [List.map_cons, List.nodup_cons] at distinct
      rcases List.mem_cons.mp h with rfl | hRest
      · simp
      · have hNe : key ≠ entry.1 := by
          intro he
          exact distinct.1 (he ▸ List.mem_map_of_mem (f := Prod.fst) hRest)
        rw [List.lookup_cons, beq_eq_false_iff_ne.mpr hNe]
        exact ih distinct.2 hRest

theorem mem_of_lookup {key : Key} {slot : Slot} (h : entries.lookup key = some slot) :
    (key, slot) ∈ entries := by
  obtain ⟨before, after, rfl, _⟩ := List.lookup_eq_some_iff.mp h
  simp

/-- Filtering a table without repetitions never brings a hidden entry to light. -/
theorem lookup_filter (distinct : (entries.map Prod.fst).Nodup) (keep : Key × Slot → Bool)
    (key : Key) :
    (entries.filter keep).lookup key = (entries.lookup key).filter fun slot => keep (key, slot) := by
  have hFiltered : ((entries.filter keep).map Prod.fst).Nodup :=
    distinct.sublist (List.filter_sublist.map _)
  ext slot
  rw [Option.filter_eq_some_iff]
  constructor
  · intro h
    obtain ⟨hMem, hKeep⟩ := List.mem_filter.mp (mem_of_lookup h)
    exact ⟨lookup_of_mem distinct hMem, hKeep⟩
  · rintro ⟨hLookup, hKeep⟩
    exact lookup_of_mem hFiltered (List.mem_filter.mpr ⟨mem_of_lookup hLookup, hKeep⟩)

end Table

/-- No key is filed twice. -/
def Distinct (c : Cache) : Prop := (c.slots.map Prod.fst).Nodup

theorem Distinct.mem_iff (distinct : c.Distinct) {key : Key} {slot : Slot} :
    (key, slot) ∈ c.slots ↔ c.slot? key = some slot :=
  ⟨lookup_of_mem distinct, mem_of_lookup⟩

/-! Looking up -/

/-- The cache in which a load has been started for content found at a path. -/
def begin (c : Cache) (path : String) (content : Bytes) : Cache :=
  { c with
    slots := (Key.of path content, .pending c.nextFlight) :: c.slots
    flights := c.flights ++ [⟨path, Key.of path content, false, none⟩] }

theorem lookup_ready {path : String} {content : Bytes} {image : Shared}
    (h : c.slot? (Key.of path content) = some (.ready image)) :
    c.lookup path content = (.hit image, c) := by
  simp [lookup, h]

theorem lookup_pending {path : String} {content : Bytes} {flight : Nat}
    (h : c.slot? (Key.of path content) = some (.pending flight)) :
    c.lookup path content = (.wait flight, c) := by
  simp [lookup, h]

theorem lookup_none {path : String} {content : Bytes} (h : c.slot? (Key.of path content) = none) :
    c.lookup path content = (.own c.nextFlight, c.begin path content) := by
  simp [lookup, h, begin]

/-- The three things that a look-up can tell, and what it leaves. -/
theorem lookup_cases {path : String} {content : Bytes} {role : Role} {after : Cache}
    (found : c.lookup path content = (role, after)) :
    (∃ image, c.slot? (Key.of path content) = some (.ready image) ∧ role = .hit image ∧ after = c) ∨
    (∃ flight, c.slot? (Key.of path content) = some (.pending flight) ∧ role = .wait flight ∧
      after = c) ∨
    (c.slot? (Key.of path content) = none ∧ role = .own c.nextFlight ∧
      after = c.begin path content) := by
  cases hSlot : c.slot? (Key.of path content) with
  | none =>
      rw [lookup_none hSlot] at found
      obtain ⟨rfl, rfl⟩ := Prod.mk.inj found
      exact Or.inr (Or.inr ⟨rfl, rfl, rfl⟩)
  | some slot =>
      cases slot with
      | ready image =>
          rw [lookup_ready hSlot] at found
          obtain ⟨rfl, rfl⟩ := Prod.mk.inj found
          exact Or.inl ⟨image, rfl, rfl, rfl⟩
      | pending flight =>
          rw [lookup_pending hSlot] at found
          obtain ⟨rfl, rfl⟩ := Prod.mk.inj found
          exact Or.inr (Or.inl ⟨flight, rfl, rfl, rfl⟩)

theorem hit_iff {path : String} {content : Bytes} {role : Role} {after : Cache} {image : Shared}
    (found : c.lookup path content = (role, after)) :
    role = .hit image ↔ c.slot? (Key.of path content) = some (.ready image) := by
  rcases lookup_cases found with ⟨other, hSlot, rfl, rfl⟩ | ⟨flight, hSlot, rfl, rfl⟩ |
    ⟨hSlot, rfl, rfl⟩ <;> simp [hSlot]

theorem slot?_begin (path : String) (content : Bytes) (key : Key) :
    (c.begin path content).slot? key =
      if key = Key.of path content then some (.pending c.nextFlight) else c.slot? key := by
  simp only [slot?, begin, List.lookup_cons]
  split <;> simp_all

theorem flights_begin (path : String) (content : Bytes) (flight : Nat) :
    (c.begin path content).flights[flight]? =
      if flight = c.nextFlight then some ⟨path, Key.of path content, false, none⟩
      else c.flights[flight]? := by
  by_cases hNew : flight = c.nextFlight
  · simp [hNew, begin, nextFlight]
  · rw [if_neg hNew]
    by_cases hOld : flight < c.flights.length
    · exact List.getElem?_append_left hOld
    · unfold nextFlight at hNew
      rw [List.getElem?_eq_none (by simp only [begin, List.length_append, List.length_singleton]; omega),
        List.getElem?_eq_none (by omega)]

theorem Distinct.begin (distinct : c.Distinct) {path : String} {content : Bytes}
    (h : c.slot? (Key.of path content) = none) : (c.begin path content).Distinct := by
  refine List.nodup_cons.mpr ⟨?_, distinct⟩
  intro hMem
  obtain ⟨⟨key, slot⟩, hEntry, rfl⟩ := List.mem_map.mp hMem
  rw [distinct.mem_iff.mp hEntry] at h
  cases h

/-- Counting changes no slot and no flight. -/
theorem slots_count (role : Role) : (c.count role).slots = c.slots := by cases role <;> rfl

theorem flights_count (role : Role) : (c.count role).flights = c.flights := by cases role <;> rfl

/-! Results -/

/-- What is handed out of a flight, once it is. -/
def result? (c : Cache) (flight : Nat) : Option Delivery := (c.flights[flight]?).bind Flight.result

/-- What is given to those who find no result, as nobody ever does. -/
def unfinished : LoadError := .internal "in-flight decode finished without result"

theorem delivered_eq (flight : Nat) :
    c.delivered flight = (c.result? flight).getD (.error unfinished) := by
  rw [delivered, result?]
  cases (c.flights[flight]?).bind Flight.result <;> rfl

theorem result?_begin (path : String) (content : Bytes) (flight : Nat) :
    (c.begin path content).result? flight = c.result? flight := by
  rw [result?, flights_begin]
  split
  · rename_i hNew
    rw [result?, hNew, nextFlight, List.getElem?_eq_none (Nat.le_refl _)]
    rfl
  · rfl

theorem result?_count (role : Role) (flight : Nat) :
    (c.count role).result? flight = c.result? flight := by
  rw [result?, flights_count, result?]

/-! Revocations -/

theorem isRevoked_eq (flight : Nat) :
    c.isRevoked flight = ((c.flights[flight]?).map Flight.revoked).getD false := by
  rw [isRevoked]
  cases c.flights[flight]? <;> rfl

theorem isRevoked_of_getElem {flight : Nat} {f : Flight} (h : c.flights[flight]? = some f) :
    c.isRevoked flight = f.revoked := by
  rw [isRevoked_eq, h]
  rfl

theorem isRevoked_begin (path : String) (content : Bytes) (flight : Nat) :
    (c.begin path content).isRevoked flight = c.isRevoked flight := by
  rw [isRevoked_eq, isRevoked_eq, flights_begin]
  by_cases hNew : flight = c.nextFlight
  · rw [if_pos hNew, hNew, nextFlight, List.getElem?_eq_none (Nat.le_refl _)]
    rfl
  · rw [if_neg hNew]

theorem isRevoked_count (role : Role) (flight : Nat) :
    (c.count role).isRevoked flight = c.isRevoked flight := by
  rw [isRevoked, flights_count, isRevoked]

/-! The end of a flight -/

/-- What those who wait for a flight are given when the load of its owner ends. -/
def settlement (path : String) (flight : Nat) : Ending → Delivery
  | .done image => .ok ⟨flight, image⟩
  | .failed e => .error e
  | .aborted _ => .error (.internal ("decode of " ++ path ++ " panicked"))

theorem delivery_eq {flight : Nat} {f : Flight} (h : c.flights[flight]? = some f)
    (ending : Ending) : c.delivery flight ending = settlement f.path flight ending := by
  cases ending <;> simp [delivery, settlement, h]

/-- What stays filed of a result: an image, unless its flight has been revoked. -/
def kept (revoked : Bool) : Delivery → Option Slot
  | .ok image => if revoked then none else some (.ready image)
  | .error _ => none

theorem kept_ne_pending (revoked : Bool) (result : Delivery) (flight : Nat) :
    kept revoked result ≠ some (.pending flight) := by
  cases result with
  | error e => simp [kept]
  | ok image => cases revoked <;> simp [kept]

theorem kept_settlement {revoked : Bool} {path : String} {flight : Nat} {ending : Ending}
    {image : Shared} : kept revoked (settlement path flight ending) = some (.ready image) ↔
      revoked = false ∧ flight = image.flight ∧ ending = .done image.image := by
  obtain ⟨number, value⟩ := image
  cases ending with
  | done own => cases revoked <;> simp [kept, settlement]
  | failed e => simp [kept, settlement]
  | aborted reason => simp [kept, settlement]

theorem slot?_complete (distinct : c.Distinct) {flight : Nat} {f : Flight}
    (h : c.flights[flight]? = some f) (result : Delivery) (key : Key) :
    (c.complete flight result).slot? key =
      if key = f.key then kept f.revoked result else c.slot? key := by
  have hOthers : (c.others f.key).lookup key = if key = f.key then none else c.slot? key := by
    rw [others, lookup_filter distinct]
    by_cases hKey : key = f.key
    · simp [hKey]
    · rw [if_neg hKey, slot?]
      cases c.slots.lookup key <;> simp [hKey, Option.filter]
  cases result with
  | error e => simp only [complete, h, slot?, kept, hOthers]
  | ok image =>
      simp only [complete, h, kept]
      split
      · simp only [slot?, hOthers]
      · simp only [slot?, List.lookup_cons, hOthers]
        split <;> simp_all

theorem flights_complete (flight : Nat) (result : Delivery) :
    (c.complete flight result).flights = c.flights := by
  unfold complete
  split
  · rfl
  · split
    · split <;> rfl
    · rfl

theorem result?_complete (flight : Nat) (result : Delivery) (other : Nat) :
    (c.complete flight result).result? other = c.result? other := by
  rw [result?, flights_complete, result?]

theorem delivery_complete (flight : Nat) (result : Delivery) (other : Nat) (ending : Ending) :
    (c.complete flight result).delivery other ending = c.delivery other ending := by
  cases ending with
  | done image => rfl
  | failed e => rfl
  | aborted reason => rw [delivery, flights_complete, delivery]

theorem isRevoked_complete (flight : Nat) (result : Delivery) (other : Nat) :
    (c.complete flight result).isRevoked other = c.isRevoked other := by
  rw [isRevoked, flights_complete, isRevoked]

theorem Distinct.complete (distinct : c.Distinct) (flight : Nat) (result : Delivery) :
    (c.complete flight result).Distinct := by
  have hOthers (key : Key) : ((c.others key).map Prod.fst).Nodup :=
    distinct.sublist (List.filter_sublist.map _)
  unfold Cache.complete
  split
  · exact distinct
  · rename_i f _
    split
    · split
      · exact hOthers f.key
      · refine List.nodup_cons.mpr ⟨?_, hOthers f.key⟩
        simp [others]
    · exact hOthers f.key

theorem flights_publish (flight : Nat) (result : Delivery) (other : Nat) :
    (c.publish flight result).flights[other]? =
      if other = flight then (c.flights[other]?).map fun f => { f with result := some result }
      else c.flights[other]? := by
  rw [publish, List.getElem?_modify]
  by_cases h : other = flight
  · simp [h]
  · simp [h, Ne.symm h]

theorem result?_publish {flight : Nat} {f : Flight} (h : c.flights[flight]? = some f)
    (result : Delivery) (other : Nat) :
    (c.publish flight result).result? other =
      if other = flight then some result else c.result? other := by
  rw [result?, flights_publish]
  split
  · rename_i hSame
    rw [hSame, h]
    rfl
  · rfl

theorem isRevoked_publish (flight : Nat) (result : Delivery) (other : Nat) :
    (c.publish flight result).isRevoked other = c.isRevoked other := by
  rw [isRevoked_eq, isRevoked_eq, flights_publish]
  by_cases hSame : other = flight
  · rw [if_pos hSame, Option.map_map]
    rfl
  · rw [if_neg hSame]

/-! Dropping -/

/-- A flight to a selected key is under way. -/
def Targets (c : Cache) (selected : Key → Bool) (flight : Nat) : Prop :=
  ∃ key, c.slot? key = some (.pending flight) ∧ selected key = true

theorem slot?_drop (distinct : c.Distinct) (selected : Key → Bool) (key : Key) :
    (c.drop selected).slot? key = (c.slot? key).filter fun slot =>
      match slot with
      | .ready _ => !selected key
      | .pending _ => true :=
  lookup_filter distinct _ key

theorem flights_drop (distinct : c.Distinct) (selected : Key → Bool) (flight : Nat) {f : Flight}
    (h : c.flights[flight]? = some f) :
    ∃ revoked, (c.drop selected).flights[flight]? = some { f with revoked } ∧
      (revoked = true ↔ f.revoked = true ∨ c.Targets selected flight) := by
  simp only [drop, List.getElem?_mapIdx, h, Option.map_some]
  split
  · rename_i hAny
    obtain ⟨⟨key, slot⟩, hMem, hSlot⟩ := List.any_eq_true.mp hAny
    refine ⟨true, rfl, fun _ => Or.inr ?_, fun _ => rfl⟩
    cases slot with
    | ready image => cases hSlot
    | pending other =>
        simp only [Bool.and_eq_true, decide_eq_true_eq] at hSlot
        obtain ⟨rfl, hSelected⟩ := hSlot
        exact ⟨key, distinct.mem_iff.mp hMem, hSelected⟩
  · rename_i hNone
    refine ⟨f.revoked, rfl, Or.inl, ?_⟩
    rintro (hRevoked | ⟨key, hSlot, hSelected⟩)
    · exact hRevoked
    · refine absurd (List.any_eq_true.mpr ⟨_, distinct.mem_iff.mpr hSlot, ?_⟩) hNone
      simp [hSelected]

theorem length_flights_drop (selected : Key → Bool) :
    (c.drop selected).flights.length = c.flights.length := List.length_mapIdx

theorem result?_drop (distinct : c.Distinct) (selected : Key → Bool) (flight : Nat) :
    (c.drop selected).result? flight = c.result? flight := by
  cases hFlight : c.flights[flight]? with
  | none =>
      have hBeyond := List.getElem?_eq_none_iff.mp hFlight
      rw [← length_flights_drop selected] at hBeyond
      rw [result?, result?, hFlight, List.getElem?_eq_none hBeyond]
  | some f =>
      obtain ⟨revoked, hAfter, _⟩ := flights_drop distinct selected flight hFlight
      rw [result?, result?, hFlight, hAfter]
      rfl

theorem Distinct.drop (distinct : c.Distinct) (selected : Key → Bool) :
    (c.drop selected).Distinct :=
  distinct.sublist (List.filter_sublist.map _)

end ImagePlacement.Cache
