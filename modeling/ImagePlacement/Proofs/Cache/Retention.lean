import ImagePlacement.Proofs.Cache.Delivery

/-! What stays cached. An image stays exactly as long as nothing has dropped its key since the
look-up that started its load, whether the drop came while it was being loaded or later. -/
namespace ImagePlacement.Traffic

open Cache

variable {s t : Traffic} {act : Act} {acts : List Act} {i j flight : Nat} {key : Key}
  {image : Shared}

/-- Nothing has dropped a key since a call looked up. -/
def Undisturbed (acts : List Act) (i : Nat) (key : Key) : Prop :=
  ∃ before path content after, acts = before ++ .lookup i path content :: after ∧
    ∀ act ∈ after, act.drops key = false

/-- Where a step may stand in a run that has gone on by one: at the end, or where it stood. -/
theorem concat_eq_append_cons_iff {before after : List Act} {other : Act} :
    acts ++ [act] = before ++ other :: after ↔
      after = [] ∧ acts = before ∧ act = other ∨
        ∃ rest, after = rest ++ [act] ∧ acts = before ++ other :: rest := by
  constructor
  · intro h
    rcases List.eq_nil_or_concat after with rfl | ⟨rest, last, rfl⟩
    · obtain ⟨hFront, hLast⟩ := List.append_inj' h rfl
      exact Or.inl ⟨rfl, hFront, List.singleton_inj.mp hLast⟩
    · have hSplit : acts ++ [act] = (before ++ other :: rest) ++ [last] := by simpa using h
      obtain ⟨hFront, hLast⟩ := List.append_inj' hSplit rfl
      obtain rfl := List.singleton_inj.mp hLast
      exact Or.inr ⟨rest, List.concat_eq_append, hFront⟩
  · rintro (⟨rfl, rfl, rfl⟩ | ⟨rest, rfl, rfl⟩)
    · rfl
    · simp

theorem undisturbed_append : Undisturbed (acts ++ [act]) i key ↔
    Undisturbed acts i key ∧ act.drops key = false ∨
      ∃ path content, act = .lookup i path content := by
  simp only [Undisturbed, concat_eq_append_cons_iff]
  constructor
  · rintro ⟨before, path, content, after, ⟨rfl, rfl, rfl⟩ | ⟨rest, rfl, rfl⟩, hAfter⟩
    · exact Or.inr ⟨path, content, rfl⟩
    · refine Or.inl ⟨⟨before, path, content, rest, rfl, ?_⟩, hAfter act (by simp)⟩
      exact fun other hOther => hAfter other (by simp [hOther])
  · rintro (⟨⟨before, path, content, after, rfl, hAfter⟩, hAct⟩ | ⟨path, content, rfl⟩)
    · refine ⟨before, path, content, after ++ [act], Or.inr ⟨after, rfl, rfl⟩, ?_⟩
      intro other hOther
      rcases List.mem_append.mp hOther with hOld | hLast
      · exact hAfter other hOld
      · rw [List.mem_singleton.mp hLast, hAct]
    · exact ⟨acts, path, content, [], Or.inl ⟨rfl, rfl, rfl⟩, by simp⟩

/-- Steps other than the look-up of the call itself can only disturb. -/
theorem undisturbed_append_iff (hOther : ∀ path content, act ≠ .lookup i path content) :
    Undisturbed (acts ++ [act]) i key ↔ Undisturbed acts i key ∧ act.drops key = false := by
  rw [undisturbed_append]
  constructor
  · rintro (h | ⟨path, content, hAct⟩)
    · exact h
    · exact absurd hAct (hOther path content)
  · exact Or.inl

theorem undisturbed_append_quiet (h : act.isQuiet = true) :
    Undisturbed (acts ++ [act]) i key ↔ Undisturbed acts i key := by
  rw [undisturbed_append_iff (Act.ne_lookup_of_isQuiet h i)]
  exact and_iff_left (Act.drops_of_isQuiet h key)

theorem undisturbed_append_lookup (hNe : j ≠ i) {path : String} {content : Bytes} :
    Undisturbed (acts ++ [.lookup i path content]) j key ↔ Undisturbed acts j key := by
  rw [undisturbed_append_iff]
  · exact and_iff_left rfl
  · rintro _ _ ⟨⟩
    exact hNe rfl

/-- A call was given the image of another one, for which nothing had dropped the key by then. -/
def Reuses (acts : List Act) (s : Traffic) (i : Nat) (call : Call) (image : Shared) : Prop :=
  ∃ before after j, acts = before ++ .lookup i call.path call.content :: after ∧
    Undisturbed before j call.key ∧ s.Loaded j call.key image

theorem Reuses.append {call moved : Call} (h : Reuses acts s i call image)
    (hPath : moved.path = call.path) (hContent : moved.content = call.content)
    (hLoaded : ∀ j, s.Loaded j call.key image → t.Loaded j call.key image) :
    Reuses (acts ++ [act]) t i moved image := by
  obtain ⟨before, after, j, rfl, hUndisturbed, hImage⟩ := h
  refine ⟨before, after ++ [act], j, ?_, ?_, ?_⟩
  · rw [hPath, hContent, List.append_assoc, List.cons_append]
  · rw [Call.key, hPath, hContent]
    exact hUndisturbed
  · rw [Call.key, hPath, hContent]
    exact hLoaded j hImage

theorem loaded_put {call : Call} {cache : Cache} :
    (s.put i call cache).Loaded j key image ↔
      (j = i ∧ call.role = .own image.flight ∧ call.key = key ∧
        call.progress.filed? = some (.done image.image)) ∨ (j ≠ i ∧ s.Loaded j key image) :=
  exists_put

/-- A step of a call that had filed nothing takes no image away. -/
theorem loaded_put_of_unfiled {call : Call} {cache : Cache}
    (h : ∀ old, s.calls i = some old → old.progress.filed? = none) :
    (s.put i call cache).Loaded j key image ↔
      (j = i ∧ call.role = .own image.flight ∧ call.key = key ∧
        call.progress.filed? = some (.done image.image)) ∨ s.Loaded j key image := by
  rw [loaded_put]
  apply or_congr_right
  apply and_iff_right_of_imp
  rintro ⟨old, hOld, -, -, hFiled⟩ rfl
  rw [h old hOld] at hFiled
  cases hFiled

/-- The slots, and the images that callers were given, as the steps so far explain them. -/
structure Traced (acts : List Act) (s : Traffic) : Prop where
  underWay : ∀ i flight key, s.UnderWay i flight key →
    (s.cache.isRevoked flight = false ↔ Undisturbed acts i key)
  ready : ∀ key image, s.cache.slot? key = some (.ready image) ↔
    ∃ i, s.Loaded i key image ∧ Undisturbed acts i key
  hits : ∀ i call image, s.calls i = some call → call.role = .hit image →
    Reuses acts s i call image

theorem traced_start : Traced [] start where
  underWay := by
    rintro i flight key ⟨call, hCall, _⟩
    cases hCall
  ready := by
    intro key image
    constructor
    · intro h
      cases h
    · rintro ⟨i, ⟨call, hCall, _⟩, _⟩
      cases hCall
  hits := by
    intro i call image hCall
    cases hCall

/-! One lemma for each kind of step -/

section Steps

variable {path : String} {content : Bytes}

/-- A step that drops nothing, starts nothing and completes nothing. -/
theorem Traced.quiet (traced : Traced acts s) (hQuiet : act.isQuiet = true)
    (hUnder : ∀ i flight key, t.UnderWay i flight key ↔ s.UnderWay i flight key)
    (hLoaded : ∀ i key image, t.Loaded i key image ↔ s.Loaded i key image)
    (hHits : ∀ i call image, t.calls i = some call → call.role = .hit image →
      ∃ old, s.calls i = some old ∧ call.path = old.path ∧ call.content = old.content ∧
        old.role = .hit image)
    (hSlot : ∀ key, t.cache.slot? key = s.cache.slot? key)
    (hRevoked : ∀ flight, t.cache.isRevoked flight = s.cache.isRevoked flight) :
    Traced (acts ++ [act]) t where
  underWay := by
    intro i flight key h
    rw [hRevoked, undisturbed_append_quiet hQuiet]
    exact traced.underWay i flight key ((hUnder i flight key).mp h)
  ready := by
    intro key image
    rw [hSlot, traced.ready]
    refine exists_congr fun i => ?_
    rw [hLoaded, undisturbed_append_quiet hQuiet]
  hits := by
    intro i call image hCall hHit
    obtain ⟨old, hOld, hPath, hContent, hRole⟩ := hHits i call image hCall hHit
    have hReuses := traced.hits i old image hOld hRole
    exact hReuses.append hPath hContent fun j hImage => (hLoaded j old.key image).mpr hImage

/-- A step of a call that leaves all slots and its flight as they are. -/
theorem Traced.move (traced : Traced acts s) {role : Role} {progress next : Progress}
    {cache : Cache} (h : s.calls i = some ⟨path, content, role, progress⟩)
    (hQuiet : act.isQuiet = true)
    (hFiled : ∀ n, role = .own n → next.filed? = progress.filed?)
    (hSlot : ∀ key, cache.slot? key = s.cache.slot? key)
    (hRevoked : ∀ flight, cache.isRevoked flight = s.cache.isRevoked flight) :
    Traced (acts ++ [act]) (s.put i ⟨path, content, role, next⟩ cache) := by
  refine traced.quiet hQuiet ?_ ?_ ?_ hSlot hRevoked
  · refine underWay_put_iff h ?_ ?_ ?_ cache
    · rfl
    · rfl
    · exact hFiled
  · intro j key image
    refine exists_put_iff h ?_ cache
    exact and_congr_right fun hOwn => by rw [hFiled _ hOwn]; rfl
  · intro j other image hCall hHit
    rcases put_cases hCall with ⟨rfl, rfl⟩ | ⟨_, hOld⟩
    · exact ⟨_, h, rfl, rfl, hHit⟩
    · exact ⟨other, hOld, rfl, rfl, hHit⟩

/-- A look-up, whatever it finds, brings no image and takes none away. -/
theorem Traced.lookup (traced : Traced acts s) (fresh : s.calls i = none) {role : Role}
    {cache : Cache}
    (hHit : ∀ image, role = .hit image →
      s.cache.slot? (Key.of path content) = some (.ready image))
    (hOwn : ∀ flight, role = .own flight → cache.isRevoked flight = false)
    (hSlot : ∀ key image, cache.slot? key = some (.ready image) ↔
      s.cache.slot? key = some (.ready image))
    (hRevoked : ∀ flight, cache.isRevoked flight = s.cache.isRevoked flight) :
    Traced (acts ++ [.lookup i path content]) (s.put i ⟨path, content, role, .entered⟩ cache) := by
  have hNone (old : Call) (hOld : s.calls i = some old) : old.progress.filed? = none := by
    rw [fresh] at hOld
    cases hOld
  have hLoaded (j : Nat) (key : Key) (image : Shared) :
      (s.put i ⟨path, content, role, .entered⟩ cache).Loaded j key image ↔
        s.Loaded j key image := by
    rw [loaded_put_of_unfiled hNone]
    simp [Progress.filed?]
  constructor
  case underWay =>
    intro j flight key hUnder
    rcases underWay_put.mp hUnder with ⟨rfl, hRole, _⟩ | ⟨hNe, hUnder⟩
    · exact iff_of_true (hOwn flight hRole) (undisturbed_append.mpr (Or.inr ⟨path, content, rfl⟩))
    · rw [put_cache, hRevoked, undisturbed_append_lookup hNe]
      exact traced.underWay j flight key hUnder
  case ready =>
    intro key image
    rw [put_cache, hSlot, traced.ready]
    apply exists_congr
    intro j
    rw [hLoaded]
    apply and_congr_right
    rintro ⟨call, hCall, -⟩
    exact (undisturbed_append_lookup (ne_of_calls hCall fresh)).symm
  case hits =>
    intro j call image hCall hRole
    rcases put_cases hCall with ⟨rfl, rfl⟩ | ⟨_, hCall⟩
    · obtain ⟨k, hImage, hUndisturbed⟩ := (traced.ready _ image).mp (hHit image hRole)
      exact ⟨acts, [], k, rfl, hUndisturbed, (hLoaded k _ image).mpr hImage⟩
    · exact (traced.hits j call image hCall hRole).append rfl rfl fun k => (hLoaded k _ image).mpr

/-- A new call that finds nothing has nothing dropped yet, and fills a slot that was empty. -/
theorem Traced.begin (traced : Traced acts s) (fresh : s.calls i = none)
    (hNone : s.cache.slot? (Key.of path content) = none) :
    Traced (acts ++ [.lookup i path content])
      (s.put i ⟨path, content, .own s.cache.nextFlight, .entered⟩
        (s.cache.begin path content)) := by
  refine traced.lookup fresh (fun image h => by cases h) ?_ ?_ (isRevoked_begin path content)
  · rintro n ⟨⟩
    rw [isRevoked_of_getElem ((flights_begin path content _).trans (if_pos rfl))]
  · intro key image
    rw [slot?_begin]
    by_cases hKey : key = Key.of path content
    · simp [hKey, hNone]
    · rw [if_neg hKey]

/-- While a load is under way for a key, no earlier image is kept for it. -/
theorem Traced.disturbed_of_underWay (traced : Traced acts s) (sound : s.Sound)
    (h : s.UnderWay i flight key) (hLoaded : s.Loaded j key image) : ¬ Undisturbed acts j key := by
  intro hFree
  have hReady := (traced.ready key image).mpr ⟨j, hLoaded, hFree⟩
  rw [(sound.pending key flight).mpr ⟨i, h⟩] at hReady
  cases hReady

section Completion

variable {ending : Ending}

theorem loaded_complete {cache : Cache}
    (h : s.calls i = some ⟨path, content, .own flight, .loaded ending⟩) :
    (s.put i ⟨path, content, .own flight, .filed ending⟩ cache).Loaded j key image ↔
      (j = i ∧ flight = image.flight ∧ Key.of path content = key ∧ ending = .done image.image) ∨
        s.Loaded j key image := by
  rw [loaded_put_of_unfiled]
  · simp [Call.key, Progress.filed?]
  · intro old hOld
    obtain rfl := Option.some.inj (h.symm.trans hOld)
    rfl

theorem Traced.ready_complete (traced : Traced acts s) (sound : s.Sound)
    (h : s.calls i = some ⟨path, content, .own flight, .loaded ending⟩) :
    (s.cache.complete flight (s.cache.delivery flight ending)).slot? key = some (.ready image) ↔
      ∃ j, (s.put i ⟨path, content, .own flight, .filed ending⟩
        (s.cache.complete flight (s.cache.delivery flight ending))).Loaded j key image ∧
        Undisturbed acts j key := by
  obtain ⟨revoked, hFlight⟩ := sound.flight i _ flight h rfl
  have hHere : s.UnderWay i flight (Key.of path content) := ⟨_, h, rfl, rfl, rfl⟩
  have hOpen := traced.underWay i flight _ hHere
  rw [isRevoked_of_getElem hFlight] at hOpen
  rw [slot?_complete sound.distinct hFlight, delivery_eq hFlight]
  simp only [loaded_complete h]
  change (if key = Key.of path content then _ else _) = _ ↔ _
  by_cases hKey : key = Key.of path content
  · subst hKey
    rw [if_pos rfl, kept_settlement]
    constructor
    · rintro ⟨hKept, rfl, rfl⟩
      exact ⟨i, Or.inl ⟨rfl, rfl, rfl, rfl⟩, hOpen.mp hKept⟩
    · rintro ⟨j, ⟨rfl, rfl, -, rfl⟩ | hLoaded, hFree⟩
      · exact ⟨hOpen.mpr hFree, rfl, rfl⟩
      · exact absurd hFree (traced.disturbed_of_underWay sound hHere hLoaded)
  · rw [if_neg hKey, traced.ready]
    simp [Ne.symm hKey]

/-- A completion files the image of a flight that nothing has dropped, and nothing else. -/
theorem Traced.complete (traced : Traced acts s) (sound : s.Sound)
    (h : s.calls i = some ⟨path, content, .own flight, .loaded ending⟩) :
    Traced (acts ++ [.complete i]) (s.put i ⟨path, content, .own flight, .filed ending⟩
      (s.cache.complete flight (s.cache.delivery flight ending))) := by
  have hUndisturbed (j : Nat) (key : Key) :
      Undisturbed (acts ++ [.complete i]) j key ↔ Undisturbed acts j key :=
    undisturbed_append_quiet rfl
  constructor
  case underWay =>
    intro j n key hUnder
    rcases underWay_put.mp hUnder with ⟨_, _, _, hFiled⟩ | ⟨_, hUnder⟩
    · cases hFiled
    · rw [put_cache, isRevoked_complete, hUndisturbed]
      exact traced.underWay j n key hUnder
  case ready =>
    intro key image
    simp only [hUndisturbed]
    exact traced.ready_complete sound h
  case hits =>
    intro j call image hCall hHit
    rcases put_cases hCall with ⟨_, rfl⟩ | ⟨_, hCall⟩
    · cases hHit
    · refine (traced.hits j call image hCall hHit).append rfl rfl fun k hLoaded => ?_
      exact (loaded_complete h).mpr (Or.inr hLoaded)

end Completion

/-- A drop revokes the flights under way to the keys that it selects. -/
theorem Sound.isRevoked_drop (sound : s.Sound) (h : s.UnderWay i flight key)
    (selected : Key → Bool) : (s.cache.drop selected).isRevoked flight =
      (s.cache.isRevoked flight || selected key) := by
  have hTargets : s.cache.Targets selected flight ↔ selected key = true := by
    constructor
    · rintro ⟨other, hPending, hSelected⟩
      obtain ⟨j, hOther⟩ := (sound.pending other flight).mp hPending
      rwa [← sound.underWay_key hOther h]
    · exact fun hSelected => ⟨key, (sound.pending key flight).mpr ⟨i, h⟩, hSelected⟩
  obtain ⟨call, hCall, hOwn, _⟩ := h
  obtain ⟨revoked, hFlight⟩ := sound.flight i call flight hCall hOwn
  obtain ⟨after, hAfter, hIff⟩ := flights_drop sound.distinct selected flight hFlight
  rw [isRevoked_of_getElem hFlight, isRevoked_of_getElem hAfter, Bool.eq_iff_iff, hIff, hTargets,
    Bool.or_eq_true]

/-- A drop takes the images it selects, and forbids those under way to be kept. -/
theorem Traced.drop (traced : Traced acts s) (sound : s.Sound) (selected : Key → Bool)
    (hDrops : ∀ key, act.drops key = selected key)
    (hOther : ∀ i path content, act ≠ .lookup i path content) :
    Traced (acts ++ [act]) { s with cache := s.cache.drop selected } := by
  constructor
  case underWay =>
    intro j n key hUnder
    rw [sound.isRevoked_drop hUnder, undisturbed_append_iff (hOther j), hDrops,
      ← traced.underWay j n key hUnder, Bool.or_eq_false_iff]
  case ready =>
    intro key image
    change (s.cache.drop selected).slot? key = _ ↔ _
    rw [slot?_drop sound.distinct, Option.filter_eq_some_iff, traced.ready, Bool.not_eq_true',
      ← hDrops, ← exists_and_right]
    refine exists_congr fun j => ?_
    rw [undisturbed_append_iff (hOther j), and_assoc]
    rfl
  case hits =>
    intro j call image hCall hHit
    exact (traced.hits j call image hCall hHit).append rfl rfl fun _ hLoaded => hLoaded

end Steps

theorem Traced.step (traced : Traced acts s) (sound : s.Sound) (step : Step s act t) :
    Traced (acts ++ [act]) t := by
  cases step with
  | lookup i path content fresh found =>
      rcases lookup_cases found with ⟨image, hSlot, rfl, rfl⟩ | ⟨flight, hSlot, rfl, rfl⟩ |
        ⟨hSlot, rfl, rfl⟩
      · refine traced.lookup fresh ?_ (fun n h => by cases h) (fun _ _ => Iff.rfl) (fun _ => rfl)
        rintro other ⟨⟩
        exact hSlot
      · exact traced.lookup fresh (fun image h => by cases h) (fun n h => by cases h)
          (fun _ _ => Iff.rfl) (fun _ => rfl)
      · exact traced.begin fresh hSlot
  | count i h =>
      refine traced.move h rfl (fun _ _ => rfl) ?_ (isRevoked_count _)
      intro key
      simp only [slot?, slots_count]
  | load i ending h => exact traced.move h rfl (fun _ _ => rfl) (fun _ => rfl) (fun _ => rfl)
  | complete i h => exact traced.complete sound h
  | publish i h =>
      exact traced.move h rfl (fun _ _ => rfl) (fun _ => rfl) (isRevoked_publish _ _)
  | take i h =>
      exact traced.move h rfl (fun n hOwn => by cases hOwn) (fun _ => rfl) (fun _ => rfl)
  | wake i h ready =>
      exact traced.move h rfl (fun n hOwn => by cases hOwn) (fun _ => rfl) (fun _ => rfl)
  | @leave i flight path content ending h =>
      refine traced.move h rfl ?_ (fun _ => rfl) (fun _ => rfl)
      intro n hOwn
      cases ending <;> rfl
  | invalidate path =>
      exact traced.drop sound (fun key => key.place = Path.components path) (fun _ => rfl)
        (fun _ _ _ h => by cases h)
  | clear => exact traced.drop sound (fun _ => true) (fun _ => rfl) (fun _ _ _ h => by cases h)
  | measure gauge =>
      refine traced.quiet rfl (fun _ _ _ => Iff.rfl) (fun _ _ _ => Iff.rfl) ?_ (fun _ => rfl)
        (fun _ => rfl)
      exact fun i call image hCall hHit => ⟨call, hCall, rfl, rfl, hHit⟩

theorem Runs.traced (run : Run acts s) : Traced acts s := by
  induction run with
  | zero => exact traced_start
  | succ prior last ih => exact ih.step prior.sound last

/-! What callers may rely on -/

/-- The flight of an image was owned by one call. -/
theorem Sound.loaded_unique (sound : s.Sound) {call : Call} (h : s.calls i = some call)
    (hOwn : call.role = .own image.flight) (hLoaded : s.Loaded j key image) :
    i = j ∧ call.progress.filed? = some (.done image.image) := by
  obtain ⟨other, hOther, hOwn', _, hFiled⟩ := hLoaded
  obtain rfl := sound.unique i j call other image.flight h hOther hOwn hOwn'
  rw [h, Option.some.injEq] at hOther
  subst hOther
  exact ⟨rfl, hFiled⟩

/-- Whoever is given an image, by a hit or otherwise, is given one that has been loaded for the
key. -/
theorem Traced.served (traced : Traced acts s) (sound : s.Sound) {call : Call}
    (h : s.calls i = some call)
    (hServed : call.role = .hit image ∨ call.progress = .returned (.done image)) :
    ∃ j, s.Loaded j call.key image := by
  have hHit (hRole : call.role = .hit image) : ∃ j, s.Loaded j call.key image := by
    obtain ⟨_, _, j, _, _, hLoaded⟩ := traced.hits i call image h hRole
    exact ⟨j, hLoaded⟩
  rcases hServed with hRole | hReturned
  · exact hHit hRole
  · have hDue := sound.returned i call _ h hReturned
    cases hRole : call.role with
    | hit other =>
        rw [hRole] at hDue
        obtain rfl := Outcome.done.inj hDue
        exact hHit hRole
    | wait flight =>
        obtain ⟨j, owner, ending, hOwner, hOwn, hKey, hEnding, _, hResult⟩ :=
          sound.returned_of_wait h hRole hReturned
        cases ending with
        | done value =>
            obtain rfl := Outcome.done.inj hResult
            exact ⟨j, owner, hOwner, hOwn, hKey, Progress.filed?_of_published? hEnding⟩
        | failed e => cases hResult
        | aborted reason => cases hResult
    | own flight =>
        rw [hRole] at hDue
        obtain ⟨ending, hEnding⟩ := hDue
        cases ending with
        | done value =>
            obtain rfl := Outcome.done.inj hEnding
            exact ⟨i, call, h, hRole, rfl, by rw [hReturned]; rfl⟩
        | failed e => cases hEnding
        | aborted reason => cases hEnding

/-- What was undisturbed after more steps was so before them, if the call had looked up. -/
theorem Undisturbed.of_append {more : List Act} (h : Undisturbed (acts ++ more) i key)
    (hOther : ∀ path content, .lookup i path content ∉ more) : Undisturbed acts i key := by
  induction more generalizing acts with
  | nil => rwa [List.append_nil] at h
  | cons first rest ih =>
      rw [List.append_cons] at h
      have hFirst := ih h fun path content hMem => hOther path content (List.mem_cons_of_mem _ hMem)
      rw [undisturbed_append_iff] at hFirst
      · exact hFirst.1
      · rintro path content rfl
        exact hOther path content List.mem_cons_self

/-- Whoever looks up after a drop is not given an image whose load began before it. -/
theorem Runs.not_stale {more : List Act} {u : Traffic} {call : Call} (run : Run acts s)
    (hDrop : act.drops key = true) (step : Step s act t) (runs : Runs t more u)
    (hBefore : (s.calls j).isSome) (hAfter : s.calls i = none) (hCall : u.calls i = some call)
    (hKey : call.key = key) (hHit : call.role = .hit image) : ¬ u.Loaded j key image := by
  intro hLoaded
  have dropped : Run (acts ++ [act]) t := run.succ step
  have whole := dropped.trans runs
  obtain ⟨before, after, k, hActs, hFree, hImage⟩ := whole.traced.hits i call image hCall hHit
  rw [hKey] at hFree hImage
  obtain ⟨other, hOther, hOwn, _⟩ := hImage
  obtain ⟨rfl, _⟩ := whole.sound.loaded_unique hOther hOwn hLoaded
  -- The drop is no look-up, and neither call looked up on the other side of it.
  have hNoLookup (n : Nat) (path : String) (content : Bytes) : act ≠ .lookup n path content := by
    rintro rfl
    cases hDrop
  have hLate (path : String) (content : Bytes) : .lookup i path content ∉ acts ++ [act] := by
    intro hMem
    rcases List.mem_append.mp hMem with hOld | hLast
    · have hSome := (run.fresh hOld).2
      rw [hAfter] at hSome
      cases hSome
    · exact hNoLookup i path content (List.mem_singleton.mp hLast).symm
  have hEarly (path : String) (content : Bytes) : .lookup k path content ∉ more := by
    intro hMem
    have hNone := (runs.fresh hMem).1
    have hSome := step.calls_isSome hBefore
    rw [hNone] at hSome
    cases hSome
  have hSplit : ∃ rest, before = acts ++ [act] ++ rest ∧ ∀ a ∈ rest, a ∈ more := by
    rcases List.append_eq_append_iff.mp hActs with ⟨rest, hRest, hMore⟩ | ⟨rest, hFirst, hRest⟩
    · exact ⟨rest, hRest, fun a ha => hMore ▸ List.mem_append_left _ ha⟩
    · cases rest with
      | nil => exact ⟨[], by simpa using hFirst.symm, by simp⟩
      | cons a rest =>
          obtain ⟨rfl, _⟩ := List.cons.inj hRest
          exact absurd (by rw [hFirst]; simp) (hLate call.path call.content)
  obtain ⟨rest, rfl, hRest⟩ := hSplit
  have hUndisturbed := hFree.of_append fun path content hMem => hEarly path content (hRest _ hMem)
  rw [undisturbed_append_iff (hNoLookup k), hDrop] at hUndisturbed
  cases hUndisturbed.2

/-- In whatever order calls come and go, an image is filed under a key exactly if a flight has
loaded it and nothing has dropped the key since the look-up that started that flight, and there is
at most one such flight; a look-up finds an image exactly then, and its caller returns that image;
an image whose load began before a drop is never found after it; and what a load that failed or
was abandoned left is given to nobody. -/
theorem retention (run : Run acts s) (key : Key) :
    (∀ image, s.cache.slot? key = some (.ready image) ↔
      ∃ i, s.Loaded i key image ∧ Undisturbed acts i key) ∧
    (∀ i j image other, s.Loaded i key image → Undisturbed acts i key → s.Loaded j key other →
      Undisturbed acts j key → i = j ∧ image = other) ∧
    (∀ i path content t, Key.of path content = key → Step s (.lookup i path content) t →
      ∃ role, t.calls i = some ⟨path, content, role, .entered⟩ ∧
        ∀ image, role = .hit image ↔ ∃ j, s.Loaded j key image ∧ Undisturbed acts j key) ∧
    (∀ i call image result, s.calls i = some call → call.role = .hit image →
      call.progress = .returned result → result = .done image) ∧
    (∀ drop t more u i j call image, drop.drops key = true → Step s drop t → Runs t more u →
      (s.calls j).isSome → s.calls i = none → u.calls i = some call → call.key = key →
      call.role = .hit image → ¬ u.Loaded j key image) ∧
    (∀ j owner flight ending, s.calls j = some owner → owner.role = .own flight →
      owner.progress.filed? = some ending → (∀ value, ending ≠ .done value) →
      ∀ i call image, s.calls i = some call →
        call.role = .hit image ∨ call.progress = .returned (.done image) →
        image.flight ≠ flight) := by
  have traced := run.traced
  have sound := run.sound
  refine ⟨traced.ready key, ?_, ?_, ?_, ?_, ?_⟩
  · intro i j image other hi hFree hj hFree'
    have hImage := (traced.ready key image).mpr ⟨i, hi, hFree⟩
    have hOther := (traced.ready key other).mpr ⟨j, hj, hFree'⟩
    rw [hImage, Option.some.injEq, Slot.ready.injEq] at hOther
    subst hOther
    obtain ⟨call, hCall, hOwn, _⟩ := hi
    exact ⟨(sound.loaded_unique hCall hOwn hj).1, rfl⟩
  · rintro i path content t rfl step
    cases step with
    | lookup _ _ _ fresh found =>
        refine ⟨_, put_self .., fun image => ?_⟩
        rw [hit_iff found, traced.ready]
  · intro i call image result hCall hHit hResult
    have hDue := sound.returned i call result hCall hResult
    rwa [hHit] at hDue
  · intro drop t more u i j call image hDrop step runs hBefore hAfter hCall hKey hHit
    exact run.not_stale hDrop step runs hBefore hAfter hCall hKey hHit
  · rintro j owner flight ending hOwner hOwn hEnding hNone i call image hCall hServed rfl
    obtain ⟨k, hLoaded⟩ := traced.served sound hCall hServed
    have hDone := (sound.loaded_unique hOwner hOwn hLoaded).2
    rw [hEnding, Option.some.injEq] at hDone
    exact hNone image.image hDone

/-- A path is invalidated, in another spelling, while its image is being loaded. The image is not
kept, and the next call loads anew; its image stays, and is found by the call after it. -/
theorem retention_invalidated : ∃ s image,
    Run [.lookup 0 "a/b" [1], .count 0, .invalidate "a/./b" 0, .load 0 (.done image), .complete 0,
      .lookup 1 "a/b" [1], .count 1, .load 1 (.done image), .complete 1,
      .lookup 2 "a//b" [1], .count 2, .answer 2] s ∧
    s.Loaded 0 (Key.of "a/b" [1]) ⟨0, image⟩ ∧
    s.calls 2 = some ⟨"a//b", [1], .hit ⟨1, image⟩, .returned (.done ⟨1, image⟩)⟩ ∧
    ∃ i, s.Loaded i (Key.of "a/b" [1]) ⟨1, image⟩ := by
  let image : Image := ⟨.png, 1.0, 1.0, .vector, by decide, by decide⟩
  have idle : Run [] start := .zero
  have begun := (idle.succ (.lookup 0 "a/b" [1] rfl (lookup_none rfl))).succ (.count 0 rfl)
  have dropped := begun.succ (.invalidate "a/./b")
  have filed := (dropped.succ (.load 0 (.done image) rfl)).succ (.complete 0 rfl)
  have again := (filed.succ (.lookup 1 "a/b" [1] rfl (lookup_none rfl))).succ (.count 1 rfl)
  have kept := (again.succ (.load 1 (.done image) rfl)).succ (.complete 1 rfl)
  have found := (kept.succ (.lookup 2 "a//b" [1] rfl (lookup_ready rfl))).succ (.count 2 rfl)
  have run := found.succ (.take 2 rfl)
  obtain ⟨hReady, _⟩ := retention run (Key.of "a/b" [1])
  obtain ⟨i, hLoaded, _⟩ := (hReady ⟨1, image⟩).mp rfl
  exact ⟨_, image, run, ⟨_, rfl, rfl, rfl, rfl⟩, rfl, i, hLoaded⟩

end ImagePlacement.Traffic
