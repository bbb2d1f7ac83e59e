import ImagePlacement.Proofs.Cache.Retention
import Mathlib.Data.Set.Card

/-! The books of a cache. Every number that the cache or a caller reports is the number of calls
that have come so far; this holds while calls are in progress as well, and once none is, the
numbers add up. -/
namespace ImagePlacement

/-- Whether the look-up of a call has been counted. -/
@[simp] def Progress.isCounted : Progress → Bool
  | .entered => false
  | _ => true

namespace Act

@[simp] def looksUp : Act → Bool
  | lookup .. => true
  | _ => false

@[simp] def loads : Act → Bool
  | load .. => true
  | _ => false

/-- A load ends without an image. -/
@[simp] def fails : Act → Bool
  | load _ ending => !ending.isDone
  | _ => false

/-- How many images a step reports as dropped from a path. -/
@[simp] def invalidated : Act → Nat
  | invalidate _ dropped => dropped
  | _ => 0

/-- How many images a step removes with all others. -/
@[simp] def cleared : Act → Nat
  | clear dropped => dropped
  | _ => 0

end Act

/-- The sum of a number over steps. -/
def total (number : Act → Nat) : List Act → Nat
  | [] => 0
  | act :: acts => number act + total number acts

theorem total_append (number : Act → Nat) (acts : List Act) (act : Act) :
    total number (acts ++ [act]) = total number acts + number act := by
  induction acts with
  | nil => simp only [List.nil_append, total, Nat.add_zero, Nat.zero_add]
  | cons first acts ih => simp only [List.cons_append, total, ih, Nat.add_assoc]

namespace Cache

variable {c : Cache}

theorem tally_lookup {path : String} {content : Bytes} {role : Role} {after : Cache}
    (found : c.lookup path content = (role, after)) : after.tally = c.tally := by
  rcases lookup_cases found with ⟨_, _, _, rfl⟩ | ⟨_, _, _, rfl⟩ | ⟨_, _, rfl⟩ <;> rfl

/-- A load that has been started is no image yet. -/
theorem entries_lookup {path : String} {content : Bytes} {role : Role} {after : Cache}
    (found : c.lookup path content = (role, after)) : after.entries = c.entries := by
  rcases lookup_cases found with ⟨_, _, _, rfl⟩ | ⟨_, _, _, rfl⟩ | ⟨_, _, rfl⟩ <;> rfl

theorem entries_count (role : Role) : (c.count role).entries = c.entries := by
  rw [entries, slots_count, entries]

/-- Whether an image is filed. -/
def isReady (entry : Key × Slot) : Bool :=
  match entry.2 with
  | .ready _ => true
  | .pending _ => false

theorem entries_eq : c.entries = c.slots.countP isReady := rfl

/-- Only images are dropped, and all that are dropped are told. -/
theorem entries_drop (selected : Key → Bool) :
    (c.drop selected).entries + (c.slots.length - (c.drop selected).slots.length) = c.entries := by
  let keep (entry : Key × Slot) : Bool :=
    match entry.2 with
    | .ready _ => !selected entry.1
    | .pending _ => true
  have hDropped : (c.slots.filter (!keep ·)).countP isReady = (c.slots.filter (!keep ·)).length := by
    refine List.countP_eq_length.mpr ?_
    rintro ⟨key, slot⟩ hMem
    cases slot with
    | ready image => rfl
    | pending flight => simp [keep] at hMem
  have hLength := List.length_eq_length_filter_add (l := c.slots) keep
  have hCount := List.countP_eq_countP_filter_add c.slots isReady keep
  have hSlots : (c.drop selected).slots = c.slots.filter keep := rfl
  rw [entries_eq, entries_eq, hSlots]
  omega

/-- The slot of a load under way holds no image. -/
theorem countP_others (distinct : c.Distinct) {key : Key} {flight : Nat}
    (h : c.slot? key = some (.pending flight)) : (c.others key).countP isReady = c.entries := by
  rw [entries_eq, others, List.countP_filter]
  refine List.countP_congr ?_
  rintro ⟨other, slot⟩ hMem
  cases slot with
  | pending n => simp [isReady]
  | ready image =>
      have hSlot := distinct.mem_iff.mp hMem
      have hNe : other ≠ key := by
        rintro rfl
        rw [h] at hSlot
        cases hSlot
      simp [isReady, hNe]

/-- A completion brings one image, unless there is none or the flight has been revoked. -/
theorem entries_complete (distinct : c.Distinct) {flight : Nat} {f : Flight}
    (hFlight : c.flights[flight]? = some f) (hSlot : c.slot? f.key = some (.pending flight))
    (ending : Ending) : (c.complete flight (c.delivery flight ending)).entries =
      c.entries + (ending.isDone && !f.revoked).toNat := by
  have hOthers := countP_others distinct hSlot
  rw [delivery_eq hFlight]
  cases ending with
  | done image =>
      cases hRevoked : f.revoked with
      | false =>
          have hReady : isReady (f.key, .ready ⟨flight, image⟩) = true := rfl
          simp [complete, hFlight, settlement, hRevoked, entries_eq, hReady, hOthers]
      | true => simp [complete, hFlight, settlement, hRevoked, entries_eq, hOthers]
  | failed e => simp [complete, hFlight, settlement, entries_eq, hOthers]
  | aborted reason => simp [complete, hFlight, settlement, entries_eq, hOthers]

theorem tally_complete {flight : Nat} {f : Flight} (hFlight : c.flights[flight]? = some f)
    (ending : Ending) : (c.complete flight (c.delivery flight ending)).tally =
      { c.tally with failures := c.tally.failures + (!ending.isDone).toNat } := by
  rw [delivery_eq hFlight]
  cases ending with
  | done image =>
      cases hRevoked : f.revoked <;> simp [complete, hFlight, settlement, hRevoked]
  | failed e => simp [complete, hFlight, settlement]
  | aborted reason => simp [complete, hFlight, settlement]

end Cache

namespace Traffic

open Cache

variable {s t : Traffic} {act : Act} {acts : List Act} {i : Nat}

/-- The number of calls of a kind. -/
noncomputable def population (s : Traffic) (kind : Call → Bool) : Nat :=
  {i | (s.calls i).any kind = true}.ncard

/-- Only finitely many calls have been made. -/
def Few (s : Traffic) : Prop := {i | (s.calls i).isSome = true}.Finite

theorem Few.kind (few : s.Few) (kind : Call → Bool) : {i | (s.calls i).any kind = true}.Finite := by
  refine few.subset fun i h => ?_
  obtain ⟨call, hCall, _⟩ := (Option.any_eq_true ..).mp h
  exact Option.isSome_of_eq_some hCall

theorem Few.put (few : s.Few) (i : Nat) (call : Call) (cache : Cache) : (s.put i call cache).Few := by
  refine (few.insert i).subset fun j h => ?_
  by_cases hSame : j = i
  · exact Or.inl hSame
  · right
    change ((s.put i call cache).calls j).isSome = true at h
    rwa [put_ne s hSame] at h

theorem Few.step (few : s.Few) (step : Step s act t) : t.Few := by
  cases step with
  | invalidate path => exact few
  | clear => exact few
  | measure gauge => exact few
  | _ => exact few.put ..

/-- Moving a call moves it from the kinds it was of to the kinds it has come to. -/
theorem population_put (few : s.Few) (i : Nat) (call : Call) (cache : Cache) (kind : Call → Bool) :
    (s.put i call cache).population kind + ((s.calls i).any kind).toNat =
      s.population kind + (kind call).toNat := by
  let others := {j | (s.calls j).any kind = true} \ {i}
  have hOthers : others.Finite := (few.kind kind).sdiff
  have hNew : i ∉ others := fun h => h.2 rfl
  have hBefore : {j | (s.calls j).any kind = true} =
      if (s.calls i).any kind then insert i others else others := by
    split
    case isTrue h => exact (Set.insert_sdiff_self_of_mem (a := i) h).symm
    case isFalse h => exact (Set.sdiff_singleton_eq_self (a := i) h).symm
  have hAfter : {j | ((s.put i call cache).calls j).any kind = true} =
      if kind call then insert i others else others := by
    ext j
    by_cases hSame : j = i
    · subst hSame
      cases hKind : kind call <;> simp [put_self, hKind, hNew]
    · cases kind call <;> simp [put_ne s hSame, hSame, others]
  rw [population, population, hBefore, hAfter]
  cases kind call <;> cases (s.calls i).any kind <;>
    simp [Set.ncard_insert_of_notMem hNew hOthers]

/-! The lines of the books that one counter or one kind of step each is entered in -/

inductive Account where
  | lookups
  | hits
  | waits
  | misses
  | loads
  | faults
  | failures

/-- What a line of the books says. -/
def Account.books (acts : List Act) (s : Traffic) : Account → Nat
  | .lookups => acts.countP Act.looksUp
  | .hits => s.cache.tally.hits
  | .waits => s.cache.tally.coalesced
  | .misses => s.cache.tally.misses
  | .loads => acts.countP Act.loads
  | .faults => acts.countP Act.fails
  | .failures => s.cache.tally.failures

/-- The calls that a line of the books is about. -/
def Account.covers : Account → Call → Bool
  | .lookups, _ => true
  | .hits, ⟨_, _, .hit _, progress⟩ => progress.isCounted
  | .waits, ⟨_, _, .wait _, progress⟩ => progress.isCounted
  | .misses, ⟨_, _, .own _, progress⟩ => progress.isCounted
  | .loads, ⟨_, _, .own _, progress⟩ => progress.ending?.isSome
  | .faults, ⟨_, _, .own _, progress⟩ => progress.ending?.any (!·.isDone)
  | .failures, ⟨_, _, .own _, progress⟩ => progress.filed?.any (!·.isDone)
  | _, _ => false

/-- A step of a call is entered where the call comes to be covered. -/
theorem Account.books_put (few : s.Few) {account : Account} {call moved : Call} {cache : Cache}
    (h : s.calls i = some call)
    (hBooks : account.books (acts ++ [act]) (s.put i moved cache) + (account.covers call).toNat =
      account.books acts s + (account.covers moved).toNat) :
    account.books (acts ++ [act]) (s.put i moved cache) + s.population account.covers =
      account.books acts s + (s.put i moved cache).population account.covers := by
  have hCalls := population_put few i moved cache account.covers
  rw [h, Option.any_some] at hCalls
  omega

/-- Every step enters in each line what it changes about the calls of that line. -/
theorem Account.books_step (acts : List Act) (few : s.Few) (sound : s.Sound) (step : Step s act t)
    (account : Account) : account.books (acts ++ [act]) t + s.population account.covers =
      account.books acts s + t.population account.covers := by
  -- line by line: what a step enters is what the call that takes it adds to the line
  cases step with
  | @lookup i path content role cache fresh found =>
      have hCalls := population_put few i ⟨path, content, role, .entered⟩ cache account.covers
      rw [fresh] at hCalls
      have hTally := tally_lookup found
      cases account <;> cases role <;>
        simp [books, covers, hTally, Progress.ending?, Progress.filed?] at hCalls ⊢ <;> omega
  | @count i path content role h =>
      refine books_put few h ?_
      cases account <;> cases role <;>
        simp [books, covers, Cache.count, Progress.ending?, Progress.filed?]
  | load i ending h =>
      refine books_put few h ?_
      cases account <;> cases ending <;> simp [books, covers, Progress.ending?, Progress.filed?]
  | @complete i flight path content ending h =>
      obtain ⟨revoked, hFlight⟩ := sound.flight i _ flight h rfl
      refine books_put few h ?_
      cases account <;>
        simp [books, covers, tally_complete hFlight, Progress.ending?, Progress.filed?]
  | publish i h =>
      refine books_put few h ?_
      cases account <;> simp [books, covers, Cache.publish, Progress.ending?, Progress.filed?]
  | take i h =>
      refine books_put few h ?_
      cases account <;> simp [books, covers]
  | wake i h ready =>
      refine books_put few h ?_
      cases account <;> simp [books, covers]
  | @leave i flight path content ending h =>
      refine books_put few h ?_
      cases account <;> cases ending <;>
        simp [books, covers, Progress.ending?, Progress.filed?, Outcome.map]
  | invalidate path =>
      change _ = _ + s.population _
      cases account <;> simp [books, Cache.invalidate, Cache.drop]
  | clear =>
      change _ = _ + s.population _
      cases account <;> simp [books, Cache.clear, Cache.drop]
  | measure gauge => cases account <;> simp [books]

theorem few_start : start.Few := by simp [Few, start]

theorem Runs.few (runs : Runs s acts t) (few : s.Few) : t.Few := by
  induction runs with
  | zero => exact few
  | succ prior last ih => exact ih.step last

/-- In every state the books tell the calls that have come so far. -/
theorem Runs.books (run : Run acts s) (account : Account) :
    account.books acts s = s.population account.covers := by
  induction run with
  | zero => cases account <;> simp [Account.books, population, start, Cache.empty]
  | @succ acts t u act prior last ih =>
      have hStep := account.books_step acts (prior.few few_start) prior.sound last
      omega

/-! The images -/

/-- When a call completed its flight, the key had been dropped since its look-up. -/
def DroppedEarly (acts : List Act) (i : Nat) (key : Key) : Prop :=
  ∃ before after, acts = before ++ .complete i :: after ∧ ¬ Undisturbed before i key

/-- An image has been loaded that was not to be kept. -/
def Wasted (acts : List Act) (s : Traffic) (i : Nat) : Prop :=
  ∃ key image, s.Loaded i key image ∧ DroppedEarly acts i key

theorem droppedEarly_append {key : Key} : DroppedEarly (acts ++ [act]) i key ↔
    DroppedEarly acts i key ∨ act = .complete i ∧ ¬ Undisturbed acts i key := by
  simp only [DroppedEarly, concat_eq_append_cons_iff]
  constructor
  · rintro ⟨before, after, ⟨rfl, rfl, rfl⟩ | ⟨rest, rfl, rfl⟩, hDropped⟩
    · exact Or.inr ⟨rfl, hDropped⟩
    · exact Or.inl ⟨before, rest, rfl, hDropped⟩
  · rintro (⟨before, after, rfl, hDropped⟩ | ⟨rfl, hDropped⟩)
    · exact ⟨before, after ++ [act], Or.inr ⟨after, rfl, rfl⟩, hDropped⟩
    · exact ⟨acts, [], Or.inl ⟨rfl, rfl, rfl⟩, hDropped⟩

/-- Only a completion brings an image. -/
theorem Step.loaded_iff {key : Key} {image : Shared} (step : Step s act t)
    (hOther : ∀ j, act ≠ .complete j) : t.Loaded i key image ↔ s.Loaded i key image := by
  cases step with
  | lookup j path content fresh found =>
      rw [loaded_put]
      constructor
      · rintro (⟨_, _, _, hFiled⟩ | ⟨_, h⟩)
        · cases hFiled
        · exact h
      · rintro ⟨call, hCall, hLoaded⟩
        exact Or.inr ⟨ne_of_calls hCall fresh, call, hCall, hLoaded⟩
  | count j h => exact exists_put_iff h (by simp [Call.key, Progress.filed?]) _
  | load j ending h => exact exists_put_iff h (by simp [Call.key, Progress.filed?]) _
  | complete j h => exact absurd rfl (hOther j)
  | publish j h => exact exists_put_iff h (by simp [Call.key, Progress.filed?]) _
  | take j h => exact exists_put_iff h (by simp) _
  | wake j h ready => exact exists_put_iff h (by simp) _
  | @leave j flight path content ending h =>
      exact exists_put_iff h (by cases ending <;> simp [Call.key, Progress.filed?, Outcome.map]) _
  | invalidate path => exact Iff.rfl
  | clear => exact Iff.rfl
  | measure gauge => exact Iff.rfl

/-- What a call has filed, it has filed for good. -/
theorem Step.filed (step : Step s act t) (h : (s.calls i).any (·.progress.filed?.isSome) = true) :
    (t.calls i).any (·.progress.filed?.isSome) = true := by
  have hPut {j : Nat} {old moved : Call} {cache : Cache} (hOld : s.calls j = some old)
      (hMoved : old.progress.filed?.isSome = true → moved.progress.filed?.isSome = true) :
      ((s.put j moved cache).calls i).any (·.progress.filed?.isSome) = true := by
    by_cases hSame : i = j
    · subst hSame
      rw [hOld, Option.any_some] at h
      rw [put_self, Option.any_some]
      exact hMoved h
    · rwa [put_ne s hSame]
  cases step with
  | lookup j path content fresh found =>
      have hNe : i ≠ j := by
        rintro rfl
        rw [fresh] at h
        cases h
      rwa [put_ne s hNe]
  | count j hCall => exact hPut hCall nofun
  | load j ending hCall => exact hPut hCall nofun
  | complete j hCall => exact hPut hCall nofun
  | publish j hCall => exact hPut hCall fun _ => rfl
  | take j hCall => exact hPut hCall fun _ => rfl
  | wake j hCall ready => exact hPut hCall fun _ => rfl
  | leave j hCall => exact hPut hCall fun _ => rfl
  | invalidate path => exact h
  | clear => exact h
  | measure gauge => exact h

theorem Runs.filed (run : Run acts s) (h : .complete i ∈ acts) :
    (s.calls i).any (·.progress.filed?.isSome) = true := by
  induction run with
  | zero => cases h
  | succ prior last ih =>
      rcases List.mem_append.mp h with hPrior | hLast
      · exact last.filed (ih hPrior)
      · rw [List.mem_singleton] at hLast
        subst hLast
        cases last with
        | complete _ hCall => rw [put_self, Option.any_some]; rfl

/-- How many images have been filed, dropped, or not kept at all. -/
noncomputable def whereabouts (acts : List Act) (s : Traffic) : Nat :=
  s.cache.entries + total Act.invalidated acts + total Act.cleared acts +
    {i | Wasted acts s i}.ncard

/-- A step that completes nothing brings no image, and tells of those that it drops. -/
theorem Step.entries (step : Step s act t) (hOther : ∀ j, act ≠ .complete j) :
    t.cache.entries + act.invalidated + act.cleared = s.cache.entries := by
  cases step with
  | lookup i path content fresh found => exact entries_lookup found
  | count i h => exact entries_count _
  | complete i h => exact absurd rfl (hOther i)
  | invalidate path => exact entries_drop _
  | clear =>
      change s.cache.clear.entries + 0 + _ = _
      rw [Nat.add_zero]
      exact entries_drop _
  | _ => rfl

theorem Step.whereabouts (step : Step s act t) (hOther : ∀ j, act ≠ .complete j) :
    whereabouts (acts ++ [act]) t = whereabouts acts s := by
  have hEntries := step.entries hOther
  have hWasted (i : Nat) : Wasted (acts ++ [act]) t i ↔ Wasted acts s i := by
    simp only [Wasted, step.loaded_iff hOther, droppedEarly_append, hOther, false_and, or_false]
  simp only [Traffic.whereabouts, total_append, hWasted]
  omega

/-- A call has loaded an image, and completed its flight. -/
def delivers : Call → Bool
  | ⟨_, _, .own _, progress⟩ => progress.filed?.any (·.isDone)
  | _ => false

theorem any_delivers_iff : (s.calls i).any delivers = true ↔ ∃ key image, s.Loaded i key image := by
  rw [Option.any_eq_true]
  constructor
  · rintro ⟨⟨path, content, role, progress⟩, hCall, hDelivers⟩
    cases role with
    | own flight =>
        obtain ⟨ending, hFiled, hDone⟩ := (Option.any_eq_true ..).mp hDelivers
        cases ending with
        | done image => exact ⟨_, ⟨flight, image⟩, _, hCall, rfl, rfl, hFiled⟩
        | failed e => cases hDone
        | aborted reason => cases hDone
    | hit image => cases hDelivers
    | wait flight => cases hDelivers
  · rintro ⟨key, image, ⟨path, content, role, progress⟩, hCall, rfl, rfl, hFiled⟩
    refine ⟨_, hCall, ?_⟩
    change progress.filed? = _ at hFiled
    simp [delivers, hFiled]

theorem Step.population_delivers (step : Step s act t) (hOther : ∀ j, act ≠ .complete j) :
    t.population delivers = s.population delivers := by
  simp only [population, any_delivers_iff, step.loaded_iff hOther]

/-- One more of a kind, or none. -/
theorem ncard_or {kind : Nat → Prop} {more : Bool} (hFinite : {j | kind j}.Finite) (hNew : ¬ kind i) :
    {j | j = i ∧ more = true ∨ kind j}.ncard = {j | kind j}.ncard + more.toNat := by
  cases more with
  | false => simp
  | true =>
      have hInsert : {j | j = i ∧ true = true ∨ kind j} = insert i {j | kind j} := by
        ext j
        simp
      rw [hInsert, Set.ncard_insert_of_notMem (s := {j | kind j}) hNew hFinite]
      rfl

section Complete

variable {flight : Nat} {path : String} {content : Bytes} {ending : Ending}

theorem wasted_complete (run : Run acts s)
    (h : s.calls i = some ⟨path, content, .own flight, .loaded ending⟩) (cache : Cache) (j : Nat) :
    Wasted (acts ++ [.complete i]) (s.put i ⟨path, content, .own flight, .filed ending⟩ cache) j ↔
      j = i ∧ (ending.isDone && s.cache.isRevoked flight) = true ∨ Wasted acts s j := by
  have hOpen := run.traced.underWay i flight (Key.of path content) ⟨_, h, rfl, rfl, rfl⟩
  -- the flight has not been completed before, so only this completion can have come too late
  have hFirst : .complete i ∉ acts := by
    intro hMem
    have hFiled := run.filed hMem
    rw [h] at hFiled
    cases hFiled
  have hEarly (key : Key) : ¬ DroppedEarly acts i key := by
    rintro ⟨before, after, rfl, _⟩
    exact hFirst (by simp)
  by_cases hSame : j = i
  · subst hSame
    have hBefore : ¬ Wasted acts s j := fun ⟨key, _, _, hDropped⟩ => hEarly key hDropped
    simp only [hBefore, or_false, true_and, Bool.and_eq_true]
    constructor
    · rintro ⟨key, image, hLoaded, hDropped⟩
      rcases loaded_put.mp hLoaded with ⟨_, _, rfl, hFiled⟩ | ⟨hNe, _⟩
      · obtain rfl := Option.some.inj hFiled
        have hGone := (droppedEarly_append.mp hDropped).resolve_left (hEarly _)
        exact ⟨rfl, Bool.of_not_eq_false fun hKept => hGone.2 (hOpen.mp hKept)⟩
      · exact absurd rfl hNe
    · rintro ⟨hDone, hRevoked⟩
      cases ending with
      | done image =>
          refine ⟨_, ⟨flight, image⟩, loaded_put.mpr (Or.inl ⟨rfl, rfl, rfl, rfl⟩), ?_⟩
          refine droppedEarly_append.mpr (Or.inr ⟨rfl, fun hFree => ?_⟩)
          rw [hOpen.mpr hFree] at hRevoked
          cases hRevoked
      | failed e => cases hDone
      | aborted reason => cases hDone
  · have hOther : Act.complete i ≠ .complete j := fun h => hSame (Act.complete.inj h).symm
    simp only [Wasted, loaded_put, droppedEarly_append, hSame, hOther, false_and, false_or, or_false,
      ne_eq, not_false_eq_true, true_and]

/-- A completion accounts for the image that it brings. -/
theorem Runs.whereabouts_complete (run : Run acts s)
    (h : s.calls i = some ⟨path, content, .own flight, .loaded ending⟩) :
    whereabouts (acts ++ [.complete i]) (s.put i ⟨path, content, .own flight, .filed ending⟩
      (s.cache.complete flight (s.cache.delivery flight ending))) =
      whereabouts acts s + ending.isDone.toNat := by
  obtain ⟨revoked, hFlight⟩ := run.sound.flight i _ flight h rfl
  have hSlot := (run.sound.pending _ flight).mpr ⟨i, _, h, rfl, rfl, rfl⟩
  have hEntries := entries_complete run.sound.distinct hFlight hSlot ending
  have hRevoked := isRevoked_of_getElem hFlight
  have hFinite : {j | Wasted acts s j}.Finite := by
    refine (run.few few_start).subset ?_
    rintro j ⟨key, image, ⟨call, hCall, _⟩, _⟩
    exact Option.isSome_of_eq_some hCall
  have hNew : ¬ Wasted acts s i := by
    rintro ⟨key, image, ⟨call, hCall, _, _, hFiled⟩, _⟩
    rw [h, Option.some.injEq] at hCall
    subst hCall
    cases hFiled
  have hSum : (ending.isDone && !revoked).toNat + (ending.isDone && revoked).toNat =
      ending.isDone.toNat := by
    cases ending.isDone <;> cases revoked <;> rfl
  simp only [whereabouts, wasted_complete run h, ncard_or hFinite hNew, total_append, put_cache,
    hEntries, hRevoked, Call.flight, Act.invalidated, Act.cleared]
  omega

end Complete

theorem Runs.images_step (run : Run acts s) (step : Step s act t) :
    whereabouts (acts ++ [act]) t + s.population delivers =
      whereabouts acts s + t.population delivers := by
  by_cases hOther : ∀ j, act ≠ .complete j
  · rw [step.whereabouts hOther, step.population_delivers hOther]
  · obtain ⟨i, rfl⟩ := not_forall_not.mp hOther
    cases step with
    | @complete _ flight path content ending h =>
        have hCalls := population_put (run.few few_start) i ⟨path, content, .own flight, .filed ending⟩
          (s.cache.complete flight (s.cache.delivery flight ending)) delivers
        rw [h, Option.any_some] at hCalls
        rw [run.whereabouts_complete h]
        change _ + 0 = _ + ending.isDone.toNat at hCalls
        omega

/-- In every state each image that has been loaded is filed, dropped, or not kept. -/
theorem Runs.images (run : Run acts s) : whereabouts acts s = s.population delivers := by
  induction run with
  | zero => simp [whereabouts, Wasted, Loaded, population, entries, total, start, Cache.empty]
  | succ prior last ih =>
      have hStep := prior.images_step last
      omega

/-! No call in progress -/

/-- Every call has returned. -/
def Quiet (s : Traffic) : Prop :=
  ∀ i call, s.calls i = some call → ∃ result, call.progress = .returned result

theorem population_congr {first second : Call → Bool}
    (h : ∀ i call, s.calls i = some call → first call = second call) :
    s.population first = s.population second := by
  have hSame (i : Nat) : (s.calls i).any first = (s.calls i).any second := by
    cases hCall : s.calls i with
    | none => rfl
    | some call => exact h i call hCall
  simp only [population, hSame]

/-- The calls of one kind are those of two other kinds. -/
theorem population_add (few : s.Few) {kind first second : Call → Bool}
    (hKind : ∀ i call, s.calls i = some call → kind call = (first call || second call))
    (hApart : ∀ call, first call = true → second call = false) :
    s.population kind = s.population first + s.population second := by
  have hUnion : {i | (s.calls i).any kind = true} =
      {i | (s.calls i).any first = true} ∪ {i | (s.calls i).any second = true} := by
    ext i
    cases hCall : s.calls i with
    | none => simp [hCall]
    | some call => simp [hCall, hKind i call hCall]
  have hDisjoint : Disjoint {i | (s.calls i).any first = true} {i | (s.calls i).any second = true} := by
    refine Set.disjoint_left.mpr fun i hFirst hSecond => ?_
    obtain ⟨call, hCall, hIsFirst⟩ := (Option.any_eq_true ..).mp hFirst
    change (s.calls i).any second = true at hSecond
    rw [hCall, Option.any_some, hApart call hIsFirst] at hSecond
    cases hSecond
  rw [population, hUnion, Set.ncard_union_eq hDisjoint (few.kind first) (few.kind second)]
  rfl

theorem population_le (few : s.Few) (first second : Call → Bool)
    (h : ∀ call, first call = true → second call = true) :
    s.population first ≤ s.population second := by
  refine Set.ncard_le_ncard (fun i hFirst => ?_) (few.kind second)
  obtain ⟨call, hCall, hIsFirst⟩ := (Option.any_eq_true ..).mp hFirst
  exact (Option.any_eq_true ..).mpr ⟨call, hCall, h call hIsFirst⟩

/-- Every call that has been counted has been counted once. -/
theorem Runs.tally_eq (run : Run acts s) :
    s.cache.tally.hits + s.cache.tally.misses + s.cache.tally.coalesced =
      s.population (·.progress.isCounted) := by
  have few := run.few few_start
  have hHits : s.population (·.progress.isCounted) = s.population Account.hits.covers +
      s.population (fun call => Account.misses.covers call || Account.waits.covers call) := by
    refine population_add few ?_ ?_
    · rintro i ⟨path, content, role, progress⟩ _
      cases role <;> simp [Account.covers]
    · rintro ⟨path, content, role, progress⟩ h
      cases role with
      | hit image => rfl
      | wait flight => cases h
      | own flight => cases h
  have hOthers : s.population (fun call => Account.misses.covers call || Account.waits.covers call) =
      s.population Account.misses.covers + s.population Account.waits.covers := by
    refine population_add few (fun _ _ _ => rfl) ?_
    rintro ⟨path, content, role, progress⟩ h
    cases role with
    | hit image => cases h
    | wait flight => cases h
    | own flight => rfl
  simp only [← run.books, Account.books] at hHits hOthers
  omega

/-- No counter ever exceeds the number of calls, so counters of 64 bits hold fewer than `2 ^ 64`. -/
theorem Runs.tally_le (run : Run acts s) :
    s.cache.tally.hits + s.cache.tally.misses + s.cache.tally.coalesced ≤
      acts.countP Act.looksUp ∧
    s.cache.tally.failures ≤ acts.countP Act.looksUp := by
  have hCounted := population_le (run.few few_start) (·.progress.isCounted)
    Account.lookups.covers fun _ _ => rfl
  have hFailures := population_le (run.few few_start) Account.failures.covers
    Account.lookups.covers fun _ _ => rfl
  rw [← run.tally_eq, ← run.books] at hCounted
  rw [← run.books, ← run.books] at hFailures
  exact ⟨hCounted, hFailures⟩

/-- Once every call has returned, the books add up: each call has been counted once as a hit, as a
miss or as coalesced; a miss is a load, and a failure a load without an image; and the images
loaded are those filed, those dropped since, and those that were not kept because the key had been
dropped while they were being loaded. -/
theorem accounting (run : Run acts s) (quiet : s.Quiet) :
    s.cache.tally.hits + s.cache.tally.misses + s.cache.tally.coalesced =
      acts.countP Act.looksUp ∧
    s.cache.tally.misses = acts.countP Act.loads ∧
    s.cache.tally.failures = acts.countP Act.fails ∧
    s.cache.tally.misses = s.cache.tally.failures + (s.cache.entries +
      total Act.invalidated acts + total Act.cleared acts + {i | Wasted acts s i}.ncard) := by
  have few := run.few few_start
  have hReturned {P : Call → Prop}
      (h : ∀ path content role result, P ⟨path, content, role, .returned result⟩) :
      ∀ i call, s.calls i = some call → P call := by
    rintro i ⟨path, content, role, progress⟩ hCall
    obtain ⟨result, rfl⟩ := quiet i _ hCall
    exact h path content role result
  have hLookups : s.population (·.progress.isCounted) = s.population Account.lookups.covers :=
    population_congr (hReturned fun _ _ _ _ => rfl)
  have hLoads : s.population Account.misses.covers = s.population Account.loads.covers := by
    refine population_congr (hReturned fun path content role result => ?_)
    cases role <;> rfl
  have hFaults : s.population Account.failures.covers = s.population Account.faults.covers := by
    refine population_congr (hReturned fun path content role result => ?_)
    cases role <;> rfl
  have hImages : s.population Account.misses.covers =
      s.population Account.failures.covers + s.population delivers := by
    refine population_add few (hReturned fun path content role result => ?_) ?_
    · cases role with
      | own flight => cases result <;> rfl
      | hit image => rfl
      | wait flight => rfl
    · rintro ⟨path, content, role, progress⟩ h
      cases role with
      | own flight =>
          obtain ⟨ending, hFiled, hFault⟩ := (Option.any_eq_true ..).mp h
          simpa [delivers, hFiled] using hFault
      | hit image => cases h
      | wait flight => cases h
  rw [← run.tally_eq, ← run.books] at hLookups
  rw [← run.books, ← run.books] at hLoads hFaults
  rw [← run.books, ← run.books, ← run.images] at hImages
  exact ⟨hLookups, hLoads, hFaults, hImages⟩

/-- An image is loaded for two callers while its path is invalidated, and the next load fails: the
image is the one that was not kept. -/
theorem accounting_wasted : ∃ acts s, Run acts s ∧ s.Quiet ∧ s.cache.tally = ⟨0, 2, 1, 1⟩ ∧
    s.cache.entries = 0 ∧ s.cache.tally.misses = s.cache.tally.failures + (s.cache.entries +
      total Act.invalidated acts + total Act.cleared acts + {i | Wasted acts s i}.ncard) := by
  let image : Image := ⟨.png, 1.0, 1.0, .vector, by decide, by decide⟩
  have idle : Run [] start := .zero
  have asked := (idle.succ (.lookup 0 "a//b" [1] rfl (lookup_none rfl))).succ
    (.lookup 1 "a/b" [1] rfl (lookup_pending rfl))
  have dropped := ((asked.succ (.count 0 rfl)).succ (.count 1 rfl)).succ (.invalidate "a/./b")
  have filed := (dropped.succ (.load 0 (.done image) rfl)).succ (.complete 0 rfl)
  have answered := ((filed.succ (.publish 0 rfl)).succ (.wake 1 rfl rfl)).succ (.leave 0 rfl)
  have again := (answered.succ (.lookup 2 "a/b" [1] rfl (lookup_none rfl))).succ (.count 2 rfl)
  have failed := (again.succ (.load 2 (.aborted "overflow") rfl)).succ (.complete 2 rfl)
  have run := (failed.succ (.publish 2 rfl)).succ (.leave 2 rfl)
  refine ⟨_, _, run, ?quiet, rfl, rfl, (accounting run ?quiet).2.2.2⟩
  intro i call h
  match i with
  | 0 | 1 | 2 =>
      obtain rfl := Option.some.inj h
      exact ⟨_, rfl⟩
  | _ + 3 => cases h

end Traffic

end ImagePlacement
