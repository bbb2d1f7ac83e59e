import ImagePlacement.Proofs.Cache.Traffic

/-! What the steps of a run ask for. It decides the run, and tells which calls are for which key. -/
namespace ImagePlacement

namespace Act

/-- A step without the numbers that it tells. -/
def request : Act → Act
  | lookup i path content => lookup i path content
  | count i => count i
  | load i ending => load i ending
  | complete i => complete i
  | publish i _ => publish i 0
  | answer i => answer i
  | invalidate path _ => invalidate path 0
  | clear _ => clear 0
  | measure gauge _ => measure gauge 0

/-- A call asks for a key. -/
def asks (key : Key) (i : Nat) : Act → Bool
  | lookup j path content => j = i && Key.of path content = key
  | _ => false

/-- A step that may matter to a key, if `mine` are the calls for it: a step of one of them, or one
that drops the key. -/
def concerns (key : Key) (mine : Nat → Bool) (act : Act) : Bool :=
  match act.caller? with
  | some i => mine i
  | none => act.drops key

theorem concerns_of_caller {act : Act} {i : Nat} (h : act.caller? = some i) (key : Key)
    (mine : Nat → Bool) : act.concerns key mine = mine i := by
  rw [concerns, h]

theorem concerns_of_none {act : Act} (h : act.caller? = none) (key : Key) (mine : Nat → Bool) :
    act.concerns key mine = act.drops key := by
  rw [concerns, h]

/-- No call drops anything by its own steps. -/
theorem drops_of_caller {act : Act} {i : Nat} (h : act.caller? = some i) (key : Key) :
    act.drops key = false := by
  cases act with
  | invalidate path dropped => cases h
  | clear dropped => cases h
  | _ => rfl

end Act

/-- Some step asks for a key in the name of a call. -/
def asks (acts : List Act) (key : Key) (i : Nat) : Bool := acts.any (Act.asks key i)

namespace Traffic

variable {s t u : Traffic} {act : Act} {acts : List Act} {i : Nat} {key : Key}

theorem call_unique {call other : Call} (h : s.calls i = some call)
    (hOther : s.calls i = some other) : call = other :=
  Option.some.inj (h.symm.trans hOther)

/-- The numbers that a step tells are found in the state in which it is taken. -/
def told (s : Traffic) : Act → Act
  | .publish i _ =>
    match s.calls i with
    | some ⟨_, _, .own flight, _⟩ => .publish i flight
    | _ => .publish i 0
  | .invalidate path _ => .invalidate path (s.cache.invalidate path).1
  | .clear _ => .clear (s.cache.slots.length - s.cache.clear.slots.length)
  | .measure gauge _ => .measure gauge (s.cache.gauge gauge)
  | act => act

theorem Step.told_request (step : Step s act t) : s.told act.request = act := by
  cases step with
  | publish i hCall => simp [told, Act.request, hCall]
  | _ => rfl

/-- What a call returns when it answers next. -/
def reply? (s : Traffic) : Call → Option (Outcome LoadError Shared)
  | ⟨_, _, .hit image, .counted⟩ => some (.done image)
  | ⟨_, _, .wait flight, .counted⟩ => some (.ofExcept (s.cache.delivered flight))
  | ⟨_, _, .own flight, .published ending⟩ => some (ending.map fun image => ⟨flight, image⟩)
  | _ => none

theorem Step.answer_cases (step : Step s (.answer i) t) : ∃ call result, s.calls i = some call ∧
    s.reply? call = some result ∧
      t = s.put i ⟨call.path, call.content, call.role, .returned result⟩ s.cache := by
  cases step with
  | take i hCall => exact ⟨_, _, hCall, rfl, rfl⟩
  | wake i hCall => exact ⟨_, _, hCall, rfl, rfl⟩
  | leave i hCall => exact ⟨_, _, hCall, rfl, rfl⟩

theorem Step.answer_unique (first : Step s (.answer i) t) (second : Step s (.answer i) u) :
    t = u := by
  obtain ⟨call, result, hCall, hReply, rfl⟩ := first.answer_cases
  obtain ⟨other, result', hOther, hReply', rfl⟩ := second.answer_cases
  obtain rfl := call_unique hCall hOther
  rw [hReply, Option.some.injEq] at hReply'
  rw [hReply']

/-- A step leads to one state. -/
theorem Step.target_unique (first : Step s act t) (second : Step s act u) : t = u := by
  cases first with
  | lookup i path content fresh found =>
      cases second with
      | lookup _ _ _ _ found' =>
          obtain ⟨rfl, rfl⟩ := Prod.mk.inj (found.symm.trans found')
          rfl
  | count i hCall =>
      cases second with
      | count _ hCall' => cases call_unique hCall hCall'; rfl
  | load i ending hCall =>
      cases second with
      | load _ _ hCall' => cases call_unique hCall hCall'; rfl
  | complete i hCall =>
      cases second with
      | complete _ hCall' => cases call_unique hCall hCall'; rfl
  | publish i hCall =>
      cases second with
      | publish _ hCall' => cases call_unique hCall hCall'; rfl
  | take i hCall => exact (Step.take i hCall).answer_unique second
  | wake i hCall ready => exact (Step.wake i hCall ready).answer_unique second
  | leave i hCall => exact (Step.leave i hCall).answer_unique second
  | invalidate path => cases second; rfl
  | clear => cases second; rfl
  | measure gauge => cases second; rfl

/-- A request has one outcome. -/
theorem Step.unique {other : Act} (first : Step s act t) (second : Step s other u)
    (h : act.request = other.request) : act = other ∧ t = u := by
  have hSame : act = other := by
    rw [← first.told_request, h, second.told_request]
  subst hSame
  exact ⟨rfl, first.target_unique second⟩

/-- The requests decide the run. -/
theorem Runs.unique {others : List Act} (first : Runs s acts t) (second : Runs s others u)
    (h : acts.map Act.request = others.map Act.request) : acts = others ∧ t = u := by
  induction first generalizing others u with
  | zero =>
      cases second with
      | zero => exact ⟨rfl, rfl⟩
      | succ prior last => simp at h
  | succ prior last ih =>
      cases second with
      | zero => simp at h
      | succ prior' last' =>
          rw [List.map_append, List.map_append] at h
          obtain ⟨hPrior, hLast⟩ := List.append_inj' h rfl
          obtain ⟨rfl, rfl⟩ := ih prior' hPrior
          obtain ⟨rfl, rfl⟩ := last.unique last' (List.singleton_inj.mp hLast)
          exact ⟨rfl, rfl⟩

/-- A call stays a call for its key. -/
theorem Step.exists_call {call : Call} (step : Step s act t) (h : s.calls i = some call) :
    ∃ after, t.calls i = some after ∧ after.key = call.key := by
  obtain ⟨after, hAfter⟩ :=
    Option.isSome_iff_exists.mp (step.calls_isSome (Option.isSome_of_eq_some h))
  refine ⟨after, hAfter, ?_⟩
  rcases step.call_cases hAfter with hSame | ⟨hNone, _⟩ | ⟨old, hOld, moves⟩
  · rw [call_unique hSame h]
  · rw [h] at hNone
    cases hNone
  · rw [← call_unique hOld h, Call.key, moves.path, moves.content, Call.key]

theorem Runs.exists_call {call : Call} (runs : Runs s acts t) (h : s.calls i = some call) :
    ∃ after, t.calls i = some after ∧ after.key = call.key := by
  induction runs with
  | zero => exact ⟨call, h, rfl⟩
  | succ prior last ih =>
      obtain ⟨mid, hMid, hKey⟩ := ih
      obtain ⟨after, hAfter, hSame⟩ := last.exists_call hMid
      exact ⟨after, hAfter, hSame.trans hKey⟩

/-- The calls that have asked for a key are the calls for it. -/
theorem Runs.asks_iff (run : Run acts s) :
    asks acts key i = true ↔ ∃ call, s.calls i = some call ∧ call.key = key := by
  induction run with
  | zero => simp [asks, start]
  | @succ acts t u act prior last ih =>
      rw [asks, List.any_append, Bool.or_eq_true, List.any_cons, List.any_nil, Bool.or_false]
      constructor
      · rintro (hPrior | hLast)
        · obtain ⟨call, hCall, hKey⟩ := ih.mp hPrior
          obtain ⟨after, hAfter, hSame⟩ := last.exists_call hCall
          exact ⟨after, hAfter, hSame.trans hKey⟩
        · cases last with
          | lookup j path content fresh found =>
              obtain ⟨rfl, hKey⟩ : j = i ∧ Key.of path content = key := by
                simpa [Act.asks] using hLast
              exact ⟨_, put_self .., hKey⟩
          | _ => cases hLast
      · rintro ⟨call, hCall, hKey⟩
        rcases last.call_cases hCall with hSame | ⟨_, rfl, _⟩ | ⟨old, hOld, moves⟩
        · exact Or.inl (ih.mpr ⟨call, hSame, hKey⟩)
        · right
          simp only [Act.asks, Bool.and_eq_true, decide_eq_true_eq]
          exact ⟨trivial, hKey⟩
        · refine Or.inl (ih.mpr ⟨old, hOld, ?_⟩)
          rw [← hKey, Call.key, Call.key, moves.path, moves.content]

end Traffic

end ImagePlacement
