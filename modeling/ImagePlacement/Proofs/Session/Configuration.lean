import ImagePlacement.Proofs.Session.Transparency

/-! The settings of a session in use. They may be replaced at any time, whatever is under way, by
settings that are checked first; an attempt that is refused leaves everything as it was. -/
namespace ImagePlacement

namespace Session

variable {session : Session} {settings : Settings} {registry : Registry}

theorem start_of_isValid (h : settings.IsValid) :
    start settings registry = .ok ⟨settings, registry, .empty, h⟩ := by
  unfold start
  split
  case h_1 fault hFault => cases (show settings.fault? = none from h).symm.trans hFault
  case h_2 => rfl

theorem configure_of_isValid (h : settings.IsValid) :
    session.configure settings = .ok { session with settings := settings, valid := h } := by
  unfold configure
  split
  case h_1 fault hFault => cases (show settings.fault? = none from h).symm.trans hFault
  case h_2 => rfl

theorem configure_of_fault {fault : Settings.Fault} (h : settings.fault? = some fault) :
    session.configure settings = .error (.overLimit fault.message) := by
  unfold configure
  split
  case h_1 other hOther =>
    obtain rfl := Option.some.inj (h.symm.trans hOther)
    rfl
  case h_2 hNone => cases h.symm.trans hNone

end Session

namespace Service

/-- What an attempt to replace the settings is told, and what it leaves. -/
def configure (s : Service) (settings : Settings) : Except LoadError Unit × Service :=
  match s.toSession.configure settings with
  | .error e => (.error e, s)
  | .ok after => (.ok (), { s with
      settings := after.settings
      registry := after.registry
      valid := after.valid
      traffic := { s.traffic with cache := after.cache } })

/-- What happens to a session: a move of a request or of the cache, or an attempt to replace the
settings, with what it was told. -/
inductive Use where
  | move (move : Move)
  | configure (settings : Settings) (answer : Except LoadError Unit)

namespace Use

/-- The settings of an attempt that succeeded. -/
def accepted? : Use → Option Settings
  | configure settings (.ok _) => some settings
  | _ => none

def isMove : Use → Bool
  | move _ => true
  | configure .. => false

end Use

/-- What has happened between one state and another, the first thing first. -/
inductive Uses (s : Service) : List Use → Service → Prop where
  | zero : Uses s [] s
  | move {uses : List Use} {t u : Service} {move : Move} (prior : Uses s uses t)
      (other : move.isConfigure = false) (last : Step t move u) : Uses s (uses ++ [.move move]) u
  | configure {uses : List Use} {t u : Service} {settings : Settings}
      {answer : Except LoadError Unit} (prior : Uses s uses t)
      (last : t.configure settings = (answer, u)) : Uses s (uses ++ [.configure settings answer]) u

/-- The settings that were accepted last, or else the first ones. -/
def lastAccepted (first : Settings) (uses : List Use) : Settings :=
  (uses.filterMap Use.accepted?).getLast?.getD first

variable {s t : Service} {uses : List Use} {next : Settings}

theorem configure_of_isValid (h : next.IsValid) :
    s.configure next = (.ok (), { s with settings := next, valid := h }) := by
  rw [configure, Session.configure_of_isValid h]
  rfl

theorem configure_of_fault {fault : Settings.Fault} (h : next.fault? = some fault) :
    s.configure next = (.error (.overLimit fault.message), s) := by
  rw [configure, Session.configure_of_fault h]

/-- All that an attempt can come to. -/
theorem configure_cases (s : Service) (next : Settings) :
    (∃ hValid : next.IsValid,
      s.configure next = (.ok (), { s with settings := next, valid := hValid })) ∨
    ∃ fault, next.fault? = some fault ∧
      s.configure next = (.error (.overLimit fault.message), s) := by
  by_cases hValid : next.IsValid
  · exact Or.inl ⟨hValid, configure_of_isValid hValid⟩
  · obtain ⟨fault, hFault⟩ := Settings.exists_fault hValid
    exact Or.inr ⟨fault, hFault, configure_of_fault hFault⟩

/-- An attempt is told what the check of its settings tells. -/
theorem answer_of_configure (s : Service) (next : Settings) :
    (s.configure next).1 = next.check.map fun _ => () := by
  obtain ⟨hValid, hAnswer⟩ | ⟨fault, hFault, hAnswer⟩ := configure_cases s next
  · rw [hAnswer, Settings.check_of_isValid hValid]
    rfl
  · rw [hAnswer, Settings.check_of_fault hFault]
    rfl

theorem exists_configure_eq_error_iff (s : Service) (next : Settings) :
    (∃ e, (s.configure next).1 = .error e) ↔ ¬ next.IsValid := by
  constructor
  · rintro ⟨e, hRefused⟩ hValid
    rw [configure_of_isValid hValid] at hRefused
    cases hRefused
  · intro hFault
    obtain ⟨fault, hFault⟩ := Settings.exists_fault hFault
    exact ⟨_, congrArg Prod.fst (configure_of_fault hFault)⟩

/-- No attempt touches the cache, the calls, the requests or the decoders. -/
theorem frame_of_configure {answer : Except LoadError Unit} (h : s.configure next = (answer, t)) :
    t.traffic = s.traffic ∧ t.orders = s.orders ∧ t.registry = s.registry := by
  obtain ⟨_, hAnswer⟩ | ⟨_, _, hAnswer⟩ := configure_cases s next
  all_goals
    obtain ⟨-, rfl⟩ := Prod.mk.inj (h.symm.trans hAnswer)
    exact ⟨rfl, rfl, rfl⟩

/-- Only a replacement changes the settings. -/
theorem Step.settings {move : Move} (step : Step s move t) (h : move.isConfigure = false) :
    t.settings = s.settings := by
  cases step with
  | configure next valid => cases h
  | _ => rfl

theorem lastAccepted_append_move (first : Settings) (uses : List Use) (move : Move) :
    lastAccepted first (uses ++ [.move move]) = lastAccepted first uses := by
  simp [lastAccepted, Use.accepted?]

/-- An attempt leaves the settings that have been accepted last, with itself counted in. -/
theorem settings_of_configure {first : Settings} {answer : Except LoadError Unit}
    (hBefore : s.settings = lastAccepted first uses) (h : s.configure next = (answer, t)) :
    t.settings = lastAccepted first (uses ++ [.configure next answer]) := by
  obtain ⟨hValid, hAnswer⟩ | ⟨fault, -, hAnswer⟩ := configure_cases s next
  · obtain ⟨rfl, rfl⟩ := Prod.mk.inj (h.symm.trans hAnswer)
    simp [lastAccepted, Use.accepted?]
  · obtain ⟨rfl, rfl⟩ := Prod.mk.inj (h.symm.trans hAnswer)
    simpa [lastAccepted, Use.accepted?] using hBefore

/-- Only valid settings are ever accepted. -/
theorem Uses.isValid_of_accepted (run : Uses s uses t) {accepted : Settings}
    (h : accepted ∈ uses.filterMap Use.accepted?) : accepted.IsValid := by
  induction run with
  | zero => cases h
  | move prior other last ih =>
      rw [List.filterMap_append] at h
      exact ih (by simpa [Use.accepted?] using h)
  | @configure uses t u next answer prior last ih =>
      rw [List.filterMap_append, List.mem_append] at h
      rcases h with hBefore | hNow
      · exact ih hBefore
      · obtain ⟨hValid, hAnswer⟩ | ⟨fault, -, hAnswer⟩ := configure_cases t next
        · obtain ⟨rfl, rfl⟩ := Prod.mk.inj (last.symm.trans hAnswer)
          obtain rfl : accepted = next := by simpa [Use.accepted?] using hNow
          exact hValid
        · obtain ⟨rfl, rfl⟩ := Prod.mk.inj (last.symm.trans hAnswer)
          cases hNow

theorem Uses.settings (run : Uses s uses t) : t.settings = lastAccepted s.settings uses := by
  induction run with
  | zero => rfl
  | move prior other last ih => rw [lastAccepted_append_move, last.settings other, ih]
  | configure prior last ih => exact settings_of_configure ih last

/-- As long as only the settings are touched, everything else stays. -/
theorem Uses.frame (run : Uses s uses t) (hQuiet : ∀ use ∈ uses, use.isMove = false) :
    t.traffic = s.traffic ∧ t.orders = s.orders ∧ t.registry = s.registry := by
  induction run with
  | zero => exact ⟨rfl, rfl, rfl⟩
  | @move uses t u move prior other last ih => cases hQuiet (.move move) (by simp)
  | configure prior last ih =>
      obtain ⟨hTraffic, hOrders, hRegistry⟩ := frame_of_configure last
      obtain ⟨hTraffic', hOrders', hRegistry'⟩ :=
        ih fun use hUse => hQuiet use (List.mem_append_left _ hUse)
      exact ⟨hTraffic.trans hTraffic', hOrders.trans hOrders', hRegistry.trans hRegistry'⟩

theorem Uses.trans {u : Service} {more : List Use} (first : Uses s uses t)
    (second : Uses t more u) : Uses s (uses ++ more) u := by
  induction second with
  | zero => simpa using first
  | move prior other last ih => simpa [List.append_assoc] using ih.move other last
  | configure prior last ih => simpa [List.append_assoc] using ih.configure last

theorem Runs.toUses {moves : List Move} (run : Runs s moves t)
    (hKept : ∀ move ∈ moves, move.isConfigure = false) : Uses s (moves.map Use.move) t := by
  induction run with
  | zero => exact .zero
  | @succ moves t u move prior last ih =>
      rw [List.map_append]
      refine (ih fun other hOther => hKept other (List.mem_append_left _ hOther)).move ?_ last
      exact hKept move (List.mem_append_right _ (List.mem_singleton_self move))

theorem lastAccepted_isValid {first : Settings} (hFirst : first.IsValid)
    (hAccepted : ∀ accepted ∈ uses.filterMap Use.accepted?, accepted.IsValid) :
    (lastAccepted first uses).IsValid := by
  unfold lastAccepted
  cases hLast : (uses.filterMap Use.accepted?).getLast? with
  | none => exact hFirst
  | some accepted => exact hAccepted accepted (List.mem_of_getLast? hLast)

/-- Whatever has happened since a session was opened, its settings are those of the last attempt
that was accepted, or those it was opened with, and they are valid. An attempt is refused just when
its settings are not valid, with the error of their check, and then leaves all as it was; an
accepted one changes nothing but the settings. However many attempts are made, the cache keeps
every slot and every count, so that an image that was ready is still found. -/
theorem settings_last_accepted {first : Settings} {registry : Registry} {session : Session}
    (fresh : Session.start first registry = .ok session) (run : Uses (start session) uses s) :
    s.settings = lastAccepted first uses ∧ s.settings.IsValid ∧
    (∀ next, (s.configure next).1 = next.check.map (fun _ => ()) ∧
      ((∃ e, (s.configure next).1 = .error e) ↔ ¬ next.IsValid) ∧
      (¬ next.IsValid → (s.configure next).2 = s) ∧
      ∀ hValid : next.IsValid,
        (s.configure next).2 = { s with settings := next, valid := hValid }) ∧
    ∀ attempts t, (∀ use ∈ attempts, use.isMove = false) → Uses s attempts t →
      t.traffic = s.traffic ∧ t.orders = s.orders ∧ t.registry = s.registry ∧
      ∀ view source content image, source.read view t.settings = .ok content →
        s.traffic.cache.slot? (Key.of source.path content) = some (.ready image) →
        (t.toSession.loadImage view source).result = .done image ∧
          (t.toSession.loadImage view source).session.cache =
            s.traffic.cache.count (.hit image) := by
  obtain ⟨hFirst, -, -⟩ := Session.of_start fresh
  have hSettings : s.settings = lastAccepted first uses := hFirst ▸ run.settings
  have hAccepted : (lastAccepted first uses).IsValid :=
    lastAccepted_isValid (hFirst ▸ session.valid) fun accepted h => run.isValid_of_accepted h
  refine ⟨hSettings, hSettings ▸ hAccepted, fun next => ⟨answer_of_configure s next,
    exists_configure_eq_error_iff s next, ?_, ?_⟩, ?_⟩
  · intro hFault
    obtain ⟨fault, hFault⟩ := Settings.exists_fault hFault
    rw [configure_of_fault hFault]
  · intro hValid
    rw [configure_of_isValid hValid]
  · intro attempts t hQuiet more
    obtain ⟨hTraffic, hOrders, hRegistry⟩ := more.frame hQuiet
    refine ⟨hTraffic, hOrders, hRegistry, ?_⟩
    intro view source content image hRead hReady
    rw [← hTraffic] at hReady ⊢
    exact ⟨Session.result_of_hit hRead hReady, Session.cache_of_hit hRead hReady⟩

/-! An image is loaded; after that, settings are refused and others accepted -/
namespace Replaced

def image : Image := ⟨.png, 7.0, 4.0, .raster ⟨7, 4⟩ none, by decide, by decide⟩

def content : Bytes := [0x89, 0x50, 0x4E, 0x47]

def view : FileView := fun _ => .file content

def opened : Session :=
  ⟨Settings.standard, ⟨[(.png, fun _ => .done image)]⟩, .empty, Settings.standard_isValid⟩

def faulty : Settings := { Settings.standard with maxPixels := 0 }

/-- Settings that do not admit the image. -/
def narrow : Settings := { Settings.standard with maxPixels := 1 }

def script : List Move := loads 0 0 (Source.file "a") none view content (.done image)

theorem exists_runs : ∃ s, Runs (start opened) script s ∧
    s.traffic.cache.slot? (Key.of "a" content) = some (.ready ⟨0, image⟩) := by
  have hRead : (Source.file "a").read view Settings.standard = .ok content := rfl
  obtain ⟨s, run, -, -, -, hCache⟩ :=
    exists_runs_loads (s := start opened) (i := 0) rfl rfl hRead rfl none
  refine ⟨s, run, ?_⟩
  rw [hCache]
  rfl

/-- The attempts that follow, and what they are told. -/
def attempts : List Use :=
  [.configure faulty (.error (.overLimit Settings.Fault.noPixels.message)),
    .configure narrow (.ok ())]

theorem exists_attempts (s : Service) : ∃ t, Uses s attempts t :=
  ⟨_, (Uses.zero.configure (configure_of_fault rfl)).configure (configure_of_isValid (by decide))⟩

end Replaced

/-- The image stays, though the settings that are accepted would refuse it. -/
theorem settings_last_accepted_replaced : ∃ s,
    Uses (start Replaced.opened) (Replaced.script.map Use.move ++ Replaced.attempts) s ∧
    s.settings = Replaced.narrow ∧ (s.configure Replaced.faulty).2 = s ∧
    (s.toSession.loadImage Replaced.view (Source.file "a")).result = .done ⟨0, Replaced.image⟩ := by
  obtain ⟨s, run, hReady⟩ := Replaced.exists_runs
  obtain ⟨t, attempts⟩ := Replaced.exists_attempts s
  have before := run.toUses (by decide)
  have whole := before.trans attempts
  have fresh : Session.start Settings.standard Replaced.opened.registry = .ok Replaced.opened := rfl
  obtain ⟨hSettings, -, hAttempts, -⟩ := settings_last_accepted fresh whole
  obtain ⟨-, -, -, hKept⟩ := settings_last_accepted fresh before
  obtain ⟨-, -, -, hFound⟩ := hKept Replaced.attempts t (by decide) attempts
  have hNarrow : t.settings = Replaced.narrow := hSettings
  have hRead : (Source.file "a").read Replaced.view t.settings = .ok Replaced.content := by
    rw [hNarrow]
    rfl
  exact ⟨t, whole, hNarrow, (hAttempts Replaced.faulty).2.2.1 (by decide),
    (hFound _ _ _ _ hRead hReady).1⟩

end Service

end ImagePlacement
