import ImagePlacement.Proofs.Cache.Retention
import ImagePlacement.Session.Basic

/-! A session that many requests use at once. Each of them notes the settings that hold when it
is made, reads its source and asks the cache; whoever becomes the owner of a flight decodes under
its own settings. Files and settings may change between any two steps. -/
namespace ImagePlacement

/-- What an image is to fit when it is placed. -/
structure Frame where
  extents : Extents Float
  region : Region Float

/-- An image, and its box if it is placed. -/
structure Served where
  image : Shared
  box : Option (Box Float)

/-- What a caller can tell of an image: all but who loaded it. -/
def Served.value (served : Served) : Image × Option (Box Float) := (served.image.image, served.box)

/-- What is made of an image that has been loaded, or not. -/
def Frame.serve (frame : Option Frame) (result : Outcome LoadError Shared) :
    Outcome LoadError Served :=
  match frame with
  | none => result.map fun image => ⟨image, none⟩
  | some frame => (result.bind fun image => Session.box image frame.extents frame.region).map
      fun placed => ⟨placed.image, some placed.box⟩

namespace Session

variable {session : Session} {view : FileView} {source : Source} {content : Bytes}

/-- What a session makes of a single request, with or without a frame. -/
def serve (session : Session) (view : FileView) (source : Source) :
    Option Frame → Outcome LoadError Served
  | none => (session.loadImage view source).result.map fun image => ⟨image, none⟩
  | some frame => (session.load view source frame.extents frame.region).result.map fun placed =>
      ⟨placed.image, some placed.box⟩

theorem serve_eq (session : Session) (view : FileView) (source : Source) (frame : Option Frame) :
    session.serve view source frame =
      Frame.serve frame (session.loadImage view source).result := by
  cases frame <;> rfl

/-- A load changes nothing of a session but its cache. -/
theorem exists_cache_of_loadImage (session : Session) (view : FileView) (source : Source) :
    ∃ cache, (session.loadImage view source).session = { session with cache := cache } := by
  simp only [loadImage, obtain]
  split
  · exact ⟨_, rfl⟩
  · dsimp only
    split <;> exact ⟨_, rfl⟩

theorem settings_loadImage (session : Session) (view : FileView) (source : Source) :
    (session.loadImage view source).session.settings = session.settings := by
  obtain ⟨cache, hSession⟩ := exists_cache_of_loadImage session view source
  rw [hSession]

theorem registry_loadImage (session : Session) (view : FileView) (source : Source) :
    (session.loadImage view source).session.registry = session.registry := by
  obtain ⟨cache, hSession⟩ := exists_cache_of_loadImage session view source
  rw [hSession]

theorem result_of_error {view : FileView} {source : Source} {e : LoadError}
    (hRead : source.read view session.settings = .error e) :
    (session.loadImage view source).result = .failed e := by
  simp only [loadImage, hRead]

/-! What a session does with what it has read, by what the cache has -/

theorem result_of_hit (hRead : source.read view session.settings = .ok content) {image : Shared}
    (hSlot : session.cache.slot? (Key.of source.path content) = some (.ready image)) :
    (session.loadImage view source).result = .done image := by
  simp only [loadImage, hRead, obtain, Cache.enter, Cache.lookup_ready hSlot]

theorem cache_of_hit (hRead : source.read view session.settings = .ok content) {image : Shared}
    (hSlot : session.cache.slot? (Key.of source.path content) = some (.ready image)) :
    (session.loadImage view source).session.cache = session.cache.count (.hit image) := by
  simp only [loadImage, hRead, obtain, Cache.enter, Cache.lookup_ready hSlot]

theorem events_of_hit (hRead : source.read view session.settings = .ok content) {image : Shared}
    (hSlot : session.cache.slot? (Key.of source.path content) = some (.ready image)) :
    (session.loadImage view source).events = [] := by
  simp only [loadImage, hRead, obtain, Cache.enter, Cache.lookup_ready hSlot]
  rfl

theorem result_of_own (hRead : source.read view session.settings = .ok content)
    (hSlot : session.cache.slot? (Key.of source.path content) = none) :
    (session.loadImage view source).result =
      (Decoding.run session.settings session.registry source.path content).1.map
        fun image => ⟨session.cache.nextFlight, image⟩ := by
  simp only [loadImage, hRead, obtain, Cache.enter, Cache.lookup_none hSlot]

theorem cache_of_own (hRead : source.read view session.settings = .ok content)
    (hSlot : session.cache.slot? (Key.of source.path content) = none) :
    (session.loadImage view source).session.cache =
      ((session.cache.begin source.path content).count (.own session.cache.nextFlight)).finish
        session.cache.nextFlight
        (Decoding.run session.settings session.registry source.path content).1 := by
  simp only [loadImage, hRead, obtain, Cache.enter, Cache.lookup_none hSlot]

end Session

/-- A request to load an image, or to place it if a frame is given. -/
structure Order where
  source : Source
  frame : Option Frame
  /-- The settings as they were when the request was made. -/
  settings : Settings
  /-- The files as they were when the source was read. -/
  view : Option FileView
  outcome : Option (Outcome LoadError Served)

/-- What reading the source has come to. -/
def Order.read? (order : Order) : Option (Except LoadError Bytes) :=
  order.view.map fun view => order.source.read view order.settings

/-- What a session is asked to do. -/
inductive Move where
  | ask (order : Nat) (source : Source) (frame : Option Frame)
  | read (order : Nat) (view : FileView)
  /-- A step of the cache. A request and its call have the same number. -/
  | cache (act : Act)
  | answer (order : Nat)
  | configure (settings : Settings)

namespace Move

/-- The step that the cache takes with a move. -/
def act? : Move → Option Act
  | cache act => some act
  | _ => none

def isConfigure : Move → Bool
  | configure _ => true
  | _ => false

end Move

/-- A session and all requests that have been made on it. -/
structure Service where
  settings : Settings
  registry : Registry
  valid : settings.IsValid
  traffic : Traffic
  orders : Nat → Option Order

namespace Service

/-- Nobody has asked for anything yet. -/
def start (session : Session) : Service :=
  ⟨session.settings, session.registry, session.valid, Traffic.start, fun _ => none⟩

/-- A request comes to stand like this. -/
def put (s : Service) (i : Nat) (order : Order) : Service :=
  { s with orders := fun j => if j = i then some order else s.orders j }

/-- What the requests let the cache do: a look-up is for what a request has read, and a load is
the decoding of that. -/
def Allows (s : Service) : Act → Prop
  | .lookup i path content => ∃ order, s.orders i = some order ∧ order.source.path = path ∧
      order.read? = some (.ok content)
  | .load i ending => ∃ order call, s.orders i = some order ∧ s.traffic.calls i = some call ∧
      ending = (Decoding.run order.settings s.registry call.path call.content).1
  | _ => True

/-- One step of a session in use. -/
inductive Step (s : Service) : Move → Service → Prop where
  | ask (i : Nat) (source : Source) (frame : Option Frame) (fresh : s.orders i = none) :
      Step s (.ask i source frame) (s.put i ⟨source, frame, s.settings, none, none⟩)
  | read (i : Nat) (view : FileView) {order : Order} (h : s.orders i = some order)
      (unread : order.view = none) : Step s (.read i view) (s.put i { order with view := view })
  | cache (act : Act) {traffic : Traffic} (allowed : s.Allows act)
      (step : Traffic.Step s.traffic act traffic) :
      Step s (.cache act) { s with traffic := traffic }
  /-- A request whose source could not be read ends there. -/
  | refuse (i : Nat) {order : Order} {e : LoadError} (h : s.orders i = some order)
      (unanswered : order.outcome = none) (hRead : order.read? = some (.error e)) :
      Step s (.answer i) (s.put i { order with outcome := some (.failed e) })
  | answer (i : Nat) {order : Order} {call : Call} {result : Outcome LoadError Shared}
      (h : s.orders i = some order) (unanswered : order.outcome = none)
      (hCall : s.traffic.calls i = some call) (hReturned : call.progress = .returned result) :
      Step s (.answer i) (s.put i { order with outcome := some (Frame.serve order.frame result) })
  | configure (settings : Settings) (valid : settings.IsValid) :
      Step s (.configure settings) { s with settings, valid }

/-- The moves from one state to another, the first one first. -/
inductive Runs (s : Service) : List Move → Service → Prop where
  | zero : Runs s [] s
  | succ {moves : List Move} {t u : Service} {move : Move} (prior : Runs s moves t)
      (last : Step t move u) : Runs s (moves ++ [move]) u

variable {s t : Service} {move : Move} {moves : List Move} {session : Session}

theorem put_self (s : Service) (i : Nat) (order : Order) : (s.put i order).orders i = some order :=
  if_pos rfl

theorem put_ne (s : Service) {i j : Nat} (h : j ≠ i) (order : Order) :
    (s.put i order).orders j = s.orders j := if_neg h

/-- A request after a step is the one that took it or one from before. -/
theorem put_cases {i j : Nat} {order other : Order} (h : (s.put i order).orders j = some other) :
    j = i ∧ other = order ∨ j ≠ i ∧ s.orders j = some other := by
  by_cases hSame : j = i
  · rw [hSame, put_self] at h
    exact Or.inl ⟨hSame, (Option.some.inj h).symm⟩
  · rw [put_ne s hSame] at h
    exact Or.inr ⟨hSame, h⟩

/-- What the cache of a session goes through is a run of a cache in use. -/
theorem Runs.traffic (run : Runs (start session) moves s) :
    Traffic.Run (moves.filterMap Move.act?) s.traffic := by
  induction run with
  | zero => exact .zero
  | succ prior last ih =>
      rw [List.filterMap_append]
      cases last with
      | cache act allowed step => exact ih.succ step
      | _ =>
          change Traffic.Run (_ ++ []) _
          rw [List.append_nil]
          exact ih

/-- Decoders are never exchanged. -/
theorem Runs.registry (run : Runs (start session) moves s) : s.registry = session.registry := by
  induction run with
  | zero => rfl
  | succ prior last ih => cases last <;> exact ih

/-- As long as nobody replaces the settings, every request is made under the first ones. -/
theorem Runs.settings (run : Runs (start session) moves s)
    (hKept : ∀ move ∈ moves, move.isConfigure = false) :
    s.settings = session.settings ∧
      ∀ i order, s.orders i = some order → order.settings = session.settings := by
  induction run with
  | zero => exact ⟨rfl, fun i order h => by cases h⟩
  | @succ moves t u move prior last ih =>
      obtain ⟨hNow, hThen⟩ := ih fun other hOther => hKept other (List.mem_append_left _ hOther)
      -- A request takes the settings of its session or keeps those that it has.
      have hPut {i : Nat} {order : Order} (h : order.settings = session.settings) :
          ∀ j other, (t.put i order).orders j = some other → other.settings = session.settings := by
        intro j other hOther
        rcases put_cases hOther with ⟨_, rfl⟩ | ⟨_, hOld⟩
        · exact h
        · exact hThen j other hOld
      cases last with
      | ask i source frame fresh => exact ⟨hNow, hPut hNow⟩
      | @read i view order h unread => exact ⟨hNow, hPut (hThen i order h)⟩
      | cache act allowed step => exact ⟨hNow, hThen⟩
      | @refuse i order e h unanswered hRead => exact ⟨hNow, hPut (hThen i order h)⟩
      | @answer i order call result h unanswered hCall hReturned =>
          exact ⟨hNow, hPut (hThen i order h)⟩
      | configure settings valid => cases hKept (.configure settings) (by simp)

/-! What requests, calls and loads have to do with each other -/

structure Sound (s : Service) : Prop where
  /-- A call is made for what a request has read. -/
  asked : ∀ i call, s.traffic.calls i = some call → ∃ order, s.orders i = some order ∧
    order.source.path = call.path ∧ order.read? = some (.ok call.content)
  /-- An owner decodes under the settings of its own request. -/
  decoded : ∀ i call flight order ending, s.traffic.calls i = some call →
    call.role = .own flight → s.orders i = some order → call.progress.ending? = some ending →
    ending = (Decoding.run order.settings s.registry call.path call.content).1
  answered : ∀ i order outcome, s.orders i = some order → order.outcome = some outcome →
    (∃ e, order.read? = some (.error e) ∧ outcome = .failed e) ∨
    ∃ call result, s.traffic.calls i = some call ∧ call.progress = .returned result ∧
      outcome = Frame.serve order.frame result

theorem sound_start (session : Session) : (start session).Sound where
  asked := by
    intro i call h
    cases h
  decoded := by
    intro i call flight order ending h
    cases h
  answered := by
    intro i order outcome h
    cases h

/-- A step of a request whose source and settings stay what they are, and what has been read. -/
theorem Sound.put (sound : s.Sound) {i : Nat} {order : Order}
    (hCalled : ∀ call, s.traffic.calls i = some call → ∃ old, s.orders i = some old ∧
      order.source = old.source ∧ order.settings = old.settings ∧ order.read? = old.read?)
    (hAnswered : ∀ outcome, order.outcome = some outcome →
      (∃ e, order.read? = some (.error e) ∧ outcome = .failed e) ∨
      ∃ call result, s.traffic.calls i = some call ∧ call.progress = .returned result ∧
        outcome = Frame.serve order.frame result) : (s.put i order).Sound where
  asked := by
    intro j call hCall
    obtain ⟨old, hOld, hPath, hRead⟩ := sound.asked j call hCall
    by_cases hSame : j = i
    · subst hSame
      obtain ⟨old', hOld', hSource, _, hRead'⟩ := hCalled call hCall
      rw [hOld, Option.some.injEq] at hOld'
      subst hOld'
      exact ⟨order, put_self .., hSource ▸ hPath, hRead'.trans hRead⟩
    · exact ⟨old, (put_ne s hSame _).trans hOld, hPath, hRead⟩
  decoded := by
    intro j call flight other ending hCall hOwn hOther hEnding
    rcases put_cases hOther with ⟨rfl, rfl⟩ | ⟨_, hOld⟩
    · obtain ⟨old, hOld, _, hSettings, _⟩ := hCalled call hCall
      rw [hSettings]
      exact sound.decoded j call flight old ending hCall hOwn hOld hEnding
    · exact sound.decoded j call flight other ending hCall hOwn hOld hEnding
  answered := by
    intro j other outcome hOther hOutcome
    rcases put_cases hOther with ⟨rfl, rfl⟩ | ⟨_, hOld⟩
    · exact hAnswered outcome hOutcome
    · exact sound.answered j other outcome hOld hOutcome

/-- A step of the cache that the requests allow. -/
theorem Sound.cache (sound : s.Sound) {act : Act} {traffic : Traffic} (allowed : s.Allows act)
    (step : Traffic.Step s.traffic act traffic) : Sound { s with traffic := traffic } where
  asked := by
    intro i call hCall
    rcases step.call_cases hCall with hOld | ⟨_, rfl, _⟩ | ⟨old, hOld, moves⟩
    · exact sound.asked i call hOld
    · exact allowed
    · rw [moves.path, moves.content]
      exact sound.asked i old hOld
  decoded := by
    intro i call flight order ending hCall hOwn hOrder hEnding
    rcases step.call_cases hCall with hOld | ⟨_, _, hEntered⟩ | ⟨old, hOld, moves⟩
    · exact sound.decoded i call flight order ending hOld hOwn hOrder hEnding
    · rw [hEntered] at hEnding
      cases hEnding
    · have hOwned := moves.role.symm.trans hOwn
      rw [moves.path, moves.content]
      rcases moves.ending flight hOwned with hSame | ⟨loaded, rfl, hLoaded⟩
      · exact sound.decoded i old flight order ending hOld hOwned hOrder (hSame ▸ hEnding)
      · obtain ⟨order', old', hOrder', hCall', rfl⟩ := allowed
        rw [hOrder, Option.some.injEq] at hOrder'
        rw [hOld, Option.some.injEq] at hCall'
        rw [hLoaded] at hEnding
        rw [← Option.some.inj hEnding, hOrder', hCall']
  answered := by
    intro i order outcome hOrder hOutcome
    rcases sound.answered i order outcome hOrder hOutcome with hRefused | hServed
    · exact Or.inl hRefused
    · obtain ⟨call, result, hCall, hReturned, hResult⟩ := hServed
      have hKept := step.calls_of_returned hCall hReturned
      exact Or.inr ⟨call, result, hKept, hReturned, hResult⟩

theorem Sound.step (sound : s.Sound) (step : Step s move t) : t.Sound := by
  cases step with
  | ask i source frame fresh =>
      refine sound.put ?_ (fun outcome h => by cases h)
      intro call hCall
      obtain ⟨old, hOld, _⟩ := sound.asked i call hCall
      rw [fresh] at hOld
      cases hOld
  | @read i view order h unread =>
      -- Nothing has been looked up or answered for a request that has not read its source.
      have hUnread : order.read? = none := by rw [Order.read?, unread]; rfl
      refine sound.put ?_ ?_
      · intro call hCall
        obtain ⟨old, hOld, _, hRead⟩ := sound.asked i call hCall
        rw [h, Option.some.injEq] at hOld
        rw [← hOld, hUnread] at hRead
        cases hRead
      · intro outcome hOutcome
        rcases sound.answered i order outcome h hOutcome with ⟨e, hRead, _⟩ | hServed
        · rw [hUnread] at hRead
          cases hRead
        · exact Or.inr hServed
  | cache act allowed step => exact sound.cache allowed step
  | refuse i h unanswered hRead =>
      refine sound.put (fun call _ => ⟨_, h, rfl, rfl, rfl⟩) ?_
      rintro outcome ⟨⟩
      exact Or.inl ⟨_, hRead, rfl⟩
  | answer i h unanswered hCall hReturned =>
      refine sound.put (fun call _ => ⟨_, h, rfl, rfl, rfl⟩) ?_
      rintro outcome ⟨⟩
      exact Or.inr ⟨_, _, hCall, hReturned, rfl⟩
  | configure settings valid => exact ⟨sound.asked, sound.decoded, sound.answered⟩

/-- Whatever has been asked and in whatever order it came, the requests and the cache agree. -/
theorem Runs.sound (run : Runs (start session) moves s) : s.Sound := by
  induction run with
  | zero => exact sound_start session
  | succ prior last ih => exact ih.step last

/-! A request that nobody disturbs -/

/-- The session as it stands, for one request at a time. -/
def toSession (s : Service) : Session := ⟨s.settings, s.registry, s.traffic.cache, s.valid⟩

/-- The moves of a request that finds nothing filed, while nobody else moves. -/
def loads (i flight : Nat) (source : Source) (frame : Option Frame) (view : FileView)
    (content : Bytes) (ending : Ending) : List Move :=
  [.ask i source frame, .read i view, .cache (.lookup i source.path content), .cache (.count i),
    .cache (.load i ending), .cache (.complete i), .cache (.publish i flight),
    .cache (.answer i), .answer i]

theorem exists_runs_loads {i : Nat} (hOrder : s.orders i = none) (hCall : s.traffic.calls i = none)
    {view : FileView} {source : Source} {content : Bytes}
    (hRead : source.read view s.settings = .ok content)
    (hSlot : s.traffic.cache.slot? (Key.of source.path content) = none) (frame : Option Frame) :
    ∃ t, Runs s (loads i s.traffic.cache.nextFlight source frame view content
        (Decoding.run s.settings s.registry source.path content).1) t ∧
      t.settings = s.settings ∧ t.registry = s.registry ∧
      t.orders i = some ⟨source, frame, s.settings, some view,
        some (Frame.serve frame (s.toSession.loadImage view source).result)⟩ ∧
      t.traffic.cache = (s.toSession.loadImage view source).session.cache := by
  have hContent : Order.read? ⟨source, frame, s.settings, some view, none⟩ =
      some (.ok content) := congrArg some hRead
  have idle : Runs s [] s := .zero
  have asked := idle.succ (.ask i source frame hOrder)
  have read := asked.succ (.read i view (put_self ..) rfl)
  have entered := read.succ (.cache (.lookup i source.path content)
    ⟨_, put_self .., rfl, hContent⟩ (.lookup i _ _ hCall (Cache.lookup_none hSlot)))
  have counted := entered.succ (.cache (.count i) trivial (.count i (Traffic.put_self ..)))
  have loaded := counted.succ (.cache (.load i _)
    ⟨_, _, put_self .., Traffic.put_self .., rfl⟩ (.load i _ (Traffic.put_self ..)))
  have filed := loaded.succ (.cache (.complete i) trivial (.complete i (Traffic.put_self ..)))
  have published := filed.succ (.cache (.publish i _) trivial
    (.publish i (Traffic.put_self ..)))
  have left := published.succ (.cache (.answer i) trivial (.leave i (Traffic.put_self ..)))
  have run := left.succ (.answer i (put_self ..) rfl (Traffic.put_self ..) rfl)
  refine ⟨_, run, rfl, rfl, ?_, ?_⟩
  · rw [Session.result_of_own hRead hSlot]
    exact put_self ..
  · rw [Session.cache_of_own hRead hSlot]
    change Cache.publish _ _ (Cache.delivery (Cache.complete _ _ _) _ _) = _
    rw [Cache.delivery_complete]
    rfl

/-- While no load is under way, a request that is made alone can run to its end, with the outcome
that the session gives it and the cache that the session leaves. -/
theorem exists_runs_alone {i : Nat} (hOrder : s.orders i = none) (hCall : s.traffic.calls i = none)
    (hIdle : ∀ key flight, s.traffic.cache.slot? key ≠ some (.pending flight)) (view : FileView)
    (source : Source) (frame : Option Frame) :
    ∃ moves t order, Runs s moves t ∧ t.orders i = some order ∧
      order.outcome = some (s.toSession.serve view source frame) ∧
      t.traffic.cache = (s.toSession.loadImage view source).session.cache := by
  have idle : Runs s [] s := .zero
  have asked := idle.succ (.ask i source frame hOrder)
  have read := asked.succ (.read i view (put_self ..) rfl)
  rw [Session.serve_eq]
  cases hRead : source.read view s.settings with
  | error e =>
      have run := read.succ (.refuse i (put_self ..) rfl (congrArg some hRead))
      refine ⟨_, _, _, run, put_self .., ?_, ?_⟩
      · rw [Session.result_of_error hRead]
        cases frame <;> rfl
      · simp only [Session.loadImage, toSession, hRead]
        rfl
  | ok content =>
      have hContent : Order.read? ⟨source, frame, s.settings, some view, none⟩ =
          some (.ok content) := congrArg some hRead
      cases hSlot : s.traffic.cache.slot? (Key.of source.path content) with
      | none =>
          obtain ⟨t, run, -, -, hDone, hCache⟩ := exists_runs_loads hOrder hCall hRead hSlot frame
          exact ⟨_, t, _, run, hDone, rfl, hCache⟩
      | some slot =>
          cases slot with
          | pending flight => exact absurd hSlot (hIdle _ flight)
          | ready image =>
              have entered := read.succ (.cache (.lookup i source.path content)
                ⟨_, put_self .., rfl, hContent⟩ (.lookup i _ _ hCall (Cache.lookup_ready hSlot)))
              have counted := entered.succ (.cache (.count i) trivial
                (.count i (Traffic.put_self ..)))
              have taken := counted.succ (.cache (.answer i) trivial
                (.take i (Traffic.put_self ..)))
              have run := taken.succ (.answer i (put_self ..) rfl (Traffic.put_self ..) rfl)
              refine ⟨_, _, _, run, put_self .., ?_, ?_⟩
              · rw [Session.result_of_hit hRead hSlot]
              · rw [Session.cache_of_hit hRead hSlot]
                rfl

end Service

end ImagePlacement
