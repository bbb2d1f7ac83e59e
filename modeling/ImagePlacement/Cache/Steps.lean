import ImagePlacement.Cache.Basic

namespace ImagePlacement.Cache

/-! The steps that callers of a cache take. Each of them is taken at once; between two steps
of one caller others may take theirs. -/

/-- Looks a key up. A caller who finds nothing becomes the owner of a new flight. -/
def lookup (c : Cache) (path : String) (content : Bytes) : Role × Cache :=
  let key := Key.of path content
  match c.slot? key with
  | some (.ready image) => (.hit image, c)
  | some (.pending flight) => (.wait flight, c)
  | none =>
    (.own c.nextFlight,
      { c with
        slots := (key, .pending c.nextFlight) :: c.slots
        flights := c.flights ++ [⟨path, key, false, none⟩] })

/-- Counts a look-up. -/
def count (c : Cache) : Role → Cache
  | .hit _ => { c with tally := { c.tally with hits := c.tally.hits + 1 } }
  | .wait _ => { c with tally := { c.tally with coalesced := c.tally.coalesced + 1 } }
  | .own _ => { c with tally := { c.tally with misses := c.tally.misses + 1 } }

/-- Looks a key up and counts it. -/
def enter (c : Cache) (path : String) (content : Bytes) : Role × Cache :=
  let (role, c) := c.lookup path content
  (role, c.count role)

/-- What the end of a flight means for those who wait for it. An abandoned load becomes an
error that names the path of its owner. -/
def delivery (c : Cache) (flight : Nat) : Ending → Delivery
  | .done image => .ok ⟨flight, image⟩
  | .failed e => .error e
  | .aborted _ =>
    let path := ((c.flights[flight]?).map Flight.path).getD ""
    .error (.internal ("decode of " ++ path ++ " panicked"))

/-- Files the result of a flight under its key. Only an image is kept, and only if it has not
been invalidated meanwhile. -/
def complete (c : Cache) (flight : Nat) (result : Delivery) : Cache :=
  match c.flights[flight]? with
  | none => c
  | some f =>
    match result with
    | .ok image =>
      if f.revoked then { c with slots := c.others f.key }
      else { c with slots := (f.key, .ready image) :: c.others f.key }
    | .error _ =>
      { c with
        slots := c.others f.key
        tally := { c.tally with failures := c.tally.failures + 1 } }

/-- Hands the result of a flight to those who wait for it. -/
def publish (c : Cache) (flight : Nat) (result : Delivery) : Cache :=
  { c with flights := c.flights.modify flight fun f => { f with result := some result } }

/-- The end of a flight: its result is filed and then published. -/
def finish (c : Cache) (flight : Nat) (ending : Ending) : Cache :=
  let result := c.delivery flight ending
  (c.complete flight result).publish flight result

/-- What a caller who waits for a flight is given. -/
def delivered (c : Cache) (flight : Nat) : Delivery :=
  match (c.flights[flight]?).bind Flight.result with
  | some result => result
  | none => .error (.internal "in-flight decode finished without result")

/-- Drops the images whose key is selected, and revokes the flights under way to such keys. -/
def drop (c : Cache) (selected : Key → Bool) : Cache :=
  let isPending (flight : Nat) : Bool := c.slots.any fun entry =>
    match entry.2 with
    | .pending f => f = flight && selected entry.1
    | .ready _ => false
  { c with
    slots := c.slots.filter fun entry =>
      match entry.2 with
      | .ready _ => !selected entry.1
      | .pending _ => true
    flights := c.flights.mapIdx fun i f => if isPending i then { f with revoked := true } else f }

/-- Drops all images of a path, whatever their content, and tells how many there were. -/
def invalidate (c : Cache) (path : String) : Nat × Cache :=
  let place := Path.components path
  let after := c.drop fun key => key.place = place
  (c.slots.length - after.slots.length, after)

/-- Drops all images. -/
def clear (c : Cache) : Cache := c.drop fun _ => true

end ImagePlacement.Cache
