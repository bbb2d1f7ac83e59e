import ImagePlacement.Bytes
import ImagePlacement.Image
import ImagePlacement.Path

namespace ImagePlacement

/-- What a cached image is filed under: the path it was asked for by, and the content found
there. Two spellings of a path with the same components are one. -/
structure Key where
  place : List Path.Component
  content : Bytes
  deriving DecidableEq

/-- The key of content found at a path. -/
def Key.of (path : String) (content : Bytes) : Key := ⟨Path.components path, content⟩

/-- An image that callers share. The flight that loaded it tells it from equal images. -/
structure Shared where
  flight : Nat
  image : Image

/-- What a caller is given. -/
abbrev Delivery := Except LoadError Shared

/-- A load that has been started. -/
structure Flight where
  /-- The path as its owner spelled it. -/
  path : String
  key : Key
  /-- The image was invalidated while it was being loaded, and is not kept. -/
  revoked : Bool
  /-- What all callers are given, once it is known. -/
  result : Option Delivery

/-- What the cache has under a key. -/
inductive Slot where
  | ready (image : Shared)
  /-- The flight of a given number is under way. -/
  | pending (flight : Nat)

/-- How often callers found an image, found none, or found a load under way, and how many loads
failed. -/
structure Tally where
  hits : Nat
  misses : Nat
  coalesced : Nat
  failures : Nat
  deriving DecidableEq, Repr

/-- A cache in which every image is loaded once, however many callers ask for it. Flights are
numbered in the order in which they start. -/
structure Cache where
  slots : List (Key × Slot)
  flights : List Flight
  tally : Tally

/-- What a caller is to do. -/
inductive Role where
  /-- Take the image. -/
  | hit (image : Shared)
  /-- Wait for a flight. -/
  | wait (flight : Nat)
  /-- Load the image, as the owner of a new flight. -/
  | own (flight : Nat)

/-- How a load ends: with an image, with an error, or abandoned. -/
abbrev Ending := Outcome LoadError Image

namespace Cache

def empty : Cache := ⟨[], [], ⟨0, 0, 0, 0⟩⟩

/-- What is filed under a key. -/
def slot? (c : Cache) (key : Key) : Option Slot := c.slots.lookup key

/-- The slots without the one of a key. -/
def others (c : Cache) (key : Key) : List (Key × Slot) := c.slots.filter fun entry => entry.1 ≠ key

/-- The numbers of images that are ready. -/
def entries (c : Cache) : Nat :=
  c.slots.countP fun entry => match entry.2 with
    | .ready _ => true
    | .pending _ => false

/-- Whether a flight is revoked. -/
def isRevoked (c : Cache) (flight : Nat) : Bool :=
  match c.flights[flight]? with
  | some f => f.revoked
  | none => false

/-- The number that the next flight gets. -/
def nextFlight (c : Cache) : Nat := c.flights.length

end Cache

end ImagePlacement
