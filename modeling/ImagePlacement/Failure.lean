import ImagePlacement.Format
import ImagePlacement.Decimal.Text

namespace ImagePlacement

/-- Why bytes are no image. -/
inductive DecodeError where
  | unsupported
  | corrupt (format : Format) (reason : String)
  | degenerate (width height : Float)

/-- Why an image could not be loaded. -/
inductive LoadError where
  /-- There is no file. -/
  | missing (path : String)
  /-- There is something, but it cannot be read or is no proper data. -/
  | unreadable (path reason : String)
  | undecodable (cause : DecodeError)
  | overLimit (reason : String)
  /-- A fault of the loader itself. -/
  | internal (reason : String)

/-- The classes of failures that callers tell apart. -/
inductive FailureKind where
  | notFound
  | fileSystem
  | unsupportedFormat
  | corruptData
  | degenerateDimensions
  | resourceLimit
  | internal
  deriving DecidableEq, Repr

/-- The part of a load in which a failure arises. -/
inductive Stage where
  | read
  | decode
  | cache
  deriving DecidableEq, Repr

namespace FailureKind

def name : FailureKind → String
  | notFound => "not_found"
  | fileSystem => "file_system"
  | unsupportedFormat => "unsupported_format"
  | corruptData => "corrupt_data"
  | degenerateDimensions => "degenerate_dimensions"
  | resourceLimit => "resource_limit"
  | internal => "internal"

/-- The code shown to users: the name in capitals after `E_`. -/
def code (k : FailureKind) : String := "E_" ++ k.name.toUpper

end FailureKind

def Stage.name : Stage → String
  | read => "read"
  | decode => "decode"
  | cache => "cache"

/-- The reason given when a file is built as it should be but its content does not decode. -/
def undecodable : String := "<codec>"

namespace DecodeError

def kind : DecodeError → FailureKind
  | unsupported => .unsupportedFormat
  | corrupt .. => .corruptData
  | degenerate .. => .degenerateDimensions

def message : DecodeError → String
  | unsupported => "unknown image format"
  | corrupt format reason => "corrupt " ++ format.name ++ " data: " ++ reason
  | degenerate width height =>
    "image has degenerate dimensions (" ++ Decimal.plain width ++ "x" ++
      Decimal.plain height ++ ")"

end DecodeError

namespace LoadError

def kind : LoadError → FailureKind
  | missing _ => .notFound
  | unreadable .. => .fileSystem
  | undecodable cause => cause.kind
  | overLimit _ => .resourceLimit
  | internal _ => .internal

/-- The stage that an error belongs to, judged by its constructor. -/
def stage : LoadError → Stage
  | missing _ | unreadable .. => .read
  | undecodable _ | overLimit _ => .decode
  | internal _ => .cache

def message : LoadError → String
  | missing path => "file not found (searched at " ++ path ++ ")"
  | unreadable path reason => "failed to read file " ++ path ++ " (" ++ reason ++ ")"
  | undecodable cause => "failed to load image (" ++ cause.message ++ ")"
  | overLimit reason => "image exceeds resource limit (" ++ reason ++ ")"
  | internal reason => "internal image loader error (" ++ reason ++ ")"

/-- The messages of an error and of what caused it, outermost first. -/
def causes (e : LoadError) : List String :=
  match e with
  | undecodable cause => [e.message, cause.message]
  | _ => [e.message]

end LoadError

/-- How a computation ends that may also be abandoned half-way. -/
inductive Outcome (ε α : Type) where
  | done (value : α)
  | failed (error : ε)
  | aborted (reason : String)

namespace Outcome

variable {ε ε' α β : Type}

def ofExcept : Except ε α → Outcome ε α
  | .ok value => done value
  | .error e => failed e

def map (f : α → β) : Outcome ε α → Outcome ε β
  | done value => done (f value)
  | failed e => failed e
  | aborted reason => aborted reason

def mapError (f : ε → ε') : Outcome ε α → Outcome ε' α
  | done value => done value
  | failed e => failed (f e)
  | aborted reason => aborted reason

/-- Goes on with the value, if there is one. -/
def bind (x : Outcome ε α) (f : α → Outcome ε β) : Outcome ε β :=
  match x with
  | done value => f value
  | failed e => failed e
  | aborted reason => aborted reason

/-- Whether there is a value at the end. -/
@[simp] def isDone : Outcome ε α → Bool
  | done _ => true
  | failed _ | aborted _ => false

theorem exists_of_isDone {x : Outcome ε α} (h : x.isDone = true) : ∃ value, x = .done value := by
  cases x with
  | done value => exact ⟨value, rfl⟩
  | failed e => cases h
  | aborted reason => cases h

theorem ofExcept_eq_done_iff {x : Except ε α} {value : α} :
    ofExcept x = done value ↔ x = .ok value := by
  cases x <;> simp [ofExcept]

theorem ofExcept_ne_aborted (x : Except ε α) (reason : String) : ofExcept x ≠ aborted reason := by
  cases x <;> nofun

/-! Where an outcome of a computation in steps comes from -/

section Steps

variable {x : Outcome ε α} {reason : String}

@[simp] theorem isDone_map (f : α → β) : (x.map f).isDone = x.isDone := by
  cases x <;> rfl

theorem map_eq_done_iff {f : α → β} {value : β} :
    x.map f = done value ↔ ∃ a, x = done a ∧ f a = value := by
  cases x <;> simp [map]

theorem map_eq_aborted_iff {f : α → β} : x.map f = aborted reason ↔ x = aborted reason := by
  cases x <;> simp [map]

theorem mapError_eq_done_iff {f : ε → ε'} {value : α} :
    x.mapError f = done value ↔ x = done value := by
  cases x <;> simp [mapError]

theorem mapError_eq_failed_iff {f : ε → ε'} {e : ε'} :
    x.mapError f = failed e ↔ ∃ cause, x = failed cause ∧ f cause = e := by
  cases x <;> simp [mapError]

theorem mapError_eq_aborted_iff {f : ε → ε'} :
    x.mapError f = aborted reason ↔ x = aborted reason := by
  cases x <;> simp [mapError]

theorem bind_eq_done_iff {f : α → Outcome ε β} {value : β} :
    x.bind f = done value ↔ ∃ a, x = done a ∧ f a = done value := by
  cases x <;> simp [bind]

theorem bind_eq_failed_iff {f : α → Outcome ε β} {e : ε} :
    x.bind f = failed e ↔ x = failed e ∨ ∃ a, x = done a ∧ f a = failed e := by
  cases x <;> simp [bind]

theorem bind_eq_aborted_iff {f : α → Outcome ε β} :
    x.bind f = aborted reason ↔ x = aborted reason ∨ ∃ a, x = done a ∧ f a = aborted reason := by
  cases x <;> simp [bind]

end Steps

end Outcome

end ImagePlacement
