import ImagePlacement.Decimal.Literal
import ImagePlacement.Sizing
import ImagePlacement.Text.Plain

namespace ImagePlacement.CommandLine

/-- The options that take a value. -/
inductive Parameter where
  | width
  | height
  | containerWidth
  | containerHeight
  | config
  | repeats
  deriving DecidableEq, Repr

/-- What a command line asks for. -/
structure Order where
  path : String
  extents : Extents Float
  region : Region Float
  /-- A file with settings. -/
  config : Option String
  /-- How often the image is placed; no placement counts as one. -/
  repeats : UInt32

/-- Why a length is refused. -/
inductive ExtentFault where
  | notNumber (fault : Decimal.ReadError)
  | notExtent (text : String)
  deriving DecidableEq, Repr

/-- Why a command line gives no order. -/
inductive Stop where
  /-- Only a description of the command line is asked for. -/
  | helpAsked
  | versionAsked
  | unknown (argument : String)
  | surplus (argument : String)
  | repeated (parameter : Parameter)
  | valueMissing (parameter : Parameter)
  | badExtent (parameter : Parameter) (value : String) (fault : ExtentFault)
  | badValue (parameter : Parameter) (value : String)
  | pathEmpty
  | pathMissing
  deriving DecidableEq, Repr

namespace Parameter

def all : List Parameter := [width, height, containerWidth, containerHeight, config, repeats]

/-- The name after two hyphens. -/
def name : Parameter → String
  | width => "width"
  | height => "height"
  | containerWidth => "container-width"
  | containerHeight => "container-height"
  | config => "config"
  | repeats => "repeat"

def ofName? (text : String) : Option Parameter := all.find? fun p => p.name = text

/-- The option as it is shown, with a word for its value. -/
def usage (p : Parameter) : String :=
  let word := p.name.map fun c => if c = '-' then '_' else c.toUpper
  "--" ++ p.name ++ " <" ++ word ++ ">"

end Parameter

def ExtentFault.message : ExtentFault → String
  | notNumber fault => "invalid number: " ++ fault.message
  | notExtent text => "expected a finite non-negative length, got " ++ text

/-- Whether nothing is wrong with the command line. -/
def Stop.isHarmless : Stop → Bool
  | helpAsked | versionAsked => true
  | _ => false

/-- The option as it is listed in a description. -/
private def Parameter.line (p : Parameter) : String :=
  let meaning := match p with
    | width => "width of the box, in points"
    | height => "height of the box, in points"
    | containerWidth => "width of the room for it, in points"
    | containerHeight => "height of the room for it, in points"
    | config => "JSON file with settings"
    | repeats => "how often the image is placed"
  "  " ++ p.usage ++ "  " ++ meaning

def Stop.message : Stop → String
  | helpAsked =>
    "\n".intercalate ("Usage: image-embed [OPTIONS] <PATH>" :: Parameter.all.map Parameter.line)
  | versionAsked => "image-embed 0.1.0"
  | unknown argument => "unexpected argument '" ++ argument ++ "' found"
  | surplus argument => "unexpected argument '" ++ argument ++ "' found"
  | repeated p => "the argument '" ++ p.usage ++ "' cannot be used multiple times"
  | valueMissing p => "a value is required for '" ++ p.usage ++ "' but none was supplied"
  | badExtent p value fault =>
    "invalid value '" ++ Plain.encode value ++ "' for '" ++ p.usage ++ "': " ++ fault.message
  | badValue p value => "invalid value '" ++ value ++ "' for '" ++ p.usage ++ "'"
  | pathEmpty => "a value is required for '<PATH>' but none was supplied"
  | pathMissing => "the following required arguments were not provided: <PATH>"

/-- A length must be a finite number and not negative. -/
def readExtent (text : String) : Except ExtentFault Float :=
  match Decimal.read text with
  | .error fault => .error (.notNumber fault)
  | .ok x => if !x.isFinite || x < 0.0 then .error (.notExtent text) else .ok x

/-- A signed number in decimal digits. -/
def readInteger? (text : String) : Option Int :=
  let (negative, body) := Decimal.takeSign text.toList
  match Decimal.takeDigits body with
  | ([], _) => none
  | (digits, []) =>
    let n : Int := Decimal.ofDigits digits
    some (if negative then -n else n)
  | _ => none

/-- A number of repetitions: an integer that fits into 32 bits. -/
def readRepeats? (text : String) : Option UInt32 :=
  (readInteger? text).bind fun n =>
    if 0 ≤ n ∧ n < UInt32.size then some (UInt32.ofNat n.toNat) else none

/-- An argument that has been met and not yet been judged. -/
inductive Pending where
  | option (parameter : Parameter) (value : Option String)
  | path (text : String)

/-- The arguments that have been accepted so far. -/
structure Accepted where
  path : Option String
  seen : List Parameter
  extents : Extents Float
  region : Region Float
  config : Option String
  repeats : UInt32

namespace Accepted

def none : Accepted := ⟨.none, [], .natural, .unbounded, .none, 1⟩

/-- Takes the value of an option. Every option is given once at most. -/
def assign (a : Accepted) (p : Parameter) (value : String) : Except Stop Accepted :=
  if a.seen.contains p then .error (.repeated p)
  else
    let a := { a with seen := p :: a.seen }
    let extent := (readExtent value).mapError (.badExtent p value)
    let limit := (Decimal.read value).mapError fun _ => .badValue p value
    match p with
    | .width => do return { a with extents := { a.extents with width := some (← extent) } }
    | .height => do return { a with extents := { a.extents with height := some (← extent) } }
    | .containerWidth => do return { a with region := { a.region with width := some (← limit) } }
    | .containerHeight => do return { a with region := { a.region with height := some (← limit) } }
    | .config => if value = "" then .error (.badValue p value) else .ok { a with config := some value }
    | .repeats =>
      match readRepeats? value with
      | some n => .ok { a with repeats := n }
      | .none => .error (.badValue p value)

/-- Judges an argument that has been met. -/
def settle (a : Accepted) : Option Pending → Except Stop Accepted
  | .none => .ok a
  | some (.option p (some value)) => a.assign p value
  | some (.option p .none) => .error (if a.seen.contains p then .repeated p else .valueMissing p)
  | some (.path "") => .error .pathEmpty
  | some (.path text) => .ok { a with path := some text }

/-- The order that is complete. -/
def order (a : Accepted) : Except Stop Order :=
  match a.path with
  | some path => .ok ⟨path, a.extents, a.region, a.config, a.repeats⟩
  | .none => .error .pathMissing

end Accepted

/-- A reader between two arguments. -/
structure Reader where
  accepted : Accepted
  pending : Option Pending
  /-- A path has been met. -/
  hasPath : Bool
  /-- Two hyphens have been met: what follows is no option. -/
  isPlain : Bool

namespace Reader

def start : Reader := ⟨.none, none, false, false⟩

/-- The name and the value of an option that is written with an equals sign, or its name. -/
def splitOption (text : List Char) : String × Option String :=
  match text.dropWhile (· ≠ '=') with
  | _ :: value => (String.ofList (text.takeWhile (· ≠ '=')), some (String.ofList value))
  | [] => (String.ofList text, none)

/-- An option. A value that comes with it is judged at once, after what was pending; a value that
follows is judged later. -/
def takeOption (r : Reader) (argument : String) (text : List Char) : Except Stop Reader :=
  let (name, value) := splitOption text
  match Parameter.ofName? name with
  | none => .error (.unknown argument)
  | some p => do
    let accepted ← r.accepted.settle r.pending
    match value with
    | some value => return { r with accepted := ← accepted.assign p value, pending := none }
    | none => return { r with accepted := accepted, pending := some (.option p none) }

/-- A short option, judged by its letter. -/
def takeLetter (r : Reader) (argument : String) (letter : Char) : Except Stop Reader :=
  if letter = 'h' then do let _ ← r.accepted.settle r.pending; .error .helpAsked
  else if letter = 'V' then do let _ ← r.accepted.settle r.pending; .error .versionAsked
  else .error (.unknown argument)

/-- An argument that is no option: the value that an option waits for, or the path. -/
def takePlain (r : Reader) (argument : String) : Except Stop Reader :=
  match r.pending, r.isPlain with
  | some (.option p none), false => .ok { r with pending := some (.option p (some argument)) }
  | _, _ =>
    if r.hasPath then .error (.surplus argument)
    else do
      let accepted ← r.accepted.settle r.pending
      return { r with accepted := accepted, pending := some (.path argument), hasPath := true }

/-- The next argument. A single hyphen is no option. -/
def step (r : Reader) (argument : String) : Except Stop Reader :=
  match r.isPlain, argument.toList with
  | false, ['-', '-'] => .ok { r with isPlain := true }
  | false, '-' :: '-' :: text =>
    if argument = "--help" then r.takeLetter argument 'h'
    else if argument = "--version" then r.takeLetter argument 'V'
    else r.takeOption argument text
  | false, '-' :: letter :: _ => r.takeLetter argument letter
  | _, _ => r.takePlain argument

end Reader

/-- The order that the arguments of a command line make up. -/
def Order.ofArguments (arguments : List String) : Except Stop Order := do
  let r ← arguments.foldlM Reader.step Reader.start
  (← r.accepted.settle r.pending).order

end ImagePlacement.CommandLine
