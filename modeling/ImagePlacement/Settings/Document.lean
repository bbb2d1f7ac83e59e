import ImagePlacement.Settings
import ImagePlacement.Json.Reader

namespace ImagePlacement.Settings

/-- The members that a settings document may give. -/
inductive Field where
  | maxFileSize
  | maxPixels
  | maxDecodedBytes
  | warnOnMismatch
  deriving DecidableEq, Repr

namespace Field

/-- The order in which an array gives the fields. -/
def all : List Field := [maxFileSize, maxPixels, maxDecodedBytes, warnOnMismatch]

def name : Field → String
  | maxFileSize => "max_file_size"
  | maxPixels => "max_decoded_pixels"
  | maxDecodedBytes => "max_decoded_bytes"
  | warnOnMismatch => "warn_on_extension_mismatch"

/-- The field of a given name. -/
def ofName? (text : String) : Option Field := all.find? fun f => f.name = text

end Field

/-- A 64-bit number. -/
private def word? : Json → Option UInt64
  | .number (some n) => if n < UInt64.size then some (UInt64.ofNat n) else none
  | _ => none

private def truth? : Json → Option Bool
  | .bool b => some b
  | _ => none

/-- The settings with one field changed, if the value is of its type. -/
def assign? (s : Settings) (field : Field) (value : Json) : Option Settings :=
  match field with
  | .maxFileSize => (word? value).map fun n => { s with maxFileSize := n }
  | .maxPixels => (word? value).map fun n => { s with maxPixels := n }
  | .maxDecodedBytes => (word? value).map fun n => { s with maxDecodedBytes := n }
  | .warnOnMismatch => (truth? value).map fun b => { s with warnOnMismatch := b }

/-- The fields that an object gives. Unknown members are skipped, and no member may
have a key that is no text. -/
def assignments? : List (Option String × Json) → Option (List (Field × Json))
  | [] => some []
  | (none, _) :: _ => none
  | (some key, value) :: rest =>
    match Field.ofName? key with
    | some field => (assignments? rest).map ((field, value) :: ·)
    | none => assignments? rest

/-- The settings of a document: an object that gives some fields by name and none twice,
or an array that gives the first fields in order. The others are the standard ones. -/
def ofJson? (document : Json) : Option Settings := do
  let given ← match document with
    | .object members => assignments? members
    | .array items => if items.length ≤ Field.all.length then some (Field.all.zip items) else none
    | _ => none
  if (given.map (·.1)).Nodup then given.foldlM (fun s a => s.assign? a.1 a.2) standard
  else none

end ImagePlacement.Settings
