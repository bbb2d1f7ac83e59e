import ImagePlacement.Base64
import ImagePlacement.Text.Blank

namespace ImagePlacement.DataUrl

/-- What a data URL starts with. -/
def scheme : List Char := "data:".toList

/-- The media types that are accepted. -/
def mediaType : List Char := "image/".toList

/-- What stands between the media type and the payload. -/
def marker : List Char := ";base64,".toList

/-- Why a text gives no bytes. -/
inductive Fault where
  | notImage
  | noMarker
  | tooLarge (estimate limit : Nat)
  | encoding (fault : Base64.Fault)
  deriving DecidableEq, Repr

/-- The text after the first place where a word stands. -/
def after? (word : List Char) : List Char → Option (List Char)
  | [] => none
  | c :: rest =>
    if word.isPrefixOf (c :: rest) then some ((c :: rest).drop word.length) else after? word rest

/-- The encoded part of a data URL, or the whole of a text that is none. -/
def payload (text : List Char) : Except Fault (List Char) :=
  if scheme.isPrefixOf text then
    let rest := text.drop scheme.length
    if mediaType.isPrefixOf rest then
      match after? marker rest with
      | some payload => .ok payload
      | none => .error .noMarker
    else .error .notImage
  else .ok text

/-- How many bytes an encoding of a given length stands for at most. -/
def estimate (length : Nat) : Nat := (length + 3) / 4 * 3

/-- The bytes of a data URL or of plain base64 text. Blanks around it do not count, and the
limit is applied to the estimate before anything is decoded. -/
def read (limit : Nat) (text : String) : Except Fault Bytes := do
  let encoded := Bytes.ofText (String.ofList (← payload (trimBlanks text.toList)))
  let expected := estimate encoded.length
  if limit < expected then .error (.tooLarge expected limit)
  else (Base64.decode encoded).mapError .encoding

end ImagePlacement.DataUrl
