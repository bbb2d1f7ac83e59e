namespace ImagePlacement

/-- The encodings that are told apart; `unknown` stands for everything else. -/
inductive Format where
  | png
  | jpeg
  | svg
  | unknown
  deriving DecidableEq, Repr

namespace Format

/-- The name used in messages and reports. -/
def name : Format → String
  | png => "png"
  | jpeg => "jpeg"
  | svg => "svg"
  | unknown => "unknown"

/-- The capitalised name used where a value is shown as a term. -/
def label : Format → String
  | png => "Png"
  | jpeg => "Jpeg"
  | svg => "Svg"
  | unknown => "Unknown"

/-- The format of a given name; any other text names no known format. -/
def ofName (text : String) : Format :=
  if text = "png" then png
  else if text = "jpeg" then jpeg
  else if text = "svg" then svg
  else unknown

/-- Formats made of pixels. -/
def isRaster : Format → Bool
  | png | jpeg => true
  | svg | unknown => false

/-- The format that a file name extension suggests, in any ASCII case. -/
def ofExtension (extension : String) : Format :=
  match extension.toLower with
  | "png" => png
  | "jpg" | "jpeg" | "jpe" | "jfif" => jpeg
  | "svg" => svg
  | _ => unknown

end Format

end ImagePlacement
