import ImagePlacement.Jpeg.Decoder
import ImagePlacement.Png.Decoder
import ImagePlacement.Svg.Decoder

namespace ImagePlacement

/-- Turns bytes into an image. A decoder may also be abandoned half-way. -/
abbrev Decoder := Bytes → Outcome DecodeError Image

/-- Decoders by format, in the order in which the formats first got one. -/
structure Registry where
  table : List (Format × Decoder)

namespace Registry

def empty : Registry := ⟨[]⟩

/-- The decoders that come with the library. -/
def builtin : Registry :=
  ⟨[(.png, Outcome.ofExcept ∘ Png.decode), (.jpeg, Outcome.ofExcept ∘ Jpeg.decode),
    (.svg, Outcome.ofExcept ∘ Svg.decode)]⟩

/-- The table with the decoder of a format replaced, or added at the end. -/
def replace (format : Format) (decoder : Decoder) : List (Format × Decoder) →
    List (Format × Decoder)
  | [] => [(format, decoder)]
  | entry :: rest =>
    if entry.1 = format then (format, decoder) :: rest else entry :: replace format decoder rest

/-- Gives a format a decoder, which replaces the one it had. -/
def register (r : Registry) (format : Format) (decoder : Decoder) : Registry :=
  ⟨replace format decoder r.table⟩

/-- The decoder that is used for a format. Bytes of unknown format are never decoded. -/
def decoder? (r : Registry) (format : Format) : Option Decoder :=
  if format = .unknown then none else r.table.lookup format

def supports (r : Registry) (format : Format) : Bool := (r.decoder? format).isSome

/-- Decodes bytes of a given format. -/
def decode (r : Registry) (format : Format) : Decoder := fun content =>
  match r.decoder? format with
  | some decoder => decoder content
  | none => .failed .unsupported

/-- The formats of the table, shown as a term. -/
def asTerm (r : Registry) : String :=
  "[" ++ ", ".intercalate (r.table.map fun entry => entry.1.label) ++ "]"

end Registry

end ImagePlacement
