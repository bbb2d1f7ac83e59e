import ImagePlacement.Failure

namespace ImagePlacement

/-- A range of bytes in a document. -/
structure Span where
  start : Nat
  stop : Nat
  deriving DecidableEq, Repr

/-- The place in a document that refers to an image. -/
structure Origin where
  file : String
  span : Span
  deriving DecidableEq, Repr

/-- A failure as reported to the author of a document. -/
structure Diagnostic where
  /-- The document, if the place of the reference is known. -/
  file : Option String
  span : Option Span
  /-- The image, or the identity of an inline one. -/
  path : String
  error : LoadError

namespace Span

def text (s : Span) : String := toString s.start ++ ".." ++ toString s.stop

end Span

def Origin.text (o : Origin) : String := o.file ++ ":" ++ o.span.text

namespace Diagnostic

/-- The diagnostic of a failure at a place. -/
def of (error : LoadError) (path : String) (origin : Option Origin) : Diagnostic :=
  ⟨origin.map (·.file), origin.map (·.span), path, error⟩

def kind (d : Diagnostic) : FailureKind := d.error.kind

def message (d : Diagnostic) : String := d.error.message

/-- The message after the place, as far as it is known. -/
def text (d : Diagnostic) : String :=
  match d.file, d.span with
  | some file, some span => file ++ ":" ++ span.text ++ ": " ++ d.message
  | some file, none => file ++ ": " ++ d.message
  | none, _ => d.message

end Diagnostic

end ImagePlacement
