import ImagePlacement.Bytes
import ImagePlacement.Text.Quoted

namespace ImagePlacement

/-- Where the bytes of an image come from: a file, or the document itself. An inline image
has a path too, which serves as its identity. -/
structure Source where
  path : String
  content : Option Bytes

namespace Source

def file (path : String) : Source := ⟨path, none⟩

def embedded (identity : String) (content : Bytes) : Source := ⟨identity, some content⟩

def isInline (s : Source) : Bool := s.content.isSome

/-- The source shown as a term; inline bytes are shown by their number. -/
def asTerm (s : Source) : String :=
  let length := match s.content with
    | some content => "Some(" ++ toString content.length ++ ")"
    | none => "None"
  "SourceReference \x7b path: " ++ Quoted.encode s.path ++ ", inline_len: " ++ length ++ " \x7d"

end Source

end ImagePlacement
