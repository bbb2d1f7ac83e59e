namespace ImagePlacement

/-- A JSON value, as far as settings need it. Numbers are kept only if they are written as
natural numbers, and strings only if their escapes make up a text. -/
inductive Json where
  | null
  | bool (value : Bool)
  | number (natural : Option Nat)
  | string (text : Option String)
  | array (items : List Json)
  | object (members : List (Option String × Json))

end ImagePlacement
