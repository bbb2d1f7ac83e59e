namespace ImagePlacement

/-- An arithmetic in which lengths are computed. Sizes are written once over any such
arithmetic: the program computes them in binary64, whose roundings depend on the order
of the operations, and exact numbers are another instance. -/
class Arithmetic (α : Type) extends Sub α, Mul α, Div α where
  zero : α
  one : α
  /-- Larger than every length. -/
  unlimited : α
  /-- The relative difference below which two scales count as one. -/
  tolerance : α
  abs : α → α
  isNumber : α → Bool
  isFinite : α → Bool
  less : α → α → Bool
  atMost : α → α → Bool

namespace Arithmetic

variable {α : Type} [Arithmetic α]

/-- The smaller of two lengths; a value that is no number gives way to the other. -/
def least (a b : α) : α :=
  if isNumber a then (if less b a then b else a) else b

/-- The larger of two lengths; a value that is no number gives way to the other. -/
def greatest (a b : α) : α :=
  if isNumber a then (if less a b then b else a) else b

end Arithmetic

/-- Binary64 lengths; two scales count as one when they differ by one part in `2 ^ 52`. -/
instance : Arithmetic Float where
  zero := 0.0
  one := 1.0
  unlimited := 1.0 / 0.0
  tolerance := Float.ofBits 0x3CB0000000000000
  abs := Float.abs
  isNumber x := !x.isNaN
  isFinite := Float.isFinite
  less a b := a < b
  atMost a b := a ≤ b

end ImagePlacement
