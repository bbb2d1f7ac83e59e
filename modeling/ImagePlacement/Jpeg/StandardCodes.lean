import ImagePlacement.Jpeg.Coded

namespace ImagePlacement.Jpeg

namespace PrefixCode

/-- The pairs of a run and a size that end the lists of symbols: from a first size on, up to ten, for
the runs from zero on. -/
private def remaining (firstSizes : List Nat) : List UInt8 :=
  firstSizes.zipIdx.flatMap fun (first, run) =>
    (List.range (11 - first)).map fun n => UInt8.ofNat (16 * run + first + n)

/-- The code for direct coefficients of lightness. -/
def lightnessDirect : PrefixCode :=
  ⟨[0, 1, 5, 1, 1, 1, 1, 1, 1, 0, 0, 0, 0, 0, 0, 0],
    #[0, 1, 2, 3, 4, 5, 6, 7, 8, 9, 10, 11]⟩

/-- The code for direct coefficients of colour. -/
def colourDirect : PrefixCode :=
  ⟨[0, 3, 1, 1, 1, 1, 1, 1, 1, 1, 1, 0, 0, 0, 0, 0],
    #[0, 1, 2, 3, 4, 5, 6, 7, 8, 9, 10, 11]⟩

/-- The code for alternating coefficients of lightness. -/
def lightnessAlternating : PrefixCode :=
  ⟨[0, 2, 1, 3, 3, 2, 4, 3, 5, 5, 4, 4, 0, 0, 1, 125],
    ([0x01, 0x02, 0x03, 0x00, 0x04, 0x11, 0x05, 0x12, 0x21, 0x31, 0x41, 0x06, 0x13, 0x51, 0x61, 0x07,
      0x22, 0x71, 0x14, 0x32, 0x81, 0x91, 0xA1, 0x08, 0x23, 0x42, 0xB1, 0xC1, 0x15, 0x52, 0xD1, 0xF0,
      0x24, 0x33, 0x62, 0x72, 0x82] ++
      remaining [9, 6, 5, 4, 3, 3, 3, 3, 3, 2, 2, 2, 2, 2, 1, 1]).toArray⟩

/-- The code for alternating coefficients of colour. -/
def colourAlternating : PrefixCode :=
  ⟨[0, 2, 1, 2, 4, 4, 3, 4, 7, 5, 4, 4, 0, 1, 2, 119],
    ([0x00, 0x01, 0x02, 0x03, 0x11, 0x04, 0x05, 0x21, 0x31, 0x06, 0x12, 0x41, 0x51, 0x07, 0x61, 0x71,
      0x13, 0x22, 0x32, 0x81, 0x08, 0x14, 0x42, 0x91, 0xA1, 0xB1, 0xC1, 0x09, 0x23, 0x33, 0x52, 0xF0,
      0x15, 0x62, 0x72, 0xD1, 0x0A, 0x16, 0x24, 0x34, 0xE1, 0x25, 0xF1] ++
      remaining [11, 7, 6, 5, 3, 3, 3, 3, 2, 2, 2, 2, 2, 2, 2, 2]).toArray⟩

end PrefixCode

end ImagePlacement.Jpeg
