import ImagePlacement.Bytes

namespace ImagePlacement.Crc32

/-- The generator polynomial, lowest coefficient in the highest bit. -/
def polynomial : UInt32 := 0xEDB88320

/-- One bit of polynomial division. -/
def divide (remainder : UInt32) : UInt32 :=
  if remainder &&& 1 = 1 then (remainder >>> 1) ^^^ polynomial else remainder >>> 1

/-- The remainder after one more byte. -/
def update (remainder : UInt32) (b : UInt8) : UInt32 :=
  let mixed := remainder ^^^ b.toUInt32
  divide (divide (divide (divide (divide (divide (divide (divide mixed)))))))

/-- The CRC-32 of a byte string. -/
def ofBytes (bs : Bytes) : UInt32 := bs.foldl update 0xFFFFFFFF ^^^ 0xFFFFFFFF

end ImagePlacement.Crc32
