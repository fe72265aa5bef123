import ImageDump.Bytes

/-!
# The checksum of an image

The checksum adds up the image as little-endian 16-bit words, adding each carry
out of the low 16 bits back in, and then adds the length of the image. The
checksum field of the image has to be zero meanwhile.
-/

namespace ImageDump.Checksum

/-- Add the carry out of the low 16 bits back to them. -/
def fold (sum : UInt32) : UInt32 := (sum &&& (0xffff : UInt32)) + (sum >>> 16)

/-- Add the little-endian 16-bit words of a string to a sum, folding after each
one. A last odd byte counts as a low byte. -/
def addWords : UInt32 → Bytes → UInt32
  | sum, [] => sum
  | sum, [low] => fold (sum + low.toUInt32)
  | sum, low :: high :: rest =>
    addWords (fold (sum + (low.toUInt32 + (high.toUInt32 <<< 8)))) rest

/-- The checksum of an image whose checksum field is zero. -/
def ofImage (data : Bytes) : UInt32 :=
  fold (addWords 0 data) + UInt32.ofNat data.length

end ImageDump.Checksum
