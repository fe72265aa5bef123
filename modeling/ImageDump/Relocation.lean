import ImageDump.Section.Table

/-!
# Relocating file offsets

When sections grow, the same byte has another file offset in the destination
than in the source. An offset into the raw data of a section moves with that
section, an offset in a gap moves with the section after the gap, and an offset
behind all raw data moves with its end. Offset zero marks an unused field and
stays. Offsets are 64-bit words, and the arithmetic wraps around.
-/

namespace ImageDump

/-- Map a file offset of the source to the offset of the same byte in the
destination. The two tables list the same sections in the same order. -/
def relocate (source destination : SectionTable) (offset : UInt64) : UInt64 :=
  if offset = 0 then 0
  else
    match (source.zip destination).find? fun (header, _) => offset.toNat < header.rawEnd with
    | some (before, after) => offset + after.rawPointer.toUInt64 - before.rawPointer.toUInt64
    | none =>
      offset + UInt64.ofNat destination.lastRawEnd - UInt64.ofNat source.lastRawEnd

/-- Relocate a header field of 32 bits. -/
def relocateField (source destination : SectionTable) (field : UInt32) : UInt32 :=
  (relocate source destination field.toUInt64).toUInt32

end ImageDump
