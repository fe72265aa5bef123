import ImageDump.Bytes.Codec

/-!
# The COFF header

The twenty bytes after the image signature: the machine, how many sections
there are, where the symbol table is, and how long the optional header is.
-/

namespace ImageDump

/-- The COFF file header of an image. -/
structure CoffHeader where
  machine : UInt16
  sectionCount : UInt16
  timestamp : UInt32
  /-- File offset of the symbol table, zero if there is none. -/
  symbolTablePointer : UInt32
  symbolCount : UInt32
  /-- Number of bytes between this header and the section table. -/
  optionalHeaderSize : UInt16
  characteristics : UInt16
deriving DecidableEq, Repr

/-- The fields in file order, without padding. -/
def CoffHeader.codec : Codec CoffHeader :=
  (Codec.u16.pair <| Codec.u16.pair <| Codec.u32.pair <| Codec.u32.pair <|
    Codec.u32.pair <| Codec.u16.pair Codec.u16).iso
    (fun (machine, sectionCount, timestamp, symbolTablePointer, symbolCount,
        optionalHeaderSize, characteristics) =>
      { machine, sectionCount, timestamp, symbolTablePointer, symbolCount,
        optionalHeaderSize, characteristics })
    (fun header =>
      (header.machine, header.sectionCount, header.timestamp, header.symbolTablePointer,
        header.symbolCount, header.optionalHeaderSize, header.characteristics))
    (fun _ => rfl) (fun _ => rfl)

theorem CoffHeader.size_codec : CoffHeader.codec.size = 20 := rfl

end ImageDump
