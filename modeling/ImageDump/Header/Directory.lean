import ImageDump.Bytes.Codec

/-!
# Data directories

Up to sixteen data directories follow the optional header, each naming a table
by its virtual address and size. Which table a directory names is decided by
its place in the list. The debug directory is itself a table of entries, each
pointing at debug data by file offset.
-/

namespace ImageDump

/-- What a data directory names, in file order. -/
inductive DirectoryKind where
  | exportTable
  | importTable
  | resourceTable
  | exceptionTable
  | certificateTable
  | baseRelocationTable
  | debug
  | architecture
  | globalPointer
  | threadLocalStorage
  | loadConfiguration
  | boundImport
  | importAddressTable
  | delayImport
  | runtimeHeader
  | reserved
deriving DecidableEq, Repr

/-- The place of a directory in the list. -/
def DirectoryKind.index : DirectoryKind → Nat := DirectoryKind.ctorIdx

/-- Number of directories with a meaning; an image may announce more. -/
def DirectoryKind.count : Nat := 16

/-- Where a table lies in the loaded image. -/
structure DataDirectory where
  /-- Virtual address relative to the load address, zero if there is no such
  table. -/
  virtualAddress : UInt32
  size : UInt32
deriving DecidableEq, Repr

def DataDirectory.codec : Codec DataDirectory :=
  (Codec.u32.pair Codec.u32).iso (fun (virtualAddress, size) => { virtualAddress, size })
    (fun directory => (directory.virtualAddress, directory.size)) (fun _ => rfl)
    (fun _ => rfl)

theorem DataDirectory.size_codec : DataDirectory.codec.size = 8 := rfl

/-- An entry of the debug directory. -/
structure DebugEntry where
  characteristics : UInt32
  timestamp : UInt32
  majorVersion : UInt16
  minorVersion : UInt16
  kind : UInt32
  dataSize : UInt32
  dataAddress : UInt32
  /-- File offset of the debug data. -/
  dataPointer : UInt32
deriving DecidableEq, Repr

/-- The fields in file order, without padding. -/
def DebugEntry.codec : Codec DebugEntry :=
  (Codec.u32.pair <| Codec.u32.pair <| Codec.u16.pair <| Codec.u16.pair <|
    Codec.u32.pair <| Codec.u32.pair <| Codec.u32.pair Codec.u32).iso
    (fun (characteristics, timestamp, majorVersion, minorVersion, kind, dataSize,
        dataAddress, dataPointer) =>
      { characteristics, timestamp, majorVersion, minorVersion, kind, dataSize,
        dataAddress, dataPointer })
    (fun entry =>
      (entry.characteristics, entry.timestamp, entry.majorVersion, entry.minorVersion,
        entry.kind, entry.dataSize, entry.dataAddress, entry.dataPointer))
    (fun _ => rfl) (fun _ => rfl)

theorem DebugEntry.size_codec : DebugEntry.codec.size = 28 := rfl

end ImageDump
