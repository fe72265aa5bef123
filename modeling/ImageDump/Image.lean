import ImageDump.Checked
import ImageDump.Headers
import ImageDump.Image.Error

/-!
# Portable executable images

An image is a string of bytes together with the headers and data directories
read from it. `Image.parse` reads them front to back, the position of each
record depending on the records before it, and refuses an image whose headers
do not name a known format or whose section table is out of file order. Every
image it returns can be indexed by its own section table.
-/

namespace ImageDump

/-- A parsed image. -/
structure Image extends Headers where
  data : Bytes
  /-- The data directories that are present, in file order. -/
  directories : List DataDirectory
deriving DecidableEq, Repr

namespace Image

/-- The data directory of a kind, if the image has that many directories. -/
def directory? (image : Image) (kind : DirectoryKind) : Option DataDirectory :=
  image.directories[kind.index]?

/-- Two images say the same: their headers, data directories and section tables
agree. Neither the offsets of the headers nor the other bytes matter. -/
def agrees (a b : Image) : Bool :=
  a.coff == b.coff && a.standard == b.standard && a.windows == b.windows &&
    a.directories == b.directories && a.sections == b.sections

/-! ## Reading records -/

/-- Read the record at an offset. -/
def readRecord {α : Type} (kind : RecordKind) (codec : Codec α) (data : Bytes)
    (offset : Nat) : Except ImageError α :=
  found (codec.read? data offset) <| .invalidBytes <|
    if data.length < offset then .outside kind offset data.length else .truncated kind

/-- Read `count` records that follow each other from an offset on. -/
def readTable {α : Type} (kind : RecordKind) (codec : Codec α) (data : Bytes)
    (offset count : Nat) : Except ImageError (List α) :=
  (List.range count).mapM fun index => readRecord kind codec data (offset + codec.size * index)

/-! ## The headers -/

/-- What every executable file starts with. -/
def executableMagic : UInt16 := 0x5a4d

/-- Where the offset of the image signature is stored. -/
def signaturePointerOffset : Nat := 0x3c

/-- The signature of a portable executable image. -/
def signature : UInt32 := 0x4550

def signatureSize : Nat := 4

/-- Find the image signature. The COFF header follows it. -/
def locateCoff (data : Bytes) : Except ImageError Nat := do
  let magic ← readRecord .word16 Codec.u16 data 0
  require (magic = executableMagic) (.invalidHeader (.unknownMagic magic))
  let signatureOffset ← readRecord .word32 Codec.u32 data signaturePointerOffset
  let stored ← readRecord .word32 Codec.u32 data signatureOffset.toNat
  require (stored = signature) (.invalidHeader (.badSignature stored))
  return signatureOffset.toNat + signatureSize

/-- The two formats of an optional header. -/
inductive OptionalFormat where
  | pe32
  | pe32Plus
deriving DecidableEq, Repr

namespace OptionalFormat

/-- The least size of an optional header that can be read at all. -/
def minimumSize : Nat := 24

def magic : OptionalFormat → UInt16
  | pe32 => 0x10b
  | pe32Plus => 0x20b

/-- Where the fields of the loader start, relative to the standard fields. A
PE32 image has one more standard field, the base of the data. -/
def windowsOffset : OptionalFormat → Nat
  | pe32 => 28
  | pe32Plus => 24

/-- Where the data directories start, relative to the standard fields. -/
def directoriesOffset : OptionalFormat → Nat
  | pe32 => 96
  | pe32Plus => 112

/-- The format that the magic names, provided the optional header is large
enough for its fixed part. -/
def find? (magic : UInt16) (optionalHeaderSize : Nat) : Option OptionalFormat :=
  [pe32, pe32Plus].find? fun format =>
    magic == format.magic && format.directoriesOffset ≤ optionalHeaderSize

/-- Read the fields of the loader in the width of the format. -/
def readWindows (format : OptionalFormat) (data : Bytes) (offset : Nat) :
    Except ImageError WindowsHeader :=
  match format with
  | pe32 =>
    .pe32 <$> readRecord .windowsFields32 (WindowsFields.codec Codec.u32) data offset
  | pe32Plus =>
    .pe32Plus <$> readRecord .windowsFields64 (WindowsFields.codec Codec.u64) data offset

end OptionalFormat

/-- The alignment is a power of two. -/
def isPowerOfTwo (alignment : UInt32) : Bool :=
  1 <<< alignment.toNat.log2 == alignment.toNat

/-! ## The section table -/

/-- Check that the raw data of the sections that have any follows the table's
order and ends inside `length` bytes. `previousEnd` is the end of the raw data
seen so far. -/
def checkFileOrder (length : Nat) : Nat → SectionTable → Except ImageError Unit
  | _, [] => .ok ()
  | previousEnd, header :: rest =>
    if !header.hasRawData then checkFileOrder length previousEnd rest
    else if header.rawPointer.toNat < previousEnd then
      .error (.invalidSection (.outOfOrder header.name.display header.rawPointer.toNat))
    else if length < header.rawEnd then
      .error (.invalidSection (.outside header.name.display header.rawEnd length))
    else checkFileOrder length header.rawEnd rest

/-! ## Parsing -/

/-- Read everything before the check of the section table: the headers, the data
directories and the section headers, each where the records before it say. -/
def readHeaders (data : Bytes) : Except ImageError Image := do
  let coffOffset ← locateCoff data
  let coff ← readRecord .coffHeader CoffHeader.codec data coffOffset
  let optionalHeaderSize := coff.optionalHeaderSize.toNat
  require (OptionalFormat.minimumSize ≤ optionalHeaderSize)
    (.invalidHeader .optionalHeaderTooSmall)
  let standardOffset := coffOffset + CoffHeader.codec.size
  let standard ← readRecord .standardFields StandardFields.codec data standardOffset
  let format ← found (OptionalFormat.find? standard.magic optionalHeaderSize)
    (.invalidHeader .badOptionalHeader)
  let windowsOffset := standardOffset + format.windowsOffset
  let windows ← format.readWindows data windowsOffset
  require (isPowerOfTwo windows.fileAlignment)
    (.invalidHeader (.badFileAlignment windows.fileAlignment))
  let directoriesOffset := standardOffset + format.directoriesOffset
  let directories ← readTable .dataDirectory DataDirectory.codec data directoriesOffset
    (min DirectoryKind.count windows.directoryCount.toNat)
  let sectionsOffset := standardOffset + optionalHeaderSize
  let sectionCount := coff.sectionCount.toNat
  let sections ← readTable .sectionHeader SectionHeader.codec data sectionsOffset sectionCount
  return {
    coff, standard, windows, sections, data, directories
    offsets := {
      coff := coffOffset
      standard := standardOffset
      windows := windowsOffset
      directories := directoriesOffset
      sections := sectionsOffset
      sectionsEnd := sectionsOffset + SectionHeader.codec.size * sectionCount } }

/-- Read an image. -/
def parse (data : Bytes) : Except ImageError Image := do
  let image ← readHeaders data
  checkFileOrder data.length 0 image.sections
  return image

end Image
end ImageDump
