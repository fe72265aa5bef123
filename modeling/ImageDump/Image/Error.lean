import ImageDump.Text.Hexadecimal

/-!
# Why bytes are no image

A string of bytes is refused as an image for one of three reasons: a record it
should hold is not there, a header holds a value that is not allowed, or the
section table is inconsistent. Each cause is a value; `ImageError.message` is
the only place that puts one into words.
-/

namespace ImageDump

/-- The records that are read from an image. -/
inductive RecordKind where
  | word16
  | word32
  | coffHeader
  | standardFields
  | windowsFields32
  | windowsFields64
  | dataDirectory
  | sectionHeader
deriving DecidableEq, Repr

/-- How messages call a record. -/
def RecordKind.label : RecordKind → String
  | word16 => "u16"
  | word32 => "u32"
  | coffHeader => "dumpe::types::CoffHeader"
  | standardFields => "dumpe::types::StandardHeader"
  | windowsFields32 => "dumpe::types::WindowsHeader<u32>"
  | windowsFields64 => "dumpe::types::WindowsHeader<u64>"
  | dataDirectory => "dumpe::types::ImageDataDirectory"
  | sectionHeader => "dumpe::types::SectionHeader"

/-- A record that cannot be read. -/
inductive ReadError where
  /-- The record starts inside the string, or at its end, but does not fit. -/
  | truncated (record : RecordKind)
  /-- The record starts beyond the end of the string. -/
  | outside (record : RecordKind) (offset length : Nat)
deriving DecidableEq, Repr

def ReadError.message : ReadError → String
  | truncated record => record.label
  | outside record offset length =>
    s!"{record.label} at {hex offset} is outside {hex length} bytes"

/-- A header with a value that no image has. -/
inductive HeaderFault where
  | unknownMagic (magic : UInt16)
  | badSignature (signature : UInt32)
  | optionalHeaderTooSmall
  /-- The magic and the size of the optional header do not name a format. -/
  | badOptionalHeader
  | badFileAlignment (alignment : UInt32)
deriving DecidableEq, Repr

def HeaderFault.message : HeaderFault → String
  | unknownMagic magic => s!"unknown exe header {hex magic.toNat}"
  | badSignature signature => s!"invalid pe signature {hex signature.toNat}"
  | optionalHeaderTooSmall => "optional header too small"
  | badOptionalHeader => "invalid optional header"
  | badFileAlignment alignment => s!"invalid file alignment {hex alignment.toNat}"

/-- A section whose raw data is misplaced. -/
inductive SectionFault where
  /-- The raw data starts before the end of an earlier section's. -/
  | outOfOrder (name : String) (pointer : Nat)
  /-- The raw data ends beyond the end of the image. -/
  | outside (name : String) (rawEnd length : Nat)
deriving DecidableEq, Repr

def SectionFault.message : SectionFault → String
  | outOfOrder name pointer => s!"{name} at {hex pointer} is out of file order"
  | outside name rawEnd length =>
    s!"{name} points outside image: {hex rawEnd} > {hex length}"

/-- Why a string of bytes is no image. -/
inductive ImageError where
  | invalidBytes (cause : ReadError)
  | invalidHeader (fault : HeaderFault)
  | invalidSection (fault : SectionFault)
deriving DecidableEq, Repr

def ImageError.message : ImageError → String
  | invalidBytes cause => s!"invalid bytes: {cause.message}"
  | invalidHeader fault => s!"invalid header: {fault.message}"
  | invalidSection fault => s!"invalid section: {fault.message}"

end ImageDump
