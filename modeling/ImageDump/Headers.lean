import ImageDump.Header.Coff
import ImageDump.Header.Optional
import ImageDump.Section.Table

/-!
# The headers of an image

`Headers` holds every header that a dump changes, together with the file
offsets they were read from. Detached from the image they can be changed and
then stored again at the same offsets; `Headers.pieces` lists what is stored
where.
-/

namespace ImageDump

/-- File offsets of the headers. -/
structure HeaderOffsets where
  coff : Nat
  standard : Nat
  windows : Nat
  /-- Offset of the first data directory. -/
  directories : Nat
  sections : Nat
  /-- End of the section table. -/
  sectionsEnd : Nat
deriving DecidableEq, Repr

/-- The headers of an image and where they are stored. -/
structure Headers where
  coff : CoffHeader
  standard : StandardFields
  windows : WindowsHeader
  sections : SectionTable
  offsets : HeaderOffsets
deriving DecidableEq, Repr

namespace Headers

def fileAlignment (headers : Headers) : UInt32 := headers.windows.fileAlignment

/-- The encoded section headers with their file offsets. -/
def sectionPieces (headers : Headers) : List (Nat × Bytes) :=
  headers.sections.mapIdx fun index header =>
    (headers.offsets.sections + SectionHeader.codec.size * index,
      SectionHeader.codec.encode header)

/-- The encoded headers with their file offsets, in the order they are
stored. -/
def pieces (headers : Headers) : List (Nat × Bytes) :=
  (headers.offsets.coff, CoffHeader.codec.encode headers.coff) ::
    (headers.offsets.standard, StandardFields.codec.encode headers.standard) ::
    (headers.offsets.windows, headers.windows.encode) :: headers.sectionPieces

/-- The headers with one section header changed. -/
def modifySection (headers : Headers) (index : Nat)
    (change : SectionHeader → SectionHeader) : Headers :=
  { headers with sections := headers.sections.modify index change }

end Headers
end ImageDump
