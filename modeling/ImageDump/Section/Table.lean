import ImageDump.Header.Directory
import ImageDump.Section.Header

/-!
# Section tables

A section table lists the sections in file order. Names, addresses and
directories are looked up by the first section that fits. The raw data of an
image ends with that of the last section that has any.
-/

namespace ImageDump

/-- The headers of all sections, in table order. -/
abbrev SectionTable := List SectionHeader

namespace SectionTable

/-- Index of the first section with this name. -/
def findNamed? (table : SectionTable) (name : String) : Option Nat :=
  table.findIdx? (·.name.holds name)

/-- Index of the first section that contains the relative virtual address. -/
def findContaining? (table : SectionTable) (rva : Nat) : Option Nat :=
  table.findIdx? (·.contains rva)

/-- Index of the section that contains the table a directory names. A directory
with virtual address zero is absent. -/
def findDirectory? (table : SectionTable) (directory : DataDirectory) : Option Nat :=
  if directory.virtualAddress = 0 then none
  else findContaining? table directory.virtualAddress.toNat

/-- End of the raw data of the last section that has raw data, zero if none
has. -/
def lastRawEnd (table : SectionTable) : Nat :=
  match table.reverse.find? (·.hasRawData) with
  | some header => header.rawEnd
  | none => 0

end SectionTable
end ImageDump
