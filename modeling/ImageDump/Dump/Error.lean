import ImageDump.File.Error
import ImageDump.Image.Error
import ImageDump.Memory.Image

/-!
# Why a dump fails

Everything except a failing write, an unreadable file and unavailable memory is
found out before any output exists. Each cause carries the values its message
names; `DumpError.message` puts it into words, and `DumpError.cause?` gives the
text of the deeper failure that it wraps, if there is one.
-/

namespace ImageDump

/-- Why an image cannot be dumped. -/
inductive DumpError where
  /-- The source is no image. -/
  | invalidImage (file : String) (cause : ImageError)
  /-- A region is not, or not wholly, inside a section. -/
  | regionOutsideImage (kind : RegionKind) (region : Region)
  /-- A region starts and ends in different sections. -/
  | regionSpansSections (kind : RegionKind) (region : Region)
  /-- A region of initialized data goes beyond the raw data of its section. -/
  | regionExceedsSection (kind : RegionKind) (region : Region) (sectionName : String)
  /-- The two regions of uninitialized data overlap and start in different
  sections, given by their indices. -/
  | bssSectionsDiffer (bssOwner staticBssOwner : Nat)
  /-- The reported data region is not in the section named for it. -/
  | sectionMismatch (sectionName : String) (region : Region)
  /-- The memory image does not have the bytes of a region. -/
  | memoryUnavailable (region : Region)
  /-- A write does not fit into the output. -/
  | outputOverflow (offset size length : Nat)
  /-- A range of the source goes beyond its end. -/
  | sourceOverflow (offset size length : Nat)
  /-- A position is rounded up to multiples of zero. -/
  | zeroAlignment
  /-- A file cannot be read or written. -/
  | fileFailure (path : String) (cause : FileError)
deriving DecidableEq, Repr

namespace DumpError

def message : DumpError → String
  | invalidImage file cause => s!"invalid image {file}: {cause.message}"
  | regionOutsideImage kind region =>
    s!"{kind.label} region at {hex region.start.toNat} ({hex region.size.toNat} bytes) " ++
      "is outside the image"
  | regionSpansSections kind _ => s!"{kind.label} region is not in a single section"
  | regionExceedsSection kind _ sectionName =>
    s!"{kind.label} region exceeds the raw data of section {sectionName}"
  | bssSectionsDiffer _ _ => "overlapping bss regions are not in a single section"
  | sectionMismatch sectionName _ =>
    s!"data section {sectionName} does not contain the data region"
  | memoryUnavailable region =>
    s!"memory at {hex region.start.toNat} ({hex region.size.toNat} bytes) is not available"
  | outputOverflow offset size length =>
    s!"writing {hex size} bytes at {hex offset} exceeds output size {hex length}"
  | sourceOverflow offset size length =>
    s!"reading {hex size} bytes at {hex offset} exceeds source size {hex length}"
  | zeroAlignment => "the alignment is zero"
  | fileFailure path cause => s!"io error on {path}: {cause.message}"

/-- The text of the failure that an error wraps. -/
def cause? : DumpError → Option String
  | invalidImage _ cause => some cause.message
  | fileFailure _ cause => some cause.message
  | _ => none

end DumpError
end ImageDump
