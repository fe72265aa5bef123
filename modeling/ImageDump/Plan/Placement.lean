import ImageDump.Alignment
import ImageDump.Dump.Error
import ImageDump.Image

/-!
# Placing a region in a section

A region of live memory is stored in the one section of the image that holds
both its first and its last address. Initialized data has to lie in the raw
data that the section already has. Uninitialized data makes the raw data grow
to the aligned end of the region, unless it already reaches that far.
-/

namespace ImageDump

/-- A region resolved to the section that contains it. -/
structure Placement where
  kind : RegionKind
  region : Region
  /-- Index of the section in the section table. -/
  owner : Nat
  /-- Distance of the region from the start of the section. -/
  offset : Nat
  /-- Number of bytes by which the raw data of the section grows. -/
  growth : Nat
deriving DecidableEq, Repr

namespace Placement

/-- The raw data of the section is resized to hold the region. -/
def isGrowing (placement : Placement) : Bool :=
  match placement.kind with
  | .data => false
  | .bss | .staticBss => true

/-- How much a section grows so that its raw data reaches up to `stop`, counted
from the start of the section. Initialized data never makes it grow and has to
end inside the raw data: otherwise there is no answer. -/
def growth? (kind : RegionKind) (header : SectionHeader) (stop fileAlignment : Nat) :
    Option Nat :=
  match kind with
  | .data => if stop ≤ header.rawSize.toNat then some 0 else none
  | .bss | .staticBss =>
    some (alignUp stop fileAlignment - alignUp header.rawSize.toNat fileAlignment)

/-- Place a non-empty region of an image loaded at `base`. -/
def locate (image : Image) (base : UInt64) (kind : RegionKind) (region : Region) :
    Except DumpError Placement := do
  let outside := DumpError.regionOutsideImage kind region
  let stop ← found region.stop? outside
  require (base ≤ region.start) outside
  let first := region.start.toNat - base.toNat
  let last := stop - base.toNat - 1
  let owner ← found (image.sections.findContaining? first) outside
  let lastOwner ← found (image.sections.findContaining? last) outside
  require (owner = lastOwner) (.regionSpansSections kind region)
  let header ← found image.sections[owner]? outside
  let offset := first - header.virtualAddress.toNat
  let stopOffset := last + 1 - header.virtualAddress.toNat
  let growth ← found (growth? kind header stopOffset image.fileAlignment.toNat)
    (.regionExceedsSection kind region header.name.display)
  return { kind, region, owner, offset, growth }

/-- Place a region of an image loaded at `base`. An empty region has no
place. -/
def place? (image : Image) (base : UInt64) (kind : RegionKind) (region : Region) :
    Except DumpError (Option Placement) :=
  if region.isEmpty then .ok none else some <$> locate image base kind region

end Placement
end ImageDump
