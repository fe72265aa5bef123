import ImageDump.Plan.Placement

/-!
# The plan of a dump

Before anything is written, every region of the memory image is placed in a
section of the source, and the size of the output is worked out from how much
those sections grow. `Plan.analyze` does so and finds every reason why the
memory image does not fit the source.

The initialized data is taken from the section named for it, if the image has
one; the region that the memory image reports then only has to lie in that
section. Two regions of uninitialized data that overlap are stored as one.
-/

namespace ImageDump

/-- How a dump is made. -/
structure DumpOptions where
  /-- Section that holds the initialized data, if the program has one. -/
  dataSection : Option String := some "DUMPDATA"
  /-- Store the checksum of the output in its headers; otherwise it is left
  zero. -/
  checksum : Bool := true
deriving DecidableEq, Repr

/-- Where each region of a memory image goes. -/
structure Plan where
  fileAlignment : UInt32
  /-- Address the image is loaded at. -/
  imageBase : UInt64
  data : Option Placement
  bss : Option Placement
  /-- Absent if the region is empty or stored as part of `bss`. -/
  staticBss : Option Placement
  /-- Size of the source and of all growth. -/
  outputSize : Nat
deriving DecidableEq, Repr

namespace Plan

/-- All placements in the order in which they are stored. -/
def placements (plan : Plan) : List Placement :=
  plan.data.toList ++ plan.bss.toList ++ plan.staticBss.toList

/-- The placements in one section, in the order in which they are stored. -/
def placementsIn (plan : Plan) (index : Nat) : List Placement :=
  plan.placements.filter (·.owner == index)

/-! ## The region of initialized data -/

/-- The part of a section that is backed by raw data, in an image loaded at
`base`. -/
def backedRegion (base : UInt64) (header : SectionHeader) : Region where
  start := base + header.virtualAddress.toUInt64
  size := (min header.virtualSize header.rawSize).toUInt64

/-- The section that the options name for the initialized data, with its
name. -/
def namedSection? (image : Image) (options : DumpOptions) :
    Option (String × Nat × SectionHeader) := do
  let name ← options.dataSection
  let index ← image.sections.findNamed? name
  let header ← image.sections[index]?
  return (name, index, header)

/-- The region of initialized data to store: the backed part of the section
named for it, or the reported region if there is no such section. A reported
region that is not empty has to lie in the named section. -/
def dataRegion (image : Image) (memory : MemoryImage) (options : DumpOptions) :
    Except DumpError Region := do
  let base := memory.imageBase
  let reported := memory.region .data
  match namedSection? image options with
  | none => return reported
  | some (name, index, header) =>
    let placement ← Placement.place? image base .data reported
    require (∀ inside ∈ placement, inside.owner = index) (.sectionMismatch name reported)
    return backedRegion base header

/-! ## The regions of uninitialized data -/

/-- The placement of two overlapping regions of one section as one region. -/
def merge (bss staticBss : Placement) : Placement :=
  { bss with
    region := bss.region.union staticBss.region
    offset := min bss.offset staticBss.offset
    growth := max bss.growth staticBss.growth }

/-- Make one region of the two regions of uninitialized data if they overlap.
They then have to lie in the same section. -/
def mergeOverlap (bss staticBss : Option Placement) :
    Except DumpError (Option Placement × Option Placement) :=
  match bss, staticBss with
  | some first, some second =>
    if first.region.overlaps second.region then
      if first.owner = second.owner then .ok (some (merge first second), none)
      else .error (.bssSectionsDiffer first.owner second.owner)
    else .ok (bss, staticBss)
  | _, _ => .ok (bss, staticBss)

/-- Growth of all sections. Two regions of one section make it grow to the end
of the later one. -/
def totalGrowth (bss staticBss : Option Placement) : Nat :=
  match bss, staticBss with
  | some first, some second =>
    if first.owner = second.owner then max first.growth second.growth
    else first.growth + second.growth
  | some only, none | none, some only => only.growth
  | none, none => 0

/-! ## The whole plan -/

/-- Plan the dump of a memory image into a copy of the source image. -/
def analyze (image : Image) (memory : MemoryImage) (options : DumpOptions) :
    Except DumpError Plan := do
  let base := memory.imageBase
  let data ← Placement.place? image base .data (← dataRegion image memory options)
  let bss ← Placement.place? image base .bss (memory.region .bss)
  let staticBss ← Placement.place? image base .staticBss (memory.region .staticBss)
  let (bss, staticBss) ← mergeOverlap bss staticBss
  return {
    fileAlignment := image.fileAlignment
    imageBase := base
    data, bss, staticBss
    outputSize := image.data.length + totalGrowth bss staticBss }

end Plan
end ImageDump
