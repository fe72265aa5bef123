import ImageDump.Bytes
import ImageDump.Memory.Region

/-!
# Memory images

What a dump has to know of the running program: where its image is loaded,
which regions hold data worth keeping, and what those regions hold now. How
that is found out is left open; `Snapshot` is one way.
-/

namespace ImageDump

/-- The regions whose live contents are stored in a dumped image. -/
inductive RegionKind where
  /-- Initialized data. -/
  | data
  /-- Uninitialized data. -/
  | bss
  /-- Uninitialized static data, which some linkers place apart. -/
  | staticBss
deriving DecidableEq, Repr

/-- How messages call a region. -/
def RegionKind.label : RegionKind → String
  | data => "initialized data"
  | bss => "uninitialized data"
  | staticBss => "uninitialized static data"

/-- The memory of a running program, as far as a dump needs it. -/
structure MemoryImage where
  /-- Address the image is loaded at. -/
  imageBase : UInt64
  /-- Boundaries of each region. An empty region is not dumped. -/
  region : RegionKind → Region
  /-- Live bytes of a region, if they are available. -/
  read : Region → Option Bytes

/-- A memory image that answers every request it grants with as many bytes as
were asked for. -/
def MemoryImage.Exact (memory : MemoryImage) : Prop :=
  ∀ region bytes, memory.read region = some bytes → bytes.length = region.size.toNat

end ImageDump
