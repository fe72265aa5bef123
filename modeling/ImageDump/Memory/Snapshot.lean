import ImageDump.Memory.Image

/-!
# Snapshots

A snapshot is a memory image made of captured pieces of memory. Captures are
kept newest first, and a request is answered by the newest capture that holds
all of it. Every answer therefore has the length that was asked for
(`Snapshot.exact_toMemoryImage`).
-/

namespace ImageDump

/-- A captured piece of memory. -/
structure Capture where
  start : UInt64
  bytes : Bytes
deriving DecidableEq, Repr

/-- The bytes of a region that lies wholly inside the capture. -/
def Capture.read? (capture : Capture) (region : Region) : Option Bytes :=
  if capture.start ≤ region.start then
    capture.bytes.slice? (region.start.toNat - capture.start.toNat) region.size.toNat
  else none

/-- Captured memory of a program together with the boundaries of its regions. -/
structure Snapshot where
  imageBase : UInt64
  region : RegionKind → Region := fun _ => Region.empty
  /-- Captured pieces, the newest first. -/
  captures : List Capture := []

namespace Snapshot

/-- Add a piece of memory. It shadows earlier pieces. -/
def capture (snapshot : Snapshot) (start : UInt64) (bytes : Bytes) : Snapshot :=
  { snapshot with captures := { start, bytes } :: snapshot.captures }

/-- Make a captured piece of memory the region of this kind. -/
def setRegion (snapshot : Snapshot) (kind : RegionKind) (start : UInt64) (bytes : Bytes) :
    Snapshot :=
  let region := { start, size := UInt64.ofNat bytes.length }
  { snapshot with region := fun k => if k = kind then region else snapshot.region k }.capture
    start bytes

/-- The bytes of a region, from the newest capture that holds all of it. -/
def read (snapshot : Snapshot) (region : Region) : Option Bytes :=
  snapshot.captures.findSome? (·.read? region)

/-- The memory image that answers from the captures. -/
def toMemoryImage (snapshot : Snapshot) : MemoryImage where
  imageBase := snapshot.imageBase
  region := snapshot.region
  read := snapshot.read

theorem exact_toMemoryImage (snapshot : Snapshot) : snapshot.toMemoryImage.Exact := by
  intro region bytes answered
  obtain ⟨capture, _, found⟩ := List.exists_of_findSome?_eq_some answered
  unfold Capture.read? at found
  split at found
  · obtain ⟨inside, rfl⟩ := Bytes.slice?_eq_some_iff.1 found
    exact Bytes.length_slice_of_le inside
  · contradiction

end Snapshot
end ImageDump
