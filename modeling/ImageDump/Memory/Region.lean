/-!
# Regions of memory

A region is a range of 64-bit addresses, given by its first address and its
size. Nothing keeps `start + size` below the top of the address space: such a
region stands for the addresses up to the top. `stop` is the exact end, which
may pass the top, and `ceiling` is the end clipped to the highest address.
-/

namespace ImageDump

/-- One past the highest address. -/
def addressSpace : Nat := 0x10000000000000000

/-- A range of addresses in the running program. The derived order compares the
starts, then the sizes. -/
structure Region where
  start : UInt64
  size : UInt64
deriving DecidableEq, Repr, Ord

namespace Region

/-- The region without addresses. -/
def empty : Region := { start := 0, size := 0 }

/-- An address belongs to a region from its start up to its exact end. -/
instance : Membership UInt64 Region where
  mem region address :=
    region.start.toNat ≤ address.toNat ∧
      address.toNat < region.start.toNat + region.size.toNat

def isEmpty (region : Region) : Bool := region.size == 0

/-- The exact end, one past the last address. -/
def stop (region : Region) : Nat := region.start.toNat + region.size.toNat

/-- The exact end if it is itself an address. -/
def stop? (region : Region) : Option Nat :=
  if region.stop < addressSpace then some region.stop else none

/-- The end clipped to the highest address. -/
def ceiling (region : Region) : Nat := min region.stop (addressSpace - 1)

/-- Whether the regions share an address: neither is empty, and the one that
starts later starts below the end of the other. -/
def overlaps (a b : Region) : Bool :=
  if a.isEmpty || b.isEmpty then false
  else if a.start < b.start then b.start.toNat < a.ceiling
  else a.start.toNat < b.ceiling

/-- The smallest region that covers both regions. -/
def union (a b : Region) : Region :=
  let start := min a.start b.start
  { start, size := UInt64.ofNat (max a.ceiling b.ceiling - start.toNat) }

end Region
end ImageDump
