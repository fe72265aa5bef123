import ImageDump.Proofs.Relocation
import ImageDump.Proofs.Repatch

/-!
# Relocating in two steps

An image can be dumped again, and its offsets are then relocated a second time. Between
equal tables relocation changes nothing. Two steps amount to one as long as no section loses
raw data in the first of them (`SectionTable.GrowsInto`): an offset into the raw data of a
section is afterwards an offset into the raw data of the same section, and an offset behind
all raw data is behind all raw data again, if the sums on the way fit into a word.
-/

namespace ImageDump

/-- Every section with raw data has raw data in the destination, and at least as much. -/
def SectionTable.GrowsInto (source destination : SectionTable) : Prop :=
  ∀ pair ∈ source.zip destination, pair.1.hasRawData = true →
    pair.2.hasRawData = true ∧ pair.1.rawSize.toNat ≤ pair.2.rawSize.toNat

instance (source destination : SectionTable) : Decidable (source.GrowsInto destination) :=
  inferInstanceAs (Decidable (∀ pair ∈ source.zip destination, _ → _ ∧ _))

namespace SectionTable

variable {first second : SectionTable} {index : Nat} {entry header : SectionHeader}

theorem GrowsInto.of_getElem? (grows : first.GrowsInto second)
    (entryAt : first[index]? = some entry) (headerAt : second[index]? = some header)
    (raw : entry.hasRawData = true) :
    header.hasRawData = true ∧ entry.rawSize.toNat ≤ header.rawSize.toNat := by
  have pairAt := List.getElem?_zip_eq_some (z := (entry, header)).2 ⟨entryAt, headerAt⟩
  exact grows (entry, header) (List.mem_of_getElem? pairAt) raw

/-- A table with raw data grows into one with raw data. -/
theorem GrowsInto.lastRawEnd_pos (grows : first.GrowsInto second)
    (length : second.length = first.length) (ordered : second.Pairwise Image.InFileOrder)
    (strayFree : second.NoStraySizes) (positive : 0 < first.lastRawEnd) :
    0 < second.lastRawEnd := by
  rcases lastRawEnd_cases first with ⟨-, zero⟩ | ⟨before, last, after, split, raw, -, -⟩
  · rw [zero] at positive
    exact absurd positive (Nat.lt_irrefl 0)
  · have mem : last ∈ first := split ▸ List.mem_append_right before List.mem_cons_self
    obtain ⟨index, lastAt⟩ := List.getElem?_of_mem mem
    obtain ⟨header, headerAt⟩ := exists_counterpart length lastAt
    obtain ⟨headerRaw, -⟩ := grows.of_getElem? lastAt headerAt raw
    have pointer := SectionHeader.hasRawData_eq_true_iff.1 headerRaw
    have stop := rawEnd_le_lastRawEnd ordered strayFree (List.mem_of_getElem? headerAt)
    rw [SectionHeader.rawEnd] at stop
    omega

end SectionTable

section Steps

variable {first second third : SectionTable} {offset : UInt64}
  (secondLength : second.length = first.length)
  (firstOrdered : first.Pairwise Image.InFileOrder) (firstStrayFree : first.NoStraySizes)
  (secondOrdered : second.Pairwise Image.InFileOrder) (secondStrayFree : second.NoStraySizes)
  (grows : first.GrowsInto second)
include secondLength firstOrdered firstStrayFree secondOrdered secondStrayFree grows

/-- An offset into the raw data of a section. -/
theorem relocate_relocate_of_holdsOffset (thirdLength : third.length = first.length)
    {entry : SectionHeader} (mem : entry ∈ first) (holds : entry.HoldsOffset offset.toNat) :
    relocate second third (relocate first second offset) = relocate first third offset := by
  obtain ⟨index, entryAt⟩ := List.getElem?_of_mem mem
  obtain ⟨middle, middleAt⟩ := SectionTable.exists_counterpart secondLength entryAt
  obtain ⟨last, lastAt⟩ := SectionTable.exists_counterpart thirdLength entryAt
  obtain ⟨middleRaw, sizeLe⟩ := grows.of_getElem? entryAt middleAt holds.1
  have moved := relocate_of_holdsOffset firstOrdered firstStrayFree entryAt middleAt holds
  -- the same section holds the offset after the first step
  have middleHolds : middle.HoldsOffset (relocate first second offset).toNat := by
    have inside := holds.sub_lt
    refine ⟨middleRaw, ?_, ?_⟩
    · rw [moved]
      exact Nat.le_add_right _ _
    · rw [moved, SectionHeader.rawEnd]
      omega
  apply UInt64.toNat_inj.1
  calc (relocate second third (relocate first second offset)).toNat
      = last.rawPointer.toNat +
          ((relocate first second offset).toNat - middle.rawPointer.toNat) :=
        relocate_of_holdsOffset secondOrdered secondStrayFree middleAt lastAt middleHolds
    _ = last.rawPointer.toNat + (offset.toNat - entry.rawPointer.toNat) := by
        rw [moved, Nat.add_sub_cancel_left]
    _ = (relocate first third offset).toNat :=
        (relocate_of_holdsOffset firstOrdered firstStrayFree entryAt lastAt holds).symm

/-- An offset behind all raw data. -/
theorem relocate_relocate_of_ge (positive : 0 < offset.toNat) (small : offset.toNat < 2 ^ 63)
    (le : first.lastRawEnd ≤ offset.toNat) :
    relocate second third (relocate first second offset) = relocate first third offset := by
  have firstSmall := first.lastRawEnd_lt
  have secondSmall := second.lastRawEnd_lt
  have moved : relocate first second offset =
      offset + UInt64.ofNat second.lastRawEnd - UInt64.ofNat first.lastRawEnd :=
    relocate_of_ge firstOrdered firstStrayFree positive le
  have distance : (relocate first second offset).toNat =
      offset.toNat + second.lastRawEnd - first.lastRawEnd := by
    rw [moved]
    exact CopyJob.toNat_relocate (Nat.le_add_right_of_le le) (by omega)
  -- the offset does not become zero, which would mark it as unused
  have movedPositive : 0 < (relocate first second offset).toNat := by
    rw [distance]
    rcases Nat.eq_zero_or_pos first.lastRawEnd with none | some
    · omega
    · have stays := grows.lastRawEnd_pos secondLength secondOrdered secondStrayFree some
      omega
  rw [relocate_of_ge secondOrdered secondStrayFree movedPositive (by omega), moved,
    relocate_of_ge firstOrdered firstStrayFree positive le]
  grind

end Steps

/-- **Relocation in steps.** Relocation between equal tables changes no offset. Between
tables of equal length, of which the first two are in file order and the first grows into
the second, an offset into raw data or behind all raw data is relocated to the third table
in two steps as it is in one. -/
theorem relocate_functorial :
    (∀ (table : SectionTable) (offset : UInt64), relocate table table offset = offset) ∧
    ∀ first second third : SectionTable, second.length = first.length →
      third.length = first.length →
      first.Pairwise Image.InFileOrder → first.NoStraySizes →
      second.Pairwise Image.InFileOrder → second.NoStraySizes → first.GrowsInto second →
      ∀ offset : UInt64, 0 < offset.toNat → offset.toNat < 2 ^ 63 →
        (∃ entry ∈ first, entry.HoldsOffset offset.toNat) ∨
          first.lastRawEnd ≤ offset.toNat →
        relocate second third (relocate first second offset) = relocate first third offset := by
  refine ⟨relocate_self, ?_⟩
  intro first second third secondLength thirdLength firstOrdered firstStrayFree secondOrdered
    secondStrayFree grows offset positive small owned
  rcases owned with ⟨entry, mem, holds⟩ | behind
  · exact relocate_relocate_of_holdsOffset secondLength firstOrdered firstStrayFree
      secondOrdered secondStrayFree grows thirdLength mem holds
  · exact relocate_relocate_of_ge secondLength firstOrdered firstStrayFree secondOrdered
      secondStrayFree grows positive small behind

/-- Two sections with raw data and one without between them, before any dump. -/
def firstLayout : SectionTable :=
  [pageSection 0x1000 304 40, pageSection 0x2000 0 0, pageSection 0x3000 352 16]

/-- The same sections once the first has grown and the second has raw data. -/
def secondLayout : SectionTable :=
  [pageSection 0x1000 304 64, pageSection 0x2000 368 16, pageSection 0x3000 384 16]

/-- The same sections once the second has grown as well. -/
def thirdLayout : SectionTable :=
  [pageSection 0x1000 304 64, pageSection 0x2000 368 48, pageSection 0x3000 416 16]

/-- An offset into the last section and one behind it move by thirty-two bytes twice, or by
sixty-four at once. -/
theorem relocate_functorial_layouts :
    relocate secondLayout thirdLayout (relocate firstLayout secondLayout 360) =
        relocate firstLayout thirdLayout 360 ∧
      relocate secondLayout thirdLayout (relocate firstLayout secondLayout 400) =
        relocate firstLayout thirdLayout 400 := by
  have steps := relocate_functorial.2 firstLayout secondLayout thirdLayout rfl rfl (by decide)
    (by decide) (by decide) (by decide) (by decide)
  exact ⟨steps 360 (by decide) (by decide) (by decide),
    steps 400 (by decide) (by decide) (by decide)⟩

end ImageDump
