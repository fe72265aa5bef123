import ImageDump.Proofs.PlannedRegions
import ImageDump.Proofs.Relocation

/-!
# The section named for initialized data

A section that is named for the initialized data is stored in place of the reported region,
up to the smaller of its two sizes. The reported region only has to lie in its raw data. So
what is reported behind the virtual size of the section is not stored, and if that size is
zero nothing is (`data_covers_reported_iff`).
-/

namespace ImageDump
namespace Plan

open Placement

variable {image : Image} {memory : MemoryImage} {options : DumpOptions} {plan : Plan}
  {name : String} {index : Nat} {header : SectionHeader}

/-- Without a named section the reported region is planned. -/
theorem exists_data_of_unnamed (analyzed : analyze image memory options = .ok plan)
    (unnamed : namedSection? image options = none)
    (reported : (memory.region .data).isEmpty = false) :
    ∃ placement, plan.data = some placement ∧ placement.region = memory.region .data := by
  obtain ⟨_, _, made⟩ := analyze_eq_ok_iff.1 analyzed
  obtain ⟨region, located, placed⟩ := made.data
  rw [dataRegion, unnamed] at located
  cases located
  exact exists_of_place? placed reported

/-- With a named section its backed part is planned. -/
theorem place?_backedRegion (analyzed : analyze image memory options = .ok plan)
    (named : namedSection? image options = some (name, index, header)) :
    place? image memory.imageBase .data (backedRegion memory.imageBase header) =
      .ok plan.data := by
  obtain ⟨_, _, made⟩ := analyze_eq_ok_iff.1 analyzed
  obtain ⟨region, located, placed⟩ := made.data
  simp only [dataRegion, named, bind_eq_ok_iff] at located
  obtain ⟨_, -, _, -, ⟨⟩⟩ := located
  exact placed

/-- A reported region lies in the raw data of the named section. -/
theorem reported_inside_named (analyzed : analyze image memory options = .ok plan)
    (named : namedSection? image options = some (name, index, header))
    (reported : (memory.region .data).isEmpty = false) :
    (memory.region .data).stop < addressSpace ∧
      memory.imageBase.toNat + header.virtualAddress.toNat ≤ (memory.region .data).start.toNat ∧
      (memory.region .data).stop ≤
        memory.imageBase.toNat + header.virtualAddress.toNat + header.rawSize.toNat := by
  obtain ⟨_, _, made⟩ := analyze_eq_ok_iff.1 analyzed
  obtain ⟨_, located, -⟩ := made.data
  simp only [dataRegion, named, bind_eq_ok_iff, require_eq_ok_iff] at located
  obtain ⟨placed, placedAt, _, owned, -⟩ := located
  obtain ⟨inside, rfl, -⟩ := exists_of_place? placedAt reported
  obtain ⟨⟨entry, within⟩, kind, region⟩ := within_of_place? placedAt
  have sameHeader : entry = header := by
    have entryAt := within.owner
    rw [owned inside rfl, getElem?_of_namedSection? named] at entryAt
    exact (Option.some.inj entryAt).symm
  subst sameHeader
  have start := within.start_eq
  have stopLe := within.stop_le_rawSize kind
  rw [← region]
  refine ⟨within.below, by omega, ?_⟩
  rw [Placement.stop] at stopLe
  rw [Region.stop]
  omega

/-- The named section is not stored at all if it has no virtual size. -/
theorem data_eq_none_iff_of_named (analyzed : analyze image memory options = .ok plan)
    (named : namedSection? image options = some (name, index, header))
    (reported : (memory.region .data).isEmpty = false) :
    plan.data = none ↔ header.virtualSize = 0 := by
  obtain ⟨-, startLe, stopLe⟩ := reported_inside_named analyzed named reported
  -- the reported region is in the raw data, so there is some
  rw [Region.isEmpty_eq_false_iff] at reported
  rw [Region.stop] at stopLe
  have raw : 0 < header.rawSize.toNat := by omega
  rw [eq_none_iff_of_place? (place?_backedRegion analyzed named), toNat_size_backedRegion,
    ← UInt32.toNat_inj, UInt32.toNat_zero]
  omega

/-- The named section is stored up to its virtual size. -/
theorem data_covers_iff_of_named (analyzed : analyze image memory options = .ok plan)
    (named : namedSection? image options = some (name, index, header))
    (reported : (memory.region .data).isEmpty = false) :
    (∃ placement ∈ plan.data, ∀ address ∈ memory.region .data, address ∈ placement.region) ↔
      (memory.region .data).stop ≤ memory.imageBase.toNat + header.virtualAddress.toNat +
        header.virtualSize.toNat := by
  obtain ⟨below, startLe, stopLe⟩ := reported_inside_named analyzed named reported
  have placed := place?_backedRegion analyzed named
  have start : (backedRegion memory.imageBase header).start.toNat =
      memory.imageBase.toNat + header.virtualAddress.toNat := by
    refine toNat_start_backedRegion (Nat.lt_of_le_of_lt (Nat.le_trans startLe ?_) below)
    exact Nat.le_add_right _ _
  have stop : (backedRegion memory.imageBase header).stop =
      memory.imageBase.toNat + header.virtualAddress.toNat +
        min header.virtualSize.toNat header.rawSize.toNat := by
    rw [Region.stop, start, toNat_size_backedRegion]
  have covers : (∀ address ∈ memory.region .data,
        address ∈ backedRegion memory.imageBase header) ↔
      (memory.region .data).stop ≤ memory.imageBase.toNat + header.virtualAddress.toNat +
        header.virtualSize.toNat := by
    rw [Region.forall_mem_iff reported below, start, stop]
    omega
  rw [← covers]
  constructor
  · rintro ⟨placement, present, inside⟩
    rwa [region_of_place? placed placement present] at inside
  · intro inside
    -- what holds the reported region is not empty
    have first := inside _ (Region.start_mem reported)
    obtain ⟨placement, present, region⟩ :=
      exists_of_place? placed (Region.isEmpty_eq_false_of_mem first)
    exact ⟨placement, present, region ▸ inside⟩

/-- **Reported data.** If initialized data is reported, it is not stored at all exactly if the
section that is named for it has no virtual size. All of it is stored exactly if it ends inside
the virtual size of the named section, or if there is no such section. -/
theorem data_covers_reported_iff (analyzed : analyze image memory options = .ok plan)
    (reported : (memory.region .data).isEmpty = false) :
    (plan.data = none ↔ ∃ name index header,
      namedSection? image options = some (name, index, header) ∧ header.virtualSize = 0) ∧
    ((∃ placement ∈ plan.data, ∀ address ∈ memory.region .data, address ∈ placement.region) ↔
      ∀ name index header, namedSection? image options = some (name, index, header) →
        (memory.region .data).stop ≤ memory.imageBase.toNat + header.virtualAddress.toNat +
          header.virtualSize.toNat) := by
  cases named : namedSection? image options with
  | none =>
    obtain ⟨placement, planned, region⟩ := exists_data_of_unnamed analyzed named reported
    rw [planned]
    refine ⟨iff_of_false nofun (by simp), iff_of_true ⟨placement, rfl, ?_⟩ (by simp)⟩
    rw [region]
    exact fun _ mem => mem
  | some found =>
    obtain ⟨name, index, header⟩ := found
    rw [data_eq_none_iff_of_named analyzed named reported,
      data_covers_iff_of_named analyzed named reported]
    constructor
    · refine ⟨fun zero => ⟨name, index, header, rfl, zero⟩, ?_⟩
      rintro ⟨_, _, _, ⟨⟩, zero⟩
      exact zero
    · refine ⟨?_, fun all => all name index header rfl⟩
      rintro inside _ _ _ ⟨⟩
      exact inside

end Plan

/-- An image of one section with sixteen bytes of raw data, which has the default name for
initialized data and this virtual size. -/
def dataImage (virtualSize : UInt32) : Bytes :=
  imageOf [{ pageSection 0x1000 224 16 with
    name := SectionName.ofBytes [0x44, 0x55, 0x4d, 0x50, 0x44, 0x41, 0x54, 0x41]
    virtualSize }] (List.replicate 16 0x11)

/-- Memory whose initialized data is all of the raw data in these images. -/
def reportedMemory : Snapshot :=
  Snapshot.setRegion { imageBase := 0x400000 } .data 0x401000 (List.replicate 16 0xcc)

/-- All of the reported data is stored in a section whose virtual size is a page. -/
theorem data_covers_reported_dataImage : ∃ image plan,
    Image.parse (dataImage 0x1000) = .ok image ∧
      Plan.analyze image reportedMemory.toMemoryImage {} = .ok plan ∧
      (reportedMemory.region .data).isEmpty = false ∧
      ∃ placement ∈ plan.data, ∀ address ∈ reportedMemory.region .data,
        address ∈ placement.region := by
  obtain ⟨image, parsed, planned, named⟩ : ∃ image,
      Image.parse (dataImage 0x1000) = .ok image ∧
      (Plan.analyze image reportedMemory.toMemoryImage {}).toOption.isSome = true ∧
      Plan.namedSection? image {} = some ("DUMPDATA", 0, { pageSection 0x1000 224 16 with
        name := SectionName.ofBytes [0x44, 0x55, 0x4d, 0x50, 0x44, 0x41, 0x54, 0x41] }) :=
    ⟨_, eq_ok_get (by decide +kernel), by decide +kernel, by decide +kernel⟩
  have analyzed := eq_ok_get planned
  refine ⟨image, _, parsed, analyzed, by decide +kernel, ?_⟩
  refine (Plan.data_covers_reported_iff analyzed (by decide +kernel)).2.2 ?_
  intro _ _ _ found
  cases named.symm.trans found
  decide +kernel

/-- A section without a virtual size takes the place of the reported data, and nothing is
stored. -/
theorem data_dropped_dataImage : ∃ image plan,
    Image.parse (dataImage 0) = .ok image ∧
      Plan.analyze image reportedMemory.toMemoryImage {} = .ok plan ∧
      (reportedMemory.region .data).isEmpty = false ∧ plan.data = none :=
  ⟨_, _, eq_ok_get (by decide +kernel), eq_ok_get (by decide +kernel), by decide +kernel,
    by decide +kernel⟩
end ImageDump
