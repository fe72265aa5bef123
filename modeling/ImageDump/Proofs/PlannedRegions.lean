import ImageDump.Proofs.Destination

/-!
# The regions of a plan

A plan places the regions that the memory image reports, with two exceptions: a section that
is named for the initialized data takes the place of that region, and two regions of
uninitialized data that overlap are placed as their union. Whatever a placement then says is
true of its region (`Placement.Accurate`), and no address of uninitialized data is lost or
stored twice (`Plan.accurate_of_analyze`).
-/

namespace ImageDump

/-! ## Accurate placements -/

/-- The section at the index contains the relative virtual address, and no section in front
of it does. -/
def SectionTable.FirstContaining (table : SectionTable) (rva index : Nat) : Prop :=
  (∃ header, table[index]? = some header ∧ header.contains rva = true) ∧
    ∀ earlier < index, ∀ header, table[earlier]? = some header → header.contains rva = false

theorem SectionTable.findContaining?_eq_some_iff {table : SectionTable} {rva index : Nat} :
    table.findContaining? rva = some index ↔ table.FirstContaining rva index := by
  rw [findContaining?, List.findIdx?_eq_some_iff_getElem]
  constructor
  · rintro ⟨inRange, contains, before⟩
    refine ⟨⟨table[index], List.getElem?_eq_getElem inRange, contains⟩, ?_⟩
    intro earlier lt header entry
    obtain ⟨_, rfl⟩ := List.getElem?_eq_some_iff.1 entry
    exact Bool.eq_false_iff.2 (before earlier lt)
  · rintro ⟨⟨header, entry, contains⟩, before⟩
    obtain ⟨inRange, rfl⟩ := List.getElem?_eq_some_iff.1 entry
    refine ⟨inRange, contains, fun earlier lt => ?_⟩
    exact Bool.eq_false_iff.1 (before earlier lt _ (List.getElem?_eq_getElem (by omega)))

namespace Placement

variable {image : Image} {base : UInt64} {header : SectionHeader} {placement : Placement}

/-- What the placement says is true of its region, in an image loaded at `base` whose section
has this header. -/
structure Accurate (image : Image) (base : UInt64) (header : SectionHeader)
    (placement : Placement) : Prop where
  owner : image.sections[placement.owner]? = some header
  nonempty : placement.region.isEmpty = false
  first : image.sections.FirstContaining (placement.region.start.toNat - base.toNat)
    placement.owner
  last : image.sections.FirstContaining (placement.region.stop - 1 - base.toNat) placement.owner
  inside : ∀ address ∈ placement.region,
    base ≤ address ∧ header.contains (address.toNat - base.toNat) = true
  offset : base.toNat + header.virtualAddress.toNat + placement.offset =
    placement.region.start.toNat
  /-- Initialized data ends inside the raw data, which does not grow. -/
  data : placement.kind = .data →
    placement.offset + placement.region.size.toNat ≤ header.rawSize.toNat ∧ placement.growth = 0
  /-- Uninitialized data makes the raw data grow as little as it can, in steps of the file
  alignment. -/
  growing : placement.kind ≠ .data → IsLeast
    {growth | image.fileAlignment.toNat ∣ growth ∧
      placement.offset + placement.region.size.toNat ≤
        alignUp header.rawSize.toNat image.fileAlignment.toNat + growth}
    placement.growth

theorem Within.accurate (within : Within image base header placement)
    (positive : 0 < image.fileAlignment.toNat) : Accurate image base header placement := by
  have start := within.start_eq
  have stopLe := within.stop_le
  have growth := within.growth_eq
  refine {
    owner := within.owner
    nonempty := within.isEmpty_region
    first := SectionTable.findContaining?_eq_some_iff.1 within.first
    last := ?_
    inside := ?_
    offset := start.symm
    data := ?_
    growing := ?_ }
  · rw [Nat.sub_right_comm]
    exact SectionTable.findContaining?_eq_some_iff.1 within.last
  · intro address mem
    obtain ⟨le, lt⟩ := Region.mem_iff.1 mem
    simp only [Region.stop, stop, SectionHeader.contains, UInt64.le_iff_toNat_le,
      Bool.and_eq_true, decide_eq_true_eq] at *
    omega
  · intro data
    refine ⟨within.stop_le_rawSize data, ?_⟩
    rw [data, growth?, if_pos (within.stop_le_rawSize data)] at growth
    exact (Option.some.inj growth).symm
  · intro notData
    rw [growth?_of_isGrowing (isGrowing_eq_true_iff.2 notData), Option.some.injEq] at growth
    rw [← growth]
    exact isLeast_alignUp_sub positive

theorem region_of_place? {kind : RegionKind} {region : Region} {placed : Option Placement}
    (ok : place? image base kind region = .ok placed) :
    ∀ placement ∈ placed, placement.region = region := by
  intro placement present
  cases present
  exact (within_of_place? ok).2.2

theorem below_of_place? {kind : RegionKind} {region : Region} {placed : Option Placement}
    (ok : place? image base kind region = .ok placed) (present : placement ∈ placed) :
    placement.region.stop < addressSpace := by
  cases present
  obtain ⟨⟨_, within⟩, -, -⟩ := within_of_place? ok
  exact within.below

end Placement

namespace Plan

open Placement

variable {image : Image} {memory : MemoryImage} {options : DumpOptions} {plan : Plan}

/-! ## Reported regions -/

/-- A plan without a named section stores the initialized data as it is reported. -/
theorem region_data_of_analyze (unnamed : options.dataSection = none)
    (analyzed : analyze image memory options = .ok plan) :
    ∀ placement ∈ plan.data, placement.region = memory.region .data := by
  obtain ⟨_, _, made⟩ := analyze_eq_ok_iff.1 analyzed
  obtain ⟨region, located, placed⟩ := made.data
  rw [dataRegion_of_unnamed unnamed] at located
  cases located
  exact region_of_place? placed

/-- Two placements that overlap lie in one section, or there would be no plan. -/
theorem MadeOf.merged_of_overlaps {first second : Placement}
    (made : plan.MadeOf image memory options (some first) (some second))
    (overlaps : first.region.overlaps second.region = true) :
    first.owner = second.owner ∧ plan.bss = some (merge first second) ∧
      plan.staticBss = none := by
  rcases mergeOverlap_eq_ok_iff.1 made.merged with
    ⟨_, _, ⟨⟩, ⟨⟩, -, owner, isMerged, noStatic⟩ | ⟨apart, -⟩
  · exact ⟨owner, isMerged, noStatic⟩
  · rw [apart first rfl second rfl] at overlaps
    cases overlaps

/-- Two regions of uninitialized data that overlap are planned as their union. -/
theorem merged_of_analyze (analyzed : analyze image memory options = .ok plan)
    (overlaps : (memory.region .bss).overlaps (memory.region .staticBss) = true) :
    ∃ merged, plan.bss = some merged ∧ plan.staticBss = none ∧
      merged.region = (memory.region .bss).union (memory.region .staticBss) := by
  obtain ⟨bssNonempty, staticNonempty⟩ := Region.nonempty_of_overlaps overlaps
  obtain ⟨_, _, made⟩ := analyze_eq_ok_iff.1 analyzed
  obtain ⟨first, rfl, firstRegion⟩ := exists_of_place? made.bssPlaced bssNonempty
  obtain ⟨second, rfl, secondRegion⟩ := exists_of_place? made.staticPlaced staticNonempty
  rw [← firstRegion, ← secondRegion] at overlaps ⊢
  obtain ⟨-, isMerged, noStatic⟩ := made.merged_of_overlaps overlaps
  exact ⟨_, isMerged, noStatic, rfl⟩

/-- Two regions of uninitialized data that do not overlap are planned as they are
reported. -/
theorem region_bss_of_analyze (analyzed : analyze image memory options = .ok plan)
    (apart : (memory.region .bss).overlaps (memory.region .staticBss) = false) :
    (∀ placement ∈ plan.bss, placement.region = memory.region .bss) ∧
      ∀ placement ∈ plan.staticBss, placement.region = memory.region .staticBss := by
  obtain ⟨_, _, made⟩ := analyze_eq_ok_iff.1 analyzed
  have bssRegion := region_of_place? made.bssPlaced
  have staticRegion := region_of_place? made.staticPlaced
  rcases mergeOverlap_eq_ok_iff.1 made.merged with
    ⟨first, second, rfl, rfl, overlaps, -, -⟩ | ⟨-, sameBss, sameStatic⟩
  · rw [bssRegion first rfl, staticRegion second rfl, apart] at overlaps
    cases overlaps
  · rw [sameBss, sameStatic]
    exact ⟨bssRegion, staticRegion⟩

/-- A reported region of uninitialized data is not lost: each of its addresses is in the region
of a placement. -/
theorem exists_placement_of_mem (analyzed : analyze image memory options = .ok plan)
    {kind : RegionKind} (notData : kind ≠ .data) {address : UInt64}
    (mem : address ∈ memory.region kind) :
    ∃ placement, (placement ∈ plan.bss ∨ placement ∈ plan.staticBss) ∧
      address ∈ placement.region := by
  have nonempty := Region.isEmpty_eq_false_of_mem mem
  obtain ⟨bss, staticBss, made⟩ := analyze_eq_ok_iff.1 analyzed
  rcases mergeOverlap_eq_ok_iff.1 made.merged with
    ⟨first, second, rfl, rfl, -, -, isMerged, -⟩ | ⟨-, sameBss, sameStatic⟩
  · refine ⟨merge first second, .inl isMerged, ?_⟩
    have bssRegion := region_of_place? made.bssPlaced first rfl
    have staticRegion := region_of_place? made.staticPlaced second rfl
    cases kind with
    | data => exact absurd rfl notData
    | bss =>
      have below := below_of_place? made.bssPlaced rfl
      exact Region.mem_union_left below (bssRegion ▸ mem)
    | staticBss =>
      have below := below_of_place? made.staticPlaced rfl
      exact Region.mem_union_right below (staticRegion ▸ mem)
  · cases kind with
    | data => exact absurd rfl notData
    | bss =>
      obtain ⟨placement, present, region⟩ := exists_of_place? made.bssPlaced nonempty
      exact ⟨placement, .inl (sameBss.trans present), region ▸ mem⟩
    | staticBss =>
      obtain ⟨placement, present, region⟩ := exists_of_place? made.staticPlaced nonempty
      exact ⟨placement, .inr (sameStatic.trans present), region ▸ mem⟩

/-- The two regions of uninitialized data that are placed share no address. -/
theorem not_mem_of_mem_bss (analyzed : analyze image memory options = .ok plan)
    {first second : Placement} (isBss : first ∈ plan.bss) (isStatic : second ∈ plan.staticBss)
    {address : UInt64} (mem : address ∈ first.region) : address ∉ second.region := by
  obtain ⟨bss, staticBss, made⟩ := analyze_eq_ok_iff.1 analyzed
  rcases mergeOverlap_eq_ok_iff.1 made.merged with ⟨_, _, -, -, -, -, -, noStatic⟩ |
    ⟨apart, sameBss, sameStatic⟩
  · rw [noStatic] at isStatic
    cases isStatic
  · rw [sameBss] at isBss
    rw [sameStatic] at isStatic
    intro shared
    have overlaps : first.region.overlaps second.region = true :=
      Region.overlaps_of_mem (below_of_place? made.bssPlaced isBss) mem shared
    rw [apart first isBss second isStatic] at overlaps
    cases overlaps

/-! ## Accurate plans -/

/-- The placements of the plan are accurate, and they account for all uninitialized data that
the memory image reports. -/
structure Accurate (image : Image) (memory : MemoryImage) (plan : Plan) : Prop where
  data : ∀ placement ∈ plan.data, placement.kind = .data ∧
    ∃ header, Placement.Accurate image memory.imageBase header placement
  bss : ∀ placement ∈ plan.bss, placement.kind = .bss ∧
    ∃ header, Placement.Accurate image memory.imageBase header placement
  staticBss : ∀ placement ∈ plan.staticBss, placement.kind = .staticBss ∧
    ∃ header, Placement.Accurate image memory.imageBase header placement
  apart : ∀ first ∈ plan.bss, ∀ second ∈ plan.staticBss, ∀ address ∈ first.region,
    address ∉ second.region
  covered : ∀ kind, kind ≠ .data → ∀ address ∈ memory.region kind,
    ∃ placement, (placement ∈ plan.bss ∨ placement ∈ plan.staticBss) ∧
      address ∈ placement.region

/-- **Accurate plans.** In a plan for an image, each region lies in the first section that
contains its first address, which is the first that contains its last address as well; its
offset is counted from there. Initialized data ends inside the raw data; uninitialized data
makes the raw data grow as little as it can. The two regions of uninitialized data share no
address, and they hold every address that is reported as uninitialized data. -/
theorem accurate_of_analyze {source : Bytes} (parsed : Image.parse source = .ok image)
    (analyzed : analyze image memory options = .ok plan) : plan.Accurate image memory := by
  have positive := Image.fileAlignment_pos_of_parse parsed
  have sound := sound_of_analyze positive analyzed
  have accurate {placement : Placement}
      (within : ∃ header, Placement.Within image memory.imageBase header placement) :
      ∃ header, Placement.Accurate image memory.imageBase header placement := by
    obtain ⟨header, within⟩ := within
    exact ⟨header, within.accurate positive⟩
  exact {
    data := fun placement present =>
      ⟨(sound.data placement present).1, accurate (sound.data placement present).2⟩
    bss := fun placement present =>
      ⟨(sound.bss placement present).1, accurate (sound.bss placement present).2⟩
    staticBss := fun placement present =>
      ⟨(sound.staticBss placement present).1, accurate (sound.staticBss placement present).2⟩
    apart := fun _ isBss _ isStatic _ mem => not_mem_of_mem_bss analyzed isBss isStatic mem
    covered := fun _ notData _ mem => exists_placement_of_mem analyzed notData mem }

end Plan

/-- Memory with four bytes of initialized data, and two regions of twenty bytes behind the raw
data that share twelve bytes. -/
def overlappingMemory : Snapshot :=
  Snapshot.setRegion
    (Snapshot.setRegion
      (Snapshot.setRegion { imageBase := 0x400000 } .data 0x401004 (List.replicate 4 0xcc))
      .bss 0x401030 (List.replicate 20 0xaa))
    .staticBss 0x401028 (List.replicate 20 0xbb)

/-- The plan to store `overlappingMemory` in `wideImage`. -/
def overlappingPlan : Plan :=
  (Plan.analyze wideSource overlappingMemory.toMemoryImage plainOptions).toOption.get
    (by decide +kernel)

theorem analyze_overlappingMemory :
    Plan.analyze wideSource overlappingMemory.toMemoryImage plainOptions = .ok overlappingPlan :=
  eq_ok_get _

/-- The two regions are placed as one, which ends 68 bytes into the section: the raw data grows
from 48 to 80 bytes, and each address of the two regions is in that one. -/
theorem accurate_overlappingMemory :
    overlappingPlan.Accurate wideSource overlappingMemory.toMemoryImage ∧
      overlappingPlan.staticBss = none ∧
      ∃ placement ∈ overlappingPlan.bss, placement.offset = 40 ∧
        placement.region.size = 28 ∧ placement.growth = 32 :=
  ⟨Plan.accurate_of_analyze parse_wideImage analyze_overlappingMemory, by decide +kernel,
    by decide +kernel⟩

end ImageDump
