import ImageDump.Proofs.PlannedRegions

/-!
# Merged regions

Two regions of uninitialized data that overlap are placed one by one and then merged: the
offset is the smaller one and the growth the larger one. That is the place of their union,
whichever of the two is reported as which (`analyze_of_overlapping`).
-/

namespace ImageDump

/-- The memory image that reports these regions of uninitialized data. -/
def MemoryImage.withUninitialized (memory : MemoryImage) (bss staticBss : Region) :
    MemoryImage :=
  { memory with
    region := fun
      | .data => memory.region .data
      | .bss => bss
      | .staticBss => staticBss }

namespace Placement

variable {image : Image} {base : UInt64} {header : SectionHeader} {placement : Placement}

/-- Uninitialized data has the same place as either of the two regions. -/
theorem Within.withKind (within : Within image base header placement)
    (growing : placement.isGrowing = true) {kind : RegionKind} (notData : kind ≠ .data) :
    Within image base header { placement with kind } := by
  have growing' : ({ placement with kind } : Placement).isGrowing = true :=
    isGrowing_of_kind rfl notData
  have growth := within.growth_eq
  rw [growth?_of_isGrowing growing] at growth
  exact {
    owner := within.owner
    nonempty := within.nonempty
    below := within.below
    start_eq := within.start_eq
    first := within.first
    last := within.last
    growth_eq := (growth?_of_isGrowing growing').trans growth }

end Placement

namespace Plan

open Placement

variable {image : Image} {memory : MemoryImage} {options : DumpOptions} {plan : Plan}

/-- The order in which two regions are merged does not matter. -/
theorem merge_swap {first second : Placement} (owner : first.owner = second.owner)
    (bss : first.kind = .bss) :
    merge { second with kind := .bss } { first with kind := .staticBss } =
      merge first second := by
  simp only [merge, Region.union_comm second.region, Nat.min_comm second.offset,
    Nat.max_comm second.growth, owner, bss]

/-- A plan depends on the two regions of uninitialized data only by how they are placed and
merged. -/
theorem MadeOf.withUninitialized {bss staticBss bss' staticBss' : Option Placement}
    {first second : Region} (made : plan.MadeOf image memory options bss staticBss)
    (bssPlaced : place? image memory.imageBase .bss first = .ok bss')
    (staticPlaced : place? image memory.imageBase .staticBss second = .ok staticBss')
    (merged : mergeOverlap bss' staticBss' = .ok (plan.bss, plan.staticBss)) :
    plan.MadeOf image (memory.withUninitialized first second) options bss' staticBss' where
  fileAlignment := made.fileAlignment
  imageBase := made.imageBase
  data := made.data
  bssPlaced := bssPlaced
  staticPlaced := staticPlaced
  merged := merged
  outputSize := made.outputSize

/-- A plan with merged placements is made of the place of the union alone. -/
theorem MadeOf.union {first second : Placement} {nothing : Region}
    (made : plan.MadeOf image memory options (some first) (some second))
    (overlaps : first.region.overlaps second.region = true)
    (positive : 0 < image.fileAlignment.toNat) (empty : nothing.isEmpty = true) :
    plan.MadeOf image
      (memory.withUninitialized (first.region.union second.region) nothing) options
      (some (merge first second)) none := by
  obtain ⟨owner, isMerged, noStatic⟩ := made.merged_of_overlaps overlaps
  obtain ⟨⟨_, firstWithin⟩, firstKind, -⟩ := within_of_place? made.bssPlaced
  obtain ⟨⟨_, secondWithin⟩, secondKind, -⟩ := within_of_place? made.staticPlaced
  have unionWithin := firstWithin.merge secondWithin owner (isGrowing_of_kind firstKind nofun)
    (isGrowing_of_kind secondKind nofun) positive
  have kind : (merge first second).kind = .bss := firstKind
  have unionPlaced := place?_of_within unionWithin
  rw [kind] at unionPlaced
  have nothingPlaced : place? image memory.imageBase .staticBss nothing = .ok none := by
    rw [place?, empty]
    rfl
  refine made.withUninitialized unionPlaced nothingPlaced ?_
  rw [isMerged, noStatic]
  rfl

/-- A plan with merged placements is made of the same placements the other way round. -/
theorem MadeOf.swap {first second : Placement}
    (made : plan.MadeOf image memory options (some first) (some second))
    (overlaps : first.region.overlaps second.region = true)
    (overlaps' : second.region.overlaps first.region = true) :
    plan.MadeOf image (memory.withUninitialized second.region first.region) options
      (some { second with kind := .bss }) (some { first with kind := .staticBss }) := by
  obtain ⟨owner, isMerged, noStatic⟩ := made.merged_of_overlaps overlaps
  obtain ⟨⟨_, firstWithin⟩, firstKind, -⟩ := within_of_place? made.bssPlaced
  obtain ⟨⟨_, secondWithin⟩, secondKind, -⟩ := within_of_place? made.staticPlaced
  have bssNotData : RegionKind.bss ≠ .data := nofun
  have staticNotData : RegionKind.staticBss ≠ .data := nofun
  have bssPlaced :=
    place?_of_within (secondWithin.withKind (isGrowing_of_kind secondKind nofun) bssNotData)
  have staticPlaced :=
    place?_of_within (firstWithin.withKind (isGrowing_of_kind firstKind nofun) staticNotData)
  refine made.withUninitialized bssPlaced staticPlaced ?_
  refine mergeOverlap_eq_ok_iff.2 (.inl ⟨_, _, rfl, rfl, overlaps', owner.symm, ?_, noStatic⟩)
  rw [isMerged, merge_swap owner firstKind]

/-- **Merged regions.** If the two regions of uninitialized data share an address, then their
plan is the plan for their union, reported with an empty second region, and it is the plan for
the two regions the other way round. -/
theorem analyze_of_overlapping {source : Bytes} (parsed : Image.parse source = .ok image)
    (analyzed : analyze image memory options = .ok plan) {address : UInt64}
    (inBss : address ∈ memory.region .bss) (inStatic : address ∈ memory.region .staticBss) :
    (∀ nothing : Region, nothing.isEmpty = true →
      analyze image (memory.withUninitialized
        ((memory.region .bss).union (memory.region .staticBss)) nothing) options = .ok plan) ∧
    analyze image (memory.withUninitialized (memory.region .staticBss) (memory.region .bss))
      options = .ok plan := by
  have positive := Image.fileAlignment_pos_of_parse parsed
  obtain ⟨bss, staticBss, made⟩ := analyze_eq_ok_iff.1 analyzed
  obtain ⟨first, rfl, firstRegion⟩ :=
    exists_of_place? made.bssPlaced (Region.isEmpty_eq_false_of_mem inBss)
  obtain ⟨second, rfl, secondRegion⟩ :=
    exists_of_place? made.staticPlaced (Region.isEmpty_eq_false_of_mem inStatic)
  have firstBelow := below_of_place? made.bssPlaced rfl
  have secondBelow := below_of_place? made.staticPlaced rfl
  rw [← firstRegion] at inBss ⊢
  rw [← secondRegion] at inStatic ⊢
  have overlaps := Region.overlaps_of_mem firstBelow inBss inStatic
  have overlaps' := Region.overlaps_of_mem secondBelow inStatic inBss
  constructor
  · intro nothing empty
    exact analyze_eq_ok_iff.2 ⟨_, _, made.union overlaps positive empty⟩
  · exact analyze_eq_ok_iff.2 ⟨_, _, made.swap overlaps overlaps'⟩

/-- The plan for `overlappingMemory` is the plan for the 28 bytes that its two regions cover. -/
theorem analyze_union_overlappingMemory :
    analyze wideSource (overlappingMemory.toMemoryImage.withUninitialized
        { start := 0x401028, size := 28 } Region.empty) plainOptions = .ok overlappingPlan ∧
      analyze wideSource (overlappingMemory.toMemoryImage.withUninitialized
        { start := 0x401028, size := 20 } { start := 0x401030, size := 20 }) plainOptions =
          .ok overlappingPlan := by
  have inBss : (0x401030 : UInt64) ∈ overlappingMemory.region .bss := by decide +kernel
  have inStatic : (0x401030 : UInt64) ∈ overlappingMemory.region .staticBss := by decide +kernel
  obtain ⟨union, swapped⟩ :=
    analyze_of_overlapping parse_wideImage analyze_overlappingMemory inBss inStatic
  exact ⟨union Region.empty rfl, swapped⟩

end Plan
end ImageDump
