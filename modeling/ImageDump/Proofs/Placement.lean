import ImageDump.Plan
import ImageDump.Proofs.Alignment
import ImageDump.Proofs.Region

/-!
# Where a plan puts its regions

A plan that was made for an image places every region inside one section of it:
the section is the first that contains the first address of the region, and the
first that contains its last address, so the region lies in the extent of that
section. `Placement.Within` collects what planning established; the merged
placement of two overlapping regions is within their section as well.
-/

namespace ImageDump

/-! ## Looking up a section by address -/

theorem SectionTable.exists_of_findContaining? {table : SectionTable} {rva index : Nat}
    (found : table.findContaining? rva = some index) :
    ∃ header, table[index]? = some header ∧ header.virtualAddress.toNat ≤ rva ∧
      rva < header.virtualAddress.toNat + header.extent := by
  obtain ⟨inRange, contains, -⟩ := List.findIdx?_eq_some_iff_getElem.1 found
  refine ⟨table[index], List.getElem?_eq_getElem inRange, ?_⟩
  simpa [SectionHeader.contains] using contains

namespace Placement

/-- End of the region, counted from the start of the section. -/
def stop (placement : Placement) : Nat := placement.offset + placement.region.size.toNat

/-- The placement lies in the section with this header, in an image loaded at
`base`. -/
structure Within (image : Image) (base : UInt64) (header : SectionHeader)
    (placement : Placement) : Prop where
  owner : image.sections[placement.owner]? = some header
  nonempty : 0 < placement.region.size.toNat
  below : placement.region.stop < addressSpace
  start_eq : placement.region.start.toNat =
    base.toNat + header.virtualAddress.toNat + placement.offset
  first : image.sections.findContaining? (placement.region.start.toNat - base.toNat) =
    some placement.owner
  last : image.sections.findContaining? (placement.region.stop - base.toNat - 1) =
    some placement.owner
  growth_eq : growth? placement.kind header placement.stop image.fileAlignment.toNat =
    some placement.growth

variable {image : Image} {base : UInt64} {header : SectionHeader} {placement : Placement}

/-- The region ends inside the extent of its section. -/
theorem Within.stop_le (within : Within image base header placement) :
    placement.stop ≤ header.extent := by
  obtain ⟨owner, owned, -, lastBelow⟩ :=
    SectionTable.exists_of_findContaining? within.last
  have sameOwner : owner = header := Option.some.inj (owned.symm.trans within.owner)
  subst sameOwner
  have start := within.start_eq
  have nonempty := within.nonempty
  simp only [Region.stop, stop] at *
  omega

/-- Initialized data ends inside the raw data of its section. -/
theorem Within.stop_le_rawSize (within : Within image base header placement)
    (data : placement.kind = .data) : placement.stop ≤ header.rawSize.toNat := by
  have growth := within.growth_eq
  rw [data] at growth
  by_cases fits : placement.stop ≤ header.rawSize.toNat
  · exact fits
  · simp [growth?, fits] at growth

/-- What it means to be placed: the region lies in one section and keeps its
kind and its boundaries. -/
theorem within_of_locate {kind : RegionKind} {region : Region}
    (nonempty : region.isEmpty = false)
    (located : locate image base kind region = .ok placement) :
    (∃ header, Within image base header placement) ∧
      placement.kind = kind ∧ placement.region = region := by
  have positive : 0 < region.size.toNat := Region.isEmpty_eq_false_iff.1 nonempty
  simp only [locate, bind_eq_ok_iff, found_eq_ok_iff, require_eq_ok_iff] at located
  obtain ⟨stop, stopAt, _, baseLe, owner, first, lastOwner, last, _, same, header, owned,
    growth, grown, placed⟩ := located
  cases placed
  cases same
  have below : region.stop < addressSpace ∧ region.stop = stop := by
    simpa [Region.stop?] using stopAt
  obtain ⟨below, rfl⟩ := below
  obtain ⟨entry, entryAt, addressLe, -⟩ := SectionTable.exists_of_findContaining? first
  have sameHeader : entry = header := Option.some.inj (entryAt.symm.trans owned)
  subst sameHeader
  have baseLe' : base.toNat ≤ region.start.toNat := UInt64.le_iff_toNat_le.1 baseLe
  have stopOffset : region.stop - base.toNat - 1 + 1 - entry.virtualAddress.toNat =
      region.start.toNat - base.toNat - entry.virtualAddress.toNat + region.size.toNat := by
    simp only [Region.stop]
    omega
  rw [stopOffset] at grown
  refine ⟨⟨entry, ?_⟩, rfl, rfl⟩
  exact {
    owner := owned
    nonempty := positive
    below := below
    start_eq := by simp only; omega
    first := first
    last := last
    growth_eq := grown }

theorem within_of_place? {kind : RegionKind} {region : Region}
    (placed : place? image base kind region = .ok (some placement)) :
    (∃ header, Within image base header placement) ∧
      placement.kind = kind ∧ placement.region = region := by
  unfold place? at placed
  split at placed
  · cases placed
  · rename_i nonempty
    rcases located : locate image base kind region with error | found
    · rw [located] at placed
      cases placed
    · rw [located] at placed
      cases placed
      exact within_of_locate (Bool.eq_false_iff.2 nonempty) located

theorem Within.isEmpty_region (within : Within image base header placement) :
    placement.region.isEmpty = false :=
  Region.isEmpty_eq_false_iff.2 within.nonempty

/-- Whatever lies in one section is placed there. -/
theorem place?_of_within (within : Within image base header placement) :
    place? image base placement.kind placement.region = .ok (some placement) := by
  have nonempty := within.nonempty
  have start := within.start_eq
  have stopAt : placement.region.stop? = some placement.region.stop := if_pos within.below
  have baseLe : base ≤ placement.region.start := by
    rw [UInt64.le_iff_toNat_le]
    omega
  have offset : placement.region.start.toNat - base.toNat - header.virtualAddress.toNat =
      placement.offset := by omega
  have stopOffset : placement.region.stop - base.toNat - 1 + 1 - header.virtualAddress.toNat =
      placement.stop := by
    simp only [Region.stop, stop]
    omega
  have located : locate image base placement.kind placement.region = .ok placement := by
    simp only [locate, bind_eq_ok_iff, found_eq_ok_iff, require_eq_ok_iff]
    refine ⟨_, stopAt, (), baseLe, _, within.first, _, within.last, (), rfl, header, within.owner,
      placement.growth, ?_, ?_⟩
    · rw [stopOffset]
      exact within.growth_eq
    · rw [offset]
      rfl
  rw [place?, within.isEmpty_region, located]
  rfl

/-- A region that is not empty is placed with its boundaries. -/
theorem exists_of_place? {kind : RegionKind} {region : Region} {placed : Option Placement}
    (ok : place? image base kind region = .ok placed) (nonempty : region.isEmpty = false) :
    ∃ placement, placed = some placement ∧ placement.region = region := by
  cases placed with
  | none =>
    rw [place?, nonempty] at ok
    cases located : locate image base kind region with
    | error error =>
      rw [located] at ok
      cases ok
    | ok placement =>
      rw [located] at ok
      cases ok
  | some placement => exact ⟨placement, rfl, (within_of_place? ok).2.2⟩

/-- Only an empty region has no place. -/
theorem eq_none_iff_of_place? {kind : RegionKind} {region : Region} {placed : Option Placement}
    (ok : place? image base kind region = .ok placed) :
    placed = none ↔ region.size.toNat = 0 := by
  constructor
  · rintro rfl
    refine Nat.eq_zero_of_not_pos fun positive => ?_
    obtain ⟨_, contrary, -⟩ := exists_of_place? ok (Region.isEmpty_eq_false_iff.2 positive)
    cases contrary
  · intro zero
    have empty : region.isEmpty = true := by
      rw [Region.isEmpty, beq_iff_eq, ← UInt64.toNat_inj]
      exact zero
    rw [place?, empty] at ok
    exact (Except.ok.inj ok).symm

/-! ## Growing placements -/

theorem isGrowing_eq_true_iff : placement.isGrowing = true ↔ placement.kind ≠ .data := by
  unfold isGrowing
  cases placement.kind with
  | data => simp
  | bss => simp
  | staticBss => simp

theorem isGrowing_of_kind {kind : RegionKind} (eq : placement.kind = kind)
    (notData : kind ≠ .data) : placement.isGrowing = true :=
  isGrowing_eq_true_iff.2 (eq ▸ notData)

theorem growth?_of_isGrowing {stop alignment : Nat} (growing : placement.isGrowing = true) :
    growth? placement.kind header stop alignment =
      some (alignUp stop alignment - alignUp header.rawSize.toNat alignment) := by
  unfold isGrowing at growing
  unfold growth?
  split at growing
  · cases growing
  · rfl
  · rfl

/-! ## Merging -/

/-- The merged placement of two growing placements of one section lies in that
section. -/
theorem Within.merge {first second : Placement} {firstHeader secondHeader : SectionHeader}
    (within : Within image base firstHeader first)
    (within' : Within image base secondHeader second)
    (owner : first.owner = second.owner) (growing : first.isGrowing = true)
    (growing' : second.isGrowing = true) (positive : 0 < image.fileAlignment.toNat) :
    Within image base firstHeader (Plan.merge first second) := by
  have sameHeader : secondHeader = firstHeader := by
    have owned := within.owner
    rw [owner] at owned
    exact Option.some.inj (within'.owner.symm.trans owned)
  subst sameHeader
  have start := Region.toNat_start_union first.region second.region
  have stopUnion := Region.stop_union within.below within'.below
  have startFirst := within.start_eq
  have startSecond := within'.start_eq
  have nonempty := within.nonempty
  have nonempty' := within'.nonempty
  have below := within.below
  have below' := within'.below
  have stopMerge : (Plan.merge first second).stop = max first.stop second.stop := by
    simp only [stop, Plan.merge, Region.stop] at *
    omega
  refine {
    owner := within.owner
    nonempty := ?_
    below := ?_
    start_eq := ?_
    first := ?_
    last := ?_
    growth_eq := ?_ }
  · simp only [Plan.merge, Region.stop] at *
    omega
  · simp only [Plan.merge] at *
    omega
  · simp only [Plan.merge] at *
    omega
  · -- the union starts where one of the two regions does
    simp only [Plan.merge, start]
    rcases Nat.le_total first.region.start.toNat second.region.start.toNat with le | le
    · rw [Nat.min_eq_left le]
      exact within.first
    · rw [Nat.min_eq_right le, owner]
      exact within'.first
  · simp only [Plan.merge, stopUnion]
    rcases Nat.le_total first.region.stop second.region.stop with le | le
    · rw [Nat.max_eq_right le, owner]
      exact within'.last
    · rw [Nat.max_eq_left le]
      exact within.last
  · have grown := within.growth_eq
    have grown' := within'.growth_eq
    rw [growth?_of_isGrowing growing] at grown
    rw [growth?_of_isGrowing growing'] at grown'
    have mergedGrowing : (Plan.merge first second).isGrowing = true := growing
    rw [growth?_of_isGrowing mergedGrowing, stopMerge, alignUp_max positive]
    rw [Option.some.injEq] at grown grown' ⊢
    simp only [Plan.merge]
    omega

end Placement

/-! ## Plans -/

namespace Plan

variable {image : Image} {memory : MemoryImage} {options : DumpOptions} {plan : Plan}

/-- Every region of the plan has its own kind and lies in one section of the
image. -/
structure Sound (image : Image) (base : UInt64) (plan : Plan) : Prop where
  fileAlignment : plan.fileAlignment = image.fileAlignment
  imageBase : plan.imageBase = base
  outputSize : plan.outputSize = image.data.length + totalGrowth plan.bss plan.staticBss
  data : ∀ placement ∈ plan.data, placement.kind = .data ∧
    ∃ header, Placement.Within image base header placement
  bss : ∀ placement ∈ plan.bss, placement.kind = .bss ∧
    ∃ header, Placement.Within image base header placement
  staticBss : ∀ placement ∈ plan.staticBss, placement.kind = .staticBss ∧
    ∃ header, Placement.Within image base header placement

theorem sound_of_place? {base : UInt64} {kind : RegionKind} {region : Region}
    {placed : Option Placement} (ok : Placement.place? image base kind region = .ok placed) :
    ∀ placement ∈ placed, placement.kind = kind ∧
      ∃ header, Placement.Within image base header placement := by
  intro placement present
  cases present
  obtain ⟨within, kindEq, -⟩ := Placement.within_of_place? ok
  exact ⟨kindEq, within⟩

/-- The reported region of initialized data is taken if no section is named for it. -/
theorem dataRegion_of_unnamed (unnamed : options.dataSection = none) :
    dataRegion image memory options = .ok (memory.region .data) := by
  rw [dataRegion, namedSection?, unnamed]
  rfl

theorem getElem?_of_namedSection? {name : String} {index : Nat} {header : SectionHeader}
    (named : namedSection? image options = some (name, index, header)) :
    image.sections[index]? = some header := by
  simp only [namedSection?, Option.bind_eq_bind, Option.bind_eq_some_iff] at named
  obtain ⟨_, -, _, -, _, entry, ⟨⟩⟩ := named
  exact entry

theorem toNat_start_backedRegion {base : UInt64} {header : SectionHeader}
    (below : base.toNat + header.virtualAddress.toNat < addressSpace) :
    (backedRegion base header).start.toNat = base.toNat + header.virtualAddress.toNat := by
  change (base + header.virtualAddress.toUInt64).toNat = _
  rw [UInt64.toNat_add, UInt32.toNat_toUInt64]
  exact Nat.mod_eq_of_lt below

theorem toNat_size_backedRegion (base : UInt64) (header : SectionHeader) :
    (backedRegion base header).size.toNat =
      min header.virtualSize.toNat header.rawSize.toNat := by
  change (if header.virtualSize ≤ header.rawSize then _ else _ : UInt32).toUInt64.toNat = _
  rw [UInt32.toNat_toUInt64]
  split
  · rename_i le
    exact (Nat.min_eq_left (UInt32.le_iff_toNat_le.1 le)).symm
  · rename_i notLe
    rw [UInt32.le_iff_toNat_le] at notLe
    omega

/-- Two placements are merged if they overlap, and then they lie in one section. -/
theorem mergeOverlap_eq_ok_iff {bss staticBss finalBss finalStatic : Option Placement} :
    mergeOverlap bss staticBss = .ok (finalBss, finalStatic) ↔
      (∃ first second, bss = some first ∧ staticBss = some second ∧
        first.region.overlaps second.region = true ∧ first.owner = second.owner ∧
        finalBss = some (merge first second) ∧ finalStatic = none) ∨
      (∀ first ∈ bss, ∀ second ∈ staticBss, first.region.overlaps second.region = false) ∧
        finalBss = bss ∧ finalStatic = staticBss := by
  constructor
  · intro ok
    unfold mergeOverlap at ok
    split at ok
    · rename_i first second
      split at ok
      · rename_i overlaps
        split at ok
        · rename_i owner
          cases ok
          exact .inl ⟨first, second, rfl, rfl, overlaps, owner, rfl, rfl⟩
        · cases ok
      · rename_i apart
        cases ok
        refine .inr ⟨?_, rfl, rfl⟩
        rintro _ ⟨⟩ _ ⟨⟩
        exact Bool.eq_false_iff.2 apart
    · rename_i notBoth
      cases ok
      refine .inr ⟨fun first isFirst second isSecond => ?_, rfl, rfl⟩
      exact (notBoth first second isFirst isSecond).elim
  · rintro (⟨first, second, rfl, rfl, overlaps, owner, rfl, rfl⟩ |
      ⟨apart, sameBss, sameStatic⟩)
    · simp only [mergeOverlap, overlaps, owner, if_true]
    · rw [sameBss, sameStatic]
      cases bss with
      | none => rfl
      | some first =>
        cases staticBss with
        | none => rfl
        | some second =>
          simp only [mergeOverlap, apart first rfl second rfl]
          rfl

/-- The plan is made of these placements of the two regions of uninitialized data, before
they are merged. -/
structure MadeOf (image : Image) (memory : MemoryImage) (options : DumpOptions) (plan : Plan)
    (bss staticBss : Option Placement) : Prop where
  fileAlignment : plan.fileAlignment = image.fileAlignment
  imageBase : plan.imageBase = memory.imageBase
  data : ∃ region, dataRegion image memory options = .ok region ∧
    Placement.place? image memory.imageBase .data region = .ok plan.data
  bssPlaced : Placement.place? image memory.imageBase .bss (memory.region .bss) = .ok bss
  staticPlaced : Placement.place? image memory.imageBase .staticBss (memory.region .staticBss) =
    .ok staticBss
  merged : mergeOverlap bss staticBss = .ok (plan.bss, plan.staticBss)
  outputSize : plan.outputSize = image.data.length + totalGrowth plan.bss plan.staticBss

theorem analyze_eq_ok_iff :
    analyze image memory options = .ok plan ↔
      ∃ bss staticBss, plan.MadeOf image memory options bss staticBss := by
  simp only [analyze, bind_eq_ok_iff]
  constructor
  · rintro ⟨region, located, data, dataPlaced, bss, bssPlaced, staticBss, staticPlaced,
      ⟨finalBss, finalStatic⟩, merged, ⟨⟩⟩
    exact ⟨bss, staticBss, {
      fileAlignment := rfl
      imageBase := rfl
      data := ⟨region, located, dataPlaced⟩
      bssPlaced := bssPlaced
      staticPlaced := staticPlaced
      merged := merged
      outputSize := rfl }⟩
  · rintro ⟨bss, staticBss, made⟩
    obtain ⟨region, located, dataPlaced⟩ := made.data
    refine ⟨region, located, plan.data, dataPlaced, bss, made.bssPlaced, staticBss,
      made.staticPlaced, _, made.merged, ?_⟩
    rw [← made.fileAlignment, ← made.imageBase, ← made.outputSize]
    rfl

/-- Whatever planning returns is sound. -/
theorem sound_of_analyze (positive : 0 < image.fileAlignment.toNat)
    (planned : analyze image memory options = .ok plan) :
    plan.Sound image memory.imageBase := by
  obtain ⟨bss, staticBss, made⟩ := analyze_eq_ok_iff.1 planned
  obtain ⟨region, -, dataPlaced⟩ := made.data
  have bssSound := sound_of_place? made.bssPlaced
  have staticSound := sound_of_place? made.staticPlaced
  suffices h : (∀ placement ∈ plan.bss, placement.kind = .bss ∧
        ∃ header, Placement.Within image memory.imageBase header placement) ∧
      (∀ placement ∈ plan.staticBss, placement.kind = .staticBss ∧
        ∃ header, Placement.Within image memory.imageBase header placement) from
    { fileAlignment := made.fileAlignment
      imageBase := made.imageBase
      outputSize := made.outputSize
      data := sound_of_place? dataPlaced
      bss := h.1
      staticBss := h.2 }
  rcases mergeOverlap_eq_ok_iff.1 made.merged with
    ⟨first, second, rfl, rfl, -, owner, isMerged, noStatic⟩ | ⟨-, sameBss, sameStatic⟩
  · obtain ⟨firstKind, firstHeader, firstWithin⟩ := bssSound first rfl
    obtain ⟨secondKind, secondHeader, secondWithin⟩ := staticSound second rfl
    rw [isMerged, noStatic]
    refine ⟨?_, fun placement present => nomatch present⟩
    intro placement present
    cases present
    have firstGrowing := Placement.isGrowing_of_kind firstKind nofun
    have secondGrowing := Placement.isGrowing_of_kind secondKind nofun
    exact ⟨firstKind, firstHeader,
      firstWithin.merge secondWithin owner firstGrowing secondGrowing positive⟩
  · rw [sameBss, sameStatic]
    exact ⟨bssSound, staticSound⟩

theorem mem_placements {placement : Placement} :
    placement ∈ plan.placements ↔
      placement ∈ plan.data ∨ placement ∈ plan.bss ∨ placement ∈ plan.staticBss := by
  simp only [placements, List.mem_append, Option.mem_toList, Option.mem_def, or_assoc]

theorem Sound.within_of_mem {base : UInt64} (sound : plan.Sound image base)
    {placement : Placement} (mem : placement ∈ plan.placements) :
    ∃ header, Placement.Within image base header placement := by
  rcases mem_placements.1 mem with mem | mem | mem
  · exact (sound.data placement mem).2
  · exact (sound.bss placement mem).2
  · exact (sound.staticBss placement mem).2

theorem mem_placementsIn {index : Nat} {placement : Placement} :
    placement ∈ plan.placementsIn index ↔
      placement ∈ plan.placements ∧ placement.owner = index := by
  simp [placementsIn]

theorem placementsIn_eq_nil (nothing : plan.placements = []) (index : Nat) :
    plan.placementsIn index = [] := by
  rw [placementsIn, nothing]
  rfl

theorem Sound.within_of_mem_placementsIn {base : UInt64} (sound : plan.Sound image base)
    {index : Nat} {header : SectionHeader} (entry : image.sections[index]? = some header)
    {placement : Placement} (mem : placement ∈ plan.placementsIn index) :
    Placement.Within image base header placement := by
  obtain ⟨planMem, rfl⟩ := mem_placementsIn.1 mem
  obtain ⟨found, within⟩ := sound.within_of_mem planMem
  have same : found = header := Option.some.inj (within.owner.symm.trans entry)
  exact same ▸ within

end Plan
end ImageDump
