import Mathlib.Algebra.BigOperators.Group.Finset.Piecewise
import ImageDump.Proofs.Relocation

/-!
# How much the sections grow

Planning works out how much each region makes its section grow, and how large the
output will be; the copy finds out by moving its cursor. The two agree. The growth
of a section is the distance between the aligned ends of its raw data before and
after (`Plan.Sound.growthIn_eq`), the planned growth is the sum over all sections
(`Plan.Sound.totalGrowth_eq`), and a section of the copy starts where it would
without any growth, moved by the growth of the sections in front of it
(`Plan.Sound.layoutStart_eq`).

The copy departs from this only by a section whose regions have an aligned end of
`2 ^ 32`, and then it is smaller (`CopyJob.sectionStart_eq_layoutStart_iff`). So two
dumps of one image differ by their growth alone (`growth_accounting`).
-/

namespace ImageDump

open Finset (range)

/-! ## The growth of a section -/

namespace Placement

/-- The largest growth of the placements that make their section grow, and zero if
there is none. -/
def largestGrowth : List Placement → Nat
  | [] => 0
  | placement :: rest =>
    if placement.isGrowing then max placement.growth (largestGrowth rest)
    else largestGrowth rest

theorem largestGrowth_append (first second : List Placement) :
    largestGrowth (first ++ second) = max (largestGrowth first) (largestGrowth second) := by
  induction first with
  | nil => exact (Nat.zero_max _).symm
  | cons placement rest ih =>
    rw [List.cons_append, largestGrowth, largestGrowth, ih]
    split
    · exact (Nat.max_assoc _ _ _).symm
    · rfl

theorem largestGrowth_of_still {placements : List Placement}
    (still : ∀ placement ∈ placements, ¬placement.isGrowing = true) :
    largestGrowth placements = 0 := by
  induction placements with
  | nil => rfl
  | cons placement rest ih =>
    obtain ⟨first, others⟩ := List.forall_mem_cons.1 still
    rw [largestGrowth, if_neg first, ih others]

/-- The placements of a section make it grow from the aligned end of its raw data to
the aligned end of the furthest of them. -/
theorem largestGrowth_eq {image : Image} {base : UInt64} {header : SectionHeader}
    {placements : List Placement} (positive : 0 < image.fileAlignment.toNat)
    (within : ∀ placement ∈ placements, Within image base header placement) :
    largestGrowth placements =
      alignUp (furthest placements) image.fileAlignment.toNat -
        alignUp header.rawSize.toNat image.fileAlignment.toNat := by
  induction placements with
  | nil => rw [largestGrowth, furthest, alignUp_zero, Nat.zero_sub]
  | cons placement rest ih =>
    obtain ⟨first, others⟩ := List.forall_mem_cons.1 within
    have restGrowth := ih others
    rw [largestGrowth, furthest]
    by_cases growing : placement.isGrowing = true
    · have growth := first.growth_eq
      rw [growth?_of_isGrowing growing, Option.some.injEq] at growth
      rw [if_pos growing, if_pos growing, alignUp_max positive, restGrowth, ← growth]
      omega
    · rw [if_neg growing, if_neg growing, restGrowth]

/-- The growth of a region as far as it is in the section at an index. -/
def growthAt (placed : Option Placement) (index : Nat) : Nat :=
  match placed with
  | some placement => if placement.owner = index then placement.growth else 0
  | none => 0

theorem largestGrowth_filter {placed : Option Placement} {index : Nat}
    (growing : ∀ placement ∈ placed, placement.isGrowing = true) :
    largestGrowth (placed.toList.filter (·.owner == index)) = growthAt placed index := by
  cases placed with
  | none => rfl
  | some placement =>
    have grows := growing placement rfl
    by_cases owner : placement.owner = index
    · simp [largestGrowth, growthAt, owner, grows]
    · simp [largestGrowth, growthAt, owner]

theorem growthAt_none (index : Nat) : growthAt none index = 0 := rfl

/-- Two regions of one section count as the one that needs more. -/
theorem max_growthAt_of_owner_eq {first second : Placement} (same : first.owner = second.owner)
    (index : Nat) :
    max (growthAt (some first) index) (growthAt (some second) index) =
      if first.owner = index then max first.growth second.growth else 0 := by
  rw [growthAt, growthAt, ← same]
  split
  · rfl
  · exact Nat.max_self 0

/-- Two regions of different sections never count for the same section. -/
theorem max_growthAt_of_owner_ne {first second : Placement} (ne : first.owner ≠ second.owner)
    (index : Nat) :
    max (growthAt (some first) index) (growthAt (some second) index) =
      growthAt (some first) index + growthAt (some second) index := by
  rw [growthAt, growthAt]
  by_cases here : first.owner = index
  · rw [if_pos here, if_neg fun there => ne (here.trans there.symm), Nat.max_zero, Nat.add_zero]
  · rw [if_neg here, Nat.zero_max, Nat.zero_add]

theorem sum_growthAt {placed : Option Placement} {count : Nat}
    (inRange : ∀ placement ∈ placed, placement.owner < count) :
    ∑ index ∈ range count, growthAt placed index = (placed.map (·.growth)).getD 0 := by
  cases placed with
  | none => exact Finset.sum_const_zero
  | some placement =>
    have owner := inRange placement rfl
    simp [growthAt, Finset.sum_ite_eq, owner]

end Placement

/-! ## The growth of a plan -/

namespace Plan

open Placement (growthAt)

/-- How much a section grows: as much as the region that needs most. -/
def growthIn (plan : Plan) (index : Nat) : Nat :=
  Placement.largestGrowth (plan.placementsIn index)

variable {image : Image} {base : UInt64} {plan : Plan} {index : Nat} {header : SectionHeader}

/-- A section grows from the aligned end of its raw data to the aligned end of its
regions. -/
theorem Sound.growthIn_eq (sound : plan.Sound image base)
    (positive : 0 < image.fileAlignment.toNat) (entry : image.sections[index]? = some header) :
    plan.growthIn index = alignUp (plan.reach index) image.fileAlignment.toNat -
      alignUp header.rawSize.toNat image.fileAlignment.toNat :=
  Placement.largestGrowth_eq positive fun _ mem => sound.within_of_mem_placementsIn entry mem

theorem Sound.alignUp_max_reach (sound : plan.Sound image base)
    (positive : 0 < image.fileAlignment.toNat) (entry : image.sections[index]? = some header) :
    alignUp (max header.rawSize.toNat (plan.reach index)) image.fileAlignment.toNat =
      alignUp header.rawSize.toNat image.fileAlignment.toNat + plan.growthIn index := by
  rw [sound.growthIn_eq positive entry, alignUp_max positive]
  omega

theorem Sound.isGrowing_bss (sound : plan.Sound image base) :
    ∀ placement ∈ plan.bss, placement.isGrowing = true := by
  intro placement present
  exact Placement.isGrowing_of_kind (sound.bss placement present).1 nofun

theorem Sound.isGrowing_staticBss (sound : plan.Sound image base) :
    ∀ placement ∈ plan.staticBss, placement.isGrowing = true := by
  intro placement present
  exact Placement.isGrowing_of_kind (sound.staticBss placement present).1 nofun

/-- Only the two regions of uninitialized data count for the growth of a section. -/
theorem Sound.growthIn_eq_max (sound : plan.Sound image base) (index : Nat) :
    plan.growthIn index = max (growthAt plan.bss index) (growthAt plan.staticBss index) := by
  rw [growthIn, placementsIn_eq_append, Placement.largestGrowth_append,
    Placement.largestGrowth_of_still sound.still_data, Nat.zero_max, growingIn,
    List.filter_append, Placement.largestGrowth_append,
    Placement.largestGrowth_filter sound.isGrowing_bss,
    Placement.largestGrowth_filter sound.isGrowing_staticBss]

theorem Sound.owner_lt (sound : plan.Sound image base) {placement : Placement}
    (mem : placement ∈ plan.placements) : placement.owner < image.sections.length := by
  obtain ⟨found, within⟩ := sound.within_of_mem mem
  exact (List.getElem?_eq_some_iff.1 within.owner).1

/-- The planned growth is the growth of all sections. -/
theorem Sound.totalGrowth_eq (sound : plan.Sound image base) :
    totalGrowth plan.bss plan.staticBss =
      ∑ index ∈ range image.sections.length, plan.growthIn index := by
  have bssInRange : ∀ placement ∈ plan.bss, placement.owner < image.sections.length :=
    fun _ present => sound.owner_lt (mem_placements.2 (.inr (.inl present)))
  have staticInRange : ∀ placement ∈ plan.staticBss, placement.owner < image.sections.length :=
    fun _ present => sound.owner_lt (mem_placements.2 (.inr (.inr present)))
  have bssTotal := Placement.sum_growthAt bssInRange
  have staticTotal := Placement.sum_growthAt staticInRange
  simp only [sound.growthIn_eq_max]
  cases first : plan.bss with
  | none =>
    simp only [Placement.growthAt_none, Nat.zero_max, staticTotal]
    cases plan.staticBss <;> rfl
  | some one =>
    cases second : plan.staticBss with
    | none =>
      rw [first] at bssTotal
      simp only [Placement.growthAt_none, Nat.max_zero, bssTotal]
      rfl
    | some two =>
      rw [first] at bssTotal
      rw [second] at staticTotal
      have oneInRange := bssInRange one first
      simp only [totalGrowth]
      split
      · rename_i same
        simp only [Placement.max_growthAt_of_owner_eq same]
        rw [Finset.sum_ite_eq, if_pos (Finset.mem_range.2 oneInRange)]
      · rename_i ne
        simp only [Placement.max_growthAt_of_owner_ne ne, Finset.sum_add_distrib, bssTotal,
          staticTotal]
        rfl

end Plan

/-! ## Where sections start -/

/-- Where a section of the copy would start if no section grew. -/
def Image.ungrownStart (image : Image) : Nat → Nat
  | 0 => alignUp image.offsets.sectionsEnd image.fileAlignment.toNat
  | index + 1 =>
    let rawSize := (image.sections[index]?.map (·.rawSize.toNat)).getD 0
    image.ungrownStart index + alignUp rawSize image.fileAlignment.toNat

theorem Image.ungrownStart_succ {image : Image} {index : Nat} {header : SectionHeader}
    (entry : image.sections[index]? = some header) :
    image.ungrownStart (index + 1) =
      image.ungrownStart index + alignUp header.rawSize.toNat image.fileAlignment.toNat := by
  rw [ungrownStart, entry]
  rfl

namespace Plan

variable {image : Image} {base : UInt64} {plan : Plan} {index : Nat} {header : SectionHeader}

theorem layoutStart_le {first last : Nat} (le : first ≤ last) :
    plan.layoutStart image first ≤ plan.layoutStart image last := by
  induction le with
  | refl => exact Nat.le_refl _
  | step _ ih => exact Nat.le_trans ih (Nat.le_add_right _ _)

/-- The layout moves each section by the growth of the sections in front of it. -/
theorem Sound.layoutStart_eq (sound : plan.Sound image base)
    (positive : 0 < image.fileAlignment.toNat) (le : index ≤ image.sections.length) :
    plan.layoutStart image index =
      image.ungrownStart index + ∑ earlier ∈ range index, plan.growthIn earlier := by
  induction index with
  | zero =>
    rw [layoutStart, Image.ungrownStart, sound.fileAlignment, Finset.range_zero, Finset.sum_empty,
      Nat.add_zero]
  | succ index ih =>
    have entry := List.getElem?_eq_getElem (l := image.sections) le
    rw [layoutStart_succ entry, Image.ungrownStart_succ entry, Finset.sum_range_succ,
      sound.fileAlignment, sound.alignUp_max_reach positive entry, ih (Nat.le_of_succ_le le)]
    omega

end Plan

namespace CopyJob

variable {job : CopyJob} {index : Nat} {entry : SectionHeader}

/-- No section of the copy starts behind its place in the layout. -/
theorem sectionStart_le_layoutStart (planned : job.Planned) (le : index ≤ job.count) :
    job.sectionStart index ≤ job.plan.layoutStart job.source index := by
  have start : job.sectionStart 0 = job.plan.layoutStart job.source 0 := rfl
  have behind := sectionStart_add_layoutStart_le planned (Nat.zero_le index) le
  omega

theorem layoutStart_eq (planned : job.Planned) (le : index ≤ job.count) :
    job.plan.layoutStart job.source index =
      job.source.ungrownStart index + ∑ earlier ∈ range index, job.plan.growthIn earlier :=
  planned.sound.layoutStart_eq (alignment_eq planned ▸ planned.positive) le

/-- If nothing is stored, the raw data of a section keeps its size. -/
theorem storedSize_eq_of_nothing (nothing : job.plan.placements = [])
    (sourceEntry : job.source.sections[index]? = some entry) :
    job.storedSize index = entry.rawSize.toNat := by
  rw [storedSize_of_getElem? sourceEntry, Plan.placementsIn_eq_nil nothing]
  rfl

/-- If nothing is stored, no section grows. -/
theorem sectionStart_eq_ungrownStart (planned : job.Planned) (nothing : job.plan.placements = [])
    (le : index ≤ job.count) : job.sectionStart index = job.source.ungrownStart index := by
  have alignment := alignment_eq planned
  induction index with
  | zero => rw [sectionStart, alignment, Image.ungrownStart]
  | succ index ih =>
    have sourceEntry := List.getElem?_eq_getElem (l := job.source.sections) le
    rw [sectionStart, ih (Nat.le_of_succ_le le), storedSize_eq_of_nothing nothing sourceEntry,
      alignment, Image.ungrownStart_succ sourceEntry]

/-- The planned size of a copy grows by as much as its layout. -/
theorem outputSize_add_ungrownStart (planned : job.Planned) :
    job.plan.outputSize + job.source.ungrownStart job.count =
      job.source.data.length + job.plan.layoutStart job.source job.count := by
  rw [planned.sound.outputSize, planned.sound.totalGrowth_eq,
    layoutStart_eq planned (Nat.le_refl _)]
  exact (Nat.add_right_comm _ _ _).trans (Nat.add_assoc _ _ _)

end CopyJob

/-! ## The growth of a copy -/

/-- How much larger a copy of the image is than it was planned to be. The plan takes
the source as it is; the copy drops what lies between the raw data of the sections
and rounds up each of them. -/
def Image.surplus (image : Image) : ℤ :=
  image.ungrownStart image.sections.length +
      (image.data.length - CopyJob.trailerOffset image image.fileAlignment.toNat : ℕ) -
    image.data.length

namespace CopyJob

variable {job : CopyJob} {index : Nat} {entry : SectionHeader}

theorem copiedSize_eq_iff (planned : job.Planned) (small : job.copiedSize < 2 ^ 32) :
    (job.copiedSize : ℤ) = job.plan.outputSize + job.source.surplus ↔
      ∀ index < job.count, job.Fits index := by
  have startSmall := Nat.lt_of_le_of_lt (Nat.le_add_right _ _) small
  have planSize := outputSize_add_ungrownStart planned
  have trailer : job.trailerSize =
      job.source.data.length - trailerOffset job.source job.source.fileAlignment.toNat := by
    rw [trailerSize, alignment_eq planned]
  rw [← sectionStart_eq_layoutStart_iff planned startSmall (Nat.le_refl _), copiedSize, trailer,
    Image.surplus]
  unfold count at planSize ⊢
  omega

theorem rawPointer_destination_eq_iff (planned : job.Planned)
    (small : job.sectionStart job.count < 2 ^ 32) (le : index ≤ job.count)
    (raw : entry.hasRawData = true) :
    (job.destination index entry).rawPointer.toNat =
        job.source.ungrownStart index + ∑ earlier ∈ range index, job.plan.growthIn earlier ↔
      ∀ earlier < index, job.Fits earlier := by
  rw [rawPointer_destination_of_source small le raw, ← layoutStart_eq planned le]
  exact sectionStart_eq_layoutStart_iff planned small le

end CopyJob

/-- **Growth accounting.** A copy of an image that stays below `2 ^ 32` bytes differs
from the size that was planned for it by a constant of the image, and each of its
sections with raw data in the source starts at a constant of the image, moved by the
growth of the sections in front of it, exactly if the aligned ends of the regions
that count for it fit into 32 bits. -/
theorem growth_accounting {data : Bytes} {image : Image}
    (parsed : Image.parse data = .ok image) :
    ∃ (surplus : ℤ) (start : ℕ → ℕ),
      ∀ (memory : MemoryImage) (options : DumpOptions) (plan : Plan) (output : Buffer)
        (copied : CopyState),
        memory.Exact → Plan.analyze image memory options = .ok plan →
        CopyJob.run { source := image, memory, plan } output = .ok copied →
        copied.cursor.position < 2 ^ 32 →
        ((copied.cursor.position : ℤ) = plan.outputSize + surplus ↔
          ∀ index < image.sections.length,
            alignUp (plan.reach index) plan.fileAlignment.toNat < 2 ^ 32) ∧
        ∀ index entry header, image.sections[index]? = some entry →
          copied.headers.sections[index]? = some header → entry.hasRawData = true →
          (header.rawPointer.toNat =
              start index + ∑ earlier ∈ range index, plan.growthIn earlier ↔
            ∀ earlier < index,
              alignUp (plan.reach earlier) plan.fileAlignment.toNat < 2 ^ 32) := by
  have data := Image.data_of_parse parsed
  subst data
  refine ⟨image.surplus, image.ungrownStart, ?_⟩
  intro memory options plan output copied exact analyzed ran small
  have planned := CopyJob.planned_of_analyze exact parsed analyzed
  obtain ⟨-, rfl⟩ := (CopyJob.run_eq_ok_iff planned).1 ran
  refine ⟨CopyJob.copiedSize_eq_iff planned small, ?_⟩
  intro index entry header sourceEntry copiedEntry raw
  have startSmall := Nat.lt_of_le_of_lt (Nat.le_add_right _ _) small
  have inRange : index < image.sections.length := (List.getElem?_eq_some_iff.1 sourceEntry).1
  cases CopyJob.eq_destination sourceEntry copiedEntry
  exact CopyJob.rawPointer_destination_eq_iff planned startSmall (Nat.le_of_lt inRange) raw

/-- Memory without regions. -/
def idleMemory : Snapshot := { imageBase := 0x400000 }

/-- The plan to store nothing in `layeredImage`. -/
def idlePlan : Plan :=
  (Plan.analyze layeredSource idleMemory.toMemoryImage plainOptions).toOption.get
    (by decide +kernel)

theorem analyze_idleMemory :
    Plan.analyze layeredSource idleMemory.toMemoryImage plainOptions = .ok idlePlan :=
  eq_ok_get _

/-- Two sections grow by sixteen bytes each. The copy is larger by thirty-two bytes
than one in which nothing grows, and its last section starts as much later. -/
theorem growth_layeredMemory : ∃ idle grown,
    CopyJob.run {
      source := layeredSource, memory := idleMemory.toMemoryImage, plan := idlePlan }
      (Buffer.zeros idlePlan.outputSize) = .ok idle ∧
    CopyJob.run {
      source := layeredSource, memory := layeredMemory.toMemoryImage, plan := layeredPlan }
      (Buffer.zeros layeredPlan.outputSize) = .ok grown ∧
    grown.cursor.position = idle.cursor.position + 32 ∧
    ∃ idleHeader grownHeader, idle.headers.sections[2]? = some idleHeader ∧
      grown.headers.sections[2]? = some grownHeader ∧
      grownHeader.rawPointer.toNat = idleHeader.rawPointer.toNat + 32 := by
  obtain ⟨surplus, start, accounting⟩ := growth_accounting parse_layeredImage
  obtain ⟨idle, idleRan, idleSmall, idleLast⟩ : ∃ idle,
      CopyJob.run {
        source := layeredSource, memory := idleMemory.toMemoryImage, plan := idlePlan }
        (Buffer.zeros idlePlan.outputSize) = .ok idle ∧
      idle.cursor.position < 2 ^ 32 ∧ 2 < idle.headers.sections.length :=
    ⟨_, eq_ok_get (by decide +kernel), by decide +kernel, by decide +kernel⟩
  have grownSmall : layeredCopy.cursor.position < 2 ^ 32 := by decide +kernel
  have grownLast : 2 < layeredCopy.headers.sections.length := by decide +kernel
  obtain ⟨idleSize, idleStarts⟩ := accounting _ _ _ _ _ idleMemory.exact_toMemoryImage
    analyze_idleMemory idleRan idleSmall
  obtain ⟨grownSize, grownStarts⟩ := accounting _ _ _ _ _ layeredMemory.exact_toMemoryImage
    analyze_layeredMemory run_layeredMemory grownSmall
  refine ⟨idle, layeredCopy, idleRan, run_layeredMemory, ?_, _, _, List.getElem?_eq_getElem idleLast,
    List.getElem?_eq_getElem grownLast, ?_⟩
  · have planned : layeredPlan.outputSize = idlePlan.outputSize + 32 := by decide +kernel
    have idleTotal := idleSize.2 (by decide +kernel)
    have grownTotal := grownSize.2 (by decide +kernel)
    omega
  · have entry : layeredSource.sections[2]? = some (pageSection 0x3000 352 16) := by
      decide +kernel
    have idleStart := (idleStarts 2 _ _ entry (List.getElem?_eq_getElem idleLast) rfl).2
      (by decide +kernel)
    have grownStart := (grownStarts 2 _ _ entry (List.getElem?_eq_getElem grownLast) rfl).2
      (by decide +kernel)
    have idleGrowth : ∑ earlier ∈ range 2, idlePlan.growthIn earlier = 0 := by decide +kernel
    have grownGrowth : ∑ earlier ∈ range 2, layeredPlan.growthIn earlier = 32 := by
      decide +kernel
    rw [idleStart, grownStart, idleGrowth, grownGrowth]

/-- No constant accounts for the growth of every copy: `growingMemory` is stored in
as many bytes as were planned, `overflowingMemory` in far fewer. -/
theorem no_surplus_overflowingMemory :
    Image.parse wideImage = .ok wideSource ∧
      ¬∃ surplus : ℤ, ∀ (memory : MemoryImage) (options : DumpOptions) (plan : Plan)
        (output : Buffer) (copied : CopyState),
        memory.Exact → Plan.analyze wideSource memory options = .ok plan →
        CopyJob.run { source := wideSource, memory, plan } output = .ok copied →
        copied.cursor.position < 2 ^ 32 →
        (copied.cursor.position : ℤ) = plan.outputSize + surplus := by
  refine ⟨parse_wideImage, ?_⟩
  rintro ⟨surplus, accounting⟩
  obtain ⟨grown, grownRan, grownSize⟩ : ∃ grown,
      CopyJob.run {
        source := wideSource, memory := growingMemory.toMemoryImage, plan := growingPlan }
        (Buffer.zeros growingPlan.outputSize) = .ok grown ∧
      grown.cursor.position = growingPlan.outputSize :=
    ⟨_, eq_ok_get (by decide +kernel), by decide +kernel⟩
  have cutSize : overflowingCopy.cursor.position < overflowingPlan.outputSize := by
    decide +kernel
  have cutSmall : overflowingCopy.cursor.position < 2 ^ 32 := by decide +kernel
  have small : growingPlan.outputSize < 2 ^ 32 := by decide +kernel
  have grownTotal := accounting _ _ _ _ _ growingMemory.exact_toMemoryImage
    analyze_growingMemory grownRan (grownSize ▸ small)
  have cutTotal := accounting _ _ _ _ _ overflowingMemory.exact_toMemoryImage
    analyze_overflowingMemory run_overflowingMemory cutSmall
  omega

end ImageDump
