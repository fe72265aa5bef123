import ImageDump.Proofs.Growth

/-!
# Packed images

A packed image has no gaps. Its raw data starts at the aligned end of its headers,
each section with raw data starts at the aligned end of the one before it, and the
image reaches at least to the aligned end of the last. A copy rounds up in the same
places, so that a packed image in which nothing grows is copied to where it was.

The size that is planned for the copy of a packed image is therefore large enough
for every write of the copy, and it is the size of the copy (`run_packed`). There is
one exception. If two regions of a section end up in it, and the aligned end of the
first is `2 ^ 32`, then the second may end the section early (`Plan.CutsShort`), and
the copy is smaller than planned.
-/

namespace ImageDump

open Finset (range)

/-! ## Images without gaps -/

namespace Image

variable {image : Image} {index : Nat}

/-- There are no gaps between the headers and the sections of the image, nor in front
of what follows them. -/
structure Packed (image : Image) : Prop where
  /-- The raw data of a section starts at the aligned end of what is in front of it. -/
  starts : ∀ (index : Nat) (inRange : index < image.sections.length),
    image.sections[index].hasRawData = true →
    image.sections[index].rawPointer.toNat =
      SectionTable.tailStart (image.sections.take index)
        (alignUp image.offsets.sectionsEnd image.fileAlignment.toNat)
        image.fileAlignment.toNat
  strayFree : SectionTable.NoStraySizes image.sections
  /-- The image reaches to the aligned end of its raw data. -/
  reaches : image.sections.tailStart
    (alignUp image.offsets.sectionsEnd image.fileAlignment.toNat)
    image.fileAlignment.toNat ≤ image.data.length

theorem ungrownStart_le {first last : Nat} (le : first ≤ last) :
    image.ungrownStart first ≤ image.ungrownStart last := by
  induction le with
  | refl => exact Nat.le_refl _
  | step _ ih => exact Nat.le_trans ih (Nat.le_add_right _ _)

theorem dvd_ungrownStart (positive : 0 < image.fileAlignment.toNat) (index : Nat) :
    image.fileAlignment.toNat ∣ image.ungrownStart index := by
  induction index with
  | zero => exact dvd_alignUp positive
  | succ index ih => exact Nat.dvd_add ih (dvd_alignUp positive)

/-- In a packed image the first sections end where the next one would start if
nothing grew. -/
theorem Packed.tailStart_take (packed : image.Packed)
    (positive : 0 < image.fileAlignment.toNat) (le : index ≤ image.sections.length) :
    SectionTable.tailStart (image.sections.take index)
        (alignUp image.offsets.sectionsEnd image.fileAlignment.toNat)
        image.fileAlignment.toNat =
      image.ungrownStart index := by
  refine SectionTable.tailStart_take rfl (fun _ _ => ungrownStart_succ)
    (dvd_ungrownStart positive) packed.strayFree ?_ le
  intro index header entry raw before
  obtain ⟨inRange, rfl⟩ := List.getElem?_eq_some_iff.1 entry
  exact (packed.starts index inRange raw).trans before

theorem Packed.rawPointer_eq (packed : image.Packed)
    (positive : 0 < image.fileAlignment.toNat) {header : SectionHeader}
    (entry : image.sections[index]? = some header) (raw : header.hasRawData = true) :
    header.rawPointer.toNat = image.ungrownStart index := by
  obtain ⟨inRange, rfl⟩ := List.getElem?_eq_some_iff.1 entry
  rw [packed.starts index inRange raw, packed.tailStart_take positive (Nat.le_of_lt inRange)]

theorem Packed.tailStart_eq (packed : image.Packed)
    (positive : 0 < image.fileAlignment.toNat) :
    image.sections.tailStart (alignUp image.offsets.sectionsEnd image.fileAlignment.toNat)
        image.fileAlignment.toNat =
      image.ungrownStart image.sections.length := by
  rw [← packed.tailStart_take positive (Nat.le_refl _), List.take_length]

/-- A packed image reaches to where its sections would end if nothing grew. -/
theorem Packed.ungrownStart_le_length (packed : image.Packed)
    (positive : 0 < image.fileAlignment.toNat) :
    image.ungrownStart image.sections.length ≤ image.data.length :=
  packed.tailStart_eq positive ▸ packed.reaches

end Image

/-! ## Sections that are cut short -/

namespace Plan

variable {plan : Plan} {index : Nat}

/-- The section is cut short. Its first region ends at `2 ^ 32` once aligned, where the
size of the raw data is stored as zero, and its second region ends before that. -/
def CutsShort (plan : Plan) (index : Nat) : Prop :=
  ∃ first ∈ plan.bss, ∃ second ∈ plan.staticBss,
    first.owner = index ∧ second.owner = index ∧
      2 ^ 32 ≤ alignUp first.stop plan.fileAlignment.toNat ∧
      alignUp second.stop plan.fileAlignment.toNat < 2 ^ 32

theorem cutsShort_iff {first second : Placement} (isFirst : first ∈ plan.bss)
    (isSecond : second ∈ plan.staticBss) (firstHere : first.owner = index)
    (secondHere : second.owner = index) :
    plan.CutsShort index ↔ 2 ^ 32 ≤ alignUp first.stop plan.fileAlignment.toNat ∧
      alignUp second.stop plan.fileAlignment.toNat < 2 ^ 32 := by
  constructor
  · intro cut
    rcases cut with ⟨_, isFirst', _, isSecond', -, -, bounds⟩
    cases isFirst.symm.trans isFirst'
    cases isSecond.symm.trans isSecond'
    exact bounds
  · intro bounds
    exact ⟨first, isFirst, second, isSecond, firstHere, secondHere, bounds⟩

/-- A section has two growing regions or at most one. -/
theorem growingIn_cases (plan : Plan) (index : Nat) :
    (∃ first ∈ plan.bss, ∃ second ∈ plan.staticBss, first.owner = index ∧
        second.owner = index ∧ plan.growingIn index = [first, second]) ∨
      (∀ first ∈ plan.bss, ∀ second ∈ plan.staticBss, first.owner = index →
        second.owner ≠ index) ∧ (plan.growingIn index).length ≤ 1 := by
  unfold growingIn
  cases plan.bss with
  | none =>
    refine .inr ⟨nofun, Nat.le_trans (List.length_filter_le _ _) ?_⟩
    exact Option.length_toList_le
  | some first =>
    cases plan.staticBss with
    | none =>
      refine .inr ⟨fun _ _ => nofun, Nat.le_trans (List.length_filter_le _ _) ?_⟩
      exact Nat.le_refl 1
    | some second =>
      by_cases firstHere : first.owner = index
      · by_cases secondHere : second.owner = index
        · exact .inl ⟨first, rfl, second, rfl, firstHere, secondHere,
            by simp [firstHere, secondHere]⟩
        · exact .inr ⟨by simp [secondHere], by simp [firstHere, secondHere]⟩
      · refine .inr ⟨by simp [firstHere], ?_⟩
        rw [Option.toList_some, Option.toList_some, List.singleton_append,
          List.filter_cons_of_neg (by simp [firstHere])]
        exact List.length_filter_le _ _

end Plan

/-- Storing two regions in a section of `size` bytes leaves room for both, unless the
first has an aligned end of `2 ^ 32` and the second has not. -/
theorem alignUp_resize_twice_iff {first second size alignment : Nat} (positive : 0 < alignment)
    (divides : alignment ∣ 2 ^ 32) (sizeLt : size < 2 ^ 32) (firstLe : first ≤ 2 ^ 32)
    (secondLe : second ≤ 2 ^ 32) :
    alignUp (max (alignUp second alignment) (max (alignUp first alignment) size % 2 ^ 32))
        alignment = alignUp (max size (max first second)) alignment ↔
      ¬(2 ^ 32 ≤ alignUp first alignment ∧ alignUp second alignment < 2 ^ 32) := by
  have firstBound := alignUp_le_of_dvd positive firstLe divides
  have secondBound := alignUp_le_of_dvd positive secondLe divides
  have sizeBound := alignUp_le_of_dvd positive (Nat.le_of_lt sizeLt) divides
  simp only [alignUp_max positive, alignUp_alignUp positive]
  rcases Nat.eq_or_lt_of_le firstBound with whole | less
  · -- the section counts as empty when the second region is stored
    rw [whole, Nat.max_eq_left (Nat.le_of_lt sizeLt), Nat.mod_self, alignUp_zero]
    omega
  · rw [Nat.mod_eq_of_lt (Nat.max_lt.2 ⟨less, sizeLt⟩), alignUp_max positive,
      alignUp_alignUp positive]
    omega

namespace CopyJob

open Placement (furthest resize)

variable {job : CopyJob} {index : Nat} {entry : SectionHeader}

/-- A section takes up all the room that its raw data and its regions need, unless it
is cut short. -/
theorem alignUp_storedSize_eq_iff (planned : job.Planned) (divides : job.alignment ∣ 2 ^ 32)
    (sourceEntry : job.source.sections[index]? = some entry) :
    alignUp (job.storedSize index) job.alignment =
        alignUp (max entry.rawSize.toNat (job.plan.reach index)) job.alignment ↔
      ¬job.plan.CutsShort index := by
  have positive := planned.positive
  have rawSizeLt := entry.rawSize.toNat_lt
  have stored : job.storedSize index =
      (job.plan.growingIn index).foldl (resize job.alignment) entry.rawSize.toNat := by
    rw [storedSize, rawSize, sourceEntry]
    exact planned.sound.storedSize_eq_foldl rawSizeLt
  have reach := planned.sound.reach_eq_furthest index
  rcases job.plan.growingIn_cases index with
    ⟨first, isFirst, second, isSecond, firstHere, secondHere, two⟩ | ⟨notBoth, alone⟩
  · -- the second region is stored over what the first made of the section
    have firstGrowing := planned.sound.isGrowing_bss first isFirst
    have secondGrowing := planned.sound.isGrowing_staticBss second isSecond
    have firstMem := Plan.mem_placements.2 (.inr (.inl isFirst))
    have secondMem := Plan.mem_placements.2 (.inr (.inr isSecond))
    have cuts : job.plan.CutsShort index ↔ 2 ^ 32 ≤ alignUp first.stop job.alignment ∧
        alignUp second.stop job.alignment < 2 ^ 32 :=
      Plan.cutsShort_iff isFirst isSecond firstHere secondHere
    have firstSize : first.resize job.alignment entry.rawSize.toNat =
        max (alignUp first.stop job.alignment) entry.rawSize.toNat := by
      rw [resize, if_pos firstGrowing, Nat.mod_eq_of_lt rawSizeLt]
    rw [cuts, stored, reach, two, List.foldl_cons, List.foldl_cons, List.foldl_nil, firstSize,
      resize, if_pos secondGrowing, furthest, if_pos firstGrowing, furthest,
      if_pos secondGrowing, furthest, Nat.max_zero]
    exact alignUp_resize_twice_iff positive divides rawSizeLt
      (stop_le_two_pow planned firstMem) (stop_le_two_pow planned secondMem)
  · -- nothing follows the only region of the section
    have whole : ¬job.plan.CutsShort index := by
      intro cut
      rcases cut with ⟨first, isFirst, second, isSecond, firstHere, secondHere, -⟩
      exact notBoth first isFirst second isSecond firstHere secondHere
    refine iff_of_true (Nat.le_antisymm (alignUp_storedSize_le planned sourceEntry) ?_) whole
    have rawLe : entry.rawSize.toNat ≤ job.storedSize index :=
      stored ▸ Placement.le_foldl_resize rawSizeLt alone
    have reachLe : alignUp (job.plan.reach index) job.alignment ≤ job.storedSize index := by
      rw [stored, reach]
      exact Placement.alignUp_furthest_le_foldl alone
    rw [alignUp_max positive]
    exact Nat.max_le.2 ⟨alignUp_mono positive rawLe, Nat.le_trans reachLe (le_alignUp positive)⟩

/-- A section starts at its place in the layout exactly if no section in front of it
is cut short. -/
theorem sectionStart_eq_layoutStart_iff_cutsShort (planned : job.Planned)
    (divides : job.alignment ∣ 2 ^ 32) (le : index ≤ job.count) :
    job.sectionStart index = job.plan.layoutStart job.source index ↔
      ∀ earlier < index, ¬job.plan.CutsShort earlier := by
  induction index with
  | zero => exact iff_of_true rfl nofun
  | succ index ih =>
    have sourceEntry := List.getElem?_eq_getElem (l := job.source.sections) le
    have start := sectionStart_le_layoutStart planned (Nat.le_of_succ_le le)
    have size := alignUp_storedSize_le planned sourceEntry
    rw [Nat.forall_lt_succ_right, ← ih (Nat.le_of_succ_le le),
      ← alignUp_storedSize_eq_iff planned divides sourceEntry, sectionStart,
      Plan.layoutStart_succ sourceEntry]
    unfold alignment at size ⊢
    omega

/-! ## Copies of packed images -/

theorem trailerOffset_of_packed (planned : job.Planned) (packed : job.source.Packed) :
    trailerOffset job.source job.alignment = job.source.ungrownStart job.count := by
  rw [trailerOffset_eq, sectionStart, alignment_eq planned]
  exact packed.tailStart_eq (alignment_eq planned ▸ planned.positive)

/-- What was planned for the copy of a packed image is the layout and the trailer. -/
theorem outputSize_of_packed (planned : job.Planned) (packed : job.source.Packed) :
    job.plan.outputSize = job.plan.layoutStart job.source job.count + job.trailerSize := by
  have positive : 0 < job.source.fileAlignment.toNat := alignment_eq planned ▸ planned.positive
  have size := outputSize_add_ungrownStart planned
  have reaches : job.source.ungrownStart job.count ≤ job.source.data.length :=
    packed.ungrownStart_le_length positive
  rw [trailerSize, trailerOffset_of_packed planned packed]
  omega

/-- A section needs no more room than the layout gives it. -/
theorem sectionStart_add_max_le (planned : job.Planned)
    (sourceEntry : job.source.sections[index]? = some entry) :
    job.sectionStart index + max entry.rawSize.toNat (job.plan.reach index) ≤
      job.plan.layoutStart job.source job.count := by
  have inRange : index < job.count := (List.getElem?_eq_some_iff.1 sourceEntry).1
  calc job.sectionStart index + max entry.rawSize.toNat (job.plan.reach index)
      ≤ job.plan.layoutStart job.source index +
          alignUp (max entry.rawSize.toNat (job.plan.reach index)) job.alignment :=
        Nat.add_le_add (sectionStart_le_layoutStart planned (Nat.le_of_lt inRange))
          (le_alignUp planned.positive)
    _ = job.plan.layoutStart job.source (index + 1) := (Plan.layoutStart_succ sourceEntry).symm
    _ ≤ job.plan.layoutStart job.source job.count := Plan.layoutStart_le inRange

/-- Every write of the copy of a packed image fits into the planned size. -/
theorem runnable_of_packed (planned : job.Planned)
    (parsed : Image.parse job.source.data = .ok job.source) (packed : job.source.Packed)
    (available : ∀ placement ∈ job.plan.placements,
      (job.memory.read placement.region).isSome = true) :
    job.Runnable job.plan.outputSize := by
  have size := outputSize_of_packed planned packed
  have headersLe : job.source.offsets.sectionsEnd ≤ job.sectionStart 0 :=
    le_alignUp planned.positive
  constructor
  case headersInside =>
    have reaches := packed.ungrownStart_le_length (alignment_eq planned ▸ planned.positive)
    rw [sectionStart, alignment_eq planned] at headersLe
    exact Nat.le_trans headersLe
      (Nat.le_trans (Image.ungrownStart_le (Nat.zero_le _)) reaches)
  case headersFit =>
    have start : job.sectionStart 0 ≤ job.plan.layoutStart job.source job.count :=
      Plan.layoutStart_le (Nat.zero_le _)
    omega
  case sections =>
    intro index entry sourceEntry
    have mem := List.mem_of_getElem? sourceEntry
    have room := sectionStart_add_max_le planned sourceEntry
    refine ⟨?_, by omega, fun placement placed => ⟨?_, ?_⟩⟩
    · cases raw : entry.hasRawData with
      | true => exact Image.rawEnd_le_of_parse parsed mem raw
      | false =>
        rw [packed.strayFree.rawEnd_eq_zero mem raw]
        exact Nat.zero_le _
    · exact available placement (Plan.mem_placementsIn.1 placed).1
    · have stop := stop_le_max planned sourceEntry placed
      omega
  case trailerFits =>
    intro _
    have start := sectionStart_le_layoutStart planned (Nat.le_refl job.count)
    omega

/-- A plan that stays below `2 ^ 32` bytes cuts nothing short. -/
theorem not_cutsShort_of_packed (planned : job.Planned) (packed : job.source.Packed)
    (small : job.plan.outputSize < 2 ^ 32) (index : Nat) : ¬job.plan.CutsShort index := by
  intro cut
  rcases cut with ⟨first, isFirst, _, _, rfl, -, large, -⟩
  have mem := Plan.mem_placements.2 (.inr (.inl isFirst))
  have inRange : first.owner < job.count := planned.sound.owner_lt mem
  have stop := Plan.stop_le_reach (Plan.mem_placementsIn.2 ⟨mem, rfl⟩)
    (planned.sound.isGrowing_bss first isFirst)
  have room : alignUp first.stop job.alignment ≤
      job.plan.layoutStart job.source (first.owner + 1) :=
    Nat.le_trans (alignUp_mono planned.positive stop)
      (alignUp_reach_le_layoutStart planned inRange)
  have next : job.plan.layoutStart job.source (first.owner + 1) ≤
      job.plan.layoutStart job.source job.count := Plan.layoutStart_le inRange
  have size := outputSize_of_packed planned packed
  unfold alignment at room
  omega

theorem copiedSize_eq_iff_cutsShort (planned : job.Planned) (packed : job.source.Packed)
    (divides : job.alignment ∣ 2 ^ 32) :
    job.copiedSize = job.plan.outputSize ↔ ∀ index, ¬job.plan.CutsShort index := by
  rw [copiedSize, outputSize_of_packed planned packed, Nat.add_right_cancel_iff,
    sectionStart_eq_layoutStart_iff_cutsShort planned divides (Nat.le_refl _)]
  refine ⟨fun whole index cut => ?_, fun whole index _ => whole index⟩
  rcases id cut with ⟨first, isFirst, _, _, rfl, -⟩
  exact whole _ (planned.sound.owner_lt (Plan.mem_placements.2 (.inr (.inl isFirst)))) cut

/-- A section of the copy starts where it starts in the packed source, moved by the
growth of the sections in front of it, exactly if none of those is cut short. -/
theorem rawPointer_destination_eq_iff_cutsShort (planned : job.Planned)
    (packed : job.source.Packed) (divides : job.alignment ∣ 2 ^ 32)
    (small : job.sectionStart job.count < 2 ^ 32)
    (sourceEntry : job.source.sections[index]? = some entry) (raw : entry.hasRawData = true) :
    (job.destination index entry).rawPointer.toNat =
        entry.rawPointer.toNat + ∑ earlier ∈ range index, job.plan.growthIn earlier ↔
      ∀ earlier < index, ¬job.plan.CutsShort earlier := by
  have le : index ≤ job.count := Nat.le_of_lt (List.getElem?_eq_some_iff.1 sourceEntry).1
  rw [rawPointer_destination_of_source small le raw,
    packed.rawPointer_eq (alignment_eq planned ▸ planned.positive) sourceEntry raw,
    ← layoutStart_eq planned le]
  exact sectionStart_eq_layoutStart_iff_cutsShort planned divides le

end CopyJob

/-! ## The memory that a copy reads -/

/-- The memory image answers for each region of the plan, with as many bytes as were
asked for. -/
def Plan.AnsweredBy (plan : Plan) (memory : MemoryImage) : Prop :=
  ∀ placement ∈ plan.placements,
    (memory.read placement.region).map List.length = some placement.region.size.toNat

instance (plan : Plan) (memory : MemoryImage) : Decidable (plan.AnsweredBy memory) :=
  inferInstanceAs (Decidable (∀ placement ∈ plan.placements, _ = _))

namespace CopyJob

variable {job : CopyJob} {index start : Nat}

/-- The same copy with a memory image that answers for no region but those of the
plan. -/
def restricted (job : CopyJob) : CopyJob :=
  { job with
    memory := { job.memory with
      read := fun region =>
        if region ∈ job.plan.placements.map (·.region) then job.memory.read region
        else none } }

theorem read_restricted {placement : Placement} (mem : placement ∈ job.plan.placements) :
    job.restricted.memory.read placement.region = job.memory.read placement.region :=
  if_pos (List.mem_map_of_mem mem)

theorem isSome_read_restricted (answered : job.plan.AnsweredBy job.memory)
    {placement : Placement} (mem : placement ∈ job.plan.placements) :
    (job.restricted.memory.read placement.region).isSome = true := by
  obtain ⟨bytes, answer, -⟩ := Option.map_eq_some_iff.1 (answered placement mem)
  rw [read_restricted mem]
  exact Option.isSome_of_mem answer

theorem planned_restricted (positive : 0 < job.alignment)
    (sound : job.plan.Sound job.source job.memory.imageBase)
    (answered : job.plan.AnsweredBy job.memory) : job.restricted.Planned := by
  refine ⟨fun region bytes answer => ?_, positive, sound⟩
  simp only [restricted] at answer
  split at answer
  · rename_i mem
    obtain ⟨placement, placed, rfl⟩ := List.mem_map.1 mem
    have length := answered placement placed
    rw [answer] at length
    exact Option.some.inj length
  · cases answer

theorem foldlM_storeRegion_restricted {placements : List Placement}
    (planned : ∀ placement ∈ placements, placement ∈ job.plan.placements) (state : CopyState) :
    placements.foldlM (job.restricted.storeRegion index start) state =
      placements.foldlM (job.storeRegion index start) state := by
  induction placements generalizing state with
  | nil => rfl
  | cons first rest ih =>
    obtain ⟨firstPlanned, others⟩ := List.forall_mem_cons.1 planned
    have step : job.restricted.storeRegion index start state first =
        job.storeRegion index start state first := by
      simp only [storeRegion, Cursor.copyMemory, read_restricted firstPlanned]
      rfl
    rw [List.foldlM_cons, List.foldlM_cons, step]
    exact congrArg _ (funext fun next => ih others next)

/-- A copy reads nothing but the regions of its plan. -/
theorem run_restricted (output : Buffer) : job.restricted.run output = job.run output := by
  have stages : job.restricted.perform = job.perform := by
    funext state stage
    cases stage with
    | headers => rfl
    | sectionAt index =>
      have planned : ∀ placement ∈ job.plan.placementsIn index,
          placement ∈ job.plan.placements :=
        fun placement mem => (Plan.mem_placementsIn.1 mem).1
      simp only [perform, copySection, ← foldlM_storeRegion_restricted planned]
      rfl
    | trailer => rfl
    | done => rfl
  rw [run, stages]
  rfl

end CopyJob

/-- **Packed images.** A packed image is copied into an output of the planned size
without fail, provided the memory image answers for each region of the plan. The copy
has the planned size exactly if no section is cut short. If it stays below `2 ^ 32`
bytes, each section with raw data in the source starts where it started there, moved by
the growth of the sections in front of it, exactly if none of those is cut short. A plan
below `2 ^ 32` bytes cuts no section short. -/
theorem run_packed {data : Bytes} {image : Image} {memory : MemoryImage} {options : DumpOptions}
    {plan : Plan} {output : Buffer} (parsed : Image.parse data = .ok image)
    (packed : image.Packed) (analyzed : Plan.analyze image memory options = .ok plan)
    (answered : plan.AnsweredBy memory) (size : output.size = plan.outputSize) :
    ∃ copied, CopyJob.run { source := image, memory, plan } output = .ok copied ∧
      (copied.cursor.position = plan.outputSize ↔ ∀ index, ¬plan.CutsShort index) ∧
      (copied.cursor.position < 2 ^ 32 →
        ∀ index entry header, image.sections[index]? = some entry →
          copied.headers.sections[index]? = some header → entry.hasRawData = true →
          (header.rawPointer.toNat =
              entry.rawPointer.toNat + ∑ earlier ∈ range index, plan.growthIn earlier ↔
            ∀ earlier < index, ¬plan.CutsShort earlier)) ∧
      (plan.outputSize < 2 ^ 32 → ∀ index, ¬plan.CutsShort index) := by
  have data := Image.data_of_parse parsed
  subst data
  have positive := Image.fileAlignment_pos_of_parse parsed
  have sound := Plan.sound_of_analyze positive analyzed
  have alignment : CopyJob.alignment { source := image, memory, plan } =
      image.fileAlignment.toNat := congrArg UInt32.toNat sound.fileAlignment
  have planned : (CopyJob.restricted { source := image, memory, plan }).Planned :=
    CopyJob.planned_restricted (alignment ▸ positive) sound answered
  have divides : CopyJob.alignment { source := image, memory, plan } ∣ 2 ^ 32 :=
    alignment ▸ Image.fileAlignment_dvd_of_parse parsed
  have runnable : (CopyJob.restricted { source := image, memory, plan }).Runnable output.size := by
    rw [size]
    exact CopyJob.runnable_of_packed planned parsed packed fun _ mem =>
      CopyJob.isSome_read_restricted answered mem
  refine ⟨_, CopyJob.run_restricted output ▸ (CopyJob.run_eq_ok_iff planned).2 ⟨runnable, rfl⟩,
    CopyJob.copiedSize_eq_iff_cutsShort planned packed divides, fun small => ?_,
    CopyJob.not_cutsShort_of_packed planned packed⟩
  intro index entry header sourceEntry copiedEntry raw
  have startSmall := Nat.lt_of_le_of_lt (Nat.le_add_right _ _) small
  cases CopyJob.eq_destination sourceEntry copiedEntry
  exact CopyJob.rawPointer_destination_eq_iff_cutsShort planned packed divides startSmall
    sourceEntry raw

/-- There are no gaps in `layeredImage`. -/
theorem packed_layeredSource : layeredSource.Packed where
  starts := by decide +kernel
  strayFree := by decide +kernel
  reaches := by decide +kernel

/-- Two sections of a packed image grow. The copy has the planned size, and the last
section moves by the growth of both. -/
theorem run_packed_layeredMemory : ∃ copied header,
    CopyJob.run {
      source := layeredSource, memory := layeredMemory.toMemoryImage, plan := layeredPlan }
      (Buffer.zeros layeredPlan.outputSize) = .ok copied ∧
    copied.cursor.position = layeredPlan.outputSize ∧
    copied.headers.sections[2]? = some header ∧ header.rawPointer.toNat = 352 + 32 := by
  obtain ⟨copied, ran, size, starts, whole⟩ := run_packed parse_layeredImage packed_layeredSource
    analyze_layeredMemory (by decide +kernel) (Buffer.size_zeros layeredPlan.outputSize)
  have planSmall : layeredPlan.outputSize < 2 ^ 32 := by decide +kernel
  have nothingCut := whole planSmall
  have sizeEq := size.2 nothingCut
  have isCopy : copied = layeredCopy := Except.ok.inj (ran.symm.trans run_layeredMemory)
  have last : 2 < copied.headers.sections.length := by
    rw [isCopy]
    decide +kernel
  have entry : layeredSource.sections[2]? = some (pageSection 0x3000 352 16) := by
    decide +kernel
  have growth : ∑ earlier ∈ range 2, layeredPlan.growthIn earlier = 32 := by decide +kernel
  refine ⟨copied, _, ran, sizeEq, List.getElem?_eq_getElem last, ?_⟩
  have moved := (starts (sizeEq ▸ planSmall) 2 _ _ entry (List.getElem?_eq_getElem last) rfl).2
    fun earlier _ => nothingCut earlier
  rw [growth] at moved
  exact moved

/-- A packed image whose copy does not have the planned size: the first region of its
section has an aligned end of `2 ^ 32`, and the second cuts the section short. -/
theorem position_ne_outputSize_overflowingMemory :
    Image.parse wideImage = .ok wideSource ∧ wideSource.Packed ∧
      Plan.analyze wideSource overflowingMemory.toMemoryImage plainOptions = .ok overflowingPlan ∧
      overflowingPlan.AnsweredBy overflowingMemory.toMemoryImage ∧
      ∃ copied,
        CopyJob.run {
          source := wideSource, memory := overflowingMemory.toMemoryImage, plan := overflowingPlan }
          (Buffer.zeros overflowingPlan.outputSize) = .ok copied ∧
        copied.cursor.position = 336 ∧ overflowingPlan.outputSize = 4294967616 := by
  refine ⟨parse_wideImage, ⟨by decide +kernel, by decide +kernel, by decide +kernel⟩,
    analyze_overflowingMemory, by decide +kernel, _, run_overflowingMemory, ?_⟩
  decide +kernel

end ImageDump
