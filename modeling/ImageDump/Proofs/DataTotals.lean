import Mathlib.Algebra.BigOperators.Intervals
import ImageDump.Proofs.Dump
import ImageDump.Proofs.RelocationRange

/-!
# The totals of initialized and uninitialized data

The optional header says how much initialized and how much uninitialized data an image has.
Three parts of a dump decide what it says of the copy. Planning finds the sections that own a
region of uninitialized data (`Plan.Owns`). Copying marks just those as initialized, whatever
they were before and however many regions they own (`CopyJob.contentAt_of_run`). Patching then
adds up the virtual sizes of the marked sections (`CopyJob.dataTotals_eq_of_run`). So the
totals follow from the section table of the source and the owners alone
(`storedTotals?_dumpImage`).
-/

namespace ImageDump

open Finset (range)

/-! ## Contents and sizes of a section table -/

namespace SectionTable

/-- The content of the section at an index. -/
def contentAt (table : SectionTable) (index : Nat) : Option SectionContent :=
  table[index]?.map (·.content)

/-- The virtual size of the section at an index, rounded up to the alignment. -/
def alignedSizeAt (table : SectionTable) (alignment index : Nat) : Nat :=
  (table[index]?.map fun header => alignUp header.virtualSize.toNat alignment).getD 0

/-- The rounded virtual sizes of the sections that count. -/
def alignedTotal (table : SectionTable) (alignment : Nat) (counts : Nat → Prop)
    [DecidablePred counts] : Nat :=
  ∑ index ∈ range table.length with counts index, table.alignedSizeAt alignment index

variable {table other : SectionTable} {alignment index : Nat} {first second : Nat → Prop}
  [DecidablePred first] [DecidablePred second]

theorem contentAt_eq_none (beyond : table.length ≤ index) : table.contentAt index = none := by
  rw [contentAt, List.getElem?_eq_none beyond]
  rfl

theorem alignedTotal_congr (length : other.length = table.length)
    (sizes : ∀ index, other.alignedSizeAt alignment index = table.alignedSizeAt alignment index)
    (same : ∀ index < table.length, first index ↔ second index) :
    other.alignedTotal alignment first = table.alignedTotal alignment second := by
  simp only [alignedTotal, length, sizes]
  rw [Finset.filter_congr fun index mem => same index (Finset.mem_range.1 mem)]

/-- One section more adds its size. -/
theorem alignedTotal_insert (inRange : index < table.length) (fresh : ¬first index)
    (more : ∀ other, second other ↔ first other ∨ other = index) :
    table.alignedTotal alignment second =
      table.alignedTotal alignment first + table.alignedSizeAt alignment index := by
  have grown : {other ∈ range table.length | second other} =
      insert index {other ∈ range table.length | first other} := by
    ext other
    simp only [Finset.mem_insert, Finset.mem_filter, more]
    by_cases same : other = index
    · simp [same, inRange]
    · simp [same]
  unfold alignedTotal
  rw [grown, Finset.sum_insert fun mem => fresh (Finset.mem_filter.1 mem).2, Nat.add_comm]

end SectionTable

/-- The total of a content is that of the sections with that content. -/
theorem Output.contentTotal_eq_alignedTotal (content : SectionContent) (alignment : Nat)
    (table : SectionTable) :
    contentTotal content alignment table =
      table.alignedTotal alignment fun index => table.contentAt index = some content := by
  rw [SectionTable.alignedTotal, Finset.sum_filter]
  induction table with
  | nil => rfl
  | cons header rest ih =>
    have first : SectionTable.contentAt (header :: rest) 0 = some header.content := rfl
    have size : SectionTable.alignedSizeAt (header :: rest) alignment 0 =
        alignUp header.virtualSize.toNat alignment := rfl
    have others (index : Nat) : SectionTable.contentAt (header :: rest) (index + 1) =
        SectionTable.contentAt rest index := rfl
    have sizes (index : Nat) : SectionTable.alignedSizeAt (header :: rest) alignment (index + 1) =
        SectionTable.alignedSizeAt rest alignment index := rfl
    rw [contentTotal, List.length_cons, Finset.sum_range_succ']
    simp only [first, size, others, sizes, ← ih, Option.some.injEq]
    split
    · exact Nat.add_comm _ _
    · rfl

/-! ## The contents of a copy -/

theorem SectionContent.ofCharacteristics_apply_initialized (characteristics : UInt32) :
    ofCharacteristics (initialized.apply characteristics) = initialized := by
  have flag : initialized.apply characteristics &&& initializedFlag = initializedFlag := by
    simp only [apply]
    generalize characteristics &&& ~~~(initializedFlag ||| uninitializedFlag) = cleared
    apply UInt32.toBitVec_inj.1
    ext i
    simp only [UInt32.toBitVec_or, UInt32.toBitVec_and, BitVec.getElem_or, BitVec.getElem_and]
    cases cleared.toBitVec[i] <;> cases initializedFlag.toBitVec[i] <;> rfl
  rw [ofCharacteristics, flag, if_pos (by decide)]

theorem SectionHeader.content_markDumped (header : SectionHeader) :
    header.markDumped.content = header.content.dumped := by
  have dumped : header.content.dumped = .initialized := by
    cases header.content <;> rfl
  rw [markDumped_eq, dumped]
  exact SectionContent.ofCharacteristics_apply_initialized header.characteristics

theorem SectionHeader.content_moved (start : Nat) (header : SectionHeader) :
    (header.moved start).content = header.content := by
  unfold moved
  split <;> rfl

theorem SectionContent.dumped_dumped (content : SectionContent) :
    content.dumped.dumped = content.dumped := by
  cases content <;> rfl

/-- Changing a section changes its content and no other. -/
theorem Headers.contentAt_modifySection {headers : Headers}
    {change : SectionHeader → SectionHeader} {f : SectionContent → SectionContent}
    (content : ∀ header, (change header).content = f header.content) (index other : Nat) :
    (headers.modifySection index change).sections.contentAt other =
      if other = index then (headers.sections.contentAt other).map f
      else headers.sections.contentAt other := by
  simp only [SectionTable.contentAt, modifySection, List.getElem?_modify]
  by_cases same : other = index
  · subst same
    cases headers.sections[other]? with
    | none => simp
    | some header => simp [content]
  · simp [same, Ne.symm same]

namespace CopyJob

variable {job : CopyJob} {state next : CopyState} {index start count : Nat}

/-- A region that makes its section grow marks it as dumped. -/
theorem contentAt_of_storeRegion {placement : Placement}
    (ran : job.storeRegion index start state placement = .ok next) (other : Nat) :
    next.headers.sections.contentAt other =
      if other = index ∧ placement.isGrowing = true then
        (state.headers.sections.contentAt other).map SectionContent.dumped
      else state.headers.sections.contentAt other := by
  simp only [storeRegion, bind_eq_ok_iff] at ran
  obtain ⟨stored, -, rest⟩ := ran
  split at rest
  · rename_i growing
    obtain ⟨aligned, -, ⟨⟩⟩ := bind_eq_ok_iff.1 rest
    simp only [growing, and_true]
    refine Headers.contentAt_modifySection ?_ index other
    exact fun header => SectionHeader.content_markDumped _
  · rename_i still
    cases rest
    rw [if_neg fun both => still both.2]

/-- Marking a section twice is marking it once, so only whether some region makes it grow
counts. -/
theorem contentAt_of_storeRegions {placements : List Placement}
    (ran : placements.foldlM (job.storeRegion index start) state = .ok next) (other : Nat) :
    next.headers.sections.contentAt other =
      if other = index ∧ placements.any (·.isGrowing) = true then
        (state.headers.sections.contentAt other).map SectionContent.dumped
      else state.headers.sections.contentAt other := by
  induction placements generalizing state with
  | nil =>
    cases ran
    rw [if_neg fun both => Bool.false_ne_true both.2]
  | cons first rest ih =>
    rw [List.foldlM_cons, bind_eq_ok_iff] at ran
    obtain ⟨before, stored, others⟩ := ran
    rw [ih others, contentAt_of_storeRegion stored, List.any_cons]
    by_cases here : other = index
    · cases first.isGrowing <;> cases rest.any (·.isGrowing) <;>
        simp [here, Function.comp_def, SectionContent.dumped_dumped]
    · simp [here]

end CopyJob

/-- The content of a section once the regions of the plan are stored. -/
def Plan.contentAfter (plan : Plan) (index : Nat) (content : SectionContent) : SectionContent :=
  if plan.grows index then content.dumped else content

namespace CopyJob

variable {job : CopyJob} {state next : CopyState} {index count : Nat}

theorem contentAt_of_copySection (inRange : index < job.count)
    (ran : job.copySection index state = .ok next) (other : Nat) :
    next.headers.sections.contentAt other =
      if other = index then
        (state.headers.sections.contentAt other).map (job.plan.contentAfter index)
      else state.headers.sections.contentAt other := by
  have sourceEntry := List.getElem?_eq_getElem (l := job.source.sections) inRange
  simp only [copySection, sourceEntry, bind_eq_ok_iff] at ran
  obtain ⟨copied, -, padded, -, stored, regions, aligned, -, ⟨⟩⟩ := ran
  have moved : (state.headers.modifySection index
      (SectionHeader.moved state.cursor.position)).sections.contentAt other =
        state.headers.sections.contentAt other := by
    rw [Headers.contentAt_modifySection (f := id) (SectionHeader.content_moved _),
      Option.map_id_fun, id, ite_self]
  have grown : stored.headers.sections.contentAt other =
      if other = index ∧ job.plan.grows index = true then
        (state.headers.sections.contentAt other).map SectionContent.dumped
      else state.headers.sections.contentAt other := by
    rw [← moved]
    exact contentAt_of_storeRegions regions other
  rw [grown]
  unfold Plan.contentAfter
  cases job.plan.grows index <;> simp

/-- The first `count` sections of a run. -/
theorem contentAt_of_foldlM (le : count ≤ job.count)
    (ran : ((List.range count).map Stage.sectionAt).foldlM job.perform state = .ok next)
    (index : Nat) :
    next.headers.sections.contentAt index =
      if index < count then
        (state.headers.sections.contentAt index).map (job.plan.contentAfter index)
      else state.headers.sections.contentAt index := by
  induction count generalizing next with
  | zero =>
    cases ran
    rw [if_neg (Nat.not_lt_zero index)]
  | succ count ih =>
    rw [foldlM_sections_succ, bind_eq_ok_iff] at ran
    obtain ⟨before, sections, last⟩ := ran
    rw [contentAt_of_copySection le last, ih (Nat.le_of_succ_le le) sections]
    rcases Nat.lt_trichotomy index count with earlier | rfl | later
    · rw [if_neg (Nat.ne_of_lt earlier), if_pos earlier, if_pos (Nat.lt_succ_of_lt earlier)]
    · rw [if_pos rfl, if_neg (Nat.lt_irrefl index), if_pos (Nat.lt_succ_self index)]
    · rw [if_neg (Nat.ne_of_gt later), if_neg (Nat.lt_asymm later), if_neg (by omega)]

/-- A copy that succeeds changes the content of the sections that grow, and of no others. -/
theorem contentAt_of_run {output : Buffer} (ran : job.run output = .ok next) (index : Nat) :
    next.headers.sections.contentAt index =
      (job.source.sections.contentAt index).map (job.plan.contentAfter index) := by
  obtain ⟨-, first, before, untouched, -, sections, headers, -⟩ := exists_sections_of_run ran
  rw [headers, contentAt_of_foldlM (Nat.le_refl _) sections, untouched]
  split
  · rfl
  · rename_i outside
    rw [SectionTable.contentAt_eq_none (Nat.le_of_not_lt outside)]
    rfl

/-- A copy that succeeds keeps the virtual size of each section. -/
theorem alignedSizeAt_of_run {output : Buffer} (ran : job.run output = .ok next)
    (alignment index : Nat) :
    next.headers.sections.alignedSizeAt alignment index =
      job.source.sections.alignedSizeAt alignment index := by
  obtain ⟨-, -, keeps⟩ := keeps_of_run ran
  have sizes (table : SectionTable) : table.alignedSizeAt alignment index =
      SectionTable.alignedSizeAt (table.map SectionHeader.unplaced) alignment index := by
    rw [SectionTable.alignedSizeAt, SectionTable.alignedSizeAt, List.getElem?_map, Option.map_map]
    rfl
  rw [sizes, Headers.sections_of_unplaced keeps.headers, ← sizes]

end CopyJob

/-! ## The sections that own uninitialized data -/

namespace Plan

/-- A region of uninitialized data is placed in the section. -/
def Owns (plan : Plan) (index : Nat) : Prop :=
  plan.bss.map (·.owner) = some index ∨ plan.staticBss.map (·.owner) = some index

instance (plan : Plan) (index : Nat) : Decidable (plan.Owns index) :=
  inferInstanceAs (Decidable (_ ∨ _))

variable {image : Image} {base : UInt64} {plan : Plan} {index : Nat}

theorem mem_growingIn {placement : Placement} :
    placement ∈ plan.growingIn index ↔
      (placement ∈ plan.bss ∨ placement ∈ plan.staticBss) ∧ placement.owner = index := by
  simp only [growingIn, List.mem_filter, List.mem_append, Option.mem_toList, Option.mem_def,
    beq_iff_eq]

theorem owns_iff : plan.Owns index ↔ ∃ placement, placement ∈ plan.growingIn index := by
  simp only [Owns, mem_growingIn, Option.map_eq_some_iff, ← exists_or, ← or_and_right,
    Option.mem_def]

/-- The sections that grow are those that own uninitialized data. -/
theorem Sound.grows_eq_true_iff (sound : plan.Sound image base) :
    plan.grows index = true ↔ plan.Owns index := by
  rw [owns_iff, grows, placementsIn_eq_append, List.any_append, Bool.or_eq_true, List.any_eq_true,
    List.any_eq_true]
  constructor
  · rintro (⟨placement, mem, growing⟩ | ⟨placement, mem, -⟩)
    · exact absurd growing (sound.still_data placement mem)
    · exact ⟨placement, mem⟩
  · rintro ⟨placement, mem⟩
    refine .inr ⟨placement, mem, ?_⟩
    rcases (mem_growingIn.1 mem).1 with present | present
    · exact sound.isGrowing_bss placement present
    · exact sound.isGrowing_staticBss placement present

end Plan

/-! ## Totals -/

/-- How much data of either kind the optional header of an image says that there is. -/
structure DataTotals where
  initialized : UInt32
  uninitialized : UInt32
deriving DecidableEq, Repr

/-- The totals that stand in an output where the image has its optional header. -/
def Image.storedTotals? (image : Image) (output : Bytes) : Option DataTotals :=
  (StandardFields.codec.read? output image.offsets.standard).map fun fields =>
    { initialized := fields.initializedDataSize
      uninitialized := fields.uninitializedDataSize }

namespace Plan

/-- The sections with initialized data in a dump: those that have it in the source, and those
that own uninitialized data. -/
def Initializes (plan : Plan) (image : Image) (index : Nat) : Prop :=
  image.sections.contentAt index = some .initialized ∨ plan.Owns index

/-- The sections with uninitialized data in a dump: those that have it in the source and own
none of it. -/
def LeavesUninitialized (plan : Plan) (image : Image) (index : Nat) : Prop :=
  image.sections.contentAt index = some .uninitialized ∧ ¬plan.Owns index

instance (plan : Plan) (image : Image) (index : Nat) : Decidable (plan.Initializes image index) :=
  inferInstanceAs (Decidable (_ ∨ _))

instance (plan : Plan) (image : Image) (index : Nat) :
    Decidable (plan.LeavesUninitialized image index) :=
  inferInstanceAs (Decidable (_ ∧ _))

/-- The totals of a dump: the virtual sizes of the sections, each rounded up to the file
alignment. -/
def dataTotals (plan : Plan) (image : Image) : DataTotals where
  initialized := UInt32.ofNat <|
    image.sections.alignedTotal image.fileAlignment.toNat (plan.Initializes image)
  uninitialized := UInt32.ofNat <|
    image.sections.alignedTotal image.fileAlignment.toNat (plan.LeavesUninitialized image)

variable {image : Image} {base : UInt64} {plan : Plan} {index : Nat}

/-- A section that owns uninitialized data is initialized in the copy, and every other section
keeps its content. -/
theorem Sound.map_contentAfter (sound : plan.Sound image base)
    (inRange : index < image.sections.length) :
    (image.sections.contentAt index).map (plan.contentAfter index) =
      if plan.Owns index then some .initialized else image.sections.contentAt index := by
  rw [SectionTable.contentAt, List.getElem?_eq_getElem inRange]
  unfold contentAfter
  by_cases owns : plan.Owns index
  · rw [sound.grows_eq_true_iff.2 owns, if_pos owns]
    cases content : image.sections[index].content <;> simp [content, SectionContent.dumped]
  · have still := Bool.eq_false_iff.2 (mt sound.grows_eq_true_iff.1 owns)
    rw [still, if_neg owns]
    rfl

end Plan

/-- The sections of a copy add up to the totals of the plan. -/
theorem CopyJob.dataTotals_eq_of_run {job : CopyJob} {output : Buffer} {next : CopyState}
    {base : UInt64} (sound : job.plan.Sound job.source base) (ran : job.run output = .ok next) :
    let total (content : SectionContent) : UInt32 := UInt32.ofNat <|
      Output.contentTotal content next.headers.fileAlignment.toNat next.headers.sections
    job.plan.dataTotals job.source =
      { initialized := total .initialized, uninitialized := total .uninitialized } := by
  obtain ⟨-, -, keeps⟩ := keeps_of_run ran
  have length := Headers.length_sections_of_unplaced keeps.headers
  have sizes := alignedSizeAt_of_run ran job.source.fileAlignment.toNat
  simp only [Output.contentTotal_eq_alignedTotal, Headers.fileAlignment_of_unplaced keeps.headers,
    contentAt_of_run ran, Plan.dataTotals, DataTotals.mk.injEq]
  constructor
  · refine congrArg UInt32.ofNat (SectionTable.alignedTotal_congr length sizes ?_).symm
    intro index inRange
    rw [sound.map_contentAfter inRange, Plan.Initializes]
    split <;> simp [*]
  · refine congrArg UInt32.ofNat (SectionTable.alignedTotal_congr length sizes ?_).symm
    intro index inRange
    rw [sound.map_contentAfter inRange, Plan.LeavesUninitialized]
    split <;> simp [*]

/-! ## What changes the totals -/

namespace Plan

/-- The second plan stores uninitialized data in one section more than the first, and that
section has uninitialized data in the source. -/
structure AddsOwner (first second : Plan) (image : Image) (index : Nat) : Prop where
  content : image.sections.contentAt index = some .uninitialized
  fresh : ¬first.Owns index
  owners : ∀ other, second.Owns other ↔ first.Owns other ∨ other = index

namespace AddsOwner

variable {first second : Plan} {image : Image} {index : Nat}
  (adds : AddsOwner first second image index)
include adds

theorem inRange : index < image.sections.length := by
  obtain ⟨header, entry, -⟩ := Option.map_eq_some_iff.1 adds.content
  exact (List.getElem?_eq_some_iff.1 entry).1

theorem initializes_iff (other : Nat) :
    second.Initializes image other ↔ first.Initializes image other ∨ other = index := by
  rw [Initializes, adds.owners, ← or_assoc, ← Initializes]

theorem not_initializes : ¬first.Initializes image index := by
  rintro (initialized | owns)
  · rw [adds.content] at initialized
    cases initialized
  · exact adds.fresh owns

theorem leavesUninitialized_iff (other : Nat) :
    first.LeavesUninitialized image other ↔
      second.LeavesUninitialized image other ∨ other = index := by
  rw [LeavesUninitialized, LeavesUninitialized, adds.owners]
  have content := adds.content
  have fresh := adds.fresh
  by_cases same : other = index
  · subst same
    tauto
  · tauto

theorem not_leavesUninitialized : ¬second.LeavesUninitialized image index :=
  fun leaves => leaves.2 ((adds.owners index).2 (.inr rfl))

/-- The size of the section moves from one total to the other. -/
theorem dataTotals_eq :
    let size := UInt32.ofNat (image.sections.alignedSizeAt image.fileAlignment.toNat index)
    ∃ initialized uninitialized,
      first.dataTotals image = { initialized, uninitialized := uninitialized + size } ∧
      second.dataTotals image = { initialized := initialized + size, uninitialized } := by
  intro size
  refine ⟨(first.dataTotals image).initialized, (second.dataTotals image).uninitialized, ?_, ?_⟩
  · rw [dataTotals, SectionTable.alignedTotal_insert adds.inRange adds.not_leavesUninitialized
      adds.leavesUninitialized_iff, UInt32.ofNat_add]
    rfl
  · rw [dataTotals, SectionTable.alignedTotal_insert adds.inRange adds.not_initializes
      adds.initializes_iff, UInt32.ofNat_add]
    rfl

end AddsOwner

end Plan

section Congr

variable {image other : Image} (sections : other.sections = image.sections)
  (alignment : other.fileAlignment = image.fileAlignment)
include sections alignment

/-- A region is placed by the section table and the file alignment alone. -/
theorem Placement.place?_congr (base : UInt64) (kind : RegionKind) (region : Region) :
    place? other base kind region = place? image base kind region := by
  unfold place? locate
  rw [sections, alignment]

namespace Plan

variable {memory : MemoryImage} {options options' : DumpOptions} {plan plan' : Plan}

/-- So is all uninitialized data of a memory image, whatever the options say. -/
theorem uninitialized_congr (analyzed : analyze image memory options = .ok plan)
    (analyzed' : analyze other memory options' = .ok plan') :
    plan'.bss = plan.bss ∧ plan'.staticBss = plan.staticBss := by
  obtain ⟨bss, staticBss, made⟩ := analyze_eq_ok_iff.1 analyzed
  obtain ⟨bss', staticBss', made'⟩ := analyze_eq_ok_iff.1 analyzed'
  have bssPlaced := made'.bssPlaced
  have staticPlaced := made'.staticPlaced
  rw [Placement.place?_congr sections alignment, made.bssPlaced] at bssPlaced
  rw [Placement.place?_congr sections alignment, made.staticPlaced] at staticPlaced
  cases bssPlaced
  cases staticPlaced
  have merged := made'.merged
  rw [made.merged, Except.ok.injEq, Prod.mk.injEq] at merged
  exact ⟨merged.1.symm, merged.2.symm⟩

theorem dataTotals_congr (analyzed : analyze image memory options = .ok plan)
    (analyzed' : analyze other memory options' = .ok plan') :
    plan'.dataTotals other = plan.dataTotals image := by
  obtain ⟨bss, staticBss⟩ := uninitialized_congr sections alignment analyzed analyzed'
  have owns (index : Nat) : plan'.Owns index ↔ plan.Owns index := by
    rw [Owns, Owns, bss, staticBss]
  have initializes (index : Nat) :
      plan'.Initializes other index ↔ plan.Initializes image index := by
    rw [Initializes, Initializes, owns, sections]
  have leaves (index : Nat) :
      plan'.LeavesUninitialized other index ↔ plan.LeavesUninitialized image index := by
    rw [LeavesUninitialized, LeavesUninitialized, owns, sections]
  rw [dataTotals, dataTotals, alignment]
  congr 2
  · exact SectionTable.alignedTotal_congr (congrArg List.length sections)
      (fun _ => by rw [sections]) fun index _ => initializes index
  · exact SectionTable.alignedTotal_congr (congrArg List.length sections)
      (fun _ => by rw [sections]) fun index _ => leaves index

end Plan

end Congr

/-! ## The totals of a dump -/

variable {source output : Bytes} {memory : MemoryImage} {options : DumpOptions} {image : Image}
  {plan : Plan}

/-- The optional header of a dump holds the totals of the plan. -/
theorem storedTotals?_of_dumpImage (parsed : Image.parse source = .ok image)
    (analyzed : Plan.analyze image memory options = .ok plan)
    (dumped : dumpImage source memory options = .ok output) :
    image.storedTotals? output = some (plan.dataTotals image) := by
  have sound := Plan.sound_of_analyze (Image.fileAlignment_pos_of_parse parsed) analyzed
  obtain ⟨copied, final, ran, patched⟩ := exists_run_of_dumpImage parsed analyzed dumped
  obtain ⟨-, -, keeps⟩ := CopyJob.keeps_of_run ran
  have ordered := Headers.headersInOrder_of_unplaced keeps.headers
    (Image.headersInOrder_of_parse parsed)
  obtain ⟨fixed, checksum, -, rfl, stored⟩ := Output.patch_eq_ok ordered patched
  have offsets : (Output.finalHeaders image.sections copied.headers checksum).offsets =
      image.offsets := by
    rw [← Headers.offsets_of_unplaced keeps.headers]
    rfl
  have fields := stored.standardAt
  rw [offsets] at fields
  have totals := CopyJob.dataTotals_eq_of_run sound ran
  rw [Image.storedTotals?, fields, totals]
  rfl

/-- **Data totals.** The optional header of a dump says that there is as much initialized data
as in the sections that have some in the source or own uninitialized data, and as much
uninitialized data as in the sections that have some in the source and own none; each section
counts with its virtual size, rounded up to the file alignment. A dump into one more section of
uninitialized data moves the size of that section from one total to the other. Nothing else
of the source matters than its section table and file alignment, in particular not the totals
that its own optional header says. -/
theorem storedTotals?_dumpImage (parsed : Image.parse source = .ok image)
    (analyzed : Plan.analyze image memory options = .ok plan)
    (dumped : dumpImage source memory options = .ok output) :
    image.storedTotals? output = some {
      initialized := UInt32.ofNat <|
        ∑ index ∈ range image.sections.length with
            image.sections.contentAt index = some .initialized ∨ plan.Owns index,
          image.sections.alignedSizeAt image.fileAlignment.toNat index
      uninitialized := UInt32.ofNat <|
        ∑ index ∈ range image.sections.length with
            image.sections.contentAt index = some .uninitialized ∧ ¬plan.Owns index,
          image.sections.alignedSizeAt image.fileAlignment.toNat index } ∧
    (∀ memory' options' plan' output' index, plan.AddsOwner plan' image index →
      Plan.analyze image memory' options' = .ok plan' →
      dumpImage source memory' options' = .ok output' →
      let size := UInt32.ofNat (image.sections.alignedSizeAt image.fileAlignment.toNat index)
      ∃ initialized uninitialized,
        image.storedTotals? output =
          some { initialized, uninitialized := uninitialized + size } ∧
        image.storedTotals? output' =
          some { initialized := initialized + size, uninitialized }) ∧
    ∀ source' image' options' output', Image.parse source' = .ok image' →
      image'.sections = image.sections → image'.fileAlignment = image.fileAlignment →
      dumpImage source' memory options' = .ok output' →
      image'.storedTotals? output' = image.storedTotals? output := by
  have totals := storedTotals?_of_dumpImage parsed analyzed dumped
  refine ⟨totals, ?_, ?_⟩
  · intro memory' options' plan' output' index adds analyzed' dumped'
    obtain ⟨initialized, uninitialized, before, after⟩ := adds.dataTotals_eq
    refine ⟨initialized, uninitialized, ?_, ?_⟩
    · rw [totals, before]
    · rw [storedTotals?_of_dumpImage parsed analyzed' dumped', after]
  · intro source' image' options' output' parsed' sections alignment dumped'
    obtain ⟨_, plan', _, _, again, analyzed', -, -⟩ := dumpImage_eq_ok_iff.1 dumped'
    cases parsed'.symm.trans again
    rw [totals, storedTotals?_of_dumpImage parsed' analyzed' dumped',
      Plan.dataTotals_congr sections alignment analyzed analyzed']

/-- Memory with twenty live bytes behind the raw data of the first section. -/
def frontMemory : Snapshot :=
  Snapshot.setRegion { imageBase := 0x400000 } .bss 0x401028 (List.replicate 20 0xaa)

/-- The plan to store `frontMemory` in `layeredImage`. -/
def frontPlan : Plan :=
  (Plan.analyze layeredSource frontMemory.toMemoryImage plainOptions).toOption.get
    (by decide +kernel)

theorem analyze_frontMemory :
    Plan.analyze layeredSource frontMemory.toMemoryImage plainOptions = .ok frontPlan :=
  eq_ok_get _

/-- The dump of `frontMemory` into `layeredImage`. -/
def frontDump : Bytes :=
  (dumpImage layeredImage frontMemory.toMemoryImage plainOptions).toOption.get
    (by decide +kernel)

theorem dumpImage_frontMemory :
    dumpImage layeredImage frontMemory.toMemoryImage plainOptions = .ok frontDump :=
  eq_ok_get _

/-- `layeredImage` with an optional header that says other totals. -/
def miscountedImage : Bytes :=
  layeredImage.overwrite (layeredSource.offsets.standard + 8)
    (Codec.u32.encode 5 ++ Codec.u32.encode 7)

/-- What is read from `miscountedImage`. -/
def miscountedSource : Image := (Image.parse miscountedImage).toOption.get (by decide +kernel)

/-- The dump of `frontMemory` into `miscountedImage`. -/
def miscountedDump : Bytes :=
  (dumpImage miscountedImage frontMemory.toMemoryImage plainOptions).toOption.get
    (by decide +kernel)

/-- All three sections of `layeredImage` have a page of uninitialized data. A dump into the
first makes its page initialized, and a dump into the first and the second moves one page
more. It does not matter that the source itself says other totals. -/
theorem storedTotals?_layeredImage :
    layeredSource.storedTotals? frontDump =
        some { initialized := 0x1000, uninitialized := 0x2000 } ∧
      layeredSource.storedTotals? layeredDump =
        some { initialized := 0x2000, uninitialized := 0x1000 } ∧
      miscountedSource.storedTotals? miscountedImage =
        some { initialized := 5, uninitialized := 7 } ∧
      miscountedSource.storedTotals? miscountedDump =
        some { initialized := 0x1000, uninitialized := 0x2000 } := by
  obtain ⟨totals, moves, same⟩ :=
    storedTotals?_dumpImage parse_layeredImage analyze_frontMemory dumpImage_frontMemory
  have front : layeredSource.storedTotals? frontDump =
      some { initialized := 0x1000, uninitialized := 0x2000 } :=
    totals.trans (by decide +kernel)
  have adds : frontPlan.AddsOwner layeredPlan layeredSource 1 := by
    refine ⟨by decide +kernel, by decide +kernel, fun other => ?_⟩
    have frontBss : frontPlan.bss.map (·.owner) = some 0 := by decide +kernel
    have frontStatic : frontPlan.staticBss = none := by decide +kernel
    have bss : layeredPlan.bss.map (·.owner) = some 0 := by decide +kernel
    have staticBss : layeredPlan.staticBss.map (·.owner) = some 1 := by decide +kernel
    simp [Plan.Owns, frontBss, frontStatic, bss, staticBss, eq_comm]
  obtain ⟨initialized, uninitialized, before, after⟩ :=
    moves _ _ _ _ 1 adds analyze_layeredMemory dumpImage_layeredMemory
  have page : UInt32.ofNat (layeredSource.sections.alignedSizeAt
      layeredSource.fileAlignment.toNat 1) = 0x1000 := by decide +kernel
  rw [page] at before after
  rw [front, Option.some.injEq, DataTotals.mk.injEq] at before
  obtain ⟨rfl, rest⟩ := before
  refine ⟨front, ?_, by decide +kernel, ?_⟩
  · have left : uninitialized = 0x1000 := (UInt32.add_left_inj 0x1000).1 rest.symm
    rw [after, left]
    rfl
  · exact (same miscountedImage miscountedSource plainOptions miscountedDump (eq_ok_get _)
      (by decide +kernel) (by decide +kernel) (eq_ok_get _)).trans front

end ImageDump
