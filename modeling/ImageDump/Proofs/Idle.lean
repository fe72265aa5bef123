import Mathlib.Data.Nat.Find
import ImageDump.Proofs.Redump

/-!
# Dumping nothing

A memory image without regions is dumped by copying the source. If the raw data of the
source is aligned, no section of the copy starts behind its place in the source, and all
bytes that are copied fit. A section without raw data is copied like any other, though: no
bytes are written at the aligned end of the section in front of it, and that position is
checked against the end of the output all the same. Such a dump therefore fails exactly if
the last section has no raw data and the source ends before the aligned end of the
raw data (`dumpImage_of_nothing`).
-/

namespace ImageDump

/-! ## Aligned images -/

namespace Image

variable {image : Image} {index : Nat} {header : SectionHeader}

/-- Raw data starts behind the section table, at multiples of the file alignment. -/
structure Aligned (image : Image) : Prop where
  behind : ∀ header ∈ image.sections, header.hasRawData = true →
    image.offsets.sectionsEnd ≤ header.rawPointer.toNat
  divides : ∀ header ∈ image.sections, header.hasRawData = true →
    image.fileAlignment.toNat ∣ header.rawPointer.toNat
  strayFree : SectionTable.NoStraySizes image.sections

/-- The image ends with raw data, or goes on to where one more section would start. -/
def EndsPadded (image : Image) : Prop :=
  (∀ header ∈ image.sections.getLast?, header.hasRawData = true) ∨
    image.ungrownStart image.sections.length ≤ image.data.length

/-- A section without raw data takes up no room. -/
theorem ungrownStart_succ_of_still (strayFree : SectionTable.NoStraySizes image.sections)
    (entry : image.sections[index]? = some header) (noData : header.hasRawData = false) :
    image.ungrownStart (index + 1) = image.ungrownStart index := by
  rw [ungrownStart_succ entry, strayFree header (List.mem_of_getElem? entry) noData,
    UInt32.toNat_zero, alignUp_zero, Nat.add_zero]

namespace Aligned

variable (aligned : image.Aligned) (positive : 0 < image.fileAlignment.toNat)
  (ordered : image.sections.Pairwise InFileOrder)
include aligned positive ordered

/-- Packed sections end no later than any aligned position behind their raw data. -/
theorem ungrownStart_le_of_dvd {bound : Nat} (le : index ≤ image.sections.length)
    (boundDivides : image.fileAlignment.toNat ∣ bound)
    (headersLe : image.offsets.sectionsEnd ≤ bound)
    (ends : ∀ (i : Nat) (lt : i < index), image.sections[i].hasRawData = true →
      image.sections[i].rawEnd ≤ bound) :
    image.ungrownStart index ≤ bound := by
  induction index generalizing bound with
  | zero => exact alignUp_le_of_dvd positive headersLe boundDivides
  | succ index ih =>
    have before := Nat.le_of_succ_le le
    have entry := List.getElem?_eq_getElem le
    have mem := List.getElem_mem le
    cases raw : image.sections[index].hasRawData with
    | false =>
      rw [ungrownStart_succ_of_still aligned.strayFree entry raw]
      exact ih before boundDivides headersLe fun i lt => ends i (Nat.lt_succ_of_lt lt)
    | true =>
      -- what is in front of the section ends before its raw data starts
      have pointerDivides := aligned.divides _ mem raw
      have start : image.ungrownStart index ≤ image.sections[index].rawPointer.toNat :=
        ih before pointerDivides (aligned.behind _ mem raw) fun i lt earlierRaw =>
          List.pairwise_iff_getElem.1 ordered i index (Nat.lt_trans lt le) le lt earlierRaw raw
      have stop := ends index (Nat.lt_succ_self index) raw
      calc image.ungrownStart (index + 1)
          = image.ungrownStart index +
              alignUp image.sections[index].rawSize.toNat image.fileAlignment.toNat :=
            ungrownStart_succ entry
        _ ≤ image.sections[index].rawPointer.toNat +
              alignUp image.sections[index].rawSize.toNat image.fileAlignment.toNat :=
            Nat.add_le_add_right start _
        _ = alignUp image.sections[index].rawEnd image.fileAlignment.toNat :=
            (alignUp_add_of_dvd pointerDivides).symm
        _ ≤ bound := alignUp_le_of_dvd positive stop boundDivides

/-- No section of an aligned image starts before its place in the packed image. -/
theorem ungrownStart_le_rawPointer (entry : image.sections[index]? = some header)
    (raw : header.hasRawData = true) : image.ungrownStart index ≤ header.rawPointer.toNat := by
  obtain ⟨inRange, rfl⟩ := List.getElem?_eq_some_iff.1 entry
  have mem := List.getElem_mem inRange
  exact aligned.ungrownStart_le_of_dvd positive ordered (Nat.le_of_lt inRange)
    (aligned.divides _ mem raw) (aligned.behind _ mem raw) fun i lt earlierRaw =>
      List.pairwise_iff_getElem.1 ordered i index (Nat.lt_trans lt inRange) inRange lt earlierRaw
        raw

/-- In an image that ends padded, each section starts inside the image once packed. -/
theorem ungrownStart_le_length (padded : image.EndsPadded)
    (inside : ∀ header ∈ image.sections, header.hasRawData = true →
      header.rawEnd ≤ image.data.length)
    (inRange : index < image.sections.length) : image.ungrownStart index ≤ image.data.length := by
  rcases padded with lastRaw | whole
  · have lastInRange : image.sections.length - 1 < image.sections.length := by omega
    have last := List.getElem?_eq_getElem lastInRange
    have raw := lastRaw _ (by rw [List.getLast?_eq_getElem?]; exact last)
    have stop := inside _ (List.mem_of_getElem? last) raw
    calc image.ungrownStart index
        ≤ image.ungrownStart (image.sections.length - 1) := ungrownStart_le (by omega)
      _ ≤ image.sections[image.sections.length - 1].rawPointer.toNat :=
        aligned.ungrownStart_le_rawPointer positive ordered last raw
      _ ≤ image.data.length := Nat.le_trans (Nat.le_add_right _ _) stop
  · exact Nat.le_trans (ungrownStart_le (Nat.le_of_lt inRange)) whole

omit positive ordered in
/-- Without raw data at its end, the image takes up as much room without its last section. -/
theorem ungrownStart_pred (nonempty : image.sections ≠ [])
    (lastStill : ¬∀ header ∈ image.sections.getLast?, header.hasRawData = true) :
    image.ungrownStart (image.sections.length - 1) =
      image.ungrownStart image.sections.length := by
  have positive : 0 < image.sections.length := List.length_pos_iff.2 nonempty
  have last := List.getElem?_eq_getElem (Nat.sub_lt positive Nat.one_pos)
  rw [List.getLast?_eq_getElem?, last] at lastStill
  have noData : image.sections[image.sections.length - 1].hasRawData = false := by
    by_contra raw
    exact lastStill fun header same => by
      cases same
      exact Bool.eq_true_of_not_eq_false raw
  rw [← ungrownStart_succ_of_still aligned.strayFree last noData, Nat.sub_add_cancel positive]

section Outside

variable (inside : ∀ header ∈ image.sections, header.hasRawData = true →
  header.rawEnd ≤ image.data.length)
include inside

/-- A section that would start behind the end of the image has no raw data. -/
theorem hasRawData_eq_false (entry : image.sections[index]? = some header)
    (outside : image.data.length < image.ungrownStart index) : header.hasRawData = false := by
  by_contra raw
  have raw := Bool.eq_true_of_not_eq_false raw
  have start := aligned.ungrownStart_le_rawPointer positive ordered entry raw
  have stop := inside header (List.mem_of_getElem? entry) raw
  rw [SectionHeader.rawEnd] at stop
  omega

/-- No section behind the end of the image takes up room. -/
theorem ungrownStart_eq_of_outside (outside : image.data.length < image.ungrownStart index)
    {last : Nat} (le : index ≤ last) (lastLe : last ≤ image.sections.length) :
    image.ungrownStart last = image.ungrownStart index := by
  induction last, le using Nat.le_induction with
  | base => rfl
  | succ last le ih =>
    have entry := List.getElem?_eq_getElem lastLe
    have beyond := Nat.lt_of_lt_of_le outside (ungrownStart_le le)
    have noData := aligned.hasRawData_eq_false positive ordered inside entry beyond
    rw [ungrownStart_succ_of_still aligned.strayFree entry noData, ih (Nat.le_of_succ_le lastLe)]

/-- In an image that does not end padded there is a first section that would start behind the
end of the image, and none of the sections from there on has raw data. -/
theorem exists_first_outside (unpadded : ¬image.EndsPadded) (nonempty : image.sections ≠ []) :
    ∃ index header, image.sections[index]? = some header ∧ header.hasRawData = false ∧
      image.data.length < image.ungrownStart index ∧
      image.ungrownStart index = image.ungrownStart image.sections.length ∧
      ∀ earlier < index, image.ungrownStart earlier ≤ image.data.length := by
  rw [EndsPadded, not_or, Nat.not_le] at unpadded
  obtain ⟨lastStill, beyond⟩ := unpadded
  rw [← aligned.ungrownStart_pred nonempty lastStill] at beyond
  have outside : ∃ i, image.data.length < image.ungrownStart i := ⟨_, beyond⟩
  have first := Nat.find_spec outside
  have firstLe : Nat.find outside ≤ image.sections.length - 1 := Nat.find_min' outside beyond
  have positiveLength : 0 < image.sections.length := List.length_pos_iff.2 nonempty
  have inRange : Nat.find outside < image.sections.length := by omega
  have entry := List.getElem?_eq_getElem inRange
  exact ⟨_, _, entry, aligned.hasRawData_eq_false positive ordered inside entry first, first,
    (aligned.ungrownStart_eq_of_outside positive ordered inside first (Nat.le_of_lt inRange)
      (Nat.le_refl _)).symm,
    fun earlier lt => Nat.le_of_not_lt (Nat.find_min outside lt)⟩

end Outside

end Aligned
end Image

/-! ## Copying nothing but the source -/

namespace Output

/-- Without a debug directory no pointers are relocated. -/
theorem relocateDebugDirectory_of_absent {source : Image} {destination : SectionTable}
    {output : Bytes}
    (absent : ∀ directory ∈ source.directory? .debug, directory.virtualAddress = 0) :
    relocateDebugDirectory source destination output = .ok output := by
  refine relocateDebugDirectory_of_not_found fun directory present => ?_
  rw [SectionTable.findDirectory?, if_pos (absent directory present)]

end Output

/-- Even no bytes are checked against the end of the output. -/
theorem Cursor.copySource_nothing {cursor : Cursor} {source : Bytes}
    (beyond : cursor.output.size < cursor.position) :
    cursor.copySource source 0 0 = .error (cursor.interrupt <|
      .outputOverflow cursor.position 0 cursor.output.size) := by
  have nothing : Bytes.slice? source 0 0 = some [] :=
    Bytes.slice?_eq_some_iff.2 ⟨Nat.zero_le _, List.take_zero⟩
  rw [copySource, nothing]
  exact if_neg (Nat.not_le.2 beyond)

namespace CopyJob

variable {job : CopyJob} {output : Buffer} {index : Nat} {entry : SectionHeader}

/-- A copy fails with the first section that cannot be copied. -/
theorem run_eq_error (planned : job.Planned) {interrupted : Interrupted}
    (headersInside : job.source.offsets.sectionsEnd ≤ job.source.data.length)
    (headersFit : job.source.offsets.sectionsEnd ≤ output.size) (inRange : index < job.count)
    (copyable : ∀ earlier other, earlier < index → job.source.sections[earlier]? = some other →
      job.Copyable earlier (job.sectionStart earlier) output.size other)
    (fails : job.copySection index (job.stateAfter output index) = .error interrupted) :
    job.run output = .error interrupted := by
  have split : List.range job.count =
      List.range index ++ index :: (List.range job.count).drop (index + 1) := by
    conv_lhs => rw [← List.take_append_drop index (List.range job.count)]
    rw [List.take_range, Nat.min_eq_left (Nat.le_of_lt inRange),
      List.drop_eq_getElem_cons (List.length_range.symm ▸ inRange), List.getElem_range]
  have headers := (copyHeaders_eq_ok_iff planned.positive).2 ⟨headersInside, headersFit, rfl⟩
  have front := (foldlM_sections_eq_ok_iff planned (Nat.le_of_lt inRange)).2 ⟨copyable, rfl⟩
  have headersStage : job.perform (job.initial output) .headers = .ok (job.stateAfter output 0) :=
    headers
  have failingStage : job.perform (job.stateAfter output index) (.sectionAt index) =
      .error interrupted := fails
  rw [run_eq_bind, beforeTrailer, split, List.foldlM_cons, headersStage, List.map_append,
    List.map_cons]
  simp only [bind, Except.bind, List.foldlM_append, front, List.foldlM_cons, failingStage]

/-- What follows the sections of an aligned image starts no earlier than in the packed
image. -/
theorem ungrownStart_le_trailerOffset (planned : job.Planned) (aligned : job.source.Aligned)
    (parsed : Image.parse job.source.data = .ok job.source) :
    job.source.ungrownStart job.count ≤ trailerOffset job.source job.alignment := by
  have positive := Image.fileAlignment_pos_of_parse parsed
  have ordered := Image.inFileOrder_of_parse parsed
  have alignment := alignment_eq planned
  have behindRaw : job.source.sections.lastRawEnd ≤ trailerOffset job.source job.alignment :=
    trailerOffset_eq job ▸ SectionTable.lastRawEnd_le_tailStart planned.positive
  obtain ⟨divides, headersLe⟩ : job.alignment ∣ trailerOffset job.source job.alignment ∧
      job.source.offsets.sectionsEnd ≤ trailerOffset job.source job.alignment := by
    refine ⟨dvd_alignUp planned.positive, ?_⟩
    rcases SectionTable.lastRawEnd_cases job.source.sections with
      ⟨-, zero⟩ | ⟨before, last, after, table, raw, -, stop⟩
    · rw [trailerOffset, if_pos zero]
      exact le_alignUp planned.positive
    · have mem : last ∈ job.source.sections := by
        rw [table]
        exact List.mem_append_right _ List.mem_cons_self
      have behind := aligned.behind last mem raw
      rw [stop, SectionHeader.rawEnd] at behindRaw
      omega
  refine aligned.ungrownStart_le_of_dvd positive ordered (Nat.le_refl _) (alignment ▸ divides)
    headersLe fun i lt _ => Nat.le_trans ?_ behindRaw
  exact SectionTable.rawEnd_le_lastRawEnd ordered aligned.strayFree (List.getElem_mem lt)

/-- Without a debug directory, patching a copy does not fail. -/
theorem exists_patch_of_absent {options : DumpOptions} (planned : job.Planned)
    (parsed : Image.parse job.source.data = .ok job.source)
    (absent : ∀ directory ∈ job.source.directory? .debug, directory.virtualAddress = 0) :
    ∃ final result, Output.patch job.copied job.source (job.headersAfter job.count) options =
      .ok (final, result) := by
  have ordered := headersInOrder_headersAfter (Image.headersInOrder_of_parse parsed)
  have headersLe : job.source.offsets.sectionsEnd ≤ job.sectionStart 0 :=
    le_alignUp planned.positive
  have reached : job.sectionStart 0 ≤ job.copiedSize := sectionStart_le_copiedSize (Nat.zero_le _)
  refine Output.exists_patch ordered (Output.relocateDebugDirectory_of_absent absent) ?_
  rw [copied, Buffer.length_resize]
  exact Nat.le_trans headersLe reached

variable (planned : job.Planned) (nothing : job.plan.placements = [])
include planned nothing

/-- If nothing is stored, a section of an aligned image can be copied if its start in the
packed image lies inside the output. -/
theorem copyable_of_nothing (aligned : job.source.Aligned)
    (parsed : Image.parse job.source.data = .ok job.source)
    (sourceEntry : job.source.sections[index]? = some entry)
    (start : job.source.ungrownStart index ≤ job.source.data.length) :
    job.Copyable index (job.sectionStart index) job.source.data.length entry := by
  have le : index ≤ job.count := Nat.le_of_lt (List.getElem?_eq_some_iff.1 sourceEntry).1
  have mem := List.mem_of_getElem? sourceEntry
  have noRegions : ∀ placement ∈ job.plan.placementsIn index,
      (job.memory.read placement.region).isSome = true ∧
        job.sectionStart index + placement.stop ≤ job.source.data.length := by
    rw [Plan.placementsIn_eq_nil nothing]
    exact nofun
  rw [sectionStart_eq_ungrownStart planned nothing le] at noRegions ⊢
  cases raw : entry.hasRawData with
  | true =>
    have inside := Image.rawEnd_le_of_parse parsed mem raw
    have moved := aligned.ungrownStart_le_rawPointer
      (Image.fileAlignment_pos_of_parse parsed) (Image.inFileOrder_of_parse parsed) sourceEntry raw
    exact ⟨inside, Nat.le_trans (Nat.add_le_add_right moved _) inside, noRegions⟩
  | false =>
    refine ⟨?_, ?_, noRegions⟩
    · rw [aligned.strayFree.rawEnd_eq_zero mem raw]
      exact Nat.zero_le _
    · rw [aligned.strayFree entry mem raw]
      exact start

/-- The copy of an aligned image that ends padded fits into an output of its size. -/
theorem runnable_of_nothing (aligned : job.source.Aligned) (padded : job.source.EndsPadded)
    (nonempty : job.source.sections ≠ [])
    (parsed : Image.parse job.source.data = .ok job.source) :
    job.Runnable job.source.data.length := by
  have positive := Image.fileAlignment_pos_of_parse parsed
  have ordered := Image.inFileOrder_of_parse parsed
  have headersInside :=
    Image.sectionsEnd_le_of_parse parsed (List.length_pos_iff.2 nonempty)
  constructor
  case headersInside => exact headersInside
  case headersFit => exact headersInside
  case sections =>
    intro index entry sourceEntry
    refine copyable_of_nothing planned nothing aligned parsed sourceEntry ?_
    exact aligned.ungrownStart_le_length positive ordered padded
      (fun _ => Image.rawEnd_le_of_parse parsed) (List.getElem?_eq_some_iff.1 sourceEntry).1
  case trailerFits =>
    intro some
    have stop : job.source.ungrownStart job.count ≤ trailerOffset job.source job.alignment :=
      ungrownStart_le_trailerOffset planned aligned parsed
    rw [sectionStart_eq_ungrownStart planned nothing (Nat.le_refl _)]
    unfold trailerSize at some ⊢
    omega

/-- The copy of an aligned image that does not end padded fails, for no bytes at a position
behind the output. -/
theorem run_of_nothing_of_not_endsPadded (aligned : job.source.Aligned)
    (unpadded : ¬job.source.EndsPadded) (nonempty : job.source.sections ≠ [])
    (parsed : Image.parse job.source.data = .ok job.source)
    (size : output.size = job.source.data.length) :
    ∃ left, job.run output = .error {
      error := .outputOverflow (job.source.ungrownStart job.count) 0 job.source.data.length
      output := left } := by
  have headersInside :=
    Image.sectionsEnd_le_of_parse parsed (List.length_pos_iff.2 nonempty)
  obtain ⟨index, entry, sourceEntry, noData, outside, last, earlierInside⟩ :=
    aligned.exists_first_outside (Image.fileAlignment_pos_of_parse parsed)
      (Image.inFileOrder_of_parse parsed) (fun _ => Image.rawEnd_le_of_parse parsed) unpadded
      nonempty
  have inRange : index < job.count := (List.getElem?_eq_some_iff.1 sourceEntry).1
  have start := sectionStart_eq_ungrownStart planned nothing (Nat.le_of_lt inRange)
  have noSize : entry.rawSize.toNat = 0 :=
    congrArg UInt32.toNat (aligned.strayFree entry (List.mem_of_getElem? sourceEntry) noData)
  have noPointer : entry.rawPointer.toNat = 0 :=
    congrArg UInt32.toNat (SectionHeader.hasRawData_eq_false_iff.1 noData)
  have sizeAfter : (job.stateAfter output index).cursor.output.size = job.source.data.length :=
    (size_outputAfter index).trans size
  have position : (job.stateAfter output index).cursor.position =
      job.source.ungrownStart job.count := start.trans last
  have beyond : (job.stateAfter output index).cursor.output.size <
      (job.stateAfter output index).cursor.position := by
    rw [sizeAfter, position]
    exact last ▸ outside
  have fails : (job.stateAfter output index).cursor.copySource job.source.data 0 0 = _ :=
    Cursor.copySource_nothing beyond
  rw [Cursor.interrupt, sizeAfter, position] at fails
  have sectionFails : job.copySection index (job.stateAfter output index) = .error {
      error := .outputOverflow (job.source.ungrownStart job.count) 0 job.source.data.length
      output := (job.stateAfter output index).cursor.output.toBytes } := by
    rw [copySection, sourceEntry]
    simp only [noSize, noPointer, fails, bind, Except.bind]
  refine ⟨_, run_eq_error planned headersInside (size.symm ▸ headersInside) inRange
    (fun earlier other lt otherEntry => ?_) sectionFails⟩
  rw [size]
  exact copyable_of_nothing planned nothing aligned parsed otherEntry (earlierInside earlier lt)

end CopyJob

/-- **Dumping nothing.** A source with sections, with aligned raw data and without a debug
directory is dumped without regions exactly if it ends padded. Otherwise the last section has
no raw data, the source ends before the aligned end of the raw data, and the dump fails for no
bytes at that position. -/
theorem dumpImage_of_nothing {source : Bytes} {memory : MemoryImage} {options : DumpOptions}
    {image : Image} (parsed : Image.parse source = .ok image) (nonempty : image.sections ≠ [])
    (aligned : image.Aligned)
    (absent : ∀ directory ∈ image.directory? .debug, directory.virtualAddress = 0)
    (unnamed : options.dataSection = none)
    (empty : ∀ kind, (memory.region kind).isEmpty = true) :
    (image.EndsPadded → ∃ output, dumpImage source memory options = .ok output) ∧
      (¬image.EndsPadded → dumpImage source memory options = .error
        (.outputOverflow (image.ungrownStart image.sections.length) 0 source.length)) := by
  have data := Image.data_of_parse parsed
  subst data
  have positive := Image.fileAlignment_pos_of_parse parsed
  have analyzed : Plan.analyze image memory options = .ok (Plan.idle image memory.imageBase) :=
    Plan.analyze_of_empty unnamed empty
  -- the copy reads no memory, so that nothing has to be known of it
  let job : CopyJob := { source := image, memory, plan := Plan.idle image memory.imageBase }
  have planned : job.restricted.Planned :=
    CopyJob.planned_restricted positive (Plan.sound_of_analyze positive analyzed) nofun
  have nothing : job.restricted.plan.placements = [] := rfl
  constructor
  · intro padded
    have runnable : job.restricted.Runnable image.data.length :=
      CopyJob.runnable_of_nothing planned nothing aligned padded nonempty parsed
    have ran : job.restricted.run (Buffer.zeros image.data.length) = .ok _ :=
      (CopyJob.run_eq_ok_iff planned).2 ⟨runnable, rfl⟩
    rw [CopyJob.run_restricted] at ran
    obtain ⟨final, result, patched⟩ := CopyJob.exists_patch_of_absent planned parsed absent
    exact ⟨result, dumpImage_eq_ok_iff.2 ⟨image, _, _, final, parsed, analyzed, ran, patched⟩⟩
  · intro unpadded
    obtain ⟨left, fails⟩ := CopyJob.run_of_nothing_of_not_endsPadded planned nothing aligned
      unpadded nonempty parsed (Buffer.size_zeros image.data.length)
    rw [CopyJob.run_restricted] at fails
    rw [dumpImage_eq_of_analyze parsed analyzed, writeDump]
    change (job.run (Buffer.zeros image.data.length) >>= _).mapError _ = _
    rw [fails]
    rfl

/-- Forty bytes of raw data at an aligned offset of a file that ends with them. -/
def fullSection (virtualAddress : UInt32) : SectionHeader := pageSection virtualAddress 272 40

/-- A section without raw data. -/
def emptySection (virtualAddress : UInt32) : SectionHeader := pageSection virtualAddress 0 0

/-- An image of two sections with forty bytes of raw data at its end, which is not aligned. -/
def unpaddedImage (sections : SectionTable) : Bytes :=
  imageOf sections (Bytes.zeros 8 ++ List.replicate 40 0x11)

/-- A dump of nothing succeeds if the section without raw data comes first, though the source
is not padded. -/
theorem dumpImage_of_nothing_emptyFirst :
    ∃ output, dumpImage (unpaddedImage [emptySection 0x1000, fullSection 0x2000])
      idleMemory.toMemoryImage plainOptions = .ok output := by
  have parsed : ∃ image, Image.parse (unpaddedImage [emptySection 0x1000, fullSection 0x2000]) =
      .ok image ∧ image.sections = [emptySection 0x1000, fullSection 0x2000] ∧
      image.offsets.sectionsEnd = 264 ∧ image.fileAlignment = 16 ∧ image.directories = [] :=
    ⟨_, eq_ok_get (by decide +kernel), by decide +kernel⟩
  obtain ⟨image, parsed, sections, sectionsEnd, alignment, directories⟩ := parsed
  refine (dumpImage_of_nothing parsed ?_ ⟨?_, ?_, ?_⟩ ?_ rfl fun _ => rfl).1 (.inl ?_)
  · rw [sections]
    exact List.cons_ne_nil _ _
  · rw [sections, sectionsEnd]
    decide
  · rw [sections, alignment]
    decide
  · rw [sections]
    decide
  · intro directory found
    rw [Image.directory?, directories] at found
    cases found
  · rw [sections]
    decide

/-- A dump of nothing fails if the section without raw data comes last: the source is aligned,
has no debug directory and ends with the raw data of its first section. -/
theorem dumpImage_of_nothing_emptyLast :
    ∃ image, Image.parse (unpaddedImage [fullSection 0x1000, emptySection 0x2000]) = .ok image ∧
      image.sections ≠ [] ∧ image.Aligned ∧ image.directory? .debug = none ∧
      (∀ kind, (idleMemory.toMemoryImage.region kind).isEmpty = true) ∧
      dumpImage (unpaddedImage [fullSection 0x1000, emptySection 0x2000])
        idleMemory.toMemoryImage plainOptions = .error (.outputOverflow 320 0 312) := by
  refine ⟨_, eq_ok_get (by decide +kernel), by decide +kernel,
    ⟨by decide +kernel, by decide +kernel, by decide +kernel⟩, by decide +kernel, fun _ => rfl, ?_⟩
  exact eq_error_of_failure? (by decide +kernel)

end ImageDump
