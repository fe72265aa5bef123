import ImageDump.Proofs.HeaderOffsets
import ImageDump.Proofs.Packed
import ImageDump.Proofs.Repatch
import ImageDump.Proofs.Rounds

/-!
# Dumping an output again

The output of a dump is packed, so that a second dump with nothing to store lays it out as
it is, and patching finds all totals and offsets as it left them. The second dump zeroes
the padding behind the raw data of each section, though. It therefore succeeds, and gives
the same output, exactly if that padding was zero before
(`redump_eq_iff`). The copier left zeros there. A relocated pointer of the debug directory
can only get there if the raw data of the section that holds the directory was cut short
(`redump_ne_spillingMemory`).
-/

namespace ImageDump

/-! ## Storing nothing -/

namespace Plan

/-- The plan to store nothing. -/
def idle (image : Image) (base : UInt64) : Plan where
  fileAlignment := image.fileAlignment
  imageBase := base
  data := none
  bss := none
  staticBss := none
  outputSize := image.data.length

/-- Empty regions have no place, and no section is looked for without a name. -/
theorem analyze_of_empty {image : Image} {memory : MemoryImage} {options : DumpOptions}
    (unnamed : options.dataSection = none)
    (empty : ∀ kind, (memory.region kind).isEmpty = true) :
    analyze image memory options = .ok (idle image memory.imageBase) := by
  have nowhere (kind : RegionKind) :
      Placement.place? image memory.imageBase kind (memory.region kind) = .ok none :=
    if_pos (empty kind)
  rw [analyze, dataRegion_of_unnamed unnamed]
  simp only [bind, Except.bind, nowhere]
  rfl

end Plan

/-- Behind the raw data of each section there are zeros up to the next multiple of the
alignment. -/
def SectionTable.ZeroPadded (table : SectionTable) (alignment : Nat) (data : Bytes) : Prop :=
  ∀ header ∈ table, header.hasRawData = true → ∀ position, header.rawEnd ≤ position →
    position < alignUp header.rawEnd alignment → data[position]? = some 0

namespace CopyJob

/-! ## An output is packed and padded -/

/-- Behind the raw data of a section its copy holds zeros up to the next section. -/
theorem sectionByte_padding {job : CopyJob} {index position : Nat} {entry : SectionHeader}
    (planned : job.Planned) (divides : job.alignment ∣ 2 ^ 32)
    (sourceEntry : job.source.sections[index]? = some entry)
    (le : job.storedSize index ≤ position)
    (lt : position < alignUp (job.storedSize index) job.alignment) :
    job.sectionByte index entry 0 position = 0 := by
  have sizes : job.alignment ∣ job.storedSize index ∨
      job.storedSize index = entry.rawSize.toNat ∧ ∀ placement ∈ job.plan.placementsIn index,
        placement.isGrowing = true → placement.stop ≤ entry.rawSize.toNat := by
    rw [storedSize_of_getElem? sourceEntry]
    exact Placement.dvd_foldl_resize_or planned.positive divides entry.rawSize.toNat_lt
  rcases sizes with aligned | ⟨same, within⟩
  · -- there is no padding
    rw [alignUp_of_dvd aligned] at lt
    omega
  · have reach : job.plan.reach index ≤ entry.rawSize.toNat := Placement.furthest_le within
    have noLive : job.plan.liveByte? job.memory index position = none := by
      refine Plan.liveByte?_eq_none planned.exact fun placement mem => ?_
      have stop := stop_le_max planned sourceEntry mem
      omega
    rw [sectionByte, noLive, Option.getD_none, if_neg (by omega), ite_self]

namespace Dumps

variable {job : CopyJob} {options : DumpOptions} {final : Headers} {output : Bytes} {index : Nat}

/-- Behind the raw data of a section of the output there are zeros, unless a pointer of the
debug directory was rewritten there. -/
theorem getElem?_output_padding (dumps : job.Dumps options final output)
    (small : output.length < 2 ^ 32) {position : Nat} {header : SectionHeader}
    (finalEntry : final.sections[index]? = some header)
    (le : job.storedSize index ≤ position)
    (lt : position < alignUp (job.storedSize index) job.alignment)
    (still : ¬Output.RewritesPointerAt job.source (job.headersAfter job.count).sections
      (job.sectionStart index + position)) :
    output[job.sectionStart index + position]? = some 0 := by
  have inJob : index < job.source.sections.length :=
    Nat.lt_of_lt_of_eq (List.getElem?_eq_some_iff.1 finalEntry).1 dumps.length_final
  have sourceEntry := List.getElem?_eq_getElem inJob
  have divides : job.alignment ∣ 2 ^ 32 := by
    rw [alignment_eq dumps.planned]
    exact Image.fileAlignment_dvd_of_parse dumps.parsed
  have start : job.sectionStart 0 ≤ job.sectionStart index := sectionStart_le (Nat.zero_le _)
  rw [dumps.getElem?_output (dumps.not_covered_of_le (by omega)) still,
    getElem?_copied_section dumps.planned dumps.runnable (dumps.sectionStart_lt small)
      sourceEntry lt,
    sectionByte_padding dumps.planned divides sourceEntry le lt]

section

variable (dumps : job.Dumps options final output) (redumpable : job.source.Redumpable)
  (small : output.length < 2 ^ 32)
include dumps redumpable small

/-- The first sections of an output end where the next one starts. -/
theorem tailStart_take_final (le : index ≤ job.count) :
    SectionTable.tailStart (final.sections.take index) (job.sectionStart 0) job.alignment =
      job.sectionStart index := by
  have copy := tailStart_take_headersAfter dumps.planned redumpable.strayFree dumps.headersInOrder
    (dumps.sectionStart_lt small) le
  rw [dumps.sections_final, ← List.map_take, SectionTable.tailStart,
    Output.lastRawEnd_map_patchedSection, ← SectionTable.tailStart]
  exact copy

theorem packed_reparsed : (job.reparsed final output).Packed := by
  have alignment : (job.reparsed final output).fileAlignment.toNat = job.alignment := by
    rw [dumps.sameShape.fileAlignment, alignment_eq dumps.planned]
  have headersSize : alignUp (job.reparsed final output).offsets.sectionsEnd job.alignment =
      job.sectionStart 0 := by
    rw [dumps.sameShape.offsets, sectionStart]
  have length : final.sections.length = job.count := dumps.length_final
  constructor
  case starts =>
    intro index inRange raw
    have finalEntry := List.getElem?_eq_getElem inRange
    have inJob : index < job.count := Nat.lt_of_lt_of_eq inRange length
    have sourceEntry := List.getElem?_eq_getElem (l := job.source.sections) inJob
    obtain ⟨-, -, pointer⟩ := dumps.stored_header small sourceEntry finalEntry
    rw [alignment, headersSize]
    exact (pointer raw).trans
      (dumps.tailStart_take_final redumpable small (Nat.le_of_lt inJob)).symm
  case strayFree => exact dumps.noStraySizes_final redumpable.strayFree small
  case reaches =>
    have whole := dumps.tailStart_take_final redumpable small (Nat.le_refl job.count)
    rw [List.take_of_length_le (Nat.le_of_eq length)] at whole
    have reached : job.sectionStart job.count ≤ output.length :=
      dumps.length_output ▸ Nat.le_add_right _ _
    rw [alignment, headersSize]
    exact Nat.le_trans (Nat.le_of_eq whole) reached

/-- Between the section table and the first section there are zeros. -/
theorem getElem?_output_headerPadding {position : Nat}
    (le : job.source.offsets.sectionsEnd ≤ position) (lt : position < job.sectionStart 0) :
    output[position]? = some 0 := by
  have uncovered : ¬Bytes.Covered final.pieces position := by
    refine Headers.not_covered_of_ge dumps.finalInOrder ?_
    rw [dumps.offsets_final]
    exact le
  have still := not_rewritesPointerAt dumps.planned (dumps.sectionStart_lt small) redumpable lt
  rw [dumps.getElem?_output uncovered still, getElem?_copied_header dumps.runnable lt,
    if_neg (by omega)]

end

/-- The padding of an output is zero if the debug directory stays inside the raw data of its
section. -/
theorem zeroPadded_of_keepsDebug (dumps : job.Dumps options final output)
    (wellFormed : job.source.WellFormed) (small : output.length < 2 ^ 32)
    (keeps : job.plan.KeepsDebug job.source) :
    SectionTable.ZeroPadded final.sections job.alignment output := by
  intro header mem raw position le lt
  obtain ⟨index, finalEntry⟩ := List.getElem?_of_mem mem
  have inJob : index < job.count :=
    Nat.lt_of_lt_of_eq (List.getElem?_eq_some_iff.1 finalEntry).1 dumps.length_final
  obtain ⟨size, -, pointer⟩ := dumps.stored_header small
    (List.getElem?_eq_getElem (l := job.source.sections) inJob) finalEntry
  rw [SectionHeader.rawEnd, pointer raw, size] at le lt
  rw [alignUp_add_of_dvd (dvd_sectionStart dumps.planned.positive index)] at lt
  obtain ⟨distance, rfl⟩ := Nat.exists_eq_add_of_le (Nat.le_of_add_right_le le)
  refine dumps.getElem?_output_padding small finalEntry (by omega) (by omega) ?_
  intro rewrites
  obtain ⟨directory, present, nonzero, holder, entry, holderEntry, holds, first, last⟩ :=
    within_of_rewritesPointerAt dumps.planned (dumps.sectionStart_lt small) wellFormed rewrites
  -- the section that holds the directory keeps its raw data
  have fits : job.Fits holder := keeps directory present nonzero holder entry holderEntry holds
  have kept : entry.rawSize.toNat ≤ job.storedSize holder := by
    rw [storedSize_eq dumps.planned.positive holderEntry fits]
    exact Nat.le_max_left _ _
  have up : job.storedSize holder ≤ alignUp (job.storedSize holder) job.alignment :=
    le_alignUp dumps.planned.positive
  rcases Nat.lt_trichotomy holder index with before | same | after
  · have next : job.sectionStart holder + alignUp (job.storedSize holder) job.alignment ≤
        job.sectionStart index := sectionStart_le (Nat.succ_le_of_lt before)
    omega
  · subst same
    omega
  · have next : job.sectionStart index + alignUp (job.storedSize index) job.alignment ≤
        job.sectionStart holder := sectionStart_le (Nat.succ_le_of_lt after)
    omega

end Dumps

/-- Every position between the first and the last start belongs to a section. -/
theorem exists_section {job : CopyJob} {position count : Nat}
    (le : job.sectionStart 0 ≤ position) (lt : position < job.sectionStart count) :
    ∃ index < count, job.sectionStart index ≤ position ∧
      position < job.sectionStart (index + 1) := by
  induction count with
  | zero => omega
  | succ count ih =>
    by_cases before : position < job.sectionStart count
    · obtain ⟨index, inRange, within⟩ := ih before
      exact ⟨index, Nat.lt_succ_of_lt inRange, within⟩
    · exact ⟨count, Nat.lt_succ_self count, Nat.le_of_not_lt before, lt⟩

/-! ## The second job -/

/-- The job copies what another job wrote for a well-formed source, and stores nothing in
it. -/
structure Repeats (second job : CopyJob) (options : DumpOptions) (final : Headers)
    (output : Bytes) : Prop where
  dumps : job.Dumps options final output
  redumpable : job.source.Redumpable
  small : output.length < 2 ^ 32
  source : second.source = job.reparsed final output
  planned : second.Planned
  nothing : second.plan.placements = []

namespace Repeats

variable {second job : CopyJob} {options : DumpOptions} {final : Headers} {output : Bytes}
  {index position : Nat} {header : SectionHeader}
  (repeats : second.Repeats job options final output)
include repeats

theorem alignment_eq : second.alignment = job.alignment := by
  rw [CopyJob.alignment_eq repeats.planned, CopyJob.alignment_eq repeats.dumps.planned,
    repeats.source, repeats.dumps.sameShape.fileAlignment]

theorem data_eq : second.source.data = output := by
  rw [repeats.source]
  rfl

theorem count_eq : second.count = job.count := by
  rw [count, repeats.source]
  exact repeats.dumps.length_final

theorem lt_count (finalEntry : final.sections[index]? = some header) : index < job.count :=
  Nat.lt_of_lt_of_eq (List.getElem?_eq_some_iff.1 finalEntry).1 repeats.dumps.length_final

theorem exists_finalEntry (lt : index < job.count) :
    ∃ header, final.sections[index]? = some header :=
  ⟨_, List.getElem?_eq_getElem (Nat.lt_of_lt_of_eq lt repeats.dumps.length_final.symm)⟩

theorem sourceEntry (finalEntry : final.sections[index]? = some header) :
    second.source.sections[index]? = some header := by
  rw [repeats.source]
  exact finalEntry

/-- The header that the first job stored for a section. -/
theorem stored_header (finalEntry : final.sections[index]? = some header) :
    header.rawSize.toNat = job.storedSize index ∧
      (header.hasRawData = true → header.rawPointer.toNat = job.sectionStart index) := by
  have inRange : index < job.source.sections.length := repeats.lt_count finalEntry
  obtain ⟨size, -, pointer⟩ := repeats.dumps.stored_header repeats.small
    (List.getElem?_eq_getElem inRange) finalEntry
  exact ⟨size, pointer⟩

/-- A section without raw data has no size either. -/
theorem hasRawData (finalEntry : final.sections[index]? = some header)
    (sized : header.rawSize.toNat ≠ 0) : header.hasRawData = true := by
  by_contra noData
  have zero := repeats.dumps.noStraySizes_final repeats.redumpable.strayFree repeats.small header
    (List.mem_of_getElem? finalEntry) (Bool.eq_false_iff.2 noData)
  rw [zero] at sized
  exact sized rfl

theorem storedSize_eq (finalEntry : final.sections[index]? = some header) :
    second.storedSize index = header.rawSize.toNat :=
  storedSize_eq_of_nothing repeats.nothing (repeats.sourceEntry finalEntry)

/-! ## The layout -/

/-- Sections start where they started. -/
theorem sectionStart_eq (le : index ≤ job.count) :
    second.sectionStart index = job.sectionStart index := by
  have alignment := repeats.alignment_eq
  induction index with
  | zero =>
    have sectionsEnd : (job.reparsed final output).offsets.sectionsEnd =
        job.source.offsets.sectionsEnd :=
      congrArg HeaderOffsets.sectionsEnd repeats.dumps.offsets_final
    rw [sectionStart, sectionStart, alignment, repeats.source, sectionsEnd]
  | succ index ih =>
    obtain ⟨header, finalEntry⟩ := repeats.exists_finalEntry le
    rw [sectionStart, sectionStart, ih (Nat.le_of_succ_le le), alignment,
      repeats.storedSize_eq finalEntry, (repeats.stored_header finalEntry).1]

/-- A section keeps its header. -/
theorem destination_eq (finalEntry : final.sections[index]? = some header) :
    second.destination index header = header := by
  have inRange := repeats.lt_count finalEntry
  have start := repeats.sectionStart_eq (Nat.le_of_lt inRange)
  have still : second.plan.grows index = false := by
    rw [Plan.grows, Plan.placementsIn_eq_nil repeats.nothing]
    rfl
  have rawPointer : (if header.hasRawData then UInt32.ofNat (second.sectionStart index)
      else header.rawPointer) = header.rawPointer := by
    split
    · rename_i raw
      rw [start, ← (repeats.stored_header finalEntry).2 raw, UInt32.ofNat_toNat]
    · rfl
  have rawSize : UInt32.ofNat (second.storedSize index) = header.rawSize := by
    rw [repeats.storedSize_eq finalEntry, UInt32.ofNat_toNat]
  simp only [destination, still, Bool.or_false, rawPointer, rawSize]
  rfl

/-- The copy has the headers of what is copied. -/
theorem headersAfter_eq : second.headersAfter second.count = final := by
  have start := repeats.sectionStart_eq (Nat.zero_le _)
  obtain ⟨fixed, checksum, -, finalEq, -⟩ := repeats.dumps.exists_stored
  have windows : final.windows = (job.source.windows.withHeadersSize
      (UInt32.ofNat (job.sectionStart 0))).withChecksum checksum := by
    rw [finalEq]
    rfl
  have again : final.windows.withHeadersSize (UInt32.ofNat (job.sectionStart 0)) =
      final.windows := by
    rw [windows]
    cases job.source.windows <;> rfl
  have sections : second.source.sections.mapIdx (fun index entry =>
      if index < second.count then second.destination index entry else entry) =
        final.sections := by
    apply List.ext_getElem?
    intro index
    change (second.headersAfter second.count).sections[index]? = _
    rw [getElem?_headersAfter_count, repeats.source]
    change final.sections[index]?.map (second.destination index) = _
    cases finalEntry : final.sections[index]? with
    | none => rfl
    | some header => exact congrArg some (repeats.destination_eq finalEntry)
  rw [headersAfter, sections, repeats.source, start]
  exact congrArg (fun windows => { final with windows }) again

/-! ## The copy -/

theorem parsed : Image.parse second.source.data = .ok second.source := by
  rw [repeats.source]
  exact repeats.dumps.parse_output repeats.redumpable repeats.small

theorem runnable : second.Runnable second.plan.outputSize := by
  refine runnable_of_packed repeats.planned repeats.parsed ?_ ?_
  · rw [repeats.source]
    exact repeats.dumps.packed_reparsed repeats.redumpable repeats.small
  · intro placement mem
    rw [repeats.nothing] at mem
    cases mem

/-- What follows the sections stays where it is. -/
theorem trailerOffset_eq :
    trailerOffset second.source second.alignment = job.sectionStart job.count := by
  have whole := repeats.dumps.tailStart_take_final repeats.redumpable repeats.small
    (Nat.le_refl job.count)
  have length : final.sections.length = job.count := repeats.dumps.length_final
  rw [List.take_of_length_le (Nat.le_of_eq length)] at whole
  rw [CopyJob.trailerOffset_eq, repeats.sectionStart_eq (Nat.zero_le _), repeats.alignment_eq,
    repeats.source]
  exact whole

theorem sectionStart_count : second.sectionStart second.count = job.sectionStart job.count := by
  rw [repeats.count_eq, repeats.sectionStart_eq (Nat.le_refl _)]

theorem copiedSize_eq : second.copiedSize = output.length := by
  have reached : job.sectionStart job.count ≤ output.length :=
    repeats.dumps.length_output ▸ Nat.le_add_right _ _
  rw [copiedSize, trailerSize, repeats.trailerOffset_eq, repeats.sectionStart_count,
    repeats.data_eq]
  omega

/-- A section of the copy holds its raw data again, and zeros up to the next section. -/
theorem getElem?_copied_section (finalEntry : final.sections[index]? = some header)
    (lt : position < alignUp header.rawSize.toNat job.alignment) :
    second.copied[job.sectionStart index + position]? =
      if position < header.rawSize.toNat then output[job.sectionStart index + position]?
      else some 0 := by
  have inRange := repeats.lt_count finalEntry
  have start := repeats.sectionStart_eq (Nat.le_of_lt inRange)
  obtain ⟨size, pointer⟩ := repeats.stored_header finalEntry
  have countSmall : second.sectionStart second.count < 2 ^ 32 := by
    rw [repeats.sectionStart_count]
    exact repeats.dumps.sectionStart_lt repeats.small
  have inSection : position < alignUp (second.storedSize index) second.alignment := by
    rw [repeats.storedSize_eq finalEntry, repeats.alignment_eq]
    exact lt
  have copied := CopyJob.getElem?_copied_section repeats.planned repeats.runnable countSmall
    (repeats.sourceEntry finalEntry) inSection
  have noLive : second.plan.liveByte? second.memory index position = none := by
    rw [Plan.liveByte?, Plan.placementsIn_eq_nil repeats.nothing]
    rfl
  rw [start, sectionByte, noLive, Option.getD_none, repeats.data_eq, ite_self] at copied
  rw [copied]
  by_cases raw : position < header.rawSize.toNat
  · have hasRawData := repeats.hasRawData finalEntry (Nat.ne_zero_of_lt raw)
    have stored : job.storedSize index ≤ alignUp (job.storedSize index) job.alignment :=
      le_alignUp repeats.dumps.planned.positive
    have next : job.sectionStart index + alignUp (job.storedSize index) job.alignment ≤
        job.copiedSize := sectionStart_le_copiedSize (Nat.succ_le_of_lt inRange)
    have inOutput : job.sectionStart index + position < output.length := by
      rw [repeats.dumps.length_output]
      omega
    rw [if_pos raw, if_pos raw, pointer hasRawData, List.getElem?_eq_getElem inOutput]
    rfl
  · rw [if_neg raw, if_neg raw]

/-- Outside the padding behind the raw data, the copy is what is copied. -/
theorem getElem?_copied_of_ge (le : job.sectionStart job.count ≤ position) :
    second.copied[position]? = output[position]? := by
  obtain ⟨distance, rfl⟩ := Nat.exists_eq_add_of_le le
  by_cases inTrailer : distance < second.trailerSize
  · have copied := getElem?_copied_trailer repeats.runnable inTrailer
    rw [repeats.sectionStart_count, repeats.trailerOffset_eq, repeats.data_eq] at copied
    exact copied
  · have size := repeats.copiedSize_eq
    rw [copiedSize, repeats.sectionStart_count] at size
    have length : second.copied.length = output.length := by
      rw [copied, Buffer.length_resize, repeats.copiedSize_eq]
    rw [List.getElem?_eq_none (by omega), List.getElem?_eq_none (by omega)]

theorem getElem?_copied_of_lt (lt : position < job.sectionStart 0) :
    second.copied[position]? = output[position]? := by
  have start := repeats.sectionStart_eq (Nat.zero_le job.count)
  have copied := CopyJob.getElem?_copied_header repeats.runnable (start.symm ▸ lt)
  have sectionsEnd : second.source.offsets.sectionsEnd = job.source.offsets.sectionsEnd := by
    rw [repeats.source]
    exact congrArg HeaderOffsets.sectionsEnd repeats.dumps.offsets_final
  have inOutput : job.sectionStart 0 ≤ output.length :=
    repeats.dumps.length_output ▸ sectionStart_le_copiedSize (Nat.zero_le _)
  rw [copied, sectionsEnd, repeats.data_eq]
  split
  · rw [List.getElem?_eq_getElem (by omega)]
    rfl
  · exact (repeats.dumps.getElem?_output_headerPadding repeats.redumpable repeats.small
      (by omega) lt).symm

/-- The copy is what is copied exactly if the padding behind the raw data is zero. -/
theorem copied_eq_iff :
    second.copied = output ↔ SectionTable.ZeroPadded final.sections job.alignment output := by
  have padding {index distance : Nat} {header : SectionHeader}
      (finalEntry : final.sections[index]? = some header) (le : header.rawSize.toNat ≤ distance)
      (lt : distance < alignUp header.rawSize.toNat job.alignment) :
      second.copied[job.sectionStart index + distance]? = some 0 := by
    rw [repeats.getElem?_copied_section finalEntry lt, if_neg (by omega)]
  constructor
  · intro same header mem raw position le lt
    obtain ⟨index, finalEntry⟩ := List.getElem?_of_mem mem
    rw [SectionHeader.rawEnd, (repeats.stored_header finalEntry).2 raw] at le lt
    rw [alignUp_add_of_dvd (dvd_sectionStart repeats.dumps.planned.positive index)] at lt
    obtain ⟨distance, rfl⟩ := Nat.exists_eq_add_of_le (Nat.le_of_add_right_le le)
    rw [← same]
    exact padding finalEntry (by omega) (by omega)
  · intro zeroPadded
    apply List.ext_getElem?
    intro position
    by_cases front : position < job.sectionStart 0
    · exact repeats.getElem?_copied_of_lt front
    by_cases behind : job.sectionStart job.count ≤ position
    · exact repeats.getElem?_copied_of_ge behind
    obtain ⟨index, inRange, start, next⟩ :=
      exists_section (Nat.le_of_not_lt front) (Nat.lt_of_not_le behind)
    obtain ⟨header, finalEntry⟩ := repeats.exists_finalEntry inRange
    obtain ⟨size, pointer⟩ := repeats.stored_header finalEntry
    obtain ⟨distance, rfl⟩ := Nat.exists_eq_add_of_le start
    rw [sectionStart, ← size] at next
    have inSection : distance < alignUp header.rawSize.toNat job.alignment := by omega
    by_cases raw : distance < header.rawSize.toNat
    · rw [repeats.getElem?_copied_section finalEntry inSection, if_pos raw]
    · rw [padding finalEntry (Nat.le_of_not_lt raw) inSection]
      have mem := List.mem_of_getElem? finalEntry
      have hasRawData : header.hasRawData = true := by
        refine repeats.hasRawData finalEntry fun empty => ?_
        rw [empty, alignUp_zero] at inSection
        exact Nat.not_lt_zero distance inSection
      refine (zeroPadded header mem hasRawData _ ?_ ?_).symm
      · rw [SectionHeader.rawEnd, pointer hasRawData]
        omega
      · rw [SectionHeader.rawEnd, pointer hasRawData,
          alignUp_add_of_dvd (dvd_sectionStart repeats.dumps.planned.positive index)]
        omega

/-- The second job ends with an output, which is that of the first exactly if the padding
behind its raw data is zero. -/
theorem exists_output {again : DumpOptions} (sameChecksum : again.checksum = options.checksum) :
    ∃ last result, Output.patch second.copied second.source (second.headersAfter second.count)
        again = .ok (last, result) ∧
      (result = output ↔ SectionTable.ZeroPadded final.sections job.alignment output) := by
  have dumps := repeats.dumps
  have length : second.copied.length = output.length := by
    rw [copied, Buffer.length_resize, repeats.copiedSize_eq]
  have headersLe : job.source.offsets.sectionsEnd ≤ job.sectionStart 0 :=
    le_alignUp dumps.planned.positive
  have fits : (job.headersAfter job.count).offsets.sectionsEnd ≤ output.length := by
    have reached : job.sectionStart 0 ≤ output.length :=
      dumps.length_output ▸ sectionStart_le_copiedSize (Nat.zero_le _)
    exact Nat.le_trans headersLe reached
  have directories : second.source.directories = job.source.directories := by
    rw [repeats.source]
    rfl
  have sections : second.source.sections = final.sections := by
    rw [repeats.source]
    rfl
  obtain ⟨last, result, patched, outside, agrees⟩ := Output.exists_patch_again
    (headersInOrder_headersAfter dumps.headersInOrder) dumps.patched fits directories sections
    length sameChecksum
  rw [repeats.headersAfter_eq]
  refine ⟨last, result, patched, ?_⟩
  rw [← repeats.copied_eq_iff]
  constructor
  · intro same
    apply List.ext_getElem?
    intro position
    by_cases covered : Bytes.Covered final.pieces position
    · -- the headers are copied as they are
      have inFront : position < job.sectionStart 0 := by
        by_contra behind
        exact dumps.not_covered_of_le (Nat.le_of_not_lt behind) covered
      exact repeats.getElem?_copied_of_lt inFront
    · rw [← outside position covered, same]
  · intro same
    exact agrees fun position _ => by rw [same]

end Repeats
end CopyJob

/-- **Dumping an output again.** A dump below `2 ^ 32` bytes of a well-formed source is dumped
again without fail if there is nothing to store. The second dump is the first exactly if there
are only zeros between the raw data of each section and the next multiple of the alignment.
That is so if the debug directory stays inside the raw data of its section. -/
theorem redump_eq_iff {source output : Bytes} {memory idle : MemoryImage} {options : DumpOptions}
    {image : Image} {plan : Plan} (exact : memory.Exact) (parsed : Image.parse source = .ok image)
    (wellFormed : image.WellFormed) (analyzed : Plan.analyze image memory options = .ok plan)
    (dumped : dumpImage source memory options = .ok output) (small : output.length < 2 ^ 32)
    (empty : ∀ kind, (idle.region kind).isEmpty = true) :
    ∃ table again, Image.readTable .sectionHeader SectionHeader.codec output
        image.offsets.sections image.sections.length = .ok table ∧
      dumpImage output idle { dataSection := none, checksum := options.checksum } = .ok again ∧
      (again = output ↔
        SectionTable.ZeroPadded table image.fileAlignment.toNat output) ∧
      (plan.KeepsDebug image → again = output) := by
  obtain ⟨final, dumps⟩ := CopyJob.dumps_of_dumpImage exact parsed analyzed dumped
  have alignment : CopyJob.alignment { source := image, memory, plan } =
      image.fileAlignment.toNat := CopyJob.alignment_eq dumps.planned
  obtain ⟨fixed, checksum, -, -, stored⟩ := dumps.exists_stored
  have read := stored.sectionsAt
  rw [dumps.offsets_final, dumps.length_final] at read
  have redumpable := wellFormed.redumpable (Image.fileAlignment_pos_of_parse parsed)
  have parsedAgain := dumps.parse_output redumpable small
  have analyzedAgain : Plan.analyze
      (CopyJob.reparsed { source := image, memory, plan } final output) idle
      { dataSection := none, checksum := options.checksum } = .ok (Plan.idle _ _) :=
    Plan.analyze_of_empty rfl empty
  have positive := Image.fileAlignment_pos_of_parse parsedAgain
  -- the second job, which reads nothing
  generalize again : CopyJob.mk (CopyJob.reparsed { source := image, memory, plan } final output)
    idle (Plan.idle (CopyJob.reparsed { source := image, memory, plan } final output)
      idle.imageBase) = second
  have planned : second.restricted.Planned := by
    subst again
    exact CopyJob.planned_restricted positive (Plan.sound_of_analyze positive analyzedAgain) nofun
  have repeats : second.restricted.Repeats { source := image, memory, plan } options final
      output := by
    subst again
    exact { dumps, redumpable, small, planned, source := rfl, nothing := rfl }
  have ran := (CopyJob.run_eq_ok_iff planned).2
    ⟨(Buffer.size_zeros second.plan.outputSize).symm ▸ repeats.runnable, rfl⟩
  rw [CopyJob.run_restricted] at ran
  obtain ⟨last, result, patched, same⟩ := repeats.exists_output rfl
  have dumpedAgain : dumpImage output idle
      { dataSection := none, checksum := options.checksum } = .ok result := by
    subst again
    exact dumpImage_eq_ok_iff.2 ⟨_, _, _, last, parsedAgain, analyzedAgain, ran, patched⟩
  rw [alignment] at same
  refine ⟨final.sections, result, read, dumpedAgain, same, fun keeps => ?_⟩
  exact same.2 (alignment ▸ dumps.zeroPadded_of_keepsDebug wellFormed small keeps)

/-- The dump of `growingMemory` is dumped again as it is. -/
theorem redump_growingMemory :
    dumpImage growingDump idleMemory.toMemoryImage plainOptions = .ok growingDump := by
  have keeps : growingPlan.KeepsDebug wideSource := Plan.keepsDebug_of_fits (by decide +kernel)
  obtain ⟨_, again, -, dumpedAgain, -, same⟩ :=
    redump_eq_iff growingMemory.exact_toMemoryImage parse_wideImage wellFormed_wideSource
      analyze_growingMemory dumpImage_growingMemory (by decide +kernel)
      (fun kind => show (idleMemory.toMemoryImage.region kind).isEmpty = true from rfl)
  rw [same keeps] at dumpedAgain
  exact dumpedAgain

/-- A section with a debug directory at the end of its forty-eight bytes of raw data, and
with the largest virtual size there is. -/
def spillingSection : SectionHeader :=
  { pageSection 0x1000 336 48 with virtualSize := 0xffffffff }

/-- A section with two bytes of padding behind its raw data. -/
def paddedSection : SectionHeader := { pageSection 0x100 384 30 with virtualSize := 32 }

/-- An image with these two sections. The second ends where a pointer of the debug directory
is looked for, once `overflowingMemory` cut the first one short. -/
def spillingImage : Bytes :=
  imageWith (List.replicate 6 absentDirectory ++ [{ virtualAddress := 0x1014, size := 28 }])
    [spillingSection, paddedSection]
    (Bytes.zeros 16 ++ List.replicate 48 0x11 ++ List.replicate 28 0x22 ++ [0x01, 0x00])

/-- What is read from `spillingImage`. -/
def spillingSource : Image := (Image.parse spillingImage).toOption.get (by decide +kernel)

theorem parse_spillingImage : Image.parse spillingImage = .ok spillingSource := eq_ok_get _

theorem wellFormed_spillingSource : spillingSource.WellFormed where
  signature := by decide +kernel
  directories := by decide +kernel
  strayFree := by decide +kernel
  apart := by
    have two : spillingSource.sections = [spillingSection, paddedSection] := by decide +kernel
    have firstStart : spillingSection.virtualAddress.toNat = 0x1000 := rfl
    have secondStart : paddedSection.virtualAddress.toNat = 0x100 := rfl
    have secondSize : alignUp paddedSection.extent spillingSource.fileAlignment.toNat = 32 := by
      decide +kernel
    rw [two, List.pairwise_pair]
    intro rva first second
    have start := first.1
    have stop := second.2
    omega
  debug := by
    intro directory present nonzero
    have debug : spillingSource.directory? .debug =
        some { virtualAddress := 0x1014, size := 28 } := by decide +kernel
    rw [debug] at present
    cases present
    refine ⟨spillingSection, by decide +kernel, ?_⟩
    constructor
    case raw => rfl
    case starts => decide +kernel
    case stops => decide +kernel

/-- The dump of `overflowingMemory` into `spillingImage`. -/
def spilledDump : Bytes :=
  (dumpImage spillingImage overflowingMemory.toMemoryImage plainOptions).toOption.get
    (by decide +kernel)

theorem dumpImage_spillingImage :
    dumpImage spillingImage overflowingMemory.toMemoryImage plainOptions = .ok spilledDump :=
  eq_ok_get _

/-- The relocated pointer of the debug directory is stored across the end of the raw data of
the second section. Dumping the output again keeps two bytes of it. -/
theorem redump_ne_spillingMemory :
    Image.parse spillingImage = .ok spillingSource ∧ spillingSource.WellFormed ∧
      overflowingMemory.toMemoryImage.Exact ∧
      dumpImage spillingImage overflowingMemory.toMemoryImage plainOptions = .ok spilledDump ∧
      spilledDump.length < 2 ^ 32 ∧
      (∀ kind, (idleMemory.toMemoryImage.region kind).isEmpty = true) ∧
      ∃ again, dumpImage spilledDump idleMemory.toMemoryImage plainOptions = .ok again ∧
        spilledDump.slice 364 4 = [0xf1, 0xff, 0xff, 0xff] ∧
        again.slice 364 4 = [0xf1, 0xff, 0x00, 0x00] ∧ again ≠ spilledDump := by
  refine ⟨parse_spillingImage, wellFormed_spillingSource, overflowingMemory.exact_toMemoryImage,
    dumpImage_spillingImage, by decide +kernel, fun _ => rfl, _, eq_ok_get (by decide +kernel), ?_⟩
  decide +kernel

end ImageDump
