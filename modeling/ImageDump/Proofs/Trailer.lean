import ImageDump.Proofs.Loader

/-!
# Offsets behind the last section

What follows the sections of the source is copied behind the sections of the
output, from one aligned end to the other. Relocation moves an offset there by
the distance of the two raw ends, which are not aligned. The two agree exactly if
the raw ends leave the same remainder modulo the file alignment, and if the
output has no raw data when the source has none (`relocate_trailer_iff`). A section
with an unaligned raw size that grows is enough to tell them apart
(`relocate_trailer_growingMemory`).
-/

namespace ImageDump

/-! ## The end of the raw data -/

namespace SectionTable

variable {table : SectionTable}

/-- Either no section has raw data, or the raw data ends with that of a section
behind which there is none. -/
theorem lastRawEnd_cases (table : SectionTable) :
    (∀ header ∈ table, header.hasRawData = false) ∧ table.lastRawEnd = 0 ∨
      ∃ before last after, table = before ++ last :: after ∧ last.hasRawData = true ∧
        (∀ header ∈ after, header.hasRawData = false) ∧ table.lastRawEnd = last.rawEnd := by
  unfold lastRawEnd
  cases found : table.reverse.find? (·.hasRawData) with
  | none =>
    refine .inl ⟨fun header mem => ?_, rfl⟩
    have noData := List.find?_eq_none.1 found header (List.mem_reverse.2 mem)
    exact Bool.eq_false_iff.2 noData
  | some last =>
    obtain ⟨raw, after, before, split, noData⟩ := List.find?_eq_some_iff_append.1 found
    refine .inr ⟨before.reverse, last, after.reverse, ?_, raw, fun header mem => ?_, rfl⟩
    · rw [← List.reverse_reverse table, split, List.reverse_append, List.reverse_cons,
        List.append_assoc]
      rfl
    · have none := noData header (List.mem_reverse.1 mem)
      simpa using none

/-- A section without raw data and without a stray size ends at zero. -/
theorem NoStraySizes.rawEnd_eq_zero (strayFree : table.NoStraySizes) {header : SectionHeader}
    (mem : header ∈ table) (noData : header.hasRawData = false) : header.rawEnd = 0 := by
  rw [SectionHeader.rawEnd, SectionHeader.hasRawData_eq_false_iff.1 noData,
    strayFree header mem noData]
  rfl

/-- No raw data ends behind the last one. -/
theorem rawEnd_le_lastRawEnd_of_hasRawData (ordered : table.Pairwise Image.InFileOrder)
    {header : SectionHeader} (mem : header ∈ table) (raw : header.hasRawData = true) :
    header.rawEnd ≤ table.lastRawEnd := by
  rcases lastRawEnd_cases table with ⟨noData, -⟩ | ⟨before, last, after, rfl, lastRaw, noData, eq⟩
  · rw [noData header mem] at raw
    cases raw
  · rw [eq]
    obtain ⟨-, -, first⟩ := List.pairwise_append.1 ordered
    rcases List.mem_append.1 mem with early | late
    · have le := first header early last List.mem_cons_self raw lastRaw
      exact Nat.le_trans le (Nat.le_add_right _ _)
    · rcases List.mem_cons.1 late with rfl | late
      · exact Nat.le_refl _
      · rw [noData header late] at raw
        cases raw

theorem rawEnd_le_lastRawEnd (ordered : table.Pairwise Image.InFileOrder)
    (strayFree : table.NoStraySizes) {header : SectionHeader} (mem : header ∈ table) :
    header.rawEnd ≤ table.lastRawEnd := by
  cases raw : header.hasRawData with
  | false =>
    rw [strayFree.rawEnd_eq_zero mem raw]
    exact Nat.zero_le _
  | true => exact rawEnd_le_lastRawEnd_of_hasRawData ordered mem raw

/-- The raw data of a section ends far below `2 ^ 64`. -/
theorem lastRawEnd_lt (table : SectionTable) : table.lastRawEnd < 2 ^ 33 := by
  rcases lastRawEnd_cases table with ⟨-, zero⟩ | ⟨before, last, after, -, -, -, eq⟩
  · rw [zero]
    decide
  · have pointerSmall := last.rawPointer.toNat_lt
    have sizeSmall := last.rawSize.toNat_lt
    rw [eq, SectionHeader.rawEnd]
    omega

/-- Where a file goes on behind its sections, if its headers take up the first
`headersSize` bytes. -/
def tailStart (table : SectionTable) (headersSize alignment : Nat) : Nat :=
  if table.lastRawEnd = 0 then headersSize else alignUp table.lastRawEnd alignment

theorem lastRawEnd_concat (table : SectionTable) (header : SectionHeader) :
    lastRawEnd (table ++ [header]) =
      if header.hasRawData then header.rawEnd else table.lastRawEnd := by
  rw [lastRawEnd, List.reverse_append, List.reverse_singleton, List.singleton_append,
    List.find?_cons]
  cases header.hasRawData with
  | false => rfl
  | true => rfl

variable {headersSize alignment : Nat}

/-- In a table without gaps, the first sections end where the next one starts. -/
theorem tailStart_take {start : Nat → Nat} (first : start 0 = headersSize)
    (next : ∀ index header, table[index]? = some header →
      start (index + 1) = start index + alignUp header.rawSize.toNat alignment)
    (aligned : ∀ index, alignment ∣ start index) (strayFree : table.NoStraySizes)
    (pointers : ∀ index header, table[index]? = some header → header.hasRawData = true →
      tailStart (table.take index) headersSize alignment = start index →
      header.rawPointer.toNat = start index) {index : Nat} (le : index ≤ table.length) :
    tailStart (table.take index) headersSize alignment = start index := by
  induction index with
  | zero => exact first.symm
  | succ index ih =>
    have before := ih (Nat.le_of_succ_le le)
    have entry := List.getElem?_eq_getElem le
    rw [next index _ entry, ← List.take_append_getElem le, tailStart, lastRawEnd_concat]
    cases raw : table[index].hasRawData with
    | true =>
      have pointer := pointers index _ entry raw before
      have nonzero := SectionHeader.hasRawData_eq_true_iff.1 raw
      rw [if_pos rfl, SectionHeader.rawEnd, if_neg (by omega), pointer,
        alignUp_add_of_dvd (aligned index)]
    | false =>
      have noSize := strayFree _ (List.getElem_mem le) raw
      rw [if_neg Bool.false_ne_true, ← tailStart, before, noSize, UInt32.toNat_zero,
        alignUp_zero, Nat.add_zero]

theorem lastRawEnd_le_tailStart (positive : 0 < alignment) :
    table.lastRawEnd ≤ table.tailStart headersSize alignment := by
  unfold tailStart
  split
  · rename_i none
    rw [none]
    exact Nat.zero_le _
  · exact le_alignUp positive

theorem tailStart_pos (positive : 0 < alignment) (headersPositive : 0 < headersSize) :
    0 < table.tailStart headersSize alignment := by
  have le : table.lastRawEnd ≤ table.tailStart headersSize alignment :=
    lastRawEnd_le_tailStart positive
  by_cases none : table.lastRawEnd = 0
  · rw [tailStart, if_pos none]
    exact headersPositive
  · omega

theorem tailStart_lt (positive : 0 < alignment) (alignmentSmall : alignment < 2 ^ 32)
    (headersSmall : headersSize < 2 ^ 32) : table.tailStart headersSize alignment < 2 ^ 34 := by
  have lastSmall := table.lastRawEnd_lt
  unfold tailStart
  split
  · omega
  · have up : alignUp table.lastRawEnd alignment < table.lastRawEnd + alignment :=
      alignUp_lt_add positive
    omega

end SectionTable

/-- The raw data of source and copy leave the same padding before what follows:
there is none in either, or both ends leave the same remainder modulo the
alignment. -/
def SameTail (source destination : SectionTable) (alignment : Nat) : Prop :=
  (source.lastRawEnd = 0 ↔ destination.lastRawEnd = 0) ∧
    destination.lastRawEnd % alignment = source.lastRawEnd % alignment

instance (source destination : SectionTable) (alignment : Nat) :
    Decidable (SameTail source destination alignment) :=
  inferInstanceAs (Decidable (_ ∧ _))

namespace SectionTable

/-- Two tails are at the same distance from the raw data in front of them exactly
if they are the same. -/
theorem tailStart_add_eq_iff {source destination : SectionTable} {headersSize alignment : Nat}
    (positive : 0 < alignment) (alignmentLe : alignment ≤ headersSize) :
    destination.lastRawEnd + source.tailStart headersSize alignment =
        destination.tailStart headersSize alignment + source.lastRawEnd ↔
      SameTail source destination alignment := by
  have paddingLt (last : Nat) : alignUp last alignment < last + alignment :=
    alignUp_lt_add positive
  have sourcePadding := paddingLt source.lastRawEnd
  have destinationPadding := paddingLt destination.lastRawEnd
  unfold SameTail tailStart
  by_cases sourceNone : source.lastRawEnd = 0
  · by_cases destinationNone : destination.lastRawEnd = 0
    · simp [sourceNone, destinationNone]
    · rw [if_neg destinationNone, if_pos sourceNone]
      constructor
      · intro equal
        omega
      · intro agrees
        exact absurd (agrees.1.1 sourceNone) destinationNone
  · by_cases destinationNone : destination.lastRawEnd = 0
    · rw [if_pos destinationNone, if_neg sourceNone]
      constructor
      · intro equal
        omega
      · intro agrees
        exact absurd (agrees.1.2 destinationNone) sourceNone
    · rw [if_neg destinationNone, if_neg sourceNone]
      have remainders := alignUp_add_eq_iff (a := destination.lastRawEnd)
        (b := source.lastRawEnd) positive
      constructor
      · intro equal
        exact ⟨⟨fun none => absurd none sourceNone, fun none => absurd none destinationNone⟩,
          remainders.1 (by omega)⟩
      · intro agrees
        have equal := remainders.2 agrees.2
        omega

end SectionTable

/-- An offset behind all raw data moves with the end of the raw data. -/
theorem relocate_of_ge {source destination : SectionTable} {offset : UInt64}
    (ordered : source.Pairwise Image.InFileOrder) (strayFree : source.NoStraySizes)
    (positive : 0 < offset.toNat) (le : source.lastRawEnd ≤ offset.toNat) :
    relocate source destination offset =
      offset + UInt64.ofNat destination.lastRawEnd - UInt64.ofNat source.lastRawEnd := by
  have nonzero : offset ≠ 0 := by
    intro same
    subst same
    exact absurd positive (Nat.lt_irrefl 0)
  rw [relocate, if_neg nonzero, List.find?_eq_none.2]
  intro pair mem
  obtain ⟨header, other⟩ := pair
  have inSource := (List.of_mem_zip mem).1
  have stop := SectionTable.rawEnd_le_lastRawEnd ordered strayFree inSource
  simp only [decide_eq_true_eq]
  omega

namespace CopyJob

variable {job : CopyJob} {index : Nat} {entry : SectionHeader}

/-- The first sections of a copy end where the next one starts. -/
theorem tailStart_take_headersAfter (planned : job.Planned)
    (strayFree : SectionTable.NoStraySizes job.source.sections)
    (ordered : Image.HeadersInOrder job.source.toHeaders)
    (small : job.sectionStart job.count < 2 ^ 32) (le : index ≤ job.count) :
    SectionTable.tailStart ((job.headersAfter job.count).sections.take index)
        (job.sectionStart 0) job.alignment = job.sectionStart index := by
  -- what the headers of the copy say about its sections
  have entries (index : Nat) (header : SectionHeader)
      (copiedEntry : (job.headersAfter job.count).sections[index]? = some header) :
      ∃ entry, job.source.sections[index]? = some entry ∧ index < job.count ∧
        header = job.destination index entry ∧
        header.rawSize.toNat = job.storedSize index := by
    rw [getElem?_headersAfter_count, Option.map_eq_some_iff] at copiedEntry
    obtain ⟨entry, sourceEntry, rfl⟩ := copiedEntry
    have inRange : index < job.count := (List.getElem?_eq_some_iff.1 sourceEntry).1
    exact ⟨entry, sourceEntry, inRange, rfl,
      toNat_rawSize_destination (storedSize_lt planned.positive small inRange)⟩
  apply SectionTable.tailStart_take
  case first => rfl
  case next =>
    intro index header copiedEntry
    obtain ⟨entry, -, -, -, size⟩ := entries index header copiedEntry
    rw [size, sectionStart]
  case aligned => exact dvd_sectionStart planned.positive
  case strayFree =>
    intro header mem noData
    obtain ⟨index, copiedEntry⟩ := List.getElem?_of_mem mem
    obtain ⟨entry, sourceEntry, inRange, rfl, size⟩ := entries index header copiedEntry
    rw [hasRawData_destination planned ordered small (Nat.le_of_lt inRange)] at noData
    rw [storedSize_eq_zero planned strayFree sourceEntry noData] at size
    exact UInt32.toNat_inj.1 size
  case pointers =>
    intro index header copiedEntry raw _
    obtain ⟨entry, -, inRange, rfl, -⟩ := entries index header copiedEntry
    exact rawPointer_destination small (Nat.le_of_lt inRange) raw
  case le =>
    have length : (job.headersAfter job.count).sections.length = job.count := List.length_mapIdx
    rw [length]
    exact le

/-- The sections of a copy end at the aligned end of its raw data, if it has
any. -/
theorem sectionStart_count (planned : job.Planned)
    (strayFree : SectionTable.NoStraySizes job.source.sections)
    (ordered : Image.HeadersInOrder job.source.toHeaders)
    (small : job.sectionStart job.count < 2 ^ 32) :
    job.sectionStart job.count =
      (job.headersAfter job.count).sections.tailStart (job.sectionStart 0) job.alignment := by
  have length : (job.headersAfter job.count).sections.length = job.count := List.length_mapIdx
  have ends := tailStart_take_headersAfter planned strayFree ordered small (Nat.le_refl _)
  rw [List.take_of_length_le (Nat.le_of_eq length)] at ends
  exact ends.symm

theorem toNat_add_ofNat {distance : Nat} {offset : UInt64}
    (small : offset.toNat + distance < 2 ^ 64) :
    (offset + UInt64.ofNat distance).toNat = offset.toNat + distance := by
  have distanceSmall : distance < UInt64.size := Nat.lt_of_le_of_lt (Nat.le_add_left _ _) small
  rw [UInt64.toNat_add, UInt64.toNat_ofNat_of_lt' distanceSmall, Nat.mod_eq_of_lt small]

theorem toNat_relocate {source destination : Nat} {offset : UInt64}
    (le : source ≤ offset.toNat + destination) (small : offset.toNat + destination < 2 ^ 64) :
    (offset + UInt64.ofNat destination - UInt64.ofNat source).toNat =
      offset.toNat + destination - source := by
  have sourceSmall : source < UInt64.size := Nat.lt_of_le_of_lt le small
  have sourceEq : (UInt64.ofNat source).toNat = source := UInt64.toNat_ofNat_of_lt' sourceSmall
  have sourceLe : UInt64.ofNat source ≤ offset + UInt64.ofNat destination := by
    rw [UInt64.le_iff_toNat_le, toNat_add_ofNat small, sourceEq]
    exact le
  rw [UInt64.toNat_sub_of_le _ _ sourceLe, toNat_add_ofNat small, sourceEq]

theorem trailerOffset_eq (job : CopyJob) : trailerOffset job.source job.alignment =
    job.source.sections.tailStart (job.sectionStart 0) job.alignment := by
  unfold trailerOffset SectionTable.tailStart
  by_cases none : job.source.sections.lastRawEnd = 0
  · simp only [if_pos none]
    rfl
  · simp only [if_neg none]

/-- An offset behind the sections of the source is relocated to where its byte was
copied exactly if source and copy have the same tail. -/
theorem relocate_eq_iff (planned : job.Planned)
    (parsed : Image.parse job.source.data = .ok job.source)
    (strayFree : SectionTable.NoStraySizes job.source.sections)
    (small : job.copiedSize < 2 ^ 32) {offset : UInt64}
    (le : trailerOffset job.source job.alignment ≤ offset.toNat)
    (lt : offset.toNat < job.source.data.length) :
    (relocate job.source.sections (job.headersAfter job.count).sections offset).toNat =
        job.sectionStart job.count + (offset.toNat - trailerOffset job.source job.alignment) ↔
      SameTail job.source.sections (job.headersAfter job.count).sections job.alignment := by
  have positive := planned.positive
  have ordered := Image.headersInOrder_of_parse parsed
  have countSmall : job.sectionStart job.count < 2 ^ 32 :=
    Nat.lt_of_le_of_lt (Nat.le_add_right _ _) small
  have startPositive := sectionStart_pos planned ordered 0
  have startSmall := sectionStart_lt countSmall (Nat.zero_le _)
  -- the headers take up at least one alignment
  have alignmentLe : job.alignment ≤ job.sectionStart 0 :=
    Nat.le_of_dvd startPositive (dvd_sectionStart positive 0)
  have tails : (job.headersAfter job.count).sections.lastRawEnd +
        trailerOffset job.source job.alignment =
          job.sectionStart job.count + job.source.sections.lastRawEnd ↔
      SameTail job.source.sections (job.headersAfter job.count).sections job.alignment := by
    rw [sectionStart_count planned strayFree ordered countSmall, trailerOffset_eq]
    exact SectionTable.tailStart_add_eq_iff positive alignmentLe
  have sourceLe : job.source.sections.lastRawEnd ≤ trailerOffset job.source job.alignment :=
    trailerOffset_eq job ▸ SectionTable.lastRawEnd_le_tailStart positive
  have trailerPositive : 0 < trailerOffset job.source job.alignment :=
    trailerOffset_eq job ▸ SectionTable.tailStart_pos positive startPositive
  have trailerLt : trailerOffset job.source job.alignment < 2 ^ 34 :=
    trailerOffset_eq job ▸
      SectionTable.tailStart_lt positive job.plan.fileAlignment.toNat_lt startSmall
  have trailerSmall : offset.toNat - trailerOffset job.source job.alignment < 2 ^ 32 := by
    unfold copiedSize trailerSize at small
    omega
  have sourceSmall := job.source.sections.lastRawEnd_lt
  have destinationSmall := (job.headersAfter job.count).sections.lastRawEnd_lt
  rw [relocate_of_ge (Image.inFileOrder_of_parse parsed) strayFree
    (Nat.lt_of_lt_of_le trailerPositive le) (Nat.le_trans sourceLe le),
    toNat_relocate (Nat.le_add_right_of_le (Nat.le_trans sourceLe le)) (by omega), ← tails]
  omega

end CopyJob

/-- **Offsets behind the sections.** In a dump below `2 ^ 32` bytes, the byte at an
offset of the source behind its sections is copied behind the sections of the
copy, and relocation finds it there exactly if source and copy have the same
tail. -/
theorem relocate_trailer_iff {source output : Bytes} {memory : MemoryImage}
    {options : DumpOptions} {image : Image} {plan : Plan} (exact : memory.Exact)
    (parsed : Image.parse source = .ok image)
    (strayFree : SectionTable.NoStraySizes image.sections)
    (analyzed : Plan.analyze image memory options = .ok plan)
    (dumped : dumpImage source memory options = .ok output) (small : output.length < 2 ^ 32) :
    ∃ before copied,
      CopyJob.beforeTrailer { source := image, memory, plan } (Buffer.zeros plan.outputSize) =
        .ok before ∧
      CopyJob.copyTrailer { source := image, memory, plan } before = .ok copied ∧
      ∀ offset : UInt64,
        CopyJob.trailerOffset image plan.fileAlignment.toNat ≤ offset.toNat →
        offset.toNat < source.length →
        let position := before.cursor.position +
          (offset.toNat - CopyJob.trailerOffset image plan.fileAlignment.toNat)
        some (copied.cursor.output.byte position) = source[offset.toNat]? ∧
          ((relocate image.sections copied.headers.sections offset).toNat = position ↔
            SameTail image.sections copied.headers.sections
              plan.fileAlignment.toNat) := by
  obtain ⟨final, dumps⟩ := CopyJob.dumps_of_dumpImage exact parsed analyzed dumped
  have planned := dumps.planned
  have runnable := dumps.runnable
  have data : image.data = source := Image.data_of_parse parsed
  rw [dumps.length_output] at small
  refine ⟨_, CopyJob.finalState { source := image, memory, plan } (Buffer.zeros plan.outputSize),
    (CopyJob.beforeTrailer_eq_ok_iff planned).2
      ⟨⟨runnable.headersInside, runnable.headersFit, runnable.sections⟩, rfl⟩,
    CopyJob.copyTrailer_eq_ok_iff.2 ⟨?_, rfl⟩, ?_⟩
  · rw [CopyJob.stateAfter, CopyJob.size_outputAfter]
    exact runnable.trailerFits
  · intro offset le lt position
    rw [← data] at lt
    have inTrailer : offset.toNat - CopyJob.trailerOffset image plan.fileAlignment.toNat <
        CopyJob.trailerSize { source := image, memory, plan } := by
      unfold CopyJob.trailerSize
      exact Nat.sub_lt_sub_right le lt
    have sourceOffset : CopyJob.trailerOffset image plan.fileAlignment.toNat +
        (offset.toNat - CopyJob.trailerOffset image plan.fileAlignment.toNat) =
          offset.toNat := Nat.add_sub_cancel' le
    refine ⟨?_, CopyJob.relocate_eq_iff planned dumps.parsed strayFree small le lt⟩
    have byte : ((CopyJob.finalState { source := image, memory, plan }
        (Buffer.zeros plan.outputSize)).cursor.output.byte position) =
        image.data[CopyJob.trailerOffset image plan.fileAlignment.toNat +
          (offset.toNat - CopyJob.trailerOffset image plan.fileAlignment.toNat)]?.getD 0 :=
      CopyJob.byte_finalOutput_trailer inTrailer
    rw [sourceOffset, List.getElem?_eq_getElem lt] at byte
    rw [byte, ← data, List.getElem?_eq_getElem lt]
    rfl

/-- Memory with one live byte inside the raw data. -/
def settledMemory : Snapshot := Snapshot.setRegion { imageBase := 0x400000 } .bss 0x401000 [0xcc]

/-- The plan to store `settledMemory` in `wideImage`. -/
def settledPlan : Plan :=
  (Plan.analyze wideSource settledMemory.toMemoryImage plainOptions).toOption.get
    (by decide +kernel)

theorem analyze_settledMemory :
    Plan.analyze wideSource settledMemory.toMemoryImage plainOptions = .ok settledPlan :=
  eq_ok_get _

/-- As long as nothing grows, the symbol table behind the sections is found where it
was copied. -/
theorem relocate_trailer_settledMemory : ∃ before copied,
    CopyJob.beforeTrailer {
      source := wideSource, memory := settledMemory.toMemoryImage, plan := settledPlan }
      (Buffer.zeros settledPlan.outputSize) = .ok before ∧
    CopyJob.copyTrailer {
      source := wideSource, memory := settledMemory.toMemoryImage, plan := settledPlan }
      before = .ok copied ∧
    (relocate wideSource.sections copied.headers.sections 336).toNat =
      before.cursor.position := by
  obtain ⟨output, dumped, small⟩ : ∃ output,
      dumpImage wideImage settledMemory.toMemoryImage plainOptions = .ok output ∧
        output.length < 2 ^ 32 := ⟨_, eq_ok_get (by decide +kernel), by decide +kernel⟩
  obtain ⟨before, copied, beforeRan, copiedRan, found⟩ :=
    relocate_trailer_iff settledMemory.exact_toMemoryImage parse_wideImage (by decide +kernel)
      analyze_settledMemory dumped small
  have ran : CopyJob.run {
      source := wideSource, memory := settledMemory.toMemoryImage, plan := settledPlan }
      (Buffer.zeros settledPlan.outputSize) = .ok copied := by
    rw [CopyJob.run_eq_bind, bind_eq_ok_iff]
    exact ⟨before, beforeRan, copiedRan⟩
  obtain ⟨result, computed, sameTail⟩ : ∃ result,
      CopyJob.run {
        source := wideSource, memory := settledMemory.toMemoryImage, plan := settledPlan }
        (Buffer.zeros settledPlan.outputSize) = .ok result ∧
      SameTail wideSource.sections result.headers.sections
        settledPlan.fileAlignment.toNat :=
    ⟨_, eq_ok_get (by decide +kernel), by decide +kernel⟩
  cases computed.symm.trans ran
  have trailer : CopyJob.trailerOffset wideSource settledPlan.fileAlignment.toNat = 336 := by
    decide +kernel
  rw [trailer] at found
  exact ⟨before, copied, beforeRan, copiedRan,
    ((found 336 (by decide) (by decide +kernel)).2).2 sameTail⟩

/-- A section with forty bytes of raw data grows to sixty-four. The trailer starts
at 336 in the source and at 352 in the copy, and relocation takes it to be at
360. -/
theorem relocate_trailer_growingMemory :
    SectionTable.NoStraySizes wideSource.sections ∧ growingDump.length < 2 ^ 32 ∧
      CopyJob.trailerOffset wideSource growingPlan.fileAlignment.toNat = 336 ∧
      336 < wideImage.length ∧
      ∃ before copied,
        CopyJob.beforeTrailer {
          source := wideSource, memory := growingMemory.toMemoryImage, plan := growingPlan }
          (Buffer.zeros growingPlan.outputSize) = .ok before ∧
        CopyJob.copyTrailer {
          source := wideSource, memory := growingMemory.toMemoryImage, plan := growingPlan }
          before = .ok copied ∧
        before.cursor.position = 352 ∧
        relocate wideSource.sections copied.headers.sections 336 = 360 := by
  refine ⟨by decide +kernel, by decide +kernel, by decide +kernel, by decide +kernel, ?_⟩
  exact ⟨_, _, eq_ok_get (by decide +kernel), eq_ok_get (by decide +kernel),
    by decide +kernel, by decide +kernel⟩

end ImageDump
