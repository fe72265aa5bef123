import ImageDump.Proofs.Dump

/-!
# Loading a dumped image

A loader fills a section with its raw data and, behind that, with zeros. Loaded
so, a dumped image shows the live data where a region was placed, and everywhere
else what the source would have shown. This holds of all raw data of the output,
and behind the raw data of every section but one whose regions have an aligned end
of `2 ^ 32`: the size of that section is lost in its header, and with it the live
data behind what is left (`lost_byte_overflowingMemory`).
-/

namespace ImageDump

/-- The byte that a loader puts at a distance from the start of a section: a byte
of its raw data, or zero behind the raw data. There is none where the raw data
leaves the file. -/
def SectionHeader.load? (header : SectionHeader) (data : Bytes) (position : Nat) :
    Option UInt8 :=
  if header.hasRawData ∧ position < header.rawSize.toNat then
    data[header.rawPointer.toNat + position]?
  else some 0

namespace CopyJob

variable {job : CopyJob} {options : DumpOptions} {final : Headers} {output : Bytes}
  {index position : Nat} {entry header : SectionHeader}

/-- The stored header of a section of the output. -/
theorem Dumps.stored_header (dumps : job.Dumps options final output)
    (small : output.length < 2 ^ 32) (sourceEntry : job.source.sections[index]? = some entry)
    (finalEntry : final.sections[index]? = some header) :
    header.rawSize.toNat = job.storedSize index ∧
      header.hasRawData = (entry.hasRawData || job.plan.grows index) ∧
      (header.hasRawData = true → header.rawPointer.toNat = job.sectionStart index) := by
  have planned := dumps.planned
  have inRange : index < job.count := (List.getElem?_eq_some_iff.1 sourceEntry).1
  have countSmall := dumps.sectionStart_lt small
  have stored := dumps.getElem?_final index
  rw [sourceEntry, finalEntry] at stored
  cases stored
  refine ⟨toNat_rawSize_destination (storedSize_lt planned.positive countSmall inRange),
    hasRawData_destination planned dumps.headersInOrder countSmall (Nat.le_of_lt inRange), ?_⟩
  exact rawPointer_destination countSmall (Nat.le_of_lt inRange)

/-- The raw data that the source shows at a distance from the start of a section,
where the section is copied without live data. -/
theorem sectionByte_eq_load? (parsed : Image.parse job.source.data = .ok job.source)
    (strayFree : SectionTable.NoStraySizes job.source.sections)
    (sourceEntry : job.source.sections[index]? = some entry) :
    ∃ byte, entry.load? job.source.data position = some byte ∧
      job.sectionByte index entry 0 position =
        (job.plan.liveByte? job.memory index position).getD byte := by
  have mem := List.mem_of_getElem? sourceEntry
  have padding : (if position < alignUp entry.rawSize.toNat job.alignment then (0 : UInt8)
      else 0) = 0 := ite_self 0
  unfold SectionHeader.load? sectionByte
  rw [padding]
  by_cases raw : entry.hasRawData = true
  · by_cases lt : position < entry.rawSize.toNat
    · have inside := Image.rawEnd_le_of_parse parsed mem raw
      have inSource : entry.rawPointer.toNat + position < job.source.data.length := by
        unfold SectionHeader.rawEnd at inside
        omega
      refine ⟨job.source.data[entry.rawPointer.toNat + position], ?_, ?_⟩
      · rw [if_pos ⟨raw, lt⟩, List.getElem?_eq_getElem inSource]
      · rw [if_pos lt, List.getElem?_eq_getElem inSource, Option.getD_some]
    · refine ⟨0, if_neg fun within => lt within.2, ?_⟩
      rw [if_neg lt]
  · have zero := strayFree entry mem (Bool.eq_false_iff.2 raw)
    refine ⟨0, if_neg fun within => raw within.1, ?_⟩
    rw [zero, UInt32.toNat_zero, if_neg (Nat.not_lt_zero position)]

/-- Behind its raw data a section shows neither live data nor raw data. -/
theorem load?_of_ge (planned : job.Planned)
    (sourceEntry : job.source.sections[index]? = some entry) (fits : job.Fits index)
    (le : job.storedSize index ≤ position) :
    job.plan.liveByte? job.memory index position = none ∧
      entry.load? job.source.data position = some 0 := by
  have stored := storedSize_eq planned.positive sourceEntry fits
  constructor
  · refine Plan.liveByte?_eq_none planned.exact fun placement mem => ?_
    exact Nat.le_trans (stop_le_storedSize planned sourceEntry fits mem) le
  · exact if_neg fun within => by omega

/-- Inside its raw data, a section of the output shows what its copy holds there. -/
theorem Dumps.load?_of_lt (dumps : job.Dumps options final output)
    (small : output.length < 2 ^ 32) (sourceEntry : job.source.sections[index]? = some entry)
    (finalEntry : final.sections[index]? = some header) (raw : header.hasRawData = true)
    (lt : position < header.rawSize.toNat)
    (still : ¬Output.RewritesPointerAt job.source final.sections
      (header.rawPointer.toNat + position)) :
    header.load? output position = some (job.sectionByte index entry 0 position) := by
  have planned := dumps.planned
  obtain ⟨rawSize, -, rawPointer⟩ := dumps.stored_header small sourceEntry finalEntry
  have pointer := rawPointer raw
  have aligned : job.storedSize index ≤ alignUp (job.storedSize index) job.alignment :=
    le_alignUp planned.positive
  have start : job.sectionStart 0 ≤ job.sectionStart index := sectionStart_le (Nat.zero_le _)
  obtain ⟨fixed, checksum, -, finalEq, -⟩ := dumps.exists_stored
  rw [finalEq, Output.rewritesPointerAt_finalHeaders, pointer] at still
  calc header.load? output position
      = output[job.sectionStart index + position]? := by
        rw [SectionHeader.load?, if_pos ⟨raw, lt⟩, pointer]
    _ = job.copied[job.sectionStart index + position]? :=
        dumps.getElem?_output (dumps.not_covered_of_le (by omega)) still
    _ = some (job.sectionByte index entry 0 position) :=
        getElem?_copied_section planned dumps.runnable (dumps.sectionStart_lt small)
          sourceEntry (by omega)

/-- The loader's view of a section of the output. -/
theorem Dumps.load?_eq (dumps : job.Dumps options final output)
    (strayFree : SectionTable.NoStraySizes job.source.sections)
    (small : output.length < 2 ^ 32) (sourceEntry : job.source.sections[index]? = some entry)
    (finalEntry : final.sections[index]? = some header)
    (kept : position < header.rawSize.toNat ∨ job.Fits index)
    (still : header.hasRawData = true → position < header.rawSize.toNat →
      ¬Output.RewritesPointerAt job.source final.sections
        (header.rawPointer.toNat + position)) :
    ∃ byte, entry.load? job.source.data position = some byte ∧
      header.load? output position =
        some ((job.plan.liveByte? job.memory index position).getD byte) := by
  have planned := dumps.planned
  obtain ⟨rawSize, hasRawData, -⟩ := dumps.stored_header small sourceEntry finalEntry
  by_cases within : header.hasRawData = true ∧ position < header.rawSize.toNat
  · -- the position lies in the raw data of the output
    obtain ⟨byte, loaded, sectionByte⟩ : ∃ byte,
        entry.load? job.source.data position = some byte ∧
          job.sectionByte index entry 0 position =
            (job.plan.liveByte? job.memory index position).getD byte :=
      sectionByte_eq_load? dumps.parsed strayFree sourceEntry
    refine ⟨byte, loaded, ?_⟩
    rw [dumps.load?_of_lt small sourceEntry finalEntry within.1 within.2
      (still within.1 within.2), sectionByte]
  · -- behind the raw data of the output, or without any
    have le : job.storedSize index ≤ position := by
      by_cases raw : header.hasRawData = true
      · have notLt : ¬position < header.rawSize.toNat := fun lt => within ⟨raw, lt⟩
        omega
      · rw [hasRawData, Bool.not_eq_true] at raw
        rw [storedSize_eq_zero planned strayFree sourceEntry raw]
        exact Nat.zero_le position
    have fits : job.Fits index := by
      rcases kept with lt | fits
      · omega
      · exact fits
    obtain ⟨noLive, loaded⟩ := load?_of_ge planned sourceEntry fits le
    refine ⟨0, loaded, ?_⟩
    rw [noLive, SectionHeader.load?, if_neg within]
    rfl

end CopyJob

/-- **The loader's view of a dumped image.** In a dump below `2 ^ 32` bytes, a
section shows at every distance from its start the live byte of the last region
that covers it, and without such a region what the source shows there. Excepted
are the data pointers of the debug directory that were relocated, and, if the
aligned end of the regions of the section does not fit into 32 bits, what lies
behind the raw data that its header is left with. -/
theorem load?_dumpImage {source output : Bytes} {memory : MemoryImage} {options : DumpOptions}
    {image : Image} {plan : Plan} (exact : memory.Exact)
    (parsed : Image.parse source = .ok image)
    (strayFree : SectionTable.NoStraySizes image.sections)
    (analyzed : Plan.analyze image memory options = .ok plan)
    (dumped : dumpImage source memory options = .ok output) (small : output.length < 2 ^ 32) :
    ∃ table, Image.readTable .sectionHeader SectionHeader.codec output image.offsets.sections
        image.sections.length = .ok table ∧
      ∀ index entry header position, image.sections[index]? = some entry →
        table[index]? = some header →
        (position < header.rawSize.toNat ∨
          alignUp (plan.reach index) plan.fileAlignment.toNat < 2 ^ 32) →
        (header.hasRawData = true → position < header.rawSize.toNat →
          ¬Output.RewritesPointerAt image table (header.rawPointer.toNat + position)) →
        ∃ byte, entry.load? source position = some byte ∧
          header.load? output position =
            some ((plan.liveByte? memory index position).getD byte) := by
  obtain ⟨final, dumps⟩ := CopyJob.dumps_of_dumpImage exact parsed analyzed dumped
  obtain ⟨fixed, checksum, -, -, stored⟩ := dumps.exists_stored
  have read := stored.sectionsAt
  rw [dumps.offsets_final, dumps.length_final] at read
  refine ⟨final.sections, read, ?_⟩
  intro index entry header position sourceEntry finalEntry kept still
  have view := dumps.load?_eq strayFree small sourceEntry finalEntry kept still
  rw [Image.data_of_parse parsed] at view
  exact view

/-- The dump of `growingMemory` into `wideImage`. -/
def growingDump : Bytes :=
  (dumpImage wideImage growingMemory.toMemoryImage plainOptions).toOption.get
    (by decide +kernel)

/-- The dump of `overflowingMemory` into `wideImage`. -/
def overflowingDump : Bytes :=
  (dumpImage wideImage overflowingMemory.toMemoryImage plainOptions).toOption.get
    (by decide +kernel)

theorem dumpImage_growingMemory :
    dumpImage wideImage growingMemory.toMemoryImage plainOptions = .ok growingDump :=
  eq_ok_get _

theorem dumpImage_overflowingMemory :
    dumpImage wideImage overflowingMemory.toMemoryImage plainOptions = .ok overflowingDump :=
  eq_ok_get _

/-- The first live byte of `growingMemory` is shown where it was in memory. -/
theorem load?_growingMemory : ∃ table header,
    Image.readTable .sectionHeader SectionHeader.codec growingDump wideSource.offsets.sections
      wideSource.sections.length = .ok table ∧
    table[0]? = some header ∧ header.load? growingDump 40 = some 0xaa := by
  obtain ⟨table, read, view⟩ := load?_dumpImage growingMemory.exact_toMemoryImage
    parse_wideImage (by decide +kernel) analyze_growingMemory dumpImage_growingMemory
    (by decide +kernel)
  have stored : Image.readTable .sectionHeader SectionHeader.codec growingDump
      wideSource.offsets.sections wideSource.sections.length = .ok [{ wideSection with
        rawSize := 64
        characteristics := SectionContent.initializedFlag }] :=
    eq_ok_of_toOption (by decide +kernel)
  cases read.symm.trans stored
  obtain ⟨byte, -, loaded⟩ := view 0 wideSection _ 40 (by decide +kernel) rfl
    (.inl (by decide)) (fun _ _ => by decide +kernel)
  have live : growingPlan.liveByte? growingMemory.toMemoryImage 0 40 = some 0xaa := by
    decide +kernel
  rw [live] at loaded
  exact ⟨_, _, stored, rfl, loaded⟩

/-- A live byte in the last sixteen bytes of a section is lost, if a second region
makes the section end early. -/
theorem lost_byte_overflowingMemory :
    SectionTable.NoStraySizes wideSource.sections ∧ overflowingMemory.toMemoryImage.Exact ∧
      Plan.analyze wideSource overflowingMemory.toMemoryImage plainOptions = .ok overflowingPlan ∧
      dumpImage wideImage overflowingMemory.toMemoryImage plainOptions = .ok overflowingDump ∧
      overflowingDump.length < 2 ^ 32 ∧
      ∃ header, Image.readTable .sectionHeader SectionHeader.codec overflowingDump
          wideSource.offsets.sections wideSource.sections.length = .ok [header] ∧
        header.rawSize = 16 ∧
        overflowingPlan.liveByte? overflowingMemory.toMemoryImage 0 0xfffffff0 = some 0xaa ∧
        header.load? overflowingDump 0xfffffff0 = some 0 := by
  refine ⟨by decide +kernel, overflowingMemory.exact_toMemoryImage, analyze_overflowingMemory,
    dumpImage_overflowingMemory, by decide +kernel, { wideSection with
    rawSize := 16
    characteristics := SectionContent.initializedFlag }, eq_ok_of_toOption ?_, ?_⟩
  · decide +kernel
  · decide +kernel

end ImageDump
