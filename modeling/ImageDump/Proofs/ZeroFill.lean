import ImageDump.Proofs.Relocation

/-!
# Sections without raw data

A section without a raw data pointer is filled with zeros when the source is
loaded, and the live data of its regions is all that a dumped image should show
besides zeros. The copy does not keep to that if the header has a size of raw
data all the same. It then takes so many bytes from the front of the file, and
they show once a region makes the section grow. And initialized data that fits
into this size is stored without giving the section a raw data pointer, so that
it does not show at all. `load?_noRawData_iff` says where a dumped image shows
what it should; `strayHeader_growingMemory` is an image in which the file header
shows up in a section of zeros.
-/

namespace ImageDump

/-- The byte that the copy takes from the front of the file at a distance from the
start of a section that has a size of raw data but no pointer, and zero beyond
that size. -/
def SectionHeader.strayByte (header : SectionHeader) (data : Bytes) (position : Nat) : UInt8 :=
  if position < header.rawSize.toNat then data[position]?.getD 0 else 0

namespace CopyJob

variable {job : CopyJob} {options : DumpOptions} {final : Headers} {output : Bytes}
  {index position : Nat} {entry header : SectionHeader}

/-- A section without raw data is copied from the front of the file. -/
theorem sectionByte_of_noRawData (noData : entry.hasRawData = false) :
    job.sectionByte index entry 0 position =
      (job.plan.liveByte? job.memory index position).getD
        (entry.strayByte job.source.data position) := by
  rw [sectionByte, SectionHeader.strayByte, SectionHeader.hasRawData_eq_false_iff.1 noData,
    UInt32.toNat_zero, Nat.zero_add, ite_self]

/-- What a dump shows of a section without raw data: what was copied, as far as the
output gives the section raw data, and zeros behind that. -/
theorem Dumps.load?_of_noRawData (dumps : job.Dumps options final output)
    (small : output.length < 2 ^ 32) (sourceEntry : job.source.sections[index]? = some entry)
    (noData : entry.hasRawData = false) (finalEntry : final.sections[index]? = some header)
    (still : header.hasRawData = true → position < header.rawSize.toNat →
      ¬Output.RewritesPointerAt job.source final.sections
        (header.rawPointer.toNat + position)) :
    header.hasRawData = job.plan.grows index ∧
      header.load? output position = some
        (if job.plan.grows index = true ∧ position < header.rawSize.toNat then
          (job.plan.liveByte? job.memory index position).getD
            (entry.strayByte job.source.data position)
        else 0) := by
  obtain ⟨-, hasRawData, -⟩ := dumps.stored_header small sourceEntry finalEntry
  rw [noData, Bool.false_or] at hasRawData
  refine ⟨hasRawData, ?_⟩
  rw [← hasRawData]
  by_cases within : header.hasRawData = true ∧ position < header.rawSize.toNat
  · rw [dumps.load?_of_lt small sourceEntry finalEntry within.1 within.2
      (still within.1 within.2), sectionByte_of_noRawData noData, if_pos within]
  · rw [SectionHeader.load?, if_neg within, if_neg within]

end CopyJob

/-- **Sections without raw data.** In a dump below `2 ^ 32` bytes, a section that
has no raw data in the source has some in the output exactly if a region makes it
grow. At a distance from its start it shows the live byte, and zero without one,
exactly in two cases. Inside the raw data of the output there has to be a live byte
or no stray byte from the front of the file; elsewhere no live byte may be lost.
Excepted are the data pointers of the debug directory that were relocated. -/
theorem load?_noRawData_iff {source output : Bytes} {memory : MemoryImage}
    {options : DumpOptions} {image : Image} {plan : Plan} (exact : memory.Exact)
    (parsed : Image.parse source = .ok image)
    (analyzed : Plan.analyze image memory options = .ok plan)
    (dumped : dumpImage source memory options = .ok output) (small : output.length < 2 ^ 32) :
    ∃ table, Image.readTable .sectionHeader SectionHeader.codec output image.offsets.sections
        image.sections.length = .ok table ∧
      ∀ index entry header position, image.sections[index]? = some entry →
        entry.hasRawData = false → table[index]? = some header →
        (header.hasRawData = true → position < header.rawSize.toNat →
          ¬Output.RewritesPointerAt image table (header.rawPointer.toNat + position)) →
        header.hasRawData = plan.grows index ∧
          (header.load? output position =
              some ((plan.liveByte? memory index position).getD 0) ↔
            if plan.grows index = true ∧ position < header.rawSize.toNat then
              plan.liveByte? memory index position = none → entry.strayByte source position = 0
            else (plan.liveByte? memory index position).getD 0 = 0) := by
  obtain ⟨final, dumps⟩ := CopyJob.dumps_of_dumpImage exact parsed analyzed dumped
  obtain ⟨fixed, checksum, -, -, stored⟩ := dumps.exists_stored
  have read := stored.sectionsAt
  rw [dumps.offsets_final, dumps.length_final] at read
  refine ⟨final.sections, read, ?_⟩
  intro index entry header position sourceEntry noData finalEntry still
  obtain ⟨hasRawData, shown⟩ :=
    dumps.load?_of_noRawData small sourceEntry noData finalEntry still
  rw [Image.data_of_parse parsed] at shown
  refine ⟨hasRawData, ?_⟩
  rw [shown, Option.some.injEq]
  split
  · cases plan.liveByte? memory index position with
    | none => simp
    | some byte => simp
  · exact eq_comm

/-- An image whose first section has a size of raw data but no pointer. -/
def strayImage : Bytes :=
  imageOf [pageSection 0x1000 0 40, pageSection 0x2000 320 16]
    (Bytes.zeros 56 ++ List.replicate 16 0x33)

/-- What is read from `strayImage`. -/
def straySource : Image := (Image.parse strayImage).toOption.get (by decide +kernel)

/-- The plan to store `growingMemory` in `strayImage`. -/
def strayPlan : Plan :=
  (Plan.analyze straySource growingMemory.toMemoryImage plainOptions).toOption.get
    (by decide +kernel)

/-- The dump of `growingMemory` into `strayImage`. -/
def strayDump : Bytes :=
  (dumpImage strayImage growingMemory.toMemoryImage plainOptions).toOption.get
    (by decide +kernel)

theorem parse_strayImage : Image.parse strayImage = .ok straySource := eq_ok_get _

theorem analyze_strayImage :
    Plan.analyze straySource growingMemory.toMemoryImage plainOptions = .ok strayPlan :=
  eq_ok_get _

theorem dumpImage_strayImage :
    dumpImage strayImage growingMemory.toMemoryImage plainOptions = .ok strayDump :=
  eq_ok_get _

/-- The section table of `strayDump`. -/
def strayTable : SectionTable :=
  [{ pageSection 0x1000 272 64 with characteristics := SectionContent.initializedFlag },
    pageSection 0x2000 336 16]

theorem readTable_strayDump :
    Image.readTable .sectionHeader SectionHeader.codec strayDump straySource.offsets.sections
      straySource.sections.length = .ok strayTable :=
  eq_ok_of_toOption (by decide +kernel)

/-- Behind the stray bytes, the section shows its live data. -/
theorem load?_noRawData_growingMemory : ∃ header, strayTable[0]? = some header ∧
    header.load? strayDump 40 = some 0xaa := by
  obtain ⟨table, read, view⟩ := load?_noRawData_iff growingMemory.exact_toMemoryImage
    parse_strayImage analyze_strayImage dumpImage_strayImage (by decide +kernel)
  cases read.symm.trans readTable_strayDump
  obtain ⟨-, shows⟩ := view 0 (pageSection 0x1000 0 40) _ 40 (by decide +kernel) rfl rfl
    (fun _ _ => by decide +kernel)
  have live : strayPlan.liveByte? growingMemory.toMemoryImage 0 40 = some 0xaa := by
    decide +kernel
  rw [live] at shows
  exact ⟨_, rfl, shows.2 (by decide +kernel)⟩

/-- A section without raw data shows the first byte of the file header, where nothing
is stored. -/
theorem strayHeader_growingMemory :
    Image.parse strayImage = .ok straySource ∧ growingMemory.toMemoryImage.Exact ∧
      Plan.analyze straySource growingMemory.toMemoryImage plainOptions = .ok strayPlan ∧
      dumpImage strayImage growingMemory.toMemoryImage plainOptions = .ok strayDump ∧
      strayDump.length < 2 ^ 32 ∧
      straySource.sections[0]? = some (pageSection 0x1000 0 40) ∧
      (pageSection 0x1000 0 40).hasRawData = false ∧
      ∃ header, Image.readTable .sectionHeader SectionHeader.codec strayDump
          straySource.offsets.sections straySource.sections.length = .ok strayTable ∧
        strayTable[0]? = some header ∧
        ¬Output.RewritesPointerAt straySource strayTable (header.rawPointer.toNat + 0) ∧
        strayPlan.liveByte? growingMemory.toMemoryImage 0 0 = none ∧
        header.load? strayDump 0 = some 0x4d := by
  refine ⟨parse_strayImage, growingMemory.exact_toMemoryImage, analyze_strayImage,
    dumpImage_strayImage, by decide +kernel, by decide +kernel, rfl, _, readTable_strayDump,
    rfl, ?_⟩
  decide +kernel

end ImageDump
