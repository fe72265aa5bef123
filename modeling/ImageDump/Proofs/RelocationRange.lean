import ImageDump.Proofs.CopyOrder
import ImageDump.Proofs.Growth

/-!
# Relocated offsets and the end of the output

The relocation of an offset adds where its section went and subtracts where it was. An offset
into the raw data of a section stays above zero that way. An offset in front of the section,
in the headers or in a gap, is moved like the section although its byte is not, and where
the section moved towards the front by more than the offset, the result wraps around to the
end of the 64-bit words (`relocate_lt_length_iff`). The copy drops all space between the
headers and the first raw data, so that this happens without any growth
(`relocate_wraps_spacedImage`).
-/

namespace ImageDump

/-! ## Offsets in front of the end of the raw data -/

/-- Some section with raw data ends behind an offset in front of the last end. -/
theorem SectionTable.exists_findEnding? {table : SectionTable} {offset : Nat}
    (strayFree : table.NoStraySizes) (lt : offset < table.lastRawEnd) :
    ∃ index entry, table.findEnding? offset = some index ∧ table[index]? = some entry ∧
      entry.hasRawData = true ∧ offset < entry.rawEnd := by
  rcases lastRawEnd_cases table with ⟨-, zero⟩ | ⟨before, last, after, split, -, -, lastEnd⟩
  · rw [zero] at lt
    exact absurd lt (Nat.not_lt_zero offset)
  · have mem : last ∈ table := split ▸ List.mem_append_right before List.mem_cons_self
    have exists_ : (table.findEnding? offset).isSome = true := by
      rw [findEnding?, List.findIdx?_isSome, List.any_eq_true]
      exact ⟨last, mem, decide_eq_true (lastEnd ▸ lt)⟩
    obtain ⟨index, found⟩ := Option.isSome_iff_exists.1 exists_
    obtain ⟨inRange, ends, -⟩ := List.findIdx?_eq_some_iff_getElem.1 found
    have ends := of_decide_eq_true ends
    refine ⟨index, table[index], found, List.getElem?_eq_getElem inRange, ?_, ends⟩
    cases raw : table[index].hasRawData with
    | true => rfl
    | false =>
      rw [strayFree.rawEnd_eq_zero (List.getElem_mem inRange) raw] at ends
      exact absurd ends (Nat.not_lt_zero offset)

/-- What the words add up to when an offset is moved with a section: the sum wraps around if
the section moves towards the front by more than the offset. -/
theorem toNat_relocate_of_findEnding? {source destination : SectionTable} {index : Nat}
    {entry header : SectionHeader} {offset : UInt64} (positive : 0 < offset.toNat)
    (found : source.findEnding? offset.toNat = some index)
    (sourceEntry : source[index]? = some entry)
    (destinationEntry : destination[index]? = some header)
    (ends : offset.toNat < entry.rawEnd) :
    (relocate source destination offset).toNat =
      if entry.rawPointer.toNat ≤ offset.toNat + header.rawPointer.toNat then
        offset.toNat + header.rawPointer.toNat - entry.rawPointer.toNat
      else 2 ^ 64 - (entry.rawPointer.toNat - (offset.toNat + header.rawPointer.toNat)) := by
  have nonzero : offset ≠ 0 := fun zero => by
    rw [zero] at positive
    exact absurd positive (Nat.lt_irrefl 0)
  have entryPointer := entry.rawPointer.toNat_lt
  have entrySize := entry.rawSize.toNat_lt
  have headerPointer := header.rawPointer.toNat_lt
  rw [SectionHeader.rawEnd] at ends
  rw [relocate_of_findEnding? nonzero found sourceEntry destinationEntry]
  split
  · rename_i le
    exact CopyJob.toNat_relocate le (by omega)
  · have pointerEq : (UInt64.ofNat entry.rawPointer.toNat).toNat = entry.rawPointer.toNat :=
      UInt64.toNat_ofNat_of_lt' (Nat.lt_trans entryPointer (by decide))
    rw [UInt64.toNat_sub, CopyJob.toNat_add_ofNat (by omega), pointerEq,
      Nat.mod_eq_of_lt (by omega)]
    omega

/-! ## Sizes of the copy -/

namespace CopyJob

variable {job : CopyJob} {output : Buffer} {copied : CopyState} {index : Nat}
  {entry header : SectionHeader}

/-- A section that is not cut short loses no raw data. -/
theorem rawSize_le_of_fits (planned : job.Planned) (ran : job.run output = .ok copied)
    (small : copied.cursor.position < 2 ^ 32)
    (sourceEntry : job.source.sections[index]? = some entry)
    (copiedEntry : copied.headers.sections[index]? = some header) (fits : job.Fits index) :
    entry.rawSize.toNat ≤ header.rawSize.toNat := by
  obtain ⟨-, rfl⟩ := (run_eq_ok_iff planned).1 ran
  have startSmall : job.sectionStart job.count < 2 ^ 32 :=
    Nat.lt_of_le_of_lt (Nat.le_add_right _ _) small
  have inRange : index < job.count := (List.getElem?_eq_some_iff.1 sourceEntry).1
  cases eq_destination sourceEntry copiedEntry
  rw [toNat_rawSize_destination (storedSize_lt planned.positive startSmall inRange),
    storedSize_eq planned.positive sourceEntry fits]
  exact Nat.le_max_left _ _

end CopyJob

/-- **Relocated offsets and the end of the output.** In a dump below `2 ^ 32` bytes, each
offset in front of the end of the raw data is relocated with the first section that ends
behind it. An offset in front of that section stays inside the output exactly if the section
does not move towards the front by more than the offset, and wraps around otherwise. An
offset into the section stays at its distance from the start, and inside the output if the
section was not cut short. A header field of 32 bits holds every offset that stays inside. -/
theorem relocate_lt_length_iff {source output : Bytes} {memory : MemoryImage}
    {options : DumpOptions} {image : Image} {plan : Plan}
    (parsed : Image.parse source = .ok image)
    (strayFree : SectionTable.NoStraySizes image.sections)
    (analyzed : Plan.analyze image memory options = .ok plan)
    (dumped : dumpImage source memory options = .ok output) (small : output.length < 2 ^ 32) :
    ∃ copied, CopyJob.run { source := image, memory, plan } (Buffer.zeros plan.outputSize) =
        .ok copied ∧
      ∀ offset : UInt64, 0 < offset.toNat → offset.toNat < image.sections.lastRawEnd →
        ∃ index entry header, image.sections.findEnding? offset.toNat = some index ∧
          image.sections[index]? = some entry ∧
          copied.headers.sections[index]? = some header ∧
          let target := (relocate image.sections copied.headers.sections offset).toNat
          (offset.toNat < entry.rawPointer.toNat →
            (target < output.length ↔
              entry.rawPointer.toNat ≤ offset.toNat + header.rawPointer.toNat) ∧
            (offset.toNat + header.rawPointer.toNat < entry.rawPointer.toNat →
              target = 2 ^ 64 -
                (entry.rawPointer.toNat - (offset.toNat + header.rawPointer.toNat)))) ∧
          (entry.rawPointer.toNat ≤ offset.toNat →
            let position := offset.toNat - entry.rawPointer.toNat
            target = header.rawPointer.toNat + position ∧
            (position < header.rawSize.toNat ∨ memory.Exact ∧
                alignUp (plan.reach index) plan.fileAlignment.toNat < 2 ^ 32 →
              target < output.length)) ∧
          ∀ field : UInt32, field.toUInt64 = offset → target < output.length →
            (relocateField image.sections copied.headers.sections field).toNat = target := by
  obtain ⟨copied, final, ran, patched⟩ := exists_run_of_dumpImage parsed analyzed dumped
  have ordered := Image.headersInOrder_of_parse parsed
  have length := CopyJob.length_of_patch_run ordered ran patched
  refine ⟨copied, ran, fun offset positive lt => ?_⟩
  obtain ⟨index, entry, found, sourceEntry, raw, ends⟩ :=
    SectionTable.exists_findEnding? strayFree lt
  obtain ⟨header, copiedEntry, -, copiedEnd⟩ :=
    CopyJob.exists_rawData_of_run ran (length ▸ small) ordered sourceEntry raw
  have moved := toNat_relocate_of_findEnding? positive found sourceEntry copiedEntry ends
  have pointerSmall := entry.rawPointer.toNat_lt
  rw [SectionHeader.rawEnd] at copiedEnd ends
  rw [← length] at copiedEnd
  refine ⟨index, entry, header, found, sourceEntry, copiedEntry, ?_⟩
  intro target
  have moved : target = _ := moved
  refine ⟨fun front => ⟨?_, fun wraps => ?_⟩, fun within => ?_, fun field same below => ?_⟩
  · rw [moved]
    split <;> omega
  · rw [moved, if_neg (Nat.not_le_of_lt wraps)]
  · intro position
    have targetEq : target = header.rawPointer.toNat + position := by
      rw [moved, if_pos (Nat.le_add_right_of_le within)]
      omega
    refine ⟨targetEq, fun keeps => ?_⟩
    have kept : position < header.rawSize.toNat := by
      rcases keeps with kept | ⟨exact, fits⟩
      · exact kept
      · have le := CopyJob.rawSize_le_of_fits (CopyJob.planned_of_analyze exact parsed analyzed) ran
          (length ▸ small) sourceEntry copiedEntry fits
        omega
    omega
  · subst same
    have fits : target < 2 ^ 32 := Nat.lt_trans below small
    rw [relocateField, UInt64.toNat_toUInt32]
    exact Nat.mod_eq_of_lt fits

/-- The dump of `layeredMemory` into `layeredImage`. -/
def layeredDump : Bytes :=
  (dumpImage layeredImage layeredMemory.toMemoryImage plainOptions).toOption.get
    (by decide +kernel)

theorem dumpImage_layeredMemory :
    dumpImage layeredImage layeredMemory.toMemoryImage plainOptions = .ok layeredDump :=
  eq_ok_get _

/-- An offset in the gap in front of the third section moves with that section by thirty-two
bytes, and a field holds it. -/
theorem relocate_lt_length_layeredMemory : ∃ copied,
    CopyJob.run {
      source := layeredSource, memory := layeredMemory.toMemoryImage, plan := layeredPlan }
      (Buffer.zeros layeredPlan.outputSize) = .ok copied ∧
    layeredDump.length < 2 ^ 32 ∧
    (relocate layeredSource.sections copied.headers.sections 345).toNat < layeredDump.length ∧
    (relocateField layeredSource.sections copied.headers.sections 345).toNat =
      (relocate layeredSource.sections copied.headers.sections 345).toNat := by
  have small : layeredDump.length < 2 ^ 32 := by decide +kernel
  obtain ⟨copied, ran, offsets⟩ := relocate_lt_length_iff parse_layeredImage (by decide +kernel)
    analyze_layeredMemory dumpImage_layeredMemory small
  obtain ⟨index, entry, header, found, sourceEntry, copiedEntry, front, -, field⟩ :=
    offsets 345 (by decide) (by decide +kernel)
  have third : layeredSource.sections.findEnding? (345 : UInt64).toNat = some 2 := by
    decide +kernel
  obtain rfl : index = 2 := Option.some.inj (found.symm.trans third)
  rw [Except.ok.inj (ran.symm.trans run_layeredMemory)] at copiedEntry
  obtain rfl : entry = pageSection 0x3000 352 16 :=
    Option.some.inj (sourceEntry.symm.trans (by decide +kernel))
  obtain rfl : header = pageSection 0x3000 384 16 :=
    Option.some.inj (copiedEntry.symm.trans (by decide +kernel))
  have inside := (front (by decide)).1.2 (by decide)
  exact ⟨_, ran, small, inside, field 345 (by decide) inside⟩

/-- An image with ninety-six bytes between its headers and the raw data of its section, and
with line numbers in the headers. -/
def spacedImage : Bytes :=
  imageOf [{ pageSection 0x1000 320 16 with lineNumbersPointer := 64 }]
    (Bytes.zeros 96 ++ List.replicate 16 0x11)

/-- What is read from `spacedImage`. -/
def spacedSource : Image := (Image.parse spacedImage).toOption.get (by decide +kernel)

/-- The plan to store nothing in `spacedImage`. -/
def spacedPlan : Plan :=
  (Plan.analyze spacedSource idleMemory.toMemoryImage plainOptions).toOption.get
    (by decide +kernel)

/-- The copy of `spacedImage` with nothing in it. -/
def spacedCopy : CopyState :=
  (CopyJob.run {
    source := spacedSource, memory := idleMemory.toMemoryImage, plan := spacedPlan }
    (Buffer.zeros spacedPlan.outputSize)).toOption.get (by decide +kernel)

/-- The dump of `spacedImage` with nothing in it. -/
def spacedDump : Bytes :=
  (dumpImage spacedImage idleMemory.toMemoryImage plainOptions).toOption.get (by decide +kernel)

/-- Nothing grows, and the byte at offset 64 stays where it is in the headers. The section
moves over the space in front of it, ninety-six bytes towards the front, and takes the offset
with it to thirty-two bytes below zero. The field for the line numbers holds the rest. -/
theorem relocate_wraps_spacedImage :
    Image.parse spacedImage = .ok spacedSource ∧
      SectionTable.NoStraySizes spacedSource.sections ∧
      Plan.analyze spacedSource idleMemory.toMemoryImage plainOptions = .ok spacedPlan ∧
      CopyJob.run { source := spacedSource, memory := idleMemory.toMemoryImage, plan := spacedPlan }
        (Buffer.zeros spacedPlan.outputSize) = .ok spacedCopy ∧
      dumpImage spacedImage idleMemory.toMemoryImage plainOptions = .ok spacedDump ∧
      spacedDump.length < 2 ^ 32 ∧ 64 < spacedSource.sections.lastRawEnd ∧
      spacedCopy.headers.sections =
        [{ pageSection 0x1000 224 16 with lineNumbersPointer := 64 }] ∧
      spacedDump[64]? = spacedImage[64]? ∧
      (relocate spacedSource.sections spacedCopy.headers.sections 64).toNat = 2 ^ 64 - 32 ∧
      ¬(relocate spacedSource.sections spacedCopy.headers.sections 64).toNat <
        spacedDump.length ∧
      Image.readTable .sectionHeader SectionHeader.codec spacedDump spacedSource.offsets.sections
        spacedSource.sections.length =
          .ok [{ pageSection 0x1000 224 16 with lineNumbersPointer := 0xffffffe0 }] := by
  refine ⟨eq_ok_get _, by decide +kernel, eq_ok_get _, eq_ok_get _, eq_ok_get _, ?_⟩
  refine ⟨by decide +kernel, by decide +kernel, by decide +kernel, by decide +kernel,
    by decide +kernel, by decide +kernel, ?_⟩
  exact eq_ok_of_toOption (by decide +kernel)

end ImageDump
