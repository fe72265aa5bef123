import ImageDump.Proofs.CopyOrder
import ImageDump.Proofs.HeaderOffsets
import ImageDump.Proofs.Reparse

/-!
# Where the pointers of the debug directory are rewritten

The debug directory is found in the output by its address, and its entries are taken to
follow one another from there on. Whether the section has raw data is not asked, and neither
is whether the raw data reaches as far as the directory. The bytes that change are known one
by one (`Output.relocateDebugEntries_ne_iff`), and they lie in the raw data of the section
exactly if the raw data reaches to each of them (`debugPointers_within_iff`). In a section
without raw data, the offset of the directory is counted from the start of the file, so that
the entries lie on the headers (`debugPointers_front_vacantImage`).
-/

namespace ImageDump

/-- The byte at `i` of a field changes when the offset in it is relocated. -/
def ChangesByte (source destination : SectionTable) (pointer : UInt32) (i : Nat) : Prop :=
  (Codec.u32.encode (relocateField source destination pointer))[i]? ≠
    (Codec.u32.encode pointer)[i]?

instance (source destination : SectionTable) (pointer : UInt32) (i : Nat) :
    Decidable (ChangesByte source destination pointer i) :=
  inferInstanceAs (Decidable (_ ≠ _))

/-- The section has raw data, and it reaches to every byte of the pointers of the directory
that changes. -/
def SectionHeader.ReachesPointers (header : SectionHeader) (source destination : SectionTable)
    (output : Bytes) (directory : DataDirectory) : Prop :=
  ∀ entry < directory.size.toNat / DebugEntry.codec.size, ∀ pointer,
    Codec.u32.read? output
      (header.fileOffset directory.virtualAddress.toNat + 28 * entry + 24) = some pointer →
    ∀ i < 4, ChangesByte source destination pointer i →
      header.hasRawData = true ∧
        directory.virtualAddress.toNat + (28 * entry + 24 + i) <
          header.virtualAddress.toNat + header.rawSize.toNat

/-- The raw data reaches to all pointers if the whole table lies in it. -/
theorem SectionHeader.HoldsTable.reachesPointers {header : SectionHeader}
    {directory : DataDirectory} (holds : header.HoldsTable directory)
    (source destination : SectionTable) (output : Bytes) :
    header.ReachesPointers source destination output directory := by
  intro entry lt pointer _ i small _
  have size : DebugEntry.codec.size = 28 := rfl
  have stops := holds.stops
  rw [size] at lt
  exact ⟨holds.raw, by omega⟩

/-- The byte at this distance from an address of the section belongs to the raw data if there
is any and it reaches that far. -/
theorem SectionHeader.holdsOffset_fileOffset_iff {header : SectionHeader} {rva distance : Nat}
    (le : header.virtualAddress.toNat ≤ rva) :
    header.HoldsOffset (header.fileOffset rva + distance) ↔
      header.hasRawData = true ∧
        rva + distance < header.virtualAddress.toNat + header.rawSize.toNat := by
  rw [HoldsOffset, rawEnd, fileOffset]
  refine and_congr_right fun _ => ⟨fun within => ?_, fun within => ⟨?_, ?_⟩⟩ <;> omega

theorem SectionTable.virtualAddress_le_of_findDirectory? {table : SectionTable} {index : Nat}
    {directory : DataDirectory} {header : SectionHeader}
    (found : table.findDirectory? directory = some index) (headerAt : table[index]? = some header) :
    header.virtualAddress.toNat ≤ directory.virtualAddress.toNat := by
  unfold findDirectory? at found
  split at found
  · cases found
  · obtain ⟨other, otherAt, le, -⟩ := exists_of_findContaining? found
    cases headerAt.symm.trans otherAt
    exact le

namespace Output

variable {source destination : SectionTable} {output result : Bytes}
  {offset count position : Nat}

/-- The bytes that relocating debug entries changes. -/
theorem relocateDebugEntries_ne_iff
    (relocated : relocateDebugEntries source destination count offset output = .ok result) :
    result[position]? ≠ output[position]? ↔
      ∃ entry < count, ∃ pointer,
        Codec.u32.read? output (offset + 28 * entry + 24) = some pointer ∧
        ∃ i < 4, position = offset + 28 * entry + 24 + i ∧
          ChangesByte source destination pointer i := by
  obtain ⟨-, frame⟩ := relocateDebugEntries_frame relocated
  -- the two fields at the pointer of an entry
  have bytes (entry : Nat) (lt : entry < count) : ∃ pointer,
      Codec.u32.read? output (offset + 28 * entry + 24) = some pointer ∧
      ∀ i < 4, result[offset + 28 * entry + 24 + i]? ≠ output[offset + 28 * entry + 24 + i]? ↔
        ChangesByte source destination pointer i := by
    obtain ⟨pointer, before, after⟩ := relocateDebugEntries_pointer relocated lt
    refine ⟨pointer, before, fun i small => ?_⟩
    rw [Codec.getElem?_of_read? before small, Codec.getElem?_of_read? after small]
    rfl
  constructor
  · intro changed
    have rewritten : ∃ entry < count, offset + 28 * entry + 24 ≤ position ∧
        position < offset + 28 * entry + 28 :=
      Classical.byContradiction fun none =>
        changed (frame position fun entry lt within => none ⟨entry, lt, within⟩)
    obtain ⟨entry, lt, le, below⟩ := rewritten
    obtain ⟨pointer, before, differs⟩ := bytes entry lt
    have place : offset + 28 * entry + 24 + (position - (offset + 28 * entry + 24)) = position :=
      Nat.add_sub_cancel' le
    refine ⟨entry, lt, pointer, before, position - (offset + 28 * entry + 24), by omega,
      place.symm, (differs _ (by omega)).1 ?_⟩
    rw [place]
    exact changed
  · intro holds
    rcases holds with ⟨entry, lt, pointer, before, i, small, rfl, changes⟩
    obtain ⟨pointer', before', differs⟩ := bytes entry lt
    cases before.symm.trans before'
    exact (differs i small).2 changes

/-- The bytes that change belong to the raw data of the section that holds the directory
exactly if it reaches to each of them. -/
theorem relocateDebugDirectory_within_iff {source : Image} {directory : DataDirectory}
    {index : Nat} {header : SectionHeader} (present : source.directory? .debug = some directory)
    (found : destination.findDirectory? directory = some index)
    (headerAt : destination[index]? = some header)
    (relocated : relocateDebugDirectory source destination output = .ok result) :
    (∀ position, result[position]? ≠ output[position]? → header.HoldsOffset position) ↔
      header.ReachesPointers source.sections destination output directory := by
  have le := SectionTable.virtualAddress_le_of_findDirectory? found headerAt
  have foundHeader : (destination.findDirectory? directory).bind (destination[·]?) =
      some header := Option.bind_eq_some_iff.2 ⟨index, found, headerAt⟩
  rw [relocateDebugDirectory_of_found present foundHeader] at relocated
  constructor
  · intro inside entry lt pointer read i small changes
    refine (SectionHeader.holdsOffset_fileOffset_iff le).1 (inside _ ?_)
    exact (relocateDebugEntries_ne_iff relocated).2
      ⟨entry, lt, pointer, read, i, small, by omega, changes⟩
  · intro reaches position differs
    obtain ⟨entry, lt, pointer, read, i, small, rfl, changes⟩ :=
      (relocateDebugEntries_ne_iff relocated).1 differs
    have inside := (SectionHeader.holdsOffset_fileOffset_iff le).2
      (reaches entry lt pointer read i small changes)
    rwa [← Nat.add_assoc, ← Nat.add_assoc] at inside

end Output

/-- **Where debug pointers are rewritten.** The bytes that change when a dump relocates the
pointers of its debug directory lie in the raw data of the section that contains the
address of the directory exactly if that section has raw data and it reaches to each byte
that changes. This is so if the whole directory lies in the raw data. Raw data of a dump
below `2 ^ 32` bytes is behind the headers, in no other section and in front of the
trailer. A directory in no section is left alone. -/
theorem debugPointers_within_iff {source output : Bytes} {memory : MemoryImage}
    {options : DumpOptions} {image : Image} {plan : Plan}
    (parsed : Image.parse source = .ok image)
    (analyzed : Plan.analyze image memory options = .ok plan)
    (dumped : dumpImage source memory options = .ok output) :
    ∃ copied fixed, CopyJob.run { source := image, memory, plan }
        (Buffer.zeros plan.outputSize) = .ok copied ∧
      let before := copied.cursor.output.resize copied.cursor.position
      let table := copied.headers.sections
      Output.relocateDebugDirectory image table before = .ok fixed ∧
      ((∀ directory ∈ image.directory? .debug, table.findDirectory? directory = none) →
        fixed = before) ∧
      ∀ directory ∈ image.directory? .debug, ∀ index ∈ table.findDirectory? directory,
        ∀ header ∈ table[index]?,
          ((∀ position, fixed[position]? ≠ before[position]? → header.HoldsOffset position) ↔
            header.ReachesPointers image.sections table before directory) ∧
          (header.HoldsTable directory →
            ∀ position, fixed[position]? ≠ before[position]? → header.HoldsOffset position) ∧
          (output.length < 2 ^ 32 → ∀ position, header.HoldsOffset position →
            alignUp image.offsets.sectionsEnd plan.fileAlignment.toNat ≤ position ∧
            position + CopyJob.trailerSize { source := image, memory, plan } < output.length ∧
            ∀ other otherHeader, table[other]? = some otherHeader →
              otherHeader.HoldsOffset position → other = index) := by
  obtain ⟨copied, final, ran, patched⟩ := exists_run_of_dumpImage parsed analyzed dumped
  have ordered := Image.headersInOrder_of_parse parsed
  have length := CopyJob.length_of_patch_run ordered ran patched
  obtain ⟨fixed, _, relocated, -⟩ := Output.patch_eq_ok_iff.1 patched
  refine ⟨copied, fixed, ran, ?_⟩
  intro before table
  refine ⟨relocated, fun absent => ?_, ?_⟩
  · exact Except.ok.inj
      (relocated.symm.trans (Output.relocateDebugDirectory_of_not_found absent))
  intro directory present index found header headerAt
  have within := Output.relocateDebugDirectory_within_iff present found headerAt relocated
  refine ⟨within, fun holds => ?_, fun small position inside => ?_⟩
  · exact within.2 (holds.reachesPointers image.sections table before)
  · rw [length] at small ⊢
    exact CopyJob.rawData_apart_of_run ran small headerAt inside

/-- The section of `wideImage` with live memory in it. -/
def filledSection : SectionHeader :=
  { wideSection with rawSize := 64, characteristics := SectionContent.initializedFlag }

/-- The debug directory lies in the raw data of the section, and so does the first byte of its
pointer, which changes. -/
theorem debugPointers_within_growingMemory : ∃ copied fixed,
    CopyJob.run {
      source := wideSource, memory := growingMemory.toMemoryImage, plan := growingPlan }
      (Buffer.zeros growingPlan.outputSize) = .ok copied ∧
    Output.relocateDebugDirectory wideSource copied.headers.sections
      (copied.cursor.output.resize copied.cursor.position) = .ok fixed ∧
    filledSection.HoldsOffset 324 ∧
    ∀ position,
      fixed[position]? ≠ (copied.cursor.output.resize copied.cursor.position)[position]? →
      filledSection.HoldsOffset position := by
  obtain ⟨copied, fixed, ran, relocated, -, directories⟩ :=
    debugPointers_within_iff parse_wideImage analyze_growingMemory dumpImage_growingMemory
  have sections : copied.headers.sections = [filledSection] := by
    have table : ((CopyJob.run {
        source := wideSource, memory := growingMemory.toMemoryImage, plan := growingPlan }
        (Buffer.zeros growingPlan.outputSize)).toOption.map (·.headers.sections)) =
          some [filledSection] := by decide +kernel
    rw [ran] at table
    exact Option.some.inj table
  rw [sections] at directories
  obtain ⟨-, holds, -⟩ := directories { virtualAddress := 0x100c, size := 28 } (by decide +kernel)
    0 (by decide) filledSection rfl
  exact ⟨copied, fixed, ran, relocated, by decide, holds ⟨by decide, by decide, by decide⟩⟩

/-- An image with two sections. Its debug directory lies in the second, which has no raw
data. Where an entry at the fourth byte of the file has its pointer, the file holds the end
of the raw data of the first section. -/
def vacantImage : Bytes :=
  (imageWith (List.replicate 6 absentDirectory ++ [{ virtualAddress := 0x2004, size := 28 }])
    [pageSection 0x1000 320 16, pageSection 0x2000 0 0] (List.replicate 16 0x11)).overwrite 28
    (Codec.u32.encode 336)

/-- Memory with four live bytes behind the raw data of the first section. -/
def vacantMemory : Snapshot :=
  Snapshot.setRegion { imageBase := 0x400000 } .bss 0x401010 (List.replicate 4 0xaa)

/-- What is read from `vacantImage`. -/
def vacantSource : Image := (Image.parse vacantImage).toOption.get (by decide +kernel)

/-- The plan to store `vacantMemory` in `vacantImage`. -/
def vacantPlan : Plan :=
  (Plan.analyze vacantSource vacantMemory.toMemoryImage plainOptions).toOption.get
    (by decide +kernel)

/-- The copy of `vacantImage` with `vacantMemory` in it. -/
def vacantCopy : CopyState :=
  (CopyJob.run {
    source := vacantSource, memory := vacantMemory.toMemoryImage, plan := vacantPlan }
    (Buffer.zeros vacantPlan.outputSize)).toOption.get (by decide +kernel)

/-- That copy with its debug directory relocated. -/
def vacantFixed : Bytes :=
  (Output.relocateDebugDirectory vacantSource vacantCopy.headers.sections
    (vacantCopy.cursor.output.resize vacantCopy.cursor.position)).toOption.get
    (by decide +kernel)

/-- The dump of `vacantMemory` into `vacantImage`. -/
def vacantDump : Bytes :=
  (dumpImage vacantImage vacantMemory.toMemoryImage plainOptions).toOption.get
    (by decide +kernel)

/-- The first section grows by sixteen bytes. The section of the debug directory has no raw
data, so that the pointer is looked for in front of the headers, and the byte that changes
belongs to no section and shows in the dump. -/
theorem debugPointers_front_vacantImage :
    Image.parse vacantImage = .ok vacantSource ∧
      Plan.analyze vacantSource vacantMemory.toMemoryImage plainOptions = .ok vacantPlan ∧
      CopyJob.run {
        source := vacantSource, memory := vacantMemory.toMemoryImage, plan := vacantPlan }
        (Buffer.zeros vacantPlan.outputSize) = .ok vacantCopy ∧
      Output.relocateDebugDirectory vacantSource vacantCopy.headers.sections
        (vacantCopy.cursor.output.resize vacantCopy.cursor.position) = .ok vacantFixed ∧
      dumpImage vacantImage vacantMemory.toMemoryImage plainOptions = .ok vacantDump ∧
      vacantCopy.headers.sections.findDirectory? { virtualAddress := 0x2004, size := 28 } =
        some 1 ∧
      vacantCopy.headers.sections[1]? = some (pageSection 0x2000 0 0) ∧
      (vacantCopy.cursor.output.resize vacantCopy.cursor.position)[28]? = some 0x50 ∧
      vacantFixed[28]? = some 0x60 ∧
      (∀ header ∈ vacantCopy.headers.sections, ¬header.HoldsOffset 28) ∧
      vacantImage[28]? = some 0x50 ∧ vacantDump[28]? = some 0x60 := by
  refine ⟨eq_ok_get _, eq_ok_get _, eq_ok_get _, eq_ok_get _, eq_ok_get _, ?_⟩
  decide +kernel

end ImageDump
