import ImageDump.Proofs.Trailer

/-!
# Offsets into the raw data of a section

Relocation finds the section of an offset by where the raw data of the sections
ends: it is the first section that ends behind the offset. Sections are in file
order and those without raw data end at zero, so this is the section whose raw
data holds the offset, and the offset moves with the start of that section
(`relocate_of_holdsOffset`). The copy puts the byte at the same place.

What is copied there later may still write over the byte if the section was cut
short, because the aligned end of one of its regions does not fit into 32 bits.
`Plan.Keeps` says that the copy of a section reaches a position. Bytes that are
kept stay in the copy, unless a region covers them, and their offsets keep their
order (`relocate_agrees_with_copy`).
-/

namespace ImageDump

/-! ## The owner of an offset -/

namespace SectionHeader

/-- The file offset belongs to the raw data of the section. -/
def HoldsOffset (header : SectionHeader) (offset : Nat) : Prop :=
  header.hasRawData = true ∧ header.rawPointer.toNat ≤ offset ∧ offset < header.rawEnd

instance (header : SectionHeader) (offset : Nat) : Decidable (header.HoldsOffset offset) :=
  inferInstanceAs (Decidable (_ ∧ _ ∧ _))

theorem HoldsOffset.pos {header : SectionHeader} {offset : Nat}
    (holds : header.HoldsOffset offset) : 0 < offset := by
  obtain ⟨raw, le, -⟩ := holds
  exact Nat.lt_of_lt_of_le (hasRawData_eq_true_iff.1 raw) le

theorem HoldsOffset.sub_lt {header : SectionHeader} {offset : Nat}
    (holds : header.HoldsOffset offset) :
    offset - header.rawPointer.toNat < header.rawSize.toNat := by
  obtain ⟨-, le, lt⟩ := holds
  rw [rawEnd] at lt
  omega

end SectionHeader

/-- Nothing in front of the section that holds an offset ends behind that offset. -/
theorem SectionTable.rawEnd_le_of_holdsOffset {table : SectionTable} {index earlier offset : Nat}
    {entry other : SectionHeader} (ordered : table.Pairwise Image.InFileOrder)
    (strayFree : table.NoStraySizes) (entryAt : table[index]? = some entry)
    (otherAt : table[earlier]? = some other) (before : earlier < index)
    (holds : entry.HoldsOffset offset) : other.rawEnd ≤ offset := by
  cases otherRaw : other.hasRawData with
  | false =>
    rw [strayFree.rawEnd_eq_zero (List.mem_of_getElem? otherAt) otherRaw]
    exact Nat.zero_le _
  | true =>
    obtain ⟨otherInRange, rfl⟩ := List.getElem?_eq_some_iff.1 otherAt
    obtain ⟨entryInRange, rfl⟩ := List.getElem?_eq_some_iff.1 entryAt
    have inOrder := List.pairwise_iff_getElem.1 ordered earlier index otherInRange entryInRange
      before otherRaw holds.1
    exact Nat.le_trans inOrder holds.2.1

/-- An offset belongs to one section. -/
theorem SectionTable.eq_of_holdsOffset {table : SectionTable} {index other offset : Nat}
    {entry header : SectionHeader} (ordered : table.Pairwise Image.InFileOrder)
    (entryAt : table[index]? = some entry) (headerAt : table[other]? = some header)
    (entryHolds : entry.HoldsOffset offset) (headerHolds : header.HoldsOffset offset) :
    index = other := by
  obtain ⟨inRange, rfl⟩ := List.getElem?_eq_some_iff.1 entryAt
  obtain ⟨otherInRange, rfl⟩ := List.getElem?_eq_some_iff.1 headerAt
  obtain ⟨entryRaw, entryLe, entryLt⟩ := entryHolds
  obtain ⟨headerRaw, headerLe, headerLt⟩ := headerHolds
  rcases Nat.lt_trichotomy index other with before | same | after
  · have inOrder := List.pairwise_iff_getElem.1 ordered index other inRange otherInRange before
      entryRaw headerRaw
    omega
  · exact same
  · have inOrder := List.pairwise_iff_getElem.1 ordered other index otherInRange inRange after
      headerRaw entryRaw
    omega

/-- The section of the second table at the place of one in the first. -/
theorem SectionTable.exists_counterpart {first second : SectionTable} {index : Nat}
    {entry : SectionHeader} (length : second.length = first.length)
    (entryAt : first[index]? = some entry) : ∃ header, second[index]? = some header := by
  have inRange : index < second.length := by
    rw [length]
    exact (List.getElem?_eq_some_iff.1 entryAt).1
  exact ⟨_, List.getElem?_eq_getElem inRange⟩

/-- Index of the first section whose raw data ends behind the file offset. -/
def SectionTable.findEnding? (table : SectionTable) (offset : Nat) : Option Nat :=
  table.findIdx? (offset < ·.rawEnd)

/-- An offset moves with the first section that ends behind it, whether it lies in that
section or in front of it. -/
theorem relocate_of_findEnding? {source destination : SectionTable} {index : Nat}
    {entry header : SectionHeader} {offset : UInt64} (nonzero : offset ≠ 0)
    (found : source.findEnding? offset.toNat = some index)
    (sourceEntry : source[index]? = some entry)
    (destinationEntry : destination[index]? = some header) :
    relocate source destination offset =
      offset + UInt64.ofNat header.rawPointer.toNat - UInt64.ofNat entry.rawPointer.toNat := by
  obtain ⟨sourceRange, ends, earlierEnd⟩ := List.findIdx?_eq_some_iff_getElem.1 found
  cases (List.getElem?_eq_getElem sourceRange).symm.trans sourceEntry
  have pairAt := List.getElem?_zip_eq_some (z := (source[index], header)).2
    ⟨sourceEntry, destinationEntry⟩
  obtain ⟨inRange, pair⟩ := List.getElem?_eq_some_iff.1 pairAt
  rw [relocate, if_neg nonzero,
    List.find?_eq_some_iff_getElem.2 ⟨?_, index, inRange, pair, ?_⟩]
  · simp only [← UInt64.ofNat_uInt32ToNat]
  · exact ends
  · intro earlier before
    have stop := earlierEnd earlier before
    simpa [List.getElem_zip] using stop

/-- The section that holds an offset is the first that ends behind it. -/
theorem SectionTable.findEnding?_of_holdsOffset {table : SectionTable} {index offset : Nat}
    {entry : SectionHeader} (ordered : table.Pairwise Image.InFileOrder)
    (strayFree : table.NoStraySizes) (entryAt : table[index]? = some entry)
    (holds : entry.HoldsOffset offset) : table.findEnding? offset = some index := by
  obtain ⟨inRange, rfl⟩ := List.getElem?_eq_some_iff.1 entryAt
  refine List.findIdx?_eq_some_iff_getElem.2
    ⟨inRange, decide_eq_true holds.2.2, fun earlier before => ?_⟩
  have stop := rawEnd_le_of_holdsOffset ordered strayFree entryAt
    (List.getElem?_eq_getElem (Nat.lt_trans before inRange)) before holds
  simpa using stop

/-- An offset into the raw data of a section moves with that section. -/
theorem relocate_of_holdsOffset {source destination : SectionTable} {index : Nat}
    {entry header : SectionHeader} {offset : UInt64}
    (ordered : source.Pairwise Image.InFileOrder) (strayFree : source.NoStraySizes)
    (sourceEntry : source[index]? = some entry)
    (destinationEntry : destination[index]? = some header)
    (holds : entry.HoldsOffset offset.toNat) :
    (relocate source destination offset).toNat =
      header.rawPointer.toNat + (offset.toNat - entry.rawPointer.toNat) := by
  have le := holds.2.1
  have lt := holds.2.2
  have nonzero : offset ≠ 0 := by
    intro zero
    have positive := holds.pos
    rw [zero] at positive
    exact absurd positive (Nat.lt_irrefl 0)
  have pointerSmall := header.rawPointer.toNat_lt
  have endSmall : entry.rawEnd < 2 ^ 33 := by
    have entryPointer := entry.rawPointer.toNat_lt
    have entrySize := entry.rawSize.toNat_lt
    rw [SectionHeader.rawEnd]
    omega
  have found := SectionTable.findEnding?_of_holdsOffset ordered strayFree sourceEntry holds
  rw [relocate_of_findEnding? nonzero found sourceEntry destinationEntry,
    CopyJob.toNat_relocate (Nat.le_add_right_of_le le) (by omega)]
  omega

/-! ## Positions that regions cover -/

/-- The region is stored at this distance from the start of its section. -/
def Placement.Covers (placement : Placement) (position : Nat) : Prop :=
  placement.offset ≤ position ∧ position < placement.stop

instance (placement : Placement) (position : Nat) : Decidable (placement.Covers position) :=
  inferInstanceAs (Decidable (_ ∧ _))

/-- A region that is available has a live byte at each position that it covers. -/
theorem Placement.liveByte?_isSome_iff {memory : MemoryImage} {placement : Placement}
    {position : Nat} (exact : memory.Exact)
    (available : (memory.read placement.region).isSome = true) :
    (placement.liveByte? memory position).isSome = true ↔ placement.Covers position := by
  obtain ⟨bytes, answer⟩ := Option.isSome_iff_exists.1 available
  have length := exact _ _ answer
  rw [liveByte?, answer, Option.bind_some, Covers, stop]
  split
  · rw [isSome_getElem?]
    omega
  · rename_i before
    simp [before]

namespace Plan

/-- A section has a live byte exactly where one of its regions covers it. -/
theorem liveByte?_isSome_iff {plan : Plan} {memory : MemoryImage} {index position : Nat}
    (exact : memory.Exact)
    (available : ∀ placement ∈ plan.placementsIn index,
      (memory.read placement.region).isSome = true) :
    (plan.liveByte? memory index position).isSome = true ↔
      ∃ placement ∈ plan.placementsIn index, placement.Covers position := by
  rw [liveByte?, List.findSome?_isSome_iff]
  constructor
  · intro live
    rcases live with ⟨placement, mem, byte⟩
    have mem := List.mem_reverse.1 mem
    exact ⟨placement, mem,
      (Placement.liveByte?_isSome_iff exact (available placement mem)).1 byte⟩
  · intro covered
    rcases covered with ⟨placement, mem, covers⟩
    exact ⟨placement, List.mem_reverse.2 mem,
      (Placement.liveByte?_isSome_iff exact (available placement mem)).2 covers⟩

/-- The copy of a section keeps what is at this distance from its start: the raw
data of its header reaches that far, or nothing of the section is cut off. -/
def Keeps (plan : Plan) (index : Nat) (header : SectionHeader) (position : Nat) : Prop :=
  position < header.rawSize.toNat ∨
    alignUp (plan.reach index) plan.fileAlignment.toNat < 2 ^ 32

end Plan

namespace CopyJob

variable {job : CopyJob} {output : Buffer} {index position : Nat} {entry : SectionHeader}
  {offset : UInt64}

/-! ## The copy of a section in the run -/

/-- Copy everything in front of a section. -/
def beforeSection (job : CopyJob) (output : Buffer) (index : Nat) :
    Except Interrupted CopyState :=
  (Stage.headers :: (List.range index).map Stage.sectionAt).foldlM job.perform
    (job.initial output)

theorem beforeSection_eq_ok (planned : job.Planned) (runnable : job.Runnable output.size)
    (le : index ≤ job.count) :
    job.beforeSection output index = .ok (job.stateAfter output index) := by
  rw [beforeSection, List.foldlM_cons, bind_eq_ok_iff]
  refine ⟨_, (copyHeaders_eq_ok_iff planned.positive).2
    ⟨runnable.headersInside, runnable.headersFit, rfl⟩, ?_⟩
  exact (foldlM_sections_eq_ok_iff planned le).2
    ⟨fun earlier other _ => runnable.sections earlier other, rfl⟩

/-- When its turn comes, a section is copied to its start, byte by byte. -/
theorem copySource_stateAfter (runnable : job.Runnable output.size)
    (sourceEntry : job.source.sections[index]? = some entry) :
    ∃ placed, (job.stateAfter output index).cursor.copySource job.source.data
        entry.rawPointer.toNat entry.rawSize.toNat = .ok placed ∧
      ∀ position < entry.rawSize.toNat,
        job.source.data[entry.rawPointer.toNat + position]? =
          some (placed.output.byte (job.sectionStart index + position)) := by
  have copyable := runnable.sections index entry sourceEntry
  have inside := copyable.inside
  have fits : job.sectionStart index + entry.rawSize.toNat ≤
      (job.stateAfter output index).cursor.output.size := by
    rw [stateAfter, size_outputAfter]
    exact copyable.fits
  refine ⟨_, Cursor.copySource_eq_ok_iff.2 ⟨inside, fits, rfl⟩, fun position lt => ?_⟩
  have inSource : entry.rawPointer.toNat + position < job.source.data.length := by
    rw [SectionHeader.rawEnd] at inside
    omega
  have slice : (job.source.data.slice entry.rawPointer.toNat entry.rawSize.toNat).length =
      entry.rawSize.toNat := Bytes.length_slice_of_le inside
  rw [Buffer.byte_write, slice]
  simp only [stateAfter, Nat.add_sub_cancel_left]
  rw [if_pos (by omega), Bytes.getElem?_slice lt, List.getElem?_eq_getElem inSource]
  rfl

/-! ## What is kept -/

/-- What a section keeps lies in front of the next section. -/
theorem lt_alignUp_storedSize (planned : job.Planned)
    (small : job.sectionStart job.count < 2 ^ 32)
    (sourceEntry : job.source.sections[index]? = some entry)
    (keeps : job.plan.Keeps index (job.destination index entry) position)
    (lt : position < entry.rawSize.toNat) :
    position < alignUp (job.storedSize index) job.alignment := by
  have positive := planned.positive
  have inRange : index < job.count := (List.getElem?_eq_some_iff.1 sourceEntry).1
  have aligned : job.storedSize index ≤ alignUp (job.storedSize index) job.alignment :=
    le_alignUp positive
  rcases keeps with kept | fits
  · rw [toNat_rawSize_destination (storedSize_lt positive small inRange)] at kept
    omega
  · have stored := storedSize_eq positive sourceEntry fits
    omega

/-- An offset into the raw data of a section is relocated to the same distance from
the start of the section in the copy. -/
theorem relocate_eq_sectionStart (parsed : Image.parse job.source.data = .ok job.source)
    (strayFree : SectionTable.NoStraySizes job.source.sections)
    (small : job.sectionStart job.count < 2 ^ 32)
    (sourceEntry : job.source.sections[index]? = some entry)
    (holds : entry.HoldsOffset offset.toNat) :
    (relocate job.source.sections (job.headersAfter job.count).sections offset).toNat =
      job.sectionStart index + (offset.toNat - entry.rawPointer.toNat) := by
  have inRange : index < job.count := (List.getElem?_eq_some_iff.1 sourceEntry).1
  have destinationEntry : (job.headersAfter job.count).sections[index]? =
      some (job.destination index entry) := by
    rw [getElem?_headersAfter_count, sourceEntry]
    rfl
  rw [relocate_of_holdsOffset (Image.inFileOrder_of_parse parsed) strayFree sourceEntry
    destinationEntry holds, rawPointer_destination_of_source small (Nat.le_of_lt inRange) holds.1]

/-- Relocation keeps the order of an offset whose byte is kept and a later one. -/
theorem relocate_lt_relocate (planned : job.Planned)
    (parsed : Image.parse job.source.data = .ok job.source)
    (strayFree : SectionTable.NoStraySizes job.source.sections)
    (small : job.sectionStart job.count < 2 ^ 32)
    (sourceEntry : job.source.sections[index]? = some entry)
    (holds : entry.HoldsOffset offset.toNat)
    (keeps : job.plan.Keeps index (job.destination index entry)
      (offset.toNat - entry.rawPointer.toNat))
    {laterIndex : Nat} {laterEntry : SectionHeader} {later : UInt64}
    (laterAt : job.source.sections[laterIndex]? = some laterEntry)
    (laterHolds : laterEntry.HoldsOffset later.toNat) (lt : offset.toNat < later.toNat) :
    (relocate job.source.sections (job.headersAfter job.count).sections offset).toNat <
      (relocate job.source.sections (job.headersAfter job.count).sections later).toNat := by
  rw [relocate_eq_sectionStart parsed strayFree small sourceEntry holds,
    relocate_eq_sectionStart parsed strayFree small laterAt laterHolds]
  rcases Nat.lt_trichotomy index laterIndex with before | rfl | after
  · -- the next section starts between the two
    have inSection := lt_alignUp_storedSize planned small sourceEntry keeps holds.sub_lt
    have next : job.sectionStart (index + 1) =
        job.sectionStart index + alignUp (job.storedSize index) job.alignment := rfl
    have start : job.sectionStart (index + 1) ≤ job.sectionStart laterIndex :=
      sectionStart_le before
    omega
  · cases sourceEntry.symm.trans laterAt
    have le := holds.2.1
    omega
  · -- file order puts the later section in front of the offset
    have stop := SectionTable.rawEnd_le_of_holdsOffset (Image.inFileOrder_of_parse parsed)
      strayFree sourceEntry laterAt after holds
    have inLater := laterHolds.2.2
    omega

/-- A byte that is kept and that no region covers is the same in the copy. -/
theorem byte_finalOutput_of_kept (planned : job.Planned) (runnable : job.Runnable output.size)
    (small : job.sectionStart job.count < 2 ^ 32)
    (sourceEntry : job.source.sections[index]? = some entry)
    (lt : position < entry.rawSize.toNat)
    (keeps : job.plan.Keeps index (job.destination index entry) position)
    (uncovered : ∀ placement ∈ job.plan.placementsIn index, ¬placement.Covers position) :
    job.source.data[entry.rawPointer.toNat + position]? =
      some ((job.finalOutput output).byte (job.sectionStart index + position)) := by
  have copyable := runnable.sections index entry sourceEntry
  have inside := copyable.inside
  have inSource : entry.rawPointer.toNat + position < job.source.data.length := by
    rw [SectionHeader.rawEnd] at inside
    omega
  have noLive : job.plan.liveByte? job.memory index position = none := by
    rw [← Option.not_isSome_iff_eq_none, Plan.liveByte?_isSome_iff planned.exact
      fun placement mem => (copyable.regions placement mem).1]
    intro covered
    rcases covered with ⟨placement, mem, covers⟩
    exact uncovered placement mem covers
  rw [byte_finalOutput_section runnable sourceEntry
      (lt_alignUp_storedSize planned small sourceEntry keeps lt),
    sectionByte, noLive, Option.getD_none, if_pos lt, List.getElem?_eq_getElem inSource]
  rfl

end CopyJob

/-- **Offsets into raw data.** In a copy below `2 ^ 32` bytes, an offset into the
raw data of a section is relocated to the place where the copy of that section
put its byte. The byte still stands there at the end if the copy keeps it and no
region of the section covers it, and offsets of bytes that are kept stay in
order with all later ones. -/
theorem relocate_agrees_with_copy {source : Bytes} {memory : MemoryImage}
    {options : DumpOptions} {image : Image} {plan : Plan} {output : Buffer} {copied : CopyState}
    (exact : memory.Exact) (parsed : Image.parse source = .ok image)
    (strayFree : SectionTable.NoStraySizes image.sections)
    (analyzed : Plan.analyze image memory options = .ok plan)
    (ran : CopyJob.run { source := image, memory, plan } output = .ok copied)
    (small : copied.cursor.position < 2 ^ 32) {index : Nat} {entry header : SectionHeader}
    {offset : UInt64} (sourceEntry : image.sections[index]? = some entry)
    (copiedEntry : copied.headers.sections[index]? = some header)
    (holds : entry.HoldsOffset offset.toNat) :
    let position := offset.toNat - entry.rawPointer.toNat
    let target := header.rawPointer.toNat + position
    (relocate image.sections copied.headers.sections offset).toNat = target ∧
      (∃ before placed,
        CopyJob.beforeSection { source := image, memory, plan } output index = .ok before ∧
        before.cursor.position = header.rawPointer.toNat ∧
        before.cursor.copySource source entry.rawPointer.toNat entry.rawSize.toNat =
          .ok placed ∧
        source[offset.toNat]? = some (placed.output.byte target)) ∧
      (plan.Keeps index header position →
        ((∀ placement ∈ plan.placementsIn index, ¬placement.Covers position) →
          target < output.size ∧
            source[offset.toNat]? = some (copied.cursor.output.byte target)) ∧
        ∀ later : UInt64, offset < later →
          (∃ other ∈ image.sections, other.HoldsOffset later.toNat) →
          relocate image.sections copied.headers.sections offset <
            relocate image.sections copied.headers.sections later) := by
  have planned := CopyJob.planned_of_analyze exact parsed analyzed
  obtain ⟨runnable, rfl⟩ := (CopyJob.run_eq_ok_iff planned).1 ran
  have data : image.data = source := Image.data_of_parse parsed
  subst data
  have startSmall := Nat.lt_of_le_of_lt (Nat.le_add_right _ _) small
  have inRange : index < CopyJob.count { source := image, memory, plan } :=
    (List.getElem?_eq_some_iff.1 sourceEntry).1
  cases CopyJob.eq_destination sourceEntry copiedEntry
  have pointer := CopyJob.rawPointer_destination_of_source startSmall (Nat.le_of_lt inRange)
    holds.1
  have copyable := runnable.sections index entry sourceEntry
  have lt := holds.sub_lt
  have sourceOffset : entry.rawPointer.toNat + (offset.toNat - entry.rawPointer.toNat) =
      offset.toNat := Nat.add_sub_cancel' holds.2.1
  intro position target
  have targetEq : target =
      CopyJob.sectionStart { source := image, memory, plan } index + position :=
    congrArg (· + position) pointer
  refine ⟨?_, ?_, fun keeps => ⟨fun uncovered => ⟨?_, ?_⟩, fun later after other => ?_⟩⟩
  · rw [targetEq]
    exact CopyJob.relocate_eq_sectionStart parsed strayFree startSmall sourceEntry holds
  · obtain ⟨placed, copies, bytes⟩ := CopyJob.copySource_stateAfter runnable sourceEntry
    refine ⟨_, placed, CopyJob.beforeSection_eq_ok planned runnable (Nat.le_of_lt inRange),
      pointer.symm, copies, ?_⟩
    have byte := bytes position lt
    rw [targetEq, ← byte, sourceOffset]
  · have fits := copyable.fits
    rw [targetEq]
    omega
  · have byte := CopyJob.byte_finalOutput_of_kept planned runnable startSmall sourceEntry lt keeps
      uncovered
    rw [sourceOffset] at byte
    rw [targetEq]
    exact byte
  · obtain ⟨other, mem, otherHolds⟩ := other
    obtain ⟨laterIndex, laterAt⟩ := List.getElem?_of_mem mem
    rw [UInt64.lt_iff_toNat_lt] at after ⊢
    exact CopyJob.relocate_lt_relocate planned parsed strayFree startSmall sourceEntry holds keeps
      laterAt otherHolds after

/-! ## An image with several sections -/

/-- An image with a file alignment of sixteen and without data directories. Its
sections follow its headers, and its contents follow the section table. -/
def imageOf (sections : SectionTable) (contents : Bytes) : Bytes :=
  Codec.u16.encode Image.executableMagic ++ Bytes.zeros 58 ++ Codec.u32.encode 64 ++
    Codec.u32.encode Image.signature ++
    CoffHeader.codec.encode {
      machine := 0x14c
      sectionCount := UInt16.ofNat sections.length
      timestamp := 0
      symbolTablePointer := 0
      symbolCount := 0
      optionalHeaderSize := 96
      characteristics := 0 } ++
    StandardFields.codec.encode {
      magic := Image.OptionalFormat.pe32.magic
      linkerVersion := ⟨0, 0⟩
      codeSize := 0
      initializedDataSize := 0
      uninitializedDataSize := 0
      entryPoint := 0
      codeBase := 0 } ++
    Bytes.zeros 4 ++
    (WindowsFields.codec Codec.u32).encode {
      imageBase := 0x400000
      sectionAlignment := 16
      fileAlignment := 16
      operatingSystemVersion := ⟨0, 0⟩
      imageVersion := ⟨0, 0⟩
      subsystemVersion := ⟨0, 0⟩
      win32Version := 0
      imageSize := 0
      headersSize := 0
      checksum := 0
      subsystem := 0
      dllCharacteristics := 0
      stackReserve := 0
      stackCommit := 0
      heapReserve := 0
      heapCommit := 0
      loaderFlags := 0
      directoryCount := 0 } ++
    sections.flatMap SectionHeader.codec.encode ++ contents

/-- A section of a page, with its raw data. -/
def pageSection (virtualAddress rawPointer rawSize : UInt32) : SectionHeader where
  name := SectionName.ofBytes [0x2e, 0x78]
  virtualSize := 0x1000
  virtualAddress
  rawSize
  rawPointer
  relocationsPointer := 0
  lineNumbersPointer := 0
  relocationCount := 0
  lineNumberCount := 0
  characteristics := SectionContent.uninitializedFlag

/-- An image with three sections, the second of which has no raw data, and sixteen
bytes behind them. -/
def layeredImage : Bytes :=
  imageOf [pageSection 0x1000 304 40, pageSection 0x2000 0 0, pageSection 0x3000 352 16]
    (List.replicate 40 0x11 ++ Bytes.zeros 8 ++ List.replicate 16 0x33 ++ List.replicate 16 0x44)

/-- Memory with twenty live bytes behind the raw data of the first section, and ten
at the start of the second. -/
def layeredMemory : Snapshot :=
  Snapshot.setRegion
    (Snapshot.setRegion { imageBase := 0x400000 } .bss 0x401028 (List.replicate 20 0xaa))
    .staticBss 0x402000 (List.replicate 10 0xbb)

/-- What is read from `layeredImage`. -/
def layeredSource : Image := (Image.parse layeredImage).toOption.get (by decide +kernel)

/-- The plan to store `layeredMemory` in `layeredImage`. -/
def layeredPlan : Plan :=
  (Plan.analyze layeredSource layeredMemory.toMemoryImage plainOptions).toOption.get
    (by decide +kernel)

theorem parse_layeredImage : Image.parse layeredImage = .ok layeredSource := eq_ok_get _

theorem analyze_layeredMemory :
    Plan.analyze layeredSource layeredMemory.toMemoryImage plainOptions = .ok layeredPlan :=
  eq_ok_get _

/-- The copy of `layeredImage` with `layeredMemory` in it. -/
def layeredCopy : CopyState :=
  (CopyJob.run {
    source := layeredSource, memory := layeredMemory.toMemoryImage, plan := layeredPlan }
    (Buffer.zeros layeredPlan.outputSize)).toOption.get (by decide +kernel)

theorem run_layeredMemory :
    CopyJob.run {
      source := layeredSource, memory := layeredMemory.toMemoryImage, plan := layeredPlan }
      (Buffer.zeros layeredPlan.outputSize) = .ok layeredCopy :=
  eq_ok_get _

/-- The first section stays where it is and grows, the second gets raw data, and the
third moves behind both. -/
theorem relocate_layeredMemory : ∃ copied,
    CopyJob.run {
      source := layeredSource, memory := layeredMemory.toMemoryImage, plan := layeredPlan }
      (Buffer.zeros layeredPlan.outputSize) = .ok copied ∧
    (relocate layeredSource.sections copied.headers.sections 343).toNat = 343 ∧
    (relocate layeredSource.sections copied.headers.sections 352).toNat = 384 ∧
    relocate layeredSource.sections copied.headers.sections 343 <
      relocate layeredSource.sections copied.headers.sections 352 ∧
    some (copied.cursor.output.byte 384) = layeredImage[352]? := by
  obtain ⟨copied, ran, small, first, third⟩ : ∃ copied,
      CopyJob.run {
        source := layeredSource, memory := layeredMemory.toMemoryImage, plan := layeredPlan }
        (Buffer.zeros layeredPlan.outputSize) = .ok copied ∧
      copied.cursor.position < 2 ^ 32 ∧
      copied.headers.sections[0]? = some (pageSection 0x1000 304 64).markDumped ∧
      copied.headers.sections[2]? = some (pageSection 0x3000 384 16) :=
    ⟨_, run_layeredMemory, by decide +kernel, by decide +kernel, by decide +kernel⟩
  have strayFree : SectionTable.NoStraySizes layeredSource.sections := by decide +kernel
  have firstHolds : (pageSection 0x1000 304 40).HoldsOffset (343 : UInt64).toNat := by decide
  have thirdHolds : (pageSection 0x3000 352 16).HoldsOffset (352 : UInt64).toNat := by decide
  obtain ⟨firstMoved, -, firstKept⟩ := relocate_agrees_with_copy
    layeredMemory.exact_toMemoryImage parse_layeredImage strayFree analyze_layeredMemory ran small
    (by decide +kernel) first firstHolds
  obtain ⟨thirdMoved, -, thirdKept⟩ := relocate_agrees_with_copy
    layeredMemory.exact_toMemoryImage parse_layeredImage strayFree analyze_layeredMemory ran small
    (by decide +kernel) third thirdHolds
  obtain ⟨-, order⟩ := firstKept (.inl (by decide))
  obtain ⟨stays, -⟩ := thirdKept (.inl (by decide))
  obtain ⟨-, byte⟩ := stays (by decide +kernel)
  exact ⟨copied, ran, firstMoved, thirdMoved,
    order 352 (by decide) ⟨_, by decide +kernel, thirdHolds⟩, byte.symm⟩

/-- The copy of `wideImage` with `overflowingMemory` in it. -/
def overflowingCopy : CopyState :=
  (CopyJob.run {
    source := wideSource, memory := overflowingMemory.toMemoryImage, plan := overflowingPlan }
    (Buffer.zeros overflowingPlan.outputSize)).toOption.get (by decide +kernel)

theorem run_overflowingMemory :
    CopyJob.run {
      source := wideSource, memory := overflowingMemory.toMemoryImage, plan := overflowingPlan }
      (Buffer.zeros overflowingPlan.outputSize) = .ok overflowingCopy :=
  eq_ok_get _

/-- A section that is cut short by a second region: what follows it is copied over
the rest of its raw data. -/
theorem overwritten_byte_overflowingMemory :
    Image.parse wideImage = .ok wideSource ∧
      SectionTable.NoStraySizes wideSource.sections ∧ overflowingMemory.toMemoryImage.Exact ∧
      Plan.analyze wideSource overflowingMemory.toMemoryImage plainOptions = .ok overflowingPlan ∧
      ∃ copied,
        CopyJob.run {
          source := wideSource, memory := overflowingMemory.toMemoryImage, plan := overflowingPlan }
          (Buffer.zeros overflowingPlan.outputSize) = .ok copied ∧
        copied.cursor.position < 2 ^ 32 ∧
        wideSource.sections[0]? = some wideSection ∧ wideSection.HoldsOffset 304 ∧
        (∀ placement ∈ overflowingPlan.placementsIn 0, ¬placement.Covers 16) ∧
        relocate wideSource.sections copied.headers.sections 304 = 304 ∧
        wideImage[304]? = some 0x11 ∧ copied.cursor.output.byte 304 = 0 := by
  refine ⟨parse_wideImage, by decide +kernel, overflowingMemory.exact_toMemoryImage,
    analyze_overflowingMemory, _, run_overflowingMemory, ?_⟩
  decide +kernel

end ImageDump
