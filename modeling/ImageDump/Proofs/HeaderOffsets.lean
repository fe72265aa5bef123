import ImageDump.Proofs.CopyFrame
import ImageDump.Proofs.Relocation

/-!
# File offsets in the headers

The headers name file offsets in four places: the symbol table, the line numbers and the
relocations of each section, and the certificates, whose data directory holds a file
offset where the others hold an address. Patching relocates the first two. The relocations
and the certificates keep the offsets that they had in the source
(`relocates_headerOffsets`), so that after any growth in front of them the headers point
somewhere else (`unmoved_offsets_signedImage`).
-/

namespace ImageDump

/-- File offset of a data directory. -/
def Image.directoryOffset (image : Image) (kind : DirectoryKind) : Nat :=
  image.offsets.directories + DataDirectory.codec.size * kind.index

/-- A data directory of a parsed image is read at its place. -/
theorem Image.read?_directoryOffset {data : Bytes} {image : Image}
    (parsed : Image.parse data = .ok image) {kind : DirectoryKind} {directory : DataDirectory}
    (present : image.directory? kind = some directory) :
    DataDirectory.codec.read? data (image.directoryOffset kind) = some directory := by
  obtain ⟨⟨_, _, reads⟩, -⟩ := parse_eq_ok_iff.1 parsed
  exact (readTable_eq_ok_iff.1 reads.directoriesAt).2 kind.index directory present

namespace CopyJob

variable {job : CopyJob} {output : Buffer} {copied : CopyState} {options : DumpOptions}
  {final : Headers} {result : Bytes} {position : Nat}

/-- A copy at its final size starts with the headers of the source. -/
theorem getElem?_resize_of_run (ran : job.run output = .ok copied)
    (lt : position < job.source.offsets.sectionsEnd) :
    (copied.cursor.output.resize copied.cursor.position)[position]? =
      job.source.data[position]? := by
  obtain ⟨inside, fits, keeps⟩ := keeps_of_run ran
  have reached := keeps.cursor.le
  have size : copied.cursor.output.size = output.size := keeps.cursor.size
  have length : (job.source.data.slice 0 job.source.offsets.sectionsEnd).length =
      job.source.offsets.sectionsEnd :=
    Bytes.length_slice_of_le (by omega)
  rw [Buffer.getElem?_resize _ (by omega), if_pos (by omega), keeps.cursor.byte position lt,
    copiedFront, Buffer.byte_write, length, if_pos (by omega), Bytes.getElem?_slice (by omega),
    Nat.sub_zero, Nat.zero_add, List.getElem?_eq_getElem (by omega)]
  rfl

/-- In front of the end of the section table, a dump changes nothing but the headers and the
pointers of the debug directory. -/
theorem getElem?_patched_front (ran : job.run output = .ok copied)
    (ordered : Image.HeadersInOrder copied.headers)
    (patched : Output.patch (copied.cursor.output.resize copied.cursor.position) job.source
      copied.headers options = .ok (final, result))
    (lt : position < job.source.offsets.sectionsEnd)
    (uncovered : ¬Bytes.Covered final.pieces position)
    (untouched : ¬Output.RewritesPointerAt job.source final.sections position) :
    result[position]? = job.source.data[position]? := by
  obtain ⟨fixed, checksum, debug, finalEq, stored⟩ := Output.patch_eq_ok ordered patched
  obtain ⟨-, debugFrame⟩ := Output.relocateDebugDirectory_frame debug
  rw [finalEq, Output.rewritesPointerAt_finalHeaders] at untouched
  calc result[position]?
      = fixed[position]? := stored.frame position uncovered
    _ = (copied.cursor.output.resize copied.cursor.position)[position]? :=
        debugFrame position untouched
    _ = job.source.data[position]? := getElem?_resize_of_run ran lt

end CopyJob

/-- **File offsets in the headers.** In the headers of a dumped image, the offsets of the
symbol table and of the line numbers are relocated. Those of the relocations are not, and
neither is that of the certificates, as long as the entry of their data directory lies in
front of the section table and no pointer of the debug directory lies on it. -/
theorem relocates_headerOffsets {source output : Bytes} {memory : MemoryImage}
    {options : DumpOptions} {image : Image} (parsed : Image.parse source = .ok image)
    (dumped : dumpImage source memory options = .ok output) :
    ∃ coff table, CoffHeader.codec.read? output image.offsets.coff = some coff ∧
      Image.readTable .sectionHeader SectionHeader.codec output image.offsets.sections
        image.sections.length = .ok table ∧
      coff.symbolTablePointer =
        relocateField image.sections table image.coff.symbolTablePointer ∧
      (∀ (index : Nat) (entry header : SectionHeader), image.sections[index]? = some entry →
        table[index]? = some header →
        header.lineNumbersPointer =
            relocateField image.sections table entry.lineNumbersPointer ∧
          header.relocationsPointer = entry.relocationsPointer) ∧
      ∀ directory ∈ image.directory? .certificateTable,
        let place := image.directoryOffset .certificateTable
        place + DataDirectory.codec.size ≤ image.offsets.sections →
        (∀ position, place ≤ position → position < place + DataDirectory.codec.size →
          ¬Output.RewritesPointerAt image table position) →
        DataDirectory.codec.read? output place = some directory := by
  obtain ⟨_, plan, copied, final, parsed', -, ran, patched⟩ := dumpImage_eq_ok_iff.1 dumped
  cases parsed.symm.trans parsed'
  obtain ⟨-, -, keeps⟩ := CopyJob.keeps_of_run ran
  have sourceOrdered := Image.headersInOrder_of_parse parsed
  have ordered := Headers.headersInOrder_of_unplaced keeps.headers sourceOrdered
  have offsets : copied.headers.offsets = image.offsets :=
    Headers.offsets_of_unplaced keeps.headers
  have coff : copied.headers.coff = image.coff := Headers.coff_of_unplaced keeps.headers
  have count : copied.headers.sections.length = image.sections.length :=
    Headers.length_sections_of_unplaced keeps.headers
  obtain ⟨fixed, checksum, debug, finalEq, stored⟩ := Output.patch_eq_ok ordered patched
  have coffAt := stored.coffAt
  have sectionsAt := stored.sectionsAt
  have finalOffsets : final.offsets = image.offsets := by
    rw [finalEq]
    exact offsets
  have finalCount : final.sections.length = image.sections.length := by
    rw [finalEq, Output.sections_finalHeaders, List.length_map, count]
  have move (field : UInt32) : relocateField image.sections final.sections field =
      relocateField image.sections copied.headers.sections field := by
    rw [finalEq]
    exact Output.relocateField_finalHeaders image.sections copied.headers checksum _ field
  rw [finalOffsets] at coffAt sectionsAt
  rw [finalCount] at sectionsAt
  refine ⟨final.coff, final.sections, coffAt, sectionsAt, ?_, ?_, ?_⟩
  · rw [move, ← coff, finalEq]
    rfl
  · intro index entry header sourceEntry finalEntry
    rw [finalEq, Output.sections_finalHeaders, List.getElem?_map,
      Option.map_eq_some_iff] at finalEntry
    obtain ⟨before, copiedEntry, rfl⟩ := finalEntry
    have same : before.unplaced = entry.unplaced :=
      Headers.getElem?_sections_of_unplaced keeps.headers copiedEntry sourceEntry
    obtain ⟨-, -, -, -, -, relocations, lineNumbers, -⟩ := SectionHeader.mk.inj same
    rw [move, ← lineNumbers]
    exact ⟨rfl, relocations⟩
  · intro directory present place inFront still
    have read := Image.read?_directoryOffset parsed present
    have sectionsLe := sourceOrdered.sections_le
    have reached : image.offsets.sectionsEnd ≤ copied.cursor.position := keeps.cursor.le
    obtain ⟨debugLength, -⟩ := Output.relocateDebugDirectory_frame debug
    have length : output.length = copied.cursor.position := by
      rw [stored.length, debugLength, Buffer.length_resize]
    refine Codec.read?_congr read (by omega) fun position le lt => ?_
    have directories : image.offsets.directories ≤ place := Nat.le_add_right _ _
    have uncovered : ¬Bytes.Covered final.pieces position := by
      refine Headers.not_covered_of_between
        (finalEq ▸ Output.headersInOrder_finalHeaders checksum ordered) ?_ ?_
      · rw [finalOffsets]
        omega
      · rw [finalOffsets]
        omega
    have inFrontOfSections : position < image.offsets.sectionsEnd := by omega
    rw [CopyJob.getElem?_patched_front ran ordered patched inFrontOfSections uncovered
      (still position le lt), Image.data_of_parse parsed]

/-! ## An image with data directories -/

/-- An image with a file alignment of sixteen. Its sections follow its data directories,
and its contents follow the section table. -/
def imageWith (directories : List DataDirectory) (sections : SectionTable) (contents : Bytes) :
    Bytes :=
  Codec.u16.encode Image.executableMagic ++ Bytes.zeros 58 ++ Codec.u32.encode 64 ++
    Codec.u32.encode Image.signature ++
    CoffHeader.codec.encode {
      machine := 0x14c
      sectionCount := UInt16.ofNat sections.length
      timestamp := 0
      symbolTablePointer := 0
      symbolCount := 0
      optionalHeaderSize :=
        UInt16.ofNat (96 + DataDirectory.codec.size * directories.length)
      characteristics := 0 } ++
    StandardFields.codec.encode {
      magic := Image.OptionalFormat.pe32.magic
      linkerVersion := ⟨0, 0⟩
      codeSize := 0
      initializedDataSize := 0
      uninitializedDataSize := 0
      entryPoint := 0
      codeBase := 0 } ++
    Bytes.zeros 4 ++
    (WindowsFields.codec Codec.u32).encode {
      imageBase := 0x400000
      sectionAlignment := 16
      fileAlignment := 16
      operatingSystemVersion := ⟨0, 0⟩
      imageVersion := ⟨0, 0⟩
      subsystemVersion := ⟨0, 0⟩
      win32Version := 0
      imageSize := 0
      headersSize := 0
      checksum := 0
      subsystem := 0
      dllCharacteristics := 0
      stackReserve := 0
      stackCommit := 0
      heapReserve := 0
      heapCommit := 0
      loaderFlags := 0
      directoryCount := UInt32.ofNat directories.length } ++
    directories.flatMap DataDirectory.codec.encode ++
    sections.flatMap SectionHeader.codec.encode ++ contents

/-- A data directory for a table that is not there. -/
def absentDirectory : DataDirectory := { virtualAddress := 0, size := 0 }

/-- A section with thirty-two bytes of raw data, and with line numbers and relocations
behind them. -/
def linkedSection : SectionHeader :=
  { pageSection 0x1000 272 32 with lineNumbersPointer := 304, relocationsPointer := 320 }

/-- An image with that section alone. Line numbers, relocations and certificates follow its
raw data. -/
def signedImage : Bytes :=
  imageWith (List.replicate 4 absentDirectory ++ [{ virtualAddress := 336, size := 16 }])
    [linkedSection]
    (Bytes.zeros 8 ++ List.replicate 32 0x11 ++ List.replicate 16 0x22 ++
      List.replicate 16 0x33 ++ List.replicate 16 0x44)

/-- Memory with twenty live bytes behind thirty-two bytes of raw data. -/
def trailingMemory : Snapshot :=
  Snapshot.setRegion { imageBase := 0x400000 } .bss 0x401020 (List.replicate 20 0xaa)

/-- What is read from `signedImage`. -/
def signedSource : Image := (Image.parse signedImage).toOption.get (by decide +kernel)

theorem parse_signedImage : Image.parse signedImage = .ok signedSource := eq_ok_get _

/-- The dump of `trailingMemory` into `signedImage`. -/
def signedDump : Bytes :=
  (dumpImage signedImage trailingMemory.toMemoryImage plainOptions).toOption.get
    (by decide +kernel)

theorem dumpImage_signedImage :
    dumpImage signedImage trailingMemory.toMemoryImage plainOptions = .ok signedDump :=
  eq_ok_get _

/-- The header of the section in the dump. -/
def signedHeader : SectionHeader :=
  { linkedSection with
    rawSize := 64
    lineNumbersPointer := 336
    characteristics := SectionContent.initializedFlag }

theorem readTable_signedDump :
    Image.readTable .sectionHeader SectionHeader.codec signedDump signedSource.offsets.sections
      signedSource.sections.length = .ok [signedHeader] :=
  eq_ok_of_toOption (by decide +kernel)

/-- The section grows by thirty-two bytes. Its line numbers are relocated by as much, its
relocations and the certificates are not. -/
theorem relocates_headerOffsets_signedImage :
    relocateField signedSource.sections [signedHeader] 304 = signedHeader.lineNumbersPointer ∧
      signedHeader.relocationsPointer = linkedSection.relocationsPointer ∧
      DataDirectory.codec.read? signedDump (signedSource.directoryOffset .certificateTable) =
        some { virtualAddress := 336, size := 16 } := by
  obtain ⟨coff, table, -, sectionsAt, -, sections, certificates⟩ :=
    relocates_headerOffsets parse_signedImage dumpImage_signedImage
  cases sectionsAt.symm.trans readTable_signedDump
  obtain ⟨lineNumbers, relocations⟩ :=
    sections 0 linkedSection signedHeader (by decide +kernel) rfl
  have noDebug : signedSource.directory? .debug = none := by decide +kernel
  refine ⟨lineNumbers.symm, relocations, certificates _ (by decide +kernel) (by decide +kernel) ?_⟩
  intro position _ _ rewrites
  rcases rewrites with ⟨directory, present, -⟩
  rw [noDebug] at present
  cases present

/-- The relocations of the section and the certificates move by thirty-two bytes, and the
headers go on naming where they were. -/
theorem unmoved_offsets_signedImage :
    Image.parse signedImage = .ok signedSource ∧
      dumpImage signedImage trailingMemory.toMemoryImage plainOptions = .ok signedDump ∧
      Image.readTable .sectionHeader SectionHeader.codec signedDump
        signedSource.offsets.sections signedSource.sections.length = .ok [signedHeader] ∧
      signedSource.sections = [linkedSection] ∧ linkedSection.relocationsPointer = 320 ∧
      signedDump.slice 352 16 = signedImage.slice 320 16 ∧
      relocateField signedSource.sections [signedHeader] 320 = 352 ∧
      signedHeader.relocationsPointer = 320 ∧
      signedSource.directory? .certificateTable = some { virtualAddress := 336, size := 16 } ∧
      signedDump.slice 368 16 = signedImage.slice 336 16 ∧
      relocateField signedSource.sections [signedHeader] 336 = 368 ∧
      DataDirectory.codec.read? signedDump (signedSource.directoryOffset .certificateTable) =
        some { virtualAddress := 336, size := 16 } := by
  refine ⟨parse_signedImage, dumpImage_signedImage, readTable_signedDump, ?_⟩
  decide +kernel

end ImageDump
