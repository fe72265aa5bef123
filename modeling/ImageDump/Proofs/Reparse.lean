import ImageDump.Proofs.Loader

/-!
# Parsing a dumped image

A dump moves raw data and rewrites headers, but the records that a parser looks
for stay where they were, as long as the source is well-formed: the signature
and the data directories lie outside the rewritten headers, and the debug
directory lies in the raw data of a section, so that relocating it changes no
header. Of the last point less is enough: the section in which the debug
directory starts must have raw data (`Image.Redumpable`), however far that
reaches. `CopyJob.Dumps.parse_output` says that the output is then parsed as
exactly the headers that patching returned, with the data directories of the
source.
-/

namespace ImageDump

/-! ## Well-formed images -/

namespace SectionHeader

/-- The relative virtual address lies in the section or in the padding up to the
alignment behind it. -/
def Spans (alignment rva : Nat) (header : SectionHeader) : Prop :=
  header.virtualAddress.toNat ≤ rva ∧
    rva < header.virtualAddress.toNat + alignUp header.extent alignment

/-- The two sections share no virtual address. -/
def Apart (alignment : Nat) (first second : SectionHeader) : Prop :=
  ∀ rva, first.Spans alignment rva → ¬second.Spans alignment rva

/-- The table that a directory names lies in the raw data of the section. -/
structure HoldsTable (header : SectionHeader) (directory : DataDirectory) : Prop where
  raw : header.hasRawData = true
  starts : header.virtualAddress.toNat ≤ directory.virtualAddress.toNat
  stops : directory.virtualAddress.toNat + directory.size.toNat ≤
    header.virtualAddress.toNat + header.rawSize.toNat

end SectionHeader

/-- What a dump keeps intact besides being a portable executable. -/
structure Image.WellFormed (image : Image) : Prop where
  /-- The signature lies behind the header that points to it. -/
  signature : 0x40 + Image.signatureSize ≤ image.offsets.coff
  directories : image.offsets.directories + DataDirectory.codec.size * image.directories.length ≤
    image.offsets.sections
  strayFree : SectionTable.NoStraySizes image.sections
  apart : image.sections.Pairwise (SectionHeader.Apart image.fileAlignment.toNat)
  debug : ∀ directory ∈ image.directory? .debug, directory.virtualAddress ≠ 0 →
    ∃ header ∈ image.sections, header.HoldsTable directory

/-- What a dump needs of its source for its output to be a portable executable
with the same records. -/
structure Image.Redumpable (image : Image) : Prop where
  signature : 0x40 + Image.signatureSize ≤ image.offsets.coff
  directories : image.offsets.directories + DataDirectory.codec.size * image.directories.length ≤
    image.offsets.sections
  strayFree : SectionTable.NoStraySizes image.sections
  apart : image.sections.Pairwise (SectionHeader.Apart image.fileAlignment.toNat)
  /-- A debug directory with entries does not start in a section without raw data. -/
  anchored : ∀ directory ∈ image.directory? .debug, directory.virtualAddress ≠ 0 →
    0 < directory.size.toNat → ∀ header ∈ image.sections,
      header.Spans image.fileAlignment.toNat directory.virtualAddress.toNat →
        header.hasRawData = true

theorem SectionHeader.Spans.mono {alignment rva : Nat} {first second : SectionHeader}
    (spans : first.Spans alignment rva)
    (address : first.virtualAddress = second.virtualAddress)
    (le : alignUp first.extent alignment ≤ alignUp second.extent alignment) :
    second.Spans alignment rva := by
  obtain ⟨start, stop⟩ := spans
  rw [address] at start stop
  exact ⟨start, by omega⟩

/-- An address belongs to one of the sections. -/
theorem SectionTable.eq_of_spans {table : SectionTable} {alignment i j rva : Nat}
    {first second : SectionHeader} (apart : table.Pairwise (SectionHeader.Apart alignment))
    (firstEntry : table[i]? = some first) (secondEntry : table[j]? = some second)
    (firstSpans : first.Spans alignment rva) (secondSpans : second.Spans alignment rva) :
    i = j := by
  rw [List.pairwise_iff_getElem] at apart
  obtain ⟨inRangeI, rfl⟩ := List.getElem?_eq_some_iff.1 firstEntry
  obtain ⟨inRangeJ, rfl⟩ := List.getElem?_eq_some_iff.1 secondEntry
  rcases Nat.lt_trichotomy i j with before | same | after
  · exact absurd secondSpans (apart i j inRangeI inRangeJ before rva firstSpans)
  · exact same
  · exact absurd firstSpans (apart j i inRangeJ inRangeI after rva secondSpans)

/-- A table with entries starts in the section that holds it. -/
theorem SectionHeader.HoldsTable.spans {header : SectionHeader} {directory : DataDirectory}
    {alignment : Nat} (holds : header.HoldsTable directory) (positive : 0 < alignment)
    (nonempty : 0 < directory.size.toNat) :
    header.Spans alignment directory.virtualAddress.toNat := by
  have starts := holds.starts
  have stops := holds.stops
  have rawLe : header.rawSize.toNat ≤ header.extent := Nat.le_max_right _ _
  have up : header.extent ≤ alignUp header.extent alignment := le_alignUp positive
  exact ⟨starts, by omega⟩

theorem Image.WellFormed.redumpable {image : Image} (wellFormed : image.WellFormed)
    (positive : 0 < image.fileAlignment.toNat) : image.Redumpable where
  signature := wellFormed.signature
  directories := wellFormed.directories
  strayFree := wellFormed.strayFree
  apart := wellFormed.apart
  anchored := by
    intro directory present nonzero nonempty header mem spans
    obtain ⟨holder, holderMem, holds⟩ := wellFormed.debug directory present nonzero
    obtain ⟨i, entry⟩ := List.getElem?_of_mem mem
    obtain ⟨j, holderEntry⟩ := List.getElem?_of_mem holderMem
    have same : i = j := SectionTable.eq_of_spans wellFormed.apart entry holderEntry spans
      (holds.spans positive nonempty)
    subst same
    cases entry.symm.trans holderEntry
    exact holds.raw

namespace CopyJob

variable {job : CopyJob} {options : DumpOptions} {final : Headers} {output : Bytes}
  {index position : Nat} {entry header : SectionHeader}

/-! ## Sections of the copy keep their addresses -/

/-- The raw data of a section of the copy stays in the rounded extent of the
section. -/
theorem storedSize_le_extent (planned : job.Planned)
    (sourceEntry : job.source.sections[index]? = some entry) :
    job.storedSize index ≤ alignUp entry.extent job.alignment := by
  have positive := planned.positive
  have up : entry.extent ≤ alignUp entry.extent job.alignment := le_alignUp positive
  have rawLe : entry.rawSize.toNat ≤ entry.extent := Nat.le_max_right _ _
  rw [storedSize_of_getElem? sourceEntry]
  refine Placement.foldl_resize_le (by omega) fun placement mem => ?_
  have within := planned.sound.within_of_mem_placementsIn sourceEntry mem
  exact alignUp_mono positive within.stop_le

theorem alignUp_extent_destination_le (planned : job.Planned)
    (small : job.sectionStart job.count < 2 ^ 32)
    (sourceEntry : job.source.sections[index]? = some entry) :
    alignUp (job.destination index entry).extent job.alignment ≤
      alignUp entry.extent job.alignment := by
  have positive := planned.positive
  have inRange : index < job.count := (List.getElem?_eq_some_iff.1 sourceEntry).1
  have size : (job.destination index entry).rawSize.toNat = job.storedSize index :=
    toNat_rawSize_destination (storedSize_lt positive small inRange)
  have virtualSize : (job.destination index entry).virtualSize = entry.virtualSize := by
    rw [destination_eq]
  have stored := storedSize_le_extent planned sourceEntry
  have up : entry.extent ≤ alignUp entry.extent job.alignment := le_alignUp positive
  have virtualLe : entry.virtualSize.toNat ≤ entry.extent := Nat.le_max_left _ _
  refine alignUp_le_of_dvd positive ?_ (dvd_alignUp positive)
  rw [SectionHeader.extent, size, virtualSize]
  exact Nat.max_le.2 ⟨by omega, stored⟩

/-- A directory is found in the copy in a section that it starts in, or in the padding behind,
in the source. -/
theorem spans_of_findDirectory? (planned : job.Planned)
    (small : job.sectionStart job.count < 2 ^ 32) {directory : DataDirectory}
    (found : (job.headersAfter job.count).sections.findDirectory? directory = some index) :
    directory.virtualAddress ≠ 0 ∧
      ∃ entry, job.source.sections[index]? = some entry ∧
        entry.Spans job.source.fileAlignment.toNat directory.virtualAddress.toNat := by
  unfold SectionTable.findDirectory? at found
  split at found
  · cases found
  · rename_i nonzero
    obtain ⟨found', foundAt, le, lt⟩ := SectionTable.exists_of_findContaining? found
    rw [getElem?_headersAfter_count, Option.map_eq_some_iff] at foundAt
    obtain ⟨entry, sourceEntry, rfl⟩ := foundAt
    refine ⟨nonzero, entry, sourceEntry, ?_⟩
    have copySpans : (job.destination index entry).Spans job.alignment
        directory.virtualAddress.toNat := by
      have up : (job.destination index entry).extent ≤
          alignUp (job.destination index entry).extent job.alignment :=
        le_alignUp planned.positive
      exact ⟨le, by omega⟩
    rw [← alignment_eq planned]
    refine copySpans.mono ?_ (alignUp_extent_destination_le planned small sourceEntry)
    rw [destination_eq]

/-- A pointer that is rewritten belongs to a debug directory with entries, and lies as far
behind the fields of the section found for it as its address behind that of the section. -/
theorem exists_of_rewritesPointerAt (planned : job.Planned)
    (small : job.sectionStart job.count < 2 ^ 32)
    (rewrites : Output.RewritesPointerAt job.source (job.headersAfter job.count).sections
      position) :
    ∃ directory ∈ job.source.directory? .debug, directory.virtualAddress ≠ 0 ∧
      0 < directory.size.toNat ∧ ∃ index entry, job.source.sections[index]? = some entry ∧
        entry.Spans job.source.fileAlignment.toNat directory.virtualAddress.toNat ∧
        (job.destination index entry).rawPointer.toNat +
          (directory.virtualAddress.toNat - entry.virtualAddress.toNat) ≤ position ∧
        position < (job.destination index entry).rawPointer.toNat +
          (directory.virtualAddress.toNat - entry.virtualAddress.toNat) +
            directory.size.toNat := by
  obtain ⟨directory, present, header, found, debugEntry, entryLt, le, lt⟩ := rewrites
  have size : DebugEntry.codec.size = 28 := rfl
  have table : 28 * debugEntry + 28 ≤ directory.size.toNat := by
    rw [size] at entryLt
    omega
  obtain ⟨index, foundAt, entryAt⟩ := Option.bind_eq_some_iff.1 found
  obtain ⟨nonzero, entry, sourceEntry, spans⟩ := spans_of_findDirectory? planned small foundAt
  cases eq_destination sourceEntry entryAt
  have address : (job.destination index entry).virtualAddress = entry.virtualAddress := by
    rw [destination_eq]
  rw [SectionHeader.fileOffset, address] at le lt
  exact ⟨directory, present, nonzero, by omega, index, entry, sourceEntry, spans, by omega,
    by omega⟩

/-- The pointers of the debug directory of a well-formed source that are rewritten lie where
the raw data of the section that holds it is copied to. -/
theorem within_of_rewritesPointerAt (planned : job.Planned)
    (small : job.sectionStart job.count < 2 ^ 32) (wellFormed : job.source.WellFormed)
    (rewrites : Output.RewritesPointerAt job.source (job.headersAfter job.count).sections
      position) :
    ∃ directory ∈ job.source.directory? .debug, directory.virtualAddress ≠ 0 ∧
      ∃ index entry, job.source.sections[index]? = some entry ∧ entry.HoldsTable directory ∧
        job.sectionStart index ≤ position ∧
        position < job.sectionStart index + entry.rawSize.toNat := by
  obtain ⟨directory, present, nonzero, nonempty, index, entry, sourceEntry, spans, le, lt⟩ :=
    exists_of_rewritesPointerAt planned small rewrites
  have positive : 0 < job.source.fileAlignment.toNat := alignment_eq planned ▸ planned.positive
  -- the section that holds the directory is the one that it starts in
  obtain ⟨holder, holderMem, holds⟩ := wellFormed.debug directory present nonzero
  obtain ⟨i, holderEntry⟩ := List.getElem?_of_mem holderMem
  have same : i = index := SectionTable.eq_of_spans wellFormed.apart holderEntry sourceEntry
    (holds.spans positive nonempty) spans
  subst same
  cases holderEntry.symm.trans sourceEntry
  have inRange := (List.getElem?_eq_some_iff.1 sourceEntry).1
  rw [rawPointer_destination_of_source small (Nat.le_of_lt inRange) holds.raw] at le lt
  have starts := holds.starts
  have stops := holds.stops
  exact ⟨directory, present, nonzero, i, entry, sourceEntry, holds, by omega, by omega⟩

/-- Relocating the debug directory changes nothing in front of the sections if it starts in
one with raw data. -/
theorem not_rewritesPointerAt (planned : job.Planned)
    (small : job.sectionStart job.count < 2 ^ 32) (redumpable : job.source.Redumpable)
    (lt : position < job.sectionStart 0) :
    ¬Output.RewritesPointerAt job.source (job.headersAfter job.count).sections position := by
  intro rewrites
  obtain ⟨directory, present, nonzero, nonempty, index, entry, sourceEntry, spans, le, -⟩ :=
    exists_of_rewritesPointerAt planned small rewrites
  have raw := redumpable.anchored directory present nonzero nonempty entry
    (List.mem_of_getElem? sourceEntry) spans
  have inRange := (List.getElem?_eq_some_iff.1 sourceEntry).1
  rw [rawPointer_destination_of_source small (Nat.le_of_lt inRange) raw] at le
  have start : job.sectionStart 0 ≤ job.sectionStart index := sectionStart_le (Nat.zero_le _)
  omega

/-! ## The records of the output -/

/-- The sections of the output are in file order and inside it. -/
theorem Dumps.fileOrder (dumps : job.Dumps options final output)
    (small : output.length < 2 ^ 32) :
    Image.checkFileOrder output.length 0 final.sections = .ok () := by
  have positive := dumps.planned.positive
  have countSmall := dumps.sectionStart_lt small
  rw [Image.checkFileOrder_eq_ok_iff, dumps.sections_final]
  constructor
  · intro header mem raw
    obtain ⟨before, beforeMem, rfl⟩ := List.mem_map.1 mem
    obtain ⟨index, entry, lt, -, rfl⟩ := mem_headersAfter_count beforeMem
    have stop : (job.destination index entry).rawEnd ≤ job.sectionStart (index + 1) :=
      rawEnd_destination_le positive countSmall lt raw
    have later : job.sectionStart (index + 1) ≤ job.copiedSize := sectionStart_le_copiedSize lt
    refine ⟨Nat.zero_le _, ?_⟩
    rw [dumps.length_output]
    exact Nat.le_trans stop later
  · exact List.pairwise_map.2 (inFileOrder_headersAfter positive countSmall)

namespace Dumps

variable (dumps : job.Dumps options final output) (redumpable : job.source.Redumpable)
  (small : output.length < 2 ^ 32)
include dumps redumpable small

/-- In front of the sections, everything but the headers is as in the source. -/
theorem getElem?_output_header (lt : position < job.source.offsets.sectionsEnd)
    (outside : ¬Bytes.Covered final.pieces position) :
    output[position]? = job.source.data[position]? := by
  have headersLe : job.source.offsets.sectionsEnd ≤ job.sectionStart 0 :=
    le_alignUp dumps.planned.positive
  have inside := dumps.runnable.headersInside
  have still := not_rewritesPointerAt dumps.planned (dumps.sectionStart_lt small)
    redumpable (Nat.lt_of_lt_of_le lt headersLe)
  rw [dumps.getElem?_output outside still,
    getElem?_copied_header dumps.runnable (Nat.lt_of_lt_of_le lt headersLe), if_pos lt,
    List.getElem?_eq_getElem (Nat.lt_of_lt_of_le lt inside)]
  rfl

/-- A record in front of the sections that the headers do not cover is read as
in the source. -/
theorem read?_output {α : Type} {codec : Codec α} {offset : Nat} {value : α}
    (read : codec.read? job.source.data offset = some value)
    (inside : offset + codec.size ≤ job.source.offsets.sectionsEnd)
    (outside : ∀ position, offset ≤ position → position < offset + codec.size →
      ¬Bytes.Covered final.pieces position) :
    codec.read? output offset = some value := by
  have headersLe : job.source.offsets.sectionsEnd ≤ job.sectionStart 0 :=
    le_alignUp dumps.planned.positive
  have length : job.sectionStart 0 ≤ output.length :=
    dumps.length_output ▸ sectionStart_le_copiedSize (Nat.zero_le _)
  refine Codec.read?_congr read (by omega) fun position le lt => ?_
  exact dumps.getElem?_output_header redumpable small (by omega) (outside position le lt)

/-- A record in front of the headers is read as in the source. -/
theorem read?_output_front {α : Type} {codec : Codec α} {offset : Nat} {value : α}
    (read : codec.read? job.source.data offset = some value)
    (inside : offset + codec.size ≤ job.source.offsets.coff) :
    codec.read? output offset = some value := by
  have front := dumps.headersInOrder.coff_lt
  have sections := dumps.headersInOrder.sections
  have sectionsEnd := dumps.headersInOrder.sections_le
  refine dumps.read?_output redumpable small read (by omega) fun position le lt => ?_
  refine Headers.not_covered_of_lt dumps.finalInOrder ?_
  rw [dumps.offsets_final]
  omega

/-- The data directories are those of the source. -/
theorem directoriesAt {count : Nat}
    (read : Image.readTable .dataDirectory DataDirectory.codec job.source.data
      job.source.offsets.directories count = .ok job.source.directories) :
    Image.readTable .dataDirectory DataDirectory.codec output job.source.offsets.directories
      count = .ok job.source.directories := by
  obtain ⟨length, records⟩ := Image.readTable_eq_ok_iff.1 read
  have sectionsEnd := dumps.headersInOrder.sections_le
  have inside := redumpable.directories
  refine Image.readTable_eq_ok_iff.2 ⟨length, fun index directory entry => ?_⟩
  have inRange : index < job.source.directories.length := (List.getElem?_eq_some_iff.1 entry).1
  have next : DataDirectory.codec.size * (index + 1) ≤
      DataDirectory.codec.size * job.source.directories.length := Nat.mul_le_mul_left _ inRange
  rw [Nat.mul_add, Nat.mul_one] at next
  refine dumps.read?_output redumpable small (records index directory entry) (by omega) ?_
  intro position le lt
  apply Headers.not_covered_of_between dumps.finalInOrder
  · rw [dumps.offsets_final]
    omega
  · rw [dumps.offsets_final]
    omega

/-- The output is read as the headers that patching returned and the data
directories of the source. -/
theorem parse_output :
    Image.parse output =
      .ok { final with data := output, directories := job.source.directories } := by
  obtain ⟨⟨signatureOffset, format, reads⟩, -⟩ := Image.parse_eq_ok_iff.1 dumps.parsed
  obtain ⟨fixed, checksum, -, finalEq, stored⟩ := dumps.exists_stored
  have offsets := dumps.offsets_final
  have alignment : final.windows.fileAlignment = job.source.windows.fileAlignment := by
    rw [finalEq]
    exact (WindowsHeader.fileAlignment_withChecksum _ _).trans
      (WindowsHeader.fileAlignment_withHeadersSize _ _)
  have directoryCount : final.windows.directoryCount = job.source.windows.directoryCount := by
    rw [finalEq]
    exact (WindowsHeader.directoryCount_withChecksum _ _).trans
      (WindowsHeader.directoryCount_withHeadersSize _ _)
  have sameFormat : final.windows.format = format := by
    rw [finalEq]
    exact ((WindowsHeader.format_withChecksum _ _).trans
      (WindowsHeader.format_withHeadersSize _ _)).trans
      (Image.OptionalFormat.readWindows_eq_ok_iff_slice.1 reads.windowsAt).1
  refine Image.parse_eq_ok_iff.2
    ⟨⟨signatureOffset, format, ?_⟩, dumps.fileOrder small⟩
  constructor
  case data_eq => rfl
  case offsets_eq =>
    change final.offsets = _
    rw [offsets, reads.offsets_eq, finalEq]
    rfl
  case magicAt =>
    exact dumps.read?_output_front redumpable small reads.magicAt
      (Nat.le_trans (by decide) redumpable.signature)
  case pointerAt =>
    exact dumps.read?_output_front redumpable small reads.pointerAt
      (Nat.le_trans (by decide) redumpable.signature)
  case signatureAt =>
    have coff : job.source.offsets.coff = signatureOffset.toNat + Image.signatureSize := by
      rw [reads.offsets_eq]
      rfl
    exact dumps.read?_output_front redumpable small reads.signatureAt (Nat.le_of_eq coff.symm)
  case coffAt => exact stored.coffAt
  case minimum =>
    rw [finalEq]
    exact reads.minimum
  case standardAt => exact stored.standardAt
  case formatAt =>
    rw [finalEq]
    exact reads.formatAt
  case windowsAt => exact sameFormat ▸ stored.windowsAt
  case alignment =>
    rw [alignment]
    exact reads.alignment
  case directoriesAt =>
    have read := dumps.directoriesAt redumpable small reads.directoriesAt
    rw [← dumps.offsets_final] at read
    rw [directoryCount]
    exact read
  case sectionsAt =>
    have read := stored.sectionsAt
    rw [dumps.length_final, reads.length_sections] at read
    rw [finalEq] at read ⊢
    exact read

end Dumps
end CopyJob
end ImageDump
