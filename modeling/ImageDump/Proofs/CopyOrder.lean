import ImageDump.Proofs.CopyFrame
import ImageDump.Proofs.Relocation

/-!
# The order of the copied sections

Whatever the memory image answers, a copy that succeeds puts the sections one behind the
other. Each section is copied from a start on, and when it is done the cursor stands behind
its raw data, where the next section starts (`SectionHeader.CopiedBetween`). The starts
ascend from the end of the headers to the start of the trailer (`CopyJob.copiedAt_of_run`).
As long as they fit into a header field, the raw data of the copy is therefore in file
order, behind the headers and in front of the trailer (`CopyJob.rawData_apart_of_run`).
-/

namespace ImageDump

/-- A section was copied between two places. Its header names the first of them, unless the
section has no raw data, and the second is behind its raw data. -/
structure SectionHeader.CopiedBetween (entry header : SectionHeader) (start stop : Nat) :
    Prop where
  pointer : header.rawPointer = UInt32.ofNat start ∨
    entry.hasRawData = false ∧ header.hasRawData = false
  fits : start + header.rawSize.toNat ≤ stop

/-- The first `count` sections were copied one behind the other, each from its start to the
start of the next, and the others are those of the source. -/
structure SectionTable.CopiedAt (source destination : SectionTable) (starts : Nat → Nat)
    (count : Nat) : Prop where
  length : destination.length = source.length
  copied : ∀ (index : Nat) (entry header : SectionHeader), index < count →
    source[index]? = some entry → destination[index]? = some header →
    entry.CopiedBetween header (starts index) (starts (index + 1))
  rest : ∀ index, count ≤ index → destination[index]? = source[index]?

/-! ## The sections of a run -/

namespace CopyJob

variable {job : CopyJob} {state next : CopyState} {index start count : Nat}
  {entry header : SectionHeader}

/-- A region leaves the cursor behind the raw data of the section. -/
theorem copiedBetween_of_storeRegion {placement : Placement}
    (stateEntry : state.headers.sections[index]? = some header)
    (copied : entry.CopiedBetween header start state.cursor.position)
    (ran : job.storeRegion index start state placement = .ok next) :
    ∃ after, next.headers = state.headers.modifySection index (fun _ => after) ∧
      entry.CopiedBetween after start next.cursor.position := by
  have rawSize : (state.headers.sections[index]?.map (·.rawSize.toNat)).getD 0 =
      header.rawSize.toNat := by
    rw [stateEntry]
    rfl
  simp only [storeRegion, rawSize, bind_eq_ok_iff] at ran
  obtain ⟨stored, -, rest⟩ := ran
  split at rest
  · obtain ⟨aligned, -, ⟨⟩⟩ := bind_eq_ok_iff.1 rest
    refine ⟨_, Headers.modifySection_congr stateEntry rfl, .inl ?_, ?_⟩
    · rw [SectionHeader.markDumped_eq]
    · -- the size may be cut off in its field, which only makes it smaller
      have cut := Nat.mod_le (max aligned.position (start + header.rawSize.toNat) - start) (2 ^ 32)
      have le := Nat.le_max_right aligned.position (start + header.rawSize.toNat)
      rw [SectionHeader.markDumped_eq]
      simp only [UInt32.toNat_ofNat', Cursor.position_seek]
      omega
  · cases rest
    have same : state.headers = state.headers.modifySection index (fun _ => header) :=
      Headers.modifySection_id.symm.trans (Headers.modifySection_congr stateEntry rfl)
    exact ⟨header, same, copied.pointer, Nat.le_refl _⟩

/-- A section is copied between the places where the cursor stands before and after. -/
theorem copiedBetween_of_copySection (sourceEntry : job.source.sections[index]? = some entry)
    (stateEntry : state.headers.sections[index]? = some entry)
    (ran : job.copySection index state = .ok next) :
    ∃ after, next.headers = state.headers.modifySection index (fun _ => after) ∧
      entry.CopiedBetween after state.cursor.position next.cursor.position := by
  simp only [copySection, sourceEntry, bind_eq_ok_iff, Cursor.copySource_eq_ok_iff,
    Cursor.alignZeroed_eq_ok_iff, Cursor.align_eq_ok_iff] at ran
  obtain ⟨_, ⟨-, -, rfl⟩, _, ⟨positive, rfl⟩, stored, regions, _, ⟨-, rfl⟩, ⟨⟩⟩ := ran
  -- every region keeps the section copied between its start and the cursor
  have storedCopied := foldlM_invariant
    (P := fun after : CopyState => ∃ header,
      after.headers = state.headers.modifySection index (fun _ => header) ∧
        entry.CopiedBetween header state.cursor.position after.cursor.position)
    ?step regions ?moved
  case step =>
    intro before placement after copied ran
    rcases copied with ⟨header, headers, copied⟩
    have beforeEntry : before.headers.sections[index]? = some header := by
      rw [headers, Headers.getElem?_modifySection stateEntry]
    obtain ⟨last, lastHeaders, lastCopied⟩ :=
      copiedBetween_of_storeRegion beforeEntry copied ran
    refine ⟨last, ?_, lastCopied⟩
    rw [lastHeaders, headers, Headers.modifySection_modifySection]
    rfl
  case moved =>
    refine ⟨_, Headers.modifySection_congr stateEntry rfl, ?_, ?_⟩
    · cases raw : entry.hasRawData with
      | true => exact .inl rfl
      | false => exact .inr ⟨rfl, raw⟩
    · have aligned : state.cursor.position + entry.rawSize.toNat ≤
          alignUp (state.cursor.position + entry.rawSize.toNat) job.alignment :=
        le_alignUp positive
      split <;> exact aligned
  obtain ⟨header, headers, copied⟩ := storedCopied
  have aligned : stored.cursor.position ≤ alignUp stored.cursor.position job.alignment :=
    le_alignUp positive
  exact ⟨header, headers, copied.pointer, Nat.le_trans copied.fits aligned⟩

/-- The first `count` sections of a run. -/
theorem copiedAt_of_foldlM (untouched : state.headers.sections = job.source.sections)
    (le : count ≤ job.count)
    (ran : ((List.range count).map Stage.sectionAt).foldlM job.perform state = .ok next) :
    ∃ starts : Nat → Nat, starts 0 = state.cursor.position ∧
      starts count = next.cursor.position ∧
      SectionTable.CopiedAt job.source.sections next.headers.sections starts count := by
  induction count generalizing next with
  | zero =>
    cases ran
    refine ⟨fun _ => state.cursor.position, rfl, rfl, ?_, nofun, fun _ _ => ?_⟩
    · rw [untouched]
    · rw [untouched]
  | succ count ih =>
    rw [foldlM_sections_succ, bind_eq_ok_iff] at ran
    obtain ⟨before, sections, last⟩ := ran
    obtain ⟨starts, first, position, copiedAt⟩ := ih (Nat.le_of_succ_le le) sections
    obtain ⟨entry, sourceEntry⟩ : ∃ entry, job.source.sections[count]? = some entry :=
      ⟨_, List.getElem?_eq_getElem le⟩
    have beforeEntry := (copiedAt.rest count (Nat.le_refl count)).trans sourceEntry
    obtain ⟨header, headers, copied⟩ := copiedBetween_of_copySection sourceEntry beforeEntry last
    have others (index : Nat) (ne : index ≠ count) :
        next.headers.sections[index]? = before.headers.sections[index]? := by
      rw [headers, Headers.getElem?_modifySection_ne ne]
    -- the starts so far, and the end of the new section behind them
    refine ⟨fun index => if index ≤ count then starts index else next.cursor.position,
      first, if_neg (Nat.not_succ_le_self count), ?_, ?_, ?_⟩
    · rw [headers, Headers.modifySection, List.length_modify, copiedAt.length]
    · intro index entry' header' lt sourceAt headerAt
      rcases Nat.lt_succ_iff_lt_or_eq.1 lt with earlier | rfl
      · rw [others index (Nat.ne_of_lt earlier)] at headerAt
        simp only [if_pos (Nat.le_of_lt earlier), if_pos (Nat.succ_le_of_lt earlier)]
        exact copiedAt.copied index entry' header' earlier sourceAt headerAt
      · rw [headers, Headers.getElem?_modifySection beforeEntry] at headerAt
        cases sourceEntry.symm.trans sourceAt
        cases headerAt
        simp only [if_pos (Nat.le_refl _), if_neg (Nat.not_succ_le_self _), position]
        exact copied
    · intro index after
      rw [others index (Nat.ne_of_gt after), copiedAt.rest index (Nat.le_of_succ_le after)]

/-- A copy that succeeds goes through the sections from the aligned end of the headers on, and
puts the trailer behind them. -/
theorem exists_sections_of_run {output : Buffer} (ran : job.run output = .ok next) :
    0 < job.alignment ∧ ∃ first before : CopyState,
      first.headers.sections = job.source.sections ∧
      first.cursor.position = alignUp job.source.offsets.sectionsEnd job.alignment ∧
      ((List.range job.count).map Stage.sectionAt).foldlM job.perform first = .ok before ∧
      next.headers = before.headers ∧
      next.cursor.position = before.cursor.position + job.trailerSize := by
  rw [run_eq_bind, bind_eq_ok_iff] at ran
  obtain ⟨before, ran, trailer⟩ := ran
  rw [beforeTrailer, List.foldlM_cons, bind_eq_ok_iff] at ran
  obtain ⟨first, headers, sections⟩ := ran
  simp only [perform, copyHeaders, bind_eq_ok_iff, Cursor.copySource_eq_ok_iff,
    Cursor.alignZeroed_eq_ok_iff] at headers
  obtain ⟨_, ⟨-, -, rfl⟩, _, ⟨positive, rfl⟩, ⟨⟩⟩ := headers
  obtain ⟨-, rfl⟩ := copyTrailer_eq_ok_iff.1 trailer
  refine ⟨positive, _, before, rfl, ?_, sections, rfl, rfl⟩
  exact congrArg (alignUp · job.alignment) (Nat.zero_add _)

/-- A copy that succeeds puts the sections one behind the other, from the aligned end of the
headers on, and the trailer behind them. -/
theorem copiedAt_of_run {output : Buffer} (ran : job.run output = .ok next) :
    0 < job.alignment ∧ ∃ starts : Nat → Nat,
      starts 0 = alignUp job.source.offsets.sectionsEnd job.alignment ∧
      next.cursor.position = starts job.count + job.trailerSize ∧
      SectionTable.CopiedAt job.source.sections next.headers.sections starts job.count := by
  obtain ⟨positive, first, before, untouched, position, sections, headers, last⟩ :=
    exists_sections_of_run ran
  obtain ⟨starts, start, stop, copiedAt⟩ :=
    copiedAt_of_foldlM untouched (Nat.le_refl _) sections
  refine ⟨positive, starts, start.trans position, ?_, headers ▸ copiedAt⟩
  rw [last, stop]

end CopyJob

/-! ## Sections that fit into their fields -/

namespace SectionTable.CopiedAt

variable {source destination : SectionTable} {starts : Nat → Nat} {index : Nat}
  {entry header : SectionHeader}
  (copiedAt : CopiedAt source destination starts source.length)
include copiedAt

theorem starts_le {first last : Nat} (le : first ≤ last) (inRange : last ≤ source.length) :
    starts first ≤ starts last := by
  induction le with
  | refl => exact Nat.le_refl _
  | @step last _ ih =>
    have sourceAt := List.getElem?_eq_getElem inRange
    have headerAt := List.getElem?_eq_getElem (copiedAt.length.symm ▸ inRange)
    have fits := (copiedAt.copied last _ _ inRange sourceAt headerAt).fits
    exact Nat.le_trans (ih (Nat.le_of_succ_le inRange)) (Nat.le_trans (Nat.le_add_right _ _) fits)

/-- The entry that a section of the copy comes from. -/
theorem exists_entry (headerAt : destination[index]? = some header) :
    ∃ entry, index < source.length ∧ source[index]? = some entry ∧
      entry.CopiedBetween header (starts index) (starts (index + 1)) := by
  have inRange : index < source.length := by
    rw [← copiedAt.length]
    exact (List.getElem?_eq_some_iff.1 headerAt).1
  have sourceAt := List.getElem?_eq_getElem inRange
  exact ⟨_, inRange, sourceAt, copiedAt.copied index _ header inRange sourceAt headerAt⟩

variable (small : starts source.length < 2 ^ 32)
include small

/-- Raw data starts where its section does. -/
theorem toNat_rawPointer (headerAt : destination[index]? = some header)
    (raw : header.hasRawData = true) : header.rawPointer.toNat = starts index := by
  obtain ⟨entry, inRange, -, copied⟩ := copiedAt.exists_entry headerAt
  have startSmall : starts index < 2 ^ 32 :=
    Nat.lt_of_le_of_lt (copiedAt.starts_le (Nat.le_of_lt inRange) (Nat.le_refl _)) small
  rcases copied.pointer with pointer | ⟨-, noData⟩
  · rw [pointer, UInt32.toNat_ofNat', Nat.mod_eq_of_lt startSmall]
  · rw [raw] at noData
    cases noData

/-- Raw data ends where the next section starts, or before. -/
theorem rawEnd_le (headerAt : destination[index]? = some header)
    (raw : header.hasRawData = true) : header.rawEnd ≤ starts (index + 1) := by
  obtain ⟨entry, -, -, copied⟩ := copiedAt.exists_entry headerAt
  rw [SectionHeader.rawEnd, copiedAt.toNat_rawPointer small headerAt raw]
  exact copied.fits

/-- Raw data of the source is raw data of the copy. -/
theorem hasRawData (positive : 0 < starts 0) (sourceAt : source[index]? = some entry)
    (headerAt : destination[index]? = some header) (raw : entry.hasRawData = true) :
    header.hasRawData = true := by
  have inRange : index < source.length := (List.getElem?_eq_some_iff.1 sourceAt).1
  have startPositive : starts 0 ≤ starts index :=
    copiedAt.starts_le (Nat.zero_le _) (Nat.le_of_lt inRange)
  have startSmall : starts index < 2 ^ 32 :=
    Nat.lt_of_le_of_lt (copiedAt.starts_le (Nat.le_of_lt inRange) (Nat.le_refl _)) small
  rcases (copiedAt.copied index _ _ inRange sourceAt headerAt).pointer with pointer | ⟨noData, -⟩
  · rw [SectionHeader.hasRawData_eq_true_iff, pointer, UInt32.toNat_ofNat',
      Nat.mod_eq_of_lt startSmall]
    omega
  · rw [raw] at noData
    cases noData

/-- The raw data of the copy is in file order. -/
theorem inFileOrder : destination.Pairwise Image.InFileOrder := by
  rw [List.pairwise_iff_getElem]
  intro i j inRangeI inRangeJ lt firstRaw secondRaw
  have firstAt := List.getElem?_eq_getElem inRangeI
  have secondAt := List.getElem?_eq_getElem inRangeJ
  have inRange : j < source.length := copiedAt.length ▸ inRangeJ
  calc destination[i].rawEnd
      ≤ starts (i + 1) := copiedAt.rawEnd_le small firstAt firstRaw
    _ ≤ starts j := copiedAt.starts_le lt (Nat.le_of_lt inRange)
    _ = destination[j].rawPointer.toNat :=
      (copiedAt.toNat_rawPointer small secondAt secondRaw).symm

/-- Raw data of the copy lies between the headers and the trailer. -/
theorem le_of_holdsOffset {position : Nat} (mem : header ∈ destination)
    (holds : header.HoldsOffset position) :
    starts 0 ≤ position ∧ position < starts source.length := by
  obtain ⟨index, headerAt⟩ := List.getElem?_of_mem mem
  obtain ⟨raw, le, lt⟩ := holds
  have inRange : index < source.length := by
    rw [← copiedAt.length]
    exact (List.getElem?_eq_some_iff.1 headerAt).1
  have start := copiedAt.toNat_rawPointer small headerAt raw
  have stop := copiedAt.rawEnd_le small headerAt raw
  have first := copiedAt.starts_le (Nat.zero_le index) (Nat.le_of_lt inRange)
  have last : starts (index + 1) ≤ starts source.length :=
    copiedAt.starts_le inRange (Nat.le_refl _)
  omega

end SectionTable.CopiedAt

/-! ## The raw data of a copy -/

namespace CopyJob

variable {job : CopyJob} {output : Buffer} {copied : CopyState} {index : Nat}
  {entry header : SectionHeader}
  (ran : job.run output = .ok copied) (small : copied.cursor.position < 2 ^ 32)
include ran small

/-- A section with raw data in the source has raw data in the copy, and it ends there. -/
theorem exists_rawData_of_run (ordered : Image.HeadersInOrder job.source.toHeaders)
    (sourceEntry : job.source.sections[index]? = some entry) (raw : entry.hasRawData = true) :
    ∃ header, copied.headers.sections[index]? = some header ∧ header.hasRawData = true ∧
      header.rawEnd ≤ copied.cursor.position := by
  obtain ⟨positive, starts, first, stop, copiedAt⟩ := copiedAt_of_run ran
  have startsSmall : starts job.source.sections.length < 2 ^ 32 :=
    Nat.lt_of_le_of_lt (stop ▸ Nat.le_add_right _ _) small
  have startsPositive : 0 < starts 0 := by
    rw [first]
    exact Nat.lt_of_lt_of_le ordered.sectionsEnd_pos (le_alignUp positive)
  obtain ⟨header, copiedEntry⟩ := SectionTable.exists_counterpart copiedAt.length sourceEntry
  have copiedRaw := copiedAt.hasRawData startsSmall startsPositive sourceEntry copiedEntry raw
  have inRange : index < job.source.sections.length := (List.getElem?_eq_some_iff.1 sourceEntry).1
  refine ⟨header, copiedEntry, copiedRaw, ?_⟩
  calc header.rawEnd
      ≤ starts (index + 1) := copiedAt.rawEnd_le startsSmall copiedEntry copiedRaw
    _ ≤ starts job.source.sections.length := copiedAt.starts_le inRange (Nat.le_refl _)
    _ ≤ copied.cursor.position := stop ▸ Nat.le_add_right _ _

/-- Raw data of the copy is behind the headers, in front of the trailer and in one section
only. -/
theorem rawData_apart_of_run {position : Nat}
    (copiedEntry : copied.headers.sections[index]? = some header)
    (holds : header.HoldsOffset position) :
    alignUp job.source.offsets.sectionsEnd job.alignment ≤ position ∧
      position + job.trailerSize < copied.cursor.position ∧
      ∀ other otherHeader, copied.headers.sections[other]? = some otherHeader →
        otherHeader.HoldsOffset position → other = index := by
  obtain ⟨-, starts, first, stop, copiedAt⟩ := copiedAt_of_run ran
  have startsSmall : starts job.source.sections.length < 2 ^ 32 :=
    Nat.lt_of_le_of_lt (stop ▸ Nat.le_add_right _ _) small
  obtain ⟨front, back⟩ :=
    copiedAt.le_of_holdsOffset startsSmall (List.mem_of_getElem? copiedEntry) holds
  rw [first] at front
  refine ⟨front, ?_, fun other otherHeader otherAt otherHolds => ?_⟩
  · rw [stop]
    exact Nat.add_lt_add_right back _
  · exact SectionTable.eq_of_holdsOffset (copiedAt.inFileOrder startsSmall) otherAt copiedEntry
      otherHolds holds

end CopyJob
end ImageDump
