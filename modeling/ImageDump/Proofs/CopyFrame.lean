import ImageDump.Proofs.CopySection
import ImageDump.Proofs.Patch

/-!
# What every copy keeps

Whatever the memory image answers, a copy that succeeds leaves two things alone. The
bytes in front of the end of the section table are those of the source, since every
stage after the first writes behind them. And the headers change in the fields that
place the raw data only: the size of the headers, and of each section the place, size
and characteristics (`Headers.unplaced`). Both are invariants of the stages
(`CopyState.Keeps`), and `CopyJob.keeps_of_run` carries them through a run.
-/

namespace ImageDump

theorem foldlM_invariant {ε α β : Type} {f : β → α → Except ε β} {P : β → Prop} {xs : List α}
    {first last : β}
    (step : ∀ before x after, P before → f before x = .ok after → P after)
    (ran : xs.foldlM f first = .ok last) (holds : P first) : P last := by
  induction xs generalizing first with
  | nil =>
    cases ran
    exact holds
  | cons x xs ih =>
    rw [List.foldlM_cons, bind_eq_ok_iff] at ran
    obtain ⟨next, stepped, rest⟩ := ran
    exact ih rest (step first x next holds stepped)

/-! ## The front of the output -/

/-- The cursor stands behind the first `floor` bytes of its output, which are those of
`front`. -/
structure Cursor.Keeps (floor : Nat) (front : Buffer) (cursor : Cursor) : Prop where
  le : floor ≤ cursor.position
  size : cursor.output.size = front.size
  byte : ∀ position < floor, cursor.output.byte position = front.byte position

namespace Cursor.Keeps

variable {floor : Nat} {front : Buffer} {cursor next : Cursor} {alignment : Nat}

theorem seek (keeps : cursor.Keeps floor front) {position : Nat} (le : floor ≤ position) :
    (cursor.seek position).Keeps floor front :=
  { keeps with le }

theorem put (keeps : cursor.Keeps floor front) {bytes : Bytes}
    (ran : cursor.put bytes = .ok next) : next.Keeps floor front := by
  obtain ⟨-, rfl⟩ := put_eq_ok_iff.1 ran
  refine ⟨Nat.le_trans keeps.le (Nat.le_add_right _ _), keeps.size, fun position lt => ?_⟩
  have le := keeps.le
  rw [Buffer.byte_write, if_neg (by omega), keeps.byte position lt]

theorem copySource (keeps : cursor.Keeps floor front) {source : Bytes} {offset size : Nat}
    (ran : cursor.copySource source offset size = .ok next) : next.Keeps floor front := by
  unfold Cursor.copySource at ran
  split at ran
  · exact keeps.put ran
  · cases ran

theorem copyMemory (keeps : cursor.Keeps floor front) {memory : MemoryImage} {region : Region}
    (ran : cursor.copyMemory memory region = .ok next) : next.Keeps floor front := by
  obtain ⟨bytes, -, stored⟩ := copyMemory_eq_ok_iff.1 ran
  exact keeps.put stored

theorem align (keeps : cursor.Keeps floor front) (ran : cursor.align alignment = .ok next) :
    next.Keeps floor front := by
  obtain ⟨positive, rfl⟩ := align_eq_ok_iff.1 ran
  exact keeps.seek (Nat.le_trans keeps.le (le_alignUp positive))

theorem alignZeroed (keeps : cursor.Keeps floor front)
    (ran : cursor.alignZeroed alignment = .ok next) : next.Keeps floor front := by
  obtain ⟨positive, rfl⟩ := alignZeroed_eq_ok_iff.1 ran
  refine ⟨Nat.le_trans keeps.le (le_alignUp positive), keeps.size, fun position lt => ?_⟩
  have le := keeps.le
  rw [Buffer.byte_clear, if_neg (by omega), keeps.byte position lt]

end Cursor.Keeps

/-! ## The headers -/

/-- The header without the fields that place the raw data. -/
def SectionHeader.unplaced (header : SectionHeader) : SectionHeader :=
  { header with rawSize := 0, rawPointer := 0, characteristics := 0 }

namespace Headers

variable {headers first second : Headers}

/-- The headers without the fields that place the raw data. -/
def unplaced (headers : Headers) : Headers :=
  { headers with
    windows := headers.windows.withHeadersSize 0
    sections := headers.sections.map SectionHeader.unplaced }

/-- Changing only the place of a section leaves everything else. -/
theorem unplaced_modifySection {index : Nat} {change : SectionHeader → SectionHeader}
    (places : ∀ header, (change header).unplaced = header.unplaced) :
    (headers.modifySection index change).unplaced = headers.unplaced := by
  have sections : (headers.sections.modify index change).map SectionHeader.unplaced =
      headers.sections.map SectionHeader.unplaced := by
    apply List.ext_getElem?
    intro i
    rw [List.getElem?_map, List.getElem?_map, List.getElem?_modify]
    cases headers.sections[i]? with
    | none => rfl
    | some header =>
      by_cases same : index = i
      · simp [same, places]
      · simp [same]
  exact congrArg (fun sections => { headers.unplaced with sections }) sections

theorem unplaced_withHeadersSize (size : UInt32) :
    { headers with windows := headers.windows.withHeadersSize size }.unplaced =
      headers.unplaced := by
  have windows : (headers.windows.withHeadersSize size).withHeadersSize 0 =
      headers.windows.withHeadersSize 0 := by
    cases headers.windows <;> rfl
  exact congrArg (fun windows => { headers.unplaced with windows }) windows

variable (same : first.unplaced = second.unplaced)
include same

theorem coff_of_unplaced : first.coff = second.coff :=
  (Headers.mk.inj same).1

theorem offsets_of_unplaced : first.offsets = second.offsets :=
  (Headers.mk.inj same).2.2.2.2

/-- The fields of the loader agree up to the size of the headers. -/
theorem windows_of_unplaced :
    first.windows.withHeadersSize 0 = second.windows.withHeadersSize 0 :=
  congrArg Headers.windows same

/-- The section headers agree up to where the raw data is. -/
theorem sections_of_unplaced :
    first.sections.map SectionHeader.unplaced = second.sections.map SectionHeader.unplaced :=
  congrArg Headers.sections same

theorem getElem?_sections_of_unplaced {index : Nat} {header entry : SectionHeader}
    (firstEntry : first.sections[index]? = some header)
    (secondEntry : second.sections[index]? = some entry) : header.unplaced = entry.unplaced := by
  have entries := congrArg (·[index]?) (sections_of_unplaced same)
  rw [List.getElem?_map, List.getElem?_map, firstEntry, secondEntry] at entries
  exact Option.some.inj entries

theorem length_sections_of_unplaced : first.sections.length = second.sections.length := by
  have lengths := congrArg List.length (sections_of_unplaced same)
  rwa [List.length_map, List.length_map] at lengths

theorem samePlaces_of_unplaced : second.SamePlaces first where
  offsets := offsets_of_unplaced same
  format := by
    have format := congrArg WindowsHeader.format (windows_of_unplaced same)
    rwa [WindowsHeader.format_withHeadersSize, WindowsHeader.format_withHeadersSize] at format
  count := length_sections_of_unplaced same

theorem fileAlignment_of_unplaced : first.fileAlignment = second.fileAlignment := by
  have alignment := congrArg WindowsHeader.fileAlignment (windows_of_unplaced same)
  rwa [WindowsHeader.fileAlignment_withHeadersSize,
    WindowsHeader.fileAlignment_withHeadersSize] at alignment

theorem headersInOrder_of_unplaced (ordered : Image.HeadersInOrder second) :
    Image.HeadersInOrder first :=
  (samePlaces_of_unplaced same).headersInOrder ordered

end Headers

/-! ## The stages -/

/-- The copy has kept the front of the output and the headers up to where the raw data
is. -/
structure CopyState.Keeps (floor : Nat) (front : Buffer) (headers : Headers) (state : CopyState) :
    Prop where
  cursor : state.cursor.Keeps floor front
  headers : state.headers.unplaced = headers.unplaced

namespace CopyJob

variable {job : CopyJob} {floor : Nat} {front : Buffer} {headers : Headers}
  {state next : CopyState}

theorem keeps_of_copyHeaders (keeps : state.Keeps floor front headers)
    (ran : job.copyHeaders state = .ok next) : next.Keeps floor front headers := by
  simp only [copyHeaders, bind_eq_ok_iff] at ran
  obtain ⟨copied, sourceCopied, aligned, padded, ⟨⟩⟩ := ran
  exact {
    cursor := (keeps.cursor.copySource sourceCopied).alignZeroed padded
    headers := (Headers.unplaced_withHeadersSize _).trans keeps.headers }

theorem keeps_of_storeRegion {index start : Nat} {placement : Placement} (le : floor ≤ start)
    (keeps : state.Keeps floor front headers)
    (ran : job.storeRegion index start state placement = .ok next) :
    next.Keeps floor front headers := by
  simp only [storeRegion, bind_eq_ok_iff] at ran
  obtain ⟨stored, live, rest⟩ := ran
  have storedKeeps : stored.Keeps floor front :=
    (keeps.cursor.seek (Nat.le_trans le (Nat.le_add_right _ _))).copyMemory live
  split at rest
  · obtain ⟨aligned, ran, ⟨⟩⟩ := bind_eq_ok_iff.1 rest
    have alignedKeeps := storedKeeps.align ran
    refine ⟨storedKeeps.seek (Nat.le_trans alignedKeeps.le (Nat.le_max_left _ _)), ?_⟩
    refine (Headers.unplaced_modifySection fun header => ?_).trans keeps.headers
    rw [SectionHeader.markDumped_eq]
    rfl
  · cases rest
    exact ⟨storedKeeps.seek (Nat.le_trans le (Nat.le_add_right _ _)), keeps.headers⟩

theorem keeps_of_copySection {index : Nat} (keeps : state.Keeps floor front headers)
    (ran : job.copySection index state = .ok next) : next.Keeps floor front headers := by
  unfold copySection at ran
  split at ran
  · simp only [bind_eq_ok_iff] at ran
    obtain ⟨copied, sourceCopied, padded, zeroed, stored, regions, aligned, last, ⟨⟩⟩ := ran
    have moved : CopyState.Keeps floor front headers {
        headers := state.headers.modifySection index fun header =>
          if header.hasRawData then
            { header with rawPointer := UInt32.ofNat state.cursor.position } else header
        cursor := padded } := by
      refine ⟨(keeps.cursor.copySource sourceCopied).alignZeroed zeroed, ?_⟩
      refine (Headers.unplaced_modifySection fun header => ?_).trans keeps.headers
      split <;> rfl
    have storedKeeps : stored.Keeps floor front headers :=
      foldlM_invariant (fun _ _ _ before ran => keeps_of_storeRegion keeps.cursor.le before ran)
        regions moved
    exact { storedKeeps with cursor := storedKeeps.cursor.align last }
  · cases ran
    exact keeps

theorem keeps_of_copyTrailer (keeps : state.Keeps floor front headers)
    (ran : job.copyTrailer state = .ok next) : next.Keeps floor front headers := by
  simp only [copyTrailer] at ran
  split at ran
  · cases ran
    exact keeps
  · obtain ⟨copied, sourceCopied, ⟨⟩⟩ := bind_eq_ok_iff.1 ran
    exact { keeps with cursor := keeps.cursor.copySource sourceCopied }

/-- No stage writes in front of where it starts, or changes more of the headers than where
the raw data is. -/
theorem keeps_of_perform {stage : Stage} (keeps : state.Keeps floor front headers)
    (ran : job.perform state stage = .ok next) : next.Keeps floor front headers := by
  cases stage with
  | headers => exact keeps_of_copyHeaders keeps ran
  | sectionAt index => exact keeps_of_copySection keeps ran
  | trailer => exact keeps_of_copyTrailer keeps ran
  | done =>
    cases ran
    exact keeps

/-! ## The run -/

/-- The output once the headers of the source are copied. -/
def copiedFront (job : CopyJob) (output : Buffer) : Buffer :=
  output.write 0 (job.source.data.slice 0 job.source.offsets.sectionsEnd)

/-- The first stage puts the headers of the source in front. -/
theorem keeps_of_copyHeaders_initial {output : Buffer}
    (ran : job.copyHeaders (job.initial output) = .ok next) :
    job.source.offsets.sectionsEnd ≤ job.source.data.length ∧
      job.source.offsets.sectionsEnd ≤ output.size ∧
      next.Keeps job.source.offsets.sectionsEnd (job.copiedFront output)
        job.source.toHeaders := by
  simp only [copyHeaders, bind_eq_ok_iff, Cursor.copySource_eq_ok_iff] at ran
  obtain ⟨copied, ⟨inside, fits, rfl⟩, aligned, padded, ⟨⟩⟩ := ran
  rw [Nat.zero_add] at inside
  have position : (job.initial output).cursor.position + job.source.offsets.sectionsEnd =
      job.source.offsets.sectionsEnd := Nat.zero_add _
  refine ⟨inside, position ▸ fits, ?_, Headers.unplaced_withHeadersSize _⟩
  exact Cursor.Keeps.alignZeroed ⟨Nat.le_of_eq position.symm, rfl, fun _ _ => rfl⟩ padded

/-- A copy that succeeds has the headers of the source in front, and headers that differ
from those of the source in where the raw data is only. -/
theorem keeps_of_run {output : Buffer} (ran : job.run output = .ok next) :
    job.source.offsets.sectionsEnd ≤ job.source.data.length ∧
      job.source.offsets.sectionsEnd ≤ output.size ∧
      next.Keeps job.source.offsets.sectionsEnd (job.copiedFront output)
        job.source.toHeaders := by
  rw [run, Stage.all, List.cons_append, List.foldlM_cons, bind_eq_ok_iff] at ran
  obtain ⟨first, headersCopied, rest⟩ := ran
  obtain ⟨inside, fits, keeps⟩ := keeps_of_copyHeaders_initial headersCopied
  exact ⟨inside, fits, foldlM_invariant (fun _ _ _ => keeps_of_perform) rest keeps⟩

/-- A dump is as long as its copy. -/
theorem length_of_patch_run {output : Buffer} {options : DumpOptions} {final : Headers}
    {result : Bytes} (ordered : Image.HeadersInOrder job.source.toHeaders)
    (ran : job.run output = .ok next)
    (patched : Output.patch (next.cursor.output.resize next.cursor.position) job.source
      next.headers options = .ok (final, result)) : result.length = next.cursor.position := by
  obtain ⟨-, -, keeps⟩ := keeps_of_run ran
  have copiedOrdered := Headers.headersInOrder_of_unplaced keeps.headers ordered
  rw [Output.length_of_patch copiedOrdered patched, Buffer.length_resize]

end CopyJob
end ImageDump
