import ImageDump.Dump
import ImageDump.Proofs.Destination
import ImageDump.Proofs.Patch

/-!
# What a dump writes

A dump that succeeds copied a planned job into an output of zeros, brought the
copy to its final size and patched it. `CopyJob.Dumps` collects these facts. The
bytes of the output are then known position by position: outside the headers and
the rewritten pointers they are those of the copy.
-/

namespace ImageDump

theorem mapError_eq_ok_iff {ε δ α : Type} {f : ε → δ} {step : Except ε α} {result : α} :
    step.mapError f = .ok result ↔ step = .ok result := by
  cases step with
  | error error =>
    change Except.error (f error) = .ok result ↔ Except.error error = .ok result
    exact ⟨nofun, nofun⟩
  | ok value =>
    change Except.ok value = .ok result ↔ Except.ok value = .ok result
    rw [Except.ok.injEq, Except.ok.injEq]

/-- A dump succeeds exactly if each of its parts does. -/
theorem dumpImage_eq_ok_iff {source output : Bytes} {memory : MemoryImage}
    {options : DumpOptions} :
    dumpImage source memory options = .ok output ↔
      ∃ image plan copied headers, Image.parse source = .ok image ∧
        Plan.analyze image memory options = .ok plan ∧
        CopyJob.run { source := image, memory, plan } (Buffer.zeros plan.outputSize) =
          .ok copied ∧
        Output.patch (copied.cursor.output.resize copied.cursor.position) image copied.headers
          options = .ok (headers, output) := by
  simp only [dumpImage, dumpNamed, bind_eq_ok_iff, mapError_eq_ok_iff, writeDump]
  constructor
  · intro ran
    rcases ran with ⟨image, parsed, plan, analyzed, copied, ran, ⟨headers, written⟩, patched, ⟨⟩⟩
    exact ⟨image, plan, copied, headers, parsed, analyzed, ran, patched⟩
  · intro parts
    rcases parts with ⟨image, plan, copied, headers, parsed, analyzed, ran, patched⟩
    exact ⟨image, parsed, plan, analyzed, copied, ran, (headers, output), patched, rfl⟩

/-- The dump of a parsed source is planned, and then written. -/
theorem dumpImage_eq_of_parse {source : Bytes} {memory : MemoryImage} {options : DumpOptions}
    {image : Image} (parsed : Image.parse source = .ok image) :
    dumpImage source memory options =
      Plan.analyze image memory options >>= fun plan =>
        (writeDump image memory plan options).mapError (·.error) := by
  rw [dumpImage, dumpNamed, parsed]
  rfl

theorem dumpImage_eq_of_analyze {source : Bytes} {memory : MemoryImage} {options : DumpOptions}
    {image : Image} {plan : Plan} (parsed : Image.parse source = .ok image)
    (analyzed : Plan.analyze image memory options = .ok plan) :
    dumpImage source memory options =
      (writeDump image memory plan options).mapError (·.error) := by
  rw [dumpImage_eq_of_parse parsed, analyzed]
  rfl

/-- What a dump of a parsed source copied and patched, once its plan is known. -/
theorem exists_run_of_dumpImage {source output : Bytes} {memory : MemoryImage}
    {options : DumpOptions} {image : Image} {plan : Plan}
    (parsed : Image.parse source = .ok image)
    (analyzed : Plan.analyze image memory options = .ok plan)
    (dumped : dumpImage source memory options = .ok output) :
    ∃ copied final,
      CopyJob.run { source := image, memory, plan } (Buffer.zeros plan.outputSize) =
        .ok copied ∧
      Output.patch (copied.cursor.output.resize copied.cursor.position) image copied.headers
        options = .ok (final, output) := by
  obtain ⟨_, _, copied, final, parsed', analyzed', ran, patched⟩ := dumpImage_eq_ok_iff.1 dumped
  cases parsed.symm.trans parsed'
  cases analyzed.symm.trans analyzed'
  exact ⟨copied, final, ran, patched⟩

namespace CopyJob

variable {job : CopyJob} {options : DumpOptions} {final : Headers} {output : Bytes}
  {index position : Nat} {entry : SectionHeader}

/-- Size of the copy. -/
def copiedSize (job : CopyJob) : Nat := job.sectionStart job.count + job.trailerSize

/-- The copy at its final size. -/
def copied (job : CopyJob) : Bytes :=
  (job.finalOutput (Buffer.zeros job.plan.outputSize)).resize job.copiedSize

/-- The job ends with these headers and this output. -/
structure Dumps (job : CopyJob) (options : DumpOptions) (final : Headers) (output : Bytes) :
    Prop where
  planned : job.Planned
  parsed : Image.parse job.source.data = .ok job.source
  runnable : job.Runnable job.plan.outputSize
  patched : Output.patch job.copied job.source (job.headersAfter job.count) options =
    .ok (final, output)

theorem dumps_of_dumpImage {source : Bytes} {memory : MemoryImage} {image : Image} {plan : Plan}
    (exact : memory.Exact) (parsed : Image.parse source = .ok image)
    (analyzed : Plan.analyze image memory options = .ok plan)
    (dumped : dumpImage source memory options = .ok output) :
    ∃ final, Dumps { source := image, memory, plan } options final output := by
  obtain ⟨copied, final, ran, patched⟩ := exists_run_of_dumpImage parsed analyzed dumped
  have planned := planned_of_analyze exact parsed analyzed
  obtain ⟨runnable, rfl⟩ := (run_eq_ok_iff planned).1 ran
  have data := Image.data_of_parse parsed
  exact ⟨final, { planned, parsed := data ▸ parsed, runnable, patched }⟩

/-! ## The copy byte by byte -/

theorem sectionStart_le_copiedSize (le : index ≤ job.count) :
    job.sectionStart index ≤ job.copiedSize :=
  Nat.le_trans (sectionStart_le le) (Nat.le_add_right _ _)

theorem getElem?_copied (lt : position < job.copiedSize) :
    job.copied[position]? = some (if position < job.plan.outputSize then
      (job.finalOutput (Buffer.zeros job.plan.outputSize)).byte position else 0) := by
  have size : (job.finalOutput (Buffer.zeros job.plan.outputSize)).size = job.plan.outputSize :=
    size_outputAfter job.count
  rw [copied, Buffer.getElem?_resize _ lt, size]

theorem getElem?_copied_header (runnable : job.Runnable job.plan.outputSize)
    (lt : position < job.sectionStart 0) :
    job.copied[position]? = some (if position < job.source.offsets.sectionsEnd then
      job.source.data[position]?.getD 0 else 0) := by
  have inCopy : job.sectionStart 0 ≤ job.copiedSize :=
    sectionStart_le_copiedSize (Nat.zero_le job.count)
  have headersFit := runnable.headersFit
  rw [getElem?_copied (by omega), byte_finalOutput_header runnable lt]
  by_cases written : position < job.plan.outputSize
  · rw [if_pos written]
  · rw [if_neg written, if_neg (by omega)]

/-- A section of the copy, from its start to the start of the next section. -/
theorem getElem?_copied_section (planned : job.Planned)
    (runnable : job.Runnable job.plan.outputSize) (small : job.sectionStart job.count < 2 ^ 32)
    (sourceEntry : job.source.sections[index]? = some entry)
    (lt : position < alignUp (job.storedSize index) job.alignment) :
    job.copied[job.sectionStart index + position]? =
      some (job.sectionByte index entry 0 position) := by
  have inRange : index < job.count := (List.getElem?_eq_some_iff.1 sourceEntry).1
  have next : job.sectionStart index + alignUp (job.storedSize index) job.alignment ≤
      job.copiedSize := sectionStart_le_copiedSize (Nat.succ_le_of_lt inRange)
  have copyable := runnable.sections index entry sourceEntry
  have rawFits := copyable.fits
  have clean : job.sectionByte index entry
        ((job.outputAfter (Buffer.zeros job.plan.outputSize) index).byte
          (job.sectionStart index + position)) position =
      job.sectionByte index entry 0 position := by
    cases grows : job.plan.grows index with
    | false => exact sectionByte_of_still planned sourceEntry grows _ lt
    | true =>
      have fits : ∀ earlier < index, job.Fits earlier := fun earlier before =>
        fits_of_grows planned small grows (Nat.lt_trans before inRange) (Nat.ne_of_lt before)
      rw [byte_outputAfter_of_ge planned runnable fits (Nat.le_add_right _ _), Buffer.byte_zeros]
  rw [getElem?_copied (by omega), byte_finalOutput_section runnable sourceEntry lt, clean]
  by_cases written : job.sectionStart index + position < job.plan.outputSize
  · rw [if_pos written]
  · -- nothing of the section was written there
    have noLive : job.plan.liveByte? job.memory index position = none := by
      refine Plan.liveByte?_eq_none planned.exact fun placement mem => ?_
      have stopFits := (copyable.regions placement mem).2
      omega
    have zero : job.sectionByte index entry 0 position = 0 := by
      rw [sectionByte, noLive, Option.getD_none, if_neg (by omega)]
      split <;> rfl
    rw [if_neg written, zero]

theorem getElem?_copied_trailer (runnable : job.Runnable job.plan.outputSize)
    (lt : position < job.trailerSize) :
    job.copied[job.sectionStart job.count + position]? =
      job.source.data[trailerOffset job.source job.alignment + position]? := by
  have fits := runnable.trailerFits (by omega)
  have inCopy : job.sectionStart job.count + position < job.copiedSize :=
    Nat.add_lt_add_left lt _
  have inSource : trailerOffset job.source job.alignment + position < job.source.data.length := by
    unfold trailerSize at lt
    omega
  rw [getElem?_copied inCopy, if_pos (by omega), byte_finalOutput_trailer lt,
    List.getElem?_eq_getElem inSource]
  rfl

/-! ## The output byte by byte -/

theorem samePlaces_headersAfter :
    job.source.toHeaders.SamePlaces (job.headersAfter job.count) where
  offsets := rfl
  format := job.source.windows.format_withHeadersSize _
  count := List.length_mapIdx

theorem headersInOrder_headersAfter (ordered : Image.HeadersInOrder job.source.toHeaders) :
    Image.HeadersInOrder (job.headersAfter job.count) :=
  samePlaces_headersAfter.headersInOrder ordered

namespace Dumps

variable (dumps : job.Dumps options final output)
include dumps

theorem headersInOrder : Image.HeadersInOrder job.source.toHeaders :=
  Image.headersInOrder_of_parse dumps.parsed

theorem exists_stored : ∃ fixed checksum,
    Output.relocateDebugDirectory job.source (job.headersAfter job.count).sections job.copied =
      .ok fixed ∧
    final = Output.finalHeaders job.source.sections (job.headersAfter job.count) checksum ∧
    final.Stored fixed output :=
  Output.patch_eq_ok (headersInOrder_headersAfter dumps.headersInOrder) dumps.patched

theorem length_output : output.length = job.copiedSize := by
  obtain ⟨fixed, checksum, debug, -, stored⟩ := dumps.exists_stored
  have length := (Output.relocateDebugDirectory_frame debug).1
  rw [stored.length, length, copied, Buffer.length_resize]

theorem sectionStart_lt (small : output.length < 2 ^ 32) :
    job.sectionStart job.count < 2 ^ 32 := by
  rw [dumps.length_output] at small
  exact Nat.lt_of_le_of_lt (Nat.le_add_right _ _) small

theorem finalInOrder : Image.HeadersInOrder final := by
  obtain ⟨fixed, checksum, -, rfl, -⟩ := dumps.exists_stored
  exact Output.headersInOrder_finalHeaders checksum
    (headersInOrder_headersAfter dumps.headersInOrder)

theorem offsets_final : final.offsets = job.source.offsets := by
  obtain ⟨fixed, checksum, -, rfl, -⟩ := dumps.exists_stored
  rfl

theorem sections_final : final.sections = (job.headersAfter job.count).sections.map
    (Output.patchedSection job.source.sections (job.headersAfter job.count).sections) := by
  obtain ⟨fixed, checksum, -, rfl, -⟩ := dumps.exists_stored
  exact Output.sections_finalHeaders _ _ checksum

/-- A section header of the output. -/
theorem getElem?_final (index : Nat) :
    final.sections[index]? = (job.source.sections[index]?.map (job.destination index)).map
      (Output.patchedSection job.source.sections (job.headersAfter job.count).sections) := by
  rw [dumps.sections_final, List.getElem?_map, getElem?_headersAfter_count]

theorem length_final : final.sections.length = job.source.sections.length := by
  rw [dumps.sections_final, List.length_map]
  exact List.length_mapIdx

/-- Patching changes the headers and the pointers of the debug directory only. -/
theorem getElem?_output (outside : ¬Bytes.Covered final.pieces position)
    (still : ¬Output.RewritesPointerAt job.source (job.headersAfter job.count).sections position) :
    output[position]? = job.copied[position]? := by
  obtain ⟨fixed, checksum, debug, -, stored⟩ := dumps.exists_stored
  exact (stored.frame position outside).trans
    ((Output.relocateDebugDirectory_frame debug).2 position still)

/-- The headers end before the first section starts. -/
theorem not_covered_of_le (le : job.sectionStart 0 ≤ position) :
    ¬Bytes.Covered final.pieces position := by
  have headersLe : job.source.offsets.sectionsEnd ≤ job.sectionStart 0 :=
    le_alignUp dumps.planned.positive
  refine Headers.not_covered_of_ge dumps.finalInOrder ?_
  rw [dumps.offsets_final]
  exact Nat.le_trans headersLe le

end Dumps
end CopyJob
end ImageDump
