import ImageDump.Dump
import ImageDump.Proofs.Cursor
import ImageDump.Proofs.Placement
import ImageDump.Proofs.Reading

/-!
# What a copy fails with

Each step of a copy has few ways to fail: a write that does not fit into the output, a
range that goes beyond the source, a region without bytes. A series of steps fails with
what one of its steps fails with, so the errors of a whole dump follow from those of its
steps (`FailsOnlyWith.bind`, `FailsOnlyWith.foldlM`). `CopyJob.Cause` lists them for the
copy of a source: besides writes that do not fit, there are regions of the plan without
bytes, and sizes without a place in the file that are larger than the source.
-/

namespace ImageDump

variable {α β : Type}

/-- If the step fails, then with one of these errors. -/
def FailsOnlyWith (allowed : DumpError → Prop) (step : Except Interrupted α) : Prop :=
  ∀ interrupted, step = .error interrupted → allowed interrupted.error

variable {allowed : DumpError → Prop}

theorem failsOnlyWith_ok (value : α) : FailsOnlyWith allowed (.ok value) := nofun

theorem failsOnlyWith_error {interrupted : Interrupted} (cause : allowed interrupted.error) :
    FailsOnlyWith allowed (.error interrupted : Except Interrupted α) := by
  intro _ same
  cases same
  exact cause

namespace FailsOnlyWith

theorem bind {first : Except Interrupted α} {next : α → Except Interrupted β}
    (firstFails : FailsOnlyWith allowed first)
    (nextFails : ∀ value, first = .ok value → FailsOnlyWith allowed (next value)) :
    FailsOnlyWith allowed (first >>= next) := by
  cases first with
  | error interrupted => exact failsOnlyWith_error (firstFails interrupted rfl)
  | ok value => exact nextFails value rfl

theorem foldlM {f : β → α → Except Interrupted β} {xs : List α}
    (step : ∀ state, ∀ x ∈ xs, FailsOnlyWith allowed (f state x)) (first : β) :
    FailsOnlyWith allowed (xs.foldlM f first) := by
  induction xs generalizing first with
  | nil => exact failsOnlyWith_ok first
  | cons x xs ih =>
    rw [List.foldlM_cons]
    exact (step first x List.mem_cons_self).bind fun next _ =>
      ih (fun state y mem => step state y (List.mem_cons_of_mem x mem)) next

end FailsOnlyWith

/-! ## Steps of a cursor -/

namespace Cursor

variable {cursor : Cursor} {source bytes : Bytes} {memory : MemoryImage} {region : Region}
  {offset size alignment : Nat}

theorem failsOnlyWith_align (positive : 0 < alignment) :
    FailsOnlyWith allowed (cursor.align alignment) := by
  rw [align, if_neg (Nat.ne_of_gt positive)]
  exact failsOnlyWith_ok _

theorem failsOnlyWith_alignZeroed (positive : 0 < alignment) :
    FailsOnlyWith allowed (cursor.alignZeroed alignment) :=
  (failsOnlyWith_align positive).bind fun _ _ => failsOnlyWith_ok _

variable (output : ∀ offset size length, allowed (.outputOverflow offset size length))
include output

theorem failsOnlyWith_put : FailsOnlyWith allowed (cursor.put bytes) := by
  simp only [put]
  split
  · exact failsOnlyWith_ok _
  · exact failsOnlyWith_error (output _ _ _)

theorem failsOnlyWith_copySource
    (outside : source.length < offset + size →
      allowed (.sourceOverflow offset size source.length)) :
    FailsOnlyWith allowed (cursor.copySource source offset size) := by
  unfold copySource Bytes.slice?
  by_cases inside : offset + size ≤ source.length
  · rw [if_pos inside]
    exact failsOnlyWith_put output
  · rw [if_neg inside]
    exact failsOnlyWith_error (outside (Nat.lt_of_not_le inside))

theorem failsOnlyWith_copyMemory
    (missing : memory.read region = none → allowed (.memoryUnavailable region)) :
    FailsOnlyWith allowed (cursor.copyMemory memory region) := by
  unfold copyMemory
  cases answer : memory.read region with
  | some bytes => exact failsOnlyWith_put output
  | none => exact failsOnlyWith_error (missing answer)

end Cursor

/-! ## The parts of a copy -/

namespace CopyJob

variable {job : CopyJob} {state : CopyState} {index start : Nat}

/-- The ways in which the copy of a source fails. -/
inductive Cause (job : CopyJob) : DumpError → Prop where
  /-- A write does not fit into the output. -/
  | output (offset size length : Nat) : job.Cause (.outputOverflow offset size length)
  /-- The memory image has no bytes for a region of the plan. -/
  | memory {placement : Placement} (placed : placement ∈ job.plan.placements)
      (missing : job.memory.read placement.region = none) :
      job.Cause (.memoryUnavailable placement.region)
  /-- The section table, which has no sections, goes beyond the source. -/
  | headers (empty : job.source.sections = [])
      (outside : job.source.data.length < job.source.offsets.sectionsEnd) :
      job.Cause (.sourceOverflow 0 job.source.offsets.sectionsEnd job.source.data.length)
  /-- The raw data of a section has a size beyond that of the source, but no place. -/
  | rawData {header : SectionHeader} (mem : header ∈ job.source.sections)
      (noData : header.hasRawData = false)
      (outside : job.source.data.length < header.rawSize.toNat) :
      job.Cause (.sourceOverflow 0 header.rawSize.toNat job.source.data.length)

/-- Storing a region fails if it does not fit into the output, or if its bytes are missing. -/
theorem failsOnlyWith_storeRegion {placement : Placement} (positive : 0 < job.alignment)
    (output : ∀ offset size length, allowed (.outputOverflow offset size length))
    (missing : job.memory.read placement.region = none →
      allowed (.memoryUnavailable placement.region)) :
    FailsOnlyWith allowed (job.storeRegion index start state placement) := by
  refine (Cursor.failsOnlyWith_copyMemory output missing).bind fun cursor _ => ?_
  split
  · exact (Cursor.failsOnlyWith_align positive).bind fun _ _ => failsOnlyWith_ok _
  · exact failsOnlyWith_ok _

/-- The headers are not copied if the section table goes beyond the source. -/
theorem failsOnlyWith_copyHeaders (positive : 0 < job.alignment)
    (output : ∀ offset size length, allowed (.outputOverflow offset size length))
    (outside : job.source.data.length < state.headers.offsets.sectionsEnd →
      allowed (.sourceOverflow 0 state.headers.offsets.sectionsEnd job.source.data.length)) :
    FailsOnlyWith allowed (job.copyHeaders state) := by
  refine (Cursor.failsOnlyWith_copySource output fun beyond => outside ?_).bind fun _ _ =>
    (Cursor.failsOnlyWith_alignZeroed positive).bind fun _ _ => failsOnlyWith_ok _
  exact Nat.lt_of_lt_of_eq beyond (Nat.zero_add _)

/-- The trailer is the rest of the source. -/
theorem failsOnlyWith_copyTrailer
    (output : ∀ offset size length, allowed (.outputOverflow offset size length)) :
    FailsOnlyWith allowed (job.copyTrailer state) := by
  simp only [copyTrailer]
  split
  · exact failsOnlyWith_ok _
  · refine (Cursor.failsOnlyWith_copySource output fun outside => ?_).bind
      fun _ _ => failsOnlyWith_ok _
    omega

variable (positive : 0 < job.alignment)
  (parsed : Image.parse job.source.data = .ok job.source)
include positive parsed

theorem failsOnlyWith_copySection : FailsOnlyWith job.Cause (job.copySection index state) := by
  unfold copySection
  cases entry : job.source.sections[index]? with
  | none => exact failsOnlyWith_ok _
  | some header =>
    have mem := List.mem_of_getElem? entry
    refine (Cursor.failsOnlyWith_copySource Cause.output fun outside => ?_).bind fun _ _ =>
      (Cursor.failsOnlyWith_alignZeroed positive).bind fun _ _ =>
        FailsOnlyWith.bind ?_ fun _ _ =>
          (Cursor.failsOnlyWith_align positive).bind fun _ _ => failsOnlyWith_ok _
    · -- raw data with a place lies in the source
      cases raw : header.hasRawData with
      | true =>
        have inside := Image.rawEnd_le_of_parse parsed mem raw
        rw [SectionHeader.rawEnd] at inside
        omega
      | false =>
        have noPointer : header.rawPointer.toNat = 0 :=
          congrArg UInt32.toNat (SectionHeader.hasRawData_eq_false_iff.1 raw)
        rw [noPointer, Nat.zero_add] at outside
        rw [noPointer]
        exact .rawData mem raw outside
    · refine FailsOnlyWith.foldlM (fun state placement placed => ?_) _
      exact failsOnlyWith_storeRegion positive Cause.output
        (Cause.memory (Plan.mem_placementsIn.1 placed).1)

/-- A copy fails with nothing else. -/
theorem failsOnlyWith_run (output : Buffer) : FailsOnlyWith job.Cause (job.run output) := by
  rw [run, Stage.all, List.cons_append, List.foldlM_cons]
  refine FailsOnlyWith.bind ?_ fun state _ => FailsOnlyWith.foldlM (fun state stage mem => ?_) state
  · refine failsOnlyWith_copyHeaders positive Cause.output fun outside => ?_
    refine .headers (List.eq_nil_of_length_eq_zero (Nat.eq_zero_of_not_pos fun nonempty => ?_))
      outside
    exact Nat.not_lt.2 (Image.sectionsEnd_le_of_parse parsed nonempty) outside
  rcases List.mem_append.1 mem with isSection | isTrailer
  · obtain ⟨index, -, rfl⟩ := List.mem_map.1 isSection
    exact failsOnlyWith_copySection positive parsed
  · cases List.mem_singleton.1 isTrailer
    exact failsOnlyWith_copyTrailer Cause.output

end CopyJob

/-! ## Patching -/

namespace Output

variable {source : Image} {destination : SectionTable} {headers : Headers}
  {options : DumpOptions} {data bytes : Bytes} {offset count : Nat}
  (output : ∀ offset size length, allowed (.outputOverflow offset size length))
include output

theorem failsOnlyWith_store : FailsOnlyWith allowed (store data offset bytes) := by
  unfold store
  split
  · exact failsOnlyWith_ok _
  · exact failsOnlyWith_error (output _ _ _)

theorem failsOnlyWith_storeHeaders : FailsOnlyWith allowed (storeHeaders data headers) :=
  FailsOnlyWith.foldlM (fun _ _ _ => failsOnlyWith_store output) data

theorem failsOnlyWith_relocateDebugEntries {table : SectionTable} :
    FailsOnlyWith allowed (relocateDebugEntries table destination count offset data) := by
  induction count generalizing offset data with
  | zero => exact failsOnlyWith_ok _
  | succ count ih =>
    refine FailsOnlyWith.bind ?_ fun _ _ => ih
    unfold relocateDebugEntry
    split
    · exact failsOnlyWith_error (output _ _ _)
    · exact failsOnlyWith_store output

theorem failsOnlyWith_relocateDebugDirectory :
    FailsOnlyWith allowed (relocateDebugDirectory source destination data) := by
  unfold relocateDebugDirectory
  split
  · exact failsOnlyWith_ok _
  · split
    · exact failsOnlyWith_ok _
    · exact failsOnlyWith_relocateDebugEntries output

/-- Patching fails only if something does not fit into the output. -/
theorem failsOnlyWith_patch : FailsOnlyWith allowed (patch data source headers options) := by
  refine (failsOnlyWith_relocateDebugDirectory output).bind fun _ _ =>
    (failsOnlyWith_storeHeaders output).bind fun _ _ => ?_
  split
  · exact (failsOnlyWith_storeHeaders output).bind fun _ _ => failsOnlyWith_ok _
  · exact failsOnlyWith_ok _

end Output

/-- Writing a planned dump of a parsed source fails as its copy does. -/
theorem failsOnlyWith_writeDump {source : Bytes} {image : Image} {memory : MemoryImage}
    {plan : Plan} {options : DumpOptions} (parsed : Image.parse source = .ok image)
    (analyzed : Plan.analyze image memory options = .ok plan) :
    FailsOnlyWith (CopyJob.Cause { source := image, memory, plan })
      (writeDump image memory plan options) := by
  have data := Image.data_of_parse parsed
  subst data
  have positive := Image.fileAlignment_pos_of_parse parsed
  have alignment : CopyJob.alignment { source := image, memory, plan } =
      image.fileAlignment.toNat :=
    congrArg UInt32.toNat (Plan.sound_of_analyze positive analyzed).fileAlignment
  have copyFails : FailsOnlyWith (CopyJob.Cause { source := image, memory, plan })
      (CopyJob.run { source := image, memory, plan } (Buffer.zeros plan.outputSize)) :=
    CopyJob.failsOnlyWith_run (alignment ▸ positive) parsed _
  exact copyFails.bind fun _ _ =>
    (Output.failsOnlyWith_patch CopyJob.Cause.output).bind fun _ _ => failsOnlyWith_ok _

end ImageDump
