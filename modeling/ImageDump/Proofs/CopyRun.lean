import ImageDump.Proofs.CopySection
import ImageDump.Proofs.Reading

/-!
# Copying a whole image

A copy is a fold over its stages, and each stage has one possible outcome. The
state before the trailer is therefore known after any number of sections
(`CopyJob.stateAfter`): the headers of the sections that were copied are final,
the others are those of the source, and the cursor stands at the start of the
next section. `CopyJob.run_eq_ok_iff` says when a copy succeeds and with which
state, whatever the output held before.

Read byte by byte, the output holds the headers of the source, then each section
between its start and the start of the next. What the output held before shows
only where a section grows. The sections in front of it left nothing there if
they stayed inside their own part of the output, which they do as long as the
aligned ends of their regions fit into the size field of a header.
-/

namespace ImageDump

theorem Buffer.write_nil (buffer : Buffer) (offset : Nat) : buffer.write offset [] = buffer := by
  have same : (buffer.write offset []).byte = buffer.byte := by
    funext position
    rw [byte_write, if_neg]
    rw [List.length_nil]
    omega
  exact congrArg (Buffer.mk buffer.size) same

namespace CopyJob

variable {job : CopyJob} {output : Buffer} {state next : CopyState}

/-- A job that was planned for its source, with a memory image that keeps its
contract. -/
structure Planned (job : CopyJob) : Prop where
  exact : job.memory.Exact
  positive : 0 < job.alignment
  sound : job.plan.Sound job.source job.memory.imageBase

/-- A plan made for a parsed image makes a planned job. -/
theorem planned_of_analyze {data : Bytes} {image : Image} {memory : MemoryImage}
    {options : DumpOptions} {plan : Plan} (exact : memory.Exact)
    (parsed : Image.parse data = .ok image)
    (analyzed : Plan.analyze image memory options = .ok plan) :
    Planned { source := image, memory, plan } := by
  have positive := Image.fileAlignment_pos_of_parse parsed
  have sound := Plan.sound_of_analyze positive analyzed
  refine ⟨exact, ?_, sound⟩
  rw [alignment, sound.fileAlignment]
  exact positive

theorem alignment_eq (planned : job.Planned) :
    job.alignment = job.source.fileAlignment.toNat := by
  rw [alignment, planned.sound.fileAlignment]

/-! ## The headers -/

/-- The destination headers once `count` sections are copied. -/
def headersAfter (job : CopyJob) (count : Nat) : Headers :=
  { job.source.toHeaders with
    windows := job.source.windows.withHeadersSize (UInt32.ofNat (job.sectionStart 0))
    sections := job.source.sections.mapIdx fun index entry =>
      if index < count then job.destination index entry else entry }

/-- The output once the headers are copied. -/
def headerOutput (job : CopyJob) (output : Buffer) : Buffer :=
  let stop := job.source.offsets.sectionsEnd
  (output.write 0 (job.source.data.slice 0 stop)).clear stop (job.sectionStart 0)

/-- The output once the headers and `count` sections are copied. -/
def outputAfter (job : CopyJob) (output : Buffer) : Nat → Buffer
  | 0 => job.headerOutput output
  | index + 1 =>
    match job.source.sections[index]? with
    | none => job.outputAfter output index
    | some entry =>
      job.sectionOutput index (job.sectionStart index) entry (job.outputAfter output index)

/-- The state of a copy once `count` sections are copied. -/
def stateAfter (job : CopyJob) (output : Buffer) (count : Nat) : CopyState :=
  { headers := job.headersAfter count
    cursor := {
      output := job.outputAfter output count
      position := job.sectionStart count } }

theorem getElem?_headersAfter (index count : Nat) :
    (job.headersAfter count).sections[index]? =
      job.source.sections[index]?.map fun entry =>
        if index < count then job.destination index entry else entry := by
  simp only [headersAfter, List.getElem?_mapIdx]

theorem headersAfter_zero :
    (job.headersAfter 0).sections = job.source.sections := by
  apply List.ext_getElem?
  intro index
  rw [getElem?_headersAfter]
  simp

theorem copyHeaders_eq_ok_iff (positive : 0 < job.alignment) :
    job.copyHeaders (job.initial output) = .ok next ↔
      job.source.offsets.sectionsEnd ≤ job.source.data.length ∧
        job.source.offsets.sectionsEnd ≤ output.size ∧ next = job.stateAfter output 0 := by
  have headers : job.headersAfter 0 =
      { job.source.toHeaders with
        windows := job.source.windows.withHeadersSize (UInt32.ofNat (job.sectionStart 0)) } := by
    have sections : (job.headersAfter 0).sections = job.source.sections := headersAfter_zero
    simp only [headersAfter] at sections ⊢
    rw [sections]
  have slice : (0 : Nat) + job.source.offsets.sectionsEnd = job.source.offsets.sectionsEnd :=
    Nat.zero_add _
  simp only [copyHeaders, bind_eq_ok_iff, Cursor.copySource_eq_ok_iff,
    Cursor.alignZeroed_eq_ok_iff, stateAfter, headers, initial, Cursor.start, slice]
  constructor
  · intro ran
    rcases ran with ⟨_, ⟨inside, fits, rfl⟩, _, ⟨-, rfl⟩, ⟨⟩⟩
    exact ⟨inside, fits, rfl⟩
  · intro holds
    rcases holds with ⟨inside, fits, rfl⟩
    exact ⟨_, ⟨inside, fits, rfl⟩, _, ⟨positive, rfl⟩, rfl⟩

/-! ## The sections -/

@[simp] theorem size_outputAfter (count : Nat) :
    (job.outputAfter output count).size = output.size := by
  induction count with
  | zero => rfl
  | succ index ih =>
    unfold outputAfter
    split
    · exact ih
    · rw [size_sectionOutput, ih]

theorem outputAfter_succ {index : Nat} {entry : SectionHeader}
    (sourceEntry : job.source.sections[index]? = some entry) :
    job.outputAfter output (index + 1) =
      job.sectionOutput index (job.sectionStart index) entry
        (job.outputAfter output index) := by
  rw [outputAfter, sourceEntry]

/-- Copying a section finishes its header and leaves all others. -/
theorem headersAfter_succ {index : Nat} {entry : SectionHeader}
    (sourceEntry : job.source.sections[index]? = some entry) :
    (job.headersAfter index).modifySection index (fun _ => job.destination index entry) =
      job.headersAfter (index + 1) := by
  have sections : (job.headersAfter index).sections.modify index
      (fun _ => job.destination index entry) = (job.headersAfter (index + 1)).sections := by
    apply List.ext_getElem?
    intro i
    rw [List.getElem?_modify, getElem?_headersAfter, getElem?_headersAfter]
    by_cases same : index = i
    · subst same
      simp [sourceEntry]
    · have sameBound : (i < index + 1) = (i < index) := propext (by omega)
      simp [same, sameBound]
  exact congrArg (fun sections => { job.headersAfter index with sections }) sections

/-- The copy of a section is the next step of `stateAfter`. -/
theorem copySection_stateAfter_eq_ok_iff (planned : job.Planned) {index : Nat}
    {entry : SectionHeader} (sourceEntry : job.source.sections[index]? = some entry) :
    job.copySection index (job.stateAfter output index) = .ok next ↔
      job.Copyable index (job.sectionStart index) output.size entry ∧
        next = job.stateAfter output (index + 1) := by
  have stateEntry : (job.stateAfter output index).headers.sections[index]? = some entry := by
    change (job.headersAfter index).sections[index]? = some entry
    rw [getElem?_headersAfter, sourceEntry, Option.map_some, if_neg (Nat.lt_irrefl index)]
  rw [copySection_eq_ok_iff planned.exact planned.positive sourceEntry stateEntry rfl]
  simp only [stateAfter, size_outputAfter, headersAfter_succ sourceEntry,
    outputAfter_succ sourceEntry]

/-- One section more is copied after the others. -/
theorem foldlM_sections_succ (count : Nat) :
    ((List.range (count + 1)).map Stage.sectionAt).foldlM job.perform state =
      ((List.range count).map Stage.sectionAt).foldlM job.perform state >>=
        job.copySection count := by
  have single : ([count].map Stage.sectionAt).foldlM job.perform = job.copySection count := by
    funext state
    rw [List.map_singleton, List.foldlM_cons]
    exact bind_pure _
  rw [List.range_succ, List.map_append, List.foldlM_append, single]

/-- The first `count` sections are copied if each of them can be. -/
theorem foldlM_sections_eq_ok_iff (planned : job.Planned) {count : Nat}
    (le : count ≤ job.source.sections.length) :
    ((List.range count).map Stage.sectionAt).foldlM job.perform (job.stateAfter output 0) =
        .ok next ↔
      (∀ index entry, index < count → job.source.sections[index]? = some entry →
        job.Copyable index (job.sectionStart index) output.size entry) ∧
        next = job.stateAfter output count := by
  induction count generalizing next with
  | zero =>
    constructor
    · intro unequal
      cases unequal
      exact ⟨nofun, rfl⟩
    · intro holds
      rcases holds with ⟨-, rfl⟩
      rfl
  | succ count ih =>
    obtain ⟨entry, sourceEntry⟩ : ∃ entry, job.source.sections[count]? = some entry :=
      ⟨_, List.getElem?_eq_getElem le⟩
    have step (next : CopyState) :
        job.copySection count (job.stateAfter output count) = .ok next ↔
          job.Copyable count (job.sectionStart count) output.size entry ∧
            next = job.stateAfter output (count + 1) :=
      copySection_stateAfter_eq_ok_iff planned sourceEntry
    rw [foldlM_sections_succ, bind_eq_ok_iff]
    constructor
    · intro ran
      rcases ran with ⟨_, before, last⟩
      obtain ⟨copyable, rfl⟩ := (ih (Nat.le_of_succ_le le)).1 before
      obtain ⟨lastCopyable, rfl⟩ := (step _).1 last
      refine ⟨fun index other lt otherEntry => ?_, rfl⟩
      rcases Nat.lt_succ_iff_lt_or_eq.1 lt with earlier | rfl
      · exact copyable index other earlier otherEntry
      · rw [sourceEntry] at otherEntry
        exact Option.some.inj otherEntry ▸ lastCopyable
    · intro holds
      rcases holds with ⟨copyable, rfl⟩
      refine ⟨_, (ih (Nat.le_of_succ_le le)).2
        ⟨fun index other lt => copyable index other (Nat.lt_succ_of_lt lt), rfl⟩, ?_⟩
      exact (step _).2 ⟨copyable count entry (Nat.lt_succ_self count) sourceEntry, rfl⟩

/-! ## The trailer -/

/-- How many bytes of the source follow its sections. -/
def trailerSize (job : CopyJob) : Nat :=
  job.source.data.length - trailerOffset job.source job.alignment

theorem copyTrailer_eq_ok_iff :
    job.copyTrailer state = .ok next ↔
      (0 < job.trailerSize → state.cursor.position + job.trailerSize ≤ state.cursor.output.size) ∧
        next = { state with
          cursor := {
            output := state.cursor.output.write state.cursor.position
              (job.source.data.slice (trailerOffset job.source job.alignment) job.trailerSize)
            position := state.cursor.position + job.trailerSize } } := by
  have size : job.source.data.length - trailerOffset job.source job.alignment =
      job.trailerSize := rfl
  simp only [copyTrailer, size]
  by_cases empty : job.trailerSize = 0
  · have nothing : job.source.data.slice (trailerOffset job.source job.alignment)
        job.trailerSize = [] := by
      rw [empty]
      exact List.take_zero
    rw [nothing, Buffer.write_nil, if_pos empty, empty]
    constructor
    · intro unequal
      cases unequal
      exact ⟨nofun, rfl⟩
    · intro holds
      rcases holds with ⟨-, rfl⟩
      rfl
  · have inside : trailerOffset job.source job.alignment + job.trailerSize ≤
        job.source.data.length := by omega
    rw [if_neg empty]
    simp only [bind_eq_ok_iff, Cursor.copySource_eq_ok_iff]
    constructor
    · intro ran
      rcases ran with ⟨_, ⟨-, fits, rfl⟩, ⟨⟩⟩
      exact ⟨fun _ => fits, rfl⟩
    · intro holds
      rcases holds with ⟨fits, rfl⟩
      exact ⟨_, ⟨inside, fits (Nat.pos_of_ne_zero empty), rfl⟩, rfl⟩

/-! ## The run -/

/-- The number of sections. -/
def count (job : CopyJob) : Nat := job.source.sections.length

/-- Copy everything but the trailer. -/
def beforeTrailer (job : CopyJob) (output : Buffer) : Except Interrupted CopyState :=
  (Stage.headers :: (List.range job.count).map Stage.sectionAt).foldlM job.perform
    (job.initial output)

theorem run_eq_bind : job.run output = job.beforeTrailer output >>= job.copyTrailer := by
  have single : [Stage.trailer].foldlM job.perform = job.copyTrailer := by
    funext state
    rw [List.foldlM_cons]
    exact bind_pure _
  rw [run, Stage.all, List.foldlM_append, single]
  rfl

theorem beforeTrailer_eq_ok_iff (planned : job.Planned) :
    job.beforeTrailer output = .ok next ↔
      (job.source.offsets.sectionsEnd ≤ job.source.data.length ∧
        job.source.offsets.sectionsEnd ≤ output.size ∧
        ∀ index entry, job.source.sections[index]? = some entry →
          job.Copyable index (job.sectionStart index) output.size entry) ∧
        next = job.stateAfter output job.count := by
  rw [beforeTrailer, List.foldlM_cons, bind_eq_ok_iff]
  constructor
  · intro ran
    rcases ran with ⟨_, headers, sections⟩
    obtain ⟨inside, fits, rfl⟩ := (copyHeaders_eq_ok_iff planned.positive).1 headers
    obtain ⟨copyable, rfl⟩ := (foldlM_sections_eq_ok_iff planned (Nat.le_refl _)).1 sections
    refine ⟨⟨inside, fits, fun index entry sourceEntry => ?_⟩, rfl⟩
    exact copyable index entry (List.getElem?_eq_some_iff.1 sourceEntry).1 sourceEntry
  · intro holds
    rcases holds with ⟨⟨inside, fits, copyable⟩, rfl⟩
    refine ⟨_, (copyHeaders_eq_ok_iff planned.positive).2 ⟨inside, fits, rfl⟩, ?_⟩
    exact (foldlM_sections_eq_ok_iff planned (Nat.le_refl _)).2
      ⟨fun index entry _ => copyable index entry, rfl⟩

/-- All that a copy into an output of this size needs. -/
structure Runnable (job : CopyJob) (size : Nat) : Prop where
  headersInside : job.source.offsets.sectionsEnd ≤ job.source.data.length
  headersFit : job.source.offsets.sectionsEnd ≤ size
  sections : ∀ index entry, job.source.sections[index]? = some entry →
    job.Copyable index (job.sectionStart index) size entry
  trailerFits : 0 < job.trailerSize → job.sectionStart job.count + job.trailerSize ≤ size

/-- The output once everything is copied. -/
def finalOutput (job : CopyJob) (output : Buffer) : Buffer :=
  (job.outputAfter output job.count).write (job.sectionStart job.count)
    (job.source.data.slice (trailerOffset job.source job.alignment) job.trailerSize)

/-- The state once everything is copied. -/
def finalState (job : CopyJob) (output : Buffer) : CopyState :=
  { headers := job.headersAfter job.count
    cursor := {
      output := job.finalOutput output
      position := job.sectionStart job.count + job.trailerSize } }

/-- A copy succeeds exactly if all its parts fit, and its outcome follows from the
source, the plan and the memory image alone. -/
theorem run_eq_ok_iff (planned : job.Planned) :
    job.run output = .ok next ↔ job.Runnable output.size ∧ next = job.finalState output := by
  have size : (job.stateAfter output job.count).cursor.output.size = output.size :=
    size_outputAfter job.count
  rw [run_eq_bind, bind_eq_ok_iff]
  constructor
  · intro ran
    rcases ran with ⟨_, before, trailer⟩
    obtain ⟨⟨inside, fits, sections⟩, rfl⟩ := (beforeTrailer_eq_ok_iff planned).1 before
    obtain ⟨trailerFits, rfl⟩ := copyTrailer_eq_ok_iff.1 trailer
    rw [size] at trailerFits
    exact ⟨⟨inside, fits, sections, trailerFits⟩, rfl⟩
  · intro holds
    rcases holds with ⟨runnable, rfl⟩
    refine ⟨_, (beforeTrailer_eq_ok_iff planned).2
      ⟨⟨runnable.headersInside, runnable.headersFit, runnable.sections⟩, rfl⟩,
      copyTrailer_eq_ok_iff.2 ⟨?_, rfl⟩⟩
    rw [size]
    exact runnable.trailerFits

/-! ## Sections stay in their part of the output -/

/-- The aligned ends of the regions of a section fit into the size field of its
header. -/
def Fits (job : CopyJob) (index : Nat) : Prop :=
  alignUp (job.plan.reach index) job.alignment < 2 ^ 32

variable {index position : Nat} {entry : SectionHeader}

theorem fits_of_still (still : job.plan.grows index = false) : job.Fits index := by
  rw [Fits, Plan.reach_eq_zero still, alignUp_zero]
  decide

theorem storedSize_eq (positive : 0 < job.alignment)
    (sourceEntry : job.source.sections[index]? = some entry) (fits : job.Fits index) :
    job.storedSize index =
      max entry.rawSize.toNat (alignUp (job.plan.reach index) job.alignment) := by
  have raw : job.rawSize index = entry.rawSize.toNat := by
    rw [rawSize, sourceEntry]
    rfl
  rw [storedSize, raw]
  exact Plan.storedSize_eq positive entry.rawSize.toNat_lt fits

/-- No region ends behind `2 ^ 32`, counted from the start of its section. -/
theorem stop_le_two_pow (planned : job.Planned) {placement : Placement}
    (mem : placement ∈ job.plan.placements) : placement.stop ≤ 2 ^ 32 := by
  obtain ⟨header, within⟩ := planned.sound.within_of_mem mem
  have stop := within.stop_le
  have virtualSize := header.virtualSize.toNat_lt
  have rawSize := header.rawSize.toNat_lt
  rw [SectionHeader.extent] at stop
  omega

/-- A region of a section ends inside its raw data or makes it grow. -/
theorem stop_le_max (planned : job.Planned)
    (sourceEntry : job.source.sections[index]? = some entry)
    {placement : Placement} (mem : placement ∈ job.plan.placementsIn index) :
    placement.stop ≤ max entry.rawSize.toNat (job.plan.reach index) := by
  by_cases growing : placement.isGrowing = true
  · exact Nat.le_trans (Plan.stop_le_reach mem growing) (Nat.le_max_right _ _)
  · have kind : placement.kind = .data := by
      rw [Placement.isGrowing_eq_true_iff] at growing
      exact Decidable.not_not.1 growing
    have within := planned.sound.within_of_mem_placementsIn sourceEntry mem
    exact Nat.le_trans (within.stop_le_rawSize kind) (Nat.le_max_left _ _)

/-- Every region of a section ends inside the raw data of its copy. -/
theorem stop_le_storedSize (planned : job.Planned)
    (sourceEntry : job.source.sections[index]? = some entry) (fits : job.Fits index)
    {placement : Placement} (mem : placement ∈ job.plan.placementsIn index) :
    placement.stop ≤ job.storedSize index := by
  have stop := stop_le_max planned sourceEntry mem
  have aligned : job.plan.reach index ≤ alignUp (job.plan.reach index) job.alignment :=
    le_alignUp planned.positive
  rw [storedSize_eq planned.positive sourceEntry fits]
  omega

/-- What a section is copied to ends where the next section starts. -/
theorem sectionByte_of_ge (planned : job.Planned)
    (sourceEntry : job.source.sections[index]? = some entry) (fits : job.Fits index)
    {old : UInt8} (le : alignUp (job.storedSize index) job.alignment ≤ position) :
    job.sectionByte index entry old position = old := by
  have positive := planned.positive
  have stored := storedSize_eq positive sourceEntry fits
  have rawLe : alignUp entry.rawSize.toNat job.alignment ≤
      alignUp (job.storedSize index) job.alignment :=
    alignUp_mono positive (by omega)
  have rawAligned : entry.rawSize.toNat ≤ alignUp entry.rawSize.toNat job.alignment :=
    le_alignUp positive
  have storedAligned : job.storedSize index ≤ alignUp (job.storedSize index) job.alignment :=
    le_alignUp positive
  have noLive : job.plan.liveByte? job.memory index position = none := by
    refine Plan.liveByte?_eq_none planned.exact fun placement mem => ?_
    have stop := stop_le_storedSize planned sourceEntry fits mem
    omega
  rw [sectionByte, noLive, Option.getD_none, if_neg (by omega), if_neg (by omega)]

/-- A section that does not grow is copied over whatever the output held. -/
theorem sectionByte_of_still (planned : job.Planned)
    (sourceEntry : job.source.sections[index]? = some entry)
    (still : job.plan.grows index = false) (old : UInt8)
    (lt : position < alignUp (job.storedSize index) job.alignment) :
    job.sectionByte index entry old position = job.sectionByte index entry 0 position := by
  have stored := storedSize_eq planned.positive sourceEntry (fits_of_still still)
  rw [Plan.reach_eq_zero still, alignUp_zero, Nat.max_zero] at stored
  rw [stored] at lt
  rw [sectionByte, sectionByte, if_pos lt, if_pos lt]

/-! ## The output byte by byte -/

theorem byte_headerOutput (inside : job.source.offsets.sectionsEnd ≤ job.source.data.length) :
    (job.headerOutput output).byte position =
      if position < job.source.offsets.sectionsEnd then job.source.data[position]?.getD 0
      else if position < job.sectionStart 0 then 0
      else output.byte position := by
  have length : (job.source.data.slice 0 job.source.offsets.sectionsEnd).length =
      job.source.offsets.sectionsEnd :=
    Bytes.length_slice_of_le (by omega)
  unfold headerOutput
  rw [Buffer.byte_clear, Buffer.byte_write, length]
  by_cases header : position < job.source.offsets.sectionsEnd
  · rw [if_neg (by omega), if_pos (by omega), if_pos header, Nat.sub_zero,
      Bytes.getElem?_slice header, Nat.zero_add]
  · rw [if_neg header]
    by_cases padding : position < job.sectionStart 0
    · rw [if_pos (by omega), if_pos padding]
    · rw [if_neg (by omega), if_neg (by omega), if_neg padding]

/-- Copying a section changes nothing in front of its start. -/
theorem byte_outputAfter_of_lt {count : Nat} (le : index ≤ count)
    (lt : position < job.sectionStart index) :
    (job.outputAfter output count).byte position =
      (job.outputAfter output index).byte position := by
  induction le with
  | refl => rfl
  | step le ih =>
    rename_i last
    have before : position < job.sectionStart last := by
      have start : job.sectionStart index ≤ job.sectionStart last := sectionStart_le le
      omega
    rw [← ih, outputAfter]
    split
    · rfl
    · rw [byte_sectionOutput_of_lt before]

/-- Copying the first sections changes nothing behind their ends. -/
theorem byte_outputAfter_of_ge (planned : job.Planned) {size : Nat} (runnable : job.Runnable size)
    {count : Nat} (fits : ∀ index < count, job.Fits index)
    (le : job.sectionStart count ≤ position) :
    (job.outputAfter output count).byte position = output.byte position := by
  induction count with
  | zero =>
    have headersLe : job.source.offsets.sectionsEnd ≤ job.sectionStart 0 :=
      le_alignUp planned.positive
    rw [outputAfter, byte_headerOutput runnable.headersInside, if_neg (by omega),
      if_neg (by omega)]
  | succ last ih =>
    have startLe : job.sectionStart last + alignUp (job.storedSize last) job.alignment ≤ position :=
      le
    have before := ih (fun index lt => fits index (Nat.lt_succ_of_lt lt)) (by omega)
    cases sourceEntry : job.source.sections[last]? with
    | none =>
      rw [outputAfter, sourceEntry]
      exact before
    | some entry =>
      have inside := (runnable.sections last entry sourceEntry).inside
      rw [outputAfter_succ sourceEntry, byte_sectionOutput inside (by omega), before]
      exact sectionByte_of_ge planned sourceEntry (fits last (Nat.lt_succ_self last)) (by omega)

/-- The headers of the output are those of the source, followed by zeros. -/
theorem byte_finalOutput_header {size : Nat} (runnable : job.Runnable size)
    (lt : position < job.sectionStart 0) :
    (job.finalOutput output).byte position =
      if position < job.source.offsets.sectionsEnd then job.source.data[position]?.getD 0
      else 0 := by
  have start : job.sectionStart 0 ≤ job.sectionStart job.count := sectionStart_le (Nat.zero_le _)
  rw [finalOutput, Buffer.byte_write, if_neg (by omega),
    byte_outputAfter_of_lt (Nat.zero_le _) lt, outputAfter,
    byte_headerOutput runnable.headersInside, if_pos lt]

/-- Every section of the output holds what the copy of that section put there. -/
theorem byte_finalOutput_section {size : Nat} (runnable : job.Runnable size)
    (sourceEntry : job.source.sections[index]? = some entry)
    (lt : position < alignUp (job.storedSize index) job.alignment) :
    (job.finalOutput output).byte (job.sectionStart index + position) =
      job.sectionByte index entry
        ((job.outputAfter output index).byte (job.sectionStart index + position)) position := by
  have inRange : index < job.count := (List.getElem?_eq_some_iff.1 sourceEntry).1
  have next : job.sectionStart (index + 1) =
      job.sectionStart index + alignUp (job.storedSize index) job.alignment := rfl
  have later : job.sectionStart (index + 1) ≤ job.sectionStart job.count :=
    sectionStart_le inRange
  have inside := (runnable.sections index entry sourceEntry).inside
  rw [finalOutput, Buffer.byte_write, if_neg (by omega),
    byte_outputAfter_of_lt (Nat.succ_le_of_lt inRange) (by rw [next]; omega),
    outputAfter_succ sourceEntry, byte_sectionOutput inside (Nat.le_add_right _ _),
    Nat.add_sub_cancel_left]

/-- What follows the sections of the source follows those of the output. -/
theorem byte_finalOutput_trailer (lt : position < job.trailerSize) :
    (job.finalOutput output).byte (job.sectionStart job.count + position) =
      job.source.data[trailerOffset job.source job.alignment + position]?.getD 0 := by
  have inside : trailerOffset job.source job.alignment + job.trailerSize ≤
      job.source.data.length := by
    unfold trailerSize at *
    omega
  have length := Bytes.length_slice_of_le inside
  rw [finalOutput, Buffer.byte_write, length, if_pos (by omega), Nat.add_sub_cancel_left,
    Bytes.getElem?_slice lt]

end CopyJob
end ImageDump
