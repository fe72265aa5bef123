import ImageDump.Proofs.Reparse

/-!
# Runs of dumps

A dump can be the source of the next dump. In a run of rounds, each round starts
from the last output, and a round that fails leaves it in place. If the first
source is well-formed, then every output of the run is an image again, has the
headers that patching returned and the shape of the first source, and is
well-formed but for its debug directory (`wellFormed_of_mem_successes`). That lies
in the raw data of a section exactly if it does once the sizes of the round are
stored. So it does after a round from a well-formed source, unless the regions of
its section have an aligned end of `2 ^ 32` (`not_wellFormed_overflowingMemory`).
-/

namespace ImageDump

/-! ## One round -/

/-- The part of a section header that no dump changes. -/
def SectionHeader.shape (header : SectionHeader) : SectionName × UInt32 × UInt32 :=
  (header.name, header.virtualAddress, header.virtualSize)

/-- The parts of an image that no dump changes. -/
structure Image.SameShape (first second : Image) : Prop where
  fileAlignment : second.fileAlignment = first.fileAlignment
  offsets : second.offsets = first.offsets
  directories : second.directories = first.directories
  sections : second.sections.map SectionHeader.shape = first.sections.map SectionHeader.shape

theorem Image.SameShape.refl (image : Image) : image.SameShape image := ⟨rfl, rfl, rfl, rfl⟩

theorem Image.SameShape.trans {first second third : Image} (firstToSecond : first.SameShape second)
    (secondToThird : second.SameShape third) : first.SameShape third where
  fileAlignment := secondToThird.fileAlignment.trans firstToSecond.fileAlignment
  offsets := secondToThird.offsets.trans firstToSecond.offsets
  directories := secondToThird.directories.trans firstToSecond.directories
  sections := secondToThird.sections.trans firstToSecond.sections

namespace Plan

/-- The regions of the section that holds the debug directory have aligned ends
that fit into 32 bits. -/
def KeepsDebug (plan : Plan) (image : Image) : Prop :=
  ∀ directory ∈ image.directory? .debug, directory.virtualAddress ≠ 0 →
    ∀ index header, image.sections[index]? = some header → header.HoldsTable directory →
      alignUp (plan.reach index) plan.fileAlignment.toNat < 2 ^ 32

/-- The table that a directory names lies in the raw data that the section at `index` has
once all its regions are stored. -/
structure StoresTable (plan : Plan) (index : Nat) (header : SectionHeader)
    (directory : DataDirectory) : Prop where
  raw : (header.hasRawData || plan.grows index) = true
  starts : header.virtualAddress.toNat ≤ directory.virtualAddress.toNat
  stops : directory.virtualAddress.toNat + directory.size.toNat ≤ header.virtualAddress.toNat +
    plan.storedSize plan.fileAlignment.toNat index header.rawSize.toNat

/-- The debug directory is absent, or lies in the raw data that a section has once all its
regions are stored. -/
def StoresDebug (plan : Plan) (image : Image) : Prop :=
  ∀ directory ∈ image.directory? .debug, directory.virtualAddress ≠ 0 →
    ∃ index header, image.sections[index]? = some header ∧
      plan.StoresTable index header directory

end Plan

namespace CopyJob

variable {job : CopyJob} {options : DumpOptions} {final : Headers} {output : Bytes}
  {index : Nat} {entry header : SectionHeader}

/-- What the output is read as. -/
def reparsed (job : CopyJob) (final : Headers) (output : Bytes) : Image :=
  { final with data := output, directories := job.source.directories }

namespace Dumps

theorem sameShape (dumps : job.Dumps options final output) :
    job.source.SameShape (job.reparsed final output) where
  fileAlignment := by
    obtain ⟨fixed, checksum, -, rfl, -⟩ := dumps.exists_stored
    exact (WindowsHeader.fileAlignment_withChecksum _ _).trans
      (WindowsHeader.fileAlignment_withHeadersSize _ _)
  offsets := dumps.offsets_final
  directories := rfl
  sections := by
    apply List.ext_getElem?
    intro index
    change (final.sections.map SectionHeader.shape)[index]? = _
    rw [List.getElem?_map, List.getElem?_map, dumps.getElem?_final, Option.map_map,
      Option.map_map]
    congr 1
    funext entry
    change (job.destination index entry).shape = entry.shape
    rw [destination_eq]
    rfl

theorem virtualAddress_final (dumps : job.Dumps options final output)
    (sourceEntry : job.source.sections[index]? = some entry)
    (finalEntry : final.sections[index]? = some header) :
    header.virtualAddress = entry.virtualAddress := by
  have stored := dumps.getElem?_final index
  rw [sourceEntry, finalEntry] at stored
  cases stored
  change (job.destination index entry).virtualAddress = _
  rw [destination_eq]

theorem exists_source (dumps : job.Dumps options final output)
    (finalEntry : final.sections[index]? = some header) :
    ∃ entry, job.source.sections[index]? = some entry := by
  have inRange : index < job.source.sections.length :=
    dumps.length_final ▸ (List.getElem?_eq_some_iff.1 finalEntry).1
  exact ⟨_, List.getElem?_eq_getElem inRange⟩

/-- Sections of the output do not reach beyond the rounded extents that they had. -/
theorem spans_of_spans_final (dumps : job.Dumps options final output)
    (small : output.length < 2 ^ 32) (sourceEntry : job.source.sections[index]? = some entry)
    (finalEntry : final.sections[index]? = some header) {rva : Nat}
    (spans : header.Spans job.source.fileAlignment.toNat rva) :
    entry.Spans job.source.fileAlignment.toNat rva := by
  have address := dumps.virtualAddress_final sourceEntry finalEntry
  have stored := dumps.getElem?_final index
  rw [sourceEntry, finalEntry] at stored
  cases stored
  have le := alignUp_extent_destination_le dumps.planned (dumps.sectionStart_lt small) sourceEntry
  rw [alignment_eq dumps.planned] at le
  exact spans.mono address le

/-- A section of the output holds a table exactly if the sizes that are stored make it. -/
theorem holdsTable_final_iff (dumps : job.Dumps options final output)
    (small : output.length < 2 ^ 32) (sourceEntry : job.source.sections[index]? = some entry)
    (finalEntry : final.sections[index]? = some header) {directory : DataDirectory} :
    header.HoldsTable directory ↔ job.plan.StoresTable index entry directory := by
  obtain ⟨rawSize, hasRawData, -⟩ := dumps.stored_header small sourceEntry finalEntry
  rw [storedSize_of_getElem? sourceEntry] at rawSize
  have address := dumps.virtualAddress_final sourceEntry finalEntry
  constructor
  · intro holds
    constructor
    case raw => exact hasRawData ▸ holds.raw
    case starts => exact address ▸ holds.starts
    case stops => exact Nat.le_trans holds.stops (by rw [address, rawSize]; exact Nat.le_refl _)
  · intro stores
    constructor
    case raw => exact hasRawData.trans stores.raw
    case starts => exact address ▸ stores.starts
    case stops => exact Nat.le_trans stores.stops (by rw [address, rawSize]; exact Nat.le_refl _)

theorem noStraySizes_final (dumps : job.Dumps options final output)
    (strayFree : SectionTable.NoStraySizes job.source.sections)
    (small : output.length < 2 ^ 32) : SectionTable.NoStraySizes final.sections := by
  intro header mem noData
  obtain ⟨index, finalEntry⟩ := List.getElem?_of_mem mem
  obtain ⟨entry, sourceEntry⟩ := dumps.exists_source finalEntry
  obtain ⟨rawSize, hasRawData, -⟩ := dumps.stored_header small sourceEntry finalEntry
  rw [hasRawData] at noData
  rw [storedSize_eq_zero dumps.planned strayFree sourceEntry noData] at rawSize
  exact UInt32.toNat_inj.1 rawSize

/-- What a dump needs of its source is left in the output. -/
theorem redumpable_output (dumps : job.Dumps options final output)
    (redumpable : job.source.Redumpable) (small : output.length < 2 ^ 32) :
    (job.reparsed final output).Redumpable where
  signature := dumps.offsets_final ▸ redumpable.signature
  directories := dumps.offsets_final ▸ redumpable.directories
  strayFree := dumps.noStraySizes_final redumpable.strayFree small
  apart := by
    rw [dumps.sameShape.fileAlignment, List.pairwise_iff_getElem]
    intro i j inRangeI inRangeJ lt rva firstSpans secondSpans
    have firstEntry := List.getElem?_eq_getElem inRangeI
    have secondEntry := List.getElem?_eq_getElem inRangeJ
    obtain ⟨_, firstSource⟩ := dumps.exists_source firstEntry
    obtain ⟨_, secondSource⟩ := dumps.exists_source secondEntry
    have same : i = j := SectionTable.eq_of_spans redumpable.apart firstSource secondSource
      (dumps.spans_of_spans_final small firstSource firstEntry firstSpans)
      (dumps.spans_of_spans_final small secondSource secondEntry secondSpans)
    omega
  anchored := by
    intro directory present nonzero nonempty header mem spans
    rw [dumps.sameShape.fileAlignment] at spans
    obtain ⟨index, finalEntry⟩ := List.getElem?_of_mem mem
    obtain ⟨entry, sourceEntry⟩ := dumps.exists_source finalEntry
    have raw : entry.hasRawData = true :=
      redumpable.anchored directory present nonzero nonempty entry
        (List.mem_of_getElem? sourceEntry)
        (dumps.spans_of_spans_final small sourceEntry finalEntry spans)
    obtain ⟨-, hasRawData, -⟩ := dumps.stored_header small sourceEntry finalEntry
    rw [hasRawData, raw, Bool.true_or]

/-- The output is well-formed exactly if its debug directory stays inside raw data. -/
theorem wellFormed_output_iff (dumps : job.Dumps options final output)
    (redumpable : job.source.Redumpable) (small : output.length < 2 ^ 32) :
    (job.reparsed final output).WellFormed ↔ job.plan.StoresDebug job.source := by
  constructor
  · intro wellFormed directory present nonzero
    obtain ⟨header, mem, holds⟩ := wellFormed.debug directory present nonzero
    obtain ⟨index, finalEntry⟩ := List.getElem?_of_mem mem
    obtain ⟨entry, sourceEntry⟩ := dumps.exists_source finalEntry
    exact ⟨index, entry, sourceEntry,
      (dumps.holdsTable_final_iff small sourceEntry finalEntry).1 holds⟩
  · intro stores
    obtain ⟨signature, directories, strayFree, apart, -⟩ := dumps.redumpable_output redumpable small
    refine { signature, directories, strayFree, apart, debug := ?_ }
    intro directory present nonzero
    obtain ⟨index, entry, sourceEntry, stored⟩ := stores directory present nonzero
    have inRange : index < final.sections.length := by
      rw [dumps.length_final]
      exact (List.getElem?_eq_some_iff.1 sourceEntry).1
    exact ⟨final.sections[index], List.getElem_mem inRange,
      (dumps.holdsTable_final_iff small sourceEntry (List.getElem?_eq_getElem inRange)).2 stored⟩

end Dumps

/-- The debug directory of a well-formed source stays inside the raw data of its section if
the regions of that section have an aligned end that fits into 32 bits. -/
theorem storesDebug_of_keepsDebug (planned : job.Planned) (wellFormed : job.source.WellFormed)
    (keeps : job.plan.KeepsDebug job.source) : job.plan.StoresDebug job.source := by
  intro directory present nonzero
  obtain ⟨entry, mem, holds⟩ := wellFormed.debug directory present nonzero
  obtain ⟨index, sourceEntry⟩ := List.getElem?_of_mem mem
  have fits : job.Fits index := keeps directory present nonzero index entry sourceEntry holds
  have grown : entry.rawSize.toNat ≤ job.storedSize index := by
    rw [storedSize_eq planned.positive sourceEntry fits]
    exact Nat.le_max_left _ _
  rw [storedSize_of_getElem? sourceEntry] at grown
  refine ⟨index, entry, sourceEntry, ?_⟩
  constructor
  case raw => rw [holds.raw, Bool.true_or]
  case starts => exact holds.starts
  case stops => exact Nat.le_trans holds.stops (Nat.add_le_add_left grown _)

end CopyJob

/-! ## Runs -/

/-- A request for a dump. -/
structure Round where
  memory : MemoryImage
  options : DumpOptions

/-- A round of a run that wrote an output. -/
structure Success where
  round : Round
  source : Bytes
  output : Bytes

/-- The successful rounds of a run. The next round starts from the last output. -/
def successes : Bytes → List Round → List Success
  | _, [] => []
  | source, round :: rounds =>
    match dumpImage source round.memory round.options with
    | .ok output => { round, source, output } :: successes output rounds
    | .error _ => successes source rounds

namespace Success

/-- The headers are those that patching returned in a round from this image with this plan. -/
def Returned (success : Success) (before : Image) (plan : Plan) (headers : Headers) : Prop :=
  ∃ copied, CopyJob.run { source := before, memory := success.round.memory, plan }
      (Buffer.zeros plan.outputSize) = .ok copied ∧
    Output.patch (copied.cursor.output.resize copied.cursor.position) before copied.headers
      success.round.options = .ok (headers, success.output)

/-- The source of the round is read as the image `before` and its output as the image `after`,
which has the shape of the first source of the run. -/
structure Preserves (success : Success) (first before : Image) (plan : Plan) (after : Image) :
    Prop where
  source : Image.parse success.source = .ok before
  analyzed : Plan.analyze before success.round.memory success.round.options = .ok plan
  parsed : Image.parse success.output = .ok after
  returned : success.Returned before plan after.toHeaders
  sameShape : first.SameShape after
  redumpable : after.Redumpable
  /-- All that can be lost of well-formedness is the place of the debug directory. -/
  wellFormed_iff : after.WellFormed ↔ plan.StoresDebug before
  wellFormed_of_keepsDebug : before.WellFormed → plan.KeepsDebug before → after.WellFormed

variable {first second before after : Image} {plan : Plan} {success : Success}

theorem Preserves.of_sameShape (preserves : success.Preserves second before plan after)
    (sameShape : first.SameShape second) : success.Preserves first before plan after :=
  { preserves with sameShape := sameShape.trans preserves.sameShape }

/-- One round. -/
theorem exists_preserves {round : Round} {source output : Bytes} (exact : round.memory.Exact)
    (parsed : Image.parse source = .ok before) (redumpable : before.Redumpable)
    (dumped : dumpImage source round.memory round.options = .ok output)
    (small : output.length < 2 ^ 32) :
    ∃ plan after, Preserves { round, source, output } before before plan after := by
  obtain ⟨before', plan, copied, final, parsed', analyzed, ran, patched⟩ :=
    dumpImage_eq_ok_iff.1 dumped
  cases parsed.symm.trans parsed'
  obtain ⟨final', dumps⟩ := CopyJob.dumps_of_dumpImage exact parsed analyzed dumped
  obtain ⟨-, rfl⟩ := (CopyJob.run_eq_ok_iff dumps.planned).1 ran
  -- the headers that patching returned are those that the output is read as
  cases patched.symm.trans dumps.patched
  have wellFormedIff := dumps.wellFormed_output_iff redumpable small
  refine ⟨plan, CopyJob.reparsed { source := before, memory := round.memory, plan } final output,
    ?_⟩
  constructor
  case source => exact parsed
  case analyzed => exact analyzed
  case parsed => exact dumps.parse_output redumpable small
  case returned => exact ⟨_, ran, patched⟩
  case sameShape => exact dumps.sameShape
  case redumpable => exact dumps.redumpable_output redumpable small
  case wellFormed_iff => exact wellFormedIff
  case wellFormed_of_keepsDebug =>
    intro wellFormed keeps
    exact wellFormedIff.2 (CopyJob.storesDebug_of_keepsDebug dumps.planned wellFormed keeps)

end Success

/-- What a dump needs of its source is there for every round of a run. -/
theorem exists_preserves_of_mem_successes {source : Bytes} {rounds : List Round} {image : Image}
    (exact : ∀ round ∈ rounds, round.memory.Exact) (parsed : Image.parse source = .ok image)
    (redumpable : image.Redumpable)
    (small : ∀ success ∈ successes source rounds, success.output.length < 2 ^ 32) :
    ∀ success ∈ successes source rounds,
      ∃ before plan after, success.Preserves image before plan after := by
  induction rounds generalizing source image with
  | nil =>
    intro success mem
    cases mem
  | cons round rounds ih =>
    have exactTail : ∀ round ∈ rounds, round.memory.Exact :=
      fun round mem => exact round (List.mem_cons_of_mem _ mem)
    unfold successes at small ⊢
    cases dumped : dumpImage source round.memory round.options with
    | error error =>
      simp only [dumped] at small ⊢
      exact ih exactTail parsed redumpable small
    | ok output =>
      simp only [dumped] at small ⊢
      rw [List.forall_mem_cons] at small ⊢
      obtain ⟨plan, after, preserves⟩ := Success.exists_preserves
        (exact round List.mem_cons_self) parsed redumpable dumped small.1
      refine ⟨⟨image, plan, after, preserves⟩, fun success mem => ?_⟩
      obtain ⟨before, laterPlan, last, later⟩ :=
        ih exactTail preserves.parsed preserves.redumpable small.2 success mem
      exact ⟨before, laterPlan, last, later.of_sameShape preserves.sameShape⟩

/-- **Well-formedness in runs.** Every output of a run from a well-formed source is parsed as
the headers that patching returned in its round, has the shape of the source, and keeps all
of well-formedness but the place of the debug directory. It is well-formed exactly if the
sizes that its round stored leave the debug directory inside raw data, and it is after a
round from a well-formed image in which the regions of the section of the debug directory
have an aligned end that fits into 32 bits. -/
theorem wellFormed_of_mem_successes {source : Bytes} {rounds : List Round} {image : Image}
    (exact : ∀ round ∈ rounds, round.memory.Exact) (parsed : Image.parse source = .ok image)
    (wellFormed : image.WellFormed)
    (small : ∀ success ∈ successes source rounds, success.output.length < 2 ^ 32) :
    ∀ success ∈ successes source rounds,
      ∃ before plan after, success.Preserves image before plan after :=
  exists_preserves_of_mem_successes exact parsed
    (wellFormed.redumpable (Image.fileAlignment_pos_of_parse parsed)) small

/-! ## The small image -/

theorem Plan.keepsDebug_of_fits {image : Image} {plan : Plan}
    (fits : ∀ index < image.sections.length,
      alignUp (plan.reach index) plan.fileAlignment.toNat < 2 ^ 32) :
    plan.KeepsDebug image := by
  intro directory present nonzero index header sourceEntry holds
  exact fits index (List.getElem?_eq_some_iff.1 sourceEntry).1

theorem wellFormed_wideSource : wideSource.WellFormed where
  signature := by decide +kernel
  directories := by decide +kernel
  strayFree := by decide +kernel
  apart := by
    have alone : wideSource.sections = [wideSection] := by decide +kernel
    rw [alone]
    exact List.pairwise_singleton _ _
  debug := by
    intro directory present nonzero
    have debug : wideSource.directory? .debug =
        some { virtualAddress := 0x100c, size := 28 } := by decide +kernel
    rw [debug] at present
    cases present
    refine ⟨wideSection, by decide +kernel, ?_⟩
    constructor
    case raw => rfl
    case starts => decide +kernel
    case stops => decide +kernel

/-- A round that stores `growingMemory`. -/
def growingRound : Round := { memory := growingMemory.toMemoryImage, options := plainOptions }

/-- A round that stores `overflowingMemory`. -/
def overflowingRound : Round :=
  { memory := overflowingMemory.toMemoryImage, options := plainOptions }

/-- What is read from the dump of `growingMemory`. -/
def grownSource : Image := (Image.parse growingDump).toOption.get (by decide +kernel)

theorem parse_growingDump : Image.parse growingDump = .ok grownSource := eq_ok_get _

/-- The plan to store `growingMemory` once more. -/
def grownPlan : Plan :=
  (Plan.analyze grownSource growingMemory.toMemoryImage plainOptions).toOption.get
    (by decide +kernel)

theorem analyze_grownSource :
    Plan.analyze grownSource growingMemory.toMemoryImage plainOptions = .ok grownPlan :=
  eq_ok_get _

/-- The dump of `growingMemory` into its own dump. -/
def grownDump : Bytes :=
  (dumpImage growingDump growingMemory.toMemoryImage plainOptions).toOption.get
    (by decide +kernel)

theorem successes_growingRounds : successes wideImage [growingRound, growingRound] =
    [{ round := growingRound, source := wideImage, output := growingDump },
      { round := growingRound, source := growingDump, output := grownDump }] := by
  have first := dumpImage_growingMemory
  have second : dumpImage growingDump growingMemory.toMemoryImage plainOptions = .ok grownDump :=
    eq_ok_get _
  simp only [successes, growingRound, first, second]

/-- The dump of a dump, with the same live bytes. -/
theorem wellFormed_grownDump : ∃ before plan after, Success.Preserves
      { round := growingRound, source := growingDump, output := grownDump } wideSource before
        plan after ∧
    after.WellFormed := by
  have run := successes_growingRounds
  have exact : ∀ round ∈ [growingRound, growingRound], round.memory.Exact := by
    rw [List.forall_mem_cons, List.forall_mem_singleton]
    exact ⟨growingMemory.exact_toMemoryImage, growingMemory.exact_toMemoryImage⟩
  have small : ∀ success ∈ successes wideImage [growingRound, growingRound],
      success.output.length < 2 ^ 32 := by
    rw [run, List.forall_mem_cons, List.forall_mem_singleton]
    exact ⟨by decide +kernel, by decide +kernel⟩
  have preserved :=
    wellFormed_of_mem_successes exact parse_wideImage wellFormed_wideSource small
  rw [run, List.forall_mem_cons, List.forall_mem_singleton] at preserved
  obtain ⟨⟨before, plan, after, first⟩, source, again, last, second⟩ := preserved
  have beforeEq : before = wideSource := Except.ok.inj (first.source.symm.trans parse_wideImage)
  rw [beforeEq] at first
  have planEq : plan = growingPlan :=
    Except.ok.inj (first.analyzed.symm.trans analyze_growingMemory)
  have grown := first.parsed
  have grownAgain := second.source
  dsimp only at grown grownAgain
  rw [parse_growingDump, Except.ok.injEq] at grown grownAgain
  rw [planEq, ← grown] at first
  rw [← grownAgain] at second
  have againEq : again = grownPlan :=
    Except.ok.inj (second.analyzed.symm.trans analyze_grownSource)
  rw [againEq] at second
  have wellFormed : grownSource.WellFormed := first.wellFormed_of_keepsDebug
    wellFormed_wideSource (Plan.keepsDebug_of_fits (by decide +kernel))
  exact ⟨_, _, last, second, second.wellFormed_of_keepsDebug wellFormed
    (Plan.keepsDebug_of_fits (by decide +kernel))⟩

/-- What is read from the dump of `overflowingMemory`. -/
def overflowingSource : Image :=
  (Image.parse overflowingDump).toOption.get (by decide +kernel)

theorem parse_overflowingDump : Image.parse overflowingDump = .ok overflowingSource :=
  eq_ok_get _

/-- The source is well-formed and the dump is small, but the raw data of the section
ends in front of the debug directory. -/
theorem not_wellFormed_overflowingMemory :
    Image.parse wideImage = .ok wideSource ∧ wideSource.WellFormed ∧
      overflowingRound.memory.Exact ∧
      successes wideImage [overflowingRound] =
        [{ round := overflowingRound, source := wideImage, output := overflowingDump }] ∧
      overflowingDump.length < 2 ^ 32 ∧
      Image.parse overflowingDump = .ok overflowingSource ∧ ¬overflowingSource.WellFormed := by
  refine ⟨parse_wideImage, wellFormed_wideSource, overflowingMemory.exact_toMemoryImage, ?_,
    by decide +kernel, parse_overflowingDump, fun wellFormed => ?_⟩
  · simp only [successes, overflowingRound, dumpImage_overflowingMemory]
  · have present : overflowingSource.directory? .debug =
        some { virtualAddress := 0x100c, size := 28 } := by decide +kernel
    have holder := wellFormed.debug _ present (by decide)
    have alone : overflowingSource.sections = [{ wideSection with
        rawSize := 16
        characteristics := SectionContent.initializedFlag }] := by decide +kernel
    rw [alone] at holder
    obtain ⟨header, mem, holds⟩ := holder
    rw [List.mem_singleton] at mem
    subst mem
    exact absurd holds.stops (by decide)

end ImageDump
