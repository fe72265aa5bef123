import ImageDump.Memory.Snapshot
import ImageDump.Proofs.CopyRun

/-!
# The layout of the destination

A copy that stays below `2 ^ 32` bytes has the layout that rounding up and taking
maxima alone describe: `Plan.Layout` states it field by field. The size of a
section's raw data is kept in 32 bits, though, so that a region whose aligned end
is `2 ^ 32` counts as one that ends at zero, and a second region of the same
section may then end the section early. `Plan.layout_iff` says that this is the
only way in which a copy can miss the layout, and what stands in spite of it
(`Plan.Outline`): the size of such a section and the places of those behind it are
all that it moves.
-/

namespace ImageDump

/-! ## What is described -/

namespace Plan

/-- Where a section starts: each section follows the one before it, which takes up
its raw data and its regions, rounded up. -/
def layoutStart (plan : Plan) (image : Image) : Nat → Nat
  | 0 => alignUp image.offsets.sectionsEnd plan.fileAlignment.toNat
  | index + 1 =>
    let rawSize := (image.sections[index]?.map (·.rawSize.toNat)).getD 0
    plan.layoutStart image index +
      alignUp (max rawSize (plan.reach index)) plan.fileAlignment.toNat

/-- Where the raw data of a section is described to be, given its header in the source. -/
def layoutPointer (plan : Plan) (image : Image) (index : Nat) (source : SectionHeader) : Nat :=
  if source.hasRawData || plan.grows index then plan.layoutStart image index else 0

/-- The size that the raw data of a section is described to have, given its header in the
source. -/
def layoutSize (plan : Plan) (index : Nat) (source : SectionHeader) : Nat :=
  if plan.grows index then
    max source.rawSize.toNat (alignUp (plan.reach index) plan.fileAlignment.toNat)
  else source.rawSize.toNat

/-- The size that a copy is described to have. -/
def layoutEnd (plan : Plan) (image : Image) : Nat :=
  plan.layoutStart image image.sections.length +
    (image.data.length - CopyJob.trailerOffset image plan.fileAlignment.toNat)

/-- The header of a section of the destination, given the header of the section
in the source. -/
structure LaysOut (plan : Plan) (image : Image) (index : Nat) (source destination : SectionHeader) :
    Prop where
  rawPointer : destination.rawPointer.toNat = plan.layoutPointer image index source
  rawSize : destination.rawSize.toNat = plan.layoutSize index source
  others : destination = { source with
    rawPointer := destination.rawPointer
    rawSize := destination.rawSize
    characteristics := destination.characteristics }
  characteristics : plan.grows index = false →
    destination.characteristics = source.characteristics

/-- The headers and the size of a copy of an image. -/
structure Layout (plan : Plan) (image : Image) (headers : Headers) (size : Nat) : Prop where
  headersSize : headers.windows.headersSize.toNat = plan.layoutStart image 0
  length : headers.sections.length = image.sections.length
  sections : ∀ index source destination, image.sections[index]? = some source →
    headers.sections[index]? = some destination → plan.LaysOut image index source destination
  size_eq : size = plan.layoutEnd image
  aligned : ∀ header ∈ headers.sections, plan.fileAlignment.toNat ∣ header.rawPointer.toNat
  ordered : headers.sections.Pairwise Image.InFileOrder
  inside : ∀ header ∈ headers.sections, header.hasRawData = true →
    plan.layoutStart image 0 ≤ header.rawPointer.toNat ∧ header.rawEnd ≤ size

/-! ## What stands for every plan -/

/-- The aligned end of the regions of a section fits into 32 bits. -/
def EndFits (plan : Plan) (index : Nat) : Prop :=
  alignUp (plan.reach index) plan.fileAlignment.toNat < 2 ^ 32

/-- The header of a section of the destination, whether or not the ends of the regions fit: the
raw data has the described place exactly if the ends in front of the section fit, and the
described size exactly if its own end does. -/
structure Outlines (plan : Plan) (image : Image) (index : Nat)
    (source destination : SectionHeader) : Prop where
  rawPointer_iff : destination.rawPointer.toNat = plan.layoutPointer image index source ↔
    ((source.hasRawData || plan.grows index) = true → ∀ earlier < index, plan.EndFits earlier)
  rawSize_iff : destination.rawSize.toNat = plan.layoutSize index source ↔ plan.EndFits index
  others : destination = { source with
    rawPointer := destination.rawPointer
    rawSize := destination.rawSize
    characteristics := destination.characteristics }
  characteristics : plan.grows index = false →
    destination.characteristics = source.characteristics

/-- The headers and the size of a copy of an image, whether or not the ends of the regions
fit. -/
structure Outline (plan : Plan) (image : Image) (headers : Headers) (size : Nat) : Prop where
  headersSize : headers.windows.headersSize.toNat = plan.layoutStart image 0
  length : headers.sections.length = image.sections.length
  sections : ∀ index source destination, image.sections[index]? = some source →
    headers.sections[index]? = some destination → plan.Outlines image index source destination
  size_iff : size = plan.layoutEnd image ↔ ∀ index < image.sections.length, plan.EndFits index
  aligned : ∀ header ∈ headers.sections, plan.fileAlignment.toNat ∣ header.rawPointer.toNat
  ordered : headers.sections.Pairwise Image.InFileOrder
  inside : ∀ header ∈ headers.sections, header.hasRawData = true →
    plan.layoutStart image 0 ≤ header.rawPointer.toNat ∧ header.rawEnd ≤ size

/-- A size that fits into a header describes a section whose end fits: no header field holds
another. -/
theorem endFits_of_layoutSize_lt {plan : Plan} {index : Nat} {source : SectionHeader}
    (fits : plan.layoutSize index source < 2 ^ 32) : plan.EndFits index := by
  unfold layoutSize at fits
  cases grows : plan.grows index with
  | false =>
    rw [EndFits, reach_eq_zero grows, alignUp_zero]
    decide
  | true =>
    rw [grows, if_pos rfl] at fits
    exact Nat.lt_of_le_of_lt (Nat.le_max_right _ _) fits

/-- An outline is the layout exactly if all ends fit. -/
theorem Outline.layout_iff_endFits {plan : Plan} {image : Image} {headers : Headers} {size : Nat}
    (outline : plan.Outline image headers size) :
    plan.Layout image headers size ↔ ∀ index < image.sections.length, plan.EndFits index := by
  refine ⟨fun layout => outline.size_iff.1 layout.size_eq, fun fits => ?_⟩
  constructor
  case headersSize => exact outline.headersSize
  case length => exact outline.length
  case sections =>
    intro index source destination sourceEntry destinationEntry
    have outlines := outline.sections index source destination sourceEntry destinationEntry
    have inRange : index < image.sections.length := (List.getElem?_eq_some_iff.1 sourceEntry).1
    constructor
    case rawPointer =>
      exact outlines.rawPointer_iff.2 fun _ earlier lt => fits earlier (Nat.lt_trans lt inRange)
    case rawSize => exact outlines.rawSize_iff.2 (fits index inRange)
    case others => exact outlines.others
    case characteristics => exact outlines.characteristics
  case size_eq => exact outline.size_iff.2 fits
  case aligned => exact outline.aligned
  case ordered => exact outline.ordered
  case inside => exact outline.inside

theorem layoutStart_succ {plan : Plan} {image : Image} {index : Nat} {header : SectionHeader}
    (entry : image.sections[index]? = some header) :
    plan.layoutStart image (index + 1) =
      plan.layoutStart image index +
        alignUp (max header.rawSize.toNat (plan.reach index)) plan.fileAlignment.toNat := by
  rw [layoutStart, entry]
  rfl

end Plan

/-- Sections without raw data have no size of raw data either. -/
def SectionTable.NoStraySizes (table : SectionTable) : Prop :=
  ∀ header ∈ table, header.hasRawData = false → header.rawSize = 0

instance (table : SectionTable) : Decidable table.NoStraySizes :=
  inferInstanceAs (Decidable (∀ header ∈ table, _ → _ = _))

namespace CopyJob

variable {job : CopyJob} {index : Nat} {entry : SectionHeader}

/-! ## Sizes that fit into their fields -/

theorem getElem?_headersAfter_count (index : Nat) :
    (job.headersAfter job.count).sections[index]? =
      job.source.sections[index]?.map (job.destination index) := by
  rw [getElem?_headersAfter]
  cases sourceEntry : job.source.sections[index]? with
  | none => rfl
  | some entry =>
    have inRange : index < job.count := (List.getElem?_eq_some_iff.1 sourceEntry).1
    rw [Option.map_some, Option.map_some, if_pos inRange]

theorem eq_destination {header : SectionHeader}
    (sourceEntry : job.source.sections[index]? = some entry)
    (copiedEntry : (job.headersAfter job.count).sections[index]? = some header) :
    header = job.destination index entry := by
  rw [getElem?_headersAfter_count, sourceEntry] at copiedEntry
  exact (Option.some.inj copiedEntry).symm

theorem sectionStart_lt (small : job.sectionStart job.count < 2 ^ 32) (le : index ≤ job.count) :
    job.sectionStart index < 2 ^ 32 :=
  Nat.lt_of_le_of_lt (sectionStart_le le) small

theorem storedSize_lt (positive : 0 < job.alignment)
    (small : job.sectionStart job.count < 2 ^ 32) (lt : index < job.count) :
    job.storedSize index < 2 ^ 32 := by
  have next : job.sectionStart index + alignUp (job.storedSize index) job.alignment < 2 ^ 32 :=
    sectionStart_lt small (Nat.succ_le_of_lt lt)
  have aligned : job.storedSize index ≤ alignUp (job.storedSize index) job.alignment :=
    le_alignUp positive
  omega

/-- In a copy that stays small, a section can only outgrow its header if no other
section grows. -/
theorem fits_of_grows (planned : job.Planned) (small : job.sectionStart job.count < 2 ^ 32)
    {other : Nat} (grows : job.plan.grows other = true) (lt : index < job.count)
    (ne : index ≠ other) : job.Fits index := by
  have le : alignUp (job.plan.reach index) job.alignment ≤ job.storedSize index :=
    Plan.alignUp_reach_le_storedSize planned.sound grows ne
  exact Nat.lt_of_le_of_lt le (storedSize_lt planned.positive small lt)

/-- The headers of a copy that stays small place the raw data of each section at
its start. -/
theorem rawPointer_destination (small : job.sectionStart job.count < 2 ^ 32)
    (le : index ≤ job.count) (raw : (job.destination index entry).hasRawData = true) :
    (job.destination index entry).rawPointer.toNat = job.sectionStart index := by
  have pointer : (job.destination index entry).rawPointer.toNat = _ :=
    toNat_rawPointer_destination (sectionStart_lt small le)
  split at pointer
  · exact pointer
  · exact absurd pointer (Nat.ne_of_gt (SectionHeader.hasRawData_eq_true_iff.1 raw))

/-- Raw data of the source is placed at the start of its section. -/
theorem rawPointer_destination_of_source (small : job.sectionStart job.count < 2 ^ 32)
    (le : index ≤ job.count) (raw : entry.hasRawData = true) :
    (job.destination index entry).rawPointer.toNat = job.sectionStart index := by
  rw [toNat_rawPointer_destination (sectionStart_lt small le), raw, Bool.true_or, if_pos rfl]

/-- The raw data of a section of the copy ends where the next one starts, or
before. -/
theorem rawEnd_destination_le (positive : 0 < job.alignment)
    (small : job.sectionStart job.count < 2 ^ 32) (lt : index < job.count)
    (raw : (job.destination index entry).hasRawData = true) :
    (job.destination index entry).rawEnd ≤ job.sectionStart (index + 1) := by
  have pointer := rawPointer_destination small (Nat.le_of_lt lt) raw
  have size : (job.destination index entry).rawSize.toNat = job.storedSize index :=
    toNat_rawSize_destination (storedSize_lt positive small lt)
  have aligned : job.storedSize index ≤ alignUp (job.storedSize index) job.alignment :=
    le_alignUp positive
  rw [SectionHeader.rawEnd, pointer, size, sectionStart]
  omega

theorem mem_headersAfter_count {header : SectionHeader}
    (mem : header ∈ (job.headersAfter job.count).sections) :
    ∃ index entry, index < job.count ∧ job.source.sections[index]? = some entry ∧
      header = job.destination index entry := by
  obtain ⟨index, at_⟩ := List.getElem?_of_mem mem
  rw [getElem?_headersAfter_count, Option.map_eq_some_iff] at at_
  obtain ⟨entry, sourceEntry, rfl⟩ := at_
  exact ⟨index, entry, (List.getElem?_eq_some_iff.1 sourceEntry).1, sourceEntry, rfl⟩

/-- The sections of a copy are in file order. -/
theorem inFileOrder_headersAfter (positive : 0 < job.alignment)
    (small : job.sectionStart job.count < 2 ^ 32) :
    (job.headersAfter job.count).sections.Pairwise Image.InFileOrder := by
  rw [List.pairwise_iff_getElem]
  intro i j inRangeI inRangeJ lt
  have firstAt := List.getElem?_eq_getElem inRangeI
  have secondAt := List.getElem?_eq_getElem inRangeJ
  rw [getElem?_headersAfter_count, Option.map_eq_some_iff] at firstAt secondAt
  obtain ⟨first, firstEntry, firstEq⟩ := firstAt
  obtain ⟨second, secondEntry, secondEq⟩ := secondAt
  rw [← firstEq, ← secondEq]
  have belowI : i < job.count := (List.getElem?_eq_some_iff.1 firstEntry).1
  have belowJ : j < job.count := (List.getElem?_eq_some_iff.1 secondEntry).1
  intro firstRaw secondRaw
  calc (job.destination i first).rawEnd
      ≤ job.sectionStart (i + 1) := rawEnd_destination_le positive small belowI firstRaw
    _ ≤ job.sectionStart j := sectionStart_le lt
    _ = (job.destination j second).rawPointer.toNat :=
      (rawPointer_destination small (Nat.le_of_lt belowJ) secondRaw).symm

/-! ## Sections with and without raw data -/

theorem sectionStart_pos (planned : job.Planned)
    (ordered : Image.HeadersInOrder job.source.toHeaders) (index : Nat) :
    0 < job.sectionStart index := by
  have sectionsEnd := ordered.sectionsEnd_pos
  have headersLe : job.source.offsets.sectionsEnd ≤ job.sectionStart 0 :=
    le_alignUp planned.positive
  have start : job.sectionStart 0 ≤ job.sectionStart index := sectionStart_le (Nat.zero_le index)
  omega

/-- A section of the copy has raw data if it had some in the source or if a
region made it grow. -/
theorem hasRawData_destination (planned : job.Planned)
    (ordered : Image.HeadersInOrder job.source.toHeaders)
    (small : job.sectionStart job.count < 2 ^ 32) (le : index ≤ job.count) :
    (job.destination index entry).hasRawData = (entry.hasRawData || job.plan.grows index) := by
  have pointer : (job.destination index entry).rawPointer.toNat = _ :=
    toNat_rawPointer_destination (sectionStart_lt small le)
  cases data : entry.hasRawData || job.plan.grows index with
  | true =>
    have positive := sectionStart_pos planned ordered index
    rw [data, if_pos rfl] at pointer
    rw [SectionHeader.hasRawData_eq_true_iff, pointer]
    exact positive
  | false =>
    rw [data, if_neg Bool.false_ne_true] at pointer
    exact SectionHeader.hasRawData_eq_false_iff.2 (UInt32.toNat_inj.1 pointer)

/-- A section that has no raw data in the copy has no size there either. -/
theorem storedSize_eq_zero (planned : job.Planned)
    (strayFree : SectionTable.NoStraySizes job.source.sections)
    (sourceEntry : job.source.sections[index]? = some entry)
    (noData : (entry.hasRawData || job.plan.grows index) = false) :
    job.storedSize index = 0 := by
  rw [Bool.or_eq_false_iff] at noData
  have zero := strayFree entry (List.mem_of_getElem? sourceEntry) noData.1
  rw [storedSize_eq planned.positive sourceEntry (fits_of_still noData.2), zero,
    Plan.reach_eq_zero noData.2, alignUp_zero]
  rfl

/-! ## The layout -/

theorem sectionStart_eq_layoutStart (planned : job.Planned)
    (fits : ∀ earlier < index, job.Fits earlier) (le : index ≤ job.count) :
    job.sectionStart index = job.plan.layoutStart job.source index := by
  have positive := planned.positive
  induction index with
  | zero => rfl
  | succ index ih =>
    have sourceEntry := List.getElem?_eq_getElem (l := job.source.sections) le
    have start := ih (fun earlier lt => fits earlier (Nat.lt_succ_of_lt lt))
      (Nat.le_of_succ_le le)
    have stored := storedSize_eq positive sourceEntry (fits index (Nat.lt_succ_self index))
    rw [sectionStart, Plan.layoutStart, start, stored, alignUp_max positive,
      alignUp_alignUp positive, sourceEntry, ← alignUp_max positive]
    rfl

/-- A section takes up no more room than its raw data and its regions need. -/
theorem alignUp_storedSize_le (planned : job.Planned)
    (sourceEntry : job.source.sections[index]? = some entry) :
    alignUp (job.storedSize index) job.alignment ≤
      alignUp (max entry.rawSize.toNat (job.plan.reach index)) job.alignment := by
  have positive := planned.positive
  refine alignUp_le_of_dvd positive ?_ (dvd_alignUp positive)
  rw [storedSize_of_getElem? sourceEntry]
  refine Placement.foldl_resize_le ?_ fun placement mem => ?_
  · exact Nat.le_trans (Nat.le_max_left _ _) (le_alignUp positive)
  · exact alignUp_mono positive (stop_le_max planned sourceEntry mem)

/-- What the copy falls behind the layout it never catches up. -/
theorem sectionStart_add_layoutStart_le (planned : job.Planned) {first last : Nat}
    (le : first ≤ last) (lastLe : last ≤ job.count) :
    job.sectionStart last + job.plan.layoutStart job.source first ≤
      job.plan.layoutStart job.source last + job.sectionStart first := by
  induction le with
  | refl => exact Nat.le_of_eq (Nat.add_comm _ _)
  | step le ih =>
    rename_i last
    have before := ih (Nat.le_of_succ_le lastLe)
    have sourceEntry := List.getElem?_eq_getElem (l := job.source.sections) lastLe
    have size := alignUp_storedSize_le planned sourceEntry
    rw [sectionStart, Plan.layoutStart_succ sourceEntry]
    unfold alignment at size before ⊢
    omega

/-- The layout leaves room for the regions of a section. -/
theorem alignUp_reach_le_layoutStart (planned : job.Planned) (lt : index < job.count) :
    alignUp (job.plan.reach index) job.alignment ≤
      job.plan.layoutStart job.source (index + 1) := by
  rw [Plan.layoutStart_succ (List.getElem?_eq_getElem (l := job.source.sections) lt)]
  exact Nat.le_trans (alignUp_mono planned.positive (Nat.le_max_right _ _)) (Nat.le_add_left _ _)

/-- A section of a copy that stays small starts at its place in the layout exactly if
nothing in front of it is cut off. -/
theorem sectionStart_eq_layoutStart_iff (planned : job.Planned)
    (small : job.sectionStart job.count < 2 ^ 32) (le : index ≤ job.count) :
    job.sectionStart index = job.plan.layoutStart job.source index ↔
      ∀ earlier < index, job.Fits earlier := by
  refine ⟨fun starts earlier lt => ?_, fun fits => sectionStart_eq_layoutStart planned fits le⟩
  have inRange : earlier < job.source.sections.length := Nat.lt_of_lt_of_le lt le
  have behind := sectionStart_add_layoutStart_le planned (Nat.succ_le_of_lt lt) le
  have next := sectionStart_lt small (Nat.succ_le_of_lt inRange)
  have reach := alignUp_reach_le_layoutStart planned inRange
  rw [Nat.succ_eq_add_one] at behind next
  rw [Fits]
  omega

theorem outlines_destination (planned : job.Planned)
    (small : job.sectionStart job.count < 2 ^ 32)
    (sourceEntry : job.source.sections[index]? = some entry) :
    job.plan.Outlines job.source index entry (job.destination index entry) := by
  have inRange : index < job.count := (List.getElem?_eq_some_iff.1 sourceEntry).1
  have positive := planned.positive
  constructor
  case rawPointer_iff =>
    rw [toNat_rawPointer_destination (sectionStart_lt small (Nat.le_of_lt inRange)),
      Plan.layoutPointer]
    split
    · rename_i data
      rw [sectionStart_eq_layoutStart_iff planned small (Nat.le_of_lt inRange)]
      exact ⟨fun fits _ => fits, fun fits => fits data⟩
    · rename_i none
      exact iff_of_true rfl fun data => absurd data none
  case rawSize_iff =>
    rw [toNat_rawSize_destination (storedSize_lt positive small inRange)]
    constructor
    · intro described
      exact Plan.endFits_of_layoutSize_lt (described ▸ storedSize_lt positive small inRange)
    · intro fits
      rw [storedSize_eq positive sourceEntry fits, Plan.layoutSize]
      split
      · rfl
      · rename_i still
        rw [Plan.reach_eq_zero (Bool.eq_false_iff.2 still), alignUp_zero, Nat.max_zero]
  case others => exact destination_eq entry
  case characteristics => exact characteristics_destination

theorem outline (planned : job.Planned) {output : Buffer}
    (small : (job.finalState output).cursor.position < 2 ^ 32) :
    job.plan.Outline job.source (job.finalState output).headers
      (job.finalState output).cursor.position := by
  have positive := planned.positive
  have startSmall : job.sectionStart job.count < 2 ^ 32 :=
    Nat.lt_of_le_of_lt (Nat.le_add_right _ job.trailerSize) small
  constructor
  case headersSize =>
    have field : (job.finalState output).headers.windows.headersSize =
        UInt32.ofNat (job.sectionStart 0) := by
      change (job.source.windows.withHeadersSize _).headersSize = _
      cases job.source.windows <;> rfl
    rw [field, UInt32.toNat_ofNat_of_lt' (sectionStart_lt startSmall (Nat.zero_le _))]
    rfl
  case length => exact List.length_mapIdx
  case sections =>
    intro index source destination sourceEntry destinationEntry
    cases eq_destination sourceEntry destinationEntry
    exact outlines_destination planned startSmall sourceEntry
  case size_iff =>
    refine Iff.trans ?_ (sectionStart_eq_layoutStart_iff planned startSmall (Nat.le_refl _))
    exact Nat.add_right_cancel_iff
  case aligned =>
    intro header mem
    obtain ⟨index, entry, lt, -, rfl⟩ := mem_headersAfter_count mem
    rw [toNat_rawPointer_destination (sectionStart_lt startSmall (Nat.le_of_lt lt))]
    split
    · exact dvd_sectionStart positive index
    · exact Nat.dvd_zero _
  case ordered => exact inFileOrder_headersAfter positive startSmall
  case inside =>
    intro header mem raw
    obtain ⟨index, entry, lt, -, rfl⟩ := mem_headersAfter_count mem
    have stop := rawEnd_destination_le positive startSmall lt raw
    have later : job.sectionStart (index + 1) ≤ job.sectionStart job.count := sectionStart_le lt
    rw [rawPointer_destination startSmall (Nat.le_of_lt lt) raw]
    refine ⟨sectionStart_le (Nat.zero_le index), ?_⟩
    exact Nat.le_trans stop (Nat.le_trans later (Nat.le_add_right _ _))

end CopyJob

namespace Plan

/-- A copy that stays below `2 ^ 32` bytes, whatever output it was written into, has the
outline of its plan. It has the described layout exactly if the aligned end of the regions of
every section fits into 32 bits. -/
theorem layout_iff {data : Bytes} {image : Image} {memory : MemoryImage} {options : DumpOptions}
    {plan : Plan} {output : Buffer} {copied : CopyState} (exact : memory.Exact)
    (parsed : Image.parse data = .ok image)
    (analyzed : analyze image memory options = .ok plan)
    (ran : CopyJob.run { source := image, memory, plan } output = .ok copied)
    (small : copied.cursor.position < 2 ^ 32) :
    plan.Outline image copied.headers copied.cursor.position ∧
      (plan.Layout image copied.headers copied.cursor.position ↔
        ∀ index < image.sections.length,
          alignUp (plan.reach index) plan.fileAlignment.toNat < 2 ^ 32) := by
  have planned := CopyJob.planned_of_analyze exact parsed analyzed
  obtain ⟨-, rfl⟩ := (CopyJob.run_eq_ok_iff planned).1 ran
  have outline := CopyJob.outline planned small
  exact ⟨outline, outline.layout_iff_endFits⟩

end Plan

/-! ## A small image -/

theorem eq_ok_of_toOption {ε α : Type} {step : Except ε α} {result : α}
    (computed : step.toOption = some result) : step = .ok result := by
  cases step with
  | error _ => cases computed
  | ok _ =>
    cases computed
    rfl

/-- A step that succeeds gives the result that it computes. -/
theorem eq_ok_get {ε α : Type} {step : Except ε α} (succeeds : step.toOption.isSome = true) :
    step = .ok (step.toOption.get succeeds) :=
  eq_ok_of_toOption (Option.some_get succeeds).symm

/-- The error of a step that fails. -/
def failure? {ε α : Type} : Except ε α → Option ε
  | .ok _ => none
  | .error error => some error

theorem eq_error_of_failure? {ε α : Type} {step : Except ε α} {error : ε}
    (computed : failure? step = some error) : step = .error error := by
  cases step with
  | error _ =>
    cases computed
    rfl
  | ok _ => cases computed

/-- A section with forty bytes of raw data and the largest virtual size there
is. -/
def wideSection : SectionHeader where
  name := SectionName.ofBytes [0x2e, 0x62, 0x73, 0x73]
  virtualSize := 0xffffffff
  virtualAddress := 0x1000
  rawSize := 40
  rawPointer := 288
  relocationsPointer := 0
  lineNumbersPointer := 0
  relocationCount := 0
  lineNumberCount := 0
  characteristics := SectionContent.uninitializedFlag

/-- An image with that section alone. A debug directory of one entry lies in the
raw data of the section, and the symbol table follows the raw data. -/
def wideImage : Bytes :=
  Codec.u16.encode Image.executableMagic ++ Bytes.zeros 58 ++ Codec.u32.encode 64 ++
    Codec.u32.encode Image.signature ++
    CoffHeader.codec.encode {
      machine := 0x14c
      sectionCount := 1
      timestamp := 0
      symbolTablePointer := 336
      symbolCount := 0
      optionalHeaderSize := 152
      characteristics := 0 } ++
    StandardFields.codec.encode {
      magic := Image.OptionalFormat.pe32.magic
      linkerVersion := ⟨0, 0⟩
      codeSize := 0
      initializedDataSize := 0
      uninitializedDataSize := 0
      entryPoint := 0
      codeBase := 0 } ++
    Bytes.zeros 4 ++
    (WindowsFields.codec Codec.u32).encode {
      imageBase := 0x400000
      sectionAlignment := 16
      fileAlignment := 16
      operatingSystemVersion := ⟨0, 0⟩
      imageVersion := ⟨0, 0⟩
      subsystemVersion := ⟨0, 0⟩
      win32Version := 0
      imageSize := 0
      headersSize := 288
      checksum := 0
      subsystem := 0
      dllCharacteristics := 0
      stackReserve := 0
      stackCommit := 0
      heapReserve := 0
      heapCommit := 0
      loaderFlags := 0
      directoryCount := 7 } ++
    Bytes.zeros 48 ++ DataDirectory.codec.encode { virtualAddress := 0x100c, size := 28 } ++
    SectionHeader.codec.encode wideSection ++ Bytes.zeros 8 ++
    List.replicate 40 0x11 ++ Bytes.zeros 40

/-- Store what a program holds without looking for a named section, and leave
the checksum zero. -/
def plainOptions : DumpOptions := { dataSection := none, checksum := false }

/-- Memory with twenty live bytes from the end of the raw data on. -/
def growingMemory : Snapshot :=
  Snapshot.setRegion { imageBase := 0x400000 } .bss 0x401028 (List.replicate 20 0xaa)

/-- Memory with one live byte in the last sixteen bytes of the section, and
another at its start. -/
def overflowingMemory : Snapshot :=
  Snapshot.setRegion
    (Snapshot.setRegion { imageBase := 0x400000 } .bss 0x100400ff0 [0xaa])
    .staticBss 0x401000 [0xbb]

/-- What is read from `wideImage`. -/
def wideSource : Image := (Image.parse wideImage).toOption.get (by decide +kernel)

theorem parse_wideImage : Image.parse wideImage = .ok wideSource := eq_ok_get _

/-- The plan to store `growingMemory` in `wideImage`. -/
def growingPlan : Plan :=
  (Plan.analyze wideSource growingMemory.toMemoryImage plainOptions).toOption.get
    (by decide +kernel)

/-- The plan to store `overflowingMemory` in `wideImage`. -/
def overflowingPlan : Plan :=
  (Plan.analyze wideSource overflowingMemory.toMemoryImage plainOptions).toOption.get
    (by decide +kernel)

theorem analyze_growingMemory :
    Plan.analyze wideSource growingMemory.toMemoryImage plainOptions = .ok growingPlan :=
  eq_ok_get _

theorem analyze_overflowingMemory :
    Plan.analyze wideSource overflowingMemory.toMemoryImage plainOptions =
      .ok overflowingPlan :=
  eq_ok_get _

namespace Plan

/-- Twenty bytes behind the raw data make it grow by a third, and the copy has the
described layout. -/
theorem layout_growingMemory : ∃ copied,
    CopyJob.run {
      source := wideSource, memory := growingMemory.toMemoryImage, plan := growingPlan }
      (Buffer.zeros growingPlan.outputSize) = .ok copied ∧
    copied.cursor.position < 2 ^ 32 ∧
    growingPlan.Layout wideSource copied.headers copied.cursor.position := by
  obtain ⟨copied, ran, small⟩ : ∃ copied,
      CopyJob.run {
        source := wideSource, memory := growingMemory.toMemoryImage, plan := growingPlan }
        (Buffer.zeros growingPlan.outputSize) = .ok copied ∧
      copied.cursor.position < 2 ^ 32 :=
    ⟨_, eq_ok_get (by decide +kernel), by decide +kernel⟩
  refine ⟨copied, ran, small, ?_⟩
  exact (layout_iff growingMemory.exact_toMemoryImage parse_wideImage analyze_growingMemory ran
    small).2.2 (by decide +kernel)

/-- A region whose aligned end is `2 ^ 32` and a second region in front of it: the
copy is small, and the header of the section does not have the size that is
described. -/
theorem not_layout_overflowingMemory :
    Image.parse wideImage = .ok wideSource ∧ overflowingMemory.toMemoryImage.Exact ∧
      analyze wideSource overflowingMemory.toMemoryImage plainOptions = .ok overflowingPlan ∧
      ∃ copied,
        CopyJob.run {
          source := wideSource, memory := overflowingMemory.toMemoryImage, plan := overflowingPlan }
          (Buffer.zeros overflowingPlan.outputSize) = .ok copied ∧
        copied.cursor.position < 2 ^ 32 ∧
        ¬overflowingPlan.Layout wideSource copied.headers copied.cursor.position := by
  obtain ⟨copied, ran, small⟩ : ∃ copied,
      CopyJob.run {
        source := wideSource, memory := overflowingMemory.toMemoryImage, plan := overflowingPlan }
        (Buffer.zeros overflowingPlan.outputSize) = .ok copied ∧
      copied.cursor.position < 2 ^ 32 :=
    ⟨_, eq_ok_get (by decide +kernel), by decide +kernel⟩
  refine ⟨parse_wideImage, overflowingMemory.exact_toMemoryImage, analyze_overflowingMemory,
    copied, ran, small, fun layout => ?_⟩
  have sourceEntry : wideSource.sections[0]? = some wideSection := by decide +kernel
  have one : wideSource.sections.length = 1 := by decide +kernel
  have inRange : 0 < copied.headers.sections.length := by
    rw [layout.length, one]
    exact Nat.one_pos
  have laid := layout.sections 0 _ _ sourceEntry (List.getElem?_eq_getElem inRange)
  have tooLarge : ¬overflowingPlan.layoutSize 0 wideSection < 2 ^ 32 := by decide +kernel
  exact tooLarge (laid.rawSize ▸ UInt32.toNat_lt _)

end Plan
end ImageDump
