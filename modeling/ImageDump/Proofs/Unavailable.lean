import ImageDump.Proofs.CopyRun

/-!
# Copies that miss a region

A copy reads live memory in one place only, where a region is stored. It can therefore
fail for want of memory only at a region of its plan that the memory image has no bytes
for, and it does so once everything in front of that region is copied
(`CopyJob.misses_run_iff`). An output that is large enough takes all of that
(`CopyJob.exists_misses_run`).
-/

namespace ImageDump

variable {α β : Type}

/-- The step fails because the bytes of the region are not available. -/
def Misses (region : Region) (step : Except Interrupted α) : Prop :=
  ∃ interrupted, step = .error interrupted ∧ interrupted.error = .memoryUnavailable region

variable {region : Region}

@[simp] theorem not_misses_ok {value : α} : ¬Misses region (.ok value) := by
  intro misses
  obtain ⟨_, fails, -⟩ := misses
  cases fails

@[simp] theorem misses_error_iff {interrupted : Interrupted} :
    Misses region (.error interrupted : Except Interrupted α) ↔
      interrupted.error = .memoryUnavailable region := by
  simp [Misses]

theorem misses_bind_iff {first : Except Interrupted α} {next : α → Except Interrupted β} :
    Misses region (first >>= next) ↔
      Misses region first ∨ ∃ value, first = .ok value ∧ Misses region (next value) := by
  cases first with
  | error interrupted => simp [bind, Except.bind]
  | ok value => simp [bind, Except.bind]

/-- A series of steps misses a region if one of them does when its turn comes. -/
theorem misses_foldlM_iff {f : β → α → Except Interrupted β} {xs : List α} {first : β} :
    Misses region (xs.foldlM f first) ↔
      ∃ front x back before, xs = front ++ x :: back ∧ front.foldlM f first = .ok before ∧
        Misses region (f before x) := by
  constructor
  · intro misses
    induction xs generalizing first with
    | nil => exact absurd misses not_misses_ok
    | cons x xs ih =>
      rw [List.foldlM_cons, misses_bind_iff] at misses
      rcases misses with now | ⟨next, stepped, later⟩
      · exact ⟨[], x, xs, first, rfl, rfl, now⟩
      · obtain ⟨front, y, back, before, rfl, ran, last⟩ := ih later
        refine ⟨x :: front, y, back, before, rfl, ?_, last⟩
        rw [List.foldlM_cons, bind_eq_ok_iff]
        exact ⟨next, stepped, ran⟩
  · rintro ⟨front, x, back, before, rfl, ran, last⟩
    rw [List.foldlM_append, misses_bind_iff]
    refine .inr ⟨before, ran, ?_⟩
    rw [List.foldlM_cons, misses_bind_iff]
    exact .inl last

/-! ## Steps of a cursor -/

namespace Cursor

variable {cursor : Cursor} {source bytes : Bytes} {memory : MemoryImage} {other : Region}
  {offset size alignment : Nat}

theorem not_misses_put : ¬Misses region (cursor.put bytes) := by
  simp only [put]
  split
  · exact not_misses_ok
  · simp [interrupt]

theorem not_misses_copySource : ¬Misses region (cursor.copySource source offset size) := by
  unfold copySource
  split
  · exact not_misses_put
  · simp [interrupt]

theorem not_misses_align : ¬Misses region (cursor.align alignment) := by
  unfold align
  split
  · simp [interrupt]
  · exact not_misses_ok

theorem not_misses_alignZeroed : ¬Misses region (cursor.alignZeroed alignment) := by
  rw [alignZeroed, misses_bind_iff]
  rintro (misses | ⟨_, -, misses⟩)
  · exact not_misses_align misses
  · exact not_misses_ok misses

theorem misses_copyMemory_iff :
    Misses region (cursor.copyMemory memory other) ↔
      other = region ∧ memory.read region = none := by
  cases answer : memory.read other with
  | none =>
    simp only [copyMemory, answer, misses_error_iff, interrupt, DumpError.memoryUnavailable.injEq]
    refine ⟨?_, And.left⟩
    rintro rfl
    exact ⟨rfl, answer⟩
  | some bytes =>
    simp only [copyMemory, answer, not_misses_put, false_iff]
    rintro ⟨rfl, missing⟩
    rw [answer] at missing
    cases missing

end Cursor

/-! ## The parts of a copy -/

namespace CopyJob

variable {job : CopyJob} {index start count : Nat} {state : CopyState} {entry : SectionHeader}
  {output : Buffer}

theorem not_misses_copyHeaders : ¬Misses region (job.copyHeaders state) := by
  simp only [copyHeaders, misses_bind_iff, Cursor.not_misses_copySource,
    Cursor.not_misses_alignZeroed, false_or]
  rintro ⟨_, -, _, -, misses⟩
  exact not_misses_ok misses

theorem not_misses_copyTrailer : ¬Misses region (job.copyTrailer state) := by
  simp only [copyTrailer]
  split
  · exact not_misses_ok
  · rw [misses_bind_iff]
    rintro (misses | ⟨_, -, misses⟩)
    · exact Cursor.not_misses_copySource misses
    · exact not_misses_ok misses

/-- Storing a region misses no other region. -/
theorem misses_storeRegion_iff {placement : Placement} :
    Misses region (job.storeRegion index start state placement) ↔
      placement.region = region ∧ job.memory.read region = none := by
  simp only [storeRegion, misses_bind_iff, Cursor.misses_copyMemory_iff]
  refine ⟨?_, .inl⟩
  rintro (missing | ⟨stored, -, misses⟩)
  · exact missing
  · split at misses
    · rw [misses_bind_iff] at misses
      rcases misses with misses | ⟨_, -, misses⟩
      · exact absurd misses Cursor.not_misses_align
      · exact absurd misses not_misses_ok
    · exact absurd misses not_misses_ok

/-- The copy of a section gets as far as a region, and its bytes are not available. -/
structure StopsAt (job : CopyJob) (index size : Nat) (entry : SectionHeader) (region : Region) :
    Prop where
  inside : entry.rawEnd ≤ job.source.data.length
  fits : job.sectionStart index + entry.rawSize.toNat ≤ size
  placed : ∃ front placement back, job.plan.placementsIn index = front ++ placement :: back ∧
    (∀ earlier ∈ front, (job.memory.read earlier.region).isSome = true ∧
      job.sectionStart index + earlier.stop ≤ size) ∧ placement.region = region
  missing : job.memory.read region = none

theorem misses_copySection_iff (exact : job.memory.Exact) (positive : 0 < job.alignment)
    (sourceEntry : job.source.sections[index]? = some entry)
    (stateEntry : state.headers.sections[index]? = some entry)
    (starts : state.cursor.position = job.sectionStart index) :
    Misses region (job.copySection index state) ↔
      job.StopsAt index state.cursor.output.size entry region := by
  have aligned : job.alignment ∣ job.sectionStart index := dvd_sectionStart positive index
  have movedEntry : (state.headers.modifySection index
      (SectionHeader.moved (job.sectionStart index))).sections[index]? =
        some (entry.moved (job.sectionStart index)) :=
    Headers.getElem?_modifySection stateEntry
  simp only [copySection, sourceEntry, misses_bind_iff, Cursor.not_misses_copySource,
    Cursor.not_misses_alignZeroed, Cursor.not_misses_align, Cursor.copySource_eq_ok_iff,
    Cursor.alignZeroed_eq_ok_iff, starts, false_or]
  constructor
  · rintro ⟨_, ⟨inside, fits, rfl⟩, _, ⟨-, rfl⟩, regions | ⟨_, -, _, -, misses⟩⟩
    · obtain ⟨front, placement, back, before, parts, ran, last⟩ := misses_foldlM_iff.1 regions
      obtain ⟨stored, -⟩ := (foldlM_storeRegion_eq_ok_iff exact positive aligned movedEntry).1 ran
      obtain ⟨same, missing⟩ := misses_storeRegion_iff.1 last
      exact ⟨inside, fits, ⟨front, placement, back, parts, stored, same⟩, missing⟩
    · exact absurd misses not_misses_ok
  · rintro ⟨inside, fits, ⟨front, placement, back, parts, stored, same⟩, missing⟩
    refine ⟨_, ⟨inside, fits, rfl⟩, _, ⟨positive, rfl⟩, .inl ?_⟩
    exact misses_foldlM_iff.2 ⟨front, placement, back, _, parts,
      (foldlM_storeRegion_eq_ok_iff exact positive aligned movedEntry).2 ⟨stored, rfl⟩,
      misses_storeRegion_iff.2 ⟨same, missing⟩⟩

/-! ## The run -/

/-- The copy of the first sections misses a region in the first one that cannot be copied. -/
theorem misses_sections_iff (planned : job.Planned) (le : count ≤ job.source.sections.length) :
    Misses region
        (((List.range count).map Stage.sectionAt).foldlM job.perform (job.stateAfter output 0)) ↔
      ∃ index entry, index < count ∧ job.source.sections[index]? = some entry ∧
        (∀ earlier other, earlier < index → job.source.sections[earlier]? = some other →
          job.Copyable earlier (job.sectionStart earlier) output.size other) ∧
        job.StopsAt index output.size entry region := by
  induction count with
  | zero =>
    refine ⟨fun misses => absurd misses not_misses_ok, ?_⟩
    rintro ⟨index, _, lt, -⟩
    exact absurd lt (Nat.not_lt_zero index)
  | succ count ih =>
    obtain ⟨entry, sourceEntry⟩ : ∃ entry, job.source.sections[count]? = some entry :=
      ⟨_, List.getElem?_eq_getElem le⟩
    have stateEntry : (job.stateAfter output count).headers.sections[count]? = some entry := by
      change (job.headersAfter count).sections[count]? = some entry
      rw [getElem?_headersAfter, sourceEntry, Option.map_some, if_neg (Nat.lt_irrefl count)]
    have last : Misses region (job.copySection count (job.stateAfter output count)) ↔
        job.StopsAt count output.size entry region := by
      rw [misses_copySection_iff planned.exact planned.positive sourceEntry stateEntry rfl,
        stateAfter, size_outputAfter]
    rw [foldlM_sections_succ, misses_bind_iff, ih (Nat.le_of_succ_le le)]
    simp only [foldlM_sections_eq_ok_iff planned (Nat.le_of_succ_le le)]
    constructor
    · rintro (⟨index, other, lt, earlier⟩ | ⟨_, ⟨copyable, rfl⟩, misses⟩)
      · exact ⟨index, other, Nat.lt_succ_of_lt lt, earlier⟩
      · exact ⟨count, entry, Nat.lt_succ_self count, sourceEntry, copyable, last.1 misses⟩
    · rintro ⟨index, other, lt, otherEntry, copyable, stops⟩
      rcases Nat.lt_succ_iff_lt_or_eq.1 lt with earlier | rfl
      · exact .inl ⟨index, other, earlier, otherEntry, copyable, stops⟩
      · cases sourceEntry.symm.trans otherEntry
        exact .inr ⟨_, ⟨copyable, rfl⟩, last.2 stops⟩

/-- A copy misses a region exactly if everything in front of the region can be copied, and
its bytes are not available. -/
theorem misses_run_iff (planned : job.Planned) :
    Misses region (job.run output) ↔
      job.source.offsets.sectionsEnd ≤ job.source.data.length ∧
      job.source.offsets.sectionsEnd ≤ output.size ∧
      ∃ index entry, job.source.sections[index]? = some entry ∧
        (∀ earlier other, earlier < index → job.source.sections[earlier]? = some other →
          job.Copyable earlier (job.sectionStart earlier) output.size other) ∧
        job.StopsAt index output.size entry region := by
  simp only [run_eq_bind, beforeTrailer, List.foldlM_cons, misses_bind_iff, not_misses_copyTrailer,
    and_false, exists_false, or_false]
  change Misses region (job.copyHeaders (job.initial output)) ∨ (∃ next,
    job.copyHeaders (job.initial output) = .ok next ∧ Misses region
      (((List.range job.count).map Stage.sectionAt).foldlM job.perform next)) ↔ _
  simp only [not_misses_copyHeaders, copyHeaders_eq_ok_iff planned.positive, false_or]
  constructor
  · rintro ⟨_, ⟨inside, fits, rfl⟩, misses⟩
    obtain ⟨index, entry, -, stops⟩ := (misses_sections_iff planned (Nat.le_refl _)).1 misses
    exact ⟨inside, fits, index, entry, stops⟩
  · rintro ⟨inside, fits, index, entry, sourceEntry, stops⟩
    have inRange : index < job.count := (List.getElem?_eq_some_iff.1 sourceEntry).1
    exact ⟨_, ⟨inside, fits, rfl⟩, (misses_sections_iff planned (Nat.le_refl _)).2
      ⟨index, entry, inRange, sourceEntry, stops⟩⟩

/-- A copy misses no region but those of its plan, and only once the raw data up to the section
of the region is copied. -/
theorem exists_placement_of_misses_run (planned : job.Planned)
    (misses : Misses region (job.run output)) :
    job.memory.read region = none ∧
      ∃ placement ∈ job.plan.placements, placement.region = region ∧
        ∀ header ∈ job.source.sections.take (placement.owner + 1),
          header.rawEnd ≤ job.source.data.length := by
  obtain ⟨-, -, index, entry, sourceEntry, copyable, stops⟩ := (misses_run_iff planned).1 misses
  obtain ⟨front, placement, back, parts, -, same⟩ := stops.placed
  have mem : placement ∈ job.plan.placementsIn index := by
    rw [parts]
    exact List.mem_append_right _ List.mem_cons_self
  obtain ⟨placed, rfl⟩ := Plan.mem_placementsIn.1 mem
  refine ⟨stops.missing, placement, placed, same, fun header taken => ?_⟩
  obtain ⟨i, lt, rfl⟩ := List.mem_take_iff_getElem.1 taken
  have inRange : i < job.source.sections.length := Nat.lt_of_lt_of_le lt (Nat.min_le_right _ _)
  have upTo : i < placement.owner + 1 := Nat.lt_of_lt_of_le lt (Nat.min_le_left _ _)
  have otherEntry := List.getElem?_eq_getElem inRange
  rcases Nat.lt_succ_iff_lt_or_eq.1 upTo with earlier | rfl
  · exact (copyable i _ earlier otherEntry).inside
  · cases sourceEntry.symm.trans otherEntry
    exact stops.inside

/-- A region without bytes is missed in an output that is large enough, if the raw data up to
its section lies in the source and every region in front of it has its bytes. -/
theorem exists_misses_run (planned : job.Planned)
    (headersInside : job.source.offsets.sectionsEnd ≤ job.source.data.length)
    (sourceEntry : job.source.sections[index]? = some entry)
    (inside : ∀ header ∈ job.source.sections.take (index + 1),
      header.rawEnd ≤ job.source.data.length)
    (earlier : ∀ before < index, ∀ placement ∈ job.plan.placementsIn before,
      (job.memory.read placement.region).isSome = true)
    {front back : List Placement} {placement : Placement}
    (parts : job.plan.placementsIn index = front ++ placement :: back)
    (available : ∀ stored ∈ front, (job.memory.read stored.region).isSome = true)
    (missing : job.memory.read placement.region = none) :
    ∃ output, Misses placement.region (job.run output) := by
  -- every part up to the section ends in front of this size
  have room {before : Nat} (le : before ≤ index) {placement : Placement}
      (mem : placement ∈ job.plan.placementsIn before) :
      job.sectionStart before + placement.stop ≤ job.sectionStart index + 2 ^ 32 :=
    Nat.add_le_add (sectionStart_le le) (stop_le_two_pow planned (Plan.mem_placementsIn.1 mem).1)
  have start : job.source.offsets.sectionsEnd ≤ job.sectionStart index :=
    Nat.le_trans (le_alignUp planned.positive) (sectionStart_le (Nat.zero_le _))
  have rawInside {before : Nat} {other : SectionHeader} (le : before ≤ index)
      (otherEntry : job.source.sections[before]? = some other) :
      other.rawEnd ≤ job.source.data.length := by
    refine inside other (List.mem_of_getElem? (i := before) ?_)
    rw [List.getElem?_take_of_lt (Nat.lt_succ_of_le le), otherEntry]
  refine ⟨Buffer.zeros (job.sectionStart index + 2 ^ 32), (misses_run_iff planned).2
    ⟨headersInside, Nat.le_trans start (Nat.le_add_right _ _), index, entry, sourceEntry, ?_, ?_⟩⟩
  · intro before other lt otherEntry
    refine ⟨rawInside (Nat.le_of_lt lt) otherEntry, ?_, fun stored mem =>
      ⟨earlier before lt stored mem, room (Nat.le_of_lt lt) mem⟩⟩
    exact Nat.add_le_add (sectionStart_le (Nat.le_of_lt lt)) (Nat.le_of_lt other.rawSize.toNat_lt)
  · refine ⟨rawInside (Nat.le_refl index) sourceEntry, ?_,
      ⟨front, placement, back, parts, fun stored mem => ⟨available stored mem, ?_⟩, rfl⟩, missing⟩
    · exact Nat.add_le_add_left (Nat.le_of_lt entry.rawSize.toNat_lt) _
    · refine room (Nat.le_refl index) ?_
      rw [parts]
      exact List.mem_append_left _ mem

end CopyJob
end ImageDump
