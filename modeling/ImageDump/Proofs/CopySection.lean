import ImageDump.Proofs.Cursor
import ImageDump.Proofs.Layout

/-!
# Copying one section

The raw data of a section is copied, padded with zeros to the alignment, and
then written over by the regions planned for the section, in order. The section
header is moved to where the section starts now and grown by each region that
needs more room. `CopyJob.copySection_eq_ok_iff` states the outcome in closed form:
the header is `CopyJob.destination`, the cursor stands at the start of the next
section, and each byte of the output is `CopyJob.sectionByte`.
-/

namespace ImageDump

/-! ## Headers of grown sections -/

namespace SectionContent

/-- Marking characteristics as initialized twice is marking them once. -/
theorem apply_initialized_idem (characteristics : UInt32) :
    initialized.apply (initialized.apply characteristics) =
      initialized.apply characteristics := by
  simp only [apply]
  generalize ~~~(initializedFlag ||| uninitializedFlag) = mask
  apply UInt32.toBitVec_inj.1
  ext i
  simp only [UInt32.toBitVec_or, UInt32.toBitVec_and, BitVec.getElem_or, BitVec.getElem_and]
  cases characteristics.toBitVec[i] <;> cases mask.toBitVec[i] <;>
    cases initializedFlag.toBitVec[i] <;> rfl

end SectionContent

namespace Headers

variable {headers : Headers} {index : Nat} {header : SectionHeader}
  {f g : SectionHeader → SectionHeader}

theorem modifySection_id : headers.modifySection index id = headers := by
  rw [modifySection, List.modify_id]

theorem modifySection_modifySection :
    (headers.modifySection index f).modifySection index g =
      headers.modifySection index (g ∘ f) := by
  simp only [modifySection, List.modify_modify_eq]

theorem getElem?_modifySection (entry : headers.sections[index]? = some header) :
    (headers.modifySection index f).sections[index]? = some (f header) := by
  rw [modifySection, List.getElem?_modify_eq, entry]
  rfl

theorem getElem?_modifySection_ne {other : Nat} (ne : other ≠ index) :
    (headers.modifySection index f).sections[other]? = headers.sections[other]? :=
  List.getElem?_modify_ne f headers.sections (Ne.symm ne)

/-- Only the header that is there matters for a change. -/
theorem modifySection_congr (entry : headers.sections[index]? = some header)
    (same : f header = g header) :
    headers.modifySection index f = headers.modifySection index g := by
  unfold modifySection
  congr 1
  apply List.ext_getElem?
  intro i
  rw [List.getElem?_modify, List.getElem?_modify]
  by_cases sameIndex : index = i
  · subst sameIndex
    simp [entry, same]
  · simp [sameIndex]

end Headers

namespace SectionHeader

theorem markDumped_eq (header : SectionHeader) :
    header.markDumped =
      { header with characteristics :=
          SectionContent.initialized.apply header.characteristics } := by
  unfold markDumped SectionContent.dumped
  split <;> rfl

/-- The header of a section that starts at `start` and has its raw data there, if
it has any. -/
def moved (start : Nat) (header : SectionHeader) : SectionHeader :=
  if header.hasRawData then { header with rawPointer := UInt32.ofNat start } else header

end SectionHeader

namespace Placement

variable {alignment start : Nat} {header : SectionHeader} {placements : List Placement}

theorem ofNat_foldl_resize_mod (size : Nat) :
    UInt32.ofNat (placements.foldl (resize alignment) (size % 2 ^ 32)) =
      UInt32.ofNat (placements.foldl (resize alignment) size) := by
  by_cases empty : placements = []
  · subst empty
    apply UInt32.toNat_inj.1
    rw [List.foldl_nil, List.foldl_nil, UInt32.toNat_ofNat', UInt32.toNat_ofNat', Nat.mod_mod]
  · rw [foldl_resize_mod empty]

/-- Regions that do not make the section grow leave its size. -/
theorem ofNat_foldl_resize_of_still {size : Nat}
    (still : placements.any (·.isGrowing) = false) :
    UInt32.ofNat (placements.foldl (resize alignment) size) = UInt32.ofNat size := by
  induction placements generalizing size with
  | nil => rfl
  | cons first rest ih =>
    rw [List.any_cons, Bool.or_eq_false_iff] at still
    have kept : first.resize alignment size = size % 2 ^ 32 := by
      rw [resize, if_neg (Bool.eq_false_iff.1 still.1), Nat.zero_max]
    rw [List.foldl_cons, kept, ofNat_foldl_resize_mod, ih still.2]

theorem toNat_rawSize_grow (placement : Placement) :
    (grow alignment start header placement).rawSize.toNat =
      placement.resize alignment header.rawSize.toNat % 2 ^ 32 := by
  by_cases growing : placement.isGrowing = true
  · rw [grow, if_pos growing, SectionHeader.markDumped_eq, UInt32.toNat_ofNat']
  · rw [grow, if_neg growing, resize, if_neg growing, Nat.zero_max, Nat.mod_mod,
      Nat.mod_eq_of_lt header.rawSize.toNat_lt]

/-- The header after all regions of a section are stored. -/
theorem foldl_grow :
    placements.foldl (grow alignment start) header =
      if placements.any (·.isGrowing) then
        { header with
          rawPointer := UInt32.ofNat start
          rawSize := UInt32.ofNat
            (placements.foldl (resize alignment) header.rawSize.toNat) }.markDumped
      else header := by
  induction placements generalizing header with
  | nil => rfl
  | cons first rest ih =>
    rw [List.foldl_cons, ih, List.any_cons, List.foldl_cons]
    by_cases growing : first.isGrowing = true
    · have grown : grow alignment start header first =
          { header with
            rawPointer := UInt32.ofNat start
            rawSize := UInt32.ofNat
              (first.resize alignment header.rawSize.toNat) }.markDumped := if_pos growing
      rw [toNat_rawSize_grow, ofNat_foldl_resize_mod, grown]
      simp only [SectionHeader.markDumped_eq, SectionContent.apply_initialized_idem, growing,
        Bool.true_or, if_true]
      split
      · rfl
      · rename_i still
        rw [ofNat_foldl_resize_of_still (Bool.eq_false_iff.2 still)]
    · have same : grow alignment start header first = header := if_neg growing
      have kept : first.resize alignment header.rawSize.toNat =
          header.rawSize.toNat % 2 ^ 32 := by
        rw [resize, if_neg growing, Nat.zero_max]
      rw [same, kept, ofNat_foldl_resize_mod]
      simp only [Bool.not_eq_true] at growing
      simp only [growing, Bool.false_or]

end Placement

/-! ## Live bytes -/

/-- The live byte that a region has at a distance from the start of its
section. -/
def Placement.liveByte? (memory : MemoryImage) (position : Nat) (placement : Placement) :
    Option UInt8 :=
  if placement.offset ≤ position then
    (memory.read placement.region).bind (·[position - placement.offset]?)
  else none

/-- The live byte at a distance from the start of a section: that of the last
region stored there. -/
def Plan.liveByte? (plan : Plan) (memory : MemoryImage) (index position : Nat) :
    Option UInt8 :=
  (plan.placementsIn index).reverse.findSome? (·.liveByte? memory position)

/-- A region has no live byte from its end on. -/
theorem Placement.liveByte?_eq_none {memory : MemoryImage} {placement : Placement}
    {position : Nat} (exact : memory.Exact) (le : placement.stop ≤ position) :
    placement.liveByte? memory position = none := by
  unfold liveByte?
  split
  · cases answer : memory.read placement.region with
    | none => rfl
    | some bytes =>
      have length := exact _ _ answer
      have beyond : bytes.length ≤ position - placement.offset := by
        rw [length]
        unfold stop at le
        omega
      rw [Option.bind_some, List.getElem?_eq_none beyond]
  · rfl

theorem Plan.liveByte?_eq_none {plan : Plan} {memory : MemoryImage} {index position : Nat}
    (exact : memory.Exact)
    (le : ∀ placement ∈ plan.placementsIn index, placement.stop ≤ position) :
    plan.liveByte? memory index position = none := by
  unfold liveByte?
  rw [List.findSome?_eq_none_iff]
  intro placement mem
  exact Placement.liveByte?_eq_none exact (le placement (List.mem_reverse.1 mem))

/-- The output once a region is written over the raw data of a section that
starts at `start`. -/
def Placement.overlay (memory : MemoryImage) (start : Nat) (output : Buffer)
    (placement : Placement) : Buffer :=
  output.write (start + placement.offset) ((memory.read placement.region).getD [])

namespace Placement

variable {memory : MemoryImage} {output : Buffer} {start position : Nat}

/-- A region covers the bytes at its distance from the start of the section and
leaves all others. -/
theorem byte_overlay (le : start ≤ position) (placement : Placement) :
    (placement.overlay memory start output).byte position =
      (placement.liveByte? memory (position - start)).getD (output.byte position) := by
  unfold overlay liveByte?
  rw [Buffer.byte_write]
  cases memory.read placement.region with
  | none =>
    rw [if_neg (by simp)]
    split <;> rfl
  | some bytes =>
    by_cases after : placement.offset ≤ position - start
    · have distance : position - (start + placement.offset) =
          position - start - placement.offset := by omega
      rw [if_pos after, Option.getD_some, Option.bind_some, distance]
      by_cases inside : position - start - placement.offset < bytes.length
      · rw [if_pos (by omega), List.getElem?_eq_getElem inside]
        rfl
      · rw [if_neg (by omega), List.getElem?_eq_none (by omega)]
        rfl
    · rw [if_neg (by omega), if_neg after]
      rfl

theorem byte_overlay_of_lt (lt : position < start) (placement : Placement) :
    (placement.overlay memory start output).byte position = output.byte position := by
  unfold overlay
  rw [Buffer.byte_write, if_neg (by omega)]

@[simp] theorem size_foldl_overlay (placements : List Placement) :
    (placements.foldl (overlay memory start) output).size = output.size := by
  induction placements generalizing output with
  | nil => rfl
  | cons first rest ih =>
    rw [List.foldl_cons, ih]
    rfl

/-- Where regions overlap, the last one stored stays. -/
theorem byte_foldl_overlay (le : start ≤ position) (placements : List Placement) :
    (placements.foldl (overlay memory start) output).byte position =
      (placements.reverse.findSome? (·.liveByte? memory (position - start))).getD
        (output.byte position) := by
  induction placements generalizing output with
  | nil => rfl
  | cons first rest ih =>
    rw [List.foldl_cons, ih, byte_overlay le, List.reverse_cons, List.findSome?_append]
    cases rest.reverse.findSome? (·.liveByte? memory (position - start)) with
    | none => simp
    | some byte => rfl

theorem byte_foldl_overlay_of_lt (lt : position < start) (placements : List Placement) :
    (placements.foldl (overlay memory start) output).byte position = output.byte position := by
  induction placements generalizing output with
  | nil => rfl
  | cons first rest ih => rw [List.foldl_cons, ih, byte_overlay_of_lt lt]

end Placement

namespace CopyJob

variable {job : CopyJob} {index start : Nat} {state next : CopyState} {header : SectionHeader}

/-! ## Storing the regions -/

/-- The live bytes of a region are copied if they are available and fit into the
output. -/
theorem copyRegion_eq_ok_iff {memory : MemoryImage} (exact : memory.Exact) {cursor next : Cursor}
    {placement : Placement} :
    (cursor.seek (start + placement.offset)).copyMemory memory placement.region = .ok next ↔
      (memory.read placement.region).isSome = true ∧
        start + placement.stop ≤ cursor.output.size ∧
        next = {
          output := placement.overlay memory start cursor.output
          position := start + placement.stop } := by
  rw [Cursor.copyMemory_eq_ok_iff]
  simp only [Cursor.put_eq_ok_iff, Cursor.position_seek, Cursor.output_seek]
  constructor
  · intro ran
    rcases ran with ⟨bytes, answer, fits, rfl⟩
    have length := exact _ _ answer
    rw [length, Nat.add_assoc] at fits
    refine ⟨Option.isSome_of_mem answer, fits, ?_⟩
    rw [length, Nat.add_assoc, Placement.overlay, answer]
    rfl
  · intro holds
    rcases holds with ⟨available, fits, rfl⟩
    obtain ⟨bytes, answer⟩ := Option.isSome_iff_exists.1 available
    have length := exact _ _ answer
    refine ⟨bytes, answer, ?_, ?_⟩
    · rw [length, Nat.add_assoc]
      exact fits
    · rw [length, Nat.add_assoc, Placement.overlay, answer]
      rfl

/-- A region is stored if its bytes are available and fit into the output. The
section then ends where the region made it end. -/
theorem storeRegion_eq_ok_iff (exact : job.memory.Exact) (positive : 0 < job.alignment)
    (aligned : job.alignment ∣ start) (entry : state.headers.sections[index]? = some header)
    {placement : Placement} :
    job.storeRegion index start state placement = .ok next ↔
      (job.memory.read placement.region).isSome = true ∧
        start + placement.stop ≤ state.cursor.output.size ∧
        next = {
          headers := state.headers.modifySection index
            (placement.grow job.alignment start)
          cursor := {
            output := placement.overlay job.memory start state.cursor.output
            position := start + placement.resize job.alignment header.rawSize.toNat } } := by
  have rawSize : (state.headers.sections[index]?.map (·.rawSize.toNat)).getD 0 =
      header.rawSize.toNat := by
    rw [entry]
    rfl
  have small := header.rawSize.toNat_lt
  simp only [storeRegion, rawSize, bind_eq_ok_iff, copyRegion_eq_ok_iff exact]
  by_cases growing : placement.isGrowing = true
  · have stop : max (alignUp (start + placement.stop) job.alignment)
          (start + header.rawSize.toNat) =
        start + placement.resize job.alignment header.rawSize.toNat := by
      rw [alignUp_add_of_dvd aligned, Placement.resize, if_pos growing, Nat.mod_eq_of_lt small,
        Nat.add_max_add_left]
    have grown : state.headers.modifySection index (fun other =>
          { other with
            rawPointer := UInt32.ofNat start
            rawSize := UInt32.ofNat (start +
              placement.resize job.alignment header.rawSize.toNat - start) }.markDumped) =
        state.headers.modifySection index (placement.grow job.alignment start) := by
      refine Headers.modifySection_congr entry ?_
      rw [Placement.grow, if_pos growing, Nat.add_sub_cancel_left]
    simp only [growing, if_true, bind_eq_ok_iff, Cursor.align_eq_ok_iff]
    constructor
    · intro ran
      rcases ran with ⟨_, ⟨available, fits, rfl⟩, _, ⟨-, rfl⟩, ⟨⟩⟩
      refine ⟨available, fits, ?_⟩
      simp only [Cursor.seek, stop, grown]
    · intro holds
      rcases holds with ⟨available, fits, rfl⟩
      refine ⟨_, ⟨available, fits, rfl⟩, _, ⟨positive, rfl⟩, ?_⟩
      simp only [Cursor.seek, stop, grown]
      rfl
  · have kept : placement.resize job.alignment header.rawSize.toNat = header.rawSize.toNat := by
      rw [Placement.resize, if_neg growing, Nat.zero_max, Nat.mod_eq_of_lt small]
    have still : state.headers.modifySection index (placement.grow job.alignment start) =
        state.headers := by
      have same : placement.grow job.alignment start = id := by
        funext header
        rw [Placement.grow, if_neg growing]
        rfl
      rw [same, Headers.modifySection_id]
    simp only [growing, kept, still]
    constructor
    · intro ran
      rcases ran with ⟨_, ⟨available, fits, rfl⟩, ⟨⟩⟩
      exact ⟨available, fits, rfl⟩
    · intro holds
      rcases holds with ⟨available, fits, rfl⟩
      exact ⟨_, ⟨available, fits, rfl⟩, rfl⟩

/-- All regions of a section are stored if each of them can be. -/
theorem foldlM_storeRegion_eq_ok_iff (exact : job.memory.Exact) (positive : 0 < job.alignment)
    (aligned : job.alignment ∣ start) (entry : state.headers.sections[index]? = some header)
    {placements : List Placement} :
    placements.foldlM (job.storeRegion index start) state = .ok next ↔
      (∀ placement ∈ placements, (job.memory.read placement.region).isSome = true ∧
        start + placement.stop ≤ state.cursor.output.size) ∧
      next = {
        headers := state.headers.modifySection index
          (placements.foldl (Placement.grow job.alignment start))
        cursor := {
          output := placements.foldl (Placement.overlay job.memory start) state.cursor.output
          position :=
            if placements.isEmpty then state.cursor.position
            else start +
              placements.foldl (Placement.resize job.alignment) header.rawSize.toNat } } := by
  induction placements generalizing state header with
  | nil =>
    have same : state.headers.modifySection index
        (([] : List Placement).foldl (Placement.grow job.alignment start)) = state.headers :=
      Headers.modifySection_id
    rw [List.foldlM_nil, same]
    constructor
    · intro unequal
      cases unequal
      exact ⟨nofun, rfl⟩
    · intro holds
      rcases holds with ⟨-, rfl⟩
      rfl
  | cons first rest ih =>
    -- the header that the remaining regions start from
    have grownEntry : (state.headers.modifySection index
        (first.grow job.alignment start)).sections[index]? =
          some (first.grow job.alignment start header) :=
      Headers.getElem?_modifySection entry
    have composed : (state.headers.modifySection index
          (first.grow job.alignment start)).modifySection index
            (rest.foldl (Placement.grow job.alignment start)) =
        state.headers.modifySection index
          ((first :: rest).foldl (Placement.grow job.alignment start)) :=
      Headers.modifySection_modifySection
    have position : (if rest.isEmpty then
          start + first.resize job.alignment header.rawSize.toNat
        else start + rest.foldl (Placement.resize job.alignment)
          (first.grow job.alignment start header).rawSize.toNat) =
        start + (first :: rest).foldl (Placement.resize job.alignment) header.rawSize.toNat := by
      rw [List.foldl_cons, Placement.toNat_rawSize_grow]
      cases rest with
      | nil => rfl
      | cons second others => rw [Placement.foldl_resize_mod (List.cons_ne_nil _ _)]; rfl
    rw [List.foldlM_cons, bind_eq_ok_iff, List.forall_mem_cons]
    constructor
    · intro ran
      rcases ran with ⟨_, stored, others⟩
      obtain ⟨available, fits, rfl⟩ :=
        (storeRegion_eq_ok_iff exact positive aligned entry).1 stored
      obtain ⟨rest, rfl⟩ := (ih grownEntry).1 others
      refine ⟨⟨⟨available, fits⟩, rest⟩, ?_⟩
      rw [composed, position]
      rfl
    · intro holds
      rcases holds with ⟨⟨⟨available, fits⟩, rest⟩, rfl⟩
      refine ⟨_, (storeRegion_eq_ok_iff exact positive aligned entry).2
        ⟨available, fits, rfl⟩, (ih grownEntry).2 ⟨rest, ?_⟩⟩
      rw [composed, position]
      rfl

/-! ## The whole section -/

/-- The output once the section with this source header is copied to `start` and
its regions are stored. -/
def sectionOutput (job : CopyJob) (index start : Nat) (entry : SectionHeader)
    (output : Buffer) : Buffer :=
  let rawSize := entry.rawSize.toNat
  let copied := output.write start (job.source.data.slice entry.rawPointer.toNat rawSize)
  let padded := copied.clear (start + rawSize) (start + alignUp rawSize job.alignment)
  (job.plan.placementsIn index).foldl (Placement.overlay job.memory start) padded

/-- Byte of a section of the copy at a distance from its start, where the output
held `old` before. -/
def sectionByte (job : CopyJob) (index : Nat) (entry : SectionHeader) (old : UInt8)
    (position : Nat) : UInt8 :=
  (job.plan.liveByte? job.memory index position).getD <|
    if position < entry.rawSize.toNat then
      job.source.data[entry.rawPointer.toNat + position]?.getD 0
    else if position < alignUp entry.rawSize.toNat job.alignment then 0
    else old

/-- All that the copy of a section needs: its raw data lies in the source, the
copy of it fits into the output, and every region of the section is available
and fits as well. -/
structure Copyable (job : CopyJob) (index start size : Nat) (entry : SectionHeader) : Prop where
  inside : entry.rawEnd ≤ job.source.data.length
  fits : start + entry.rawSize.toNat ≤ size
  regions : ∀ placement ∈ job.plan.placementsIn index,
    (job.memory.read placement.region).isSome = true ∧ start + placement.stop ≤ size

theorem storedSize_of_getElem? {entry : SectionHeader}
    (sourceEntry : job.source.sections[index]? = some entry) :
    job.storedSize index =
      (job.plan.placementsIn index).foldl (Placement.resize job.alignment)
        entry.rawSize.toNat := by
  rw [storedSize, Plan.storedSize, rawSize, sourceEntry]
  rfl

/-- Moving a header and growing it by every region of its section gives the
header of the copy. -/
theorem foldl_grow_moved {entry : SectionHeader}
    (sourceEntry : job.source.sections[index]? = some entry) :
    (job.plan.placementsIn index).foldl
        (Placement.grow job.alignment (job.sectionStart index))
        (entry.moved (job.sectionStart index)) =
      job.destination index entry := by
  have stored := storedSize_of_getElem? sourceEntry
  have movedSize : (entry.moved (job.sectionStart index)).rawSize = entry.rawSize := by
    unfold SectionHeader.moved
    split <;> rfl
  rw [Placement.foldl_grow, movedSize, ← stored]
  unfold destination Plan.grows
  cases grows : (job.plan.placementsIn index).any (·.isGrowing) with
  | true =>
    simp only [if_true, Bool.or_true]
    unfold SectionHeader.moved
    split <;> rfl
  | false =>
    have kept : UInt32.ofNat (job.storedSize index) = entry.rawSize := by
      rw [stored, Placement.ofNat_foldl_resize_of_still grows, UInt32.ofNat_toNat]
    simp only [Bool.false_eq_true, if_false, Bool.or_false, kept]
    unfold SectionHeader.moved
    split <;> rfl

theorem copySection_eq_ok_iff {entry : SectionHeader} (exact : job.memory.Exact)
    (positive : 0 < job.alignment) (sourceEntry : job.source.sections[index]? = some entry)
    (stateEntry : state.headers.sections[index]? = some entry)
    (starts : state.cursor.position = job.sectionStart index) :
    job.copySection index state = .ok next ↔
      job.Copyable index (job.sectionStart index) state.cursor.output.size entry ∧
      next = {
        headers := state.headers.modifySection index fun _ => job.destination index entry
        cursor := {
          output := job.sectionOutput index (job.sectionStart index) entry state.cursor.output
          position := job.sectionStart (index + 1) } } := by
  have aligned : job.alignment ∣ job.sectionStart index := dvd_sectionStart positive index
  have stored := storedSize_of_getElem? sourceEntry
  have movedEntry : (state.headers.modifySection index
      (SectionHeader.moved (job.sectionStart index))).sections[index]? =
        some (entry.moved (job.sectionStart index)) :=
    Headers.getElem?_modifySection stateEntry
  have movedSize : (entry.moved (job.sectionStart index)).rawSize = entry.rawSize := by
    unfold SectionHeader.moved
    split <;> rfl
  have headers : (state.headers.modifySection index
        (SectionHeader.moved (job.sectionStart index))).modifySection index
          ((job.plan.placementsIn index).foldl
            (Placement.grow job.alignment (job.sectionStart index))) =
      state.headers.modifySection index fun _ => job.destination index entry := by
    rw [Headers.modifySection_modifySection]
    exact Headers.modifySection_congr stateEntry (foldl_grow_moved sourceEntry)
  have stops : alignUp (if (job.plan.placementsIn index).isEmpty then
        alignUp (job.sectionStart index + entry.rawSize.toNat) job.alignment
      else job.sectionStart index +
        (job.plan.placementsIn index).foldl (Placement.resize job.alignment)
          (entry.moved (job.sectionStart index)).rawSize.toNat) job.alignment =
      job.sectionStart (index + 1) := by
    rw [movedSize, ← stored]
    split
    · rename_i empty
      rw [List.isEmpty_iff.1 empty] at stored
      rw [alignUp_alignUp positive, alignUp_add_of_dvd aligned, sectionStart, stored]
      rfl
    · rw [alignUp_add_of_dvd aligned, sectionStart]
  have output : (job.plan.placementsIn index).foldl
        (Placement.overlay job.memory (job.sectionStart index))
        ((state.cursor.output.write (job.sectionStart index)
            (job.source.data.slice entry.rawPointer.toNat entry.rawSize.toNat)).clear
          (job.sectionStart index + entry.rawSize.toNat)
          (alignUp (job.sectionStart index + entry.rawSize.toNat) job.alignment)) =
      job.sectionOutput index (job.sectionStart index) entry state.cursor.output := by
    rw [alignUp_add_of_dvd aligned]
    rfl
  simp only [copySection, sourceEntry, bind_eq_ok_iff, Cursor.copySource_eq_ok_iff,
    Cursor.alignZeroed_eq_ok_iff, Cursor.align_eq_ok_iff, starts]
  constructor
  · intro ran
    rcases ran with ⟨_, ⟨inside, fits, rfl⟩, _, ⟨-, rfl⟩, _, regionsStored, _, ⟨-, rfl⟩, ⟨⟩⟩
    obtain ⟨regions, rfl⟩ :=
      (foldlM_storeRegion_eq_ok_iff exact positive aligned movedEntry).1 regionsStored
    exact ⟨⟨inside, fits, regions⟩,
      congr (congrArg CopyState.mk headers) (congr (congrArg Cursor.mk output) stops)⟩
  · intro holds
    rcases holds with ⟨copyable, rfl⟩
    refine ⟨_, ⟨copyable.inside, copyable.fits, rfl⟩, _, ⟨positive, rfl⟩, _,
      (foldlM_storeRegion_eq_ok_iff exact positive aligned movedEntry).2
        ⟨copyable.regions, rfl⟩, _, ⟨positive, rfl⟩, ?_⟩
    exact congrArg Except.ok
      (congr (congrArg CopyState.mk headers) (congr (congrArg Cursor.mk output) stops))

/-- Nothing in front of a section changes when it is copied. -/
theorem byte_sectionOutput_of_lt {entry : SectionHeader} {output : Buffer} {position : Nat}
    (lt : position < start) :
    (job.sectionOutput index start entry output).byte position = output.byte position := by
  unfold sectionOutput
  rw [Placement.byte_foldl_overlay_of_lt lt, Buffer.byte_clear, if_neg (by omega),
    Buffer.byte_write, if_neg (by omega)]

/-- From its start on, the bytes of a section are those that the copy puts
there. -/
theorem byte_sectionOutput {entry : SectionHeader} {output : Buffer} {position : Nat}
    (inside : entry.rawEnd ≤ job.source.data.length) (le : start ≤ position) :
    (job.sectionOutput index start entry output).byte position =
      job.sectionByte index entry (output.byte position) (position - start) := by
  have length := Bytes.length_slice_of_le inside
  unfold sectionOutput sectionByte Plan.liveByte?
  rw [Placement.byte_foldl_overlay le, Buffer.byte_clear, Buffer.byte_write, length]
  congr 1
  by_cases raw : position - start < entry.rawSize.toNat
  · rw [if_neg (by omega), if_pos (by omega), if_pos raw, Bytes.getElem?_slice raw]
  · rw [if_neg raw]
    by_cases padding : position - start < alignUp entry.rawSize.toNat job.alignment
    · rw [if_pos padding, if_pos (by omega)]
    · rw [if_neg padding, if_neg (by omega), if_neg (by omega)]

theorem size_sectionOutput {entry : SectionHeader} {output : Buffer} :
    (job.sectionOutput index start entry output).size = output.size :=
  Placement.size_foldl_overlay _

end CopyJob
end ImageDump
