import Mathlib.Algebra.Group.Nat.Defs
import ImageDump.Output.Copy
import ImageDump.Proofs.Placement

/-!
# The layout of a copy

Where the sections of a copy go, and how large they become, follows from the
source and the plan alone. A section starts at the aligned end of the one before
it. Storing a region of uninitialized data makes the raw data of its section
reach to the aligned end of the region; since the size of the raw data is kept
in a header field of 32 bits, the next region of the same section starts from
that size modulo `2 ^ 32`. `Plan.storedSize` is the size that results, and
`Plan.storedSize_eq` its closed form as long as every aligned end fits into the
field.
-/

namespace ImageDump

/-! ## Growing sections -/

namespace Placement

/-- Size of the raw data of a section after a region is stored in it, if it was
`size` before. -/
def resize (alignment size : Nat) (placement : Placement) : Nat :=
  max (if placement.isGrowing then alignUp placement.stop alignment else 0) (size % 2 ^ 32)

/-- Header of a section that starts at `start` after a region is stored in
it. -/
def grow (alignment start : Nat) (header : SectionHeader) (placement : Placement) :
    SectionHeader :=
  if placement.isGrowing then
    { header with
      rawPointer := UInt32.ofNat start
      rawSize := UInt32.ofNat (placement.resize alignment header.rawSize.toNat) }.markDumped
  else header

/-- The largest end of a growing placement, counted from the start of its
section, and zero if there is none. -/
def furthest : List Placement → Nat
  | [] => 0
  | placement :: rest =>
    if placement.isGrowing then max placement.stop (furthest rest) else furthest rest

end Placement

namespace Plan

/-- The regions that make a section grow, in the order in which they are stored. -/
def growingIn (plan : Plan) (index : Nat) : List Placement :=
  (plan.bss.toList ++ plan.staticBss.toList).filter (·.owner == index)

/-- Some region makes the section grow. -/
def grows (plan : Plan) (index : Nat) : Bool :=
  (plan.placementsIn index).any (·.isGrowing)

/-- How far the regions that make the section grow reach, counted from its
start. -/
def reach (plan : Plan) (index : Nat) : Nat :=
  Placement.furthest (plan.placementsIn index)

/-- Size of the raw data of a section once all its regions are stored. -/
def storedSize (plan : Plan) (alignment index rawSize : Nat) : Nat :=
  (plan.placementsIn index).foldl (Placement.resize alignment) rawSize

end Plan

namespace CopyJob

/-- Size of the raw data of a section of the source. -/
def rawSize (job : CopyJob) (index : Nat) : Nat :=
  (job.source.sections[index]?.map (·.rawSize.toNat)).getD 0

/-- Size of the raw data of a section of the copy. -/
def storedSize (job : CopyJob) (index : Nat) : Nat :=
  job.plan.storedSize job.alignment index (job.rawSize index)

/-- Where a section of the copy starts. -/
def sectionStart (job : CopyJob) : Nat → Nat
  | 0 => alignUp job.source.offsets.sectionsEnd job.alignment
  | index + 1 => job.sectionStart index + alignUp (job.storedSize index) job.alignment

/-- Header of a section of the copy. -/
def destination (job : CopyJob) (index : Nat) (entry : SectionHeader) : SectionHeader :=
  let placed := { entry with
    rawPointer :=
      if entry.hasRawData || job.plan.grows index then UInt32.ofNat (job.sectionStart index)
      else entry.rawPointer
    rawSize := UInt32.ofNat (job.storedSize index) }
  if job.plan.grows index then placed.markDumped else placed

end CopyJob

/-! ## The stored size -/

namespace Placement

theorem resize_mod (alignment size : Nat) (placement : Placement) :
    placement.resize alignment (size % 2 ^ 32) = placement.resize alignment size := by
  simp only [resize, Nat.mod_mod]

theorem foldl_resize_mod {alignment size : Nat} {placements : List Placement}
    (nonempty : placements ≠ []) :
    placements.foldl (resize alignment) (size % 2 ^ 32) =
      placements.foldl (resize alignment) size := by
  cases placements with
  | nil => exact absurd rfl nonempty
  | cons first rest => rw [List.foldl_cons, List.foldl_cons, resize_mod]

/-- Nothing that is stored reaches beyond a common bound of all aligned ends and
of the size before. -/
theorem foldl_resize_le {alignment size bound : Nat} {placements : List Placement}
    (sizeLe : size ≤ bound)
    (stopLe : ∀ placement ∈ placements, alignUp placement.stop alignment ≤ bound) :
    placements.foldl (resize alignment) size ≤ bound := by
  induction placements generalizing size with
  | nil => exact sizeLe
  | cons first rest ih =>
    rw [List.foldl_cons]
    refine ih ?_ fun placement mem => stopLe placement (List.mem_cons_of_mem first mem)
    have firstLe := stopLe first List.mem_cons_self
    have modLe : size % 2 ^ 32 ≤ size := Nat.mod_le size _
    unfold resize
    split <;> omega

/-- As long as every aligned end fits into 32 bits, the size after storing all
regions is the largest of those ends and the size before. -/
theorem foldl_resize_eq {alignment size : Nat} {placements : List Placement}
    (positive : 0 < alignment) (small : size < 2 ^ 32)
    (fits : alignUp (furthest placements) alignment < 2 ^ 32) :
    placements.foldl (resize alignment) size =
      max size (alignUp (furthest placements) alignment) := by
  induction placements generalizing size with
  | nil => simp [furthest]
  | cons first rest ih =>
    rw [List.foldl_cons]
    by_cases growing : first.isGrowing = true
    · rw [furthest, if_pos growing, alignUp_max positive] at fits ⊢
      have resized : first.resize alignment size = max (alignUp first.stop alignment) size := by
        rw [resize, if_pos growing, Nat.mod_eq_of_lt small]
      rw [resized, ih (by omega) (by omega)]
      omega
    · rw [furthest, if_neg growing] at fits ⊢
      have resized : first.resize alignment size = size := by
        rw [resize, if_neg growing, Nat.mod_eq_of_lt small, Nat.zero_max]
      rw [resized, ih small fits]

/-- Regions that do not make the section grow leave its size. -/
theorem foldl_resize_of_still {alignment size : Nat} {placements : List Placement}
    (small : size < 2 ^ 32) (still : ∀ placement ∈ placements, ¬placement.isGrowing = true) :
    placements.foldl (resize alignment) size = size := by
  induction placements with
  | nil => rfl
  | cons first rest ih =>
    obtain ⟨firstStill, others⟩ := List.forall_mem_cons.1 still
    have kept : first.resize alignment size = size := by
      rw [resize, if_neg firstStill, Nat.zero_max, Nat.mod_eq_of_lt small]
    rw [List.foldl_cons, kept, ih others]

theorem dvd_resize {alignment size : Nat} (positive : 0 < alignment) (divides : alignment ∣ 2 ^ 32)
    (aligned : alignment ∣ size) (placement : Placement) :
    alignment ∣ placement.resize alignment size := by
  have kept : alignment ∣ size % 2 ^ 32 := (Nat.dvd_mod_iff divides).2 aligned
  have stop : alignment ∣ if placement.isGrowing then alignUp placement.stop alignment else 0 := by
    split
    · exact dvd_alignUp positive
    · exact Nat.dvd_zero alignment
  unfold resize
  rcases Nat.le_total (if placement.isGrowing then alignUp placement.stop alignment else 0)
    (size % 2 ^ 32) with le | le
  · rwa [Nat.max_eq_right le]
  · rwa [Nat.max_eq_left le]

theorem dvd_foldl_resize {alignment size : Nat} (positive : 0 < alignment)
    (divides : alignment ∣ 2 ^ 32) (aligned : alignment ∣ size) (placements : List Placement) :
    alignment ∣ placements.foldl (resize alignment) size := by
  induction placements generalizing size with
  | nil => exact aligned
  | cons first rest ih => exact ih (dvd_resize positive divides aligned first)

/-- The size of a section becomes a multiple of the alignment, or stays as it was because no
region reaches beyond it. -/
theorem dvd_foldl_resize_or {alignment size : Nat} {placements : List Placement}
    (positive : 0 < alignment) (divides : alignment ∣ 2 ^ 32) (small : size < 2 ^ 32) :
    alignment ∣ placements.foldl (resize alignment) size ∨
      placements.foldl (resize alignment) size = size ∧
        ∀ placement ∈ placements, placement.isGrowing = true → placement.stop ≤ size := by
  induction placements with
  | nil => exact .inr ⟨rfl, nofun⟩
  | cons first rest ih =>
    rw [List.foldl_cons]
    by_cases beyond : first.isGrowing = true ∧ size < alignUp first.stop alignment
    · -- from here on the size is a multiple of the alignment
      have resized : first.resize alignment size = alignUp first.stop alignment := by
        rw [resize, if_pos beyond.1, Nat.mod_eq_of_lt small,
          Nat.max_eq_left (Nat.le_of_lt beyond.2)]
      have aligned : alignment ∣ first.resize alignment size := resized ▸ dvd_alignUp positive
      exact .inl (dvd_foldl_resize positive divides aligned rest)
    · have resized : first.resize alignment size = size := by
        rw [resize, Nat.mod_eq_of_lt small]
        split
        · rename_i growing
          exact Nat.max_eq_right (Nat.le_of_not_lt fun lt => beyond ⟨growing, lt⟩)
        · exact Nat.zero_max size
      rw [resized]
      rcases ih with aligned | ⟨same, within⟩
      · exact .inl aligned
      · refine .inr ⟨same, List.forall_mem_cons.2 ⟨fun growing => ?_, within⟩⟩
        exact Nat.le_trans (le_alignUp positive)
          (Nat.le_of_not_lt fun lt => beyond ⟨growing, lt⟩)

theorem stop_le_furthest {placement : Placement} {placements : List Placement}
    (mem : placement ∈ placements) (growing : placement.isGrowing = true) :
    placement.stop ≤ furthest placements := by
  induction placements with
  | nil => cases mem
  | cons first rest ih =>
    unfold furthest
    rcases List.mem_cons.1 mem with rfl | later
    · rw [if_pos growing]
      exact Nat.le_max_left _ _
    · have le := ih later
      split
      · exact Nat.le_trans le (Nat.le_max_right _ _)
      · exact le

theorem furthest_append_of_still {before after : List Placement}
    (still : ∀ placement ∈ before, ¬placement.isGrowing = true) :
    furthest (before ++ after) = furthest after := by
  induction before with
  | nil => rfl
  | cons first rest ih =>
    rw [List.cons_append, furthest, if_neg (still first List.mem_cons_self),
      ih fun placement mem => still placement (List.mem_cons_of_mem first mem)]

/-- A single placement is stored whole, however far it reaches. -/
theorem alignUp_furthest_le_foldl {alignment size : Nat} {placements : List Placement}
    (alone : placements.length ≤ 1) :
    alignUp (furthest placements) alignment ≤ placements.foldl (resize alignment) size := by
  match placements, alone with
  | [], _ =>
    rw [furthest, alignUp_zero]
    exact Nat.zero_le _
  | [only], _ =>
    rw [List.foldl_cons, List.foldl_nil, resize, furthest, furthest, Nat.max_zero]
    split
    · exact Nat.le_max_left _ _
    · rw [alignUp_zero]
      exact Nat.zero_le _

theorem le_foldl_resize {alignment size : Nat} {placements : List Placement}
    (small : size < 2 ^ 32) (alone : placements.length ≤ 1) :
    size ≤ placements.foldl (resize alignment) size := by
  match placements, alone with
  | [], _ => exact Nat.le_refl _
  | [only], _ =>
    rw [List.foldl_cons, List.foldl_nil, resize, Nat.mod_eq_of_lt small]
    exact Nat.le_max_right _ _

/-- A bound of all growing placements bounds how far they reach. -/
theorem furthest_le {bound : Nat} {placements : List Placement}
    (bounded : ∀ placement ∈ placements, placement.isGrowing = true → placement.stop ≤ bound) :
    furthest placements ≤ bound := by
  induction placements with
  | nil => exact Nat.zero_le bound
  | cons first rest ih =>
    have restLe := ih fun placement mem => bounded placement (List.mem_cons_of_mem first mem)
    unfold furthest
    split
    · rename_i growing
      exact Nat.max_le.2 ⟨bounded first List.mem_cons_self growing, restLe⟩
    · exact restLe

end Placement

namespace Plan

variable {plan : Plan} {alignment index : Nat}

/-- The closed form of the stored size. -/
theorem storedSize_eq {rawSize : Nat} (positive : 0 < alignment) (small : rawSize < 2 ^ 32)
    (fits : alignUp (plan.reach index) alignment < 2 ^ 32) :
    plan.storedSize alignment index rawSize = max rawSize (alignUp (plan.reach index) alignment) :=
  Placement.foldl_resize_eq positive small fits

theorem stop_le_reach {placement : Placement} (mem : placement ∈ plan.placementsIn index)
    (growing : placement.isGrowing = true) : placement.stop ≤ plan.reach index :=
  Placement.stop_le_furthest mem growing

theorem reach_eq_zero (still : plan.grows index = false) : plan.reach index = 0 := by
  rw [grows, List.any_eq_false] at still
  exact Nat.le_zero.1 (Placement.furthest_le fun placement mem growing =>
    absurd growing (still placement mem))

theorem placementsIn_eq_append (plan : Plan) (index : Nat) :
    plan.placementsIn index =
      plan.data.toList.filter (·.owner == index) ++ plan.growingIn index := by
  rw [placementsIn, placements, List.append_assoc, List.filter_append, growingIn]

section Sound

variable {image : Image} {base : UInt64}

theorem Sound.still_data (sound : plan.Sound image base) :
    ∀ placement ∈ plan.data.toList.filter (·.owner == index), ¬placement.isGrowing = true := by
  intro placement mem growing
  rw [Placement.isGrowing_eq_true_iff] at growing
  exact growing (sound.data placement (Option.mem_toList.1 (List.mem_filter.1 mem).1)).1

theorem Sound.reach_eq_furthest (sound : plan.Sound image base) (index : Nat) :
    plan.reach index = Placement.furthest (plan.growingIn index) := by
  rw [reach, placementsIn_eq_append, Placement.furthest_append_of_still sound.still_data]

theorem Sound.storedSize_eq_foldl {rawSize : Nat} (sound : plan.Sound image base)
    (small : rawSize < 2 ^ 32) :
    plan.storedSize alignment index rawSize =
      (plan.growingIn index).foldl (Placement.resize alignment) rawSize := by
  rw [storedSize, placementsIn_eq_append, List.foldl_append,
    Placement.foldl_resize_of_still small sound.still_data]

/-- Two regions at most make sections grow. If one of them makes another section
grow, nothing of what is stored here is cut off. -/
theorem alignUp_reach_le_storedSize {other rawSize : Nat} (sound : plan.Sound image base)
    (grows : plan.grows other = true) (ne : index ≠ other) :
    alignUp (plan.reach index) alignment ≤ plan.storedSize alignment index rawSize := by
  -- the region that makes the other section grow
  obtain ⟨elsewhere, mem, growing⟩ := List.any_eq_true.1 grows
  rw [placementsIn_eq_append] at mem
  rcases List.mem_append.1 mem with data | mem
  · exact absurd growing (sound.still_data elsewhere data)
  obtain ⟨planMem, owner⟩ := List.mem_filter.1 mem
  have fewer : (plan.growingIn index).length <
      (plan.bss.toList ++ plan.staticBss.toList).length := by
    refine List.length_filter_lt_length_iff_exists.2 ⟨elsewhere, planMem, ?_⟩
    rw [beq_iff_eq] at owner ⊢
    rw [owner]
    exact ne.symm
  have two : (plan.bss.toList ++ plan.staticBss.toList).length ≤ 2 := by
    rw [List.length_append]
    have bss := Option.length_toList_le (o := plan.bss)
    have staticBss := Option.length_toList_le (o := plan.staticBss)
    omega
  rw [sound.reach_eq_furthest, storedSize, placementsIn_eq_append, List.foldl_append]
  exact Placement.alignUp_furthest_le_foldl (by omega)

end Sound

end Plan

/-! ## Where sections start -/

namespace CopyJob

variable {job : CopyJob} {index : Nat} {entry : SectionHeader}

theorem dvd_sectionStart (positive : 0 < job.alignment) (index : Nat) :
    job.alignment ∣ job.sectionStart index := by
  induction index with
  | zero => exact dvd_alignUp positive
  | succ index ih => exact Nat.dvd_add ih (dvd_alignUp positive)

/-- Sections start in table order. -/
theorem sectionStart_le {first second : Nat} (le : first ≤ second) :
    job.sectionStart first ≤ job.sectionStart second := by
  induction le with
  | refl => exact Nat.le_refl _
  | step _ ih => exact Nat.le_trans ih (Nat.le_add_right _ _)

/-! ## The headers of the copy -/

/-- A section keeps everything but the place of its raw data and, if it grows, its
content. -/
theorem destination_eq (entry : SectionHeader) :
    job.destination index entry =
      { entry with
        rawPointer := (job.destination index entry).rawPointer
        rawSize := (job.destination index entry).rawSize
        characteristics := (job.destination index entry).characteristics } := by
  unfold destination SectionHeader.markDumped
  cases job.plan.grows index <;> rfl

theorem characteristics_destination (still : job.plan.grows index = false) :
    (job.destination index entry).characteristics = entry.characteristics := by
  unfold destination
  rw [still]
  rfl

theorem toNat_rawSize_destination (small : job.storedSize index < 2 ^ 32) :
    (job.destination index entry).rawSize.toNat = job.storedSize index := by
  have field : (job.destination index entry).rawSize = UInt32.ofNat (job.storedSize index) := by
    unfold destination SectionHeader.markDumped
    cases job.plan.grows index <;> rfl
  rw [field, UInt32.toNat_ofNat_of_lt' small]

/-- A section of the copy has raw data if it had some in the source or if a
region made it grow. -/
theorem toNat_rawPointer_destination (small : job.sectionStart index < 2 ^ 32) :
    (job.destination index entry).rawPointer.toNat =
      if entry.hasRawData || job.plan.grows index then job.sectionStart index else 0 := by
  have field : (job.destination index entry).rawPointer =
      if entry.hasRawData || job.plan.grows index then UInt32.ofNat (job.sectionStart index)
      else entry.rawPointer := by
    unfold destination SectionHeader.markDumped
    cases job.plan.grows index <;> rfl
  rw [field]
  split
  · exact UInt32.toNat_ofNat_of_lt' small
  · rename_i noData
    rw [Bool.or_eq_true, not_or, Bool.not_eq_true] at noData
    rw [SectionHeader.hasRawData_eq_false_iff.1 noData.1]
    rfl

end CopyJob
end ImageDump
