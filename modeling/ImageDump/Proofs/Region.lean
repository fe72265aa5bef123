import ImageDump.Memory.Region

/-!
# Overlap and union of regions

Both are computed from ends that are clipped to the highest address. What they say is
therefore exact below the highest address: two regions overlap if they share an address
other than that one (`overlaps_eq_true_iff`), and their union reaches from the smaller
start to the later clipped end (`mem_union_iff`). A region whose end is itself an address
does not contain the highest address, so nothing is lost of such regions
(`overlaps_of_mem`, `mem_union_left`, `mem_union_right`). For regions that do contain it, a
union lacks that address alone (`mem_union_iff_between`).
-/

namespace ImageDump
namespace Region

variable {a b : Region} {address : UInt64}

instance : Decidable (address ∈ a) := inferInstanceAs (Decidable (_ ∧ _))

theorem mem_iff : address ∈ a ↔ a.start.toNat ≤ address.toNat ∧ address.toNat < a.stop := Iff.rfl

theorem isEmpty_eq_false_iff : a.isEmpty = false ↔ 0 < a.size.toNat := by
  rw [isEmpty, beq_eq_false_iff_ne, ne_eq, ← UInt64.toNat_inj, UInt64.toNat_zero,
    Nat.pos_iff_ne_zero]

theorem isEmpty_eq_false_of_mem (mem : address ∈ a) : a.isEmpty = false := by
  obtain ⟨le, lt⟩ := mem_iff.1 mem
  rw [stop] at lt
  rw [isEmpty_eq_false_iff]
  omega

theorem start_mem (nonempty : a.isEmpty = false) : a.start ∈ a := by
  rw [isEmpty_eq_false_iff] at nonempty
  exact mem_iff.2 ⟨Nat.le_refl _, Nat.lt_add_of_pos_right nonempty⟩

/-- A region that ends at an address is part of another one if its boundaries are. -/
theorem forall_mem_iff (nonempty : a.isEmpty = false) (below : a.stop < addressSpace) :
    (∀ address ∈ a, address ∈ b) ↔ b.start.toNat ≤ a.start.toNat ∧ a.stop ≤ b.stop := by
  rw [isEmpty_eq_false_iff] at nonempty
  constructor
  · intro inside
    have last : (UInt64.ofNat (a.stop - 1)).toNat = a.stop - 1 := by
      rw [UInt64.toNat_ofNat', Nat.mod_eq_of_lt]
      rw [addressSpace] at below
      omega
    have firstMem := inside a.start (start_mem (isEmpty_eq_false_iff.2 nonempty))
    have lastMem := inside (UInt64.ofNat (a.stop - 1)) (by rw [mem_iff, last, stop]; omega)
    rw [mem_iff] at firstMem lastMem
    omega
  · rintro ⟨start, stop⟩ address mem
    rw [mem_iff] at mem ⊢
    omega

/-- An end that is itself an address is not clipped. -/
theorem ceiling_eq_stop (below : a.stop < addressSpace) : a.ceiling = a.stop := by
  rw [ceiling, Nat.min_eq_left]
  omega

theorem lt_ceiling_iff {n : Nat} : n < a.ceiling ↔ n < a.stop ∧ n < addressSpace - 1 :=
  Nat.lt_min

theorem start_le_ceiling : a.start.toNat ≤ a.ceiling := by
  have start := a.start.toNat_lt
  simp only [ceiling, stop, addressSpace]
  omega

/-! ## Overlap -/

theorem nonempty_of_overlaps (overlaps : a.overlaps b = true) :
    a.isEmpty = false ∧ b.isEmpty = false := by
  unfold Region.overlaps at overlaps
  split at overlaps
  · cases overlaps
  · rename_i nonempty
    simpa using nonempty

/-- Regions overlap if they share an address below the highest one. -/
theorem overlaps_eq_true_iff :
    a.overlaps b = true ↔
      ∃ address, address ∈ a ∧ address ∈ b ∧ address.toNat < addressSpace - 1 := by
  constructor
  · intro overlaps
    obtain ⟨nonemptyA, nonemptyB⟩ := nonempty_of_overlaps overlaps
    unfold Region.overlaps at overlaps
    rw [nonemptyA, nonemptyB] at overlaps
    -- the later start belongs to both
    by_cases order : a.start < b.start
    · have inside : b.start.toNat < a.ceiling := by simpa [order] using overlaps
      rw [lt_ceiling_iff] at inside
      rw [UInt64.lt_iff_toNat_lt] at order
      refine ⟨b.start, ?_, ?_, inside.2⟩
      · exact mem_iff.2 ⟨Nat.le_of_lt order, inside.1⟩
      · exact start_mem nonemptyB
    · have inside : a.start.toNat < b.ceiling := by simpa [order] using overlaps
      rw [lt_ceiling_iff] at inside
      rw [UInt64.lt_iff_toNat_lt, Nat.not_lt] at order
      refine ⟨a.start, ?_, ?_, inside.2⟩
      · exact start_mem nonemptyA
      · exact mem_iff.2 ⟨order, inside.1⟩
  · rintro ⟨address, memA, memB, below⟩
    have nonemptyA := isEmpty_eq_false_of_mem memA
    have nonemptyB := isEmpty_eq_false_of_mem memB
    rw [mem_iff] at memA memB
    have insideA : address.toNat < a.ceiling := lt_ceiling_iff.2 ⟨memA.2, below⟩
    have insideB : address.toNat < b.ceiling := lt_ceiling_iff.2 ⟨memB.2, below⟩
    unfold Region.overlaps
    rw [nonemptyA, nonemptyB]
    by_cases order : a.start < b.start
    · simp only [order, Bool.or_false, Bool.false_eq_true, if_false, if_true, decide_eq_true_eq]
      exact Nat.lt_of_le_of_lt memB.1 insideA
    · simp only [order, Bool.or_false, Bool.false_eq_true, if_false, decide_eq_true_eq]
      exact Nat.lt_of_le_of_lt memA.1 insideB

/-- A region that ends at an address overlaps every region with which it shares one. -/
theorem overlaps_of_mem (below : a.stop < addressSpace) (memA : address ∈ a)
    (memB : address ∈ b) : a.overlaps b = true := by
  have lt := (mem_iff.1 memA).2
  exact overlaps_eq_true_iff.2 ⟨address, memA, memB, by omega⟩

/-! ## Union -/

theorem toNat_start_union (a b : Region) :
    (a.union b).start.toNat = min a.start.toNat b.start.toNat := by
  change (if a.start ≤ b.start then a.start else b.start).toNat = _
  split
  · rename_i le
    exact (Nat.min_eq_left (UInt64.le_iff_toNat_le.1 le)).symm
  · rename_i notLe
    rw [UInt64.le_iff_toNat_le] at notLe
    omega

theorem stop_union_eq (a b : Region) : (a.union b).stop = max a.ceiling b.ceiling := by
  have start := toNat_start_union a b
  have startA := a.start_le_ceiling
  have size : (a.union b).size.toNat = max a.ceiling b.ceiling - (a.union b).start.toNat := by
    change (UInt64.ofNat (max a.ceiling b.ceiling - (a.union b).start.toNat)).toNat = _
    rw [UInt64.toNat_ofNat']
    simp only [ceiling, addressSpace]
    omega
  rw [stop]
  omega

/-- Two regions that end below the top of the address space have a union that
ends where the later one does. -/
theorem stop_union (belowA : a.stop < addressSpace) (belowB : b.stop < addressSpace) :
    (a.union b).stop = max a.stop b.stop := by
  rw [stop_union_eq, ceiling_eq_stop belowA, ceiling_eq_stop belowB]

theorem union_comm (a b : Region) : a.union b = b.union a := by
  have start : (a.union b).start = (b.union a).start := by
    rw [← UInt64.toNat_inj, toNat_start_union, toNat_start_union, Nat.min_comm]
  have size : (a.union b).size = (b.union a).size := by
    change UInt64.ofNat (max a.ceiling b.ceiling - (a.union b).start.toNat) =
      UInt64.ofNat (max b.ceiling a.ceiling - (b.union a).start.toNat)
    rw [start, Nat.max_comm]
  calc a.union b = Region.mk (a.union b).start (a.union b).size := rfl
    _ = Region.mk (b.union a).start (b.union a).size := by rw [start, size]

/-- The union holds the addresses from the smaller start to the later end, as far as that is
not clipped. -/
theorem mem_union_iff :
    address ∈ a.union b ↔
      min a.start.toNat b.start.toNat ≤ address.toNat ∧
        address.toNat < max a.ceiling b.ceiling := by
  rw [mem_iff, toNat_start_union, stop_union_eq]

theorem mem_union_left (below : a.stop < addressSpace) (mem : address ∈ a) :
    address ∈ a.union b := by
  obtain ⟨le, lt⟩ := mem_iff.1 mem
  rw [mem_union_iff, ceiling_eq_stop below]
  exact ⟨Nat.le_trans (Nat.min_le_left _ _) le, Nat.lt_of_lt_of_le lt (Nat.le_max_left _ _)⟩

theorem mem_union_right (below : b.stop < addressSpace) (mem : address ∈ b) :
    address ∈ a.union b := by
  rw [union_comm]
  exact mem_union_left below mem

/-! ## Regions that reach the highest address -/

/-- The highest address. -/
def highestAddress : UInt64 := 0xffffffffffffffff

theorem lt_highest_iff : address.toNat < addressSpace - 1 ↔ address ≠ highestAddress := by
  have value : highestAddress.toNat = addressSpace - 1 := rfl
  have lt := address.toNat_lt
  rw [ne_eq, ← UInt64.toNat_inj, value]
  simp only [addressSpace]
  omega

theorem le_highest (address : UInt64) : address ≤ highestAddress := by
  have lt := address.toNat_lt
  have value : highestAddress.toNat = 2 ^ 64 - 1 := rfl
  rw [UInt64.le_iff_toNat_le, value]
  omega

/-- The address lies between the smaller start and the last address of either region. -/
def Between (a b : Region) (address : UInt64) : Prop :=
  min a.start.toNat b.start.toNat ≤ address.toNat ∧
    ∃ last, (last ∈ a ∨ last ∈ b) ∧ address ≤ last

/-- Some address of a region is not below an address if that one is below the end. -/
theorem exists_mem_ge_iff (nonempty : a.isEmpty = false) :
    (∃ last ∈ a, address ≤ last) ↔ address.toNat < a.stop := by
  constructor
  · rintro ⟨last, mem, le⟩
    exact Nat.lt_of_le_of_lt (UInt64.le_iff_toNat_le.1 le) (mem_iff.1 mem).2
  · intro lt
    by_cases order : a.start ≤ address
    · exact ⟨address, mem_iff.2 ⟨UInt64.le_iff_toNat_le.1 order, lt⟩, UInt64.le_refl _⟩
    · rw [UInt64.not_le] at order
      exact ⟨a.start, start_mem nonempty, UInt64.le_of_lt order⟩

section

variable (nonemptyA : a.isEmpty = false) (nonemptyB : b.isEmpty = false)
include nonemptyA nonemptyB

theorem between_iff :
    Between a b address ↔
      min a.start.toNat b.start.toNat ≤ address.toNat ∧ address.toNat < max a.stop b.stop := by
  have splits : (∃ last, (last ∈ a ∨ last ∈ b) ∧ address ≤ last) ↔
      (∃ last ∈ a, address ≤ last) ∨ ∃ last ∈ b, address ≤ last := by
    simp only [or_and_right, exists_or]
  rw [Between, splits, exists_mem_ge_iff nonemptyA, exists_mem_ge_iff nonemptyB]
  omega

theorem between_highest_iff :
    Between a b highestAddress ↔ highestAddress ∈ a ∨ highestAddress ∈ b := by
  have startA := UInt64.le_iff_toNat_le.1 (le_highest a.start)
  have startB := UInt64.le_iff_toNat_le.1 (le_highest b.start)
  rw [between_iff nonemptyA nonemptyB, mem_iff, mem_iff]
  omega

/-- A union lacks the highest address, and nothing else. -/
theorem mem_union_iff_between :
    address ∈ a.union b ↔ Between a b address ∧ address ≠ highestAddress := by
  rw [mem_union_iff, between_iff nonemptyA nonemptyB, ← lt_highest_iff, ceiling, ceiling]
  omega

/-- So it holds what lies between, unless the highest address does. -/
theorem forall_mem_union_iff :
    (∀ address, address ∈ a.union b ↔ Between a b address) ↔
      ¬Between a b highestAddress := by
  constructor
  · intro exact between
    have mem := (exact highestAddress).2 between
    exact ((mem_union_iff_between nonemptyA nonemptyB).1 mem).2 rfl
  · intro apart address
    rw [mem_union_iff_between nonemptyA nonemptyB]
    refine ⟨fun inside => inside.1, fun between => ⟨between, ?_⟩⟩
    rintro rfl
    exact apart between

end

theorem overlaps_comm (a b : Region) : a.overlaps b = b.overlaps a := by
  rw [Bool.eq_iff_iff, overlaps_eq_true_iff, overlaps_eq_true_iff]
  simp only [and_left_comm]

/-- Two regions that hold the highest address share an address below it, unless one of them
starts there. -/
theorem exists_shared_below_iff (memA : highestAddress ∈ a) (memB : highestAddress ∈ b) :
    (∃ address, address ∈ a ∧ address ∈ b ∧ address.toNat < addressSpace - 1) ↔
      ¬(a.start = highestAddress ∨ b.start = highestAddress) := by
  have insideA := mem_iff.1 memA
  have insideB := mem_iff.1 memB
  constructor
  · rintro ⟨address, sharedA, sharedB, below⟩ starts
    have startA := (mem_iff.1 sharedA).1
    have startB := (mem_iff.1 sharedB).1
    have value : highestAddress.toNat = addressSpace - 1 := rfl
    rcases starts with start | start
    · rw [start, value] at startA
      exact Nat.not_le_of_lt below startA
    · rw [start, value] at startB
      exact Nat.not_le_of_lt below startB
  · -- the later start belongs to both
    intro apart
    rw [not_or] at apart
    by_cases order : a.start ≤ b.start
    · refine ⟨b.start, mem_iff.2 ⟨UInt64.le_iff_toNat_le.1 order, ?_⟩, ?_, ?_⟩
      · exact Nat.lt_of_le_of_lt insideB.1 insideA.2
      · exact start_mem (isEmpty_eq_false_of_mem memB)
      · exact lt_highest_iff.2 apart.2
    · rw [UInt64.not_le, UInt64.lt_iff_toNat_lt] at order
      refine ⟨a.start, ?_, mem_iff.2 ⟨Nat.le_of_lt order, ?_⟩, ?_⟩
      · exact start_mem (isEmpty_eq_false_of_mem memA)
      · exact Nat.lt_of_le_of_lt insideA.1 insideB.2
      · exact lt_highest_iff.2 apart.1

/-- **Overlap and union up to the highest address.** Overlapping means sharing an address,
unless both regions hold the highest address and one of them starts there: then it is all that
they share, and it is missed. The union of two overlapping regions holds exactly the addresses
between the smaller start and the last address of either, as long as neither holds the highest
address. Both operations are symmetric throughout. -/
theorem overlaps_union_exact_iff (a b : Region) :
    ((a.overlaps b = true ↔ ∃ address, address ∈ a ∧ address ∈ b) ↔
      ¬(highestAddress ∈ a ∧ highestAddress ∈ b ∧
        (a.start = highestAddress ∨ b.start = highestAddress))) ∧
    (a.overlaps b = true →
      ((∀ address, address ∈ a.union b ↔ Between a b address) ↔
        highestAddress ∉ a ∧ highestAddress ∉ b)) ∧
    a.overlaps b = b.overlaps a ∧ a.union b = b.union a := by
  refine ⟨?overlap, fun overlaps => ?union, overlaps_comm a b, union_comm a b⟩
  case overlap =>
    rw [overlaps_eq_true_iff]
    constructor
    · rintro exact ⟨memA, memB, starts⟩
      exact (exists_shared_below_iff memA memB).1 (exact.2 ⟨_, memA, memB⟩) starts
    · intro apart
      constructor
      · rintro ⟨address, memA, memB, -⟩
        exact ⟨address, memA, memB⟩
      · rintro ⟨address, memA, memB⟩
        by_cases highest : address = highestAddress
        · subst highest
          exact (exists_shared_below_iff memA memB).2 fun starts => apart ⟨memA, memB, starts⟩
        · exact ⟨address, memA, memB, lt_highest_iff.2 highest⟩
  case union =>
    obtain ⟨nonemptyA, nonemptyB⟩ := nonempty_of_overlaps overlaps
    rw [forall_mem_union_iff nonemptyA nonemptyB, between_highest_iff nonemptyA nonemptyB, not_or]

/-- The addresses from `0xffffffffffffffe0` up to the last but one. -/
def highRegion : Region := { start := 0xffffffffffffffe0, size := 31 }

/-- Eight addresses of the second half of `highRegion`. -/
def innerRegion : Region := { start := 0xfffffffffffffff0, size := 8 }

/-- The last sixteen addresses. -/
def topRegion : Region := { start := 0xfffffffffffffff0, size := 16 }

/-- The highest address alone. -/
def lastRegion : Region := { start := 0xffffffffffffffff, size := 1 }

/-- Two regions that end in front of the highest address. -/
theorem overlaps_union_exact_highRegion :
    highRegion.overlaps innerRegion = true ∧
      (∃ address, address ∈ highRegion ∧ address ∈ innerRegion) ∧
      ∀ address, address ∈ highRegion.union innerRegion ↔
        Between highRegion innerRegion address := by
  have overlaps : highRegion.overlaps innerRegion = true := by decide
  obtain ⟨shares, exact, -⟩ := overlaps_union_exact_iff highRegion innerRegion
  exact ⟨overlaps, (shares.2 (by decide)).1 overlaps, (exact overlaps).2 (by decide)⟩

/-- The highest address is shared without an overlap, and lost from a union. -/
theorem highest_missed_topRegion :
    highestAddress ∈ lastRegion ∧ highestAddress ∈ topRegion ∧
      lastRegion.overlaps topRegion = false ∧
      topRegion.overlaps highRegion = true ∧
      Between topRegion highRegion highestAddress ∧
      highestAddress ∉ topRegion.union highRegion := by
  refine ⟨by decide, by decide, by decide, by decide, ?_, by decide⟩
  exact (between_highest_iff (by decide) (by decide)).2 (.inl (by decide))

end Region
end ImageDump
