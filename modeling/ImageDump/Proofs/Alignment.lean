import Mathlib.Order.Bounds.Defs
import ImageDump.Alignment

/-!
# Laws of rounding up

The placement of sections rounds up sums and maxima. A multiple of the alignment
can be taken out of a sum, rounding up is monotone and commutes with taking the
larger of two values, and it adds less than one alignment.
-/

namespace ImageDump

variable {a b alignment : Nat}

@[simp] theorem alignUp_zero (alignment : Nat) : alignUp 0 alignment = 0 := by
  simp [alignUp]

theorem alignUp_of_dvd (aligned : alignment ∣ a) : alignUp a alignment = a :=
  if_pos (Nat.mod_eq_zero_of_dvd aligned)

theorem alignUp_lt_add (positive : 0 < alignment) : alignUp a alignment < a + alignment := by
  unfold alignUp
  split <;> omega

/-- Rounding up after an aligned start rounds up the rest. -/
theorem alignUp_add_of_dvd (aligned : alignment ∣ a) :
    alignUp (a + b) alignment = a + alignUp b alignment := by
  have remainder : (a + b) % alignment = b % alignment := by
    obtain ⟨count, rfl⟩ := aligned
    rw [Nat.mul_add_mod]
  have small : b % alignment ≤ b := Nat.mod_le b alignment
  unfold alignUp
  rw [remainder]
  split <;> omega

theorem alignUp_mono (positive : 0 < alignment) (le : a ≤ b) :
    alignUp a alignment ≤ alignUp b alignment :=
  alignUp_le_of_dvd positive (Nat.le_trans le (le_alignUp positive)) (dvd_alignUp positive)

theorem alignUp_alignUp (positive : 0 < alignment) :
    alignUp (alignUp a alignment) alignment = alignUp a alignment :=
  alignUp_of_dvd (dvd_alignUp positive)

/-- Rounding up commutes with taking the larger value. -/
theorem alignUp_max (positive : 0 < alignment) :
    alignUp (max a b) alignment = max (alignUp a alignment) (alignUp b alignment) := by
  rcases Nat.le_total a b with le | le
  · rw [Nat.max_eq_right le, Nat.max_eq_right (alignUp_mono positive le)]
  · rw [Nat.max_eq_left le, Nat.max_eq_left (alignUp_mono positive le)]

/-- Rounding up gives the least multiple that is not below. -/
theorem isLeast_alignUp (positive : 0 < alignment) :
    IsLeast {stop | a ≤ stop ∧ alignment ∣ stop} (alignUp a alignment) := by
  refine ⟨⟨le_alignUp positive, dvd_alignUp positive⟩, ?_⟩
  rintro stop ⟨le, aligned⟩
  exact alignUp_le_of_dvd positive le aligned

/-- Two rounded values differ by the least multiple of the alignment that reaches from the
second to the first. -/
theorem isLeast_alignUp_sub (positive : 0 < alignment) :
    IsLeast {growth | alignment ∣ growth ∧ a ≤ alignUp b alignment + growth}
      (alignUp a alignment - alignUp b alignment) := by
  have alignedA : alignment ∣ alignUp a alignment := dvd_alignUp positive
  have alignedB : alignment ∣ alignUp b alignment := dvd_alignUp positive
  refine ⟨⟨Nat.dvd_sub alignedA alignedB, ?_⟩, ?_⟩
  · have reached : a ≤ alignUp a alignment := le_alignUp positive
    omega
  · rintro growth ⟨aligned, reaches⟩
    have least := alignUp_le_of_dvd positive reaches (Nat.dvd_add alignedB aligned)
    omega

/-- Two values are rounded up by the same amount if they leave the same
remainder. -/
theorem alignUp_add_eq_iff {a b alignment : Nat} (positive : 0 < alignment) :
    alignUp a alignment + b = alignUp b alignment + a ↔ a % alignment = b % alignment := by
  have remainderA := Nat.mod_lt a positive
  have remainderB := Nat.mod_lt b positive
  unfold alignUp
  split <;> split <;> omega

end ImageDump
