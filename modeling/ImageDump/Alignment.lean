/-!
# Rounding up to an alignment

The raw data of every section starts at a multiple of the file alignment, so
positions are rounded up to it throughout. `alignUp` is that rounding; for a
positive alignment its value is the least multiple that is not below the
argument (`le_alignUp`, `dvd_alignUp`, `alignUp_le_of_dvd`).
-/

namespace ImageDump

/-- The least multiple of `alignment` that is at least `value`. -/
def alignUp (value alignment : Nat) : Nat :=
  if value % alignment = 0 then value else value + alignment - value % alignment

theorem le_alignUp {value alignment : Nat} (positive : 0 < alignment) :
    value ≤ alignUp value alignment := by
  have remainder := Nat.mod_lt value positive
  unfold alignUp
  split <;> omega

theorem dvd_alignUp {value alignment : Nat} (positive : 0 < alignment) :
    alignment ∣ alignUp value alignment := by
  have remainder := Nat.mod_lt value positive
  unfold alignUp
  split
  · rename_i aligned
    exact Nat.dvd_of_mod_eq_zero aligned
  · have split := Nat.div_add_mod value alignment
    refine ⟨value / alignment + 1, ?_⟩
    rw [Nat.mul_add, Nat.mul_one]
    omega

theorem alignUp_le_of_dvd {value alignment bound : Nat} (positive : 0 < alignment)
    (le : value ≤ bound) (aligned : alignment ∣ bound) :
    alignUp value alignment ≤ bound := by
  obtain ⟨count, rfl⟩ := aligned
  have remainder := Nat.mod_lt value positive
  have split := Nat.div_add_mod value alignment
  unfold alignUp
  split
  · exact le
  · have below : value / alignment < count :=
      Nat.lt_of_mul_lt_mul_left (a := alignment) (by omega)
    have next : alignment * (value / alignment + 1) ≤ alignment * count :=
      Nat.mul_le_mul_left alignment below
    rw [Nat.mul_add, Nat.mul_one] at next
    omega

end ImageDump
