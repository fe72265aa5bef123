import ImageDump.Checked
import ImageDump.Output.Cursor

/-!
# What the steps of a cursor do

Each step either fails or determines the next cursor. The equivalences say under
which conditions a step succeeds and what it then leaves behind; the bytes of
the output are those of `Buffer.write` and `Buffer.clear`.
-/

namespace ImageDump.Cursor

variable {cursor next : Cursor} {source bytes : Bytes} {memory : MemoryImage}
  {region : Region} {offset size alignment : Nat}

@[simp] theorem output_seek (cursor : Cursor) (position : Nat) :
    (cursor.seek position).output = cursor.output := rfl

@[simp] theorem position_seek (cursor : Cursor) (position : Nat) :
    (cursor.seek position).position = position := rfl

theorem put_eq_ok_iff :
    cursor.put bytes = .ok next ↔
      cursor.position + bytes.length ≤ cursor.output.size ∧
        next = {
          output := cursor.output.write cursor.position bytes
          position := cursor.position + bytes.length } := by
  by_cases fits : cursor.position + bytes.length ≤ cursor.output.size
  · simp [put, fits, eq_comm]
  · simp [put, fits]

theorem copySource_eq_ok_iff :
    cursor.copySource source offset size = .ok next ↔
      offset + size ≤ source.length ∧ cursor.position + size ≤ cursor.output.size ∧
        next = {
          output := cursor.output.write cursor.position (source.slice offset size)
          position := cursor.position + size } := by
  by_cases inside : offset + size ≤ source.length
  · have length := Bytes.length_slice_of_le inside
    simp only [copySource, Bytes.slice?, inside, if_true, put_eq_ok_iff, length, true_and]
  · simp [copySource, Bytes.slice?, inside]

theorem copyMemory_eq_ok_iff :
    cursor.copyMemory memory region = .ok next ↔
      ∃ bytes, memory.read region = some bytes ∧ cursor.put bytes = .ok next := by
  cases answer : memory.read region with
  | none => simp [copyMemory, answer]
  | some bytes => simp [copyMemory, answer]

theorem align_eq_ok_iff :
    cursor.align alignment = .ok next ↔
      0 < alignment ∧ next = cursor.seek (alignUp cursor.position alignment) := by
  by_cases zero : alignment = 0
  · simp [align, zero]
  · simp [align, zero, Nat.pos_of_ne_zero zero, eq_comm]

theorem alignZeroed_eq_ok_iff :
    cursor.alignZeroed alignment = .ok next ↔
      0 < alignment ∧
        next = {
          output := cursor.output.clear cursor.position (alignUp cursor.position alignment)
          position := alignUp cursor.position alignment } := by
  simp only [alignZeroed, bind_eq_ok_iff, align_eq_ok_iff]
  constructor
  · intro ran
    rcases ran with ⟨_, ⟨positive, rfl⟩, ⟨⟩⟩
    exact ⟨positive, rfl⟩
  · intro holds
    rcases holds with ⟨positive, rfl⟩
    exact ⟨_, ⟨positive, rfl⟩, rfl⟩

end ImageDump.Cursor
