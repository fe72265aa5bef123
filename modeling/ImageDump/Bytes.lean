/-!
# Byte strings

A file, a header and a piece of memory are all finite lists of bytes. This
module holds the operations by which one such string is cut out of another and
written over a part of another, together with the two facts that every later
argument about a written file rests on: what a write leaves at each position,
and that it changes no length.
-/

namespace ImageDump

/-- A finite string of bytes. -/
abbrev Bytes := List UInt8

namespace Bytes

/-- The `size` bytes from position `offset` on, or fewer where the string ends
earlier. -/
def slice (data : Bytes) (offset size : Nat) : Bytes :=
  (data.drop offset).take size

/-- The `size` bytes from position `offset` on, provided they all lie in the
string. -/
def slice? (data : Bytes) (offset size : Nat) : Option Bytes :=
  if offset + size ≤ data.length then some (slice data offset size) else none

/-- `size` zero bytes. -/
def zeros (size : Nat) : Bytes := List.replicate size 0

/-- Replace the bytes from `offset` on by `bytes`. Meant for a replacement that
lies inside the string; its length is then unchanged. -/
def overwrite (data : Bytes) (offset : Nat) (bytes : Bytes) : Bytes :=
  data.take offset ++ bytes ++ data.drop (offset + bytes.length)

/-- Cut the string to `size` bytes, or fill it up to `size` bytes with zeros. -/
def resize (data : Bytes) (size : Nat) : Bytes :=
  data.take size ++ zeros (size - data.length)

/-! ## What a slice holds -/

theorem length_slice_of_le {data : Bytes} {offset size : Nat}
    (inside : offset + size ≤ data.length) :
    (slice data offset size).length = size := by
  simp only [slice, List.length_take, List.length_drop]
  omega

theorem getElem?_slice {data : Bytes} {offset size i : Nat} (lt : i < size) :
    (slice data offset size)[i]? = data[offset + i]? := by
  simp [slice, List.getElem?_take_of_lt lt]

theorem slice?_eq_some_iff {data bytes : Bytes} {offset size : Nat} :
    slice? data offset size = some bytes ↔
      offset + size ≤ data.length ∧ slice data offset size = bytes := by
  by_cases inside : offset + size ≤ data.length
  · simp [slice?, inside]
  · simp [slice?, inside]

@[simp] theorem length_zeros (size : Nat) : (zeros size).length = size := by
  simp [zeros]

/-! ## What a write leaves -/

/-- A write inside the string keeps its length. -/
theorem length_overwrite {data bytes : Bytes} {offset : Nat}
    (inside : offset + bytes.length ≤ data.length) :
    (overwrite data offset bytes).length = data.length := by
  simp only [overwrite, List.length_append, List.length_take, List.length_drop]
  omega

/-- A write leaves its own bytes where it wrote, and everything else alone. -/
theorem getElem?_overwrite {data bytes : Bytes} {offset : Nat}
    (inside : offset + bytes.length ≤ data.length) (i : Nat) :
    (overwrite data offset bytes)[i]? =
      if offset ≤ i ∧ i < offset + bytes.length then bytes[i - offset]?
      else data[i]? := by
  have lengthTake : (data.take offset).length = offset := by
    rw [List.length_take]
    omega
  rw [overwrite, List.append_assoc]
  by_cases before : i < offset
  · rw [List.getElem?_append_left (by omega), List.getElem?_take_of_lt before,
      if_neg (by omega)]
  · rw [List.getElem?_append_right (by omega), lengthTake]
    by_cases within : i < offset + bytes.length
    · rw [List.getElem?_append_left (by omega), if_pos (by omega)]
    · rw [List.getElem?_append_right (by omega), if_neg (by omega),
        List.getElem?_drop]
      congr 1
      omega

theorem length_resize (data : Bytes) (size : Nat) :
    (resize data size).length = size := by
  simp only [resize, List.length_append, List.length_take, length_zeros]
  omega

/-- Below its size a string of a changed length has the bytes it had, and zeros behind them. -/
theorem getElem?_resize {data : Bytes} {size position : Nat} (below : position < size) :
    (resize data size)[position]? = some (data[position]?.getD 0) := by
  rw [resize]
  by_cases inside : position < data.length
  · rw [List.getElem?_append_left (by rw [List.length_take]; omega),
      List.getElem?_take_of_lt below, List.getElem?_eq_getElem inside]
    rfl
  · rw [List.getElem?_append_right (by rw [List.length_take]; omega), List.length_take, zeros,
      List.getElem?_replicate, if_pos (by omega), List.getElem?_eq_none (Nat.le_of_not_lt inside)]
    rfl

end Bytes
end ImageDump
