import ImageDump.Bytes

/-!
# Output buffers

The copy of an image is written into an output of a fixed size, and the writes
jump back and forth in it. An output is therefore given by its size and the byte
at each position: a write changes the bytes at the positions that it covers and
nothing else, and never the size. The bytes are laid out as a string only when
the output is brought to its final size.
-/

namespace ImageDump

/-- An output of a fixed size. -/
structure Buffer where
  size : Nat
  /-- The byte at a position. Only the positions below `size` count. -/
  byte : Nat → UInt8

namespace Buffer

/-- A string of bytes as an output. -/
def ofBytes (bytes : Bytes) : Buffer :=
  let array := bytes.toArray
  { size := array.size, byte := fun position => array.getD position 0 }

/-- An output of zeros. -/
def zeros (size : Nat) : Buffer := { size, byte := fun _ => 0 }

/-- Replace the bytes from `offset` on by `bytes`. -/
def write (buffer : Buffer) (offset : Nat) (bytes : Bytes) : Buffer :=
  let array := bytes.toArray
  { buffer with byte := fun position =>
      if offset ≤ position ∧ position < offset + array.size then
        array.getD (position - offset) 0
      else buffer.byte position }

/-- Replace the bytes between two positions by zeros. -/
def clear (buffer : Buffer) (first stop : Nat) : Buffer :=
  { buffer with byte := fun position =>
      if first ≤ position ∧ position < stop then 0 else buffer.byte position }

/-- The output cut to `size` bytes, or filled up to `size` bytes with zeros. -/
def resize (buffer : Buffer) (size : Nat) : Bytes :=
  (List.range size).map fun position =>
    if position < buffer.size then buffer.byte position else 0

/-- The bytes of an output. -/
def toBytes (buffer : Buffer) : Bytes := buffer.resize buffer.size

instance : Coe Bytes Buffer := ⟨ofBytes⟩

instance : CoeOut Buffer Bytes := ⟨toBytes⟩

/-! ## What an output holds -/

@[simp] theorem size_zeros (size : Nat) : (zeros size).size = size := rfl

@[simp] theorem byte_zeros (size position : Nat) : (zeros size).byte position = 0 := rfl

@[simp] theorem size_write (buffer : Buffer) (offset : Nat) (bytes : Bytes) :
    (buffer.write offset bytes).size = buffer.size := rfl

/-- A write leaves its own bytes where it wrote, and everything else alone. -/
theorem byte_write (buffer : Buffer) (offset : Nat) (bytes : Bytes) (position : Nat) :
    (buffer.write offset bytes).byte position =
      if offset ≤ position ∧ position < offset + bytes.length then
        bytes[position - offset]?.getD 0
      else buffer.byte position := by
  simp only [write, List.size_toArray, Array.getD_eq_getD_getElem?, List.getElem?_toArray]

@[simp] theorem size_clear (buffer : Buffer) (first stop : Nat) :
    (buffer.clear first stop).size = buffer.size := rfl

theorem byte_clear (buffer : Buffer) (first stop position : Nat) :
    (buffer.clear first stop).byte position =
      if first ≤ position ∧ position < stop then 0 else buffer.byte position := rfl

@[simp] theorem length_resize (buffer : Buffer) (size : Nat) :
    (buffer.resize size).length = size := by
  simp [resize]

theorem getElem?_resize (buffer : Buffer) {size position : Nat} (below : position < size) :
    (buffer.resize size)[position]? =
      some (if position < buffer.size then buffer.byte position else 0) := by
  simp [resize, below]

@[simp] theorem length_toBytes (buffer : Buffer) : buffer.toBytes.length = buffer.size :=
  buffer.length_resize buffer.size

theorem getElem?_toBytes (buffer : Buffer) (position : Nat) :
    buffer.toBytes[position]? =
      if position < buffer.size then some (buffer.byte position) else none := by
  by_cases below : position < buffer.size
  · rw [toBytes, getElem?_resize buffer below, if_pos below, if_pos below]
  · rw [if_neg below, List.getElem?_eq_none (by rw [length_toBytes]; omega)]

theorem ofBytes_zeros (size : Nat) : ofBytes (Bytes.zeros size) = zeros size := by
  have bytes : ∀ position, (Bytes.zeros size).toArray.getD position 0 = 0 := by
    intro position
    rw [Array.getD_eq_getD_getElem?, List.getElem?_toArray, Bytes.zeros, List.getElem?_replicate]
    split <;> rfl
  simp only [ofBytes, zeros, bytes, List.size_toArray, Bytes.length_zeros]

/-- Laying out the bytes and changing their number then is bringing the output to its final
size. -/
theorem resize_toBytes (buffer : Buffer) (size : Nat) :
    buffer.toBytes.resize size = buffer.resize size := by
  apply List.ext_getElem?
  intro position
  by_cases below : position < size
  · rw [getElem?_resize buffer below, Bytes.getElem?_resize below, getElem?_toBytes]
    split <;> rfl
  · rw [List.getElem?_eq_none (by rw [Bytes.length_resize]; omega),
      List.getElem?_eq_none (by rw [length_resize]; omega)]

end Buffer
end ImageDump
