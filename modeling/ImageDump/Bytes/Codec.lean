import ImageDump.Bytes.LittleEndian

/-!
# Fixed-size record codecs

A `Codec α` writes every value of `α` in the same number of bytes and reads it
back. The three laws travel with the functions: an encoding has the codec's
size, decoding it gives the value back whatever follows, and encoding a decoded
value gives back the bytes it was decoded from. A record is therefore described
once, by its fields in file order, and its laws come from the combinators:

* `Codec.u8`, `Codec.u16`, `Codec.u32`, `Codec.u64` for the words,
* `Codec.pair` for two fields in sequence,
* `Codec.iso` to give the nested pairs of fields the shape of a structure.
-/

namespace ImageDump

/-- A record format of a fixed size: how a value is written and read. -/
structure Codec (α : Type) where
  /-- Number of bytes of every encoded value. -/
  size : Nat
  encode : α → Bytes
  /-- Read a value from the front of a string. Bytes that are missing count as
  zero, so callers check the length first. -/
  decode : Bytes → α
  length_encode : ∀ value, (encode value).length = size
  decode_encode : ∀ value rest, decode (encode value ++ rest) = value
  encode_decode : ∀ bytes, size ≤ bytes.length → encode (decode bytes) = bytes.take size

namespace Codec

variable {α β : Type}

/-! ## Words -/

/-- A word of `width` bytes, given by its value as a number that fits into
them. -/
def word (width : Nat) (toNat : α → Nat) (ofNat : Nat → α)
    (toNat_lt : ∀ value, toNat value < LittleEndian.range width)
    (ofNat_toNat : ∀ value, ofNat (toNat value) = value)
    (toNat_ofNat : ∀ n, n < LittleEndian.range width → toNat (ofNat n) = n) : Codec α where
  size := width
  encode value := LittleEndian.encode width (toNat value)
  decode bytes := ofNat (LittleEndian.decode (bytes.take width))
  length_encode value := LittleEndian.length_encode width (toNat value)
  decode_encode value rest := by
    have front : (LittleEndian.encode width (toNat value) ++ rest).take width =
        LittleEndian.encode width (toNat value) :=
      List.take_left' (LittleEndian.length_encode width (toNat value))
    rw [front, LittleEndian.decode_encode_of_lt (toNat_lt value), ofNat_toNat]
  encode_decode bytes long := by
    have lengthTake : (bytes.take width).length = width := List.length_take_of_le long
    have small : LittleEndian.decode (bytes.take width) < LittleEndian.range width := by
      have below := LittleEndian.decode_lt (bytes.take width)
      rwa [lengthTake] at below
    rw [toNat_ofNat _ small]
    have back := LittleEndian.encode_decode (bytes.take width)
    rwa [lengthTake] at back

/-- One byte. -/
def u8 : Codec UInt8 :=
  word 1 UInt8.toNat UInt8.ofNat (fun value => value.toNat_lt) (fun _ => UInt8.ofNat_toNat)
    (fun _ small => UInt8.toNat_ofNat_of_lt' small)

/-- A word of two bytes. -/
def u16 : Codec UInt16 :=
  word 2 UInt16.toNat UInt16.ofNat (fun value => value.toNat_lt) (fun _ => UInt16.ofNat_toNat)
    (fun _ small => UInt16.toNat_ofNat_of_lt' small)

/-- A word of four bytes. -/
def u32 : Codec UInt32 :=
  word 4 UInt32.toNat UInt32.ofNat (fun value => value.toNat_lt) (fun _ => UInt32.ofNat_toNat)
    (fun _ small => UInt32.toNat_ofNat_of_lt' small)

/-- A word of eight bytes. -/
def u64 : Codec UInt64 :=
  word 8 UInt64.toNat UInt64.ofNat (fun value => value.toNat_lt) (fun _ => UInt64.ofNat_toNat)
    (fun _ small => UInt64.toNat_ofNat_of_lt' small)

/-! ## Records -/

/-- Two records in sequence. -/
def pair (first : Codec α) (second : Codec β) : Codec (α × β) where
  size := first.size + second.size
  encode value := first.encode value.1 ++ second.encode value.2
  decode bytes := (first.decode bytes, second.decode (bytes.drop first.size))
  length_encode value := by
    rw [List.length_append, first.length_encode, second.length_encode]
  decode_encode value rest := by
    have skip : (first.encode value.1 ++ (second.encode value.2 ++ rest)).drop first.size =
        second.encode value.2 ++ rest := List.drop_left' (first.length_encode value.1)
    rw [List.append_assoc, first.decode_encode, skip, second.decode_encode]
  encode_decode bytes long := by
    rw [first.encode_decode bytes (by omega),
      second.encode_decode (bytes.drop first.size) (by rw [List.length_drop]; omega),
      List.take_add]

/-- The same bytes read as another type that holds the same information. -/
def iso (codec : Codec α) (ofFields : α → β) (fields : β → α)
    (ofFields_fields : ∀ value, ofFields (fields value) = value)
    (fields_ofFields : ∀ value, fields (ofFields value) = value) : Codec β where
  size := codec.size
  encode value := codec.encode (fields value)
  decode bytes := ofFields (codec.decode bytes)
  length_encode value := codec.length_encode (fields value)
  decode_encode value rest := by rw [codec.decode_encode, ofFields_fields]
  encode_decode bytes long := by rw [fields_ofFields, codec.encode_decode bytes long]

/-! ## Reading at a position -/

/-- The record at position `offset`, provided it lies inside the string. -/
def read? (codec : Codec α) (data : Bytes) (offset : Nat) : Option α :=
  if offset + codec.size ≤ data.length then some (codec.decode (data.drop offset)) else none

/-- A record whose encoding stands at a position is read there. -/
theorem read?_of_slice {codec : Codec α} {data : Bytes} {offset : Nat} {value : α}
    (inside : offset + codec.size ≤ data.length)
    (stored : Bytes.slice data offset codec.size = codec.encode value) :
    codec.read? data offset = some value := by
  have split : data.drop offset =
      codec.encode value ++ (data.drop offset).drop codec.size := by
    rw [← stored, Bytes.slice, List.take_append_drop]
  rw [read?, if_pos inside, split, codec.decode_encode]

end Codec
end ImageDump
