import ImageDump.Bytes

/-!
# Little-endian words

Every number in an image is stored least significant byte first, in a fixed
number of bytes. `encode width` writes a number so and drops what does not fit;
`decode` reads any string of bytes as the number they spell. On numbers that fit
into `width` bytes, and on strings of `width` bytes, the two are inverse.
-/

namespace ImageDump.LittleEndian

/-- How many numbers fit into `width` bytes. -/
def range : Nat → Nat
  | 0 => 1
  | width + 1 => 256 * range width

/-- The `width` lowest bytes of a number, least significant first. -/
def encode : Nat → Nat → Bytes
  | 0, _ => []
  | width + 1, n => UInt8.ofNat (n % 256) :: encode width (n / 256)

/-- The number whose bytes are given, least significant first. -/
def decode : Bytes → Nat
  | [] => 0
  | byte :: rest => byte.toNat + 256 * decode rest

@[simp] theorem length_encode (width n : Nat) : (encode width n).length = width := by
  induction width generalizing n with
  | zero => rfl
  | succ width ih => simp [encode, ih]

theorem decode_encode (width n : Nat) : decode (encode width n) = n % range width := by
  induction width generalizing n with
  | zero => simp [encode, decode, range, Nat.mod_one]
  | succ width ih =>
    have lowByte : (UInt8.ofNat (n % 256)).toNat = n % 256 := by
      rw [UInt8.toNat_ofNat', Nat.mod_mod_of_dvd _ (Nat.dvd_refl _)]
    rw [encode, decode, ih, lowByte, range, Nat.mod_mul]

theorem decode_encode_of_lt {width n : Nat} (fits : n < range width) :
    decode (encode width n) = n := by
  rw [decode_encode, Nat.mod_eq_of_lt fits]

theorem decode_lt (bytes : Bytes) : decode bytes < range bytes.length := by
  induction bytes with
  | nil => simp [decode, range]
  | cons byte rest ih =>
    have byteLt : byte.toNat < 256 := byte.toNat_lt
    rw [decode, List.length_cons, range]
    omega

theorem encode_decode (bytes : Bytes) : encode bytes.length (decode bytes) = bytes := by
  induction bytes with
  | nil => rfl
  | cons byte rest ih =>
    have byteLt : byte.toNat < 256 := byte.toNat_lt
    have lowByte : (byte.toNat + 256 * decode rest) % 256 = byte.toNat := by omega
    have higher : (byte.toNat + 256 * decode rest) / 256 = decode rest := by omega
    rw [List.length_cons, encode, decode, lowByte, higher, ih, UInt8.ofNat_toNat]

end ImageDump.LittleEndian
