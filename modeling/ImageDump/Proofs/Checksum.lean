import Mathlib.Algebra.BigOperators.Group.List.Basic
import Mathlib.Algebra.GroupWithZero.Nat
import ImageDump.Bytes.LittleEndian
import ImageDump.Checksum

/-!
# The checksum in closed form

Adding a carry back in takes 65535 from a sum that has one. The folded sum of a string is
therefore the remainder of the exact sum of its words by 65535, except that a sum other than
zero never becomes zero (`toNat_addWords`, by induction over the string, from any sum without
a carry). The order of the words does then not matter, a string can be cut at an even
position and its parts be summed up apart, and no sum on the way leaves 32 bits
(`toNat_ofImage`).
-/

namespace ImageDump.Checksum

/-! ## Adding the carry back in -/

/-- What is left of a sum of 16-bit words once every carry is added back in. -/
def endAround (sum : Nat) : Nat := if sum = 0 then 0 else (sum - 1) % 65535 + 1

theorem endAround_le (sum : Nat) : endAround sum ≤ 65535 := by
  unfold endAround
  split
  · exact Nat.zero_le _
  · omega

theorem endAround_of_le {sum : Nat} (le : sum ≤ 65535) : endAround sum = sum := by
  unfold endAround
  split
  · omega
  · omega

/-- It does not matter when the carries are added back in. -/
theorem endAround_endAround_add (first second : Nat) :
    endAround (endAround first + second) = endAround (first + second) := by
  unfold endAround
  split
  · rename_i zero
    rw [zero]
  · rw [if_neg (by omega), if_neg (by omega)]
    omega

theorem endAround_add_endAround (first second : Nat) :
    endAround (first + endAround second) = endAround (first + second) := by
  rw [Nat.add_comm, endAround_endAround_add, Nat.add_comm]

/-- Of a sum of two words without a carry, one folding is enough. -/
theorem mod_add_div_eq_endAround {sum : Nat} (le : sum ≤ 131070) :
    sum % 65536 + sum / 65536 = endAround sum := by
  rcases Nat.lt_or_ge sum 65536 with plain | carried
  · rw [endAround_of_le (by omega)]
    omega
  · unfold endAround
    rw [if_neg (by omega)]
    omega

theorem toNat_low (sum : UInt32) : (sum &&& 0xffff).toNat = sum.toNat % 65536 := by
  rw [UInt32.toNat_and]
  exact Nat.and_two_pow_sub_one_eq_mod sum.toNat 16

theorem toNat_carry (sum : UInt32) : (sum >>> 16).toNat = sum.toNat / 65536 := by
  rw [UInt32.toNat_shiftRight]
  exact Nat.shiftRight_eq_div_pow sum.toNat 16

theorem toNat_low_add_carry_lt (sum : UInt32) :
    (sum &&& 0xffff).toNat + (sum >>> 16).toNat < 2 ^ 32 := by
  have small := sum.toNat_lt
  rw [toNat_low, toNat_carry]
  omega

theorem toNat_fold {sum : UInt32} (le : sum.toNat ≤ 131070) :
    (fold sum).toNat = endAround sum.toNat := by
  rw [fold, UInt32.toNat_add, Nat.mod_eq_of_lt (toNat_low_add_carry_lt sum), toNat_low,
    toNat_carry, mod_add_div_eq_endAround le]

/-- A pass of the loop: a word is added to a sum without a carry, and the sum is folded. -/
theorem toNat_fold_add {sum word : UInt32} (sumLe : sum.toNat ≤ 65535)
    (wordLe : word.toNat ≤ 65535) :
    (fold (sum + word)).toNat = endAround (sum.toNat + word.toNat) := by
  have added : (sum + word).toNat = sum.toNat + word.toNat := by
    rw [UInt32.toNat_add, Nat.mod_eq_of_lt (by omega)]
  rw [toNat_fold (by omega), added]

/-! ## The words of a string -/

/-- The little-endian 16-bit words of a string. A last odd byte counts as a low byte. -/
def words : Bytes → List Nat
  | [] => []
  | [low] => [LittleEndian.decode [low]]
  | low :: high :: rest => LittleEndian.decode [low, high] :: words rest

/-- A string that is cut at an even position has the words of its parts. -/
theorem words_append {front : Bytes} (even : front.length % 2 = 0) (back : Bytes) :
    words (front ++ back) = words front ++ words back := by
  induction front using words.induct with
  | case1 => rfl
  | case2 low => cases even
  | case3 low high rest ih =>
    have restEven : rest.length % 2 = 0 := by
      simp only [List.length_cons] at even
      omega
    rw [List.cons_append, List.cons_append, words, words, ih restEven, List.cons_append]

theorem toNat_lowByte (low : UInt8) : low.toUInt32.toNat = LittleEndian.decode [low] := by
  rw [UInt8.toNat_toUInt32]
  rfl

theorem toNat_highByte (high : UInt8) : (high.toUInt32 <<< 8).toNat = 256 * high.toNat := by
  have small := high.toNat_lt
  rw [UInt32.toNat_shiftLeft, UInt8.toNat_toUInt32, Nat.shiftLeft_eq]
  simp only [UInt32.reduceToNat, Nat.reduceMod, Nat.reducePow]
  omega

theorem toNat_word (low high : UInt8) :
    (low.toUInt32 + (high.toUInt32 <<< 8)).toNat = LittleEndian.decode [low, high] := by
  have lowSmall := low.toNat_lt
  have highSmall := high.toNat_lt
  rw [UInt32.toNat_add, UInt8.toNat_toUInt32, toNat_highByte, Nat.mod_eq_of_lt (by omega)]
  rfl

theorem toNat_lowByte_le (low : UInt8) : low.toUInt32.toNat ≤ 65535 := by
  have small := low.toNat_lt
  rw [UInt8.toNat_toUInt32]
  omega

theorem toNat_highByte_le (high : UInt8) : (high.toUInt32 <<< 8).toNat ≤ 65535 := by
  have small := high.toNat_lt
  rw [toNat_highByte]
  omega

theorem toNat_word_le (low high : UInt8) :
    (low.toUInt32 + (high.toUInt32 <<< 8)).toNat ≤ 65535 := by
  rw [toNat_word]
  exact Nat.le_of_lt_succ (LittleEndian.decode_lt [low, high])

/-! ## The folded sum -/

/-- The sum of the words of a string, every carry added back in. -/
theorem toNat_addWords {sum : UInt32} (le : sum.toNat ≤ 65535) (data : Bytes) :
    (addWords sum data).toNat = endAround (sum.toNat + (words data).sum) := by
  induction sum, data using addWords.induct with
  | case1 sum =>
    rw [addWords, words, List.sum_nil, Nat.add_zero, endAround_of_le le]
  | case2 sum low =>
    rw [addWords, toNat_fold_add le (toNat_lowByte_le low), toNat_lowByte, words, List.sum_singleton]
  | case3 sum low high rest ih =>
    have folded := toNat_fold_add le (toNat_word_le low high)
    rw [addWords, ih (folded ▸ endAround_le _), folded, endAround_endAround_add, toNat_word, words,
      List.sum_cons, Nat.add_assoc]

/-- The folded sum of the words of a string. Its length added gives the checksum. -/
def foldedSum (data : Bytes) : UInt32 := fold (addWords 0 data)

theorem toNat_foldedSum (data : Bytes) : (foldedSum data).toNat = endAround (words data).sum := by
  have summed : (addWords 0 data).toNat = endAround (words data).sum := by
    rw [toNat_addWords (by decide) data, UInt32.toNat_zero, Nat.zero_add]
  have le := endAround_le (words data).sum
  rw [foldedSum, toNat_fold (by omega), summed, endAround_of_le le]

/-- The parts of a string that is cut at an even position can be summed up apart. -/
theorem foldedSum_append {front : Bytes} (even : front.length % 2 = 0) (back : Bytes) :
    foldedSum (front ++ back) = fold (foldedSum front + foldedSum back) := by
  have frontLe := endAround_le (words front).sum
  have backLe := endAround_le (words back).sum
  rw [← toNat_foldedSum] at frontLe backLe
  apply UInt32.toNat_inj.1
  calc (foldedSum (front ++ back)).toNat
      = endAround ((words front).sum + (words back).sum) := by
        rw [toNat_foldedSum, words_append even, List.sum_append]
    _ = endAround ((foldedSum front).toNat + (foldedSum back).toNat) := by
        rw [toNat_foldedSum, toNat_foldedSum, endAround_endAround_add, endAround_add_endAround]
    _ = (fold (foldedSum front + foldedSum back)).toNat := (toNat_fold_add frontLe backLe).symm

/-! ## Checked additions -/

/-- The sum of two words, provided it fits into 32 bits. -/
def add? (first second : UInt32) : Option UInt32 :=
  if first.toNat + second.toNat < 2 ^ 32 then some (first + second) else none

/-- `fold` with its addition checked. -/
def fold? (sum : UInt32) : Option UInt32 := add? (sum &&& 0xffff) (sum >>> 16)

/-- `addWords` with all its additions checked. -/
def addWords? : UInt32 → Bytes → Option UInt32
  | sum, [] => some sum
  | sum, [low] => do
    let added ← add? sum low.toUInt32
    fold? added
  | sum, low :: high :: rest => do
    let word ← add? low.toUInt32 (high.toUInt32 <<< 8)
    let added ← add? sum word
    let folded ← fold? added
    addWords? folded rest

/-- `foldedSum` with all its additions checked. -/
def foldedSum? (data : Bytes) : Option UInt32 := addWords? 0 data >>= fold?

theorem add?_of_le {sum word : UInt32} (sumLe : sum.toNat ≤ 65535)
    (wordLe : word.toNat ≤ 65535) : add? sum word = some (sum + word) :=
  if_pos (by omega)

theorem fold?_eq (sum : UInt32) : fold? sum = some (fold sum) :=
  if_pos (toNat_low_add_carry_lt sum)

theorem addWords?_eq {sum : UInt32} (le : sum.toNat ≤ 65535) (data : Bytes) :
    addWords? sum data = some (addWords sum data) := by
  induction sum, data using addWords.induct with
  | case1 sum => rfl
  | case2 sum low =>
    have added := add?_of_le le (toNat_lowByte_le low)
    simp only [addWords?, added, Option.bind_eq_bind, Option.bind_some, fold?_eq, addWords]
  | case3 sum low high rest ih =>
    have word := add?_of_le (toNat_lowByte_le low) (toNat_highByte_le high)
    have added := add?_of_le le (toNat_word_le low high)
    have folded := toNat_fold_add le (toNat_word_le low high)
    have passed := ih (folded ▸ endAround_le _)
    simp only [addWords?, word, added, Option.bind_eq_bind, Option.bind_some, fold?_eq, passed,
      addWords]

/-- No addition on the way to the folded sum overflows. -/
theorem foldedSum?_eq (data : Bytes) : foldedSum? data = some (foldedSum data) := by
  rw [foldedSum?, addWords?_eq (by decide) data, Option.bind_eq_bind, Option.bind_some, fold?_eq,
    foldedSum]

/-! ## The checksum -/

/-- **The checksum in closed form.** With `S` the exact sum of the little-endian 16-bit words
of a string, the checksum is `S` with every carry added back in, and the length, modulo
`2 ^ 32`; no addition on the way to the former overflows. So it stays the same when the words
of a string change places, and the sum of a string that is cut at an even position is the
sum of its parts with the carry added back in. -/
theorem toNat_ofImage :
    (∀ data : Bytes,
      (ofImage data).toNat = (endAround (words data).sum + data.length) % 2 ^ 32 ∧
      ofImage data = foldedSum data + UInt32.ofNat data.length ∧
      foldedSum? data = some (foldedSum data)) ∧
    (∀ first second : Bytes, first.length = second.length → (words first).Perm (words second) →
      ofImage first = ofImage second) ∧
    ∀ front back : Bytes, front.length % 2 = 0 →
      foldedSum (front ++ back) = fold (foldedSum front + foldedSum back) := by
  have closed (data : Bytes) :
      (ofImage data).toNat = (endAround (words data).sum + data.length) % 2 ^ 32 := by
    rw [ofImage, ← foldedSum, UInt32.toNat_add, toNat_foldedSum, UInt32.toNat_ofNat',
      Nat.add_mod_mod]
  refine ⟨fun data => ⟨closed data, rfl, foldedSum?_eq data⟩, ?_, ?_⟩
  · intro first second length moved
    apply UInt32.toNat_inj.1
    rw [closed, closed, moved.sum_eq, length]
  · intro front back even
    exact foldedSum_append even back

/-- Two words that carry and a last odd byte: the words are swapped, and the string is cut
behind the first of them. -/
theorem toNat_ofImage_carrying :
    ofImage [0xff, 0xff, 0x02, 0x80, 0x07] = ofImage [0x02, 0x80, 0xff, 0xff, 0x07] ∧
      foldedSum ([0xff, 0xff] ++ [0x02, 0x80, 0x07]) =
        fold (foldedSum [0xff, 0xff] + foldedSum [0x02, 0x80, 0x07]) ∧
      (ofImage [0xff, 0xff, 0x02, 0x80, 0x07]).toNat = 0x800e := by
  obtain ⟨closed, moved, cut⟩ := toNat_ofImage
  refine ⟨moved _ _ rfl (by decide), cut _ _ rfl, ?_⟩
  rw [(closed _).1]
  decide

end ImageDump.Checksum
