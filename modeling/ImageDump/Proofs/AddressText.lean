import ImageDump.CommandLine.Address
import ImageDump.Proofs.Text
import ImageDump.Text.Hexadecimal
import Mathlib.Data.Nat.Digits.Defs

/-!
# Addresses and regions in words

Which texts are addresses is said without reading them: digits of a base, with their positional
value, behind an optional sign and an optional prefix (`Address.Spells`). Reading accepts
exactly these texts while the value is below the top of the address space, and gives the value
(`readAddress_eq_ok_iff`). The digits are read from the left and checked against the top one by
one, so the invariant of the reading is what digits add to a number in front of them
(`Address.Continues`).

No address has a colon, so a region is read as the address in front of the first colon and the
file behind it, whatever colons the file has (`readRegion_eq_ok_iff`).
-/

namespace ImageDump

namespace Address

variable {base digit value result : Nat} {c : Char} {text rest : List Char}

/-! ## Digits -/

/-- The character is the digit with a value in a base, in either case. -/
def IsDigit (base : Nat) (c : Char) (digit : Nat) : Prop :=
  digit < base ∧ c.toLower = digit.digitChar

theorem toNat_digitChar :
    ∀ digit < 16, digit.digitChar.toNat = if digit < 10 then 48 + digit else 87 + digit := by
  decide

theorem toLower_digitChar : ∀ digit < 16, digit.digitChar.toLower = digit.digitChar := by
  decide

theorem digitValue?_eq_some_iff (le : base ≤ 16) :
    digitValue? base c = some digit ↔ IsDigit base c digit := by
  have le_iff (a b : Char) : a ≤ b ↔ a.toNat ≤ b.toNat := Iff.rfl
  have ends : '0'.toNat = 48 ∧ '9'.toNat = 57 ∧ 'a'.toNat = 97 ∧ 'f'.toNat = 102 ∧
      'A'.toNat = 65 ∧ 'F'.toNat = 70 := by decide
  rw [digitValue?, Option.filter_eq_some_iff, IsDigit, and_comm, decide_eq_true_eq]
  refine and_congr_right fun lt => ?_
  rw [← Char.toNat_inj, toNat_toLower, toNat_digitChar digit (by omega)]
  simp only [le_iff, ends]
  split_ifs <;> simp only [Option.some.injEq, false_iff] <;> omega

/-- The digits of a text continue a number that is read already. -/
def Continues (base value : Nat) (text : List Char) (result : Nat) : Prop :=
  ∃ digits, List.Forall₂ (IsDigit base) text digits ∧
    result = value * base ^ digits.length + Nat.ofDigits base digits.reverse

theorem continues_nil : Continues base value [] result ↔ result = value := by
  simp [Continues]

/-- The first digit joins the number in front. -/
theorem continues_cons :
    Continues base value (c :: rest) result ↔
      ∃ digit, IsDigit base c digit ∧ Continues base (value * base + digit) rest result := by
  have regroup (digit : Nat) (digits : List Nat) :
      value * base ^ (digit :: digits).length + Nat.ofDigits base (digit :: digits).reverse =
        (value * base + digit) * base ^ digits.length + Nat.ofDigits base digits.reverse := by
    rw [List.length_cons, List.reverse_cons, Nat.ofDigits_append, List.length_reverse,
      Nat.ofDigits_singleton]
    ring
  constructor
  · rintro ⟨_, spelled, rfl⟩
    cases spelled with
    | @cons _ digit _ digits isDigit spelled =>
      exact ⟨digit, isDigit, digits, spelled, regroup digit digits⟩
  · rintro ⟨digit, isDigit, digits, spelled, rfl⟩
    exact ⟨digit :: digits, .cons isDigit spelled, (regroup digit digits).symm⟩

theorem Continues.le (pos : 0 < base) (continues : Continues base value text result) :
    value ≤ result := by
  obtain ⟨digits, -, rfl⟩ := continues
  exact Nat.le_add_right_of_le (Nat.le_mul_of_pos_right _ (Nat.pow_pos pos))

/-- Digits are read if they stay below the top of the address space. A number that has reached
the top only grows, so that it makes no difference when this is checked. -/
theorem readDigits_eq_ok_iff (pos : 0 < base) (le : base ≤ 16) (lt : value < addressSpace) :
    readDigits base value text = .ok result ↔
      result < addressSpace ∧ Continues base value text result := by
  induction text generalizing value with
  | nil =>
    rw [readDigits, continues_nil, Except.ok.injEq]
    constructor
    · rintro rfl
      exact ⟨lt, rfl⟩
    · exact fun same => same.2.symm
  | cons c rest ih =>
    rw [readDigits, continues_cons]
    cases found : digitValue? base c with
    | none =>
      refine ⟨nofun, ?_⟩
      rintro ⟨-, digit, isDigit, -⟩
      rw [(digitValue?_eq_some_iff le).2 isDigit] at found
      cases found
    | some digit =>
      have only (other : Nat) : IsDigit base c other ↔ digit = other := by
        rw [← digitValue?_eq_some_iff le, found, Option.some.injEq]
      simp only [only, exists_eq_left']
      split
      · rename_i next
        exact ih next
      · rename_i top
        refine ⟨nofun, ?_⟩
        rintro ⟨below, continues⟩
        exact absurd (Nat.lt_of_le_of_lt (continues.le pos) below) top

/-! ## Numbers -/

/-- The text is one or more digits of a base with this value. -/
def Numeral (base : Nat) (text : List Char) (value : Nat) : Prop :=
  text ≠ [] ∧ ∃ digits, List.Forall₂ (IsDigit base) text digits ∧
    value = Nat.ofDigits base digits.reverse

/-- The text is a numeral, or a plus sign and a numeral. -/
def SignedNumeral (base : Nat) (text : List Char) (value : Nat) : Prop :=
  Numeral base text value ∨ ∃ digits, text = '+' :: digits ∧ Numeral base digits value

/-- The text is a hexadecimal number behind its prefix, or a decimal number. -/
inductive Spells : List Char → Nat → Prop
  | smallX {digits : List Char} {value : Nat} :
    SignedNumeral 16 digits value → Spells ('0' :: 'x' :: digits) value
  | capitalX {digits : List Char} {value : Nat} :
    SignedNumeral 16 digits value → Spells ('0' :: 'X' :: digits) value
  | decimal {digits : List Char} {value : Nat} :
    SignedNumeral 10 digits value → Spells digits value

theorem numeral_iff : Numeral base text value ↔ text ≠ [] ∧ Continues base 0 text value := by
  simp only [Numeral, Continues, Nat.zero_mul, Nat.zero_add]

theorem Numeral.isDigit_of_mem (numeral : Numeral base text value) (mem : c ∈ text) :
    ∃ digit, IsDigit base c digit := by
  obtain ⟨-, digits, spelled, -⟩ := numeral
  induction spelled with
  | nil => cases mem
  | cons isDigit _ ih =>
    cases mem with
    | head => exact ⟨_, isDigit⟩
    | tail _ mem => exact ih mem

/-- A character that is not written like any digit does not occur in numerals. -/
theorem Numeral.not_mem (le : base ≤ 16) (other : ∀ digit < 16, c.toLower ≠ digit.digitChar)
    (numeral : Numeral base text value) : c ∉ text := by
  intro mem
  obtain ⟨digit, lt, written⟩ := numeral.isDigit_of_mem mem
  exact other digit (Nat.lt_of_lt_of_le lt le) written

theorem signedNumeral_plus (le : base ≤ 16) :
    SignedNumeral base ('+' :: rest) value ↔ Numeral base rest value := by
  constructor
  · rintro (numeral | ⟨digits, same, numeral⟩)
    · exact absurd List.mem_cons_self (numeral.not_mem le (by decide))
    · cases same
      exact numeral
  · exact fun numeral => .inr ⟨rest, rfl, numeral⟩

theorem signedNumeral_of_unsigned (unsigned : ∀ digits, text ≠ '+' :: digits) :
    SignedNumeral base text value ↔ Numeral base text value := by
  constructor
  · rintro (numeral | ⟨digits, same, -⟩)
    · exact numeral
    · exact absurd same (unsigned digits)
  · exact .inl

theorem readNumber_eq_ok_iff (pos : 0 < base) (le : base ≤ 16) :
    readNumber base text = .ok value ↔ value < addressSpace ∧ SignedNumeral base text value := by
  have digits_iff {digits : List Char} (nonempty : digits ≠ []) :
      readDigits base 0 digits = .ok value ↔ value < addressSpace ∧ Numeral base digits value := by
    rw [readDigits_eq_ok_iff pos le (by decide), numeral_iff, and_iff_right nonempty]
  have empty : ¬Numeral base [] value := fun numeral => numeral.1 rfl
  unfold readNumber
  split
  · -- nothing
    rw [signedNumeral_of_unsigned (by simp)]
    exact ⟨nofun, fun read => absurd read.2 empty⟩
  · -- a sign alone
    rw [signedNumeral_plus le]
    exact ⟨nofun, fun read => absurd read.2 empty⟩
  · rename_i digits alone
    rw [signedNumeral_plus le]
    exact digits_iff (by rintro rfl; exact alone rfl)
  · rename_i nonempty _ unsigned
    rw [signedNumeral_of_unsigned unsigned]
    exact digits_iff nonempty

/-! ## Addresses -/

/-- The prefix of hexadecimal numbers does not start a decimal one. -/
theorem not_signedNumeral_zero_cons (other : ∀ digit < 16, c.toLower ≠ digit.digitChar) :
    ¬SignedNumeral 10 ('0' :: c :: rest) value := by
  rw [signedNumeral_of_unsigned (by simp)]
  exact fun numeral => numeral.not_mem (by decide) other (by simp)

/-- Exactly the texts that spell an address are read as one. -/
theorem read_eq_ok_iff : read text = .ok value ↔ value < addressSpace ∧ Spells text value := by
  have hexadecimal (digits : List Char) : readNumber 16 digits = .ok value ↔
      value < addressSpace ∧ SignedNumeral 16 digits value :=
    readNumber_eq_ok_iff (by decide) (by decide)
  unfold read
  split
  · rename_i digits
    rw [hexadecimal]
    refine and_congr_right fun _ => ⟨.smallX, ?_⟩
    rintro (numeral | _ | numeral)
    · exact numeral
    · exact absurd numeral (not_signedNumeral_zero_cons (by decide))
  · rename_i digits
    rw [hexadecimal]
    refine and_congr_right fun _ => ⟨.capitalX, ?_⟩
    rintro (_ | numeral | numeral)
    · exact numeral
    · exact absurd numeral (not_signedNumeral_zero_cons (by decide))
  · rename_i small capital
    rw [readNumber_eq_ok_iff (by decide) (by decide)]
    refine and_congr_right fun _ => ⟨.decimal, ?_⟩
    rintro (@⟨digits, _⟩ | @⟨digits, _⟩ | numeral)
    · exact absurd rfl (small digits)
    · exact absurd rfl (capital digits)
    · exact numeral

/-! ## The text of a number -/

theorem numeral_digitChar (lt : value < base) (le : base ≤ 16) :
    Numeral base [value.digitChar] value := by
  have written := toLower_digitChar value (by omega)
  exact ⟨List.cons_ne_nil _ _, [value], .cons ⟨lt, written⟩ .nil, by simp⟩

theorem numeral_concat (numeral : Numeral base text value) (isDigit : IsDigit base c digit) :
    Numeral base (text ++ [c]) (value * base + digit) := by
  obtain ⟨-, digits, spelled, rfl⟩ := numeral
  refine ⟨by simp, digits ++ [digit], List.rel_append spelled (.cons isDigit .nil), ?_⟩
  rw [List.reverse_append, List.reverse_singleton, List.singleton_append, Nat.ofDigits_cons]
  ring

theorem numeral_toDigits (lt : 1 < base) (le : base ≤ 16) (value : Nat) :
    Numeral base (Nat.toDigits base value) value := by
  induction value using Nat.strongRecOn with
  | _ value ih =>
    by_cases single : value < base
    · rw [Nat.toDigits_of_lt_base single]
      exact numeral_digitChar single le
    · rw [Nat.not_lt] at single
      have front := ih (value / base) (Nat.div_lt_self (by omega) lt)
      have below : value % base < base := Nat.mod_lt value (by omega)
      have last : IsDigit base (value % base).digitChar (value % base) :=
        ⟨below, toLower_digitChar _ (by omega)⟩
      have joined := numeral_concat front last
      rw [Nat.div_add_mod'] at joined
      rw [Nat.toDigits_of_base_le lt single]
      exact joined

theorem spells_toString (value : Nat) : Spells (toString value).toList value := by
  rw [Nat.toString_eq_ofList_toDigits, String.toList_ofList]
  exact .decimal (.inl (numeral_toDigits (by decide) (by decide) value))

theorem spells_hex (value : Nat) : Spells (hex value).toList value := by
  have written : (hex value).toList = '0' :: 'x' :: Nat.toDigits 16 value := by
    rw [hex, String.toList_append, String.toList_ofList (l := Nat.toDigits 16 value)]
    rfl
  rw [written]
  exact .smallX (.inl (numeral_toDigits (by decide) (by decide) value))

/-- No address has a colon. -/
theorem Spells.colon_not_mem (spells : Spells text value) : ':' ∉ text := by
  have signed {base : Nat} (le : base ≤ 16) {text : List Char}
      (numeral : SignedNumeral base text value) : ':' ∉ text := by
    rcases numeral with numeral | ⟨digits, rfl, numeral⟩
    · exact numeral.not_mem le (by decide)
    · simp [numeral.not_mem le (by decide : ∀ digit < 16, ':'.toLower ≠ digit.digitChar)]
  cases spells with
  | smallX numeral => simp [signed (Nat.le_refl 16) numeral]
  | capitalX numeral => simp [signed (Nat.le_refl 16) numeral]
  | decimal numeral => exact signed (by decide) numeral

end Address

/-! ## Arguments -/

variable {text : String} {region : RegionArgument}

/-- An argument is an address exactly if it spells one. -/
theorem readAddress_eq_ok_iff {address : UInt64} :
    readAddress text = .ok address ↔ Address.Spells text.toList address.toNat := by
  rw [readAddress]
  cases read : Address.read text.toList with
  | ok value =>
    obtain ⟨below, spells⟩ := Address.read_eq_ok_iff.1 read
    rw [Except.ok.injEq]
    constructor
    · rintro rfl
      rwa [UInt64.toNat_ofNat_of_lt' below]
    · intro spellsAddress
      rw [Address.read_eq_ok_iff.2 ⟨address.toNat_lt, spellsAddress⟩] at read
      cases read
      exact UInt64.ofNat_toNat
  | error fault =>
    refine ⟨nofun, fun spells => ?_⟩
    rw [Address.read_eq_ok_iff.2 ⟨address.toNat_lt, spells⟩] at read
    cases read

/-- The fault of an argument that spells no address. -/
theorem exists_fault_readAddress_iff :
    (∃ fault, readAddress text = .error fault) ↔
      ¬∃ address : UInt64, Address.Spells text.toList address.toNat := by
  simp only [← readAddress_eq_ok_iff]
  cases readAddress text <;> simp

theorem readRegion_of_not_mem (plain : ':' ∉ text.toList) :
    readRegion text = .error (.missingColon text) := by
  rw [readRegion, Text.splitFirst?_eq_none_iff.2 plain]

/-- What stands behind the first colon has to be there, and what stands in front of it is read
as an address. -/
theorem readRegion_of_append {address file : List Char}
    (written : text.toList = address ++ ':' :: file) (plain : ':' ∉ address) :
    readRegion text =
      if file = [] then .error (.missingFile text)
      else (readAddress (String.ofList address)).map
        fun start => { address := start, file := String.ofList file } := by
  rw [readRegion, Text.splitFirst?_eq_some_iff.2 ⟨written, plain⟩]
  cases file with
  | nil => rfl
  | cons c file =>
    rw [if_neg (List.cons_ne_nil c file)]
    change (readAddress (String.ofList address) >>= fun start => pure _) = _
    cases readAddress (String.ofList address) <;> rfl

/-- A region is read as the address in front of its first colon and the file behind it. -/
theorem readRegion_eq_ok_iff :
    readRegion text = .ok region ↔
      ∃ address, text.toList = address ++ ':' :: region.file.toList ∧ region.file ≠ "" ∧
        Address.Spells address region.address.toNat := by
  constructor
  · intro read
    by_cases mem : ':' ∈ text.toList
    · obtain ⟨address, file, written, plain⟩ := List.eq_append_cons_of_mem mem
      rw [readRegion_of_append written plain] at read
      split at read
      · cases read
      · rename_i named
        cases readStart : readAddress (String.ofList address) with
        | error fault =>
          rw [readStart] at read
          cases read
        | ok start =>
          rw [readStart] at read
          cases read
          have spells := readAddress_eq_ok_iff.1 readStart
          rw [String.toList_ofList] at spells
          refine ⟨address, by rw [String.toList_ofList, written], ?_, spells⟩
          exact fun nameless => named (String.ofList_injective nameless)
    · rw [readRegion_of_not_mem mem] at read
      cases read
  · rintro ⟨address, written, named, spells⟩
    have nonempty : region.file.toList ≠ [] := fun nameless =>
      named (String.toList_injective nameless)
    have readStart : readAddress (String.ofList address) = .ok region.address := by
      rwa [readAddress_eq_ok_iff, String.toList_ofList]
    rw [readRegion_of_append written spells.colon_not_mem, if_neg nonempty, readStart]
    exact congrArg (fun file => Except.ok { region with file }) String.ofList_toList

theorem exists_fault_readRegion_iff :
    (∃ fault, readRegion text = .error fault) ↔
      ':' ∉ text.toList ∨
      (∃ address, text.toList = address ++ [':'] ∧ ':' ∉ address) ∨
      ∃ address file, text.toList = address ++ ':' :: file ∧ ':' ∉ address ∧
        ¬∃ start : UInt64, Address.Spells address start.toNat := by
  have exists_fault_iff (address : List Char) :
      (∃ fault, readAddress (String.ofList address) = .error fault) ↔
        ¬∃ start : UInt64, Address.Spells address start.toNat := by
    rw [exists_fault_readAddress_iff, String.toList_ofList]
  constructor
  · rintro ⟨fault, failed⟩
    by_cases mem : ':' ∈ text.toList
    · obtain ⟨address, file, written, plain⟩ := List.eq_append_cons_of_mem mem
      rw [readRegion_of_append written plain] at failed
      split at failed
      · rename_i nameless
        rw [nameless] at written
        exact .inr (.inl ⟨address, written, plain⟩)
      · refine .inr (.inr ⟨address, file, written, plain, (exists_fault_iff address).1 ?_⟩)
        cases readStart : readAddress (String.ofList address) with
        | error fault => exact ⟨fault, rfl⟩
        | ok start =>
          rw [readStart] at failed
          cases failed
    · exact .inl mem
  · rintro (plain | ⟨address, written, plain⟩ | ⟨address, file, written, plain, unread⟩)
    · exact ⟨_, readRegion_of_not_mem plain⟩
    · rw [readRegion_of_append written plain, if_pos rfl]
      exact ⟨_, rfl⟩
    · rw [readRegion_of_append written plain]
      split
      · exact ⟨_, rfl⟩
      · obtain ⟨fault, failed⟩ := (exists_fault_iff address).2 unread
        exact ⟨fault, by rw [failed]; rfl⟩

/-- **Reading addresses and regions.** An argument is read as an address below the top of the
address space exactly if it spells that address. A region that is written as the decimal or
hexadecimal text of an address, a colon and a file is read as that address and that file,
whatever characters the file has. A region is rejected exactly if it has no colon, nothing
behind its first colon, or no address in front of it. -/
theorem readAddress_readRegion_exact :
    (∀ (text : String) (address : UInt64),
      readAddress text = .ok address ↔ Address.Spells text.toList address.toNat) ∧
    (∀ (address : UInt64) (file : String), file ≠ "" →
      readRegion (toString address.toNat ++ ":" ++ file) = .ok { address, file } ∧
      readRegion (hex address.toNat ++ ":" ++ file) = .ok { address, file }) ∧
    (∀ text : String, (∃ fault, readRegion text = .error fault) ↔
      ':' ∉ text.toList ∨
      (∃ address, text.toList = address ++ [':'] ∧ ':' ∉ address) ∨
      ∃ address file, text.toList = address ++ ':' :: file ∧ ':' ∉ address ∧
        ¬∃ start : UInt64, Address.Spells address start.toNat) := by
  refine ⟨fun text address => readAddress_eq_ok_iff, ?roundTrip,
    fun text => exists_fault_readRegion_iff⟩
  case roundTrip =>
    intro address file named
    have joined (front : String) :
        (front ++ ":" ++ file).toList = front.toList ++ ':' :: file.toList := by
      rw [String.toList_append, String.toList_append, List.append_assoc]
      rfl
    exact ⟨readRegion_eq_ok_iff.2 ⟨_, joined _, named, Address.spells_toString _⟩,
      readRegion_eq_ok_iff.2 ⟨_, joined _, named, Address.spells_hex _⟩⟩

/-- The highest address with a file that has a colon itself, an address with a sign and leading
zeros behind its prefix, and the first number that is no address. -/
theorem readAddress_readRegion_highest :
    "C:/bss.bin" ≠ "" ∧
      readRegion "18446744073709551615:C:/bss.bin" =
        .ok { address := 0xffffffffffffffff, file := "C:/bss.bin" } ∧
      readRegion "0xffffffffffffffff:C:/bss.bin" =
        .ok { address := 0xffffffffffffffff, file := "C:/bss.bin" } ∧
      Address.Spells "0X+000fF".toList 255 ∧
      ¬∃ start : UInt64, Address.Spells "18446744073709551616".toList start.toNat := by
  obtain ⟨spelled, roundTrip, -⟩ := readAddress_readRegion_exact
  have named : "C:/bss.bin" ≠ "" := by decide
  obtain ⟨decimal, hexadecimal⟩ := roundTrip 0xffffffffffffffff "C:/bss.bin" named
  have decimalText : toString (0xffffffffffffffff : UInt64).toNat ++ ":" ++ "C:/bss.bin" =
      "18446744073709551615:C:/bss.bin" := by decide +kernel
  have hexadecimalText : hex (0xffffffffffffffff : UInt64).toNat ++ ":" ++ "C:/bss.bin" =
      "0xffffffffffffffff:C:/bss.bin" := by decide +kernel
  rw [decimalText] at decimal
  rw [hexadecimalText] at hexadecimal
  refine ⟨named, decimal, hexadecimal, (spelled "0X+000fF" 255).1 (by decide +kernel), ?_⟩
  rintro ⟨start, spells⟩
  have read := (spelled "18446744073709551616" start).2 spells
  have rejected : readAddress "18446744073709551616" =
      .error (.address "18446744073709551616" .overflow) := by decide +kernel
  rw [rejected] at read
  cases read

end ImageDump
