import ImageDump.Memory.Region
import ImageDump.Text.Split

/-!
# Addresses and regions on the command line

An address is written in decimal, or in hexadecimal after `0x` or `0X`, with an
optional plus sign before the digits. It has to be below the top of the address
space; leading zeros do not matter. A region is written as an address and a
file, separated by the first colon.
-/

namespace ImageDump

/-- Why a text is no address. -/
inductive AddressFault where
  /-- There is nothing where digits should be. -/
  | empty
  | invalidDigit
  /-- The number does not fit into 64 bits. -/
  | overflow
deriving DecidableEq, Repr

def AddressFault.message : AddressFault → String
  | empty => "cannot parse integer from empty string"
  | invalidDigit => "invalid digit found in string"
  | overflow => "number too large to fit in target type"

namespace Address

/-- The value of a digit in a base up to sixteen, in either case. -/
def digitValue? (base : Nat) (c : Char) : Option Nat :=
  let value? :=
    if '0' ≤ c ∧ c ≤ '9' then some (c.toNat - '0'.toNat)
    else if 'a' ≤ c ∧ c ≤ 'f' then some (10 + (c.toNat - 'a'.toNat))
    else if 'A' ≤ c ∧ c ≤ 'F' then some (10 + (c.toNat - 'A'.toNat))
    else none
  value?.filter (· < base)

/-- Read digits behind a number that is already read. The first character that
is no digit, or makes the number too large, decides the fault. -/
def readDigits (base : Nat) : Nat → List Char → Except AddressFault Nat
  | value, [] => .ok value
  | value, c :: rest =>
    match digitValue? base c with
    | none => .error .invalidDigit
    | some digit =>
      let next := value * base + digit
      if next < addressSpace then readDigits base next rest else .error .overflow

/-- Read a number with an optional plus sign. A sign needs digits after it. -/
def readNumber (base : Nat) (text : List Char) : Except AddressFault Nat :=
  match text with
  | [] => .error .empty
  | ['+'] => .error .invalidDigit
  | '+' :: digits => readDigits base 0 digits
  | digits => readDigits base 0 digits

/-- Read an address. -/
def read (text : List Char) : Except AddressFault Nat :=
  match text with
  | '0' :: 'x' :: digits => readNumber 16 digits
  | '0' :: 'X' :: digits => readNumber 16 digits
  | digits => readNumber 10 digits

end Address

/-! ## Arguments -/

/-- Why an argument is no address, or no region. -/
inductive ArgumentFault where
  | address (text : String) (fault : AddressFault)
  /-- There is no colon between an address and a file. -/
  | missingColon (text : String)
  | missingFile (text : String)
deriving DecidableEq, Repr

def ArgumentFault.message : ArgumentFault → String
  | address text fault => s!"invalid address {text}: {fault.message}"
  | missingColon text => s!"expected ADDRESS:FILE, got {text}"
  | missingFile text => s!"missing file in {text}"

/-- A captured region given on the command line: where it was captured, and the
file with its bytes. -/
structure RegionArgument where
  address : UInt64
  file : String
deriving DecidableEq, Repr

/-- Read an address argument. -/
def readAddress (text : String) : Except ArgumentFault UInt64 :=
  match Address.read text.toList with
  | .ok address => .ok (UInt64.ofNat address)
  | .error fault => .error (.address text fault)

/-- Read a region argument. -/
def readRegion (text : String) : Except ArgumentFault RegionArgument :=
  match Text.splitFirst? ':' text.toList with
  | none => .error (.missingColon text)
  | some (_, []) => .error (.missingFile text)
  | some (address, file) => do
    return { address := ← readAddress (String.ofList address), file := String.ofList file }

end ImageDump
