/-!
# Hexadecimal numbers in messages

Every address, offset and size in a message is written in lowercase
hexadecimal with a leading `0x` and no leading zeros.
-/

namespace ImageDump

/-- The lowercase hexadecimal text of a number, with a leading `0x`. -/
def hex (n : Nat) : String := "0x" ++ String.ofList (Nat.toDigits 16 n)

example : hex 0x402080 = "0x402080" := by decide +kernel

example : hex 0 = "0x0" := by decide +kernel

end ImageDump
