import ImageDump.Dump.Error
import ImageDump.Headers

/-!
# Writing into an output of fixed size

The output of a dump has its size from the start, and every write either lies
inside it or fails and changes nothing. A sequence of writes that fails leaves
what was written before the failing one; `Interrupted` carries that output
beside the error.
-/

namespace ImageDump

/-- A failure while the output is written: why it stopped, and the output as far
as it was written. -/
structure Interrupted where
  error : DumpError
  output : Bytes
deriving DecidableEq, Repr

namespace Output

/-- Write bytes at an offset. -/
def store (output : Bytes) (offset : Nat) (bytes : Bytes) : Except Interrupted Bytes :=
  if offset + bytes.length ≤ output.length then .ok (output.overwrite offset bytes)
  else .error {
    error := .outputOverflow offset bytes.length output.length
    output }

/-- Write pieces at their offsets, in order. -/
def storeAll (output : Bytes) (pieces : List (Nat × Bytes)) : Except Interrupted Bytes :=
  pieces.foldlM (fun output (offset, bytes) => store output offset bytes) output

/-- Write headers at the offsets they were read from. -/
def storeHeaders (output : Bytes) (headers : Headers) : Except Interrupted Bytes :=
  storeAll output headers.pieces

/-! ## What a write leaves -/

theorem store_eq_ok_iff {output bytes result : Bytes} {offset : Nat} :
    store output offset bytes = .ok result ↔
      offset + bytes.length ≤ output.length ∧ output.overwrite offset bytes = result := by
  by_cases inside : offset + bytes.length ≤ output.length
  · simp [store, inside]
  · simp [store, inside]

end Output
end ImageDump
