import ImageDump.Alignment
import ImageDump.Output.Buffer
import ImageDump.Output.Store

/-!
# An output with a write position

The parts of an image are copied one after the other, so the output is written
through a cursor that moves on with each copy. A copy is checked against the
end of the output. Rounding up and seeking only move the cursor, and may move it
beyond the end; the output then has to be extended with zeros once all is
copied.
-/

namespace ImageDump

/-- An output and the position of the next write. -/
structure Cursor where
  output : Buffer
  position : Nat

namespace Cursor

/-- A cursor at the start of an output. -/
def start (output : Buffer) : Cursor := { output, position := 0 }

/-- The failure that leaves the output as it is. -/
def interrupt (cursor : Cursor) (error : DumpError) : Interrupted :=
  { error, output := cursor.output }

def seek (cursor : Cursor) (position : Nat) : Cursor := { cursor with position }

/-- Write bytes and move behind them, provided they fit into the output. -/
def put (cursor : Cursor) (bytes : Bytes) : Except Interrupted Cursor :=
  let stop := cursor.position + bytes.length
  if stop ≤ cursor.output.size then
    .ok { output := cursor.output.write cursor.position bytes, position := stop }
  else .error <| cursor.interrupt <|
    .outputOverflow cursor.position bytes.length cursor.output.size

/-- Write `size` bytes of the source from `offset` on. -/
def copySource (cursor : Cursor) (source : Bytes) (offset size : Nat) :
    Except Interrupted Cursor :=
  match source.slice? offset size with
  | some bytes => cursor.put bytes
  | none => .error (cursor.interrupt (.sourceOverflow offset size source.length))

/-- Write the live bytes of a region. -/
def copyMemory (cursor : Cursor) (memory : MemoryImage) (region : Region) :
    Except Interrupted Cursor :=
  match memory.read region with
  | some bytes => cursor.put bytes
  | none => .error (cursor.interrupt (.memoryUnavailable region))

/-- Move to the next multiple of the alignment. -/
def align (cursor : Cursor) (alignment : Nat) : Except Interrupted Cursor :=
  if alignment = 0 then .error (cursor.interrupt .zeroAlignment)
  else .ok (cursor.seek (alignUp cursor.position alignment))

/-- Move to the next multiple of the alignment and zero the bytes in between, as
far as the output has them. -/
def alignZeroed (cursor : Cursor) (alignment : Nat) : Except Interrupted Cursor := do
  let aligned ← cursor.align alignment
  return { aligned with
    output := cursor.output.clear cursor.position aligned.position }

/-! ## Series of steps -/

/-- What can be done with a cursor. -/
inductive Step where
  | seek (position : Nat)
  | align (alignment : Nat)
  | alignZeroed (alignment : Nat)
  | copySource (offset size : Nat)
  | copyMemory (region : Region)
deriving DecidableEq, Repr

/-- Carry out a step. -/
def perform (source : Bytes) (memory : MemoryImage) (cursor : Cursor) :
    Step → Except Interrupted Cursor
  | .seek position => .ok (cursor.seek position)
  | .align alignment => cursor.align alignment
  | .alignZeroed alignment => cursor.alignZeroed alignment
  | .copySource offset size => cursor.copySource source offset size
  | .copyMemory region => cursor.copyMemory memory region

/-- Carry out a step; a step that fails changes nothing. -/
def attempt (source : Bytes) (memory : MemoryImage) (cursor : Cursor) (step : Step) :
    Cursor :=
  match cursor.perform source memory step with
  | .ok next => next
  | .error _ => cursor

/-- Carry out steps in order, going on behind those that fail. -/
def attemptAll (source : Bytes) (memory : MemoryImage) (cursor : Cursor)
    (steps : List Step) : Cursor :=
  steps.foldl (attempt source memory) cursor

end Cursor
end ImageDump
