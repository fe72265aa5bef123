import ImageDump.Output.Cursor
import ImageDump.Plan

/-!
# Copying an image with live memory in it

The source is copied front to back: the headers, each section in table order,
and what follows the last section. Every part starts at the aligned end of the
part before it, so a section that grows moves all later ones. As a section
passes, the regions planned for it are written over its raw data; a region of
uninitialized data makes the raw data reach to the aligned end of the region.

The copy also works out the destination headers: the size of the headers and
the place, size and content of each section. The other headers are left to be
patched once everything has its place.
-/

namespace ImageDump

/-- What is copied: a source, the live memory to write over it, and the plan
where. -/
structure CopyJob where
  source : Image
  memory : MemoryImage
  plan : Plan

/-- How far a copy has come: the destination headers and the output. -/
structure CopyState where
  headers : Headers
  cursor : Cursor

namespace CopyJob

def alignment (job : CopyJob) : Nat := job.plan.fileAlignment.toNat

/-- A copy into an output before its first stage. -/
def initial (job : CopyJob) (output : Buffer) : CopyState :=
  { headers := job.source.toHeaders, cursor := Cursor.start output }

/-! ## The parts of an image -/

/-- Copy the headers, up to the end of the section table. -/
def copyHeaders (job : CopyJob) (state : CopyState) : Except Interrupted CopyState := do
  let cursor ← state.cursor.copySource job.source.data 0 state.headers.offsets.sectionsEnd
  let cursor ← cursor.alignZeroed job.alignment
  let size := UInt32.ofNat cursor.position
  return {
    headers := { state.headers with windows := state.headers.windows.withHeadersSize size }
    cursor }

/-- Write a region over the raw data of the section at `index`, which starts at
`start`. The cursor then stands at the end of the section's raw data. -/
def storeRegion (job : CopyJob) (index start : Nat) (state : CopyState)
    (placement : Placement) : Except Interrupted CopyState := do
  let rawSize := (state.headers.sections[index]?.map (·.rawSize.toNat)).getD 0
  let cursor ←
    (state.cursor.seek (start + placement.offset)).copyMemory job.memory placement.region
  if placement.isGrowing then
    let aligned ← cursor.align job.alignment
    let stop := max aligned.position (start + rawSize)
    let resize (header : SectionHeader) : SectionHeader :=
      { header with
        rawPointer := UInt32.ofNat start
        rawSize := UInt32.ofNat (stop - start) }
    return {
      headers := state.headers.modifySection index fun header => (resize header).markDumped
      cursor := cursor.seek stop }
  else
    return { state with cursor := cursor.seek (start + rawSize) }

/-- Copy the section at `index` and write the regions planned for it. -/
def copySection (job : CopyJob) (index : Nat) (state : CopyState) :
    Except Interrupted CopyState := do
  let some entry := job.source.sections[index]? | return state
  let start := state.cursor.position
  let move (header : SectionHeader) : SectionHeader :=
    if header.hasRawData then { header with rawPointer := UInt32.ofNat start } else header
  let headers := state.headers.modifySection index move
  let cursor ← state.cursor.copySource job.source.data entry.rawPointer.toNat
    entry.rawSize.toNat
  let cursor ← cursor.alignZeroed job.alignment
  let state ← (job.plan.placementsIn index).foldlM (job.storeRegion index start)
    { headers, cursor }
  let cursor ← state.cursor.align job.alignment
  return { state with cursor }

/-- Where the trailer of the source starts: at the aligned end of the raw data,
or of the section table if no section has raw data. -/
def trailerOffset (source : Image) (alignment : Nat) : Nat :=
  let rawEnd := source.sections.lastRawEnd
  alignUp (if rawEnd = 0 then source.offsets.sectionsEnd else rawEnd) alignment

/-- Copy what follows the last section. -/
def copyTrailer (job : CopyJob) (state : CopyState) : Except Interrupted CopyState := do
  let offset := trailerOffset job.source job.alignment
  let size := job.source.data.length - offset
  if size = 0 then
    return state
  let cursor ← state.cursor.copySource job.source.data offset size
  return { state with cursor }

/-! ## The whole copy -/

/-- The stages of a copy. -/
inductive Stage where
  | headers
  | sectionAt (index : Nat)
  | trailer
  | done
deriving DecidableEq, Repr

/-- The stage after a stage, in an image with `count` sections. -/
def Stage.next (count : Nat) : Stage → Stage
  | headers => if 0 < count then sectionAt 0 else trailer
  | sectionAt index => if index + 1 < count then sectionAt (index + 1) else trailer
  | trailer => done
  | done => done

/-- All stages that copy something, in order. -/
def Stage.all (count : Nat) : List Stage :=
  headers :: (List.range count).map sectionAt ++ [trailer]

/-- Carry out a stage. -/
def perform (job : CopyJob) (state : CopyState) : Stage → Except Interrupted CopyState
  | .headers => job.copyHeaders state
  | .sectionAt index => job.copySection index state
  | .trailer => job.copyTrailer state
  | .done => .ok state

/-- Copy the source into an output. The final position of the cursor is the size
that the output should have, which may differ from the size it has. -/
def run (job : CopyJob) (output : Buffer) : Except Interrupted CopyState :=
  (Stage.all job.source.sections.length).foldlM job.perform (job.initial output)

end CopyJob
end ImageDump
