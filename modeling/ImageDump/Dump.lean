import ImageDump.Journal
import ImageDump.Output.Patch

/-!
# Dumping a memory image

A dump writes the live data of a running program into a copy of its executable,
so that the copy starts with that data in place. It parses the source, plans
where each region goes, copies the source with the regions written over it,
brings the copy to its final size and patches the headers.
-/

namespace ImageDump

/-- Write the planned dump of a parsed source: copy it, bring the copy to its
final size, and patch the headers. -/
def writeDump (source : Image) (memory : MemoryImage) (plan : Plan)
    (options : DumpOptions) : Except Interrupted Bytes := do
  let job : CopyJob := { source, memory, plan }
  let copied ← job.run (Buffer.zeros plan.outputSize)
  let resized := copied.cursor.output.resize copied.cursor.position
  let (_, output) ← Output.patch resized source copied.headers options
  return output

/-- Dump a memory image into a copy of the source, which messages call
`name`. -/
def dumpNamed (name : String) (source : Bytes) (memory : MemoryImage)
    (options : DumpOptions) : Except DumpError Bytes := do
  let image ← (Image.parse source).mapError (.invalidImage name)
  let plan ← Plan.analyze image memory options
  (writeDump image memory plan options).mapError (·.error)

/-- Dump a memory image into a copy of the source. -/
def dumpImage (source : Bytes) (memory : MemoryImage) (options : DumpOptions) :
    Except DumpError Bytes :=
  dumpNamed "source" source memory options

/-- The journal of `dumpImage`. -/
def dumpJournal (source : Bytes) (memory : MemoryImage) (options : DumpOptions) :
    List JournalRecord :=
  match Image.parse source with
  | .error _ => []
  | .ok image =>
    Journal.ofPlan image memory options ++
      match dumpImage source memory options with
      | .ok output => [Journal.dumped output.length]
      | .error _ => []

end ImageDump
