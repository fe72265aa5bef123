import ImageDump.Dump
import ImageDump.File.Path
import ImageDump.File.System

/-!
# Dumping into a file

A dump from file to file goes the way of a dump in memory, but its output is a file
that is mapped. The source is mapped as well, and everything that can be checked
beforehand is checked in it. Only then is a file at the normalized output path
removed, and a new one created there with the planned size. The copy is written
into its mapping. If the copy ends elsewhere, the file gets its final size and is
mapped again. If copying or patching fails, the file stays as far as it was
written.
-/

namespace ImageDump

/-- A file that is mapped to be written. -/
structure MappedFile (m : Type → Type) [FileHost m] where
  path : String
  handle : FileHost.Handle m
  /-- How many bytes are mapped. -/
  size : Nat

namespace MappedFile

variable {m : Type → Type} [Monad m] [FileHost m] {α : Type}

/-- Carry out a file operation. Its failure is blamed on the file at the path. -/
def perform (path : String) (operation : m (Except FileError α)) : ExceptT DumpError m α :=
  ExceptT.mk do return (← operation).mapError (.fileFailure path)

/-- Remove what is at a path, if there is anything. -/
def clear (path : String) : ExceptT DumpError m Unit := do
  if ← (FileHost.pathExists path : m Bool) then
    perform path (FileHost.removeFile path)

/-- Give an open file a size and map it. -/
def allot (path : String) (handle : FileHost.Handle m) (size : Nat) :
    ExceptT DumpError m (MappedFile m) := do
  perform path (FileHost.resizeFile handle size)
  let mapped ← perform path (FileHost.mapFile handle)
  return { path, handle, size := mapped }

/-- Create the file at a path with `size` zero bytes, in place of a file that is there. -/
def create (path : String) (size : Nat) : ExceptT DumpError m (MappedFile m) := do
  clear path
  let handle ← perform path (FileHost.createFile path)
  allot path handle size

/-- Change the size of the file, keeping its contents. -/
def resize (file : MappedFile m) (size : Nat) : ExceptT DumpError m (MappedFile m) := do
  perform file.path (FileHost.flushFile file.handle)
  allot file.path file.handle size

/-- Bring the file to a size, unless as many bytes are mapped. -/
def fit (file : MappedFile m) (size : Nat) : ExceptT DumpError m (MappedFile m) :=
  if size ≠ file.size then file.resize size else pure file

/-- Write into the mapping. If that is interrupted, what was written stays. -/
def write (file : MappedFile m) (writing : Bytes → Except Interrupted (α × Bytes)) :
    ExceptT DumpError m α := do
  match writing (← (FileHost.mapped file.handle : m Bytes)) with
  | .ok (value, output) =>
    (FileHost.writeMapped file.handle output : m Unit)
    return value
  | .error interrupted =>
    (FileHost.writeMapped file.handle interrupted.output : m Unit)
    throw interrupted.error

/-- Have the file on the disk. The result is its path. -/
def finish (file : MappedFile m) : ExceptT DumpError m String := do
  perform file.path (FileHost.flushFile file.handle)
  return file.path

end MappedFile

section

variable {m : Type → Type} [Monad m] [FileHost m]

/-- Write the planned dump of a parsed source into a new file at a path. The result is the file
and the size of the dump. The bytes of the source are those that its mapping shows once the
new file is there. -/
def writeFile (path : String) (input : FileHost.Handle m) (source : Image) (memory : MemoryImage)
    (plan : Plan) (options : DumpOptions) : ExceptT DumpError m (MappedFile m × Nat) := do
  let file ← MappedFile.create path plan.outputSize
  let data ← (FileHost.mapped input : m Bytes)
  let job : CopyJob := { source := { source with data }, memory, plan }
  let (headers, size) ← file.write fun output => do
    let copied ← job.run output
    return ((copied.headers, copied.cursor.position), copied.cursor.output)
  let file ← file.fit size
  let _ ← file.write fun output => Output.patch output job.source headers options
  return (file, size)

/-- How a dump into a file ended, and its journal. -/
structure FileDump where
  /-- The path that was written. -/
  result : Except DumpError String
  journal : List JournalRecord

/-- Dump a memory image into a copy of the executable at `source`, written to
the normalized `target`. -/
def dumpFile (source target : String) (memory : MemoryImage) (options : DumpOptions) :
    m FileDump := do
  let target := Path.normalize target
  let opening := Journal.dumping source target
  match ← FileHost.openFile source with
  | .error error =>
    return { result := .error (.fileFailure source error), journal := [opening] }
  | .ok input =>
    match Image.parse (← FileHost.mapped input) with
    | .error error =>
      return { result := .error (.invalidImage source error), journal := [opening] }
    | .ok image =>
      let journal := opening :: Journal.ofPlan image memory options
      match Plan.analyze image memory options with
      | .error error => return { result := .error error, journal }
      | .ok plan =>
        match ← (writeFile target input image memory plan options).run with
        | .error error => return { result := .error error, journal }
        | .ok (file, size) =>
          let result ← file.finish.run
          return { result, journal := journal ++ [Journal.dumped size] }

/-- Read the image in the file at a path. -/
def parseFile (path : String) : m (Except DumpError Image) := do
  match ← FileHost.readFile path with
  | .error error => return .error (.fileFailure path error)
  | .ok data => return (Image.parse data).mapError (.invalidImage path)

end
end ImageDump
