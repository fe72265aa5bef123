import ImageDump.CommandLine.Run

/-!
# The program

The outer layer: it gives the command line its files, prints what a run prints,
and exits with the code of the run. Everything it decides is decided elsewhere.
-/

namespace ImageDump.Program

/-- The failure that the operating system reports. -/
def fileError (error : IO.Error) : FileError :=
  match error with
  | .noFileOrDirectory _ 20 _ => .notADirectory
  | .noFileOrDirectory .. => .notFound
  | .inappropriateType _ 20 _ => .notADirectory
  | .inappropriateType .. => .isADirectory
  | other => .other (toString other)

/-- The result of a file operation as a value. -/
def attempt {α : Type} (action : IO α) : IO (Except FileError α) := do
  match ← action.toBaseIO with
  | .ok value => return .ok value
  | .error error => return .error (fileError error)

/-- The contents of an open file. -/
def contents (handle : IO.FS.Handle) : IO Bytes := do
  handle.rewind
  return (← handle.readBinToEnd).data.toList

/-- Give an open file these contents. -/
def setContents (handle : IO.FS.Handle) (contents : Bytes) : IO Unit := do
  handle.rewind
  handle.write ⟨contents.toArray⟩
  handle.flush
  handle.truncate

instance : FileHost IO where
  Handle := IO.FS.Handle
  readFile path := attempt do return (← IO.FS.readBinFile path).data.toList
  pathExists path := do
    match ← (IO.FS.realPath path).toBaseIO with
    | .ok _ => return true
    | .error _ => return false
  removeFile path := attempt (IO.FS.removeFile path)
  openFile path := do
    let opened ← attempt do
      let handle ← IO.FS.Handle.mk path .read
      discard (handle.read 1)
      return handle
    -- a directory is opened and fails here when it is read, there when it is mapped
    match opened with
    | .error .isADirectory => return .error .unmappable
    | opened => return opened
  createFile path := attempt do
    discard (IO.FS.Handle.mk path .write)
    IO.FS.Handle.mk path .readWrite
  resizeFile handle size := attempt do
    setContents handle ((← contents handle).resize size)
  mapFile handle := attempt do return (← contents handle).length
  mapped := contents
  writeMapped := setContents
  flushFile handle := attempt handle.flush

/-- How the program is called. -/
def usage : String :=
  "Usage: imagedump <INPUT> --output <OUTPUT> --bss <ADDRESS:FILE>\n" ++
  "                 [--data <ADDRESS:FILE>] [--static-bss <ADDRESS:FILE>]\n" ++
  "                 [--image-base <ADDRESS>] [--data-section <NAME>]\n" ++
  "                 [--no-checksum] [--log-level <LEVEL>]\n"

/-- Print an outcome and return its exit code. -/
def report (outcome : CommandOutcome) : IO UInt32 := do
  IO.print outcome.stdout
  IO.eprint outcome.stderr
  return UInt32.ofNat outcome.exitCode

end ImageDump.Program

open ImageDump in
def main (arguments : List String) : IO UInt32 := do
  match readArguments arguments with
  | .ok settings => Program.report (← settings.run)
  | .error .help =>
    Program.report { exitCode := 0, stdout := Program.usage, stderr := "" }
  | .error .version =>
    Program.report { exitCode := 0, stdout := "imagedump 0.1.0\n", stderr := "" }
  | .error .usage =>
    Program.report { exitCode := 2, stdout := "", stderr := Program.usage }
  | .error (.badValue fault) =>
    Program.report { exitCode := 2, stdout := "", stderr := s!"error: {fault.message}\n" }
