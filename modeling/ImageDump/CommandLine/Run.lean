import ImageDump.CommandLine.Arguments
import ImageDump.File.Dump
import ImageDump.Memory.Snapshot
import ImageDump.Text.Case

/-!
# Running a command line

A complete command line is run on a host: the load address is taken from the
settings or from the source, the captured regions are read from their files,
and the snapshot made of them is dumped into a copy of the source. What the
program prints and its exit code follow from how that ended.
-/

namespace ImageDump

/-- Why a command line fails when it is run. -/
inductive CommandError where
  /-- The load address cannot be taken from the source. -/
  | source (error : DumpError)
  | region (kind : RegionKind) (file : String) (error : FileError)
  | dump (input : String) (error : DumpError)
deriving DecidableEq, Repr

/-- The text of an error followed by the text of the failure it wraps. -/
def DumpError.chain (error : DumpError) : String :=
  match error.cause? with
  | some cause => s!"{error.message}: {cause}"
  | none => error.message

def CommandError.message : CommandError → String
  | source error => error.chain
  | region kind file error =>
    s!"failed to read {kind.label} from {file}: {error.message}"
  | dump input error => s!"failed to dump {input}: {error.chain}"

/-! ## The journal on the screen -/

/-- The records that are shown at a level. A level without a meaning shows none,
and no level at all shows the errors. -/
def shownSeverities (level : String) : List Severity :=
  match foldCase level with
  | "" | "error" => [.error]
  | "warn" => [.error, .warning]
  | "info" | "debug" | "trace" => [.error, .warning, .information]
  | _ => []

def Severity.tag : Severity → String
  | error => "[ERROR]"
  | warning => "[WARN ]"
  | information => "[INFO ]"

/-- A record with its severity in front. Further lines of its text are indented
by four spaces. -/
def JournalRecord.line (record : JournalRecord) : String :=
  let indented := record.text.toList.flatMap fun c => if c = '\n' then "\n    ".toList else [c]
  s!"{record.severity.tag} {String.ofList indented}\n"

/-- The records of a journal that are shown at a level. -/
def shownJournal (level : String) (journal : List JournalRecord) : String :=
  let shown := journal.filter fun record => (shownSeverities level).contains record.severity
  String.join (shown.map (·.line))

/-! ## Running -/

/-- What a run prints and returns to the system. -/
structure CommandOutcome where
  exitCode : Nat
  stdout : String
  stderr : String
deriving DecidableEq, Repr

/-- The outcome of a run that failed after printing this much. -/
def CommandOutcome.failure (stdout journal : String) (error : CommandError) :
    CommandOutcome where
  exitCode := 1
  stdout := stdout
  stderr := journal ++ s!"error: {error.message}\n"

namespace Settings

def options (settings : Settings) : DumpOptions where
  dataSection := if settings.dataSection.isEmpty then none else some settings.dataSection
  checksum := !settings.noChecksum

/-- The captured regions in the order in which they are read. -/
def regions (settings : Settings) : List (RegionKind × RegionArgument) :=
  [(.bss, settings.bss)] ++ (settings.data.map (RegionKind.data, ·)).toList ++
    (settings.staticBss.map (RegionKind.staticBss, ·)).toList

variable {m : Type → Type} [Monad m] [FileHost m]

/-- The load address, from the source if it is not given. -/
def loadAddress (settings : Settings) : m (Except CommandError UInt64) := do
  match settings.imageBase with
  | some base => return .ok base
  | none =>
    match ← parseFile settings.input with
    | .ok image => return .ok image.windows.imageBase
    | .error error => return .error (.source error)

/-- Read the captured regions into a snapshot. -/
def readRegions : Snapshot → List (RegionKind × RegionArgument) →
    m (Except CommandError Snapshot)
  | snapshot, [] => return .ok snapshot
  | snapshot, (kind, argument) :: rest => do
    match ← FileHost.readFile argument.file with
    | .error error => return .error (.region kind argument.file error)
    | .ok bytes => readRegions (snapshot.setRegion kind argument.address bytes) rest

/-- The snapshot that the settings describe. -/
def snapshot (settings : Settings) : m (Except CommandError Snapshot) := do
  match ← settings.loadAddress with
  | .error error => return .error error
  | .ok imageBase => readRegions { imageBase } settings.regions

/-- Run a command line. -/
def run (settings : Settings) : m CommandOutcome := do
  match ← settings.snapshot with
  | .error error => return .failure "" "" error
  | .ok snapshot =>
    let opening := s!"Dumping from {settings.input}\n"
    let dump ← dumpFile settings.input settings.output snapshot.toMemoryImage settings.options
    let journal := shownJournal settings.logLevel dump.journal
    match dump.result with
    | .ok path =>
      return { exitCode := 0, stdout := opening ++ s!"          to {path}\n", stderr := journal }
    | .error error => return .failure opening journal (.dump settings.input error)

end Settings
end ImageDump
