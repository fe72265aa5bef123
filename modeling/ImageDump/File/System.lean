import ImageDump.Bytes
import ImageDump.File.Error
import ImageDump.Text.Split

/-!
# Files

What a dump asks of its host is the class `FileHost`: to read and remove files,
and to open, resize and map them. A file that is open is known by its handle and
no longer by its name, so that it stays if the name is removed. A mapping shows
the bytes of its file, and what is written into it is in the file.

`FileSystem` is the host as a value, a finite tree of directories and files in
which paths are resolved component by component: every component but the last has
to be a directory that exists, and so has whatever a trailing slash or dot
follows. What else the operating system may object to, such as missing rights or
too large a file, is a parameter of it (`FileSystem.refusal?`).
-/

namespace ImageDump

/-- A host with files. -/
class FileHost (m : Type → Type) where
  /-- A file that is open. -/
  Handle : Type
  /-- The contents of the file at a path. -/
  readFile : String → m (Except FileError Bytes)
  /-- Something is at the path. -/
  pathExists : String → m Bool
  removeFile : String → m (Except FileError Unit)
  /-- Open the file at a path and map it to be read. -/
  openFile : String → m (Except FileError Handle)
  /-- Open the file at a path to be written, and empty it. If there is none, create it. -/
  createFile : String → m (Except FileError Handle)
  /-- Cut an open file to a size, or fill it up to the size with zeros. -/
  resizeFile : Handle → Nat → m (Except FileError Unit)
  /-- Map an open file to be written. The result is how many bytes are mapped. -/
  mapFile : Handle → m (Except FileError Nat)
  /-- The bytes that are mapped. -/
  mapped : Handle → m Bytes
  /-- Write other bytes, just as many, into the mapping. -/
  writeMapped : Handle → Bytes → m Unit
  /-- Have everything that was written into the mapping on the disk. -/
  flushFile : Handle → m (Except FileError Unit)

/-- What is found at a location. -/
inductive Entry where
  | directory
  | file (contents : Bytes)
deriving DecidableEq, Repr

/-- A location in the tree: the names that lead to it, innermost first. -/
abbrev Location := List (List Char)

/-- A file that was opened. -/
inductive OpenFile where
  /-- It is still where it was opened. -/
  | named (location : Location)
  /-- Its name was removed, and it stays for this handle. -/
  | nameless (contents : Bytes)
deriving DecidableEq, Repr

/-- An open file once the name at a location is removed that stood for these contents. -/
def OpenFile.detach (location : Location) (contents : Bytes) : OpenFile → OpenFile
  | named here => if here = location then nameless contents else named here
  | nameless own => nameless own

/-- What the operating system can refuse to do with a file. -/
inductive FileOperation where
  | remove
  | create
  | resize (size : Nat)
  | map
  | flush
deriving DecidableEq, Repr

/-- A tree of directories and files. -/
structure FileSystem where
  entries : List (Location × Entry)
  /-- Where paths start that do not start with a slash. -/
  workingDirectory : Location := []
  /-- The files that were opened, in order; a handle is a position here. -/
  opened : List OpenFile := []
  /-- The failure of an operation on the file at a location, if the operating system does not
  let it through. -/
  refusal? : FileOperation → Location → Option FileError := fun _ _ => none

namespace FileSystem

/-- What is at a location. The root is always a directory. -/
def lookup (files : FileSystem) (location : Location) : Option Entry :=
  if location = [] then some .directory else files.entries.lookup location

/-- Take away what is at a location. -/
def erase (files : FileSystem) (location : Location) : FileSystem :=
  { files with entries := files.entries.filter (·.1 ≠ location) }

/-- Put an entry at a location, in place of what was there. -/
def insert (files : FileSystem) (location : Location) (entry : Entry) : FileSystem :=
  { files with entries := (location, entry) :: (files.erase location).entries }

/-! ## Resolving paths -/

/-- How many bytes a name can have. -/
def nameLimit : Nat := 255

/-- How many bytes a path can have. -/
def pathLimit : Nat := 4095

/-- The length of a text in bytes. -/
def byteLength (text : List Char) : Nat :=
  text.foldl (fun length character => length + character.utf8Size) 0

/-- Follow one component from a directory. The root is its own parent. -/
def step (here : Location) (component : List Char) : Location :=
  if component = [] || component = ['.'] then here
  else if component = ['.', '.'] then here.tail
  else component :: here

/-- Follow components from a location. Each one starts from a directory; the
location where the last one leads need not exist. -/
def follow (files : FileSystem) : Location → List (List Char) → Except FileError Location
  | here, [] => .ok here
  | here, component :: rest =>
    match files.lookup here with
    | none => .error .notFound
    | some (.file _) => .error .notADirectory
    | some .directory =>
      if nameLimit < byteLength component then .error .nameTooLong
      else follow files (step here component) rest

/-- Where a path starts. -/
def start (files : FileSystem) (path : List Char) : Location :=
  if path.head? = some '/' then [] else files.workingDirectory

/-- The location that a path names. The empty path names nothing. -/
def resolve (files : FileSystem) (path : List Char) : Except FileError Location :=
  if path = [] then .error .notFound
  else if Char.ofNat 0 ∈ path then .error .zeroInPath
  else if pathLimit < byteLength path then .error .nameTooLong
  else files.follow (files.start path) (Text.splitAll '/' path)

/-! ## Files by their paths -/

/-- The operating system lets the operation through. -/
def permit (files : FileSystem) (operation : FileOperation) (location : Location) :
    Except FileError Unit :=
  match files.refusal? operation location with
  | some error => .error error
  | none => .ok ()

/-- The contents of the file at a path. -/
def read (files : FileSystem) (path : List Char) : Except FileError Bytes := do
  let location ← files.resolve path
  match files.lookup location with
  | none => throw .notFound
  | some .directory => throw .isADirectory
  | some (.file contents) => return contents

/-- Something is at the path. -/
def holds (files : FileSystem) (path : List Char) : Bool :=
  match files.resolve path with
  | .ok location => (files.lookup location).isSome
  | .error _ => false

/-- Remove the file at a path. Whoever has it open keeps it. -/
def remove (files : FileSystem) (path : List Char) : Except FileError (Unit × FileSystem) := do
  let location ← files.resolve path
  match files.lookup location with
  | none => throw .notFound
  | some .directory => throw .isADirectory
  | some (.file contents) =>
    files.permit .remove location
    return ((), { files.erase location with
      opened := files.opened.map (OpenFile.detach location contents) })

/-- Open the file at a path and map it. -/
def openNamed (files : FileSystem) (path : List Char) : Except FileError (Nat × FileSystem) := do
  let location ← files.resolve path
  match files.lookup location with
  | none => throw .notFound
  | some .directory => throw .unmappable
  | some (.file _) =>
    return (files.opened.length, { files with opened := files.opened ++ [.named location] })

/-- Open an empty file at a path. The directory of the path has to exist, and a
directory cannot be opened so. A path with a trailing slash asks for a directory
and cannot be a new file. -/
def create (files : FileSystem) (path : List Char) : Except FileError (Nat × FileSystem) :=
  match files.resolve path with
  | .ok location =>
    if files.lookup location = some .directory then .error .isADirectory
    else do
      files.permit .create location
      return (files.opened.length, { files.insert location (.file []) with
        opened := files.opened ++ [.named location] })
  | .error error =>
    let slashless := (path.reverse.dropWhile (· = '/')).reverse
    if slashless ≠ path && (files.resolve slashless).isOk then .error .isADirectory
    else .error error

/-! ## Files that are open -/

/-- The contents of an open file. -/
def contents (files : FileSystem) (handle : Nat) : Bytes :=
  match files.opened[handle]? with
  | some (.named location) =>
    match files.lookup location with
    | some (.file contents) => contents
    | _ => []
  | some (.nameless contents) => contents
  | none => []

/-- Give an open file these contents. -/
def setContents (files : FileSystem) (handle : Nat) (contents : Bytes) : FileSystem :=
  match files.opened[handle]? with
  | some (.named location) => files.insert location (.file contents)
  | some (.nameless _) => { files with opened := files.opened.set handle (.nameless contents) }
  | none => files

/-- The operating system lets the operation on an open file through. A file without
a name is nobody else's. -/
def permitOpen (files : FileSystem) (operation : FileOperation) (handle : Nat) :
    Except FileError Unit :=
  match files.opened[handle]? with
  | some (.named location) => files.permit operation location
  | _ => .ok ()

/-- Change the size of an open file. -/
def resize (files : FileSystem) (handle size : Nat) : Except FileError (Unit × FileSystem) := do
  files.permitOpen (.resize size) handle
  return ((), files.setContents handle ((files.contents handle).resize size))

/-- Map an open file. -/
def map (files : FileSystem) (handle : Nat) : Except FileError (Nat × FileSystem) := do
  files.permitOpen .map handle
  return ((files.contents handle).length, files)

/-- Flush the mapping of an open file: what was written into it is in the file already. -/
def flush (files : FileSystem) (handle : Nat) : Except FileError (Unit × FileSystem) := do
  files.permitOpen .flush handle
  return ((), files)

/-! ## As a host -/

/-- Carry out an operation. If it fails, it changes nothing. -/
def attempt {α : Type} (operation : FileSystem → Except FileError (α × FileSystem)) :
    StateM FileSystem (Except FileError α) := do
  match operation (← get) with
  | .ok (value, files) => set files; return .ok value
  | .error error => return .error error

instance : FileHost (StateM FileSystem) where
  Handle := Nat
  readFile path := return (← get).read path.toList
  pathExists path := return (← get).holds path.toList
  removeFile path := attempt (·.remove path.toList)
  openFile path := attempt (·.openNamed path.toList)
  createFile path := attempt (·.create path.toList)
  resizeFile handle size := attempt (·.resize handle size)
  mapFile handle := attempt (·.map handle)
  mapped handle := return (← get).contents handle
  writeMapped handle bytes := modify (·.setContents handle bytes)
  flushFile handle := attempt (·.flush handle)

end FileSystem
end ImageDump
