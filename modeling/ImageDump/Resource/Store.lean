import ImageDump.File.System
import ImageDump.Text.Case
import ImageDump.Text.Split

/-!
# Resource stores

A store keeps the value of each resource name, ignoring the case of ASCII
letters. It is read from a text with one `name:value` entry on each line; the
first entry of a name counts, and lines without a colon are no entries.
-/

namespace ImageDump

/-- Values by name. No two names differ only in case. -/
structure ResourceStore where
  /-- Folded names and values, in the order of insertion. -/
  entries : List (String × String) := []
deriving DecidableEq, Repr

namespace ResourceStore

def empty : ResourceStore := {}

/-- The value of a name. -/
def get? (store : ResourceStore) (name : String) : Option String :=
  store.entries.lookup (foldCase name)

/-- Give a name a value unless it has one. -/
def insert (store : ResourceStore) (name value : String) : ResourceStore :=
  if (store.get? name).isSome then store
  else { entries := store.entries ++ [(foldCase name, value)] }

/-- Number of names. -/
def size (store : ResourceStore) : Nat := store.entries.length

def isEmpty (store : ResourceStore) : Bool := store.entries.isEmpty

/-- The entries of a text, in order: its lines that have a colon, split at the
first one. -/
def textEntries (text : String) : List (String × String) :=
  (Text.lines text.toList).filterMap fun line =>
    (Text.splitFirst? ':' line).map fun (name, value) =>
      (String.ofList name, String.ofList value)

/-- Insert entries in order. -/
def insertAll (store : ResourceStore) (entries : List (String × String)) : ResourceStore :=
  entries.foldl (fun store (name, value) => store.insert name value) store

/-- The store that a text spells. -/
def ofText (text : String) : ResourceStore := empty.insertAll (textEntries text)

/-- The store in a file, given what reading the file gave. A missing file is an
empty store. -/
def ofFile : Except FileError Bytes → Except FileError ResourceStore
  | .error .notFound => .ok empty
  | .error error => .error error
  | .ok contents =>
    match String.fromUTF8? ⟨contents.toArray⟩ with
    | some text => .ok (ofText text)
    | none => .error .notText

/-- Read the store in the file at a path. -/
def load {m : Type → Type} [Monad m] [FileHost m] (path : String) :
    m (Except FileError ResourceStore) :=
  ofFile <$> FileHost.readFile path

end ResourceStore
end ImageDump
