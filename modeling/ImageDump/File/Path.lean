import ImageDump.Text.Split

/-!
# Paths

A path is a text whose components are separated by slashes. Empty components
and single dots name nothing, so a trailing slash does not hide the last
component. The extension of a path is what follows the last dot of its last
component; a component whose only dot is its first character has no extension,
and neither has a path to a parent directory.

A dumped executable always gets a name with the extension of executables:
`Path.normalize` appends it unless the path already has it in some mix of
cases. Nothing else of the path is changed.
-/

namespace ImageDump.Path

/-- The components that name something. -/
def components (path : List Char) : List (List Char) :=
  (Text.splitAll '/' path).filter fun component => component ≠ [] && component ≠ ['.']

/-- The last component, unless it names a parent directory. -/
def fileName? (path : List Char) : Option (List Char) :=
  (components path).getLast?.filter (· ≠ ['.', '.'])

/-- What follows the last dot of a name, unless that dot is its first
character. -/
def nameExtension? (name : List Char) : Option (List Char) :=
  match name.reverse.dropWhile (· ≠ '.') with
  | [] | [_] => none
  | _ => some (name.reverse.takeWhile (· ≠ '.')).reverse

/-- The extension of a path. -/
def extension? (path : List Char) : Option (List Char) :=
  (fileName? path).bind nameExtension?

/-- The extension that every dumped executable carries. -/
def executableExtension : List Char := ['e', 'x', 'e']

/-- The path has the extension of executables, ignoring case. -/
def isExecutable (path : List Char) : Bool :=
  match extension? path with
  | some extension => extension.map Char.toLower == executableExtension
  | none => false

/-- The path with the extension of executables appended unless it has it. -/
def normalizeChars (path : List Char) : List Char :=
  if isExecutable path then path else path ++ '.' :: executableExtension

/-- The path of the output that is written for a requested path. -/
def normalize (path : String) : String := String.ofList (normalizeChars path.toList)

end ImageDump.Path
