/-!
# Why a file operation fails

The failures a file operation can meet, with the text and number the operating
system gives them.
-/

namespace ImageDump

/-- Why a file cannot be read or written. -/
inductive FileError where
  | notFound
  /-- A component of the path that should be a directory is a file. -/
  | notADirectory
  /-- The path names a directory where a file is needed. -/
  | isADirectory
  /-- What the path names can be opened to be read, but not mapped: a directory. -/
  | unmappable
  /-- The path, or a name in it, has more bytes than the operating system takes. -/
  | nameTooLong
  /-- The path has a zero byte in it, at which the operating system would end it. -/
  | zeroInPath
  /-- The file should hold a text and does not. -/
  | notText
  /-- Any other failure, in the words of the operating system. -/
  | other (text : String)
deriving DecidableEq, Repr

def FileError.message : FileError → String
  | notFound => "No such file or directory (os error 2)"
  | notADirectory => "Not a directory (os error 20)"
  | isADirectory => "Is a directory (os error 21)"
  | unmappable => "No such device (os error 19)"
  | nameTooLong => "File name too long (os error 36)"
  | zeroInPath => "file name contained an unexpected NUL byte"
  | notText => "stream did not contain valid UTF-8"
  | other text => text

end ImageDump
