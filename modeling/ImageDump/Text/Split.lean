/-!
# Splitting text

Paths are split at every slash, arguments and resource lines at the first
separator, and texts into lines. A line ends with a line feed, which may follow
a carriage return; neither is part of the line. A last line without a line feed
is kept as it is, and a text that ends in a line feed has no empty last line.
-/

namespace ImageDump.Text

/-- The pieces between the separators, one more than there are separators. -/
def splitAll (separator : Char) : List Char → List (List Char)
  | [] => [[]]
  | c :: rest =>
    if c = separator then [] :: splitAll separator rest
    else
      match splitAll separator rest with
      | [] => [[c]]
      | piece :: pieces => (c :: piece) :: pieces

/-- What stands before and after the first separator. -/
def splitFirst? (separator : Char) (text : List Char) : Option (List Char × List Char) :=
  match text.dropWhile (· ≠ separator) with
  | [] => none
  | _ :: after => some (text.takeWhile (· ≠ separator), after)

/-- A line without the carriage return at its end, if it has one. -/
def dropReturn (line : List Char) : List Char :=
  if line.getLast? = some '\r' then line.dropLast else line

/-- The lines of a text. -/
def lines (text : List Char) : List (List Char) :=
  let pieces := splitAll '\n' text
  let unfinished := (pieces.getLast?).filter (· ≠ [])
  pieces.dropLast.map dropReturn ++ unfinished.toList

end ImageDump.Text
