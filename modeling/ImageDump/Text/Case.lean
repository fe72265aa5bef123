/-!
# ASCII case

Names are compared without regard to the case of ASCII letters. All other
characters count as they are.
-/

namespace ImageDump

/-- A text with its ASCII letters in lower case. -/
def foldCase (text : String) : String := String.ofList (text.toList.map Char.toLower)

end ImageDump
