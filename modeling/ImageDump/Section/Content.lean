/-!
# What a section holds

Two flags of a section's characteristics say whether it holds initialized or
uninitialized data. A section with both flags counts as initialized. Once live
memory is stored in a section it is initialized, whatever it was before.
-/

namespace ImageDump

/-- The kind of data in a section, as its characteristics tell it. -/
inductive SectionContent where
  /-- Filled with zeros when the image is loaded; the file stores no data. -/
  | uninitialized
  /-- Data stored in the file. -/
  | initialized
  /-- Neither flag is set, as in a section of code. -/
  | other
deriving DecidableEq, Repr

namespace SectionContent

/-- The flag of a section with initialized data. -/
def initializedFlag : UInt32 := 0x40

/-- The flag of a section with uninitialized data. -/
def uninitializedFlag : UInt32 := 0x80

/-- The content that the characteristics tell. -/
def ofCharacteristics (characteristics : UInt32) : SectionContent :=
  if characteristics &&& initializedFlag ≠ 0 then initialized
  else if characteristics &&& uninitializedFlag ≠ 0 then uninitialized
  else other

/-- The content of a section once live memory is stored in it. -/
def dumped : SectionContent → SectionContent
  | uninitialized | initialized | other => initialized

/-- Make the two flags say this content and keep all others. -/
def apply (content : SectionContent) (characteristics : UInt32) : UInt32 :=
  let cleared := characteristics &&& ~~~(initializedFlag ||| uninitializedFlag)
  match content with
  | initialized => cleared ||| initializedFlag
  | uninitialized => cleared ||| uninitializedFlag
  | other => cleared

end SectionContent
end ImageDump
