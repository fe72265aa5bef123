import ImageDump.Plan

/-!
# The journal of a dump

While it runs, a dump reports empty regions as warnings, the reason of a
failing plan as an error, and where it reads, writes and how much as
information. The journal is a function of what was dumped and how that ended,
so the dump itself does not carry it along.
-/

namespace ImageDump

/-- How grave a journal record is. -/
inductive Severity where
  | error
  | warning
  | information
deriving DecidableEq, Repr

/-- One line of the journal. Its text may have several lines. -/
structure JournalRecord where
  severity : Severity
  text : String
deriving DecidableEq, Repr

/-- A region with a field on each line, as journal records show it. -/
def Region.describe (region : Region) : String :=
  "Region \x7b\n" ++ s!"    start: {hex region.start.toNat},\n" ++
    s!"    size: {hex region.size.toNat},\n" ++ "\x7d"

namespace Journal

/-- An empty region is not an error, but nothing of it is stored. -/
def emptyRegion (kind : RegionKind) : JournalRecord :=
  ⟨.warning, s!"{kind.label} region is empty, skipping"⟩

def dumping (source target : String) : JournalRecord :=
  ⟨.information, s!"dumping from {source} to {target}"⟩

def dumped (size : Nat) : JournalRecord :=
  ⟨.information, s!"dumped image size: {hex size}"⟩

/-- The record of a failing plan. The other errors are not recorded: whoever
asked for the dump is told of them. -/
def planFailure? : DumpError → Option JournalRecord
  | .regionOutsideImage kind region =>
    some ⟨.error, s!"{kind.label} region {region.describe} is outside the image"⟩
  | .regionSpansSections kind region =>
    some ⟨.error, s!"{kind.label} region {region.describe} is not in a single section"⟩
  | .regionExceedsSection kind region sectionName =>
    some ⟨.error, s!"{kind.label} region {region.describe} " ++
      s!"exceeds the raw data of section {sectionName}"⟩
  | .bssSectionsDiffer bssOwner staticBssOwner =>
    some ⟨.error, "bss regions overlap but lie in sections " ++
      s!"{bssOwner} and {staticBssOwner}"⟩
  | .sectionMismatch sectionName region =>
    some ⟨.error, s!"data region {region.describe} is not in data section {sectionName}"⟩
  | _ => none

/-- The regions that a plan places, in order; none if the region of initialized
data is already refused. -/
def placedRegions (image : Image) (memory : MemoryImage) (options : DumpOptions) :
    List (RegionKind × Region) :=
  match Plan.dataRegion image memory options with
  | .error _ => []
  | .ok data =>
    [(.data, data), (.bss, memory.region .bss), (.staticBss, memory.region .staticBss)]

/-- The journal of planning: a warning for each empty region up to the first
region without a place, and the reason if the plan fails. -/
def ofPlan (image : Image) (memory : MemoryImage) (options : DumpOptions) :
    List JournalRecord :=
  let placed := (placedRegions image memory options).takeWhile fun (kind, region) =>
    (Placement.place? image memory.imageBase kind region).isOk
  let warnings := (placed.filter (·.2.isEmpty)).map fun (kind, _) => emptyRegion kind
  match Plan.analyze image memory options with
  | .ok _ => warnings
  | .error error => warnings ++ (planFailure? error).toList

end Journal
end ImageDump
