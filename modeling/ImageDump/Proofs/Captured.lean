import ImageDump.Dump
import ImageDump.Proofs.PlannedRegions
import ImageDump.Proofs.Shadowing
import ImageDump.Proofs.Unavailable

/-!
# Captured regions

A program whose regions are captured one by one is described by a snapshot that can read
each of them (`Snapshot.readsRegions_ofRegions`). A plan asks for one more: if the two
regions of uninitialized data overlap, they are stored as their union, and the snapshot
reads from one capture at a time. A copy of captured regions therefore fails for want of
memory only if they overlap and none of the captures holds them both, and it then does so
once it has come as far as their section (`misses_union_iff`). Every byte of the union may
have been captured (`union_unavailable_splitMemory`).
-/

namespace ImageDump

/-! ## Reading captured regions -/

/-- A region of the running program, with the bytes captured from it. -/
structure CapturedRegion where
  kind : RegionKind
  start : UInt64
  bytes : Bytes
deriving DecidableEq, Repr

/-- The whole region was captured. -/
def CapturedRegion.Holds (captured : CapturedRegion) (region : Region) : Prop :=
  captured.start.toNat ≤ region.start.toNat ∧
    region.stop ≤ captured.start.toNat + captured.bytes.length

instance (captured : CapturedRegion) (region : Region) : Decidable (captured.Holds region) :=
  inferInstanceAs (Decidable (_ ∧ _))

namespace Snapshot

variable {snapshot : Snapshot} {kind : RegionKind} {start base : UInt64} {bytes : Bytes}
  {region : Region} {captured : List CapturedRegion}

/-- The snapshot of a program whose regions are captured one by one. -/
def ofRegions (base : UInt64) (captured : List CapturedRegion) : Snapshot :=
  captured.foldl (fun snapshot piece => snapshot.setRegion piece.kind piece.start piece.bytes)
    { imageBase := base }

theorem read_setRegion_eq_none_iff :
    (snapshot.setRegion kind start bytes).read region = none ↔
      ¬CapturedRegion.Holds { kind, start, bytes } region ∧ snapshot.read region = none := by
  have newest : (Capture.mk start bytes).read? region = none ↔
      ¬CapturedRegion.Holds { kind, start, bytes } region := Capture.read?_eq_none_iff
  rw [← newest]
  change List.findSome? _ (_ :: snapshot.captures) = none ↔ _
  rw [List.findSome?_cons, read]
  cases (Capture.mk start bytes).read? region with
  | none => simp
  | some answer => simp

/-- A region cannot be read exactly if no capture holds all of it. -/
theorem read_ofRegions_eq_none_iff :
    (ofRegions base captured).read region = none ↔ ∀ piece ∈ captured, ¬piece.Holds region := by
  have grown (snapshot : Snapshot) :
      (captured.foldl (fun snapshot piece =>
          snapshot.setRegion piece.kind piece.start piece.bytes) snapshot).read region = none ↔
        (∀ piece ∈ captured, ¬piece.Holds region) ∧ snapshot.read region = none := by
    induction captured generalizing snapshot with
    | nil => simp
    | cons piece rest ih =>
      rw [List.foldl_cons, ih, read_setRegion_eq_none_iff, List.forall_mem_cons, and_left_comm,
        and_assoc]
  rw [ofRegions, grown]
  exact and_iff_left rfl

/-- Each region of the snapshot that is not empty can be read. -/
def ReadsRegions (snapshot : Snapshot) : Prop :=
  ∀ kind, (snapshot.region kind).isEmpty = false → snapshot.read (snapshot.region kind) ≠ none

theorem ReadsRegions.setRegion (reads : snapshot.ReadsRegions) :
    (snapshot.setRegion kind start bytes).ReadsRegions := by
  intro other nonempty missing
  rw [read_setRegion_eq_none_iff] at missing
  obtain ⟨notHeld, missing⟩ := missing
  by_cases same : other = kind
  · -- the region is the piece that was captured
    have region : (snapshot.setRegion kind start bytes).region other =
        { start, size := UInt64.ofNat bytes.length } := if_pos same
    have size : (UInt64.ofNat bytes.length).toNat ≤ bytes.length := by
      rw [UInt64.toNat_ofNat']
      exact Nat.mod_le _ _
    rw [region] at notHeld
    exact notHeld ⟨Nat.le_refl _, Nat.add_le_add_left size _⟩
  · have region : (snapshot.setRegion kind start bytes).region other = snapshot.region other :=
      if_neg same
    rw [region] at nonempty missing
    exact reads other nonempty missing

theorem readsRegions_ofRegions : (ofRegions base captured).ReadsRegions := by
  have grown (snapshot : Snapshot) (reads : snapshot.ReadsRegions) :
      (captured.foldl (fun snapshot piece =>
        snapshot.setRegion piece.kind piece.start piece.bytes) snapshot).ReadsRegions := by
    induction captured generalizing snapshot with
    | nil => exact reads
    | cons piece rest ih => exact ih _ reads.setRegion
  refine grown _ fun kind nonempty => ?_
  cases nonempty

end Snapshot

/-! ## Copies of captured regions -/

/-- A plan for a snapshot that reads its regions has no region that cannot be read, except
for the union of two regions. -/
theorem Snapshot.ReadsRegions.merged_of_missing {snapshot : Snapshot} {image : Image}
    {options : DumpOptions} {plan : Plan} {placement : Placement} (reads : snapshot.ReadsRegions)
    (unnamed : options.dataSection = none)
    (analyzed : Plan.analyze image snapshot.toMemoryImage options = .ok plan)
    (sound : plan.Sound image snapshot.imageBase) (mem : placement ∈ plan.placements)
    (missing : snapshot.read placement.region = none) :
    (snapshot.region .bss).overlaps (snapshot.region .staticBss) = true ∧
      plan.bss = some placement ∧
      placement.region = (snapshot.region .bss).union (snapshot.region .staticBss) := by
  have notReported {kind : RegionKind} : placement.region ≠ snapshot.region kind := by
    intro same
    obtain ⟨_, within⟩ := sound.within_of_mem mem
    have nonempty := within.isEmpty_region
    rw [same] at nonempty missing
    exact reads kind nonempty missing
  have dataRegion := Plan.region_data_of_analyze unnamed analyzed
  cases overlaps : (snapshot.region .bss).overlaps (snapshot.region .staticBss) with
  | false =>
    obtain ⟨bss, staticBss⟩ := Plan.region_bss_of_analyze analyzed overlaps
    rcases Plan.mem_placements.1 mem with isData | isBss | isStatic
    · exact absurd (dataRegion _ isData) notReported
    · exact absurd (bss _ isBss) notReported
    · exact absurd (staticBss _ isStatic) notReported
  | true =>
    obtain ⟨merged, isMerged, noStatic, region⟩ := Plan.merged_of_analyze analyzed overlaps
    rcases Plan.mem_placements.1 mem with isData | isBss | isStatic
    · exact absurd (dataRegion _ isData) notReported
    · cases isMerged.symm.trans isBss
      exact ⟨rfl, isMerged, region⟩
    · rw [noStatic] at isStatic
      cases isStatic

/-- A union that cannot be read is missed in some output, if the raw data up to its section
lies in the source. -/
theorem Snapshot.ReadsRegions.exists_misses {snapshot : Snapshot} {source : Bytes} {image : Image}
    {options : DumpOptions} {plan : Plan} {merged : Placement} (reads : snapshot.ReadsRegions)
    (parsed : Image.parse source = .ok image) (unnamed : options.dataSection = none)
    (analyzed : Plan.analyze image snapshot.toMemoryImage options = .ok plan)
    (isMerged : plan.bss = some merged) (noStatic : plan.staticBss = none)
    (missing : snapshot.read merged.region = none)
    (inside : ∀ header ∈ image.sections.take (merged.owner + 1),
      header.rawEnd ≤ source.length) :
    ∃ output, Misses merged.region
      (CopyJob.run { source := image, memory := snapshot.toMemoryImage, plan } output) := by
  have data : image.data = source := Image.data_of_parse parsed
  have planned : CopyJob.Planned { source := image, memory := snapshot.toMemoryImage, plan } :=
    CopyJob.planned_of_analyze snapshot.exact_toMemoryImage parsed analyzed
  obtain ⟨bssKind, header, within⟩ := planned.sound.bss merged isMerged
  have inRange : merged.owner < image.sections.length :=
    (List.getElem?_eq_some_iff.1 within.owner).1
  have available {placement : Placement} (mem : placement ∈ plan.placements)
      (other : placement ≠ merged) : (snapshot.read placement.region).isSome = true := by
    rw [Option.isSome_iff_ne_none]
    intro lacking
    obtain ⟨-, same, -⟩ := reads.merged_of_missing unnamed analyzed planned.sound mem lacking
    exact other (Option.some.inj (same.symm.trans isMerged))
  -- the section stores its initialized data first
  have parts : plan.placementsIn merged.owner =
      plan.data.toList.filter (·.owner == merged.owner) ++ merged :: [] := by
    rw [Plan.placementsIn, Plan.placements, isMerged, noStatic]
    simp
  refine CopyJob.exists_misses_run planned ?_ within.owner (data ▸ inside) ?_ parts ?_ missing
  · exact data ▸ Image.sectionsEnd_le_of_parse parsed (Nat.zero_lt_of_lt inRange)
  · intro before lt placement mem
    obtain ⟨placed, owner⟩ := Plan.mem_placementsIn.1 mem
    refine available placed ?_
    rintro rfl
    exact Nat.lt_irrefl _ (owner ▸ lt)
  · intro stored mem
    have isData : stored ∈ plan.data := Option.mem_toList.1 (List.mem_filter.1 mem).1
    refine available (Plan.mem_placements.2 (.inl isData)) ?_
    rintro rfl
    have dataKind := (planned.sound.data stored isData).1
    rw [bssKind] at dataKind
    cases dataKind

/-- **Captured regions.** A copy of captured regions misses no region but the union of the
two regions of uninitialized data. There is an output in which it misses that union exactly
if the two overlap, none of the captures holds them both, and the raw data up to their
section lies in the source. -/
theorem misses_union_iff {source : Bytes} {image : Image} {base : UInt64}
    {captured : List CapturedRegion} {options : DumpOptions} {plan : Plan}
    (parsed : Image.parse source = .ok image) (unnamed : options.dataSection = none)
    (analyzed : Plan.analyze image (Snapshot.ofRegions base captured).toMemoryImage options =
      .ok plan) :
    let snapshot := Snapshot.ofRegions base captured
    let job : CopyJob := { source := image, memory := snapshot.toMemoryImage, plan }
    let union := (snapshot.region .bss).union (snapshot.region .staticBss)
    (∀ output region, Misses region (job.run output) → region = union) ∧
      ((∃ output, Misses union (job.run output)) ↔
        (snapshot.region .bss).overlaps (snapshot.region .staticBss) = true ∧
          (∀ piece ∈ captured, ¬piece.Holds union) ∧
          ∃ merged ∈ plan.bss, ∀ header ∈ image.sections.take (merged.owner + 1),
            header.rawEnd ≤ source.length) := by
  intro snapshot job union
  have data : image.data = source := Image.data_of_parse parsed
  have planned : job.Planned :=
    CopyJob.planned_of_analyze snapshot.exact_toMemoryImage parsed analyzed
  have reads : snapshot.ReadsRegions := Snapshot.readsRegions_ofRegions
  have mergedOf {placement : Placement} (mem : placement ∈ plan.placements)
      (missing : snapshot.read placement.region = none) :=
    reads.merged_of_missing unnamed analyzed planned.sound mem missing
  refine ⟨fun output region misses => ?_, ?_, ?_⟩
  · obtain ⟨missing, placement, mem, rfl, -⟩ :=
      CopyJob.exists_placement_of_misses_run planned misses
    exact (mergedOf mem missing).2.2
  · rintro ⟨output, misses⟩
    obtain ⟨missing, placement, mem, region, inside⟩ :=
      CopyJob.exists_placement_of_misses_run planned misses
    obtain ⟨overlaps, isMerged, -⟩ := mergedOf mem (region ▸ missing)
    exact ⟨overlaps, Snapshot.read_ofRegions_eq_none_iff.1 missing, placement, isMerged,
      data ▸ inside⟩
  · rintro ⟨overlaps, notHeld, merged, isMerged, inside⟩
    obtain ⟨_, isMerged', noStatic, region⟩ := Plan.merged_of_analyze analyzed overlaps
    cases isMerged.symm.trans isMerged'
    have union_eq : union = merged.region := region.symm
    have missing : snapshot.read union = none := Snapshot.read_ofRegions_eq_none_iff.2 notHeld
    rw [union_eq] at missing ⊢
    exact reads.exists_misses parsed unnamed analyzed isMerged noStatic missing inside

/-- The union of the two regions of `splitMemory`. -/
def splitUnion : Region := { start := 0x401000, size := 36 }

/-- Two regions of twenty bytes, the second of which starts with the last four bytes of the
first. -/
def splitCaptures : List CapturedRegion :=
  [{ kind := .bss, start := 0x401000, bytes := List.replicate 20 0xaa },
    { kind := .staticBss, start := 0x401010, bytes := List.replicate 20 0xaa }]

/-- Memory with these two regions. -/
def splitMemory : Snapshot := Snapshot.ofRegions 0x400000 splitCaptures

/-- The plan to store `splitMemory` in `wideImage`. -/
def splitPlan : Plan :=
  (Plan.analyze wideSource splitMemory.toMemoryImage plainOptions).toOption.get
    (by decide +kernel)

theorem analyze_splitMemory :
    Plan.analyze wideSource splitMemory.toMemoryImage plainOptions = .ok splitPlan :=
  eq_ok_get _

/-- The union is missed in some output. -/
theorem misses_union_splitMemory : ∃ output, Misses splitUnion (CopyJob.run
    { source := wideSource, memory := splitMemory.toMemoryImage, plan := splitPlan } output) := by
  obtain ⟨-, missed⟩ := misses_union_iff parse_wideImage rfl analyze_splitMemory
  have union_eq : (splitMemory.region .bss).union (splitMemory.region .staticBss) = splitUnion := by
    decide +kernel
  rw [← union_eq]
  exact missed.2 (by decide +kernel)

/-- The two regions share four bytes, and each byte of their union was captured. The dump
fails for want of the union. -/
theorem union_unavailable_splitMemory :
    Image.parse wideImage = .ok wideSource ∧ plainOptions.dataSection = none ∧
      Plan.analyze wideSource splitMemory.toMemoryImage plainOptions = .ok splitPlan ∧
      (splitCaptures.map (·.kind)).Nodup ∧
      (∀ distance < 36, ∃ piece ∈ splitCaptures,
        piece.Holds { start := splitUnion.start + UInt64.ofNat distance, size := 1 }) ∧
      splitPlan.bss.map (·.region) = some splitUnion ∧
      dumpImage wideImage splitMemory.toMemoryImage plainOptions =
        .error (.memoryUnavailable splitUnion) := by
  have unavailable : failure? (dumpImage wideImage splitMemory.toMemoryImage plainOptions) =
      some (.memoryUnavailable splitUnion) := by decide +kernel
  refine ⟨parse_wideImage, rfl, analyze_splitMemory, by decide, by decide +kernel,
    by decide +kernel, eq_error_of_failure? unavailable⟩

end ImageDump
