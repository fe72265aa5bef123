import ImageDump.Proofs.Failures
import ImageDump.Proofs.Loader

/-!
# The load address

The memory image of a relocated program describes the same regions at other addresses. Its
dump is the same, since a dump uses an address only as a distance from the load address, to
find the section and the offset of a region, and to ask for the bytes of the region
(`dumpImage_movedBy`). Each part of a dump is followed from one memory image to the other:
placing, planning, copying. Where a part fails, it fails for the same reason, with the
addresses in the error moved along.
-/

namespace ImageDump

/-! ## Moved addresses -/

/-- The region at another address. -/
def Region.move (shift : UInt64) (region : Region) : Region :=
  { region with start := region.start + shift }

/-- The place of a region that is at another address. -/
def Placement.move (shift : UInt64) (placement : Placement) : Placement :=
  { placement with region := placement.region.move shift }

/-- The plan for an image that is loaded at another address. -/
def Plan.move (shift : UInt64) (plan : Plan) : Plan :=
  { plan with
    imageBase := plan.imageBase + shift
    data := plan.data.map (·.move shift)
    bss := plan.bss.map (·.move shift)
    staticBss := plan.staticBss.map (·.move shift) }

/-- The same failure for regions at another address. -/
def DumpError.move (shift : UInt64) : DumpError → DumpError
  | regionOutsideImage kind region => .regionOutsideImage kind (region.move shift)
  | regionSpansSections kind region => .regionSpansSections kind (region.move shift)
  | regionExceedsSection kind region name => .regionExceedsSection kind (region.move shift) name
  | sectionMismatch name region => .sectionMismatch name (region.move shift)
  | memoryUnavailable region => .memoryUnavailable (region.move shift)
  | error => error

def Interrupted.move (shift : UInt64) (interrupted : Interrupted) : Interrupted :=
  { interrupted with error := interrupted.error.move shift }

/-- The second memory image is the first one at another address. It only has to hold the
same bytes from its load address on. -/
structure MemoryImage.MovedBy (shift : UInt64) (memory moved : MemoryImage) : Prop where
  imageBase : moved.imageBase = memory.imageBase + shift
  region : ∀ kind, moved.region kind = (memory.region kind).move shift
  read : ∀ region, memory.imageBase ≤ region.start → moved.imageBase ≤ region.start + shift →
    moved.read (region.move shift) = memory.read region

/-- The sections of the image and the regions of the memory image end below the top of the
address space. -/
structure MemoryImage.BelowTop (memory : MemoryImage) (image : Image) : Prop where
  sections : ∀ header ∈ image.sections,
    memory.imageBase.toNat + header.virtualAddress.toNat + header.extent < addressSpace
  regions : ∀ kind, (memory.region kind).isEmpty = false →
    (memory.region kind).stop < addressSpace

/-! ## Outcomes -/

section Outcomes

variable {ε α β γ δ : Type} {f : ε → ε}

/-- Two series of steps end alike if their steps do. The second series handles the values of
the first as `g` maps them, and its errors as `f` does. -/
theorem bind_eq_map_mapError {first : Except ε α} {second : Except ε β} {g : α → β}
    {next : α → Except ε γ} {nextSecond : β → Except ε δ} {h : γ → δ}
    (same : second = (first.map g).mapError f)
    (rest : ∀ value, first = .ok value →
      nextSecond (g value) = ((next value).map h).mapError f) :
    second >>= nextSecond = ((first >>= next).map h).mapError f := by
  subst same
  cases first with
  | error error => rfl
  | ok value => exact rest value rfl

theorem bind_eq_mapError {first second : Except ε α} {next nextSecond : α → Except ε β}
    (same : second = first.mapError f)
    (rest : ∀ value, first = .ok value → nextSecond value = (next value).mapError f) :
    second >>= nextSecond = (first >>= next).mapError f := by
  subst same
  cases first with
  | error error => rfl
  | ok value => exact rest value rfl

theorem foldlM_map_eq_mapError {g h : β → α → Except ε β} {move : α → α} {xs : List α}
    (step : ∀ state, ∀ x ∈ xs, h state (move x) = (g state x).mapError f) (first : β) :
    (xs.map move).foldlM h first = (xs.foldlM g first).mapError f := by
  induction xs generalizing first with
  | nil => rfl
  | cons x xs ih =>
    rw [List.map_cons, List.foldlM_cons, List.foldlM_cons]
    exact bind_eq_mapError (step first x List.mem_cons_self) fun next _ =>
      ih (fun state y mem => step state y (List.mem_cons_of_mem x mem)) next

end Outcomes

/-! ## Placing a moved region -/

namespace Region

variable {shift base start : UInt64} {region : Region}

@[simp] theorem isEmpty_move : (region.move shift).isEmpty = region.isEmpty := rfl

@[simp] theorem size_move : (region.move shift).size = region.size := rfl

/-- Addresses above the load address keep their distance from it. -/
theorem toNat_sub_move (le : base ≤ start) (moved : base + shift ≤ start + shift) :
    (start + shift).toNat - (base + shift).toNat = start.toNat - base.toNat := by
  rw [UInt64.le_iff_toNat_le] at le moved
  rw [UInt64.toNat_add, UInt64.toNat_add] at *
  have startLt := start.toNat_lt
  have baseLt := base.toNat_lt
  have shiftLt := shift.toNat_lt
  omega

/-- The region lies between the load address and the top of the address space, both where it
is and where it is moved to. -/
structure MovesWith (base shift : UInt64) (region : Region) : Prop where
  le : base ≤ region.start
  moved_le : base + shift ≤ region.start + shift
  stop_lt : region.stop < addressSpace
  moved_stop_lt : (region.move shift).stop < addressSpace

namespace MovesWith

variable {a b : Region} (first : a.MovesWith base shift) (second : b.MovesWith base shift)

include first in
theorem toNat_start_move :
    (a.start + shift).toNat + base.toNat = a.start.toNat + (base + shift).toNat := by
  have distance := toNat_sub_move first.le first.moved_le
  have le := UInt64.le_iff_toNat_le.1 first.le
  have movedLe := UInt64.le_iff_toNat_le.1 first.moved_le
  omega

include first in
theorem ceiling_eq : a.ceiling = a.stop := ceiling_eq_stop first.stop_lt

include first in
theorem ceiling_move : (a.move shift).ceiling = (a.move shift).stop :=
  ceiling_eq_stop first.moved_stop_lt

include first second

theorem lt_iff_move : a.start + shift < b.start + shift ↔ a.start < b.start := by
  have firstStart := first.toNat_start_move
  have secondStart := second.toNat_start_move
  rw [UInt64.lt_iff_toNat_lt, UInt64.lt_iff_toNat_lt]
  omega

theorem lt_stop_iff_move :
    (b.start + shift).toNat < (a.move shift).stop ↔ b.start.toNat < a.stop := by
  have firstStart := first.toNat_start_move
  have secondStart := second.toNat_start_move
  change _ < (a.start + shift).toNat + a.size.toNat ↔ _ < a.start.toNat + a.size.toNat
  omega

/-- Moved regions overlap if they did before. -/
theorem overlaps_move : (a.move shift).overlaps (b.move shift) = a.overlaps b := by
  have order : (a.move shift).start < (b.move shift).start ↔ a.start < b.start :=
    first.lt_iff_move second
  have firstEnds : (b.move shift).start.toNat < (a.move shift).stop ↔ b.start.toNat < a.stop :=
    first.lt_stop_iff_move second
  have secondEnds : (a.move shift).start.toNat < (b.move shift).stop ↔ a.start.toNat < b.stop :=
    second.lt_stop_iff_move first
  simp only [overlaps, isEmpty_move, first.ceiling_eq, second.ceiling_eq, first.ceiling_move,
    second.ceiling_move, order, firstEnds, secondEnds]

theorem union_move : (a.move shift).union (b.move shift) = (a.union b).move shift := by
  have firstStart := first.toNat_start_move
  have secondStart := second.toNat_start_move
  have start : min (a.start + shift) (b.start + shift) = min a.start b.start + shift := by
    change (if a.start + shift ≤ b.start + shift then _ else _) =
      (if a.start ≤ b.start then _ else _) + shift
    have order : a.start + shift ≤ b.start + shift ↔ a.start ≤ b.start := by
      rw [UInt64.le_iff_toNat_le, UInt64.le_iff_toNat_le]
      omega
    simp only [order]
    split
    · rfl
    · rfl
  have minStart : (min a.start b.start).toNat = min a.start.toNat b.start.toNat :=
    Region.toNat_start_union a b
  have minMoved : (min (a.start + shift) (b.start + shift)).toNat =
      min (a.start + shift).toNat (b.start + shift).toNat :=
    Region.toNat_start_union (a.move shift) (b.move shift)
  have size : max (a.move shift).ceiling (b.move shift).ceiling -
        (min (a.start + shift) (b.start + shift)).toNat =
      max a.ceiling b.ceiling - (min a.start b.start).toNat := by
    rw [first.ceiling_eq, second.ceiling_eq, first.ceiling_move, second.ceiling_move, minMoved,
      minStart]
    change max ((a.start + shift).toNat + a.size.toNat) ((b.start + shift).toNat + b.size.toNat) -
      _ = max (a.start.toNat + a.size.toNat) (b.start.toNat + b.size.toNat) - _
    omega
  exact congrArg₂ Region.mk start (congrArg UInt64.ofNat size)

end MovesWith
end Region

/-- An image loaded below the top of the address space has no section at an address that
another load address leaves behind. -/
theorem SectionTable.findContaining?_eq_none {table : SectionTable}
    {base start base' start' : UInt64} (same : start - base = start' - base')
    (le : base ≤ start) (notLe : ¬base' ≤ start')
    (below : ∀ header ∈ table,
      base'.toNat + header.virtualAddress.toNat + header.extent < addressSpace) :
    table.findContaining? (start.toNat - base.toNat) = none := by
  cases lookup : table.findContaining? (start.toNat - base.toNat) with
  | none => rfl
  | some index =>
    obtain ⟨header, entry, -, inSection⟩ := exists_of_findContaining? lookup
    have top := below header (List.mem_of_getElem? entry)
    have distance : (start - base).toNat = (start' - base').toNat := by rw [same]
    rw [UInt64.le_iff_toNat_le] at le notLe
    rw [UInt64.toNat_sub, UInt64.toNat_sub] at distance
    have startLt := start.toNat_lt
    have baseLt := base.toNat_lt
    have startLt' := start'.toNat_lt
    have baseLt' := base'.toNat_lt
    unfold addressSpace at top
    omega

namespace Placement

variable {image : Image} {shift base : UInt64} {kind : RegionKind} {region : Region}

/-- A region in front of the load address, or of no section, is not placed. -/
theorem locate_outside (stop : region.stop < addressSpace)
    (outside : ¬base ≤ region.start ∨
      image.sections.findContaining? (region.start.toNat - base.toNat) = none) :
    locate image base kind region = .error (.regionOutsideImage kind region) := by
  have stopAt : region.stop? = some region.stop := if_pos stop
  unfold locate
  rw [stopAt]
  by_cases le : base ≤ region.start
  · have nowhere := outside.resolve_left (not_not_intro le)
    simp only [found, require, if_pos le, nowhere, bind, Except.bind]
  · simp only [found, require, if_neg le, bind, Except.bind]

/-- A region that lies above the load address wherever it is moves with its place. -/
theorem locate_move_of_le (le : base ≤ region.start) (le' : base + shift ≤ region.start + shift)
    (stop : region.stop < addressSpace) (stop' : (region.move shift).stop < addressSpace) :
    locate image (base + shift) kind (region.move shift) =
      ((locate image base kind region).map (·.move shift)).mapError (·.move shift) := by
  have stopAt : region.stop? = some region.stop := if_pos stop
  have stopAt' : (region.move shift).stop? = some (region.move shift).stop := if_pos stop'
  have first : (region.move shift).start.toNat - (base + shift).toNat =
      region.start.toNat - base.toNat := Region.toNat_sub_move le le'
  have last : (region.move shift).stop - (base + shift).toNat - 1 =
      region.stop - base.toNat - 1 := by
    have baseLe := UInt64.le_iff_toNat_le.1 le
    have baseLe' := UInt64.le_iff_toNat_le.1 le'
    change (region.start + shift).toNat - _ = _ at first
    change (region.start + shift).toNat + region.size.toNat - _ - 1 = _
    rw [Region.stop]
    omega
  have movedLe : base + shift ≤ (region.move shift).start := le'
  unfold locate
  simp only [stopAt, stopAt', found, require, if_pos le, if_pos movedLe, first, last, bind,
    Except.bind]
  -- from here on both look at the same sections
  cases image.sections.findContaining? (region.start.toNat - base.toNat) with
  | none => rfl
  | some owner =>
    cases image.sections.findContaining? (region.stop - base.toNat - 1) with
    | none => rfl
    | some lastOwner =>
      by_cases oneSection : owner = lastOwner
      · simp only [if_pos oneSection]
        cases image.sections[owner]? with
        | none => rfl
        | some header =>
          dsimp only
          cases growth? kind header _ image.fileAlignment.toNat with
          | none => rfl
          | some growth => rfl
      · simp only [if_neg oneSection]
        rfl

/-- A moved region is placed where the region is, or is refused for the same reason. -/
theorem locate_move
    (below : ∀ header ∈ image.sections,
      base.toNat + header.virtualAddress.toNat + header.extent < addressSpace)
    (below' : ∀ header ∈ image.sections,
      (base + shift).toNat + header.virtualAddress.toNat + header.extent < addressSpace)
    (stop : region.stop < addressSpace) (stop' : (region.move shift).stop < addressSpace) :
    locate image (base + shift) kind (region.move shift) =
      ((locate image base kind region).map (·.move shift)).mapError (·.move shift) := by
  have same : region.start - base = region.start + shift - (base + shift) := by grind
  by_cases le : base ≤ region.start
  · by_cases le' : base + shift ≤ region.start + shift
    · exact locate_move_of_le le le' stop stop'
    · have nowhere := SectionTable.findContaining?_eq_none same le le' below'
      rw [locate_outside stop (.inr nowhere), locate_outside stop' (.inl le')]
      rfl
  · have outside : ¬base + shift ≤ (region.move shift).start ∨
        image.sections.findContaining? ((region.move shift).start.toNat - (base + shift).toNat) =
          none := by
      by_cases le' : base + shift ≤ region.start + shift
      · exact .inr (SectionTable.findContaining?_eq_none same.symm le' le below)
      · exact .inl le'
    rw [locate_outside stop (.inl le), locate_outside stop' outside]
    rfl

end Placement

/-! ## Planning with moved regions -/

namespace Plan

/-- The backed part of a section ends inside the section. -/
theorem stop_backedRegion_lt {base : UInt64} {header : SectionHeader}
    (below : base.toNat + header.virtualAddress.toNat + header.extent < addressSpace) :
    (backedRegion base header).stop < addressSpace := by
  have start := toNat_start_backedRegion (Nat.lt_of_le_of_lt (Nat.le_add_right _ _) below)
  have size := toNat_size_backedRegion base header
  rw [SectionHeader.extent] at below
  rw [Region.stop, start, size]
  omega

theorem backedRegion_move (base shift : UInt64) (header : SectionHeader) :
    backedRegion (base + shift) header = (backedRegion base header).move shift := by
  have start : base + shift + header.virtualAddress.toUInt64 =
      base + header.virtualAddress.toUInt64 + shift := by grind
  exact congrArg (Region.mk · _) start

variable {image : Image} {memory : MemoryImage} {options : DumpOptions} {region : Region}

/-- The region of initialized data ends below the top of the address space. -/
theorem stop_dataRegion_lt (below : memory.BelowTop image)
    (located : dataRegion image memory options = .ok region) (nonempty : region.isEmpty = false) :
    region.stop < addressSpace := by
  simp only [dataRegion] at located
  split at located
  · cases located
    exact below.regions .data nonempty
  · rename_i name index header named
    simp only [bind_eq_ok_iff] at located
    obtain ⟨_, -, _, -, ⟨⟩⟩ := located
    exact stop_backedRegion_lt
      (below.sections header (List.mem_of_getElem? (getElem?_of_namedSection? named)))

end Plan

namespace MemoryImage.MovedBy

open Placement Plan

variable {image : Image} {memory moved : MemoryImage} {shift : UInt64} {options : DumpOptions}
  {kind : RegionKind} {region : Region}
  (movedBy : memory.MovedBy shift moved) (below : memory.BelowTop image)
  (below' : moved.BelowTop image)
include movedBy below below'

theorem place?_eq (stop : region.isEmpty = false → region.stop < addressSpace)
    (stop' : region.isEmpty = false → (region.move shift).stop < addressSpace) :
    place? image moved.imageBase kind (region.move shift) =
      ((place? image memory.imageBase kind region).map (·.map (·.move shift))).mapError
        (·.move shift) := by
  have sections := below'.sections
  unfold place?
  rw [Region.isEmpty_move, movedBy.imageBase] at *
  cases empty : region.isEmpty with
  | true => rfl
  | false =>
    rw [locate_move below.sections sections (stop empty) (stop' empty)]
    cases locate image memory.imageBase kind region with
    | error error => rfl
    | ok placement => rfl

/-- A reported region is placed where it was. -/
theorem place?_region (kind : RegionKind) :
    place? image moved.imageBase kind (moved.region kind) =
      ((place? image memory.imageBase kind (memory.region kind)).map
        (·.map (·.move shift))).mapError (·.move shift) := by
  have stop' := below'.regions kind
  rw [movedBy.region kind] at stop' ⊢
  exact movedBy.place?_eq below below' (below.regions kind) stop'

theorem dataRegion_eq :
    dataRegion image moved options =
      ((dataRegion image memory options).map (·.move shift)).mapError (·.move shift) := by
  simp only [dataRegion]
  split
  · rw [movedBy.region .data]
    rfl
  · rename_i name index header named
    rw [movedBy.place?_region below below' .data, movedBy.imageBase, movedBy.region .data,
      backedRegion_move]
    cases place? image memory.imageBase .data (memory.region .data) with
    | error error => rfl
    | ok placed =>
      have owners : (∀ inside ∈ placed.map (Placement.move shift), inside.owner = index) ↔
          ∀ inside ∈ placed, inside.owner = index := by
        cases placed with
        | none => simp
        | some placement => simp [Placement.move]
      change (require (∀ inside ∈ placed.map (Placement.move shift), inside.owner = index) _ >>=
        fun _ => _) = ((require (∀ inside ∈ placed, inside.owner = index) _ >>=
          fun _ => _).map _).mapError _
      by_cases here : ∀ inside ∈ placed, inside.owner = index
      · rw [require, require, if_pos here, if_pos (owners.2 here)]
        rfl
      · rw [require, require, if_neg here, if_neg fun there => here (owners.1 there)]
        rfl

/-- A region that is placed lies above the load address, and does so once moved. -/
theorem movesWith_of_place? {region : Region}
    (stop : region.isEmpty = false → region.stop < addressSpace)
    (stop' : region.isEmpty = false → (region.move shift).stop < addressSpace)
    {placed : Option Placement}
    (ok : place? image memory.imageBase kind region = .ok placed) :
    ∀ placement ∈ placed, placement.region.MovesWith memory.imageBase shift := by
  intro placement present
  cases present
  have moved : place? image moved.imageBase kind (region.move shift) =
      .ok (some (placement.move shift)) := by
    rw [movedBy.place?_eq below below' stop stop', ok]
    rfl
  obtain ⟨⟨header, within⟩, -, -⟩ := within_of_place? ok
  obtain ⟨⟨header', within'⟩, -, -⟩ := within_of_place? moved
  have start := within.start_eq
  have start' := within'.start_eq
  rw [movedBy.imageBase] at start'
  refine ⟨UInt64.le_iff_toNat_le.2 (by omega), UInt64.le_iff_toNat_le.2 ?_, within.below,
    within'.below⟩
  change _ ≤ (placement.move shift).region.start.toNat
  omega

end MemoryImage.MovedBy

namespace Plan

variable {shift base : UInt64} {bss staticBss : Option Placement}

/-- Moved regions are merged if they were before. -/
theorem mergeOverlap_move
    (first : ∀ placement ∈ bss, placement.region.MovesWith base shift)
    (second : ∀ placement ∈ staticBss, placement.region.MovesWith base shift) :
    mergeOverlap (bss.map (·.move shift)) (staticBss.map (·.move shift)) =
      ((mergeOverlap bss staticBss).map fun (bss, staticBss) =>
        (bss.map (·.move shift), staticBss.map (·.move shift))).mapError (·.move shift) := by
  cases bss with
  | none => rfl
  | some a =>
    cases staticBss with
    | none => rfl
    | some b =>
      have moves := first a rfl
      have moves' := second b rfl
      have overlaps : (a.move shift).region.overlaps (b.move shift).region =
          a.region.overlaps b.region := moves.overlaps_move moves'
      have merged : merge (a.move shift) (b.move shift) = (merge a b).move shift :=
        congrArg (fun region => { merge a b with region }) (moves.union_move moves')
      simp only [Option.map_some, mergeOverlap, overlaps, merged]
      split
      · change (if a.owner = b.owner then _ else _) = _
        split
        · rfl
        · rfl
      · rfl

theorem totalGrowth_move :
    totalGrowth (bss.map (·.move shift)) (staticBss.map (·.move shift)) =
      totalGrowth bss staticBss := by
  cases bss with
  | none =>
    cases staticBss with
    | none => rfl
    | some b => rfl
  | some a =>
    cases staticBss with
    | none => rfl
    | some b => rfl

end Plan

namespace MemoryImage.MovedBy

open Placement Plan

variable {image : Image} {memory moved : MemoryImage} {shift : UInt64} {options : DumpOptions}
  (movedBy : memory.MovedBy shift moved) (below : memory.BelowTop image)
  (below' : moved.BelowTop image)
include movedBy below below'

/-- **Planning.** The plan for a moved memory image is the moved plan. -/
theorem analyze_eq :
    analyze image moved options =
      ((analyze image memory options).map (·.move shift)).mapError (·.move shift) := by
  have moves (kind : RegionKind) {placed : Option Placement}
      (ok : place? image memory.imageBase kind (memory.region kind) = .ok placed) :
      ∀ placement ∈ placed, placement.region.MovesWith memory.imageBase shift := by
    have stop' := below'.regions kind
    rw [movedBy.region kind] at stop'
    exact movedBy.movesWith_of_place? below below' (below.regions kind) stop' ok
  have dataRegion : dataRegion image moved options =
      ((dataRegion image memory options).map (·.move shift)).mapError (·.move shift) :=
    movedBy.dataRegion_eq below below'
  refine bind_eq_map_mapError dataRegion fun region located => ?_
  rw [located] at dataRegion
  refine bind_eq_map_mapError (movedBy.place?_eq below below' (stop_dataRegion_lt below located)
    (stop_dataRegion_lt below' dataRegion)) fun data _ => ?_
  refine bind_eq_map_mapError (movedBy.place?_region below below' .bss) fun bss bssPlaced => ?_
  refine bind_eq_map_mapError (movedBy.place?_region below below' .staticBss)
    fun staticBss staticPlaced => ?_
  refine bind_eq_map_mapError (mergeOverlap_move (moves .bss bssPlaced)
    (moves .staticBss staticPlaced)) fun merged _ => ?_
  change Except.ok _ = Except.ok _
  rw [movedBy.imageBase, totalGrowth_move]
  rfl

end MemoryImage.MovedBy

/-! ## Copying moved regions -/

theorem FailsOnlyWith.mapError_eq {α : Type} {step : Except Interrupted α} {shift : UInt64}
    (fails : FailsOnlyWith (fun error => error.move shift = error) step) :
    step.mapError (·.move shift) = step := by
  cases step with
  | ok value => rfl
  | error interrupted =>
    have still : interrupted.error.move shift = interrupted.error := fails interrupted rfl
    exact congrArg Except.error (congrArg (Interrupted.mk · interrupted.output) still)

theorem Plan.placements_move (plan : Plan) (shift : UInt64) :
    (plan.move shift).placements = plan.placements.map (·.move shift) := by
  simp only [placements, move, List.map_append]
  cases plan.data <;> cases plan.bss <;> cases plan.staticBss <;> rfl

theorem Plan.placementsIn_move (plan : Plan) (shift : UInt64) (index : Nat) :
    (plan.move shift).placementsIn index = (plan.placementsIn index).map (·.move shift) := by
  rw [placementsIn, placements_move, List.filter_map]
  rfl

namespace CopyJob

variable {job : CopyJob} {shift : UInt64} {moved : MemoryImage} {index start : Nat}
  {state : CopyState}

/-- The job to copy a moved memory image into the same source. -/
def moveTo (job : CopyJob) (shift : UInt64) (moved : MemoryImage) : CopyJob :=
  { job with memory := moved, plan := job.plan.move shift }

theorem storeRegion_moveTo {placement : Placement} (positive : 0 < job.alignment)
    (answers : moved.read (placement.region.move shift) = job.memory.read placement.region) :
    (job.moveTo shift moved).storeRegion index start state (placement.move shift) =
      (job.storeRegion index start state placement).mapError (·.move shift) := by
  have copied (cursor : Cursor) :
      cursor.copyMemory moved (placement.region.move shift) =
        (cursor.copyMemory job.memory placement.region).mapError (·.move shift) := by
    unfold Cursor.copyMemory
    rw [answers]
    cases job.memory.read placement.region with
    | none => rfl
    | some bytes =>
      exact (FailsOnlyWith.mapError_eq (Cursor.failsOnlyWith_put fun _ _ _ => rfl)).symm
  refine bind_eq_mapError (copied _) fun cursor _ => (FailsOnlyWith.mapError_eq ?_).symm
  split
  · exact (Cursor.failsOnlyWith_align positive).bind fun _ _ => failsOnlyWith_ok _
  · exact failsOnlyWith_ok _

/-- The moved memory image has the same bytes for each region of the plan. -/
def Answers (job : CopyJob) (shift : UInt64) (moved : MemoryImage) : Prop :=
  ∀ placement ∈ job.plan.placements,
    moved.read (placement.region.move shift) = job.memory.read placement.region

variable (positive : 0 < job.alignment) (answers : job.Answers shift moved)
include positive answers

theorem copySection_moveTo :
    (job.moveTo shift moved).copySection index state =
      (job.copySection index state).mapError (·.move shift) := by
  cases entry : job.source.sections[index]? with
  | none =>
    simp only [copySection, moveTo, entry]
    rfl
  | some header =>
    have entry' : (job.moveTo shift moved).source.sections[index]? = some header := entry
    rw [copySection, copySection, entry', entry]
    refine bind_eq_mapError (FailsOnlyWith.mapError_eq ?_).symm fun cursor _ => ?_
    · exact Cursor.failsOnlyWith_copySource (fun _ _ _ => rfl) fun _ => rfl
    refine bind_eq_mapError (FailsOnlyWith.mapError_eq ?_).symm fun cursor _ => ?_
    · exact Cursor.failsOnlyWith_alignZeroed positive
    refine bind_eq_mapError ?_ fun state _ => (FailsOnlyWith.mapError_eq ?_).symm
    · change List.foldlM _ _ ((job.plan.move shift).placementsIn index) = _
      rw [Plan.placementsIn_move]
      exact foldlM_map_eq_mapError (fun state placement mem => storeRegion_moveTo positive
        (answers placement (Plan.mem_placementsIn.1 mem).1)) _
    · exact (Cursor.failsOnlyWith_align positive).bind fun _ _ => failsOnlyWith_ok _

/-- **Copying.** A moved memory image is copied alike. -/
theorem run_moveTo (output : Buffer) :
    (job.moveTo shift moved).run output = (job.run output).mapError (·.move shift) := by
  have stages (state : CopyState) (stage : Stage) :
      (job.moveTo shift moved).perform state stage =
        (job.perform state stage).mapError (·.move shift) := by
    cases stage with
    | headers =>
      exact (FailsOnlyWith.mapError_eq
        (failsOnlyWith_copyHeaders positive (fun _ _ _ => rfl) fun _ => rfl)).symm
    | sectionAt index => exact copySection_moveTo positive answers
    | trailer => exact (FailsOnlyWith.mapError_eq (failsOnlyWith_copyTrailer fun _ _ _ => rfl)).symm
    | done => rfl
  have whole : ((Stage.all job.source.sections.length).map id).foldlM
        (job.moveTo shift moved).perform (job.initial output) =
      (job.run output).mapError (·.move shift) :=
    foldlM_map_eq_mapError (fun state stage _ => stages state stage) _
  rw [List.map_id] at whole
  exact whole

end CopyJob

/-- Writing the dump of a moved memory image. -/
theorem writeDump_move {image : Image} {memory moved : MemoryImage} {plan : Plan}
    {options : DumpOptions} {shift : UInt64}
    (positive : 0 < CopyJob.alignment { source := image, memory, plan })
    (answers : CopyJob.Answers { source := image, memory, plan } shift moved) :
    writeDump image moved (plan.move shift) options =
      (writeDump image memory plan options).mapError (·.move shift) := by
  refine bind_eq_mapError (CopyJob.run_moveTo positive answers _) fun copied _ => ?_
  refine bind_eq_mapError (FailsOnlyWith.mapError_eq ?_).symm fun _ _ => rfl
  exact Output.failsOnlyWith_patch fun _ _ _ => rfl

/-- **The load address.** Two memory images that differ only in the addresses that the image
and its regions are at are dumped alike. -/
theorem dumpImage_movedBy {source : Bytes} {memory moved : MemoryImage} {options : DumpOptions}
    {shift : UInt64} (movedBy : memory.MovedBy shift moved)
    (below : ∀ image, Image.parse source = .ok image → memory.BelowTop image)
    (below' : ∀ image, Image.parse source = .ok image → moved.BelowTop image) :
    dumpImage source moved options =
      (dumpImage source memory options).mapError (·.move shift) := by
  cases parsed : Image.parse source with
  | error error =>
    rw [dumpImage, dumpImage, dumpNamed, dumpNamed, parsed]
    rfl
  | ok image =>
    have planned : Plan.analyze image moved options =
        ((Plan.analyze image memory options).map (·.move shift)).mapError (·.move shift) :=
      movedBy.analyze_eq (below image parsed) (below' image parsed)
    rw [dumpImage_eq_of_parse parsed, dumpImage_eq_of_parse parsed]
    cases analyzed : Plan.analyze image memory options with
    | error error =>
      rw [planned, analyzed]
      rfl
    | ok plan =>
      rw [analyzed] at planned
      have positive := Image.fileAlignment_pos_of_parse parsed
      have sound := Plan.sound_of_analyze positive analyzed
      have sound' := Plan.sound_of_analyze positive planned
      -- the regions of both plans lie above the load address
      have answers : CopyJob.Answers { source := image, memory, plan } shift moved := by
        intro placement mem
        have mem' : placement.move shift ∈ (plan.move shift).placements := by
          rw [Plan.placements_move]
          exact List.mem_map_of_mem mem
        obtain ⟨header, within⟩ := sound.within_of_mem mem
        obtain ⟨header', within'⟩ := sound'.within_of_mem mem'
        have start := within.start_eq
        have start' := within'.start_eq
        refine movedBy.read placement.region (UInt64.le_iff_toNat_le.2 (by omega))
          (UInt64.le_iff_toNat_le.2 ?_)
        change _ ≤ (placement.move shift).region.start.toNat
        omega
      have alignment : 0 < CopyJob.alignment { source := image, memory, plan } := by
        rw [CopyJob.alignment, sound.fileAlignment]
        exact positive
      rw [planned]
      change (writeDump image moved (plan.move shift) options).mapError _ =
        ((writeDump image memory plan options).mapError _).mapError _
      rw [writeDump_move alignment answers]
      cases writeDump image memory plan options with
      | error interrupted => rfl
      | ok output => rfl

/-! ## Moved snapshots -/

/-- The captured piece at another address. -/
def Capture.move (shift : UInt64) (capture : Capture) : Capture :=
  { capture with start := capture.start + shift }

/-- The snapshot of the program at another address. -/
def Snapshot.move (shift : UInt64) (snapshot : Snapshot) : Snapshot where
  imageBase := snapshot.imageBase + shift
  region := fun kind => (snapshot.region kind).move shift
  captures := snapshot.captures.map (·.move shift)

/-- A moved capture answers for moved regions, if both are above the load address. -/
theorem Capture.read?_move {capture : Capture} {region : Region} {base shift : UInt64}
    (above : base ≤ capture.start ∧ base + shift ≤ capture.start + shift)
    (le : base ≤ region.start) (movedLe : base + shift ≤ region.start + shift) :
    (capture.move shift).read? (region.move shift) = capture.read? region := by
  have distance := Region.toNat_sub_move le movedLe
  have captureDistance := Region.toNat_sub_move above.1 above.2
  simp only [UInt64.le_iff_toNat_le] at le movedLe above
  have order : capture.start + shift ≤ region.start + shift ↔ capture.start ≤ region.start := by
    rw [UInt64.le_iff_toNat_le, UInt64.le_iff_toNat_le]
    omega
  have offset : (region.start + shift).toNat - (capture.start + shift).toNat =
      region.start.toNat - capture.start.toNat := by omega
  change (if capture.start + shift ≤ region.start + shift then
    capture.bytes.slice? ((region.start + shift).toNat - (capture.start + shift).toNat) _
    else none) = _
  rw [offset, read?]
  simp only [order, Region.size_move]

/-- A snapshot is moved as a memory image if all of it was captured above the load address. -/
theorem Snapshot.movedBy_move {snapshot : Snapshot} {shift : UInt64}
    (above : ∀ capture ∈ snapshot.captures, snapshot.imageBase ≤ capture.start ∧
      snapshot.imageBase + shift ≤ capture.start + shift) :
    snapshot.toMemoryImage.MovedBy shift (snapshot.move shift).toMemoryImage := by
  refine ⟨rfl, fun _ => rfl, fun region le movedLe => ?_⟩
  change (snapshot.captures.map _).findSome? _ = snapshot.captures.findSome? _
  rw [List.findSome?_map]
  generalize snapshot.captures = captures at above
  induction captures with
  | nil => rfl
  | cons capture rest ih =>
    obtain ⟨first, others⟩ := List.forall_mem_cons.1 above
    have same : ((fun capture => capture.read? (region.move shift)) ∘ fun capture =>
        Capture.move shift capture) capture = capture.read? region :=
      Capture.read?_move first le movedLe
    rw [List.findSome?_cons, List.findSome?_cons, ih others, same]

/-- The program of `growingMemory` is dumped alike if it is loaded at `0x7fff00400000`. -/
theorem dumpImage_movedBy_growingMemory :
    dumpImage wideImage (growingMemory.move 0x7fff00000000).toMemoryImage plainOptions =
      .ok growingDump := by
  have movedBy : growingMemory.toMemoryImage.MovedBy 0x7fff00000000
      (growingMemory.move 0x7fff00000000).toMemoryImage :=
    Snapshot.movedBy_move (by decide +kernel)
  have below (memory : MemoryImage)
      (sections : memory.imageBase.toNat + 0x100000fff < addressSpace)
      (regions : ∀ kind, (memory.region kind).stop < addressSpace) (image : Image)
      (parsed : Image.parse wideImage = .ok image) : memory.BelowTop image := by
    rw [parse_wideImage] at parsed
    have table : wideSource.sections = [wideSection] := by decide +kernel
    have stop : wideSection.virtualAddress.toNat + wideSection.extent = 0x100000fff := by
      decide +kernel
    rw [← Except.ok.inj parsed]
    refine ⟨fun header mem => ?_, fun kind _ => regions kind⟩
    rw [table, List.mem_singleton] at mem
    subst mem
    omega
  rw [dumpImage_movedBy movedBy (below _ (by decide) fun kind => by cases kind <;> decide)
    (below _ (by decide) fun kind => by cases kind <;> decide), dumpImage_growingMemory]
  rfl

end ImageDump
