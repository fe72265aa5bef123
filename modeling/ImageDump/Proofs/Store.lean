import ImageDump.Output.Store
import ImageDump.Proofs.Reading

/-!
# Storing headers

Headers are stored as pieces, one after the other in the file. `Headers.Stored`
is what these writes leave behind: the pieces stand where they were written, and
nothing outside them has changed. Headers are stored a second time in the same
places when a checksum is added, and `Headers.Stored.trans` says that only the
second time counts.
-/

namespace ImageDump

/-! ## Pieces in ascending order -/

namespace Bytes

/-- Write pieces at their offsets, in order. -/
def overwriteAll (data : Bytes) (pieces : List (Nat × Bytes)) : Bytes :=
  pieces.foldl (fun data piece => data.overwrite piece.1 piece.2) data

/-- The first piece ends where the second starts, or before. -/
def Before (first second : Nat × Bytes) : Prop := first.1 + first.2.length ≤ second.1

/-- The position belongs to one of the pieces. -/
def Covered (pieces : List (Nat × Bytes)) (position : Nat) : Prop :=
  ∃ piece ∈ pieces, piece.1 ≤ position ∧ position < piece.1 + piece.2.length

theorem covered_cons {first : Nat × Bytes} {rest : List (Nat × Bytes)} {position : Nat} :
    Covered (first :: rest) position ↔
      (first.1 ≤ position ∧ position < first.1 + first.2.length) ∨ Covered rest position := by
  simp only [Covered, List.mem_cons, exists_eq_or_imp]

variable {data : Bytes} {pieces : List (Nat × Bytes)} {piece : Nat × Bytes}

/-- The later pieces still lie inside once the first is written. -/
theorem inside_overwrite {first : Nat × Bytes} {rest : List (Nat × Bytes)}
    (inside : ∀ piece ∈ first :: rest, piece.1 + piece.2.length ≤ data.length) :
    ∀ piece ∈ rest, piece.1 + piece.2.length ≤ (data.overwrite first.1 first.2).length := by
  intro piece mem
  rw [length_overwrite (inside first List.mem_cons_self)]
  exact inside piece (List.mem_cons_of_mem first mem)

theorem length_overwriteAll
    (inside : ∀ piece ∈ pieces, piece.1 + piece.2.length ≤ data.length) :
    (data.overwriteAll pieces).length = data.length := by
  induction pieces generalizing data with
  | nil => rfl
  | cons first rest ih =>
    have firstInside := inside first List.mem_cons_self
    have restInside := inside_overwrite inside
    exact (ih restInside).trans (length_overwrite firstInside)

/-- Nothing outside the pieces changes. -/
theorem getElem?_overwriteAll_of_not_covered
    (inside : ∀ piece ∈ pieces, piece.1 + piece.2.length ≤ data.length) {position : Nat}
    (outside : ¬Covered pieces position) :
    (data.overwriteAll pieces)[position]? = data[position]? := by
  induction pieces generalizing data with
  | nil => rfl
  | cons first rest ih =>
    have firstInside := inside first List.mem_cons_self
    have restInside := inside_overwrite inside
    have outsideRest : ¬Covered rest position := by
      intro covered
      rcases covered with ⟨piece, mem, within⟩
      exact outside ⟨piece, List.mem_cons_of_mem first mem, within⟩
    have outsideFirst : ¬(first.1 ≤ position ∧ position < first.1 + first.2.length) :=
      fun within => outside ⟨first, List.mem_cons_self, within⟩
    calc (overwriteAll data (first :: rest))[position]?
        = (data.overwrite first.1 first.2)[position]? := ih restInside outsideRest
      _ = data[position]? := by rw [getElem?_overwrite firstInside, if_neg outsideFirst]

/-- Every piece stands where it was written. -/
theorem getElem?_overwriteAll_of_mem
    (inside : ∀ piece ∈ pieces, piece.1 + piece.2.length ≤ data.length)
    (ascending : pieces.Pairwise Before) (mem : piece ∈ pieces) {i : Nat}
    (lt : i < piece.2.length) :
    (data.overwriteAll pieces)[piece.1 + i]? = piece.2[i]? := by
  induction pieces generalizing data with
  | nil => cases mem
  | cons first rest ih =>
    obtain ⟨firstBefore, restAscending⟩ := List.pairwise_cons.1 ascending
    have firstInside := inside first List.mem_cons_self
    have restInside := inside_overwrite inside
    rcases List.mem_cons.1 mem with rfl | later
    · -- the later pieces start behind this one
      have notCovered : ¬Covered rest (piece.1 + i) := by
        intro covered
        rcases covered with ⟨other, otherMem, le, -⟩
        have before := firstBefore other otherMem
        unfold Before at before
        omega
      calc (overwriteAll data (piece :: rest))[piece.1 + i]?
          = (data.overwrite piece.1 piece.2)[piece.1 + i]? :=
            getElem?_overwriteAll_of_not_covered restInside notCovered
        _ = piece.2[i]? := by
          rw [getElem?_overwrite firstInside, if_pos (by omega), Nat.add_sub_cancel_left]
    · exact ih restInside restAscending later

end Bytes

namespace Output

variable {output result : Bytes} {pieces : List (Nat × Bytes)}

/-- Pieces are stored if each of them lies inside the output. -/
theorem storeAll_eq_ok_iff :
    storeAll output pieces = .ok result ↔
      (∀ piece ∈ pieces, piece.1 + piece.2.length ≤ output.length) ∧
        result = output.overwriteAll pieces := by
  induction pieces generalizing output with
  | nil =>
    constructor
    · intro unequal
      cases unequal
      exact ⟨nofun, rfl⟩
    · intro holds
      rcases holds with ⟨-, rfl⟩
      rfl
  | cons first rest ih =>
    rw [storeAll, List.foldlM_cons, bind_eq_ok_iff, List.forall_mem_cons]
    constructor
    · intro ran
      rcases ran with ⟨_, stored, others⟩
      obtain ⟨inside, rfl⟩ := store_eq_ok_iff.1 stored
      obtain ⟨restInside, rfl⟩ := ih.1 others
      rw [Bytes.length_overwrite inside] at restInside
      exact ⟨⟨inside, restInside⟩, rfl⟩
    · intro holds
      rcases holds with ⟨⟨inside, restInside⟩, rfl⟩
      refine ⟨_, store_eq_ok_iff.2 ⟨inside, rfl⟩, ih.2 ⟨?_, rfl⟩⟩
      rw [Bytes.length_overwrite inside]
      exact restInside

end Output

/-! ## Headers -/

namespace Headers

variable {headers first second third : Headers} {before middle after : Bytes}

open Image (HeadersInOrder)

theorem mem_sectionPieces {piece : Nat × Bytes} :
    piece ∈ headers.sectionPieces ↔ ∃ index header, headers.sections[index]? = some header ∧
      piece = (headers.offsets.sections + SectionHeader.codec.size * index,
        SectionHeader.codec.encode header) := by
  rw [sectionPieces, List.mem_mapIdx]
  constructor
  · intro found
    rcases found with ⟨index, inRange, rfl⟩
    exact ⟨index, _, List.getElem?_eq_getElem inRange, rfl⟩
  · intro found
    rcases found with ⟨index, header, entry, rfl⟩
    obtain ⟨inRange, rfl⟩ := List.getElem?_eq_some_iff.1 entry
    exact ⟨index, inRange, rfl⟩

theorem windows_mem_pieces :
    (headers.offsets.windows, headers.windows.encode) ∈ headers.pieces :=
  List.mem_cons_of_mem _ (List.mem_cons_of_mem _ List.mem_cons_self)

/-- Headers that stand in order end with the section table. -/
theorem le_sectionsEnd_of_mem_pieces (ordered : HeadersInOrder headers) {piece : Nat × Bytes}
    (mem : piece ∈ headers.pieces) :
    piece.1 + piece.2.length ≤ headers.offsets.sectionsEnd := by
  have standard := ordered.standard
  have windows := ordered.windows
  have directories := ordered.directories
  have sections := ordered.sections
  have sectionsEnd := ordered.sectionsEnd
  have coffLength := CoffHeader.codec.length_encode headers.coff
  have standardLength := StandardFields.codec.length_encode headers.standard
  rcases mem with _ | ⟨_, _ | ⟨_, _ | ⟨_, table⟩⟩⟩
  · simp only
    omega
  · simp only
    omega
  · simp only
    omega
  · obtain ⟨index, header, entry, rfl⟩ := mem_sectionPieces.1 table
    have inRange : index < headers.sections.length := (List.getElem?_eq_some_iff.1 entry).1
    have next : SectionHeader.codec.size * (index + 1) ≤
        SectionHeader.codec.size * headers.sections.length := Nat.mul_le_mul_left _ inRange
    simp only [SectionHeader.codec.length_encode]
    rw [Nat.mul_add, Nat.mul_one] at next
    omega

/-- The pieces of headers that stand in order ascend. -/
theorem ascending_pieces (ordered : HeadersInOrder headers) :
    headers.pieces.Pairwise Bytes.Before := by
  have standard := ordered.standard
  have windows := ordered.windows
  have directories := ordered.directories
  have sections := ordered.sections
  have coffLength := CoffHeader.codec.length_encode headers.coff
  have standardLength := StandardFields.codec.length_encode headers.standard
  have fromTable : ∀ piece ∈ headers.sectionPieces, headers.offsets.sections ≤ piece.1 := by
    intro piece mem
    obtain ⟨index, header, -, rfl⟩ := mem_sectionPieces.1 mem
    exact Nat.le_add_right _ _
  have table : headers.sectionPieces.Pairwise Bytes.Before := by
    rw [sectionPieces, List.pairwise_iff_getElem]
    intro i j inRangeI inRangeJ lt
    have length := SectionHeader.codec.length_encode
    have next : SectionHeader.codec.size * (i + 1) ≤ SectionHeader.codec.size * j :=
      Nat.mul_le_mul_left _ lt
    rw [List.getElem_mapIdx, List.getElem_mapIdx]
    simp only [Bytes.Before, length]
    rw [Nat.mul_add, Nat.mul_one] at next
    omega
  unfold pieces
  refine List.pairwise_cons.2 ⟨?_, List.pairwise_cons.2 ⟨?_, List.pairwise_cons.2 ⟨?_, table⟩⟩⟩
  · intro piece mem
    unfold Bytes.Before
    rcases List.mem_cons.1 mem with rfl | mem
    · simp only
      omega
    rcases List.mem_cons.1 mem with rfl | mem
    · simp only
      omega
    · have after := fromTable piece mem
      simp only
      omega
  · intro piece mem
    unfold Bytes.Before
    rcases List.mem_cons.1 mem with rfl | mem
    · simp only
      omega
    · have after := fromTable piece mem
      simp only
      omega
  · intro piece mem
    have after := fromTable piece mem
    unfold Bytes.Before
    simp only
    omega

/-- The table takes up the room of its section headers. -/
theorem covered_sectionPieces_iff {position : Nat} :
    Bytes.Covered headers.sectionPieces position ↔
      headers.offsets.sections ≤ position ∧
        position < headers.offsets.sections +
          SectionHeader.codec.size * headers.sections.length := by
  constructor
  · intro covered
    rcases covered with ⟨piece, mem, le, lt⟩
    obtain ⟨index, header, entry, rfl⟩ := mem_sectionPieces.1 mem
    have inRange : index < headers.sections.length := (List.getElem?_eq_some_iff.1 entry).1
    have next : SectionHeader.codec.size * (index + 1) ≤
        SectionHeader.codec.size * headers.sections.length := Nat.mul_le_mul_left _ inRange
    simp only [SectionHeader.codec.length_encode] at le lt
    rw [Nat.mul_add, Nat.mul_one] at next
    omega
  · intro within
    rcases within with ⟨le, lt⟩
    have inRange : (position - headers.offsets.sections) / SectionHeader.codec.size <
        headers.sections.length := by
      apply Nat.div_lt_of_lt_mul
      omega
    refine ⟨_, mem_sectionPieces.2 ⟨_, _, List.getElem?_eq_getElem inRange, rfl⟩, ?_⟩
    have split := Nat.div_add_mod (position - headers.offsets.sections)
      SectionHeader.codec.size
    have remainder := Nat.mod_lt (position - headers.offsets.sections)
      (show 0 < SectionHeader.codec.size by decide)
    simp only [SectionHeader.codec.length_encode]
    omega

/-- The position belongs to one of the headers. -/
def Holds (headers : Headers) (position : Nat) : Prop :=
  (headers.offsets.coff ≤ position ∧
    position < headers.offsets.coff + CoffHeader.codec.size) ∨
  (headers.offsets.standard ≤ position ∧
    position < headers.offsets.standard + StandardFields.codec.size) ∨
  (headers.offsets.windows ≤ position ∧
    position < headers.offsets.windows + headers.windows.encode.length) ∨
  (headers.offsets.sections ≤ position ∧
    position < headers.offsets.sections + SectionHeader.codec.size * headers.sections.length)

instance (headers : Headers) (position : Nat) : Decidable (headers.Holds position) :=
  inferInstanceAs (Decidable (_ ∨ _ ∨ _ ∨ _))

theorem covered_pieces_iff_holds {position : Nat} :
    Bytes.Covered headers.pieces position ↔ headers.Holds position := by
  rw [pieces, Bytes.covered_cons, Bytes.covered_cons, Bytes.covered_cons,
    covered_sectionPieces_iff, CoffHeader.codec.length_encode,
    StandardFields.codec.length_encode]
  rfl

/-- Where headers that stand in order are stored. -/
theorem covered_pieces_iff (ordered : HeadersInOrder headers) {position : Nat} :
    Bytes.Covered headers.pieces position ↔
      (headers.offsets.coff ≤ position ∧
        position < headers.offsets.standard + StandardFields.codec.size) ∨
      (headers.offsets.windows ≤ position ∧ position < headers.offsets.directories) ∨
      (headers.offsets.sections ≤ position ∧ position < headers.offsets.sectionsEnd) := by
  have standard := ordered.standard
  have directories := ordered.directories
  have sectionsEnd := ordered.sectionsEnd
  rw [covered_pieces_iff_holds, Holds]
  omega

/-- Headers leave alone what is in front of them. -/
theorem not_covered_of_lt (ordered : HeadersInOrder headers) {position : Nat}
    (lt : position < headers.offsets.coff) : ¬Bytes.Covered headers.pieces position := by
  have standard := ordered.standard
  have windows := ordered.windows
  have front := ordered.coff_lt
  have sections := ordered.sections
  rw [covered_pieces_iff ordered]
  omega

/-- Headers leave alone the data directories, which lie in front of the section
table. -/
theorem not_covered_of_between (ordered : HeadersInOrder headers) {position : Nat}
    (le : headers.offsets.directories ≤ position) (lt : position < headers.offsets.sections) :
    ¬Bytes.Covered headers.pieces position := by
  have windows := ordered.windows
  have directories := ordered.directories
  rw [covered_pieces_iff ordered]
  omega

/-- Headers leave alone what is behind the section table. -/
theorem not_covered_of_ge (ordered : HeadersInOrder headers) {position : Nat}
    (le : headers.offsets.sectionsEnd ≤ position) : ¬Bytes.Covered headers.pieces position := by
  have windows := ordered.windows
  have directories := ordered.directories
  have sections := ordered.sections
  have sectionsEnd := ordered.sections_le
  rw [covered_pieces_iff ordered]
  omega

/-- The second headers take up the places of the first: they have the same offsets, the same
format and as many sections. -/
structure SamePlaces (first second : Headers) : Prop where
  offsets : second.offsets = first.offsets
  format : second.windows.format = first.windows.format
  count : second.sections.length = first.sections.length

theorem SamePlaces.refl (headers : Headers) : headers.SamePlaces headers := ⟨rfl, rfl, rfl⟩

theorem SamePlaces.symm (same : first.SamePlaces second) : second.SamePlaces first where
  offsets := same.offsets.symm
  format := same.format.symm
  count := same.count.symm

theorem SamePlaces.trans (same : first.SamePlaces second) (further : second.SamePlaces third) :
    first.SamePlaces third where
  offsets := further.offsets.trans same.offsets
  format := further.format.trans same.format
  count := further.count.trans same.count

theorem SamePlaces.holds_iff (same : first.SamePlaces second) {position : Nat} :
    second.Holds position ↔ first.Holds position := by
  unfold Holds
  rw [same.offsets, same.count, WindowsHeader.length_encode_congr same.format]

theorem SamePlaces.covered_iff (same : first.SamePlaces second) {position : Nat} :
    Bytes.Covered second.pieces position ↔ Bytes.Covered first.pieces position := by
  rw [covered_pieces_iff_holds, covered_pieces_iff_holds, same.holds_iff]

theorem SamePlaces.headersInOrder (same : first.SamePlaces second)
    (ordered : HeadersInOrder first) : HeadersInOrder second where
  standard := by
    rw [same.offsets]
    exact ordered.standard
  windows := by
    rw [same.offsets]
    exact ordered.windows
  directories := by
    rw [same.offsets, WindowsHeader.length_encode_congr same.format]
    exact ordered.directories
  sections := by
    rw [same.offsets]
    exact ordered.sections
  sectionsEnd := by
    rw [same.offsets, same.count]
    exact ordered.sectionsEnd

/-- What storing headers leaves behind. -/
structure Stored (headers : Headers) (before after : Bytes) : Prop where
  length : after.length = before.length
  inside : ∀ piece ∈ headers.pieces, piece.1 + piece.2.length ≤ after.length
  pieces : ∀ piece ∈ headers.pieces, ∀ i < piece.2.length, after[piece.1 + i]? = piece.2[i]?
  frame : ∀ position, ¬Bytes.Covered headers.pieces position →
    after[position]? = before[position]?

/-- Headers are stored in an output that reaches to the end of the section table. -/
theorem exists_storeHeaders (ordered : HeadersInOrder headers)
    (fits : headers.offsets.sectionsEnd ≤ before.length) :
    ∃ after, Output.storeHeaders before headers = .ok after :=
  ⟨_, Output.storeAll_eq_ok_iff.2
    ⟨fun _ mem => Nat.le_trans (le_sectionsEnd_of_mem_pieces ordered mem) fits, rfl⟩⟩

theorem stored_of_storeHeaders (ordered : HeadersInOrder headers)
    (stored : Output.storeHeaders before headers = .ok after) : headers.Stored before after := by
  obtain ⟨inside, rfl⟩ := Output.storeAll_eq_ok_iff.1 stored
  have length := Bytes.length_overwriteAll inside
  exact {
    length
    inside := fun piece mem => length.symm ▸ inside piece mem
    pieces := fun _ mem _ lt =>
      Bytes.getElem?_overwriteAll_of_mem inside (ascending_pieces ordered) mem lt
    frame := fun _ outside => Bytes.getElem?_overwriteAll_of_not_covered inside outside }

theorem Stored.again (stored : headers.Stored before after) : headers.Stored after after :=
  { stored with length := rfl, frame := fun _ _ => rfl }

/-- A position inside a stored piece holds the byte of that piece. -/
theorem Stored.getElem?_of_mem (stored : headers.Stored before after) {piece : Nat × Bytes}
    (mem : piece ∈ headers.pieces) {position : Nat} (le : piece.1 ≤ position)
    (lt : position < piece.1 + piece.2.length) :
    after[position]? = piece.2[position - piece.1]? := by
  have byte := stored.pieces piece mem (position - piece.1) (by omega)
  rwa [Nat.add_sub_cancel' le] at byte

/-- Outputs that hold the same headers are the same if they agree elsewhere. -/
theorem Stored.eq_of_agree {other otherAfter : Bytes} (stored : headers.Stored before after)
    (otherStored : headers.Stored other otherAfter)
    (agree : ∀ position, ¬Bytes.Covered headers.pieces position →
      before[position]? = other[position]?) : after = otherAfter := by
  apply List.ext_getElem?
  intro position
  by_cases covered : Bytes.Covered headers.pieces position
  · obtain ⟨piece, mem, le, lt⟩ := covered
    rw [stored.getElem?_of_mem mem le lt, otherStored.getElem?_of_mem mem le lt]
  · rw [stored.frame position covered, otherStored.frame position covered, agree position covered]

/-- Of headers that are stored twice in the same places, only the second ones
remain. -/
theorem Stored.trans (firstStored : first.Stored before middle)
    (secondStored : second.Stored middle after) (same : first.SamePlaces second) :
    second.Stored before after where
  length := secondStored.length.trans firstStored.length
  inside := secondStored.inside
  pieces := secondStored.pieces
  frame := by
    intro position outside
    have outsideFirst : ¬Bytes.Covered first.pieces position :=
      fun covered => outside (same.covered_iff.2 covered)
    exact (secondStored.frame position outside).trans (firstStored.frame position outsideFirst)

theorem Stored.slice_of_mem (stored : headers.Stored before after) {piece : Nat × Bytes}
    (mem : piece ∈ headers.pieces) : after.slice piece.1 piece.2.length = piece.2 := by
  have sliceLength := Bytes.length_slice_of_le (stored.inside piece mem)
  apply List.ext_getElem?
  intro i
  by_cases lt : i < piece.2.length
  · rw [Bytes.getElem?_slice lt]
    exact stored.pieces piece mem i lt
  · rw [List.getElem?_eq_none (by omega), List.getElem?_eq_none (by omega)]

end Headers

/-! ## Reading headers back -/

/-- The piece stands in the data at its offset. -/
def Bytes.Stands (data : Bytes) (piece : Nat × Bytes) : Prop :=
  piece.1 + piece.2.length ≤ data.length ∧ data.slice piece.1 piece.2.length = piece.2

/-- A record is read exactly if its encoding stands in the data. -/
theorem Codec.read?_eq_some_iff_stands {α : Type} {codec : Codec α} {data : Bytes}
    {offset : Nat} {value : α} :
    codec.read? data offset = some value ↔ data.Stands (offset, codec.encode value) := by
  rw [Codec.read?_eq_some_iff, Bytes.Stands, codec.length_encode]

namespace Headers

variable {headers : Headers} {data before after : Bytes}

/-- Each of the headers is read from the data at its offset. -/
structure ReadsBack (headers : Headers) (data : Bytes) : Prop where
  coff : Image.readRecord .coffHeader CoffHeader.codec data headers.offsets.coff =
    .ok headers.coff
  standard : Image.readRecord .standardFields StandardFields.codec data
    headers.offsets.standard = .ok headers.standard
  windows : headers.windows.format.readWindows data headers.offsets.windows = .ok headers.windows
  sections : Image.readTable .sectionHeader SectionHeader.codec data headers.offsets.sections
    headers.sections.length = .ok headers.sections

/-- The section table is read back exactly if its pieces stand in the data. -/
theorem readTable_eq_ok_iff_stand :
    Image.readTable .sectionHeader SectionHeader.codec data headers.offsets.sections
      headers.sections.length = .ok headers.sections ↔
    ∀ piece ∈ headers.sectionPieces, data.Stands piece := by
  rw [Image.readTable_eq_ok_iff]
  constructor
  · intro read piece mem
    obtain ⟨index, header, entry, rfl⟩ := mem_sectionPieces.1 mem
    exact Codec.read?_eq_some_iff_stands.1 (read.2 index header entry)
  · intro stand
    refine ⟨rfl, fun index header entry => Codec.read?_eq_some_iff_stands.2 ?_⟩
    exact stand _ (mem_sectionPieces.2 ⟨index, header, entry, rfl⟩)

/-- Headers are read back exactly if all their pieces stand in the data. -/
theorem readsBack_iff :
    headers.ReadsBack data ↔ ∀ piece ∈ headers.pieces, data.Stands piece := by
  rw [pieces, List.forall_mem_cons, List.forall_mem_cons, List.forall_mem_cons,
    ← readTable_eq_ok_iff_stand]
  constructor
  · intro read
    have coff := Image.readRecord_eq_ok_iff.1 read.coff
    have standard := Image.readRecord_eq_ok_iff.1 read.standard
    obtain ⟨-, windows⟩ := Image.OptionalFormat.readWindows_eq_ok_iff_slice.1 read.windows
    exact ⟨Codec.read?_eq_some_iff_stands.1 coff, Codec.read?_eq_some_iff_stands.1 standard,
      windows, read.sections⟩
  · intro stand
    rcases stand with ⟨coff, standard, windows, sections⟩
    exact {
      coff := Image.readRecord_eq_ok_iff.2 (Codec.read?_eq_some_iff_stands.2 coff)
      standard := Image.readRecord_eq_ok_iff.2 (Codec.read?_eq_some_iff_stands.2 standard)
      windows := Image.OptionalFormat.readWindows_eq_ok_iff_slice.2 ⟨rfl, windows⟩
      sections }

/-- Headers that were stored are read back. -/
theorem Stored.readsBack (stored : headers.Stored before after) : headers.ReadsBack after :=
  readsBack_iff.2 fun piece mem => ⟨stored.inside piece mem, stored.slice_of_mem mem⟩

theorem Stored.coffAt (stored : headers.Stored before after) :
    CoffHeader.codec.read? after headers.offsets.coff = some headers.coff :=
  Image.readRecord_eq_ok_iff.1 stored.readsBack.coff

theorem Stored.standardAt (stored : headers.Stored before after) :
    StandardFields.codec.read? after headers.offsets.standard = some headers.standard :=
  Image.readRecord_eq_ok_iff.1 stored.readsBack.standard

theorem Stored.windowsAt (stored : headers.Stored before after) :
    headers.windows.format.readWindows after headers.offsets.windows = .ok headers.windows :=
  stored.readsBack.windows

theorem Stored.sectionsAt (stored : headers.Stored before after) :
    Image.readTable .sectionHeader SectionHeader.codec after headers.offsets.sections
      headers.sections.length = .ok headers.sections :=
  stored.readsBack.sections

end Headers
end ImageDump
