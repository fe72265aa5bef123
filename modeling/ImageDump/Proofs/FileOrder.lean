import ImageDump.Proofs.Relocation

/-!
# Section tables that are accepted

The check of a section table goes through it once and keeps the end of the last raw data.
As long as the sections so far are in order, that end is the largest, so comparing with it is
comparing with every section in front (`SectionTable.lt_lastRawEnd_iff`). A table is accepted
exactly if its raw data fits into the file in table order, and what is refused otherwise is
the first section that does not (`parse_eq_ok_iff_fitsInOrder`).
-/

namespace ImageDump

namespace SectionTable

/-- The raw data of the sections that have any ends inside `length` bytes, and that of each of
them in front of that of the later ones. -/
def FitsInOrder (table : SectionTable) (length : Nat) : Prop :=
  (∀ header ∈ table, header.hasRawData = true → header.rawEnd ≤ length) ∧
    table.Pairwise Image.InFileOrder

instance (table : SectionTable) (length : Nat) : Decidable (table.FitsInOrder length) :=
  inferInstanceAs (Decidable (_ ∧ _))

variable {front : SectionTable} {length : Nat}

theorem fitsInOrder_nil : FitsInOrder [] length := ⟨nofun, .nil⟩

/-- One more section fits if it ends inside the file and starts behind all raw data in front
of it. -/
theorem fitsInOrder_concat {header : SectionHeader} (fits : front.FitsInOrder length)
    (inside : header.hasRawData = true → header.rawEnd ≤ length)
    (behind : header.hasRawData = true → front.lastRawEnd ≤ header.rawPointer.toNat) :
    (front ++ [header]).FitsInOrder length := by
  obtain ⟨ends, ordered⟩ := fits
  refine ⟨?_, List.pairwise_append.2 ⟨ordered, List.pairwise_singleton _ _, ?_⟩⟩
  · intro other mem raw
    rcases List.mem_append.1 mem with early | last
    · exact ends other early raw
    · cases List.mem_singleton.1 last
      exact inside raw
  · intro other early last mem otherRaw raw
    cases List.mem_singleton.1 mem
    exact Nat.le_trans (rawEnd_le_lastRawEnd_of_hasRawData ordered early otherRaw) (behind raw)

/-- In file order, all raw data together reaches beyond a position exactly if that of some
section does. -/
theorem lt_lastRawEnd_iff (ordered : front.Pairwise Image.InFileOrder) (position : Nat) :
    position < front.lastRawEnd ↔
      ∃ header ∈ front, header.hasRawData = true ∧ position < header.rawEnd := by
  constructor
  · intro lt
    rcases lastRawEnd_cases front with ⟨-, zero⟩ | ⟨before, last, after, rfl, raw, -, eq⟩
    · rw [zero] at lt
      exact absurd lt (Nat.not_lt_zero _)
    · exact ⟨last, List.mem_append_right before List.mem_cons_self, raw, eq ▸ lt⟩
  · intro exceeded
    rcases exceeded with ⟨header, mem, raw, lt⟩
    exact Nat.lt_of_lt_of_le lt (rawEnd_le_lastRawEnd_of_hasRawData ordered mem raw)

/-- Where the raw data of the sections ends that have any. -/
def rawEnds (table : SectionTable) : List Nat :=
  (table.filter (·.hasRawData)).map (·.rawEnd)

theorem mem_rawEnds {table : SectionTable} {stop : Nat} :
    stop ∈ table.rawEnds ↔
      ∃ header ∈ table, header.hasRawData = true ∧ header.rawEnd = stop := by
  simp only [rawEnds, List.mem_map, List.mem_filter, and_assoc]

/-- In file order, the last raw data has the largest end. -/
theorem lastRawEnd_eq_max? {table : SectionTable} (ordered : table.Pairwise Image.InFileOrder) :
    table.lastRawEnd = table.rawEnds.max?.getD 0 := by
  rcases lastRawEnd_cases table with ⟨noData, zero⟩ | ⟨before, last, after, split, raw, -, eq⟩
  · have none : table.rawEnds = [] := by
      rw [rawEnds, List.filter_eq_nil_iff.2 fun header mem => Bool.eq_false_iff.1 (noData header mem)]
      rfl
    rw [zero, none]
    rfl
  · have mem : last ∈ table := split ▸ List.mem_append_right before List.mem_cons_self
    have largest : table.rawEnds.max? = some table.lastRawEnd := by
      refine List.max?_eq_some_iff.2 ⟨mem_rawEnds.2 ⟨last, mem, raw, eq.symm⟩, ?_⟩
      intro stop stopMem
      obtain ⟨header, headerMem, headerRaw, rfl⟩ := mem_rawEnds.1 stopMem
      exact rawEnd_le_lastRawEnd_of_hasRawData ordered headerMem headerRaw
    rw [largest]
    rfl

end SectionTable

/-- What is wrong with a section behind those of `front`, in a file of `length` bytes: its raw
data starts in front of the end of that of another one, or else ends behind the file. -/
inductive SectionHeader.Fault (header : SectionHeader) (front : SectionTable) (length : Nat) :
    SectionFault → Prop
  | outOfOrder {other : SectionHeader} :
    header.hasRawData = true → other ∈ front → other.hasRawData = true →
    header.rawPointer.toNat < other.rawEnd →
    Fault header front length (.outOfOrder header.name.display header.rawPointer.toNat)
  | outside :
    header.hasRawData = true →
    (∀ other ∈ front, other.hasRawData = true → other.rawEnd ≤ header.rawPointer.toNat) →
    length < header.rawEnd →
    Fault header front length (.outside header.name.display header.rawEnd length)

namespace Image

variable {front : SectionTable} {length : Nat}

/-- One pass of the check: behind sections that fit, the next one has a fault and is refused,
or fits as well and is remembered by its end. -/
theorem checkFileOrder_cons (fits : front.FitsInOrder length) (header : SectionHeader)
    (rest : SectionTable) :
    (∃ fault, header.Fault front length fault ∧
      checkFileOrder length front.lastRawEnd (header :: rest) =
        .error (.invalidSection fault)) ∨
    ((front ++ [header]).FitsInOrder length ∧
      checkFileOrder length front.lastRawEnd (header :: rest) =
        checkFileOrder length (front ++ [header]).lastRawEnd rest) := by
  have exceeded := SectionTable.lt_lastRawEnd_iff fits.2 header.rawPointer.toNat
  rw [checkFileOrder, SectionTable.lastRawEnd_concat]
  cases raw : header.hasRawData with
  | false =>
    exact .inr ⟨SectionTable.fitsInOrder_concat fits (by simp [raw]) (by simp [raw]), rfl⟩
  | true =>
    rcases Nat.lt_or_ge header.rawPointer.toNat front.lastRawEnd with early | behind
    · obtain ⟨other, mem, otherRaw, lt⟩ := exceeded.1 early
      exact .inl ⟨_, .outOfOrder raw mem otherRaw lt, if_pos early⟩
    · have inOrder : ∀ other ∈ front, other.hasRawData = true →
          other.rawEnd ≤ header.rawPointer.toNat := fun other mem otherRaw =>
        Nat.le_of_not_lt fun lt =>
          Nat.not_lt.2 behind (exceeded.2 ⟨other, mem, otherRaw, lt⟩)
      rcases Nat.lt_or_ge length header.rawEnd with outside | inside
      · exact .inl ⟨_, .outside raw inOrder outside, by simp [Nat.not_lt.2 behind, outside]⟩
      · refine .inr ⟨SectionTable.fitsInOrder_concat fits (fun _ => inside) fun _ => behind, ?_⟩
        simp [Nat.not_lt.2 behind, Nat.not_lt.2 inside]

/-- The check goes through the table up to the first section with a fault. -/
theorem checkFileOrder_cases (fits : front.FitsInOrder length) (rest : SectionTable) :
    ((front ++ rest).FitsInOrder length ∧
      checkFileOrder length front.lastRawEnd rest = .ok ()) ∨
    ∃ before header after fault, rest = before ++ header :: after ∧
      (front ++ before).FitsInOrder length ∧ header.Fault (front ++ before) length fault ∧
      checkFileOrder length front.lastRawEnd rest = .error (.invalidSection fault) := by
  induction rest generalizing front with
  | nil => exact .inl ⟨(List.append_nil front).symm ▸ fits, rfl⟩
  | cons header rest ih =>
    rcases checkFileOrder_cons fits header rest with ⟨fault, faulty, refused⟩ | ⟨longer, passed⟩
    · refine .inr ⟨[], header, rest, fault, rfl, ?_, ?_, refused⟩
      · rwa [List.append_nil]
      · rwa [List.append_nil]
    · rcases ih longer with ⟨whole, accepted⟩ | ⟨before, other, after, fault, rfl, others⟩
      · rw [List.append_assoc] at whole
        exact .inl ⟨whole, passed.trans accepted⟩
      · rw [List.append_assoc, ← passed] at others
        exact .inr ⟨header :: before, other, after, fault, rfl, others⟩

end Image

/-- A section with a fault does not fit behind the sections in front of it. -/
theorem SectionHeader.Fault.not_fitsInOrder {header : SectionHeader}
    {before after : SectionTable} {length : Nat} {fault : SectionFault}
    (faulty : header.Fault before length fault) :
    ¬(before ++ header :: after).FitsInOrder length := by
  intro fits
  obtain ⟨ends, ordered⟩ := fits
  cases faulty with
  | outOfOrder raw mem otherRaw lt =>
    have inOrder := (List.pairwise_append.1 ordered).2.2 _ mem header List.mem_cons_self
      otherRaw raw
    exact Nat.not_lt.2 inOrder lt
  | outside raw _ lt =>
    exact Nat.not_lt.2 (ends header (List.mem_append_right before List.mem_cons_self) raw) lt

/-- **Accepted section tables.** An image whose headers can be read is accepted exactly if the
raw data of its sections fits into the file in table order. Otherwise the first section that
does not fit is refused for what is wrong with it. In an accepted image each byte of the file
belongs to the raw data of one section at most, and the raw data ends with the largest of the
ends of all sections. -/
theorem parse_eq_ok_iff_fitsInOrder {data : Bytes} {image : Image}
    (read : Image.readHeaders data = .ok image) :
    (Image.parse data = .ok image ↔ image.sections.FitsInOrder data.length) ∧
      (¬image.sections.FitsInOrder data.length →
        ∃ (before : SectionTable) (header : SectionHeader) (after : SectionTable)
          (fault : SectionFault), image.sections = before ++ header :: after ∧
          before.FitsInOrder data.length ∧ header.Fault before data.length fault ∧
          Image.parse data = .error (.invalidSection fault)) ∧
      (Image.parse data = .ok image →
        (∀ (offset i j : Nat) (first second : SectionHeader), image.sections[i]? = some first →
          image.sections[j]? = some second → first.HoldsOffset offset →
          second.HoldsOffset offset → i = j) ∧
        image.sections.lastRawEnd = image.sections.rawEnds.max?.getD 0) := by
  have checked : Image.parse data =
      (Image.checkFileOrder data.length 0 image.sections >>= fun _ => .ok image) := by
    rw [Image.parse, read]
    rfl
  have accepts : Image.parse data = .ok image ↔ image.sections.FitsInOrder data.length := by
    rw [checked, bind_eq_ok_iff]
    rcases Image.checkFileOrder_cases SectionTable.fitsInOrder_nil image.sections with
      ⟨fits, passed⟩ | ⟨before, header, after, fault, split, -, faulty, refused⟩
    · exact iff_of_true ⟨(), passed, rfl⟩ fits
    · refine iff_of_false ?_ (split ▸ faulty.not_fitsInOrder)
      intro accepted
      obtain ⟨_, passed, -⟩ := accepted
      cases refused.symm.trans passed
  refine ⟨accepts, ?_, ?_⟩
  · intro misfit
    rcases Image.checkFileOrder_cases SectionTable.fitsInOrder_nil image.sections with
      ⟨fits, -⟩ | ⟨before, header, after, fault, split, fits, faulty, refused⟩
    · exact absurd fits misfit
    · exact ⟨before, header, after, fault, split, fits, faulty,
        checked.trans (bind_eq_error_iff.2 (.inl refused))⟩
  · intro accepted
    have ordered := (accepts.1 accepted).2
    refine ⟨?_, SectionTable.lastRawEnd_eq_max? ordered⟩
    intro offset i j first second firstAt secondAt firstHolds secondHolds
    exact SectionTable.eq_of_holdsOffset ordered firstAt secondAt firstHolds secondHolds

/-- An image whose sections follow each other without a gap, the second of them empty. -/
def adjacentImage : Bytes :=
  imageOf [pageSection 0x1000 304 40, pageSection 0x2000 344 0, pageSection 0x3000 344 16]
    (Bytes.zeros 56)

/-- An image whose last section starts one byte in front of the end of the first. -/
def crossedImage : Bytes :=
  imageOf [pageSection 0x1000 304 40, pageSection 0x2000 0 0, pageSection 0x3000 343 16]
    (Bytes.zeros 56)

/-- What is read from `adjacentImage`. -/
def adjacentSource : Image := (Image.readHeaders adjacentImage).toOption.get (by decide +kernel)

/-- What is read from `crossedImage` before its section table is checked. -/
def crossedSource : Image := (Image.readHeaders crossedImage).toOption.get (by decide +kernel)

/-- The section table of `adjacentImage` is accepted and that of `crossedImage` is not. -/
theorem parse_adjacentImage_crossedImage :
    Image.readHeaders adjacentImage = .ok adjacentSource ∧
      Image.parse adjacentImage = .ok adjacentSource ∧
      adjacentSource.sections.lastRawEnd = 360 ∧ adjacentSource.sections.rawEnds = [344, 344, 360] ∧
      Image.readHeaders crossedImage = .ok crossedSource ∧
      ∃ fault, Image.parse crossedImage = .error (.invalidSection fault) := by
  have adjacentRead : Image.readHeaders adjacentImage = .ok adjacentSource := eq_ok_get _
  have crossedRead : Image.readHeaders crossedImage = .ok crossedSource := eq_ok_get _
  obtain ⟨accepts, -, accepted⟩ := parse_eq_ok_iff_fitsInOrder adjacentRead
  obtain ⟨-, refuses, -⟩ := parse_eq_ok_iff_fitsInOrder crossedRead
  have parsed := accepts.2 (by decide +kernel)
  have ends : adjacentSource.sections.rawEnds = [344, 344, 360] := by decide +kernel
  obtain ⟨-, largest⟩ := accepted parsed
  rw [ends] at largest
  obtain ⟨-, -, -, fault, -, -, -, refused⟩ := refuses (by decide +kernel)
  exact ⟨adjacentRead, parsed, largest, ends, crossedRead, fault, refused⟩

end ImageDump
