import ImageDump.Output.Patch
import ImageDump.Proofs.Store

/-!
# What patching changes

Patching a copy rewrites the data pointers of its debug directory and then stores
its headers. The rewritten pointers are found through the destination's own
section table (`Output.RewritesPointerAt`), and all other bytes that patching
changes belong to the headers.
-/

namespace ImageDump

/-! ## The debug directory -/

namespace DebugEntry

/-- The encoded fields in front of the data pointer. -/
def front (entry : DebugEntry) : Bytes :=
  Codec.u32.encode entry.characteristics ++ Codec.u32.encode entry.timestamp ++
    Codec.u16.encode entry.majorVersion ++ Codec.u16.encode entry.minorVersion ++
    Codec.u32.encode entry.kind ++ Codec.u32.encode entry.dataSize ++
    Codec.u32.encode entry.dataAddress

theorem length_front (entry : DebugEntry) : entry.front.length = 24 := by
  simp only [front, List.length_append, Codec.length_encode]
  rfl

theorem encode_eq (entry : DebugEntry) :
    codec.encode entry = entry.front ++ Codec.u32.encode entry.dataPointer := by
  simp only [front, List.append_assoc]
  rfl

/-- The data pointer is the last field of an entry. -/
theorem getElem?_encode_of_lt {entry : DebugEntry} {dataPointer : UInt32} {i : Nat}
    (lt : i < 24) :
    (codec.encode { entry with dataPointer })[i]? = (codec.encode entry)[i]? := by
  have same : ({ entry with dataPointer } : DebugEntry).front = entry.front := rfl
  have inFront : i < entry.front.length := Nat.lt_of_lt_of_eq lt entry.length_front.symm
  rw [encode_eq, encode_eq, same, List.getElem?_append_left inFront,
    List.getElem?_append_left inFront]

/-- The data pointer of an entry ends it. -/
theorem read?_dataPointer {entry : DebugEntry} {data : Bytes} {offset : Nat}
    (read : codec.read? data offset = some entry) :
    Codec.u32.read? data (offset + 24) = some entry.dataPointer := by
  obtain ⟨inside, stored⟩ := Codec.read?_eq_some_iff.1 read
  rw [encode_eq] at stored
  have pointer := Codec.read?_of_slice_append inside stored
  rwa [length_front] at pointer

end DebugEntry

namespace Output

variable {source destination : SectionTable} {output result : Bytes} {offset : Nat}

/-- An entry that is there is stored again with its data pointer relocated. -/
theorem relocateDebugEntry_eq_ok_iff :
    relocateDebugEntry source destination output offset = .ok result ↔
      ∃ entry, DebugEntry.codec.read? output offset = some entry ∧
        result = output.overwrite offset (DebugEntry.codec.encode { entry with
          dataPointer := relocateField source destination entry.dataPointer }) := by
  unfold relocateDebugEntry
  cases read : DebugEntry.codec.read? output offset with
  | none => exact ⟨nofun, nofun⟩
  | some entry =>
    obtain ⟨inside, -⟩ := Codec.read?_eq_some_iff.1 read
    simp only [store_eq_ok_iff, DebugEntry.codec.length_encode, inside, true_and,
      Option.some.injEq, exists_eq_left']
    exact eq_comm

theorem relocateDebugEntry_frame
    (relocated : relocateDebugEntry source destination output offset = .ok result) :
    result.length = output.length ∧
      ∀ position, ¬(offset + 24 ≤ position ∧ position < offset + 28) →
        result[position]? = output[position]? := by
  obtain ⟨entry, read, rfl⟩ := relocateDebugEntry_eq_ok_iff.1 relocated
  obtain ⟨inside, slice⟩ := Codec.read?_eq_some_iff.1 read
  have length := DebugEntry.codec.length_encode
  have size : DebugEntry.codec.size = 28 := rfl
  refine ⟨Bytes.length_overwrite (length _ ▸ inside), fun position outside => ?_⟩
  rw [Bytes.getElem?_overwrite (length _ ▸ inside), length, size]
  split
  · have lt : position - offset < 24 := by omega
    have position_eq : offset + (position - offset) = position := by omega
    rw [DebugEntry.getElem?_encode_of_lt lt, ← slice, Bytes.getElem?_slice (by omega),
      position_eq]
  · rfl

/-- Relocating entries changes their data pointers and nothing else. -/
theorem relocateDebugEntries_frame {count : Nat}
    (relocated : relocateDebugEntries source destination count offset output = .ok result) :
    result.length = output.length ∧
      ∀ position, (∀ entry < count, ¬(offset + 28 * entry + 24 ≤ position ∧
        position < offset + 28 * entry + 28)) → result[position]? = output[position]? := by
  induction count generalizing offset output with
  | zero =>
    cases relocated
    exact ⟨rfl, fun _ _ => rfl⟩
  | succ count ih =>
    obtain ⟨first, firstDone, others⟩ := bind_eq_ok_iff.1 relocated
    obtain ⟨firstLength, firstFrame⟩ := relocateDebugEntry_frame firstDone
    obtain ⟨length, frame⟩ := ih others
    have size : DebugEntry.codec.size = 28 := rfl
    refine ⟨length.trans firstLength, fun position outside => ?_⟩
    calc result[position]?
        = first[position]? := by
          refine frame position fun entry lt => ?_
          have next := outside (entry + 1) (Nat.succ_lt_succ lt)
          rw [size]
          omega
      _ = output[position]? := by
          refine firstFrame position ?_
          have this := outside 0 (Nat.succ_pos count)
          omega

theorem relocateDebugEntry_pointer
    (relocated : relocateDebugEntry source destination output offset = .ok result) :
    ∃ pointer, Codec.u32.read? output (offset + 24) = some pointer ∧
      Codec.u32.read? result (offset + 24) =
        some (relocateField source destination pointer) := by
  obtain ⟨entry, read, rfl⟩ := relocateDebugEntry_eq_ok_iff.1 relocated
  obtain ⟨inside, -⟩ := Codec.read?_eq_some_iff.1 read
  refine ⟨entry.dataPointer, DebugEntry.read?_dataPointer read, ?_⟩
  exact DebugEntry.read?_dataPointer (Codec.read?_overwrite inside)

/-- The data pointer of every entry is relocated from what it was before all of them. -/
theorem relocateDebugEntries_pointer {count : Nat}
    (relocated : relocateDebugEntries source destination count offset output = .ok result)
    {entry : Nat} (lt : entry < count) :
    ∃ pointer, Codec.u32.read? output (offset + 28 * entry + 24) = some pointer ∧
      Codec.u32.read? result (offset + 28 * entry + 24) =
        some (relocateField source destination pointer) := by
  have size : DebugEntry.codec.size = 28 := rfl
  have wordSize : Codec.u32.size = 4 := rfl
  induction count generalizing offset output entry with
  | zero => exact absurd lt (Nat.not_lt_zero entry)
  | succ count ih =>
    obtain ⟨first, firstDone, others⟩ := bind_eq_ok_iff.1 relocated
    obtain ⟨firstLength, firstFrame⟩ := relocateDebugEntry_frame firstDone
    obtain ⟨length, frame⟩ := relocateDebugEntries_frame others
    cases entry with
    | zero =>
      -- the later entries start behind this one
      obtain ⟨pointer, before, after⟩ := relocateDebugEntry_pointer firstDone
      obtain ⟨inside, -⟩ := Codec.read?_eq_some_iff.1 after
      refine ⟨pointer, before, Codec.read?_congr after (length.symm ▸ inside) ?_⟩
      intro position le below
      refine frame position fun later _ => ?_
      rw [size]
      omega
    | succ entry =>
      -- the first entry ends in front of this one
      obtain ⟨pointer, before, after⟩ := ih others (Nat.lt_of_succ_lt_succ lt)
      have place : offset + DebugEntry.codec.size + 28 * entry + 24 =
          offset + 28 * (entry + 1) + 24 := by
        rw [size]
        omega
      rw [place] at before after
      obtain ⟨inside, -⟩ := Codec.read?_eq_some_iff.1 before
      refine ⟨pointer, Codec.read?_congr before (firstLength ▸ inside) ?_, after⟩
      intro position le below
      exact (firstFrame position (by omega)).symm

/-- The byte at a position belongs to a data pointer of the source's debug
directory that is rewritten in the destination. -/
def RewritesPointerAt (source : Image) (destination : SectionTable) (position : Nat) : Prop :=
  ∃ directory ∈ source.directory? .debug,
    ∃ header ∈ (destination.findDirectory? directory).bind (destination[·]?),
      ∃ entry < directory.size.toNat / DebugEntry.codec.size,
        header.fileOffset directory.virtualAddress.toNat + 28 * entry + 24 ≤ position ∧
          position < header.fileOffset directory.virtualAddress.toNat + 28 * entry + 28

instance (source : Image) (destination : SectionTable) (position : Nat) :
    Decidable (RewritesPointerAt source destination position) :=
  inferInstanceAs (Decidable (∃ directory ∈ source.directory? .debug, _))

/-- A debug directory in no section is left alone. -/
theorem relocateDebugDirectory_of_not_found {source : Image}
    (absent : ∀ directory ∈ source.directory? .debug,
      destination.findDirectory? directory = none) :
    relocateDebugDirectory source destination output = .ok output := by
  unfold relocateDebugDirectory
  cases present : source.directory? .debug with
  | none => rfl
  | some directory => simp only [absent directory present, Option.bind_none]

/-- A debug directory in a section is relocated entry by entry. -/
theorem relocateDebugDirectory_of_found {source : Image} {directory : DataDirectory}
    {header : SectionHeader} (present : source.directory? .debug = some directory)
    (found : (destination.findDirectory? directory).bind (destination[·]?) = some header) :
    relocateDebugDirectory source destination output =
      relocateDebugEntries source.sections destination
        (directory.size.toNat / DebugEntry.codec.size)
        (header.fileOffset directory.virtualAddress.toNat) output := by
  rw [relocateDebugDirectory, present]
  simp only [found]

theorem relocateDebugDirectory_frame {source : Image}
    (relocated : relocateDebugDirectory source destination output = .ok result) :
    result.length = output.length ∧
      ∀ position, ¬RewritesPointerAt source destination position →
        result[position]? = output[position]? := by
  unfold relocateDebugDirectory at relocated
  split at relocated
  · cases relocated
    exact ⟨rfl, fun _ _ => rfl⟩
  · rename_i directory present
    split at relocated
    · cases relocated
      exact ⟨rfl, fun _ _ => rfl⟩
    · rename_i header found
      obtain ⟨length, frame⟩ := relocateDebugEntries_frame relocated
      refine ⟨length, fun position outside => frame position fun entry lt within => ?_⟩
      exact outside ⟨directory, present, header, found, entry, lt, within⟩

end Output

/-! ## The headers -/

namespace WindowsHeader

@[simp] theorem format_withChecksum (windows : WindowsHeader) (checksum : UInt32) :
    (windows.withChecksum checksum).format = windows.format := by
  cases windows <;> rfl

@[simp] theorem format_withHeadersSize (windows : WindowsHeader) (size : UInt32) :
    (windows.withHeadersSize size).format = windows.format := by
  cases windows <;> rfl

theorem length_encode_withChecksum (windows : WindowsHeader) (checksum : UInt32) :
    (windows.withChecksum checksum).encode.length = windows.encode.length :=
  length_encode_congr (windows.format_withChecksum checksum)

@[simp] theorem fileAlignment_withChecksum (windows : WindowsHeader) (checksum : UInt32) :
    (windows.withChecksum checksum).fileAlignment = windows.fileAlignment := by
  cases windows <;> rfl

@[simp] theorem fileAlignment_withHeadersSize (windows : WindowsHeader) (size : UInt32) :
    (windows.withHeadersSize size).fileAlignment = windows.fileAlignment := by
  cases windows <;> rfl

@[simp] theorem directoryCount_withChecksum (windows : WindowsHeader) (checksum : UInt32) :
    (windows.withChecksum checksum).directoryCount = windows.directoryCount := by
  cases windows <;> rfl

@[simp] theorem directoryCount_withHeadersSize (windows : WindowsHeader) (size : UInt32) :
    (windows.withHeadersSize size).directoryCount = windows.directoryCount := by
  cases windows <;> rfl

theorem withChecksum_withChecksum (windows : WindowsHeader) (first second : UInt32) :
    (windows.withChecksum first).withChecksum second = windows.withChecksum second := by
  cases windows <;> rfl

end WindowsHeader

namespace Output

open Image (HeadersInOrder)

variable {source : Image} {headers final : Headers} {output result : Bytes}
  {options : DumpOptions}

/-- The headers that patching stores, up to the checksum. -/
def finalHeaders (source : SectionTable) (headers : Headers) (checksum : UInt32) : Headers :=
  { patchedHeaders source headers with windows := headers.windows.withChecksum checksum }

/-- A section header with its line numbers moved. -/
def patchedSection (source destination : SectionTable) (header : SectionHeader) :
    SectionHeader :=
  { header with
    lineNumbersPointer := relocateField source destination header.lineNumbersPointer }

theorem sections_finalHeaders (source : SectionTable) (headers : Headers) (checksum : UInt32) :
    (finalHeaders source headers checksum).sections =
      headers.sections.map (patchedSection source headers.sections) := rfl

theorem lastRawEnd_map_patchedSection (source destination table : SectionTable) :
    SectionTable.lastRawEnd (table.map (patchedSection source destination)) =
      table.lastRawEnd := by
  have search : (table.map (patchedSection source destination)).reverse.find? (·.hasRawData) =
      (table.reverse.find? (·.hasRawData)).map (patchedSection source destination) := by
    rw [← List.map_reverse, List.find?_map]
    rfl
  rw [SectionTable.lastRawEnd, SectionTable.lastRawEnd, search]
  cases table.reverse.find? (·.hasRawData) with
  | none => rfl
  | some header => rfl

/-- A pair is searched alike if the change of its second part does not matter. -/
theorem find?_zip_map_right {α β : Type} {p : α × β → Bool} {f : β → β} {xs : List α} {ys : List β}
    (same : ∀ pair, p (Prod.map id f pair) = p pair) :
    (xs.zip (ys.map f)).find? p = ((xs.zip ys).find? p).map (Prod.map id f) := by
  have composed : p ∘ Prod.map id f = p := funext same
  rw [List.zip_map_right, List.find?_map, composed]

/-- Patching moves line numbers, which no offset is relocated by. -/
theorem relocate_map_patchedSection (source destination table other : SectionTable)
    (offset : UInt64) :
    relocate other (table.map (patchedSection source destination)) offset =
      relocate other table offset := by
  unfold relocate
  rw [find?_zip_map_right fun _ => rfl, lastRawEnd_map_patchedSection]
  generalize List.find? _ (other.zip table) = pair
  cases pair with
  | none => rfl
  | some pair => rfl

theorem relocateField_finalHeaders (source : SectionTable) (headers : Headers)
    (checksum : UInt32) (other : SectionTable) (field : UInt32) :
    relocateField other (finalHeaders source headers checksum).sections field =
      relocateField other headers.sections field :=
  congrArg UInt64.toUInt32 (relocate_map_patchedSection _ _ _ other field.toUInt64)

/-- Patching moves line numbers, which no table is looked up by. -/
theorem findDirectory?_finalHeaders (table : SectionTable) (headers : Headers)
    (checksum : UInt32) (directory : DataDirectory) :
    ((finalHeaders table headers checksum).sections.findDirectory? directory).bind
        ((finalHeaders table headers checksum).sections[·]?) =
      ((headers.sections.findDirectory? directory).bind (headers.sections[·]?)).map
        (patchedSection table headers.sections) := by
  have lookup : (finalHeaders table headers checksum).sections.findDirectory? directory =
      headers.sections.findDirectory? directory := by
    unfold SectionTable.findDirectory? SectionTable.findContaining?
    rw [sections_finalHeaders, List.findIdx?_map]
    rfl
  rw [lookup]
  cases headers.sections.findDirectory? directory with
  | none => rfl
  | some index => exact List.getElem?_map

theorem rewritesPointerAt_finalHeaders {table : SectionTable} {checksum : UInt32}
    {position : Nat} :
    RewritesPointerAt source (finalHeaders table headers checksum).sections position ↔
      RewritesPointerAt source headers.sections position := by
  unfold RewritesPointerAt
  constructor
  · intro rewrites
    rcases rewrites with ⟨directory, present, header, found, rest⟩
    rw [Option.mem_def, findDirectory?_finalHeaders, Option.map_eq_some_iff] at found
    obtain ⟨before, found, rfl⟩ := found
    exact ⟨directory, present, before, found, rest⟩
  · intro rewrites
    rcases rewrites with ⟨directory, present, header, found, rest⟩
    refine ⟨directory, present, patchedSection table headers.sections header, ?_, rest⟩
    rw [Option.mem_def, findDirectory?_finalHeaders, found]
    rfl

/-- The final headers depend on the last checksum only. -/
theorem finalHeaders_withChecksum (source : SectionTable) (headers : Headers)
    (first second : UInt32) :
    { finalHeaders source headers first with
      windows := (finalHeaders source headers first).windows.withChecksum second } =
      finalHeaders source headers second := by
  have windows := WindowsHeader.withChecksum_withChecksum headers.windows first second
  exact congrArg (fun windows => { patchedHeaders source headers with windows }) windows

theorem samePlaces_finalHeaders (table : SectionTable) (headers : Headers) (checksum : UInt32) :
    headers.SamePlaces (finalHeaders table headers checksum) where
  offsets := rfl
  format := headers.windows.format_withChecksum checksum
  count := List.length_map _

/-- The checksum does not matter for where the headers are stored. -/
theorem samePlaces_finalHeaders_finalHeaders (table : SectionTable) (headers : Headers)
    (first second : UInt32) :
    (finalHeaders table headers first).SamePlaces (finalHeaders table headers second) :=
  (samePlaces_finalHeaders table headers first).symm.trans
    (samePlaces_finalHeaders table headers second)

theorem headersInOrder_finalHeaders {table : SectionTable} (checksum : UInt32)
    (ordered : HeadersInOrder headers) : HeadersInOrder (finalHeaders table headers checksum) :=
  (samePlaces_finalHeaders table headers checksum).headersInOrder ordered

/-- Patching stores the headers without a checksum, and then once more with the checksum of
that output if one is asked for. -/
theorem patch_eq_ok_iff :
    patch output source headers options = .ok (final, result) ↔
      ∃ fixed first, relocateDebugDirectory source headers.sections output = .ok fixed ∧
        storeHeaders fixed (finalHeaders source.sections headers 0) = .ok first ∧
        final = finalHeaders source.sections headers
          (if options.checksum then Checksum.ofImage first else 0) ∧
        if options.checksum then storeHeaders first final = .ok result else first = result := by
  have unsummed : patchedHeaders source.sections headers =
      finalHeaders source.sections headers 0 := rfl
  simp only [patch, bind_eq_ok_iff, unsummed, finalHeaders_withChecksum]
  cases options.checksum with
  | true =>
    simp only [if_true, bind_eq_ok_iff]
    constructor
    · intro ran
      rcases ran with ⟨fixed, debug, first, stored, _, again, ⟨⟩⟩
      exact ⟨fixed, first, debug, stored, rfl, again⟩
    · intro ran
      rcases ran with ⟨fixed, first, debug, stored, rfl, again⟩
      exact ⟨fixed, debug, first, stored, result, again, rfl⟩
  | false =>
    simp only [Bool.false_eq_true, if_false]
    constructor
    · intro ran
      rcases ran with ⟨fixed, debug, first, stored, ⟨⟩⟩
      exact ⟨fixed, _, debug, stored, rfl, rfl⟩
    · intro ran
      rcases ran with ⟨fixed, first, debug, stored, rfl, rfl⟩
      exact ⟨fixed, debug, _, stored, rfl⟩

/-- A patched output holds the relocated debug directory and, over it, the
headers that patching returns. -/
theorem patch_eq_ok (ordered : HeadersInOrder headers)
    (patched : patch output source headers options = .ok (final, result)) :
    ∃ fixed checksum, relocateDebugDirectory source headers.sections output = .ok fixed ∧
      final = finalHeaders source.sections headers checksum ∧ final.Stored fixed result := by
  obtain ⟨fixed, first, debug, firstStored, finalEq, rest⟩ := patch_eq_ok_iff.1 patched
  have firstOrdered : HeadersInOrder (finalHeaders source.sections headers 0) :=
    headersInOrder_finalHeaders 0 ordered
  have stored := Headers.stored_of_storeHeaders firstOrdered firstStored
  refine ⟨fixed, _, debug, finalEq, ?_⟩
  split at rest
  · have finalOrdered : HeadersInOrder final :=
      finalEq ▸ headersInOrder_finalHeaders _ ordered
    have again := Headers.stored_of_storeHeaders finalOrdered rest
    exact stored.trans again (finalEq ▸ samePlaces_finalHeaders_finalHeaders _ _ _ _)
  · rename_i unsummed
    rw [if_neg unsummed] at finalEq
    rw [← rest, finalEq]
    exact stored

theorem length_of_patch (ordered : HeadersInOrder headers)
    (patched : patch output source headers options = .ok (final, result)) :
    result.length = output.length := by
  obtain ⟨fixed, checksum, debug, -, stored⟩ := patch_eq_ok ordered patched
  exact stored.length.trans (relocateDebugDirectory_frame debug).1

end Output
end ImageDump
