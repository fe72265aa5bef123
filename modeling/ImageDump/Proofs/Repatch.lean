import ImageDump.Proofs.Patch

/-!
# Patching once more

A patched output can be patched again, with its own section table on both sides. Every
offset then stays where it is, every total is added up to what it was, and the entries of
the debug directory are found where they were found before. Such a patch never fails, and
its result depends on nothing but what lies outside the headers
(`Output.exists_patch_again`).
-/

namespace ImageDump

attribute [ext] Headers

/-! ## Relocation in place -/

theorem relocate_self (table : SectionTable) (offset : UInt64) :
    relocate table table offset = offset := by
  unfold relocate
  split
  · rename_i zero
    exact zero.symm
  · split
    · rename_i before after found
      -- both tables are searched at the same index
      obtain ⟨index, at_⟩ := List.getElem?_of_mem (List.mem_of_find?_eq_some found)
      obtain ⟨first, second⟩ := List.getElem?_zip_eq_some.1 at_
      cases first.symm.trans second
      exact UInt64.add_sub_cancel _ _
    · exact UInt64.add_sub_cancel _ _

theorem relocateField_self (table : SectionTable) (field : UInt32) :
    relocateField table table field = field := by
  rw [relocateField, relocate_self, UInt32.toUInt32_toUInt64]

namespace Output

variable {source : Image} {headers final : Headers} {table destination : SectionTable}
  {output result data : Bytes} {offset count : Nat} {options : DumpOptions}

theorem patchedSection_self (table : SectionTable) (header : SectionHeader) :
    patchedSection table table header = header := by
  rw [patchedSection, relocateField_self]

theorem contentTotal_map_patchedSection (content : SectionContent) (alignment : Nat)
    (source destination table : SectionTable) :
    contentTotal content alignment (table.map (patchedSection source destination)) =
      contentTotal content alignment table := by
  induction table with
  | nil => rfl
  | cons header rest ih =>
    rw [List.map_cons, contentTotal, contentTotal, ih]
    rfl

/-- Headers that were brought into line with the output stay as they are, up to the
checksum. -/
theorem finalHeaders_finalHeaders (table : SectionTable) (headers : Headers)
    (first second : UInt32) :
    finalHeaders (finalHeaders table headers first).sections (finalHeaders table headers first)
      second = finalHeaders table headers second := by
  generalize same : finalHeaders table headers first = patched
  have sections : patched.sections = headers.sections.map (patchedSection table headers.sections) :=
    same ▸ rfl
  have alignment : patched.windows.fileAlignment = headers.windows.fileAlignment := by
    rw [← same]
    exact WindowsHeader.fileAlignment_withChecksum _ _
  have totals (content : SectionContent) :
      contentTotal content patched.windows.fileAlignment.toNat patched.sections =
        contentTotal content headers.windows.fileAlignment.toNat headers.sections := by
    rw [alignment, sections, contentTotal_map_patchedSection]
  apply Headers.ext
  case coff =>
    change { patched.coff with
      symbolTablePointer := relocateField patched.sections patched.sections
        patched.coff.symbolTablePointer } = _
    rw [relocateField_self, ← same]
    rfl
  case standard =>
    change { patched.standard with
      initializedDataSize := UInt32.ofNat (contentTotal .initialized
        patched.windows.fileAlignment.toNat patched.sections)
      uninitializedDataSize := UInt32.ofNat (contentTotal .uninitialized
        patched.windows.fileAlignment.toNat patched.sections) } = _
    rw [totals, totals, ← same]
    rfl
  case windows =>
    rw [← same]
    exact WindowsHeader.withChecksum_withChecksum _ _ _
  case sections =>
    change patched.sections.map (patchedSection patched.sections patched.sections) = _
    rw [List.map_congr_left fun header _ => patchedSection_self _ header, List.map_id', sections]
    rfl
  case offsets =>
    rw [← same]
    rfl

/-! ## The debug directory once more -/

/-- Relocating an entry in place leaves the output as it is. -/
theorem relocateDebugEntry_self (inside : offset + 28 ≤ output.length) :
    relocateDebugEntry table table output offset = .ok output := by
  have size : DebugEntry.codec.size = 28 := rfl
  have read : DebugEntry.codec.read? output offset =
      some (DebugEntry.codec.decode (output.drop offset)) := if_pos (size ▸ inside)
  obtain ⟨-, slice⟩ := Codec.read?_eq_some_iff.1 read
  refine relocateDebugEntry_eq_ok_iff.2 ⟨_, read, ?_⟩
  rw [relocateField_self, ← slice]
  exact (Bytes.overwrite_slice inside).symm

theorem relocateDebugEntries_self (inside : ∀ entry < count,
    offset + 28 * entry + 28 ≤ output.length) :
    relocateDebugEntries table table count offset output = .ok output := by
  induction count generalizing offset with
  | zero => rfl
  | succ count ih =>
    rw [relocateDebugEntries, relocateDebugEntry_self (inside 0 (Nat.succ_pos count))]
    refine ih fun entry lt => ?_
    have next := inside (entry + 1) (Nat.succ_lt_succ lt)
    have size : DebugEntry.codec.size = 28 := rfl
    omega

/-- Entries that were relocated lie inside the output. -/
theorem inside_of_relocateDebugEntries
    (relocated : relocateDebugEntries table destination count offset output = .ok result) :
    ∀ entry < count, offset + 28 * entry + 28 ≤ output.length := by
  intro entry lt
  obtain ⟨pointer, before, -⟩ := relocateDebugEntries_pointer relocated lt
  obtain ⟨inside, -⟩ := Codec.read?_eq_some_iff.1 before
  have size : Codec.u32.size = 4 := rfl
  omega

/-- A debug directory that was relocated is found again in an output of the same size, and
relocating it in place leaves that output as it is. -/
theorem relocateDebugDirectory_self {other : Image} {checksum : UInt32}
    (relocated : relocateDebugDirectory source headers.sections output = .ok result)
    (directories : other.directories = source.directories)
    (sections : other.sections = (finalHeaders table headers checksum).sections)
    (length : data.length = output.length) :
    relocateDebugDirectory other other.sections data = .ok data := by
  have directory? : other.directory? .debug = source.directory? .debug := by
    rw [Image.directory?, directories]
    rfl
  unfold relocateDebugDirectory at relocated ⊢
  rw [directory?]
  cases present : source.directory? .debug with
  | none => rfl
  | some directory =>
    simp only [present] at relocated ⊢
    rw [sections, findDirectory?_finalHeaders]
    cases found : (headers.sections.findDirectory? directory).bind (headers.sections[·]?) with
    | none => rfl
    | some header =>
      simp only [found] at relocated
      have inside := inside_of_relocateDebugEntries relocated
      exact relocateDebugEntries_self fun entry lt => length ▸ inside entry lt

/-! ## The whole patch once more -/

open Image (HeadersInOrder)

/-- Once the debug directory is relocated, patching does not fail. -/
theorem exists_patch {fixed : Bytes} (ordered : HeadersInOrder headers)
    (debug : relocateDebugDirectory source headers.sections output = .ok fixed)
    (fits : headers.offsets.sectionsEnd ≤ fixed.length) :
    ∃ final result, patch output source headers options = .ok (final, result) := by
  have inOrder (checksum : UInt32) :
      HeadersInOrder (finalHeaders source.sections headers checksum) :=
    headersInOrder_finalHeaders checksum ordered
  obtain ⟨first, firstStored⟩ := Headers.exists_storeHeaders (inOrder 0) fits
  have length := (Headers.stored_of_storeHeaders (inOrder 0) firstStored).length
  obtain ⟨result, rest⟩ : ∃ result, if options.checksum then
      storeHeaders first (finalHeaders source.sections headers
        (if options.checksum then Checksum.ofImage first else 0)) = .ok result
      else first = result := by
    split
    · exact Headers.exists_storeHeaders (inOrder _) (length.symm ▸ fits)
    · exact ⟨first, rfl⟩
  exact ⟨_, result, patch_eq_ok_iff.2 ⟨fixed, first, debug, firstStored, rfl, rest⟩⟩

/-- Patching with the headers of a patched output does not fail. It leaves alone what lies
outside the headers, and it gives that output again if what it is given agrees with it
there. -/
theorem exists_patch_again {other : Image} {again : DumpOptions} (ordered : HeadersInOrder headers)
    (patched : patch output source headers options = .ok (final, result))
    (fits : headers.offsets.sectionsEnd ≤ result.length)
    (directories : other.directories = source.directories)
    (sections : other.sections = final.sections) (length : data.length = result.length)
    (sameChecksum : again.checksum = options.checksum) :
    ∃ last repatched, patch data other final again = .ok (last, repatched) ∧
      (∀ position, ¬Bytes.Covered final.pieces position →
        repatched[position]? = data[position]?) ∧
      ((∀ position, ¬Bytes.Covered final.pieces position →
        data[position]? = result[position]?) → repatched = result) := by
  obtain ⟨fixed, first, debug, firstStored, finalEq, rest⟩ := patch_eq_ok_iff.1 patched
  obtain ⟨fixed', checksum, debug', finalEq', stored⟩ := patch_eq_ok ordered patched
  cases debug.symm.trans debug'
  subst finalEq'
  have inOrder (checksum : UInt32) :
      HeadersInOrder (finalHeaders source.sections headers checksum) :=
    headersInOrder_finalHeaders checksum ordered
  have same (second : UInt32) : finalHeaders other.sections
      (finalHeaders source.sections headers checksum) second =
        finalHeaders source.sections headers second := by
    rw [sections]
    exact finalHeaders_finalHeaders _ _ checksum second
  have debugLength := (relocateDebugDirectory_frame debug).1
  have debugAgain : relocateDebugDirectory other
      (finalHeaders source.sections headers checksum).sections data = .ok data := by
    rw [← sections]
    exact relocateDebugDirectory_self debug directories sections
      (length.trans (stored.length.trans debugLength))
  obtain ⟨last, repatched, repatch⟩ : ∃ last repatched, patch data other
      (finalHeaders source.sections headers checksum) again = .ok (last, repatched) :=
    exists_patch (inOrder checksum) debugAgain (length ▸ fits)
  refine ⟨last, repatched, repatch, fun position outside => ?_, fun agree => ?_⟩
  · obtain ⟨_, second, debugLast, rfl, storedLast⟩ := patch_eq_ok (inOrder checksum) repatch
    cases debugAgain.symm.trans debugLast
    rw [same] at storedLast
    refine storedLast.frame position fun covered => outside ?_
    have same := samePlaces_finalHeaders_finalHeaders source.sections headers second checksum
    exact same.covered_iff.2 covered
  · obtain ⟨_, first', debugLast, firstStored', rfl, rest'⟩ := patch_eq_ok_iff.1 repatch
    cases debugAgain.symm.trans debugLast
    rw [same] at firstStored' rest'
    have frame := Headers.stored_of_storeHeaders (inOrder 0) firstStored
    have frame' := Headers.stored_of_storeHeaders (inOrder 0) firstStored'
    -- both store the same headers without a checksum, and then the same checksum
    have sameFirst : first' = first := by
      refine frame'.eq_of_agree frame fun position outside => ?_
      have outsideFinal : ¬Bytes.Covered (finalHeaders source.sections headers checksum).pieces
          position :=
        fun covered => outside ((samePlaces_finalHeaders_finalHeaders _ _ _ _).covered_iff.2 covered)
      exact (agree position outsideFinal).trans (stored.frame position outsideFinal)
    rw [sameFirst, sameChecksum] at rest'
    rw [finalEq] at rest
    split at rest
    · rename_i summed
      rw [if_pos summed, if_pos summed] at rest'
      exact Except.ok.inj (rest'.symm.trans rest)
    · rename_i plain
      rw [if_neg plain] at rest'
      exact rest'.symm.trans rest

end Output
end ImageDump
