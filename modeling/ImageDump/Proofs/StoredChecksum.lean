import ImageDump.Dump
import ImageDump.Proofs.CopyFrame
import ImageDump.Proofs.Dump

/-!
# The stored checksum verifies

Patching stores the headers with an empty checksum field, sums up that output, and stores
the headers once more with the sum in the field. The two outputs differ in the four bytes
of the field and nowhere else, because the two sets of headers do and nothing is written
in between. Whoever empties the field of a dumped image again therefore has the output
that was summed up (`ofImage_overwrite_dumpImage`).
-/

namespace ImageDump

namespace Bytes

variable {data bytes other : Bytes} {offset : Nat}

/-- Of two writes of one length at one place, only the second counts. -/
theorem overwrite_overwrite (same : bytes.length = other.length)
    (inside : offset + bytes.length ≤ data.length) :
    (data.overwrite offset bytes).overwrite offset other = data.overwrite offset other := by
  have length := length_overwrite inside
  apply List.ext_getElem?
  intro i
  rw [getElem?_overwrite (same ▸ length.symm ▸ inside), getElem?_overwrite inside,
    getElem?_overwrite (same ▸ inside), same]
  split <;> rfl

end Bytes

/-! ## The checksum field -/

namespace WindowsFields

variable {α : Type} (word : Codec α) (fields : WindowsFields α)

/-- The encoded fields in front of the checksum. -/
def front : Bytes :=
  word.encode fields.imageBase ++ Codec.u32.encode fields.sectionAlignment ++
    Codec.u32.encode fields.fileAlignment ++
    (Version.codec Codec.u16).encode fields.operatingSystemVersion ++
    (Version.codec Codec.u16).encode fields.imageVersion ++
    (Version.codec Codec.u16).encode fields.subsystemVersion ++
    Codec.u32.encode fields.win32Version ++ Codec.u32.encode fields.imageSize ++
    Codec.u32.encode fields.headersSize

/-- The encoded fields behind the checksum. -/
def back : Bytes :=
  Codec.u16.encode fields.subsystem ++ Codec.u16.encode fields.dllCharacteristics ++
    word.encode fields.stackReserve ++ word.encode fields.stackCommit ++
    word.encode fields.heapReserve ++ word.encode fields.heapCommit ++
    Codec.u32.encode fields.loaderFlags ++ Codec.u32.encode fields.directoryCount

theorem length_front : (fields.front word).length = word.size + 32 := by
  have version : (Version.codec Codec.u16).size = 4 := rfl
  have size : Codec.u32.size = 4 := rfl
  simp only [front, List.length_append, Codec.length_encode, version, size]

theorem encode_eq : (codec word).encode fields =
    fields.front word ++ Codec.u32.encode fields.checksum ++ fields.back word := by
  simp only [front, back, List.append_assoc]
  rfl

/-- Another checksum is another four bytes. -/
theorem encode_withChecksum (checksum : UInt32) :
    (codec word).encode { fields with checksum } =
      ((codec word).encode fields).overwrite (word.size + 32) (Codec.u32.encode checksum) := by
  have front : ({ fields with checksum } : WindowsFields α).front word = fields.front word := rfl
  have back : ({ fields with checksum } : WindowsFields α).back word = fields.back word := rfl
  have length := fields.length_front word
  have word32 : (Codec.u32.encode fields.checksum).length =
      (Codec.u32.encode checksum).length :=
    (Codec.u32.length_encode _).trans (Codec.u32.length_encode _).symm
  have keptFront : (fields.front word ++ (Codec.u32.encode fields.checksum ++
      fields.back word)).take (word.size + 32) = fields.front word := List.take_left' length
  have keptBack : (fields.front word ++ Codec.u32.encode fields.checksum ++
      fields.back word).drop (word.size + 32 + (Codec.u32.encode checksum).length) =
        fields.back word :=
    List.drop_left' (by rw [List.length_append, length, word32])
  rw [encode_eq, encode_eq, Bytes.overwrite, keptBack, List.append_assoc (fields.front word),
    keptFront, front, back]

end WindowsFields

namespace WindowsHeader

/-- Where the checksum is stored, relative to the fields of the loader. -/
def checksumOffset : WindowsHeader → Nat
  | pe32 _ => 36
  | pe32Plus _ => 40

@[simp] theorem checksumOffset_withChecksum (windows : WindowsHeader) (checksum : UInt32) :
    (windows.withChecksum checksum).checksumOffset = windows.checksumOffset := by
  cases windows <;> rfl

@[simp] theorem checksumOffset_withHeadersSize (windows : WindowsHeader) (size : UInt32) :
    (windows.withHeadersSize size).checksumOffset = windows.checksumOffset := by
  cases windows <;> rfl

theorem encode_withChecksum (windows : WindowsHeader) (checksum : UInt32) :
    (windows.withChecksum checksum).encode =
      windows.encode.overwrite windows.checksumOffset (Codec.u32.encode checksum) := by
  cases windows with
  | pe32 fields => exact fields.encode_withChecksum Codec.u32 checksum
  | pe32Plus fields => exact fields.encode_withChecksum Codec.u64 checksum

/-- The checksum lies inside the fields of the loader. -/
theorem checksumOffset_add_le (windows : WindowsHeader) :
    windows.checksumOffset + 4 ≤ windows.encode.length := by
  cases windows with
  | pe32 fields =>
    rw [encode, Codec.length_encode, WindowsFields.size_codec_u32, checksumOffset]
    decide
  | pe32Plus fields =>
    rw [encode, Codec.length_encode, WindowsFields.size_codec_u64, checksumOffset]
    decide

end WindowsHeader

/-! ## Storing headers again with a checksum -/

namespace Headers

variable {headers : Headers} {before first after : Bytes} {checksum : UInt32}

/-- Where the checksum is stored. -/
def checksumPlace (headers : Headers) : Nat :=
  headers.offsets.windows + headers.windows.checksumOffset

/-- The checksum lies inside an output that holds the headers. -/
theorem Stored.checksumPlace_add_le (stored : headers.Stored before after) :
    headers.checksumPlace + 4 ≤ after.length := by
  have inside := stored.inside _ windows_mem_pieces
  have field := headers.windows.checksumOffset_add_le
  rw [checksumPlace]
  simp only at inside
  omega

/-- Outside the fields of the loader, storing headers once more with another checksum changes
nothing. -/
theorem Stored.getElem?_outside_windows (firstStored : headers.Stored before first)
    (stored : { headers with windows := headers.windows.withChecksum checksum }.Stored
      first after) {position : Nat}
    (outside : ¬(headers.offsets.windows ≤ position ∧
      position < headers.offsets.windows + headers.windows.encode.length)) :
    after[position]? = first[position]? := by
  have sameLength := WindowsHeader.length_encode_withChecksum headers.windows checksum
  by_cases covered : Bytes.Covered
      { headers with windows := headers.windows.withChecksum checksum }.pieces position
  · obtain ⟨piece, mem, le, lt⟩ := covered
    have notWindows : piece ≠
        (headers.offsets.windows, (headers.windows.withChecksum checksum).encode) := by
      intro same
      subst same
      exact outside ⟨le, sameLength ▸ lt⟩
    -- the other pieces are the same as before
    have firstMem : piece ∈ headers.pieces := by
      rcases mem with _ | ⟨_, _ | ⟨_, _ | ⟨_, table⟩⟩⟩
      · exact List.mem_cons_self
      · exact List.mem_cons_of_mem _ List.mem_cons_self
      · exact absurd rfl notWindows
      · exact List.mem_cons_of_mem _ (List.mem_cons_of_mem _ (List.mem_cons_of_mem _ table))
    rw [stored.getElem?_of_mem mem le lt, firstStored.getElem?_of_mem firstMem le lt]
  · exact stored.frame position covered

/-- Storing headers once more with another checksum writes the four bytes of the
checksum. -/
theorem Stored.eq_overwrite (firstStored : headers.Stored before first)
    (stored : { headers with windows := headers.windows.withChecksum checksum }.Stored
      first after) :
    after = first.overwrite headers.checksumPlace (Codec.u32.encode checksum) := by
  have length : (Codec.u32.encode checksum).length = 4 := Codec.u32.length_encode checksum
  have place := firstStored.checksumPlace_add_le
  have field := headers.windows.checksumOffset_add_le
  have encoded := headers.windows.encode_withChecksum checksum
  have sameLength := WindowsHeader.length_encode_withChecksum headers.windows checksum
  unfold checksumPlace at place ⊢
  apply List.ext_getElem?
  intro position
  rw [Bytes.getElem?_overwrite (by omega), length]
  by_cases inWindows : headers.offsets.windows ≤ position ∧
      position < headers.offsets.windows + headers.windows.encode.length
  · -- the field is a part of this piece
    have firstByte := firstStored.getElem?_of_mem windows_mem_pieces inWindows.1 inWindows.2
    have byte : after[position]? =
        (headers.windows.withChecksum checksum).encode[position - headers.offsets.windows]? :=
      stored.getElem?_of_mem windows_mem_pieces inWindows.1 (by rw [sameLength]; exact inWindows.2)
    rw [byte, firstByte, encoded, Bytes.getElem?_overwrite (by omega), length]
    by_cases inField : headers.offsets.windows + headers.windows.checksumOffset ≤ position ∧
        position < headers.offsets.windows + headers.windows.checksumOffset + 4
    · have distance : position - headers.offsets.windows - headers.windows.checksumOffset =
          position - (headers.offsets.windows + headers.windows.checksumOffset) := by omega
      rw [if_pos inField, if_pos (by omega), distance]
    · rw [if_neg inField, if_neg (by omega)]
  · rw [if_neg (by omega)]
    exact firstStored.getElem?_outside_windows stored inWindows

theorem checksumPlace_of_unplaced {first second : Headers}
    (same : first.unplaced = second.unplaced) : first.checksumPlace = second.checksumPlace := by
  have windows := congrArg WindowsHeader.checksumOffset (windows_of_unplaced same)
  rw [WindowsHeader.checksumOffset_withHeadersSize,
    WindowsHeader.checksumOffset_withHeadersSize] at windows
  rw [checksumPlace, checksumPlace, offsets_of_unplaced same, windows]

end Headers

/-! ## The output -/

namespace Output

variable {source : Image} {headers final : Headers} {output result : Bytes}
  {options : DumpOptions}

theorem checksumPlace_finalHeaders (table : SectionTable) (headers : Headers)
    (checksum : UInt32) : (finalHeaders table headers checksum).checksumPlace =
      headers.checksumPlace := by
  have offset := WindowsHeader.checksumOffset_withChecksum headers.windows checksum
  exact congrArg (headers.offsets.windows + ·) offset

/-- A patched output is one whose checksum is zero, with the checksum of that one written
into it. -/
theorem exists_unsummed (ordered : Image.HeadersInOrder headers)
    (patched : patch output source headers options = .ok (final, result)) :
    ∃ unsummed : Bytes, headers.checksumPlace + 4 ≤ unsummed.length ∧
      unsummed = unsummed.overwrite headers.checksumPlace (Codec.u32.encode 0) ∧
      result = unsummed.overwrite headers.checksumPlace (Codec.u32.encode
        (if options.checksum then Checksum.ofImage unsummed else 0)) := by
  obtain ⟨fixed, unsummed, -, unsummedStored, rfl, rest⟩ := patch_eq_ok_iff.1 patched
  have place := checksumPlace_finalHeaders source.sections headers 0
  have stored := Headers.stored_of_storeHeaders (headersInOrder_finalHeaders 0 ordered)
    unsummedStored
  have fits := stored.checksumPlace_add_le
  have written (checksum : UInt32) {after : Bytes}
      (again : (finalHeaders source.sections headers checksum).Stored unsummed after) :
      after = unsummed.overwrite headers.checksumPlace (Codec.u32.encode checksum) := by
    rw [← finalHeaders_withChecksum source.sections headers 0] at again
    exact place ▸ stored.eq_overwrite again
  have zero := written 0 stored.again
  refine ⟨unsummed, place ▸ fits, zero, ?_⟩
  split at rest
  · rename_i summed
    rw [if_pos summed]
    exact written _ (Headers.stored_of_storeHeaders (headersInOrder_finalHeaders _ ordered) rest)
  · rename_i plain
    rw [if_neg plain, ← zero, rest]

end Output

/-- **The stored checksum.** The checksum field of a dumped image holds the checksum of that
image with an empty field if a checksum is asked for, and zero otherwise. -/
theorem ofImage_overwrite_dumpImage {source output : Bytes} {memory : MemoryImage}
    {options : DumpOptions} {image : Image} (parsed : Image.parse source = .ok image)
    (dumped : dumpImage source memory options = .ok output) :
    Codec.u32.read? output image.checksumPlace = some (if options.checksum then
      Checksum.ofImage (output.overwrite image.checksumPlace (Bytes.zeros 4)) else 0) := by
  obtain ⟨_, plan, copied, final, parsed', -, ran, patched⟩ := dumpImage_eq_ok_iff.1 dumped
  cases parsed.symm.trans parsed'
  obtain ⟨-, -, keeps⟩ := CopyJob.keeps_of_run ran
  have ordered := Headers.headersInOrder_of_unplaced keeps.headers
    (Image.headersInOrder_of_parse parsed)
  have place : copied.headers.checksumPlace = image.checksumPlace :=
    Headers.checksumPlace_of_unplaced keeps.headers
  obtain ⟨unsummed, fits, zero, outputEq⟩ := Output.exists_unsummed ordered patched
  rw [place] at fits zero outputEq
  have length (checksum : UInt32) : (Codec.u32.encode checksum).length = 4 :=
    Codec.u32.length_encode checksum
  have emptied : output.overwrite image.checksumPlace (Bytes.zeros 4) = unsummed := by
    rw [outputEq, Bytes.overwrite_overwrite (length _) (by rw [length]; exact fits)]
    exact zero.symm
  rw [emptied, outputEq]
  exact Codec.read?_overwrite fits

/-- Store what a program holds without looking for a named section, with the checksum. -/
def summedOptions : DumpOptions := { dataSection := none, checksum := true }

/-- The dump of `growingMemory` into `wideImage`, with its checksum. -/
def summedDump : Bytes :=
  (dumpImage wideImage growingMemory.toMemoryImage summedOptions).toOption.get
    (by decide +kernel)

theorem dumpImage_summedOptions :
    dumpImage wideImage growingMemory.toMemoryImage summedOptions = .ok summedDump :=
  eq_ok_get _

/-- The checksum stored in a dump is the checksum of that dump without it. -/
theorem ofImage_overwrite_growingMemory :
    Codec.u32.read? summedDump 152 = some 40638 ∧
      Checksum.ofImage (summedDump.overwrite 152 (Bytes.zeros 4)) = 40638 := by
  have place : wideSource.checksumPlace = 152 := by decide +kernel
  have stored : Codec.u32.read? summedDump 152 = some 40638 := by decide +kernel
  have verified := ofImage_overwrite_dumpImage parse_wideImage dumpImage_summedOptions
  rw [place, stored] at verified
  exact ⟨stored, (Option.some.inj verified).symm⟩

end ImageDump
