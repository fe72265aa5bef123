import ImageDump.Proofs.Dump
import ImageDump.Proofs.Patch

/-!
# The bytes that patching leaves alone

Patching writes the debug directory entry by entry and the headers as a whole, once or twice,
at offsets that come from the image. The headers go where the source has its own, whatever
the sections, the size of the headers and the symbol table are by then
(`Image.headersWith`). Of each debug entry that they do not reach, the data pointer is
relocated and the other bytes stay (`Output.patch_frame`).
-/

namespace ImageDump

/-- The headers of an image with other sections, another size of the headers and another
symbol table. -/
def Image.headersWith (image : Image) (table : SectionTable)
    (headersSize symbolTablePointer : UInt32) : Headers :=
  { image.toHeaders with
    coff := { image.coff with symbolTablePointer }
    windows := image.windows.withHeadersSize headersSize
    sections := table }

namespace Output

open Image (HeadersInOrder)

variable {source : Bytes} {image : Image} {table : SectionTable}
  {headersSize symbolTablePointer : UInt32} {output result : Bytes} {final : Headers}
  {options : DumpOptions}

theorem samePlaces_headersWith (length : table.length = image.sections.length) :
    image.toHeaders.SamePlaces (image.headersWith table headersSize symbolTablePointer) where
  offsets := rfl
  format := image.windows.format_withHeadersSize headersSize
  count := length

theorem headersInOrder_headersWith (parsed : Image.parse source = .ok image)
    (length : table.length = image.sections.length) :
    HeadersInOrder (image.headersWith table headersSize symbolTablePointer) :=
  (samePlaces_headersWith length).headersInOrder (Image.headersInOrder_of_parse parsed)

/-- The final headers take up the room of the source's. -/
theorem covered_pieces_finalHeaders (length : table.length = image.sections.length)
    {checksum : UInt32} {position : Nat} :
    Bytes.Covered (finalHeaders image.sections
        (image.headersWith table headersSize symbolTablePointer) checksum).pieces position ↔
      image.toHeaders.Holds position := by
  rw [(samePlaces_finalHeaders _ _ checksum).covered_iff, (samePlaces_headersWith length).covered_iff,
    Headers.covered_pieces_iff_holds]

end Output

/-- **The frame of patching.** Patching an output with headers that differ from those of the
source in the sections, in the size of the headers and in the symbol table changes no byte
outside the headers and the data pointers of the debug directory. In each debug entry that
the headers do not reach, the data pointer is relocated and all other bytes stay. -/
theorem Output.patch_frame {source : Bytes} {image : Image} {table : SectionTable}
    {headersSize symbolTablePointer : UInt32} {output result : Bytes} {final : Headers}
    {options : DumpOptions} (parsed : Image.parse source = .ok image)
    (length : table.length = image.sections.length)
    (patched : Output.patch output image
      (image.headersWith table headersSize symbolTablePointer) options = .ok (final, result)) :
    result.length = output.length ∧
      (∀ position, ¬image.toHeaders.Holds position →
        ¬Output.RewritesPointerAt image table position →
        result[position]? = output[position]?) ∧
      ∀ directory ∈ image.directory? .debug,
        ∀ header ∈ (table.findDirectory? directory).bind (table[·]?),
          ∀ entry < directory.size.toNat / DebugEntry.codec.size,
            let place := header.fileOffset directory.virtualAddress.toNat + 28 * entry
            (∀ i < 28, ¬image.toHeaders.Holds (place + i)) →
            (∀ i < 24, result[place + i]? = output[place + i]?) ∧
              ∃ pointer, Codec.u32.read? output (place + 24) = some pointer ∧
                Codec.u32.read? result (place + 24) =
                  some (relocateField image.sections table pointer) := by
  have ordered : Image.HeadersInOrder (image.headersWith table headersSize symbolTablePointer) :=
    Output.headersInOrder_headersWith parsed length
  obtain ⟨fixed, checksum, (debug : Output.relocateDebugDirectory image table output = .ok fixed),
    finalEq, stored⟩ := Output.patch_eq_ok ordered patched
  obtain ⟨fixedLength, debugFrame⟩ := Output.relocateDebugDirectory_frame debug
  have outside (position : Nat) (free : ¬image.toHeaders.Holds position) :
      result[position]? = fixed[position]? := by
    refine stored.frame position ?_
    rw [finalEq, Output.covered_pieces_finalHeaders length]
    exact free
  have frame (position : Nat) (free : ¬image.toHeaders.Holds position)
      (still : ¬Output.RewritesPointerAt image table position) :
      result[position]? = output[position]? :=
    (outside position free).trans (debugFrame position still)
  refine ⟨stored.length.trans fixedLength, frame, ?_⟩
  intro directory present header found entry lt place free
  constructor
  · intro i inFront
    refine frame _ (free i (by omega)) fun rewrites => ?_
    -- the pointers of all entries lie in the last four bytes of twenty-eight
    rcases rewrites with ⟨other, otherPresent, otherHeader, otherFound, k, -, le, below⟩
    cases present.symm.trans otherPresent
    cases found.symm.trans otherFound
    omega
  · rw [Output.relocateDebugDirectory_of_found present found] at debug
    obtain ⟨pointer, before, after⟩ := Output.relocateDebugEntries_pointer debug lt
    refine ⟨pointer, before, ?_⟩
    obtain ⟨inside, -⟩ := Codec.read?_eq_some_iff.1 after
    refine Codec.read?_congr after (stored.length ▸ inside) fun position le below => ?_
    have size : Codec.u32.size = 4 := rfl
    have byte := outside (place + (position - place)) (free _ (by omega))
    rwa [Nat.add_sub_cancel' (by omega)] at byte

/-- The section of `wideImage` once it has grown. -/
def grownSection : SectionHeader := { wideSection with rawSize := 64 }

/-- The headers of `wideImage` for that section, stored in the image itself: the byte in
front of the debug entry stays, and the data pointer of the entry, which lies behind all raw
data, moves by twenty-four bytes. -/
theorem patch_frame_wideImage : ∃ final result,
    Output.patch wideImage wideSource (wideSource.headersWith [grownSection] 288 336)
      { dataSection := none, checksum := true } = .ok (final, result) ∧
    ¬wideSource.toHeaders.Holds 299 ∧
    ¬Output.RewritesPointerAt wideSource [grownSection] 299 ∧
    result[299]? = wideImage[299]? ∧
    Codec.u32.read? wideImage 324 = some 0x11111111 ∧
    Codec.u32.read? result 324 = some 0x11111129 := by
  obtain ⟨⟨final, result⟩, patched⟩ : ∃ stored,
      Output.patch wideImage wideSource (wideSource.headersWith [grownSection] 288 336)
        { dataSection := none, checksum := true } = .ok stored :=
    ⟨_, eq_ok_get (by decide +kernel)⟩
  have free : ¬wideSource.toHeaders.Holds 299 := by decide +kernel
  have still : ¬Output.RewritesPointerAt wideSource [grownSection] 299 := by decide +kernel
  obtain ⟨-, frame, entries⟩ :=
    Output.patch_frame parse_wideImage (by decide +kernel) patched
  obtain ⟨-, pointer, before, after⟩ := entries { virtualAddress := 0x100c, size := 28 }
    (by decide +kernel) grownSection (by decide +kernel) 0 (by decide) (by decide +kernel)
  have place : grownSection.fileOffset (0x100c : UInt32).toNat + 28 * 0 + 24 = 324 := by decide
  rw [place] at before after
  have stored : Codec.u32.read? wideImage 324 = some 0x11111111 := by decide +kernel
  cases before.symm.trans stored
  have moved : relocateField wideSource.sections [grownSection] 0x11111111 = 0x11111129 := by
    decide +kernel
  rw [moved] at after
  exact ⟨final, result, patched, free, still, frame 299 free still, stored, after⟩

end ImageDump
