import ImageDump.Proofs.Destination
import ImageDump.Proofs.Patch

/-!
# Headers that are stored and read again

Reading headers back and finding their pieces in the data are the same thing
(`Headers.readsBack_iff`). So headers that are stored can be read, and headers that were read
can be stored where they stand without a change. Which values they hold does not matter: with
the offsets, the format and the number of sections of a parsed image, headers take up the
places of its own (`Headers.SamePlaces`), and those do not overlap.
-/

namespace ImageDump

/-! ## Storing what is there -/

namespace Bytes

variable {data : Bytes}

/-- Writing a piece that stands in the data changes nothing. -/
theorem Stands.overwrite {piece : Nat × Bytes} (stands : data.Stands piece) :
    data.overwrite piece.1 piece.2 = data := by
  obtain ⟨inside, slice⟩ := stands
  have written := overwrite_slice inside
  rwa [slice] at written

theorem overwriteAll_of_stands {pieces : List (Nat × Bytes)}
    (stand : ∀ piece ∈ pieces, data.Stands piece) : data.overwriteAll pieces = data := by
  induction pieces with
  | nil => rfl
  | cons first rest ih =>
    obtain ⟨firstStands, restStand⟩ := List.forall_mem_cons.1 stand
    calc data.overwriteAll (first :: rest)
        = (data.overwrite first.1 first.2).overwriteAll rest := rfl
      _ = data.overwriteAll rest := by rw [firstStands.overwrite]
      _ = data := ih restStand

end Bytes

/-- Storing headers where they are read from changes nothing. -/
theorem Headers.ReadsBack.storeHeaders {headers : Headers} {data : Bytes}
    (read : headers.ReadsBack data) :
    Output.storeHeaders data headers = .ok data := by
  have stand := Headers.readsBack_iff.1 read
  exact Output.storeAll_eq_ok_iff.2
    ⟨fun piece mem => (stand piece mem).1, (Bytes.overwriteAll_of_stands stand).symm⟩

/-- The headers of an image are read from its data. -/
theorem Image.ReadsAs.readsBack {data : Bytes} {image : Image} {signatureOffset : UInt32}
    {format : Image.OptionalFormat} (reads : Image.ReadsAs data image signatureOffset format) :
    image.toHeaders.ReadsBack data where
  coff := Image.readRecord_eq_ok_iff.2 reads.coffAt
  standard := Image.readRecord_eq_ok_iff.2 reads.standardAt
  windows := by
    obtain ⟨same, -⟩ := Image.OptionalFormat.readWindows_eq_ok_iff_slice.1 reads.windowsAt
    rw [same]
    exact reads.windowsAt
  sections := by
    rw [reads.length_sections]
    exact reads.sectionsAt

namespace Headers

open Image (HeadersInOrder)

variable {first second : Headers} {before after : Bytes}

/-- Of headers that are stored one after the other in the same places, only the second
remain. -/
theorem SamePlaces.storeHeaders_storeHeaders (same : first.SamePlaces second)
    (ordered : HeadersInOrder first) (fits : first.offsets.sectionsEnd ≤ before.length)
    (stored : Output.storeHeaders before second = .ok after) :
    (Output.storeHeaders before first >>= fun middle => Output.storeHeaders middle second) =
      .ok after := by
  have secondOrdered := same.headersInOrder ordered
  obtain ⟨middle, firstStored⟩ := exists_storeHeaders ordered fits
  have firstLeft := stored_of_storeHeaders ordered firstStored
  have secondFits : second.offsets.sectionsEnd ≤ middle.length := by
    rw [same.offsets, firstLeft.length]
    exact fits
  obtain ⟨last, secondStored⟩ := exists_storeHeaders secondOrdered secondFits
  have twice := firstLeft.trans (stored_of_storeHeaders secondOrdered secondStored) same
  have once := stored_of_storeHeaders secondOrdered stored
  have sameOutput : last = after := twice.eq_of_agree once fun _ _ => rfl
  exact bind_eq_ok_iff.2 ⟨middle, firstStored, sameOutput ▸ secondStored⟩

end Headers

/-- **Storing and reading headers.** Headers with the offsets, the format and the number of
sections of a parsed image, whatever else they hold, are stored in any output that reaches to
the end of the section table. Each of them is read back at its offset, nothing outside them
changes, and nothing of other such headers that were stored before remains. Storing the
headers of the image in its own data changes nothing. -/
theorem storeHeaders_readsBack {source : Bytes} {image : Image}
    (parsed : Image.parse source = .ok image) :
    (∀ (headers : Headers) (buffer : Bytes), image.toHeaders.SamePlaces headers →
      image.offsets.sectionsEnd ≤ buffer.length →
      ∃ after, Output.storeHeaders buffer headers = .ok after ∧ headers.ReadsBack after ∧
        after.length = buffer.length ∧
        (∀ position, ¬headers.Holds position → after[position]? = buffer[position]?) ∧
        ∀ other, image.toHeaders.SamePlaces other →
          (Output.storeHeaders buffer other >>= fun middle =>
            Output.storeHeaders middle headers) = .ok after) ∧
    Output.storeHeaders source image.toHeaders = .ok source := by
  have imageOrdered := Image.headersInOrder_of_parse parsed
  constructor
  · intro headers buffer same fits
    have ordered := same.headersInOrder imageOrdered
    obtain ⟨after, stored⟩ := Headers.exists_storeHeaders ordered (same.offsets ▸ fits)
    have left := Headers.stored_of_storeHeaders ordered stored
    refine ⟨after, stored, left.readsBack, left.length, ?_, ?_⟩
    · intro position outside
      exact left.frame position fun covered => outside (Headers.covered_pieces_iff_holds.1 covered)
    · intro other otherSame
      exact (otherSame.symm.trans same).storeHeaders_storeHeaders
        (otherSame.headersInOrder imageOrdered) (otherSame.offsets ▸ fits) stored
  · obtain ⟨⟨_, _, reads⟩, -⟩ := Image.parse_eq_ok_iff.1 parsed
    exact reads.readsBack.storeHeaders

/-- Headers in the places of the given ones. The count of the sections and the magic are not
those of any image that has them there. -/
def Headers.strange (headers : Headers) : Headers :=
  { headers with
    coff := { headers.coff with sectionCount := 0xffff }
    standard := { headers.standard with magic := 0xbeef }
    windows := headers.windows.withChecksum 0x12345678
    sections := headers.sections.map fun header => { header with virtualAddress := 0x55 } }

theorem Headers.samePlaces_strange (headers : Headers) : headers.SamePlaces headers.strange where
  offsets := rfl
  format := headers.windows.format_withChecksum _
  count := List.length_map _

/-- Strange headers in an output of one byte more than they need, alone and after the headers
of `wideImage`; the base of the data lies between two of them and is left alone. -/
theorem storeHeaders_strange :
    wideSource.toHeaders.SamePlaces wideSource.toHeaders.strange ∧
      (∃ after, Output.storeHeaders (List.replicate 281 0xee) wideSource.toHeaders.strange =
          .ok after ∧
        wideSource.toHeaders.strange.ReadsBack after ∧ after[112]? = some 0xee ∧
        (Output.storeHeaders (List.replicate 281 0xee) wideSource.toHeaders >>= fun middle =>
          Output.storeHeaders middle wideSource.toHeaders.strange) = .ok after) ∧
      Output.storeHeaders wideImage wideSource.toHeaders = .ok wideImage := by
  obtain ⟨anyOutput, itself⟩ := storeHeaders_readsBack parse_wideImage
  have same := wideSource.toHeaders.samePlaces_strange
  have outside : ¬wideSource.toHeaders.strange.Holds 112 := by decide +kernel
  obtain ⟨after, stored, read, -, frame, again⟩ :=
    anyOutput _ (List.replicate 281 0xee) same (by decide +kernel)
  have kept : after[112]? = some 0xee :=
    (frame 112 outside).trans (List.getElem?_replicate_of_lt (by decide))
  exact ⟨same, ⟨after, stored, read, kept, again _ (.refl _)⟩, itself⟩

end ImageDump
