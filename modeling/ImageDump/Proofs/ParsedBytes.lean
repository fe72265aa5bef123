import ImageDump.Proofs.Destination

/-!
# The bytes that an image is read from

Each record of an image stands where the records before it say, and all of them end at
`Image.readEnd` or in front of it: the header at the start of the file, the data directories
and the section table. The check of the section table looks at the length of the file
besides, and accepts a longer one as well. So whatever keeps the bytes below `Image.readEnd`
and the length is read as the same image (`parse_of_agreesBelow`).
-/

namespace ImageDump

/-! ## Strings that agree below a bound -/

namespace Bytes

/-- The second string is at least as long as the first and has the same bytes below the
bound. -/
structure AgreesBelow (bound : Nat) (data other : Bytes) : Prop where
  length : data.length ≤ other.length
  bytes : ∀ position < bound, position < data.length → other[position]? = data[position]?

variable {bound offset size : Nat} {data other bytes : Bytes}

theorem agreesBelow_append (bound : Nat) (data suffix : Bytes) :
    AgreesBelow bound data (data ++ suffix) where
  length := by simp
  bytes _ _ inside := List.getElem?_append_left inside

theorem agreesBelow_overwrite (behind : bound ≤ offset)
    (inside : offset + bytes.length ≤ data.length) :
    AgreesBelow bound data (data.overwrite offset bytes) where
  length := Nat.le_of_eq (length_overwrite inside).symm
  bytes _ below _ := by rw [getElem?_overwrite inside, if_neg (by omega)]

theorem agreesBelow_of_take (length : data.length ≤ other.length)
    (front : other.take bound = data.take bound) : AgreesBelow bound data other where
  length := length
  bytes position below _ := by
    rw [← List.getElem?_take_of_lt below, front, List.getElem?_take_of_lt below]

theorem AgreesBelow.slice_eq (agrees : AgreesBelow bound data other)
    (inside : offset + size ≤ data.length) (below : offset + size ≤ bound) :
    slice other offset size = slice data offset size :=
  slice_congr fun i lt => agrees.bytes (offset + i) (by omega) (by omega)

end Bytes

open Bytes (AgreesBelow)

variable {bound offset : Nat} {data other : Bytes}

theorem Codec.read?_of_agreesBelow {α : Type} {codec : Codec α} {value : α}
    (agrees : AgreesBelow bound data other) (read : codec.read? data offset = some value)
    (below : offset + codec.size ≤ bound) : codec.read? other offset = some value := by
  obtain ⟨inside, stored⟩ := Codec.read?_eq_some_iff.1 read
  refine Codec.read?_eq_some_iff.2 ⟨Nat.le_trans inside agrees.length, ?_⟩
  rw [agrees.slice_eq inside below, stored]

namespace Image

theorem readTable_of_agreesBelow {α : Type} {kind : RecordKind} {codec : Codec α} {count : Nat}
    {values : List α} (agrees : AgreesBelow bound data other)
    (read : readTable kind codec data offset count = .ok values)
    (below : offset + codec.size * values.length ≤ bound) :
    readTable kind codec other offset count = .ok values := by
  obtain ⟨length, records⟩ := readTable_eq_ok_iff.1 read
  refine readTable_eq_ok_iff.2 ⟨length, fun index value entry => ?_⟩
  have inRange : index < values.length := (List.getElem?_eq_some_iff.1 entry).1
  have next : codec.size * (index + 1) ≤ codec.size * values.length :=
    Nat.mul_le_mul_left _ inRange
  rw [Nat.mul_add, Nat.mul_one] at next
  exact Codec.read?_of_agreesBelow agrees (records index value entry) (by omega)

theorem OptionalFormat.readWindows_of_agreesBelow {format : OptionalFormat}
    {windows : WindowsHeader} (agrees : AgreesBelow bound data other)
    (read : format.readWindows data offset = .ok windows)
    (below : offset + windows.encode.length ≤ bound) :
    format.readWindows other offset = .ok windows := by
  obtain ⟨same, inside, stored⟩ := readWindows_eq_ok_iff_slice.1 read
  refine readWindows_eq_ok_iff_slice.2 ⟨same, Nat.le_trans inside agrees.length, ?_⟩
  rw [agrees.slice_eq inside below, stored]

/-! ## Where reading ends -/

/-- Where the records end that an image is read from. -/
def readEnd (image : Image) : Nat :=
  max 0x40 <| max image.offsets.sectionsEnd <|
    image.offsets.directories + DataDirectory.codec.size * image.directories.length

section Bounds

variable (image : Image)

theorem le_readEnd : 0x40 ≤ image.readEnd := Nat.le_max_left _ _

theorem sectionsEnd_le_readEnd : image.offsets.sectionsEnd ≤ image.readEnd :=
  Nat.le_trans (Nat.le_max_left _ _) (Nat.le_max_right _ _)

theorem directoriesEnd_le_readEnd :
    image.offsets.directories + DataDirectory.codec.size * image.directories.length ≤
      image.readEnd :=
  Nat.le_trans (Nat.le_max_right _ _) (Nat.le_max_right _ _)

end Bounds

/-- A string that agrees with the data of an image below the end of its records holds the
same records. -/
theorem ReadsAs.of_agreesBelow {image : Image} {signatureOffset : UInt32}
    {format : OptionalFormat} (reads : ReadsAs data image signatureOffset format)
    (agrees : AgreesBelow image.readEnd data other) :
    ReadsAs other { image with data := other } signatureOffset format := by
  have front := image.le_readEnd
  have tableEnd := image.sectionsEnd_le_readEnd
  have ordered := reads.headersInOrder
  have standard := ordered.standard
  have windows := ordered.windows
  have directories := ordered.directories
  have sections := ordered.sections
  have sectionsEnd := ordered.sectionsEnd
  have signatureEnd : signatureOffset.toNat + Codec.u32.size = image.offsets.coff := by
    rw [reads.offsets_eq]
    rfl
  -- one record follows the other up to the end of the section table
  have windowsEnd : image.offsets.windows + image.windows.encode.length ≤ image.readEnd := by omega
  have standardEnd : image.offsets.standard + StandardFields.codec.size ≤ image.readEnd := by omega
  have coffEnd : image.offsets.coff + CoffHeader.codec.size ≤ image.readEnd := by omega
  constructor
  case data_eq => rfl
  case offsets_eq => exact reads.offsets_eq
  case magicAt =>
    exact Codec.read?_of_agreesBelow agrees reads.magicAt (Nat.le_trans (by decide) front)
  case pointerAt =>
    exact Codec.read?_of_agreesBelow agrees reads.pointerAt (Nat.le_trans (by decide) front)
  case signatureAt => exact Codec.read?_of_agreesBelow agrees reads.signatureAt (by omega)
  case coffAt => exact Codec.read?_of_agreesBelow agrees reads.coffAt coffEnd
  case minimum => exact reads.minimum
  case standardAt => exact Codec.read?_of_agreesBelow agrees reads.standardAt standardEnd
  case formatAt => exact reads.formatAt
  case windowsAt =>
    exact OptionalFormat.readWindows_of_agreesBelow agrees reads.windowsAt windowsEnd
  case alignment => exact reads.alignment
  case directoriesAt =>
    exact readTable_of_agreesBelow agrees reads.directoriesAt image.directoriesEnd_le_readEnd
  case sectionsAt =>
    exact readTable_of_agreesBelow agrees reads.sectionsAt (sectionsEnd ▸ tableEnd)

/-- What fits into a file fits into a longer one. -/
theorem checkFileOrder_of_le {length longer previousEnd : Nat} {table : SectionTable}
    (le : length ≤ longer) (accepted : checkFileOrder length previousEnd table = .ok ()) :
    checkFileOrder longer previousEnd table = .ok () := by
  obtain ⟨bounds, ordered⟩ := checkFileOrder_eq_ok_iff.1 accepted
  refine checkFileOrder_eq_ok_iff.2 ⟨fun header mem raw => ?_, ordered⟩
  obtain ⟨behind, inside⟩ := bounds header mem raw
  exact ⟨behind, Nat.le_trans inside le⟩

end Image

/-- **The bytes that are read.** A string that is at least as long as an image and has its
bytes below `Image.readEnd` is read as the same headers, at the same offsets, and the same data
directories. That is so after bytes are appended, and after any bytes behind `Image.readEnd`
are written over, be they raw data of a section, space between the headers and the sections,
or what follows the sections. -/
theorem parse_of_agreesBelow {data : Bytes} {image : Image}
    (parsed : Image.parse data = .ok image) :
    (∀ other, Bytes.AgreesBelow image.readEnd data other →
      Image.parse other = .ok { image with data := other }) ∧
    (∀ suffix : Bytes,
      Image.parse (data ++ suffix) = .ok { image with data := data ++ suffix }) ∧
    ∀ (offset : Nat) (bytes : Bytes), image.readEnd ≤ offset →
      offset + bytes.length ≤ data.length →
      Image.parse (data.overwrite offset bytes) =
        .ok { image with data := data.overwrite offset bytes } := by
  obtain ⟨⟨signatureOffset, format, reads⟩, accepted⟩ := Image.parse_eq_ok_iff.1 parsed
  have again (other : Bytes) (agrees : AgreesBelow image.readEnd data other) :
      Image.parse other = .ok { image with data := other } :=
    Image.parse_eq_ok_iff.2 ⟨⟨signatureOffset, format, reads.of_agreesBelow agrees⟩,
      Image.checkFileOrder_of_le agrees.length accepted⟩
  refine ⟨again, ?_, ?_⟩
  · intro suffix
    exact again _ (Bytes.agreesBelow_append _ data suffix)
  · intro offset bytes behind inside
    exact again _ (Bytes.agreesBelow_overwrite behind inside)

/-- `wideImage` with other raw data in its section, other bytes in front of it and behind it,
and three bytes more. -/
def repaintedImage : Bytes :=
  wideImage.take 280 ++ List.replicate (wideImage.length - 277) 0xee

/-- `repaintedImage` is read as `wideImage` is. -/
theorem parse_repaintedImage :
    wideSource.readEnd = 280 ∧ wideImage.length + 3 = repaintedImage.length ∧
      Image.parse repaintedImage = .ok { wideSource with data := repaintedImage } ∧
      Image.parse (wideImage ++ [0xee]) = .ok { wideSource with data := wideImage ++ [0xee] } ∧
      Image.parse (wideImage.overwrite 288 [0xee]) =
        .ok { wideSource with data := wideImage.overwrite 288 [0xee] } := by
  obtain ⟨agreeing, appended, overwritten⟩ := parse_of_agreesBelow parse_wideImage
  have ends : wideSource.readEnd = 280 := by decide +kernel
  have repainted : Bytes.AgreesBelow wideSource.readEnd wideImage repaintedImage := by
    rw [ends]
    exact Bytes.agreesBelow_of_take (by decide +kernel) (by decide +kernel)
  refine ⟨ends, by decide +kernel, agreeing _ repainted, appended _, ?_⟩
  exact overwritten 288 _ (by rw [ends]; decide) (by decide +kernel)

end ImageDump
