import ImageDump.Bytes.Codec
import ImageDump.Section.Content

/-!
# Section headers

A section header names a section and places it twice: at a virtual address in
the loaded image, and as raw data at an offset of the file. A section whose raw
data pointer is zero has no raw data in the file. The extent of a section in
memory is the larger of its two sizes, since some linkers leave the virtual
size zero.
-/

namespace ImageDump

/-! ## Names -/

/-- The eight bytes of a section's name, padded with zeros. -/
structure SectionName where
  bytes : Bytes
  length_bytes : bytes.length = 8
deriving DecidableEq, Repr

namespace SectionName

/-- The first eight bytes of a string, padded with zeros if there are fewer. -/
def ofBytes (bytes : Bytes) : SectionName where
  bytes := bytes.resize 8
  length_bytes := bytes.length_resize 8

theorem ofBytes_bytes (name : SectionName) (rest : Bytes) :
    ofBytes (name.bytes ++ rest) = name := by
  obtain ⟨bytes, length⟩ := name
  have front : (bytes ++ rest).take 8 = bytes := List.take_left' length
  have full : 8 - (bytes ++ rest).length = 0 := by
    rw [List.length_append]
    omega
  simp only [ofBytes, Bytes.resize, front, full, Bytes.zeros, List.replicate_zero,
    List.append_nil]

def codec : Codec SectionName where
  size := 8
  encode name := name.bytes
  decode bytes := ofBytes bytes
  length_encode name := name.length_bytes
  decode_encode name rest := ofBytes_bytes name rest
  encode_decode bytes long := by
    have full : 8 - bytes.length = 0 := by omega
    simp only [ofBytes, Bytes.resize, full, Bytes.zeros, List.replicate_zero, List.append_nil]

/-- The name up to the first zero byte, if those bytes are a text. -/
def text? (name : SectionName) : Option String :=
  String.fromUTF8? ⟨(name.bytes.takeWhile (· ≠ 0)).toArray⟩

/-- The name as messages write it: a question mark if it is no text. -/
def display (name : SectionName) : String := name.text?.getD "?"

/-- The name field is exactly this text, padded with zeros. A text that does not
fit into the field is no section's name. -/
def holds (name : SectionName) (text : String) : Bool :=
  let bytes := text.toUTF8.data.toList
  bytes.length ≤ 8 && name == ofBytes bytes

end SectionName

/-! ## Headers -/

/-- An entry of the section table. -/
structure SectionHeader where
  name : SectionName
  virtualSize : UInt32
  /-- Virtual address relative to the load address. -/
  virtualAddress : UInt32
  rawSize : UInt32
  /-- File offset of the raw data, zero if there is none. -/
  rawPointer : UInt32
  relocationsPointer : UInt32
  /-- File offset of the line numbers, zero if there are none. -/
  lineNumbersPointer : UInt32
  relocationCount : UInt16
  lineNumberCount : UInt16
  characteristics : UInt32
deriving DecidableEq, Repr

namespace SectionHeader

/-- The fields in file order, without padding. -/
def codec : Codec SectionHeader :=
  (SectionName.codec.pair <| Codec.u32.pair <| Codec.u32.pair <| Codec.u32.pair <|
    Codec.u32.pair <| Codec.u32.pair <| Codec.u32.pair <| Codec.u16.pair <|
    Codec.u16.pair Codec.u32).iso
    (fun (name, virtualSize, virtualAddress, rawSize, rawPointer, relocationsPointer,
        lineNumbersPointer, relocationCount, lineNumberCount, characteristics) =>
      { name, virtualSize, virtualAddress, rawSize, rawPointer, relocationsPointer,
        lineNumbersPointer, relocationCount, lineNumberCount, characteristics })
    (fun header =>
      (header.name, header.virtualSize, header.virtualAddress, header.rawSize,
        header.rawPointer, header.relocationsPointer, header.lineNumbersPointer,
        header.relocationCount, header.lineNumberCount, header.characteristics))
    (fun _ => rfl) (fun _ => rfl)

theorem size_codec : codec.size = 40 := rfl

/-- The section has raw data in the file. -/
def hasRawData (header : SectionHeader) : Bool := header.rawPointer != 0

theorem hasRawData_eq_false_iff {header : SectionHeader} :
    header.hasRawData = false ↔ header.rawPointer = 0 := by
  rw [hasRawData, bne_eq_false_iff_eq]

theorem hasRawData_eq_true_iff {header : SectionHeader} :
    header.hasRawData = true ↔ 0 < header.rawPointer.toNat := by
  rw [hasRawData, bne_iff_ne, ne_eq, ← UInt32.toNat_inj, UInt32.toNat_zero, Nat.pos_iff_ne_zero]

/-- File offset one past the raw data. -/
def rawEnd (header : SectionHeader) : Nat :=
  header.rawPointer.toNat + header.rawSize.toNat

/-- Number of virtual addresses that belong to the section. -/
def extent (header : SectionHeader) : Nat :=
  max header.virtualSize.toNat header.rawSize.toNat

/-- The relative virtual address belongs to the section. -/
def contains (header : SectionHeader) (rva : Nat) : Bool :=
  header.virtualAddress.toNat ≤ rva && rva < header.virtualAddress.toNat + header.extent

/-- File offset of a relative virtual address of the section. -/
def fileOffset (header : SectionHeader) (rva : Nat) : Nat :=
  header.rawPointer.toNat + (rva - header.virtualAddress.toNat)

def content (header : SectionHeader) : SectionContent :=
  SectionContent.ofCharacteristics header.characteristics

/-- The header once live memory is stored in the section. -/
def markDumped (header : SectionHeader) : SectionHeader :=
  { header with characteristics := header.content.dumped.apply header.characteristics }

end SectionHeader
end ImageDump
