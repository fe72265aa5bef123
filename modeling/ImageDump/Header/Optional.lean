import ImageDump.Bytes.Codec

/-!
# The optional header

The optional header of an image starts with the standard fields, which every
image has, and continues with the fields the loader reads. The latter come in
two widths: four-byte addresses in a PE32 image, eight-byte addresses in a
PE32+ image. `WindowsFields` is one record over the width of an address, and
`WindowsHeader` is either form.
-/

namespace ImageDump

/-- A major and a minor version number of the same width. -/
structure Version (α : Type) where
  major : α
  minor : α
deriving DecidableEq, Repr

def Version.codec {α : Type} (word : Codec α) : Codec (Version α) :=
  (word.pair word).iso (fun (major, minor) => { major, minor })
    (fun version => (version.major, version.minor)) (fun _ => rfl) (fun _ => rfl)

/-! ## Standard fields -/

/-- The standard fields, up to the base of the code. -/
structure StandardFields where
  /-- Tells a PE32 image from a PE32+ image. -/
  magic : UInt16
  linkerVersion : Version UInt8
  codeSize : UInt32
  /-- Total size of the sections that hold initialized data. -/
  initializedDataSize : UInt32
  /-- Total size of the sections that hold uninitialized data. -/
  uninitializedDataSize : UInt32
  entryPoint : UInt32
  codeBase : UInt32
deriving DecidableEq, Repr

/-- The fields in file order, without padding. -/
def StandardFields.codec : Codec StandardFields :=
  (Codec.u16.pair <| (Version.codec Codec.u8).pair <| Codec.u32.pair <| Codec.u32.pair <|
    Codec.u32.pair <| Codec.u32.pair Codec.u32).iso
    (fun (magic, linkerVersion, codeSize, initializedDataSize, uninitializedDataSize,
        entryPoint, codeBase) =>
      { magic, linkerVersion, codeSize, initializedDataSize, uninitializedDataSize,
        entryPoint, codeBase })
    (fun fields =>
      (fields.magic, fields.linkerVersion, fields.codeSize, fields.initializedDataSize,
        fields.uninitializedDataSize, fields.entryPoint, fields.codeBase))
    (fun _ => rfl) (fun _ => rfl)

theorem StandardFields.size_codec : StandardFields.codec.size = 24 := rfl

/-! ## Fields of the loader -/

/-- The fields the loader reads, with addresses of type `α`. -/
structure WindowsFields (α : Type) where
  /-- Preferred load address. -/
  imageBase : α
  sectionAlignment : UInt32
  fileAlignment : UInt32
  operatingSystemVersion : Version UInt16
  imageVersion : Version UInt16
  subsystemVersion : Version UInt16
  win32Version : UInt32
  imageSize : UInt32
  /-- Size of everything before the first section, rounded up to the file
  alignment. -/
  headersSize : UInt32
  checksum : UInt32
  subsystem : UInt16
  dllCharacteristics : UInt16
  stackReserve : α
  stackCommit : α
  heapReserve : α
  heapCommit : α
  loaderFlags : UInt32
  /-- Number of data directories that follow. -/
  directoryCount : UInt32
deriving DecidableEq, Repr

/-- The fields in file order, without padding. -/
def WindowsFields.codec {α : Type} (word : Codec α) : Codec (WindowsFields α) :=
  (word.pair <| Codec.u32.pair <| Codec.u32.pair <|
    (Version.codec Codec.u16).pair <| (Version.codec Codec.u16).pair <|
    (Version.codec Codec.u16).pair <| Codec.u32.pair <| Codec.u32.pair <|
    Codec.u32.pair <| Codec.u32.pair <| Codec.u16.pair <| Codec.u16.pair <|
    word.pair <| word.pair <| word.pair <| word.pair <| Codec.u32.pair Codec.u32).iso
    (fun (imageBase, sectionAlignment, fileAlignment, operatingSystemVersion, imageVersion,
        subsystemVersion, win32Version, imageSize, headersSize, checksum, subsystem,
        dllCharacteristics, stackReserve, stackCommit, heapReserve, heapCommit,
        loaderFlags, directoryCount) =>
      { imageBase, sectionAlignment, fileAlignment, operatingSystemVersion, imageVersion,
        subsystemVersion, win32Version, imageSize, headersSize, checksum, subsystem,
        dllCharacteristics, stackReserve, stackCommit, heapReserve, heapCommit,
        loaderFlags, directoryCount })
    (fun fields =>
      (fields.imageBase, fields.sectionAlignment, fields.fileAlignment,
        fields.operatingSystemVersion, fields.imageVersion, fields.subsystemVersion,
        fields.win32Version, fields.imageSize, fields.headersSize, fields.checksum,
        fields.subsystem, fields.dllCharacteristics, fields.stackReserve,
        fields.stackCommit, fields.heapReserve, fields.heapCommit, fields.loaderFlags,
        fields.directoryCount))
    (fun _ => rfl) (fun _ => rfl)

theorem WindowsFields.size_codec_u32 : (WindowsFields.codec Codec.u32).size = 68 := rfl

theorem WindowsFields.size_codec_u64 : (WindowsFields.codec Codec.u64).size = 88 := rfl

/-- The fields the loader reads, in the width of the image. -/
inductive WindowsHeader where
  | pe32 (fields : WindowsFields UInt32)
  | pe32Plus (fields : WindowsFields UInt64)
deriving DecidableEq, Repr

namespace WindowsHeader

def encode : WindowsHeader → Bytes
  | pe32 fields => (WindowsFields.codec Codec.u32).encode fields
  | pe32Plus fields => (WindowsFields.codec Codec.u64).encode fields

/-- The preferred load address. -/
def imageBase : WindowsHeader → UInt64
  | pe32 fields => fields.imageBase.toUInt64
  | pe32Plus fields => fields.imageBase

def fileAlignment : WindowsHeader → UInt32
  | pe32 fields => fields.fileAlignment
  | pe32Plus fields => fields.fileAlignment

def headersSize : WindowsHeader → UInt32
  | pe32 fields => fields.headersSize
  | pe32Plus fields => fields.headersSize

def checksum : WindowsHeader → UInt32
  | pe32 fields => fields.checksum
  | pe32Plus fields => fields.checksum

def directoryCount : WindowsHeader → UInt32
  | pe32 fields => fields.directoryCount
  | pe32Plus fields => fields.directoryCount

def withHeadersSize (size : UInt32) : WindowsHeader → WindowsHeader
  | pe32 fields => pe32 { fields with headersSize := size }
  | pe32Plus fields => pe32Plus { fields with headersSize := size }

def withChecksum (checksum : UInt32) : WindowsHeader → WindowsHeader
  | pe32 fields => pe32 { fields with checksum }
  | pe32Plus fields => pe32Plus { fields with checksum }

end WindowsHeader
end ImageDump
