import ImageDump.Checksum
import ImageDump.Image
import ImageDump.Output.Copy
import ImageDump.Relocation

/-!
# Patching the headers of a copied image

Once every section has its place in the output, the headers are brought into
line with it: the totals of initialized and uninitialized data are summed up
anew, the file offsets in the headers and in the debug directory are relocated,
and the checksum is stored last, over an output whose checksum field is zero.
-/

namespace ImageDump.Output

/-! ## The debug directory -/

/-- Relocate the data pointer of the debug directory entry at an offset. -/
def relocateDebugEntry (source destination : SectionTable) (output : Bytes)
    (offset : Nat) : Except Interrupted Bytes :=
  match DebugEntry.codec.read? output offset with
  | none => .error {
      error := .outputOverflow offset DebugEntry.codec.size output.length
      output }
  | some entry =>
    let dataPointer := relocateField source destination entry.dataPointer
    store output offset (DebugEntry.codec.encode { entry with dataPointer })

/-- Relocate the data pointers of `count` entries from an offset on. -/
def relocateDebugEntries (source destination : SectionTable) :
    Nat → Nat → Bytes → Except Interrupted Bytes
  | 0, _, output => .ok output
  | count + 1, offset, output => do
    let output ← relocateDebugEntry source destination output offset
    relocateDebugEntries source destination count (offset + DebugEntry.codec.size) output

/-- Relocate the data pointers of all entries of the source's debug directory.
It is found in the output by its virtual address; a directory in no section is
left alone. -/
def relocateDebugDirectory (source : Image) (destination : SectionTable)
    (output : Bytes) : Except Interrupted Bytes :=
  match source.directory? .debug with
  | none => .ok output
  | some directory =>
    match (destination.findDirectory? directory).bind (destination[·]?) with
    | none => .ok output
    | some header =>
      relocateDebugEntries source.sections destination
        (directory.size.toNat / DebugEntry.codec.size)
        (header.fileOffset directory.virtualAddress.toNat) output

/-! ## The headers -/

/-- Total virtual size of the sections with this content, each rounded up to the
file alignment. -/
def contentTotal (content : SectionContent) (fileAlignment : Nat) : SectionTable → Nat
  | [] => 0
  | header :: rest =>
    let others := contentTotal content fileAlignment rest
    if header.content = content then alignUp header.virtualSize.toNat fileAlignment + others
    else others

/-- The destination headers with totals and file offsets that fit the
destination, and without a checksum. -/
def patchedHeaders (source : SectionTable) (headers : Headers) : Headers :=
  let destination := headers.sections
  let fileAlignment := headers.fileAlignment.toNat
  let total (content : SectionContent) : UInt32 :=
    UInt32.ofNat (contentTotal content fileAlignment destination)
  let move := relocateField source destination
  { headers with
    coff := { headers.coff with
      symbolTablePointer := move headers.coff.symbolTablePointer }
    standard := { headers.standard with
      initializedDataSize := total .initialized
      uninitializedDataSize := total .uninitialized }
    windows := headers.windows.withChecksum 0
    sections := destination.map fun header =>
      { header with lineNumbersPointer := move header.lineNumbersPointer } }

/-- Patch the destination headers and store them in the output, which holds the
copied image at its final size. -/
def patch (output : Bytes) (source : Image) (headers : Headers) (options : DumpOptions) :
    Except Interrupted (Headers × Bytes) := do
  let output ← relocateDebugDirectory source headers.sections output
  let headers := patchedHeaders source.sections headers
  let output ← storeHeaders output headers
  if options.checksum then
    let windows := headers.windows.withChecksum (Checksum.ofImage output)
    let headers := { headers with windows }
    let output ← storeHeaders output headers
    return (headers, output)
  else
    return (headers, output)

end ImageDump.Output
