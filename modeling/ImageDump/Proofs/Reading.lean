import Mathlib.Algebra.Group.Nat.Defs
import ImageDump.Image

/-!
# What reading an image establishes

A record is read from an offset exactly if its encoding stands there, so reading
an image comes down to a list of encodings at offsets that the records before
them determine. `Image.ReadsAs` is that list, `Image.parse_eq_ok_iff` says that
parsing succeeds exactly on it, and `Image.checkFileOrder_eq_ok_iff` says what
the check of the section table checks.
-/

namespace ImageDump

/-! ## Records -/

namespace Bytes

/-- Two strings that agree from an offset on for `size` bytes have the same
slice there. -/
theorem slice_congr {a b : Bytes} {offset size : Nat}
    (agree : ∀ i < size, a[offset + i]? = b[offset + i]?) :
    slice a offset size = slice b offset size := by
  apply List.ext_getElem?
  intro i
  by_cases lt : i < size
  · rw [getElem?_slice lt, getElem?_slice lt, agree i lt]
  · have shortA : (slice a offset size).length ≤ i := by
      simp only [slice, List.length_take]
      omega
    have shortB : (slice b offset size).length ≤ i := by
      simp only [slice, List.length_take]
      omega
    rw [List.getElem?_eq_none shortA, List.getElem?_eq_none shortB]

theorem slice_overwrite {data bytes : Bytes} {offset : Nat}
    (inside : offset + bytes.length ≤ data.length) :
    (data.overwrite offset bytes).slice offset bytes.length = bytes := by
  apply List.ext_getElem?
  intro i
  by_cases lt : i < bytes.length
  · rw [getElem?_slice lt, getElem?_overwrite inside, if_pos (by omega),
      Nat.add_sub_cancel_left]
  · have length : ((data.overwrite offset bytes).slice offset bytes.length).length =
        bytes.length :=
      length_slice_of_le (by rw [length_overwrite inside]; exact inside)
    rw [List.getElem?_eq_none (by omega), List.getElem?_eq_none (by omega)]

/-- Writing what is there changes nothing. -/
theorem overwrite_slice {data : Bytes} {offset size : Nat}
    (inside : offset + size ≤ data.length) :
    data.overwrite offset (data.slice offset size) = data := by
  have length := length_slice_of_le inside
  apply List.ext_getElem?
  intro i
  rw [getElem?_overwrite (length.symm ▸ inside), length]
  split
  · rw [getElem?_slice (by omega), Nat.add_sub_cancel' (by omega)]
  · rfl

end Bytes

namespace Codec

variable {α : Type} {codec : Codec α} {data other : Bytes} {offset : Nat} {value : α}

theorem read?_eq_some_iff : codec.read? data offset = some value ↔
    offset + codec.size ≤ data.length ∧
      Bytes.slice data offset codec.size = codec.encode value := by
  constructor
  · intro read
    unfold read? at read
    split at read
    · rename_i inside
      cases read
      refine ⟨inside, (codec.encode_decode (data.drop offset) ?_).symm⟩
      rw [List.length_drop]
      omega
    · cases read
  · intro holds
    rcases holds with ⟨inside, stored⟩
    exact read?_of_slice inside stored

/-- What is written is read back. -/
theorem read?_overwrite (inside : offset + codec.size ≤ data.length) :
    codec.read? (data.overwrite offset (codec.encode value)) offset = some value := by
  have length := codec.length_encode value
  rw [← length] at inside
  have slice := Bytes.slice_overwrite inside
  rw [length] at slice
  exact read?_of_slice (by rw [Bytes.length_overwrite inside, ← length]; exact inside) slice

/-- The bytes of a record that is read. -/
theorem getElem?_of_read? (read : codec.read? data offset = some value) {i : Nat}
    (lt : i < codec.size) : data[offset + i]? = (codec.encode value)[i]? := by
  obtain ⟨-, stored⟩ := read?_eq_some_iff.1 read
  rw [← stored, Bytes.getElem?_slice lt]

/-- A record that ends a slice is read behind what is in front of it. -/
theorem read?_of_slice_append {front : Bytes} {size : Nat} (inside : offset + size ≤ data.length)
    (stored : Bytes.slice data offset size = front ++ codec.encode value) :
    codec.read? data (offset + front.length) = some value := by
  have length := congrArg List.length stored
  rw [Bytes.length_slice_of_le inside, List.length_append, codec.length_encode] at length
  refine read?_of_slice (by omega) (List.ext_getElem? fun i => ?_)
  by_cases lt : i < codec.size
  · have byte : (Bytes.slice data offset size)[front.length + i]? =
        (codec.encode value)[i]? := by
      rw [stored, List.getElem?_append_right (Nat.le_add_right _ _), Nat.add_sub_cancel_left]
    rw [Bytes.getElem?_slice lt, Nat.add_assoc, ← byte, Bytes.getElem?_slice (by omega)]
  · have encoded := codec.length_encode value
    have sliced : (Bytes.slice data (offset + front.length) codec.size).length = codec.size :=
      Bytes.length_slice_of_le (by omega)
    rw [List.getElem?_eq_none (by omega), List.getElem?_eq_none (by omega)]

/-- A record is read from another string as well if that string has the same
bytes where the record stands. -/
theorem read?_congr (read : codec.read? data offset = some value)
    (inside : offset + codec.size ≤ other.length)
    (agree : ∀ position, offset ≤ position → position < offset + codec.size →
      other[position]? = data[position]?) :
    codec.read? other offset = some value := by
  obtain ⟨-, stored⟩ := read?_eq_some_iff.1 read
  refine read?_of_slice inside ?_
  rw [← stored]
  exact Bytes.slice_congr fun i lt => agree (offset + i) (by omega) (by omega)

end Codec

/-- The format of an image with these fields of the loader. -/
def WindowsHeader.format : WindowsHeader → Image.OptionalFormat
  | pe32 _ => .pe32
  | pe32Plus _ => .pe32Plus

/-- The fields of the loader take up the same room in all images of a format. -/
theorem WindowsHeader.length_encode_congr {first second : WindowsHeader}
    (same : second.format = first.format) : second.encode.length = first.encode.length := by
  cases first with
  | pe32 fields =>
    cases second with
    | pe32 others => exact (Codec.length_encode _ _).trans (Codec.length_encode _ _).symm
    | pe32Plus others => cases same
  | pe32Plus fields =>
    cases second with
    | pe32 others => cases same
    | pe32Plus others => exact (Codec.length_encode _ _).trans (Codec.length_encode _ _).symm

namespace Image

variable {α : Type} {kind : RecordKind} {codec : Codec α} {data : Bytes} {offset : Nat}

@[simp] theorem readRecord_eq_ok_iff {value : α} :
    readRecord kind codec data offset = .ok value ↔ codec.read? data offset = some value :=
  found_eq_ok_iff

theorem map_eq_ok_iff {ε β : Type} {f : α → β} {step : Except ε α} {result : β} :
    f <$> step = .ok result ↔ ∃ value, step = .ok value ∧ result = f value := by
  cases step with
  | error error => simp [Functor.map, Except.map]
  | ok value => simp [Functor.map, Except.map, eq_comm]

theorem mapM_eq_ok_iff {ε β : Type} {f : α → Except ε β} {xs : List α} {ys : List β} :
    xs.mapM f = .ok ys ↔ ys.length = xs.length ∧
      ∀ (i : Nat) x y, xs[i]? = some x → ys[i]? = some y → f x = .ok y := by
  induction xs generalizing ys with
  | nil =>
    rw [List.mapM_nil]
    constructor
    · intro unequal
      cases unequal
      exact ⟨rfl, by simp⟩
    · intro holds
      rcases holds with ⟨empty, -⟩
      rw [List.eq_nil_of_length_eq_zero empty]
      rfl
  | cons x xs ih =>
    simp only [List.mapM_cons, bind_eq_ok_iff, ih]
    constructor
    · intro ran
      rcases ran with ⟨y, first, rest, ⟨length, others⟩, ⟨⟩⟩
      refine ⟨congrArg (· + 1) length, ?_⟩
      intro i x' y' xAt yAt
      cases i with
      | zero =>
        cases xAt
        cases yAt
        exact first
      | succ i => exact others i x' y' xAt yAt
    · intro holds
      rcases holds with ⟨length, all⟩
      cases ys with
      | nil => cases length
      | cons y ys =>
        exact ⟨y, all 0 x y rfl rfl, ys, ⟨Nat.succ.inj length,
          fun i x' y' xAt yAt => all (i + 1) x' y' xAt yAt⟩, rfl⟩

/-- A table is read exactly if each of its records is read at its place. -/
theorem readTable_eq_ok_iff {count : Nat} {values : List α} :
    readTable kind codec data offset count = .ok values ↔ values.length = count ∧
      ∀ (i : Nat) value, values[i]? = some value →
        codec.read? data (offset + codec.size * i) = some value := by
  simp only [readTable, mapM_eq_ok_iff, List.length_range, readRecord_eq_ok_iff]
  constructor
  · intro holds
    rcases holds with ⟨length, all⟩
    refine ⟨length, fun i value valueAt => all i i value ?_ valueAt⟩
    have below : i < values.length := (List.getElem?_eq_some_iff.1 valueAt).1
    simp [length ▸ below]
  · intro holds
    rcases holds with ⟨length, all⟩
    refine ⟨length, fun i index value indexAt valueAt => ?_⟩
    obtain ⟨below, rfl⟩ := List.getElem?_eq_some_iff.1 indexAt
    rw [List.getElem_range]
    exact all i value valueAt

/-! ## The headers -/

/-- The offsets of the headers of an image whose signature is at
`signatureOffset`. -/
def offsetsAt (signatureOffset : Nat) (format : OptionalFormat) (coff : CoffHeader) :
    HeaderOffsets :=
  let coffOffset := signatureOffset + signatureSize
  let standardOffset := coffOffset + CoffHeader.codec.size
  let sectionsOffset := standardOffset + coff.optionalHeaderSize.toNat
  { coff := coffOffset
    standard := standardOffset
    windows := standardOffset + format.windowsOffset
    directories := standardOffset + format.directoriesOffset
    sections := sectionsOffset
    sectionsEnd := sectionsOffset + SectionHeader.codec.size * coff.sectionCount.toNat }

/-- Every record of an image stands in the data where the records before it
say. -/
structure ReadsAs (data : Bytes) (image : Image) (signatureOffset : UInt32)
    (format : OptionalFormat) : Prop where
  data_eq : image.data = data
  offsets_eq : image.offsets = offsetsAt signatureOffset.toNat format image.coff
  magicAt : Codec.u16.read? data 0 = some executableMagic
  pointerAt : Codec.u32.read? data signaturePointerOffset = some signatureOffset
  signatureAt : Codec.u32.read? data signatureOffset.toNat = some signature
  coffAt : CoffHeader.codec.read? data image.offsets.coff = some image.coff
  minimum : OptionalFormat.minimumSize ≤ image.coff.optionalHeaderSize.toNat
  standardAt : StandardFields.codec.read? data image.offsets.standard = some image.standard
  formatAt : OptionalFormat.find? image.standard.magic image.coff.optionalHeaderSize.toNat =
    some format
  windowsAt : format.readWindows data image.offsets.windows = .ok image.windows
  alignment : isPowerOfTwo image.windows.fileAlignment = true
  directoriesAt : readTable .dataDirectory DataDirectory.codec data image.offsets.directories
    (min DirectoryKind.count image.windows.directoryCount.toNat) = .ok image.directories
  sectionsAt : readTable .sectionHeader SectionHeader.codec data image.offsets.sections
    image.coff.sectionCount.toNat = .ok image.sections

/-- The COFF header follows the signature. -/
theorem locateCoff_eq_ok_iff {coffOffset : Nat} :
    locateCoff data = .ok coffOffset ↔
      ∃ signatureOffset : UInt32, Codec.u16.read? data 0 = some executableMagic ∧
        Codec.u32.read? data signaturePointerOffset = some signatureOffset ∧
        Codec.u32.read? data signatureOffset.toNat = some signature ∧
        coffOffset = signatureOffset.toNat + signatureSize := by
  simp only [locateCoff, bind_eq_ok_iff, readRecord_eq_ok_iff, require_eq_ok_iff]
  constructor
  · intro ran
    rcases ran with ⟨_, magic, _, rfl, signatureOffset, pointer, _, signed, _, rfl, ⟨⟩⟩
    exact ⟨signatureOffset, magic, pointer, signed, rfl⟩
  · intro holds
    rcases holds with ⟨signatureOffset, magic, pointer, signed, rfl⟩
    exact ⟨_, magic, (), rfl, signatureOffset, pointer, _, signed, (), rfl, rfl⟩

theorem readHeaders_eq_ok_iff {image : Image} :
    readHeaders data = .ok image ↔
      ∃ signatureOffset format, ReadsAs data image signatureOffset format := by
  simp only [readHeaders, bind_eq_ok_iff, readRecord_eq_ok_iff, require_eq_ok_iff,
    found_eq_ok_iff, locateCoff_eq_ok_iff]
  constructor
  · intro ran
    rcases ran with ⟨_, ⟨signatureOffset, magic, pointer, signed, rfl⟩, coff, coffAt, _, minimum,
      standard, standardAt, format, formatAt, windows, windowsAt, _, alignment, directories,
      directoriesAt, sections, sectionsAt, ⟨⟩⟩
    exact ⟨signatureOffset, format, {
      data_eq := rfl
      offsets_eq := rfl
      magicAt := magic
      pointerAt := pointer
      signatureAt := signed
      coffAt := coffAt
      minimum := minimum
      standardAt := standardAt
      formatAt := formatAt
      windowsAt := windowsAt
      alignment := alignment
      directoriesAt := directoriesAt
      sectionsAt := sectionsAt }⟩
  · intro holds
    rcases holds with ⟨signatureOffset, format, reads⟩
    obtain ⟨⟨coff, standard, windows, sections, offsets⟩, imageData, directories⟩ := image
    obtain ⟨data_eq, offsets_eq, magic, pointer, signed, coffAt, minimum, standardAt,
      formatAt, windowsAt, alignment, directoriesAt, sectionsAt⟩ := reads
    simp only at *
    subst data_eq offsets_eq
    exact ⟨_, ⟨signatureOffset, magic, pointer, signed, rfl⟩, coff, coffAt, (), minimum,
      standard, standardAt, format, formatAt, windows, windowsAt, (), alignment, directories,
      directoriesAt, sections, sectionsAt, rfl⟩

/-- Parsing succeeds exactly if every record stands in its place and the
sections are in file order. -/
theorem parse_eq_ok_iff {image : Image} :
    parse data = .ok image ↔
      (∃ signatureOffset format, ReadsAs data image signatureOffset format) ∧
        checkFileOrder data.length 0 image.sections = .ok () := by
  simp only [parse, bind_eq_ok_iff, readHeaders_eq_ok_iff]
  constructor
  · intro ran
    rcases ran with ⟨_, reads, _, ordered, ⟨⟩⟩
    exact ⟨reads, ordered⟩
  · intro holds
    rcases holds with ⟨reads, ordered⟩
    exact ⟨image, reads, (), ordered, rfl⟩

/-! ## What the headers say about each other -/

theorem pos_of_isPowerOfTwo {alignment : UInt32} (power : isPowerOfTwo alignment = true) :
    0 < alignment.toNat := by
  rcases Nat.eq_zero_or_pos alignment.toNat with zero | positive
  · rw [isPowerOfTwo, zero] at power
    cases power
  · exact positive

theorem dvd_of_isPowerOfTwo {alignment : UInt32} (power : isPowerOfTwo alignment = true) :
    alignment.toNat ∣ 2 ^ 32 := by
  have nonzero : alignment.toNat ≠ 0 := Nat.ne_of_gt (pos_of_isPowerOfTwo power)
  have exponent : alignment.toNat.log2 < 32 := (Nat.log2_lt nonzero).2 alignment.toNat_lt
  rw [isPowerOfTwo, beq_iff_eq, Nat.one_shiftLeft] at power
  rw [← power]
  exact Nat.pow_dvd_pow 2 (Nat.le_of_lt exponent)

theorem OptionalFormat.directoriesOffset_le {format : OptionalFormat} {magic : UInt16}
    {size : Nat} (found : find? magic size = some format) :
    format.directoriesOffset ≤ size := by
  have fits := List.find?_some found
  simp only [Bool.and_eq_true, decide_eq_true_eq] at fits
  exact fits.2

/-- The fields of the loader are read in the width of the format. -/
theorem OptionalFormat.readWindows_eq_ok_iff {format : OptionalFormat}
    {windows : WindowsHeader} :
    format.readWindows data offset = .ok windows ↔
      (∃ fields, format = pe32 ∧ windows = .pe32 fields ∧
        (WindowsFields.codec Codec.u32).read? data offset = some fields) ∨
      (∃ fields, format = pe32Plus ∧ windows = .pe32Plus fields ∧
        (WindowsFields.codec Codec.u64).read? data offset = some fields) := by
  cases format with
  | pe32 => simp [readWindows, map_eq_ok_iff, and_comm]
  | pe32Plus => simp [readWindows, map_eq_ok_iff, and_comm]

/-- The fields of the loader are read in their own format where they stand. -/
theorem OptionalFormat.readWindows_eq_ok_iff_slice {format : OptionalFormat}
    {windows : WindowsHeader} :
    format.readWindows data offset = .ok windows ↔
      windows.format = format ∧ offset + windows.encode.length ≤ data.length ∧
        Bytes.slice data offset windows.encode.length = windows.encode := by
  rw [readWindows_eq_ok_iff]
  constructor
  · intro read
    rcases read with ⟨fields, rfl, rfl, at_⟩ | ⟨fields, rfl, rfl, at_⟩
    · rw [WindowsHeader.encode, Codec.length_encode]
      exact ⟨rfl, Codec.read?_eq_some_iff.1 at_⟩
    · rw [WindowsHeader.encode, Codec.length_encode]
      exact ⟨rfl, Codec.read?_eq_some_iff.1 at_⟩
  · intro stands
    rcases stands with ⟨rfl, stored⟩
    cases windows with
    | pe32 fields =>
      rw [WindowsHeader.encode, Codec.length_encode] at stored
      exact .inl ⟨fields, rfl, rfl, Codec.read?_eq_some_iff.2 stored⟩
    | pe32Plus fields =>
      rw [WindowsHeader.encode, Codec.length_encode] at stored
      exact .inr ⟨fields, rfl, rfl, Codec.read?_eq_some_iff.2 stored⟩

/-- The fields of the loader end where the data directories start. -/
theorem OptionalFormat.windowsOffset_add_length {format : OptionalFormat} {offset : Nat}
    {windows : WindowsHeader} (read : format.readWindows data offset = .ok windows) :
    format.windowsOffset + windows.encode.length = format.directoriesOffset := by
  rcases readWindows_eq_ok_iff.1 read with ⟨fields, rfl, rfl, -⟩ | ⟨fields, rfl, rfl, -⟩
  · rw [WindowsHeader.encode, Codec.length_encode]
    rfl
  · rw [WindowsHeader.encode, Codec.length_encode]
    rfl

/-- The headers of an image stand one after the other, up to the end of the
section table. -/
structure HeadersInOrder (headers : Headers) : Prop where
  standard : headers.offsets.standard = headers.offsets.coff + CoffHeader.codec.size
  windows : headers.offsets.standard + StandardFields.codec.size ≤ headers.offsets.windows
  directories : headers.offsets.windows + headers.windows.encode.length =
    headers.offsets.directories
  sections : headers.offsets.directories ≤ headers.offsets.sections
  sectionsEnd : headers.offsets.sectionsEnd =
    headers.offsets.sections + SectionHeader.codec.size * headers.sections.length

namespace HeadersInOrder

variable {headers : Headers} (ordered : HeadersInOrder headers)
include ordered

theorem coff_lt : headers.offsets.coff < headers.offsets.directories := by
  have standard := ordered.standard
  have windows := ordered.windows
  have directories := ordered.directories
  have size : StandardFields.codec.size = 24 := rfl
  omega

theorem sections_le : headers.offsets.sections ≤ headers.offsets.sectionsEnd := by
  rw [ordered.sectionsEnd]
  exact Nat.le_add_right _ _

theorem sectionsEnd_pos : 0 < headers.offsets.sectionsEnd := by
  have front := ordered.coff_lt
  have sections := ordered.sections
  have sectionsEnd := ordered.sections_le
  omega

end HeadersInOrder

variable {image : Image} {signatureOffset : UInt32} {format : OptionalFormat}

theorem ReadsAs.length_sections (reads : ReadsAs data image signatureOffset format) :
    image.sections.length = image.coff.sectionCount.toNat :=
  (readTable_eq_ok_iff.1 reads.sectionsAt).1

theorem ReadsAs.headersInOrder (reads : ReadsAs data image signatureOffset format) :
    HeadersInOrder image.toHeaders := by
  have directoriesLe := OptionalFormat.directoriesOffset_le reads.formatAt
  have loader := OptionalFormat.windowsOffset_add_length reads.windowsAt
  have length := reads.length_sections
  constructor
  all_goals rw [reads.offsets_eq]
  · rfl
  · cases format with
    | pe32 => exact Nat.add_le_add_left (by decide) _
    | pe32Plus => exact Nat.add_le_add_left (by decide) _
  · simp only [offsetsAt]
    omega
  · simp only [offsetsAt]
    omega
  · simp only [offsetsAt, length]

/-! ## File order -/

/-- The raw data of one section ends before that of a later one starts. -/
def InFileOrder (first second : SectionHeader) : Prop :=
  first.hasRawData = true → second.hasRawData = true →
    first.rawEnd ≤ second.rawPointer.toNat

instance (first second : SectionHeader) : Decidable (InFileOrder first second) :=
  inferInstanceAs (Decidable (_ → _ → _))

/-- The check passes exactly if the raw data of all sections that have any lies
between `previousEnd` and `length` and is in table order. -/
theorem checkFileOrder_eq_ok_iff {length previousEnd : Nat} {table : SectionTable} :
    checkFileOrder length previousEnd table = .ok () ↔
      (∀ header ∈ table, header.hasRawData = true →
        previousEnd ≤ header.rawPointer.toNat ∧ header.rawEnd ≤ length) ∧
      table.Pairwise InFileOrder := by
  induction table generalizing previousEnd with
  | nil => simp [checkFileOrder]
  | cons header rest ih =>
    rw [List.forall_mem_cons, List.pairwise_cons]
    unfold checkFileOrder
    by_cases raw : header.hasRawData = true
    · by_cases early : header.rawPointer.toNat < previousEnd
      · simp only [raw, Bool.not_true, Bool.false_eq_true, if_false, if_pos early, reduceCtorEq,
          false_iff]
        intro holds
        rcases holds with ⟨⟨first, -⟩, -⟩
        have le := (first trivial).1
        omega
      · by_cases outside : length < header.rawEnd
        · simp only [raw, Bool.not_true, Bool.false_eq_true, if_false, if_neg early,
            if_pos outside, reduceCtorEq, false_iff]
          intro holds
          rcases holds with ⟨⟨first, -⟩, -⟩
          have le := (first trivial).2
          omega
        · simp only [raw, Bool.not_true, Bool.false_eq_true, if_false, if_neg early,
            if_neg outside, ih]
          have pointerLe : header.rawPointer.toNat ≤ header.rawEnd := Nat.le_add_right _ _
          constructor
          · intro holds
            rcases holds with ⟨bounds, ordered⟩
            refine ⟨⟨fun _ => ⟨by omega, by omega⟩, ?_⟩, ?_, ordered⟩
            · intro other mem otherRaw
              obtain ⟨after, inside⟩ := bounds other mem otherRaw
              exact ⟨by omega, inside⟩
            · intro other mem _ otherRaw
              exact (bounds other mem otherRaw).1
          · intro holds
            rcases holds with ⟨⟨-, bounds⟩, after, ordered⟩
            exact ⟨fun other mem otherRaw =>
              ⟨after other mem raw otherRaw, (bounds other mem otherRaw).2⟩, ordered⟩
    · simp only [Bool.not_eq_true] at raw
      simp [raw, ih, InFileOrder]

/-! ## Parsed images -/

theorem data_of_parse (parsed : parse data = .ok image) : image.data = data := by
  obtain ⟨⟨_, _, reads⟩, -⟩ := parse_eq_ok_iff.1 parsed
  exact reads.data_eq

theorem fileAlignment_pos_of_parse (parsed : parse data = .ok image) :
    0 < image.fileAlignment.toNat := by
  obtain ⟨⟨_, _, reads⟩, -⟩ := parse_eq_ok_iff.1 parsed
  exact pos_of_isPowerOfTwo reads.alignment

/-- How many values a header field has is a multiple of the file alignment. -/
theorem fileAlignment_dvd_of_parse (parsed : parse data = .ok image) :
    image.fileAlignment.toNat ∣ 2 ^ 32 := by
  obtain ⟨⟨_, _, reads⟩, -⟩ := parse_eq_ok_iff.1 parsed
  exact dvd_of_isPowerOfTwo reads.alignment

theorem headersInOrder_of_parse (parsed : parse data = .ok image) :
    HeadersInOrder image.toHeaders := by
  obtain ⟨⟨_, _, reads⟩, -⟩ := parse_eq_ok_iff.1 parsed
  exact reads.headersInOrder

/-- The section table of a parsed image lies inside the image, unless it is empty. -/
theorem sectionsEnd_le_of_parse (parsed : parse data = .ok image)
    (nonempty : 0 < image.sections.length) : image.offsets.sectionsEnd ≤ data.length := by
  have sectionsEnd := (headersInOrder_of_parse parsed).sectionsEnd
  obtain ⟨⟨_, _, reads⟩, -⟩ := parse_eq_ok_iff.1 parsed
  obtain ⟨-, records⟩ := readTable_eq_ok_iff.1 reads.sectionsAt
  have last : image.sections.length - 1 < image.sections.length := by omega
  obtain ⟨inside, -⟩ :=
    Codec.read?_eq_some_iff.1 (records _ _ (List.getElem?_eq_getElem last))
  have size : SectionHeader.codec.size * (image.sections.length - 1) + SectionHeader.codec.size =
      SectionHeader.codec.size * image.sections.length := by
    rw [← Nat.mul_succ, Nat.succ_eq_add_one, Nat.sub_add_cancel nonempty]
  omega

/-- The raw data of a section of a parsed image lies inside the image. -/
theorem rawEnd_le_of_parse (parsed : parse data = .ok image) {header : SectionHeader}
    (mem : header ∈ image.sections) (raw : header.hasRawData = true) :
    header.rawEnd ≤ data.length := by
  obtain ⟨-, ordered⟩ := parse_eq_ok_iff.1 parsed
  exact ((checkFileOrder_eq_ok_iff.1 ordered).1 header mem raw).2

theorem inFileOrder_of_parse (parsed : parse data = .ok image) :
    image.sections.Pairwise InFileOrder := by
  obtain ⟨-, ordered⟩ := parse_eq_ok_iff.1 parsed
  exact (checkFileOrder_eq_ok_iff.1 ordered).2

end Image
end ImageDump
