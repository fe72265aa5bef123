import ImageDump.Proofs.FileDump
import ImageDump.Proofs.Growth

/-!
# What a failed dump leaves behind

A dump that is refused, because the source is no image or the memory image does not fit it,
leaves every file alone. The bytes of memory and of the source are only asked for when the
output is written, though. If they are not there, the dump fails with an error that has
nothing to do with the output, and has put what was written so far in place of the output
file (`dumpFile_unchanged_iff`).
-/

namespace ImageDump

namespace DumpError

/-- The output, or any other file, is what failed. -/
def isOutputFailure : DumpError → Bool
  | outputOverflow _ _ _ | fileFailure _ _ => true
  | _ => false

/-- The dump is refused: the source is no image, or the memory image does not fit it. -/
def isRefusal : DumpError → Bool
  | invalidImage _ _ => true
  | error => error.isMisfit

theorem isRefusal_of_isMisfit {error : DumpError} (misfit : error.isMisfit = true) :
    error.isRefusal = true := by
  cases error with
  | invalidImage _ _ => rfl
  | _ => exact misfit

end DumpError

namespace CopyJob.Cause

variable {job : CopyJob} {error : DumpError}

theorem isRefusal_eq_false (cause : job.Cause error) : error.isRefusal = false := by
  cases cause with
  | _ => rfl

/-- A copy that does not fail for its output has no bytes to go on with. -/
theorem bytes_missing (cause : job.Cause error) (inside : error.isOutputFailure = false) :
    (∃ region, job.memory.read region = none ∧ error = .memoryUnavailable region) ∨
      ∃ size, job.source.data.length < size ∧
        error = .sourceOverflow 0 size job.source.data.length := by
  cases cause with
  | output => cases inside
  | memory placed missing => exact .inl ⟨_, missing, rfl⟩
  | headers empty outside => exact .inr ⟨_, outside, rfl⟩
  | rawData mem noData outside => exact .inr ⟨_, outside, rfl⟩

end CopyJob.Cause

/-- **What a failed dump leaves behind.** If a dump into a file fails, and it is not a file or
the size of the output that failed, then all files are as before exactly if the dump was
refused, or if the output file held what was written of the dump already. If it was not
refused, the memory image had no bytes for a region, or the source was too short. -/
theorem dumpFile_unchanged_iff {source target : String} {memory : MemoryImage}
    {options : DumpOptions} {files after : FileSystem} {dump : FileDump} {error : DumpError}
    (ran : (dumpFile (m := StateM FileSystem) source target memory options).run files =
      (dump, after))
    (failed : dump.result = .error error) (inside : error.isOutputFailure = false) :
    ((∀ location, after.lookup location = files.lookup location) ↔
      error.isRefusal = true ∨ ∃ data image plan left,
        files.read source.toList = .ok data ∧ Image.parse data = .ok image ∧
        Plan.analyze image memory options = .ok plan ∧
        writeDump image memory plan options = .error { error, output := left } ∧
        files.read (Path.normalize target).toList = .ok left) ∧
    (error.isRefusal = false →
      (∃ region, memory.read region = none ∧ error = .memoryUnavailable region) ∨
      ∃ data size, files.read source.toList = .ok data ∧ data.length < size ∧
        error = .sourceOverflow 0 size data.length) := by
  have ends := FileDump.ends ran
  rw [failed] at ends
  cases ends with
  | unread | unwritable => cases inside
  | invalid read unparsed kept => exact ⟨iff_of_true kept (.inl rfl), nofun⟩
  | refused read parsed unplanned kept =>
    have refusal := DumpError.isRefusal_of_isMisfit (Plan.isMisfit_of_analyze unplanned)
    refine ⟨iff_of_true kept (.inl refusal), fun accepted => ?_⟩
    rw [refusal] at accepted
    cases accepted
  | @interrupted data image plan interrupted _ read parsed analyzed unwritten puts =>
    have cause := failsOnlyWith_writeDump parsed analyzed interrupted unwritten
    have accepted := cause.isRefusal_eq_false
    rw [puts.unchanged_iff]
    refine ⟨⟨fun held => .inr ⟨data, image, plan, _, read, parsed, analyzed, unwritten, held⟩, ?_⟩,
      fun _ => ?_⟩
    · rintro (refusal | ⟨data', image', plan', left, read', parsed', analyzed', unwritten', held⟩)
      · rw [accepted] at refusal
        cases refusal
      · cases read.symm.trans read'
        cases parsed.symm.trans parsed'
        cases analyzed.symm.trans analyzed'
        rw [Except.error.inj (unwritten.symm.trans unwritten')]
        exact held
    · rcases cause.bytes_missing inside with missing | ⟨size, short, same⟩
      · exact .inl missing
      · rw [Image.data_of_parse parsed] at short same
        exact .inr ⟨data, size, read, short, same⟩

/-- A program whose output path holds an older file. -/
def staleFiles (contents : Bytes) : FileSystem :=
  (programFiles contents).insert ["b.exe".toList] (.file [0x00])

/-- A dump between these files, made as it is by default, and the files it leaves. -/
def defaultDump (image : Bytes) (memory : MemoryImage) : FileDump × FileSystem :=
  (dumpFile (m := StateM FileSystem) "a.exe" "b.exe" memory {}).run (staleFiles image)

/-- Memory with a live byte in front of all sections. -/
def strayMemory : Snapshot := Snapshot.setRegion { imageBase := 0x400000 } .bss 0x400000 [0xaa]

/-- A dump of `strayMemory` is refused, and the older file stays. -/
theorem dumpFile_unchanged_strayMemory :
    (defaultDump wideImage strayMemory.toMemoryImage).1.result =
        .error (.regionOutsideImage .bss { start := 0x400000, size := 1 }) ∧
      ∀ location, (defaultDump wideImage strayMemory.toMemoryImage).2.lookup location =
        (staleFiles wideImage).lookup location := by
  have failed : (defaultDump wideImage strayMemory.toMemoryImage).1.result =
      .error (.regionOutsideImage .bss { start := 0x400000, size := 1 }) :=
    eq_error_of_failure? (by decide +kernel)
  refine ⟨failed, ?_⟩
  generalize ran : defaultDump wideImage strayMemory.toMemoryImage = outcome at failed
  obtain ⟨unchanged, -⟩ := dumpFile_unchanged_iff ran failed rfl
  exact unchanged.2 (.inl rfl)

/-- An image with sixteen bytes of raw data in the section that is named for initialized data
by default. -/
def namedImage : Bytes :=
  imageOf [{ pageSection 0x1000 224 16 with
    name := SectionName.ofBytes [0x44, 0x55, 0x4d, 0x50, 0x44, 0x41, 0x54, 0x41] }]
    (List.replicate 16 0x11)

/-- A dump fails because the bytes of the named section were not captured, and the older file is
gone. -/
theorem dumpFile_changed_namedImage :
    (defaultDump namedImage idleMemory.toMemoryImage).1.result =
        .error (.memoryUnavailable { start := 0x401000, size := 16 }) ∧
      (staleFiles namedImage).lookup ["b.exe".toList] = some (.file [0x00]) ∧
      (defaultDump namedImage idleMemory.toMemoryImage).2.lookup ["b.exe".toList] ≠
        some (.file [0x00]) :=
  ⟨eq_error_of_failure? (by decide +kernel), by decide +kernel, by decide +kernel⟩

end ImageDump
