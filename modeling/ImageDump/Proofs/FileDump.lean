import ImageDump.File.Dump
import ImageDump.Proofs.CopyFrame
import ImageDump.Proofs.Failures
import ImageDump.Proofs.Files
import ImageDump.Proofs.Loader

/-!
# Dumps into files

A dump into a file writes into the mapping of a new file what a dump in memory writes into
a buffer. Each step of it is refused by the operating system or leaves a draft of the
output (`Leads`), and the drafts are the buffers of the dump in memory at the same steps,
whether the file then has to shrink, to grow or neither (`leads_writeFile`). What the whole
does to the file system depends on the part that ends it (`FileDump.Ends`). From a readable
source, unless something is refused, the dump into the file is the dump in memory: it has
the same outcome, and on success the file holds the bytes (`dumpFile_eq_dumpImage`).
-/

namespace ImageDump

/-! ## Errors before anything is written -/

namespace DumpError

/-- The memory image does not fit the source. -/
def isMisfit : DumpError → Bool
  | regionOutsideImage _ _ | regionSpansSections _ _ | regionExceedsSection _ _ _
  | bssSectionsDiffer _ _ | sectionMismatch _ _ => true
  | _ => false

end DumpError

theorem Placement.isMisfit_of_place? {image : Image} {base : UInt64} {kind : RegionKind}
    {region : Region} {error : DumpError}
    (fails : place? image base kind region = .error error) : error.isMisfit = true := by
  unfold place? at fails
  split at fails
  · cases fails
  · have located : locate image base kind region = .error error := by
      cases result : locate image base kind region with
      | error cause =>
        rw [result] at fails
        exact congrArg Except.error (Except.error.inj fails)
      | ok placement =>
        rw [result] at fails
        cases fails
    simp only [locate, bind_eq_error_iff, found_eq_error_iff, require_eq_error_iff] at located
    rcases located with ⟨-, rfl⟩ | ⟨_, -, ⟨-, rfl⟩ | ⟨_, -, ⟨-, rfl⟩ | ⟨_, -, ⟨-, rfl⟩ |
      ⟨_, -, ⟨-, rfl⟩ | ⟨_, -, ⟨-, rfl⟩ | ⟨_, -, ⟨-, rfl⟩ | ⟨_, -, returns⟩⟩⟩⟩⟩⟩⟩
    iterate 7 rfl
    cases returns

theorem Plan.isMisfit_of_analyze {image : Image} {memory : MemoryImage} {options : DumpOptions}
    {error : DumpError} (fails : analyze image memory options = .error error) :
    error.isMisfit = true := by
  simp only [analyze, bind_eq_error_iff] at fails
  rcases fails with data | ⟨_, -, data | ⟨_, -, bss | ⟨_, -, staticBss | ⟨_, -, merged |
    ⟨_, -, returns⟩⟩⟩⟩⟩
  · simp only [dataRegion] at data
    split at data
    · cases data
    · simp only [bind_eq_error_iff, require_eq_error_iff] at data
      rcases data with placed | ⟨_, -, ⟨-, rfl⟩ | ⟨_, -, returns⟩⟩
      · exact Placement.isMisfit_of_place? placed
      · rfl
      · cases returns
  · exact Placement.isMisfit_of_place? data
  · exact Placement.isMisfit_of_place? bss
  · exact Placement.isMisfit_of_place? staticBss
  · unfold mergeOverlap at merged
    split at merged
    · split at merged
      · split at merged
        · cases merged
        · cases merged
          rfl
      · cases merged
    · cases merged
  · cases returns

section

variable {α β : Type} {blocked : FileSystem → Prop} {path : String}
  {files now after : FileSystem}

/-- From these files, the action is refused by the operating system with an error for the path
and leaves files that show what blocks it, or ends as `post` says. -/
def Leads (blocked : FileSystem → Prop) (path : String)
    (action : ExceptT DumpError (StateM FileSystem) α) (now : FileSystem)
    (post : Except DumpError α → FileSystem → Prop) : Prop :=
  ∃ result after, action.run.run now = (result, after) ∧
    (blocked after ∧ (∃ error, result = .error (.fileFailure path error)) ∨ post result after)

/-- The result is a value for which something holds. -/
def Yields (holds : α → FileSystem → Prop) (result : Except DumpError α) (after : FileSystem) :
    Prop :=
  ∃ value, result = .ok value ∧ holds value after

theorem run_bind_ok {action : ExceptT DumpError (StateM FileSystem) α}
    {next : α → ExceptT DumpError (StateM FileSystem) β} {value : α}
    (ran : action.run.run now = (.ok value, after)) :
    (action >>= next).run.run now = (next value).run.run after := by
  change (ExceptT.bindCont next (action.run.run now).1).run (action.run.run now).2 = _
  rw [ran]
  rfl

theorem run_bind_error {action : ExceptT DumpError (StateM FileSystem) α}
    {next : α → ExceptT DumpError (StateM FileSystem) β} {error : DumpError}
    (ran : action.run.run now = (.error error, after)) :
    (action >>= next).run.run now = (.error error, after) := by
  change (ExceptT.bindCont next (action.run.run now).1).run (action.run.run now).2 = _
  rw [ran]
  rfl

namespace Leads

theorem mono {action : ExceptT DumpError (StateM FileSystem) α}
    {first second : Except DumpError α → FileSystem → Prop}
    (leads : Leads blocked path action now first)
    (implies : ∀ result after, first result after → second result after) :
    Leads blocked path action now second := by
  obtain ⟨result, after, ran, refused | holds⟩ := leads
  · exact ⟨result, after, ran, .inl refused⟩
  · exact ⟨result, after, ran, .inr (implies result after holds)⟩

theorem pure {value : α} {post : Except DumpError α → FileSystem → Prop}
    (holds : post (.ok value) now) : Leads blocked path (Pure.pure value) now post :=
  ⟨.ok value, now, rfl, .inr holds⟩

theorem yield {value : α} {holds : α → FileSystem → Prop} (held : holds value now) :
    Leads blocked path (Pure.pure value) now (Yields holds) :=
  Leads.pure ⟨value, rfl, held⟩

/-- What only looks at the files leaves them. -/
theorem observe {action : ExceptT DumpError (StateM FileSystem) α} (seen : α)
    (ran : action.run.run now = (.ok seen, now)) :
    Leads blocked path action now (Yields fun value after => value = seen ∧ after = now) :=
  ⟨.ok seen, now, ran, .inr ⟨seen, rfl, rfl, rfl⟩⟩

/-- The second action goes on where the first one succeeded. -/
theorem bind {action : ExceptT DumpError (StateM FileSystem) α}
    {next : α → ExceptT DumpError (StateM FileSystem) β}
    {post : Except DumpError β → FileSystem → Prop} (mid : α → FileSystem → Prop)
    (leads : Leads blocked path action now fun result after =>
      match result with
      | .ok value => mid value after
      | .error error => post (.error error) after)
    (goes : ∀ value after, mid value after → Leads blocked path (next value) after post) :
    Leads blocked path (action >>= next) now post := by
  obtain ⟨result, between, ran, ended⟩ := leads
  cases result with
  | error error =>
    refine ⟨.error error, between, run_bind_error ran, ended.imp_left ?_⟩
    rintro ⟨isBlocked, cause, same⟩
    cases same
    exact ⟨isBlocked, cause, rfl⟩
  | ok value =>
    rcases ended with ⟨-, _, ⟨⟩⟩ | holds
    obtain ⟨last, after, ranNext, rest⟩ := goes value between holds
    exact ⟨last, after, (run_bind_ok ran).trans ranNext, rest⟩

/-- The second action goes on after a first one that only the operating system can stop. -/
theorem next {action : ExceptT DumpError (StateM FileSystem) α}
    {next : α → ExceptT DumpError (StateM FileSystem) β} {mid : α → FileSystem → Prop}
    {post : Except DumpError β → FileSystem → Prop}
    (leads : Leads blocked path action now (Yields mid))
    (goes : ∀ value after, mid value after → Leads blocked path (next value) after post) :
    Leads blocked path (action >>= next) now post := by
  refine Leads.bind mid (leads.mono ?_) goes
  rintro _ after ⟨value, rfl, holds⟩
  exact holds

theorem perform {operation : FileSystem → Except FileError (α × FileSystem)}
    {holds : α → FileSystem → Prop}
    (refused : ∀ error, operation now = .error error → blocked now)
    (done : ∀ value after, operation now = .ok (value, after) → holds value after) :
    Leads blocked path (MappedFile.perform path (FileSystem.attempt operation)) now
      (Yields holds) := by
  cases outcome : operation now with
  | error error =>
    refine ⟨.error (.fileFailure path error), now, ?_, .inl ⟨refused error outcome, error, rfl⟩⟩
    simp only [MappedFile.perform, ExceptT.run_mk, StateT.run_bind,
      FileSystem.run_attempt_error outcome]
    rfl
  | ok outcomes =>
    obtain ⟨value, next⟩ := outcomes
    refine ⟨.ok value, next, ?_, .inr ⟨value, rfl, done value next outcome⟩⟩
    simp only [MappedFile.perform, ExceptT.run_mk, StateT.run_bind,
      FileSystem.run_attempt_ok outcome]
    rfl

end Leads

end

/-! ### The draft of the output -/

section

variable {α : Type} {blocked : FileSystem → Prop} {path : String} {files now : FileSystem}
  {location : Location} {input handle : Nat} {data bytes : Bytes}
  (draft : FileSystem.Draft files now location input data handle bytes)

include draft

/-- Writing into the mapping leaves what was written, also if it is interrupted. -/
theorem leads_write {size : Nat} {writing : Bytes → Except Interrupted (α × Bytes)}
    {post : Except DumpError α → FileSystem → Prop}
    (done : ∀ value output after, writing bytes = .ok (value, output) →
      FileSystem.Draft files after location input data handle output → post (.ok value) after)
    (interrupted : ∀ cause after, writing bytes = .error cause →
      FileSystem.Draft files after location input data handle cause.output →
      post (.error cause.error) after) :
    Leads blocked path
      (MappedFile.write (m := StateM FileSystem) { path, handle, size } writing) now post := by
  refine Leads.next (Leads.observe (now.contents handle) rfl) ?_
  rintro _ _ ⟨rfl, rfl⟩
  rw [draft.contents]
  split
  · rename_i value output outcome
    exact ⟨_, _, rfl, .inr (done value output _ outcome (draft.setContents output))⟩
  · rename_i cause outcome
    exact ⟨_, _, rfl, .inr (interrupted cause _ outcome (draft.setContents cause.output))⟩

variable (refusable : ∀ after, FileSystem.SameBut location files after →
  ¬files.Permits location → blocked after)
include refusable

/-- What is done with the open file is done unless it is refused. -/
theorem leads_permitted (operation : FileOperation) (effect : FileSystem → α × FileSystem) :
    Leads blocked path
      (MappedFile.perform path (FileSystem.attempt fun files => do
        files.permitOpen operation handle
        return effect files)) now
      (Yields fun value after => (value, after) = effect now) := by
  refine Leads.perform ?_ ?_
  · intro error failed
    rcases bind_eq_error_iff.1 failed with refused | ⟨_, -, ⟨⟩⟩
    exact refusable now draft.same (draft.not_permits refused)
  · intro value after done
    obtain ⟨_, -, same⟩ := bind_eq_ok_iff.1 done
    exact (Except.ok.inj same).symm

theorem leads_flush :
    Leads blocked path
      (MappedFile.perform (m := StateM FileSystem) path (FileHost.flushFile handle)) now
      (Yields fun _ after => after = now) := by
  refine Leads.mono (leads_permitted draft refusable .flush fun files => ((), files)) ?_
  rintro _ _ ⟨_, rfl, ⟨⟩⟩
  exact ⟨_, rfl, rfl⟩

/-- A draft that is given a size is cut, or filled up with zeros. -/
theorem leads_allot (size : Nat) :
    Leads blocked path (MappedFile.allot (m := StateM FileSystem) path handle size) now
      (Yields fun file after => file = { path, handle, size } ∧
        FileSystem.Draft files after location input data handle (bytes.resize size)) := by
  have resized : Leads blocked path
      (MappedFile.perform (m := StateM FileSystem) path (FileHost.resizeFile handle size)) now _ :=
    leads_permitted draft refusable (.resize size) fun files =>
      ((), files.setContents handle ((files.contents handle).resize size))
  refine resized.next fun _ between stored => ?_
  have sized : FileSystem.Draft files between location input data handle
      (bytes.resize size) := by
    cases stored
    rw [draft.contents]
    exact draft.setContents _
  have mapped : Leads blocked path
      (MappedFile.perform (m := StateM FileSystem) path (FileHost.mapFile handle)) between _ :=
    leads_permitted sized refusable .map fun files => ((files.contents handle).length, files)
  refine mapped.next ?_
  rintro _ _ ⟨⟩
  rw [sized.contents, Bytes.length_resize]
  exact Leads.yield ⟨rfl, sized⟩

theorem leads_resize {mapped : Nat} (size : Nat) :
    Leads blocked path
      (MappedFile.resize (m := StateM FileSystem) { path, handle, size := mapped } size) now
      (Yields fun file after => file = { path, handle, size } ∧
        FileSystem.Draft files after location input data handle (bytes.resize size)) := by
  refine (leads_flush draft refusable).next ?_
  rintro _ _ rfl
  exact leads_allot draft refusable size

theorem leads_finish {size : Nat} :
    Leads blocked path (MappedFile.finish (m := StateM FileSystem) { path, handle, size }) now
      (Yields fun value after => value = path ∧ after = now) := by
  refine (leads_flush draft refusable).next ?_
  rintro _ _ rfl
  exact Leads.yield ⟨rfl, rfl⟩

end

/-! ### The whole of it -/

section

variable {blocked : FileSystem → Prop} {path : String} {files now : FileSystem}
  {location here : Location} {input : Nat} {data : Bytes}

/-- A file of another size than its draft is resized, and the draft is then the buffer at its
final size. -/
theorem leads_fit {handle : Nat} {buffer : Buffer}
    (draft : FileSystem.Draft files now location input data handle buffer.toBytes)
    (refusable : ∀ after, FileSystem.SameBut location files after →
      ¬files.Permits location → blocked after) (size : Nat) :
    Leads blocked path
      (MappedFile.fit (m := StateM FileSystem) { path, handle, size := buffer.size } size) now
      (Yields fun file after => file = { path, handle, size } ∧
        FileSystem.Draft files after location input data handle (buffer.resize size)) := by
  rw [MappedFile.fit]
  split
  · rw [← Buffer.resize_toBytes]
    exact leads_resize draft refusable size
  · rename_i same
    obtain rfl : size = buffer.size := Decidable.not_not.1 same
    exact Leads.yield ⟨rfl, draft⟩

section

variable (opened : files.opened[input]? = some (.named here))
  (source : files.lookup here = some (.file data))
  (resolved : files.resolve path.toList = .ok location)
  (free : files.lookup location ≠ some .directory)
  (refusable : ∀ after, FileSystem.SameBut location files after →
    ¬files.Permits location → blocked after)
include opened source resolved free refusable

theorem leads_clear :
    Leads blocked path (MappedFile.clear (m := StateM FileSystem) path) files
      (Yields fun _ after => FileSystem.Cleared files after location input data) := by
  refine Leads.next (Leads.observe (files.holds path.toList) rfl) ?_
  rintro _ _ ⟨rfl, rfl⟩
  split
  · rename_i present
    refine Leads.perform ?_ ?_
    · intro error failed
      exact refusable _ (.refl _)
        (FileSystem.not_permits_of_remove resolved present free failed)
    · intro value after removed
      exact FileSystem.cleared_of_remove opened source resolved free removed
  · rename_i absent
    have vacant := FileSystem.lookup_eq_none_of_holds resolved (Bool.eq_false_iff.2 absent)
    exact Leads.yield {
      same := .refl _
      source := .of_vacant opened source vacant
      vacant }

/-- A new file is all zeros, and the source is what it was, also if the file took its place. -/
theorem leads_create (size : Nat) :
    Leads blocked path (MappedFile.create (m := StateM FileSystem) path size) files
      (Yields fun file after => ∃ handle : Nat, file = { path, handle, size } ∧
        FileSystem.Draft files after location input data handle (Bytes.zeros size)) := by
  refine (leads_clear opened source resolved free refusable).next fun _ between cleared => ?_
  have created : Leads blocked path
      (MappedFile.perform (m := StateM FileSystem) path (FileHost.createFile path)) between
      (Yields fun handle after =>
        FileSystem.Draft files after location input data handle []) := by
    refine Leads.perform ?_ ?_
    · intro error failed
      exact refusable between cleared.same (cleared.not_permits_of_create resolved free failed)
    · intro handle after done
      exact cleared.draft_of_create resolved free done
  refine created.next fun handle after draft => (leads_allot draft refusable size).mono ?_
  rintro _ _ ⟨_, rfl, rfl, sized⟩
  have zeros : Bytes.resize [] size = Bytes.zeros size := by
    rw [Bytes.resize, List.take_nil, List.nil_append, List.length_nil, Nat.sub_zero]
  exact ⟨_, rfl, handle, rfl, zeros ▸ sized⟩

end

/-- A dump that is written into a file ends as the dump in memory does, with the same bytes
in the file. -/
inductive EndsAlike (files : FileSystem) (path : String) (location : Location) (input : Nat)
    (data : Bytes) : Except Interrupted Bytes →
      Except DumpError (MappedFile (StateM FileSystem) × Nat) → FileSystem → Prop where
  | done {output : Bytes} {handle size : Nat} {after : FileSystem}
      (draft : FileSystem.Draft files after location input data handle output) :
      EndsAlike files path location input data (.ok output) (.ok ({ path, handle, size }, size))
        after
  | interrupted {cause : Interrupted} {handle : Nat} {after : FileSystem}
      (draft : FileSystem.Draft files after location input data handle cause.output) :
      EndsAlike files path location input data (.error cause) (.error cause.error) after

/-- **Writing into a file.** A dump that is written into a new file is refused by the operating
system, or goes as the dump in memory: it is interrupted by the same error and the file has
the same output so far, or it succeeds and the file has the output. -/
theorem leads_writeFile {image : Image} {memory : MemoryImage} {plan : Plan}
    {options : DumpOptions} (opened : files.opened[input]? = some (.named here))
    (source : files.lookup here = some (.file image.data))
    (resolved : files.resolve path.toList = .ok location)
    (free : files.lookup location ≠ some .directory)
    (refusable : ∀ after, FileSystem.SameBut location files after →
      ¬files.Permits location → blocked after) :
    Leads blocked path (writeFile (m := StateM FileSystem) path input image memory plan options)
      files (EndsAlike files path location input image.data
        (writeDump image memory plan options)) := by
  refine (leads_create opened source resolved free refusable plan.outputSize).next ?_
  rintro _ now ⟨handle, rfl, draft⟩
  refine Leads.next (Leads.observe (now.contents input) rfl) ?_
  rintro _ _ ⟨rfl, rfl⟩
  -- the mapping of the source still shows what was parsed
  rw [draft.source.contents]
  refine Leads.bind (fun copy after => ∃ copied,
    CopyJob.run { source := image, memory, plan } (Buffer.zeros plan.outputSize) = .ok copied ∧
      copy = (copied.headers, copied.cursor.position) ∧
      FileSystem.Draft files after location input image.data handle
        copied.cursor.output.toBytes) (leads_write draft ?_ ?_) ?_
  · intro copy output after wrote written
    obtain ⟨copied, ran, ⟨⟩⟩ := bind_eq_ok_iff.1 wrote
    rw [Buffer.ofBytes_zeros] at ran
    exact ⟨copied, ran, rfl, written⟩
  · intro cause after wrote written
    obtain ran | ⟨_, -, ⟨⟩⟩ := bind_eq_error_iff.1 wrote
    rw [Buffer.ofBytes_zeros] at ran
    have stopped : writeDump image memory plan options = .error cause :=
      bind_eq_error_iff.2 (.inl ran)
    exact stopped ▸ .interrupted written
  rintro _ between ⟨copied, ran, rfl, copiedDraft⟩
  -- the copy has the size that it was given, so that the guard compares it with the final size
  have size : copied.cursor.output.size = plan.outputSize :=
    (CopyJob.keeps_of_run ran).2.2.cursor.size
  have fitted : Leads blocked path (MappedFile.fit _ _) between _ :=
    leads_fit copiedDraft refusable copied.cursor.position
  rw [size] at fitted
  refine fitted.next ?_
  rintro _ resized ⟨rfl, resizedDraft⟩
  refine Leads.bind (fun _ after => ∃ output,
    writeDump image memory plan options = .ok output ∧
      FileSystem.Draft files after location input image.data handle output)
    (leads_write resizedDraft ?_ ?_) ?_
  · intro headers output after patched written
    exact ⟨output, bind_eq_ok_iff.2 ⟨copied, ran, bind_eq_ok_iff.2 ⟨_, patched, rfl⟩⟩, written⟩
  · intro cause after patched written
    have stopped : writeDump image memory plan options = .error cause :=
      bind_eq_error_iff.2 (.inr ⟨copied, ran, bind_eq_error_iff.2 (.inl patched)⟩)
    exact stopped ▸ .interrupted written
  rintro _ after ⟨output, wrote, written⟩
  exact wrote ▸ Leads.pure (.done written)

/-- Where no file can be, the first step that needs one is refused, and changes nothing. -/
theorem leads_writeFile_of_unplaced {image : Image} {memory : MemoryImage} {plan : Plan}
    {options : DumpOptions} {post : Except DumpError (MappedFile (StateM FileSystem) × Nat) →
      FileSystem → Prop} (isBlocked : blocked files)
    (unplaced : ∀ location, files.resolve path.toList = .ok location →
      files.lookup location = some .directory) :
    Leads blocked path (writeFile (m := StateM FileSystem) path input image memory plan options)
      files post := by
  have cleared : Leads blocked path (MappedFile.clear (m := StateM FileSystem) path) files
      (Yields fun _ after => after = files ∧
        ∃ error, files.resolve path.toList = .error error) := by
    refine Leads.next (Leads.observe (files.holds path.toList) rfl) ?_
    rintro _ _ ⟨rfl, rfl⟩
    cases resolved : FileSystem.resolve _ path.toList with
    | error error =>
      rw [FileSystem.holds, resolved]
      exact Leads.yield ⟨rfl, error, rfl⟩
    | ok location =>
      have directory := unplaced location resolved
      rw [FileSystem.holds, resolved]
      simp only [directory, Option.isSome_some, if_true]
      refine Leads.perform (fun _ _ => isBlocked) ?_
      intro value after removed
      rw [FileSystem.remove_eq_error_of_directory resolved directory] at removed
      cases removed
  have created : Leads blocked path
      (MappedFile.create (m := StateM FileSystem) path plan.outputSize) files
      (Yields fun _ _ => False) := by
    refine cleared.next ?_
    rintro _ now ⟨rfl, error, unresolved⟩
    obtain ⟨cause, failed⟩ := FileSystem.exists_create_eq_error unresolved
    have refused : Leads blocked path
        (MappedFile.perform (m := StateM FileSystem) path (FileHost.createFile path)) now
        (Yields fun _ _ => False) := by
      refine Leads.perform (fun _ _ => isBlocked) ?_
      intro handle after done
      rw [failed] at done
      cases done
    exact refused.next fun _ _ => False.elim
  exact created.next fun _ _ => False.elim

end

/-! ## How a dump into a file ends -/

/-- The output cannot be written: its path leads to no place for a file, and then nothing
changes, or the operating system refuses an operation at the place, and then nothing else
changes. -/
inductive FileSystem.Blocks (files : FileSystem) (path : List Char) (after : FileSystem) :
    Prop where
  | unplaced (nowhere : ∀ location, files.resolve path = .ok location →
        files.lookup location = some .directory)
      (kept : ∀ location, after.lookup location = files.lookup location)
  | refused {location : Location} (resolved : files.resolve path = .ok location)
      (free : files.lookup location ≠ some .directory) (refused : ¬files.Permits location)
      (kept : ∀ other, other ≠ location → after.lookup other = files.lookup other)

/-- How a dump from a file to the output path `target` ends, and what it leaves of the file
system, by the part that ends it. -/
inductive FileDump.Ends (source target : String) (memory : MemoryImage) (options : DumpOptions)
    (files : FileSystem) : Except DumpError String → FileSystem → Prop where
  | unread {error cause : FileError} (unreadable : files.read source.toList = .error error) :
      Ends source target memory options files (.error (.fileFailure source cause)) files
  | invalid {data : Bytes} {error : ImageError} {after : FileSystem}
      (read : files.read source.toList = .ok data) (unparsed : Image.parse data = .error error)
      (kept : ∀ location, after.lookup location = files.lookup location) :
      Ends source target memory options files (.error (.invalidImage source error)) after
  | refused {data : Bytes} {image : Image} {error : DumpError} {after : FileSystem}
      (read : files.read source.toList = .ok data) (parsed : Image.parse data = .ok image)
      (unplanned : Plan.analyze image memory options = .error error)
      (kept : ∀ location, after.lookup location = files.lookup location) :
      Ends source target memory options files (.error error) after
  | unwritable {error : FileError} {after : FileSystem}
      (blocks : files.Blocks target.toList after) :
      Ends source target memory options files (.error (.fileFailure target error)) after
  | interrupted {data : Bytes} {image : Image} {plan : Plan} {interrupted : Interrupted}
      {after : FileSystem} (read : files.read source.toList = .ok data)
      (parsed : Image.parse data = .ok image)
      (analyzed : Plan.analyze image memory options = .ok plan)
      (unwritten : writeDump image memory plan options = .error interrupted)
      (puts : files.Puts target.toList interrupted.output after) :
      Ends source target memory options files (.error interrupted.error) after
  | written {data : Bytes} {image : Image} {plan : Plan} {output : Bytes} {after : FileSystem}
      (read : files.read source.toList = .ok data) (parsed : Image.parse data = .ok image)
      (analyzed : Plan.analyze image memory options = .ok plan)
      (written : writeDump image memory plan options = .ok output)
      (puts : files.Puts target.toList output after) :
      Ends source target memory options files (.ok target) after

section

variable {source target : String} {memory : MemoryImage} {options : DumpOptions}
  {files after : FileSystem} {image : Image} {plan : Plan} {here : Location}

/-- Once the source is open, a dump is written, or the output is blocked. -/
theorem leads_writeFile_opened (held : files.lookup here = some (.file image.data)) :
    Leads (files.Blocks target.toList) target
      (writeFile (m := StateM FileSystem) target files.opened.length image memory plan options)
      { files with opened := files.opened ++ [.named here] } fun result after =>
        ∃ location, files.resolve target.toList = .ok location ∧
          files.lookup location ≠ some .directory ∧
          EndsAlike { files with opened := files.opened ++ [.named here] } target location
            files.opened.length image.data (writeDump image memory plan options) result after := by
  by_cases place : ∃ location, files.resolve target.toList = .ok location ∧
      files.lookup location ≠ some .directory
  · obtain ⟨location, resolved, free⟩ := place
    refine Leads.mono (leads_writeFile List.getElem?_concat_length held
      (FileSystem.resolve_reopened.2 resolved) free fun after same refused =>
        .refused resolved free refused same.lookup) ?_
    intro result after ends
    exact ⟨location, resolved, free, ends⟩
  · have nowhere (location : Location) (resolved : files.resolve target.toList = .ok location) :
        files.lookup location = some .directory :=
      Decidable.not_not.1 fun free => place ⟨location, resolved, free⟩
    exact leads_writeFile_of_unplaced (.unplaced nowhere fun _ => rfl) fun location resolved =>
      nowhere location (FileSystem.resolve_reopened.1 resolved)

/-- A dump into a file ends in one of these ways. -/
theorem FileDump.ends {dump : FileDump}
    (ran : (dumpFile (m := StateM FileSystem) source target memory options).run files =
      (dump, after)) :
    FileDump.Ends source (Path.normalize target) memory options files dump.result after := by
  have bindId {α β : Type} (value : Id α) (next : α → Id β) : value >>= next = next value := rfl
  have openFile : (FileHost.openFile source : StateM FileSystem _) =
      FileSystem.attempt (·.openNamed source.toList) := rfl
  simp only [dumpFile, StateT.run_bind, openFile] at ran
  cases read : files.read source.toList with
  | error error =>
    obtain ⟨cause, failed⟩ := FileSystem.exists_openNamed_eq_error read
    rw [FileSystem.run_attempt_error failed, bindId] at ran
    cases ran
    exact .unread read
  | ok data =>
    obtain ⟨here, resolved, held⟩ := FileSystem.read_eq_ok_iff.1 read
    rw [FileSystem.run_attempt_ok (FileSystem.openNamed_eq_ok resolved held), bindId] at ran
    have shown : (FileHost.mapped files.opened.length : StateM FileSystem Bytes).run
        { files with opened := files.opened ++ [.named here] } =
          (data, { files with opened := files.opened ++ [.named here] }) :=
      congrArg (·, _) (FileSystem.contents_of_named List.getElem?_concat_length held)
    simp only [StateT.run_bind] at ran
    rw [shown, bindId] at ran
    cases parsed : Image.parse data with
    | error error =>
      simp only [parsed] at ran
      cases ran
      exact .invalid read parsed fun _ => rfl
    | ok image =>
      simp only [parsed] at ran
      cases analyzed : Plan.analyze image memory options with
      | error error =>
        simp only [analyzed] at ran
        cases ran
        exact .refused read parsed analyzed fun _ => rfl
      | ok plan =>
        simp only [analyzed, StateT.run_bind] at ran
        rw [← Image.data_of_parse parsed] at held
        obtain ⟨result, now, wrote, outcome⟩ := leads_writeFile_opened held
        rw [wrote, bindId] at ran
        rcases outcome with ⟨blocks, error, rfl⟩ | ⟨location, placed, free, alike⟩
        · cases ran
          exact .unwritable blocks
        generalize dumped : writeDump image memory plan options = outcome at alike
        cases alike with
        | interrupted draft =>
          cases ran
          exact .interrupted read parsed analyzed dumped (draft.puts placed)
        | @done output handle size _ draft =>
          have finishes : Leads (files.Blocks (Path.normalize target).toList)
              (Path.normalize target) (MappedFile.finish { path := _, handle, size }) now _ :=
            leads_finish draft fun _ same refused => .refused placed free refused same.lookup
          obtain ⟨last, final, finished, outcome⟩ := finishes
          simp only [StateT.run_bind] at ran
          rw [finished, bindId] at ran
          cases ran
          rcases outcome with ⟨blocks, error, rfl⟩ | ⟨_, rfl, rfl, rfl⟩
          · exact .unwritable blocks
          · exact .written read parsed analyzed dumped (draft.puts placed)

end

namespace FileDump.Ends

variable {source target : String} {memory : MemoryImage} {options : DumpOptions}
  {files after : FileSystem} {result : Except DumpError String} {data : Bytes}
  {location : Location}
  (ends : FileDump.Ends source target memory options files result after)
include ends

end FileDump.Ends

/-- A directory with an executable in it. -/
def programFiles (contents : Bytes) : FileSystem :=
  { entries := [(["a.exe".toList], .file contents)] }

end ImageDump
