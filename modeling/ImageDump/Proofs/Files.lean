import ImageDump.Checked
import ImageDump.File.System

/-!
# Files that are written

An operation on a file changes what is at one place, and no path leads elsewhere for
it (`FileSystem.SameBut`). A file that was opened keeps its contents under its handle, also
if its name is removed and a new file put in its place (`FileSystem.Shows`). From there
on, what is done with the handle of a new file is done to what its path leads to
(`FileSystem.Draft`).
-/

namespace ImageDump.FileSystem

variable {files now after : FileSystem} {location other here : Location} {entry : Entry}
  {bytes data : Bytes} {path : List Char} {components : List (List Char)} {handle input size : Nat}

/-! ## One place -/

theorem ne_nil_of_lookup (free : files.lookup location ≠ some .directory) : location ≠ [] := by
  intro root
  exact free (if_pos root)

theorem lookup_insert_self (nonempty : location ≠ []) :
    (files.insert location entry).lookup location = some entry := by
  rw [lookup, if_neg nonempty, insert, List.lookup_cons_self]

theorem lookup_erase_of_ne (ne : other ≠ location) :
    (files.erase location).lookup other = files.lookup other := by
  have filtered : (files.entries.filter (·.1 ≠ location)).lookup other =
      files.entries.lookup other := by
    induction files.entries with
    | nil => rfl
    | cons first rest ih =>
      by_cases same : first.1 = location
      · have skipped : (other == first.1) = false := same ▸ beq_eq_false_iff_ne.2 ne
        rw [List.filter_cons_of_neg (by simp [same]), ih, List.lookup_cons, skipped]
      · rw [List.filter_cons_of_pos (by simp [same]), List.lookup_cons, List.lookup_cons, ih]
  exact congrArg _ filtered

theorem lookup_erase_self (nonempty : location ≠ []) :
    (files.erase location).lookup location = none := by
  rw [lookup, if_neg nonempty, List.lookup_eq_none_iff]
  intro first mem
  have kept := (List.mem_filter.1 mem).2
  exact bne_iff_ne.2 fun same => of_decide_eq_true kept same.symm

theorem lookup_insert_of_ne (ne : other ≠ location) :
    (files.insert location entry).lookup other = files.lookup other := by
  have erased : (files.erase location).lookup other = files.lookup other :=
    lookup_erase_of_ne ne
  rw [← erased, lookup, lookup, insert, List.lookup_cons, beq_eq_false_iff_ne.2 ne]

/-- Components lead where they led if all directories stay. -/
theorem follow_of_stay
    (stay : ∀ here, files.lookup here = some .directory → after.lookup here = some .directory)
    (followed : files.follow here components = .ok other) :
    after.follow here components = .ok other := by
  induction components generalizing here with
  | nil => exact followed
  | cons component rest ih =>
    unfold follow at followed ⊢
    cases found : files.lookup here with
    | none =>
      rw [found] at followed
      cases followed
    | some entry =>
      cases entry with
      | file contents =>
        rw [found] at followed
        cases followed
      | directory =>
        rw [found] at followed
        rw [stay here found]
        dsimp only at followed ⊢
        split at followed
        · cases followed
        · rename_i short
          rw [if_neg short]
          exact ih followed

/-- A path leads where it led if all directories stay. -/
theorem resolve_of_stay (working : after.workingDirectory = files.workingDirectory)
    (stay : ∀ here, files.lookup here = some .directory → after.lookup here = some .directory)
    (resolved : files.resolve path = .ok other) : after.resolve path = .ok other := by
  have start : after.start path = files.start path := by
    rw [FileSystem.start, FileSystem.start, working]
  unfold resolve at resolved ⊢
  split at resolved
  · cases resolved
  · rename_i nonempty
    split at resolved
    · cases resolved
    · rename_i zeroFree
      split at resolved
      · cases resolved
      · rename_i short
        rw [if_neg nonempty, if_neg zeroFree, if_neg short, start]
        exact follow_of_stay stay resolved

/-- What files are open is nothing to a path. -/
theorem resolve_reopened {opened : List OpenFile} :
    resolve { files with opened } path = .ok location ↔ files.resolve path = .ok location := by
  have forth (before : FileSystem) (opened : List OpenFile)
      (resolved : before.resolve path = .ok location) :
      resolve { before with opened } path = .ok location := by
    refine resolve_of_stay ?_ ?_ resolved
    · rfl
    · exact fun _ directory => directory
  exact ⟨forth _ files.opened, forth files opened⟩

/-- Two trees that differ in what is at one location only. -/
structure SameBut (location : Location) (files after : FileSystem) : Prop where
  workingDirectory : after.workingDirectory = files.workingDirectory
  refusal : after.refusal? = files.refusal?
  lookup : ∀ other, other ≠ location → after.lookup other = files.lookup other

namespace SameBut

theorem refl (files : FileSystem) : SameBut location files files := ⟨rfl, rfl, fun _ _ => rfl⟩

theorem trans (first : SameBut location files now) (second : SameBut location now after) :
    SameBut location files after where
  workingDirectory := second.workingDirectory.trans first.workingDirectory
  refusal := second.refusal.trans first.refusal
  lookup := fun other ne => (second.lookup other ne).trans (first.lookup other ne)

theorem insert (entry : Entry) : SameBut location files (files.insert location entry) :=
  ⟨rfl, rfl, fun _ => lookup_insert_of_ne⟩

/-- A path leads where it led if the location was no directory. -/
theorem resolve (same : SameBut location files after)
    (free : files.lookup location ≠ some .directory)
    (resolved : files.resolve path = .ok other) : after.resolve path = .ok other := by
  refine resolve_of_stay same.workingDirectory (fun here directory => ?_) resolved
  have ne : here ≠ location := by
    rintro rfl
    exact free directory
  exact (same.lookup here ne).trans directory

end SameBut

/-! ## Reading and putting a file -/

theorem read_eq_ok_iff :
    files.read path = .ok bytes ↔
      ∃ location, files.resolve path = .ok location ∧
        files.lookup location = some (.file bytes) := by
  simp only [read, bind_eq_ok_iff]
  refine exists_congr fun location => and_congr_right fun _ => ?_
  cases files.lookup location with
  | none => exact iff_of_false nofun nofun
  | some entry =>
    cases entry with
    | directory => exact iff_of_false nofun nofun
    | file found =>
      change Except.ok found = Except.ok bytes ↔ _
      rw [Except.ok.injEq, Option.some.injEq, Entry.file.injEq]

theorem run_attempt_ok {α : Type} {operation : FileSystem → Except FileError (α × FileSystem)}
    {value : α} (succeeds : operation files = .ok (value, after)) :
    (attempt operation).run files = (.ok value, after) := by
  simp only [attempt, StateT.run_bind, StateT.run_get, pure_bind, succeeds]
  rfl

theorem run_attempt_error {α : Type} {operation : FileSystem → Except FileError (α × FileSystem)}
    {error : FileError} (fails : operation files = .error error) :
    (attempt operation).run files = (.error error, files) := by
  simp only [attempt, StateT.run_bind, StateT.run_get, pure_bind, fails]
  rfl

/-- A file with these contents is at the end of a path, and nothing else changed. -/
def Puts (files : FileSystem) (path : List Char) (bytes : Bytes) (after : FileSystem) : Prop :=
  ∃ location, files.resolve path = .ok location ∧ files.lookup location ≠ some .directory ∧
    SameBut location files after ∧ after.lookup location = some (.file bytes)

/-- What was put at a path can be read there. -/
theorem Puts.read (puts : files.Puts path bytes after) : after.read path = .ok bytes := by
  obtain ⟨location, resolved, free, same, held⟩ := puts
  exact read_eq_ok_iff.2 ⟨location, same.resolve free resolved, held⟩

/-- What is put at a path is already there exactly if nothing changes. -/
theorem Puts.unchanged_iff (puts : files.Puts path bytes after) :
    (∀ location, after.lookup location = files.lookup location) ↔
      files.read path = .ok bytes := by
  obtain ⟨location, resolved, -, same, held⟩ := puts
  rw [read_eq_ok_iff]
  constructor
  · intro unchanged
    exact ⟨location, resolved, unchanged location ▸ held⟩
  · rintro ⟨_, resolved', before⟩ other
    cases resolved.symm.trans resolved'
    by_cases here : other = location
    · rw [here, held, before]
    · exact same.lookup other here

/-- The operating system refuses nothing that is done with a file at the location. -/
def Permits (files : FileSystem) (location : Location) : Prop :=
  ∀ operation, files.refusal? operation location = none

theorem not_permits_of_permit {operation : FileOperation} {error : FileError}
    (refused : files.permit operation location = .error error) : ¬files.Permits location := by
  intro permits
  rw [permit, permits operation] at refused
  cases refused

/-! ## Paths at which nothing can be written -/

theorem exists_create_eq_error {error : FileError} (unresolved : files.resolve path = .error error) :
    ∃ cause, files.create path = .error cause := by
  rw [create, unresolved]
  dsimp only
  split
  · exact ⟨.isADirectory, rfl⟩
  · exact ⟨error, rfl⟩

theorem remove_eq_error_of_directory (resolved : files.resolve path = .ok location)
    (directory : files.lookup location = some .directory) :
    files.remove path = .error .isADirectory := by
  refine bind_eq_error_iff.2 (.inr ⟨location, resolved, ?_⟩)
  rw [directory]
  rfl

/-! ## Open files -/

/-- A file that can be read is opened for reading, behind those that are open. -/
theorem openNamed_eq_ok (resolved : files.resolve path = .ok location)
    (held : files.lookup location = some (.file bytes)) :
    files.openNamed path = .ok (files.opened.length,
      { files with opened := files.opened ++ [.named location] }) := by
  refine bind_eq_ok_iff.2 ⟨location, resolved, ?_⟩
  rw [held]
  rfl

theorem contents_of_named (opened : files.opened[handle]? = some (.named location))
    (held : files.lookup location = some (.file bytes)) : files.contents handle = bytes := by
  rw [contents, opened]
  simp only [held]

theorem exists_openNamed_eq_error {error : FileError}
    (unreadable : files.read path = .error error) :
    ∃ cause, files.openNamed path = .error cause := by
  cases opened : files.openNamed path with
  | error cause => exact ⟨cause, rfl⟩
  | ok outcome =>
    obtain ⟨location, resolved, found⟩ := bind_eq_ok_iff.1 opened
    split at found
    · cases found
    · cases found
    · rename_i held
      have readable := read_eq_ok_iff.2 ⟨location, resolved, held⟩
      cases readable.symm.trans unreadable

/-- An open file has these contents, and what is done at the location is nothing to it. -/
def Shows (files : FileSystem) (location : Location) (handle : Nat) (bytes : Bytes) : Prop :=
  files.opened[handle]? = some (.nameless bytes) ∨
    ∃ here, here ≠ location ∧ files.opened[handle]? = some (.named here) ∧
      files.lookup here = some (.file bytes)

namespace Shows

theorem contents (showing : files.Shows location handle bytes) :
    files.contents handle = bytes := by
  rcases showing with nameless | ⟨here, -, named, held⟩
  · rw [FileSystem.contents, nameless]
  · exact contents_of_named named held

/-- A file under another name is not touched. -/
theorem of_vacant (opened : files.opened[handle]? = some (.named here))
    (held : files.lookup here = some (.file bytes)) (vacant : files.lookup location = none) :
    files.Shows location handle bytes := by
  refine .inr ⟨here, ?_, opened, held⟩
  rintro rfl
  cases held.symm.trans vacant

/-- A file that is removed stays for those who have it open. -/
theorem of_remove (opened : files.opened[handle]? = some (.named here))
    (held : files.lookup here = some (.file bytes))
    (removed : files.lookup location = some (.file data)) :
    Shows { files.erase location with
      opened := files.opened.map (OpenFile.detach location data) } location handle bytes := by
  have detached : (files.opened.map (OpenFile.detach location data))[handle]? =
      some (OpenFile.detach location data (.named here)) := by
    rw [List.getElem?_map, opened, Option.map_some]
  by_cases same : here = location
  · subst same
    cases held.symm.trans removed
    rw [OpenFile.detach, if_pos rfl] at detached
    exact .inl detached
  · rw [OpenFile.detach, if_neg same] at detached
    exact .inr ⟨here, same, detached, (lookup_erase_of_ne same).trans held⟩

theorem of_sameBut (showing : now.Shows location handle bytes)
    (same : SameBut location now after) (opened : after.opened[handle]? = now.opened[handle]?) :
    after.Shows location handle bytes := by
  rcases showing with nameless | ⟨here, ne, named, held⟩
  · exact .inl (opened.trans nameless)
  · exact .inr ⟨here, ne, opened.trans named, (same.lookup here ne).trans held⟩

theorem lt_length (showing : files.Shows location handle bytes) :
    handle < files.opened.length := by
  rcases showing with nameless | ⟨_, -, named, -⟩
  · exact (List.getElem?_eq_some_iff.1 nameless).1
  · exact (List.getElem?_eq_some_iff.1 named).1

end Shows

/-- An output file that is being written at a location, which was no directory: it is open, has
these contents, and is all that changed. Its source, open as `input`, has the contents
`data`. -/
structure Draft (files now : FileSystem) (location : Location) (input : Nat) (data : Bytes)
    (handle : Nat) (bytes : Bytes) : Prop where
  free : files.lookup location ≠ some .directory
  same : SameBut location files now
  source : now.Shows location input data
  opened : now.opened[handle]? = some (.named location)
  held : now.lookup location = some (.file bytes)

namespace Draft

variable (draft : Draft files now location input data handle bytes)
include draft

theorem contents : now.contents handle = bytes :=
  contents_of_named draft.opened draft.held

theorem setContents (others : Bytes) :
    Draft files (now.setContents handle others) location input data handle others := by
  have stored : now.setContents handle others = now.insert location (.file others) := by
    rw [FileSystem.setContents, draft.opened]
  rw [stored]
  exact { draft with
    same := draft.same.trans (SameBut.insert _)
    source := draft.source.of_sameBut (SameBut.insert _) rfl
    held := lookup_insert_self (ne_nil_of_lookup draft.free) }

theorem permitOpen (operation : FileOperation) :
    now.permitOpen operation handle = files.permit operation location := by
  simp only [FileSystem.permitOpen, draft.opened, permit, draft.same.refusal]

/-- What is done with the draft is refused only if something at its location is. -/
theorem not_permits {operation : FileOperation} {error : FileError}
    (refused : now.permitOpen operation handle = .error error) : ¬files.Permits location :=
  not_permits_of_permit (draft.permitOpen operation ▸ refused)

end Draft

/-- What files are open is nothing to what a draft puts at its place. -/
theorem Draft.puts {opened : List OpenFile}
    (draft : Draft { files with opened } now location input data handle bytes)
    (resolved : files.resolve path = .ok location) : files.Puts path bytes now := by
  have same : SameBut location files { files with opened } := ⟨rfl, rfl, fun _ _ => rfl⟩
  exact ⟨location, resolved, draft.free, same.trans draft.same, draft.held⟩

/-! ## The first draft -/

/-- Nothing is at the location, and the source of a dump is open. -/
structure Cleared (files now : FileSystem) (location : Location) (input : Nat) (data : Bytes) :
    Prop where
  same : SameBut location files now
  source : now.Shows location input data
  vacant : now.lookup location = none

/-- A path under which nothing is found has nothing at its place. -/
theorem lookup_eq_none_of_holds (resolved : files.resolve path = .ok location)
    (absent : files.holds path = false) : files.lookup location = none := by
  rw [holds, resolved] at absent
  exact Option.isSome_eq_false_iff.1 absent |> Option.isNone_iff_eq_none.1

/-- What is at a place that is no directory is removed, or may not be. -/
theorem not_permits_of_remove {error : FileError}
    (resolved : files.resolve path = .ok location) (present : files.holds path = true)
    (free : files.lookup location ≠ some .directory)
    (failed : files.remove path = .error error) : ¬files.Permits location := by
  rw [holds, resolved] at present
  obtain ⟨entry, found⟩ := Option.isSome_iff_exists.1 present
  rw [remove, resolved, bind_eq_error_iff] at failed
  obtain ⟨_, same, notRemoved⟩ := failed.resolve_left nofun
  cases same
  rw [found] at notRemoved
  cases entry with
  | directory => exact absurd found free
  | file old =>
    rcases bind_eq_error_iff.1 notRemoved with refused | ⟨_, -, ⟨⟩⟩
    exact not_permits_of_permit refused

/-- A file that is removed leaves its place clear, also if it is the source. -/
theorem cleared_of_remove {value : Unit} (opened : files.opened[input]? = some (.named here))
    (source : files.lookup here = some (.file data))
    (resolved : files.resolve path = .ok location)
    (free : files.lookup location ≠ some .directory)
    (removed : files.remove path = .ok (value, after)) :
    Cleared files after location input data := by
  simp only [remove, bind_eq_ok_iff] at removed
  obtain ⟨_, resolved', removed⟩ := removed
  cases resolved.symm.trans resolved'
  cases found : files.lookup location with
  | none =>
    rw [found] at removed
    cases removed
  | some entry =>
    cases entry with
    | directory => exact absurd found free
    | file old =>
      rw [found] at removed
      obtain ⟨_, -, ⟨⟩⟩ := bind_eq_ok_iff.1 removed
      exact {
        same := ⟨rfl, rfl, fun _ => lookup_erase_of_ne⟩
        source := Shows.of_remove opened source found
        vacant := lookup_erase_self (ne_nil_of_lookup free) }

namespace Cleared

variable (cleared : Cleared files now location input data)
  (resolved : files.resolve path = .ok location)
  (free : files.lookup location ≠ some .directory)
include cleared resolved free

theorem create_eq : now.create path = do
    now.permit .create location
    return (now.opened.length, { now.insert location (.file []) with
      opened := now.opened ++ [.named location] }) := by
  have vacant : now.lookup location ≠ some .directory := by
    rw [cleared.vacant]
    nofun
  rw [create, cleared.same.resolve free resolved]
  exact if_neg vacant

theorem not_permits_of_create {error : FileError} (failed : now.create path = .error error) :
    ¬files.Permits location := by
  rw [cleared.create_eq resolved free] at failed
  rcases bind_eq_error_iff.1 failed with refused | ⟨_, -, ⟨⟩⟩
  rw [Permits, ← cleared.same.refusal]
  exact not_permits_of_permit refused

/-- The new file is empty, and none that was open. -/
theorem draft_of_create (created : now.create path = .ok (handle, after)) :
    Draft files after location input data handle [] := by
  rw [cleared.create_eq resolved free] at created
  obtain ⟨_, -, ⟨⟩⟩ := bind_eq_ok_iff.1 created
  have inserted : SameBut location now (now.insert location (.file [])) := SameBut.insert _
  have same : SameBut location now { now.insert location (.file []) with
      opened := now.opened ++ [.named location] } := { inserted with }
  constructor
  case free => exact free
  case same => exact cleared.same.trans same
  case source =>
    exact cleared.source.of_sameBut same (List.getElem?_append_left cleared.source.lt_length)
  case opened => exact List.getElem?_concat_length
  case held => exact lookup_insert_self (ne_nil_of_lookup free)

end Cleared
end ImageDump.FileSystem
