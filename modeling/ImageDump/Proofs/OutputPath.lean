import ImageDump.File.Path
import ImageDump.Proofs.Text

/-!
# The extension of an output path

The extension of a path is looked for in its last component, while a missing one is
appended to the text of the path. Both mean the same component unless the path is empty or
ends in a slash: then what is appended becomes a component of its own, whose only dot is its
first character, and that has no extension (`Path.extension?_append`). In all other cases
normalizing a path gives it the extension of executables, and then leaves it alone
(`Path.extension_normalize_iff`).
-/

namespace ImageDump

/-! ## The extension of a path -/

namespace Path

variable {path name suffix extension : List Char}

theorem nameExtension?_append (plain : '.' ∉ extension) :
    nameExtension? (name ++ '.' :: extension) = if name = [] then none else some extension := by
  have reversed : '.' ∉ extension.reverse := fun mem => plain (List.mem_reverse.1 mem)
  have reverse_eq : (name ++ '.' :: extension).reverse =
      extension.reverse ++ '.' :: name.reverse := by
    simp only [List.reverse_append, List.reverse_cons, List.append_assoc, List.singleton_append]
  rw [nameExtension?, reverse_eq, Text.dropWhile_append_cons reversed,
    Text.takeWhile_append_cons reversed, List.reverse_reverse]
  cases back : name.reverse with
  | nil => rw [if_pos (List.reverse_eq_nil_iff.1 back)]
  | cons c rest =>
    have nonempty : name ≠ [] := by
      rintro rfl
      cases back
    rw [if_neg nonempty]

/-- What is appended to a path without a slash continues its last component, even if that is
an empty one. -/
theorem fileName?_append (plain : '/' ∉ suffix) (long : 2 < suffix.length) :
    fileName? (path ++ suffix) = some (Text.lastPiece '/' path ++ suffix) := by
  have last := Text.getLast?_splitAll '/' (path ++ suffix)
  rw [Text.lastPiece_append plain, List.getLast?_eq_some_iff] at last
  obtain ⟨front, pieces⟩ := last
  have length : 2 < (Text.lastPiece '/' path ++ suffix).length := by
    rw [List.length_append]
    omega
  -- it is longer than the components that name nothing or a parent directory
  have named (short : List Char) (le : short.length ≤ 2) :
      Text.lastPiece '/' path ++ suffix ≠ short := by
    rintro rfl
    exact Nat.not_le_of_lt length le
  have kept : components (path ++ suffix) =
      front.filter (fun component => component ≠ [] && component ≠ ['.']) ++
        [Text.lastPiece '/' path ++ suffix] := by
    rw [components, pieces, List.filter_append]
    simp [named [] (Nat.zero_le _), named ['.'] (by decide)]
  rw [fileName?, kept, List.getLast?_concat]
  simp [named ['.', '.'] (Nat.le_refl _)]

/-- The extension that is appended to a path is its extension, unless the path is empty or
ends in a slash. -/
theorem extension?_append (slashless : '/' ∉ extension) (dotless : '.' ∉ extension)
    (long : 2 ≤ extension.length) :
    extension? (path ++ '.' :: extension) =
      if path = [] ∨ path.getLast? = some '/' then none else some extension := by
  have plain : '/' ∉ '.' :: extension := by simp [slashless]
  rw [extension?, fileName?_append plain (by rw [List.length_cons]; omega), Option.bind_some,
    nameExtension?_append dotless]
  simp only [Text.lastPiece_eq_nil_iff]

/-! ## Normalized paths -/

/-- The path has the extension of executables in some mix of cases. -/
def HasExecutableExtension (path : List Char) : Prop :=
  ∃ extension, extension? path = some extension ∧
    extension.map Char.toLower = executableExtension

theorem isExecutable_eq_true_iff : isExecutable path = true ↔ HasExecutableExtension path := by
  unfold isExecutable HasExecutableExtension
  cases extension? path with
  | none => simp
  | some extension => simp

instance (path : List Char) : Decidable (HasExecutableExtension path) :=
  decidable_of_iff _ isExecutable_eq_true_iff

/-- Normalizing gives a path the extension of executables, unless no name stands in front of
what is appended. -/
theorem hasExecutableExtension_normalizeChars :
    HasExecutableExtension (normalizeChars path) ↔
      HasExecutableExtension path ∨ ¬(path = [] ∨ path.getLast? = some '/') := by
  by_cases executable : HasExecutableExtension path
  · rw [normalizeChars, if_pos (isExecutable_eq_true_iff.2 executable)]
    simp only [executable, true_or]
  · rw [normalizeChars, if_neg (mt isExecutable_eq_true_iff.1 executable)]
    simp only [executable, false_or]
    rw [HasExecutableExtension, extension?_append (by decide) (by decide) (by decide)]
    split
    · rename_i unnamed
      exact ⟨nofun, fun named => absurd unnamed named⟩
    · rename_i named
      exact ⟨fun _ => named, fun _ => ⟨executableExtension, rfl, by decide⟩⟩

theorem normalizeChars_eq_self_iff : normalizeChars path = path ↔ HasExecutableExtension path := by
  rw [normalizeChars, ← isExecutable_eq_true_iff]
  split
  · rename_i executable
    exact ⟨fun _ => executable, fun _ => rfl⟩
  · rename_i other
    exact ⟨fun same => absurd same (by simp), fun executable => absurd executable other⟩

/-- **Extension of a normalized path.** A normalized path has the extension of executables,
and normalizing it again changes nothing, exactly if the path had that extension before or is
neither empty nor ends in a slash. A path with the extension stays as it is. -/
theorem extension_normalize_iff (path : String) :
    (HasExecutableExtension (normalize path).toList ↔
      HasExecutableExtension path.toList ∨
        ¬(path.toList = [] ∨ path.toList.getLast? = some '/')) ∧
    (normalize (normalize path) = normalize path ↔
      HasExecutableExtension path.toList ∨
        ¬(path.toList = [] ∨ path.toList.getLast? = some '/')) ∧
    (HasExecutableExtension path.toList → normalize path = path) := by
  have chars : (normalize path).toList = normalizeChars path.toList := String.toList_ofList
  refine ⟨?extension, ?again, fun executable => ?kept⟩
  case extension => rw [chars, hasExecutableExtension_normalizeChars]
  case again =>
    rw [← hasExecutableExtension_normalizeChars, ← normalizeChars_eq_self_iff, ← String.toList_inj,
      ← chars, normalize, String.toList_ofList]
  case kept =>
    rw [← String.toList_inj, chars]
    exact normalizeChars_eq_self_iff.2 executable

/-- A name with another extension, and one with the extension in capitals. -/
theorem extension_normalize_names :
    HasExecutableExtension (normalize "a.b/out.bin").toList ∧
      normalize (normalize "a.b/out.bin") = normalize "a.b/out.bin" ∧
      HasExecutableExtension "a/out.EXE/.".toList ∧ normalize "a/out.EXE/." = "a/out.EXE/." := by
  obtain ⟨extension, again, -⟩ := extension_normalize_iff "a.b/out.bin"
  have executable : HasExecutableExtension "a/out.EXE/.".toList := by decide
  exact ⟨extension.2 (.inr (by decide)), again.2 (.inr (by decide)), executable,
    (extension_normalize_iff "a/out.EXE/.").2.2 executable⟩

/-- A path to a directory gets a name without an extension, and then another one. -/
theorem not_extension_normalize_slash :
    ¬HasExecutableExtension (normalize "a/").toList ∧ normalize "a/" = "a/.exe" ∧
      normalize (normalize "a/") = "a/.exe.exe" := by
  decide +kernel

end Path
end ImageDump
