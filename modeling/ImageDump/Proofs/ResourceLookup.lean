import ImageDump.Proofs.Text
import ImageDump.Resource.Database

/-!
# Looking up a setting

A database that is made of texts answers like a search through their entries: first those of
the overrides, once for the name and once for the class, then in the same way those of each
store, and last the defaults for the name alone. The first entry with the name that is asked
for, in any case, gives the value (`ResourceDatabase.lookup_eq_firstMatch`).

A store keeps folded names, and of each name the first value only. What it answers after all
insertions follows from what one insertion does to an answer (`ResourceStore.get?_insert`): it
gives a value where there was none before, and only for its own name.
-/

namespace ImageDump

namespace ResourceStore

variable {store : ResourceStore} {key name other value text more : String}
  {entries others : List (String × String)}

/-! ## The entries of a text -/

/-- Lines and the entries that they spell. A line with a colon is an entry, whose name ends at
the first colon, and a line without one is none. -/
inductive LinesSpell : List (List Char) → List (String × String) → Prop
  | nil : LinesSpell [] []
  | entry {name value : String} {lines : List (List Char)} {entries : List (String × String)} :
    ':' ∉ name.toList → LinesSpell lines entries →
    LinesSpell ((name.toList ++ ':' :: value.toList) :: lines) ((name, value) :: entries)
  | other {line : List Char} {lines : List (List Char)} {entries : List (String × String)} :
    ':' ∉ line → LinesSpell lines entries → LinesSpell (line :: lines) entries

/-- The entry that a line spells, if it has a colon. -/
def entryOf? (line : List Char) : Option (String × String) :=
  (Text.splitFirst? ':' line).map fun (name, value) => (String.ofList name, String.ofList value)

theorem textEntries_eq (text : String) :
    textEntries text = (Text.lines text.toList).filterMap entryOf? := rfl

theorem entryOf?_append_cons (plain : ':' ∉ name.toList) :
    entryOf? (name.toList ++ ':' :: value.toList) = some (name, value) := by
  rw [entryOf?, Text.splitFirst?_eq_some_iff.2 ⟨rfl, plain⟩, Option.map_some]
  simp only [String.ofList_toList]

theorem entryOf?_of_not_mem {line : List Char} (plain : ':' ∉ line) :
    entryOf? line = none := by
  rw [entryOf?, Text.splitFirst?_eq_none_iff.2 plain, Option.map_none]

theorem filterMap_entryOf?_eq_iff {lines : List (List Char)} :
    lines.filterMap entryOf? = entries ↔ LinesSpell lines entries := by
  constructor
  · rintro rfl
    induction lines with
    | nil => exact .nil
    | cons line lines ih =>
      by_cases mem : ':' ∈ line
      · obtain ⟨name, value, rfl, plain⟩ := List.eq_append_cons_of_mem mem
        rw [← String.toList_ofList (l := name)] at plain ⊢
        rw [← String.toList_ofList (l := value),
          List.filterMap_cons_some (entryOf?_append_cons plain)]
        exact .entry plain ih
      · rw [List.filterMap_cons_none (entryOf?_of_not_mem mem)]
        exact .other mem ih
  · intro spell
    induction spell with
    | nil => rfl
    | entry plain _ ih => rw [List.filterMap_cons_some (entryOf?_append_cons plain), ih]
    | other plain _ ih => rw [List.filterMap_cons_none (entryOf?_of_not_mem plain), ih]

/-- The entries of a text are what its lines spell. -/
theorem textEntries_eq_iff : textEntries text = entries ↔
    ∃ lines, Text.HasLines text.toList lines ∧ LinesSpell lines entries := by
  simp only [← Text.lines_eq_iff, exists_eq_left', ← filterMap_entryOf?_eq_iff, textEntries_eq]

theorem textEntries_append (ended : text.toList.getLast? = some '\n') :
    textEntries (text ++ more) = textEntries text ++ textEntries more := by
  rw [textEntries_eq, String.toList_append, Text.lines_append ended, List.filterMap_append,
    ← textEntries_eq, ← textEntries_eq]

/-! ## What a store answers -/

/-- The value of the first entry with a name, in any case. -/
def firstValue? (name : String) (entries : List (String × String)) : Option String :=
  (entries.find? fun entry => EqIgnoringCase entry.1 name).map (·.2)

theorem firstValue?_append :
    firstValue? name (entries ++ others) =
      (firstValue? name entries).or (firstValue? name others) := by
  rw [firstValue?, List.find?_append, Option.map_or, firstValue?, firstValue?]

theorem firstValue?_cons :
    firstValue? name ((key, value) :: entries) =
      (if EqIgnoringCase key name then some value else none).or (firstValue? name entries) := by
  by_cases same : EqIgnoringCase key name <;> simp [firstValue?, same]

theorem get?_congr (same : EqIgnoringCase name other) : store.get? name = store.get? other := by
  rw [get?, get?, foldCase_eq_iff.2 same]

/-- An insertion gives its value to a name without one, if it is the same name in any case. -/
theorem get?_insert :
    (store.insert key value).get? name =
      (store.get? name).or (if EqIgnoringCase key name then some value else none) := by
  rw [insert]
  split
  · rename_i present
    by_cases same : EqIgnoringCase key name
    · -- the name has a value, which stays
      rw [get?_congr same] at present
      obtain ⟨former, found⟩ := Option.isSome_iff_exists.1 present
      rw [found, Option.some_or]
    · rw [if_neg same, Option.or_none]
  · rw [get?, get?, List.lookup_append, List.lookup_cons, List.lookup_nil, beq_eq_decide]
    simp only [eq_comm (a := foldCase name), foldCase_eq_iff]
    by_cases same : EqIgnoringCase key name <;> simp [same]

theorem insertAll_cons {entry : String × String} :
    store.insertAll (entry :: entries) = (store.insert entry.1 entry.2).insertAll entries := rfl

theorem get?_insertAll :
    (store.insertAll entries).get? name = (store.get? name).or (firstValue? name entries) := by
  induction entries generalizing store with
  | nil => exact (Option.or_none).symm
  | cons entry entries ih =>
    obtain ⟨key, value⟩ := entry
    rw [insertAll_cons, ih, get?_insert, firstValue?_cons, Option.or_assoc]

theorem get?_insertAll_empty :
    (empty.insertAll entries).get? name = firstValue? name entries := by
  rw [get?_insertAll]
  exact Option.none_or

theorem get?_ofText : (ofText text).get? name = firstValue? name (textEntries text) :=
  get?_insertAll_empty

/-- Lines appended behind a line feed change no answer that there is. -/
theorem get?_ofText_append (ended : text.toList.getLast? = some '\n')
    (found : (ofText text).get? name = some value) :
    (ofText (text ++ more)).get? name = some value := by
  rw [get?_ofText] at found ⊢
  rw [textEntries_append ended, firstValue?_append, found, Option.some_or]

/-! ## Names in another case -/

/-- The same names but for their case, with the same values. -/
def SameEntries (entries others : List (String × String)) : Prop :=
  List.Forall₂ (fun entry other => EqIgnoringCase entry.1 other.1 ∧ entry.2 = other.2)
    entries others

instance (entries others : List (String × String)) : Decidable (SameEntries entries others) :=
  inferInstanceAs (Decidable (List.Forall₂ _ entries others))

theorem insert_congr (same : EqIgnoringCase name other) :
    store.insert name value = store.insert other value := by
  rw [insert, insert, get?_congr same, foldCase_eq_iff.2 same]

theorem insertAll_congr (same : SameEntries entries others) :
    store.insertAll entries = store.insertAll others := by
  induction same generalizing store with
  | nil => rfl
  | cons same _ ih => rw [insertAll_cons, insertAll_cons, insert_congr same.1, same.2, ih]

theorem ofText_congr (same : SameEntries (textEntries text) (textEntries other)) :
    ofText text = ofText other :=
  insertAll_congr same

end ResourceStore

namespace ResourceDatabase

open ResourceStore (SameEntries firstValue? textEntries LinesSpell)

variable {application application' overrides overrides' name name' className className' : String}
  {stores stores' : List String} {inhibited : Bool}

/-! ## The order of the search -/

/-- The database of an application with the overrides and stores that texts spell. -/
def ofTexts (application overrides : String) (stores : List String) (inhibited : Bool) :
    ResourceDatabase :=
  { ofApplication application with
    overrides := .ofText overrides
    stores := stores.map .ofText
    inhibited }

/-- An entry that is looked at for a name or class that is asked for. -/
structure Candidate where
  asked : String
  name : String
  value : String

/-- The entry has the name that is asked for, in any case. -/
def Candidate.Matches (candidate : Candidate) : Prop :=
  EqIgnoringCase candidate.name candidate.asked

instance (candidate : Candidate) : Decidable candidate.Matches :=
  inferInstanceAs (Decidable (EqIgnoringCase _ _))

/-- Look at entries for what is asked for. -/
def ask (asked : String) (entries : List (String × String)) : List Candidate :=
  entries.map fun (name, value) => { asked, name, value }

/-- The default settings of an application, by their full names. -/
def defaultEntries (application : String) : List (String × String) :=
  defaultResources.map fun (name, value) => (application ++ "." ++ name, value)

theorem ofApplication_eq (application : String) :
    ofApplication application =
      { defaults := ResourceStore.empty.insertAll (defaultEntries application) } := rfl

/-- Everything that is looked at for a setting, in order. -/
def searchOrder (application overrides : String) (stores : List String) (inhibited : Bool)
    (name className : String) : List Candidate :=
  let askText text := ask name (textEntries text) ++ ask className (textEntries text)
  askText overrides ++
    if inhibited then []
    else stores.flatMap askText ++ ask name (defaultEntries application)

/-- The value of the first candidate that matches. -/
def firstMatch? (candidates : List Candidate) : Option String :=
  (candidates.find? (·.Matches)).map (·.value)

variable {candidates others : List Candidate}

theorem firstMatch?_append :
    firstMatch? (candidates ++ others) = (firstMatch? candidates).or (firstMatch? others) := by
  rw [firstMatch?, List.find?_append, Option.map_or, firstMatch?, firstMatch?]

theorem firstMatch?_flatMap {texts : List String} {candidates : String → List Candidate} :
    firstMatch? (texts.flatMap candidates) = texts.findSome? (firstMatch? <| candidates ·) := by
  rw [firstMatch?, List.find?_flatMap, List.map_findSome?]
  rfl

theorem firstMatch?_ask {asked : String} {entries : List (String × String)} :
    firstMatch? (ask asked entries) = firstValue? asked entries := by
  rw [firstMatch?, ask, List.find?_map, Option.map_map]
  rfl

/-- A store is asked like its text. -/
theorem askStore_ofText {text : String} :
    askStore (.ofText text) name className =
      firstMatch? (ask name (textEntries text) ++ ask className (textEntries text)) := by
  rw [firstMatch?_append, firstMatch?_ask, firstMatch?_ask, askStore, ResourceStore.get?_ofText,
    ResourceStore.get?_ofText]

theorem get?_defaults :
    (ofApplication application).defaults.get? name =
      firstMatch? (ask name (defaultEntries application)) := by
  rw [firstMatch?_ask, ofApplication_eq, ResourceStore.get?_insertAll_empty]

theorem lookup_ofTexts :
    (ofTexts application overrides stores inhibited).lookup name className =
      firstMatch? (searchOrder application overrides stores inhibited name className) := by
  rw [searchOrder, firstMatch?_append, ← askStore_ofText, lookup, ofTexts]
  cases inhibited with
  | true => rfl
  | false =>
    simp only [Bool.false_eq_true, if_false, List.findSome?_map, Function.comp_def,
      askStore_ofText, firstMatch?_append, firstMatch?_flatMap, get?_defaults]

/-! ## Databases that answer alike -/

theorem foldCase_append (text other : String) :
    foldCase (text ++ other) = foldCase text ++ foldCase other := by
  rw [foldCase, String.toList_append, List.map_append, String.ofList_append, foldCase, foldCase]

theorem ofApplication_congr (same : EqIgnoringCase application application') :
    ofApplication application = ofApplication application' := by
  have entries : SameEntries (defaultEntries application) (defaultEntries application') := by
    rw [SameEntries, defaultEntries, defaultEntries, List.forall₂_map_left_iff,
      List.forall₂_map_right_iff, List.forall₂_same]
    rintro ⟨name, value⟩ -
    refine ⟨foldCase_eq_iff.1 ?_, rfl⟩
    rw [foldCase_append, foldCase_append, foldCase_eq_iff.2 same, foldCase_append, foldCase_append]
  rw [ofApplication_eq, ofApplication_eq, ResourceStore.insertAll_congr entries]

/-- Texts that spell the same names but for their case make the same database. -/
theorem ofTexts_congr (sameApplication : EqIgnoringCase application application')
    (sameOverrides : SameEntries (textEntries overrides) (textEntries overrides'))
    (sameStores : List.Forall₂ (fun text other => SameEntries (textEntries text) (textEntries other))
      stores stores') :
    ofTexts application overrides stores inhibited =
      ofTexts application' overrides' stores' inhibited := by
  have storesEq : stores.map ResourceStore.ofText = stores'.map ResourceStore.ofText := by
    induction sameStores with
    | nil => rfl
    | cons same _ ih => rw [List.map_cons, List.map_cons, ResourceStore.ofText_congr same, ih]
  rw [ofTexts, ofTexts, ofApplication_congr sameApplication,
    ResourceStore.ofText_congr sameOverrides, storesEq]

theorem lookup_congr {database : ResourceDatabase} (sameName : EqIgnoringCase name name')
    (sameClass : EqIgnoringCase className className') :
    database.lookup name className = database.lookup name' className' := by
  have asked (store : ResourceStore) :
      askStore store name className = askStore store name' className' := by
    rw [askStore, askStore, ResourceStore.get?_congr sameName, ResourceStore.get?_congr sameClass]
  simp only [lookup, asked, ResourceStore.get?_congr sameName]

theorem lookup_of_inhibited {database : ResourceDatabase} (inhibited : database.inhibited = true) :
    database.lookup name className = askStore database.overrides name className := by
  rw [lookup, inhibited]
  exact Option.or_none

/-- **Looking up a setting.** In a database that is made of texts a setting has the value of
the first candidate that matches, in the order of the search, and no value if none does. The
entries of a text are what its lines spell. Hence the case of what is asked for, of the
application and of the names in the texts does not matter, lines appended behind a line feed
change no answer of a store that had one, and while the stores are inhibited the overrides
alone decide. -/
theorem lookup_eq_firstMatch (application overrides : String) (stores : List String)
    (inhibited : Bool) (name className : String) :
    (ofTexts application overrides stores inhibited).lookup name className =
        firstMatch? (searchOrder application overrides stores inhibited name className) ∧
      (∀ text entries, textEntries text = entries ↔
        ∃ lines, Text.HasLines text.toList lines ∧ LinesSpell lines entries) ∧
      (∀ application' overrides' stores' name' className',
        EqIgnoringCase application application' →
        SameEntries (textEntries overrides) (textEntries overrides') →
        List.Forall₂ (fun text other => SameEntries (textEntries text) (textEntries other))
          stores stores' →
        EqIgnoringCase name name' → EqIgnoringCase className className' →
        (ofTexts application overrides stores inhibited).lookup name className =
          (ofTexts application' overrides' stores' inhibited).lookup name' className') ∧
      (∀ text more key value, text.toList.getLast? = some '\n' →
        (ResourceStore.ofText text).get? key = some value →
        (ResourceStore.ofText (text ++ more)).get? key = some value) ∧
      (∀ first second : ResourceDatabase, first.overrides = second.overrides →
        first.inhibited = true → second.inhibited = true →
        first.lookup name className = second.lookup name className) := by
  refine ⟨lookup_ofTexts, fun text entries => ResourceStore.textEntries_eq_iff, ?cases,
    fun text more key value => ResourceStore.get?_ofText_append, ?alone⟩
  case cases =>
    intro application' overrides' stores' name' className' sameApplication sameOverrides
      sameStores sameName sameClass
    rw [ofTexts_congr sameApplication sameOverrides sameStores, lookup_congr sameName sameClass]
  case alone =>
    intro first second sameOverrides firstInhibited secondInhibited
    rw [lookup_of_inhibited firstInhibited, lookup_of_inhibited secondInhibited, sameOverrides]

/-- A name that the second store has, asked for in capitals; the same with the application and
the names of the texts in other cases; a second value for a name; and stores that differ, but
are not asked. -/
theorem lookup_eq_firstMatch_cursorColor :
    (ofTexts "emacs" "Cursor:Blue\r\nno entry" ["", "emacs.cursorColor:Red:Dark\n"] false).lookup
        "EMACS.CURSORCOLOR" "Font" = some "Red:Dark" ∧
      (ofTexts "Emacs" "cursor:Blue" ["x", "EMACS.CursorColor:Red:Dark"] false).lookup
        "emacs.cursorcolor" "font" = some "Red:Dark" ∧
      (ResourceStore.ofText ("a.b:1\n" ++ "A.B:2")).get? "A.b" = some "1" ∧
      (ofTexts "emacs" "FONT:Mono" ["EMACS.cursorColor:Red"] true).lookup
        "EMACS.CURSORCOLOR" "Font" = some "Mono" := by
  obtain ⟨found, -, cases, appended, alone⟩ := lookup_eq_firstMatch "emacs"
    "Cursor:Blue\r\nno entry" ["", "emacs.cursorColor:Red:Dark\n"] false
    "EMACS.CURSORCOLOR" "Font"
  have red : firstMatch? (searchOrder "emacs" "Cursor:Blue\r\nno entry"
      ["", "emacs.cursorColor:Red:Dark\n"] false "EMACS.CURSORCOLOR" "Font") =
        some "Red:Dark" := by
    decide +kernel
  have sameCases := cases "Emacs" "cursor:Blue" ["x", "EMACS.CursorColor:Red:Dark"]
    "emacs.cursorcolor" "font" (by decide +kernel) (by decide +kernel) (by decide +kernel)
    (by decide +kernel) (by decide +kernel)
  have sameOverrides := alone (ofTexts "emacs" "FONT:Mono" ["EMACS.cursorColor:Red"] true)
    (ofTexts "x" "Font:Mono" [] true) (by decide +kernel) rfl rfl
  exact ⟨found.trans red, sameCases.symm.trans (found.trans red),
    appended "a.b:1\n" "A.B:2" "A.b" "1" (by decide) (by decide +kernel),
    sameOverrides.trans (by decide +kernel)⟩

end ResourceDatabase
end ImageDump
