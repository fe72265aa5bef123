import ImageDump.Text.Case
import ImageDump.Text.Split
import Mathlib.Data.List.Forall2

/-!
# Texts

What splitting a text gives, said of the text and not of the search for separators. A text is
split at its first separator into what has none and the rest (`Text.splitFirst?_eq_some_iff`),
and at all separators piece by piece. The lines of a text are those of the part up to a line
feed followed by those of the part behind it (`Text.lines_append_cons`), and they are the only
ones that `Text.HasLines` allows (`Text.lines_eq_iff`).

Two texts fold to the same text exactly if they differ at most in the case of ASCII letters
(`foldCase_eq_iff`).
-/

namespace ImageDump

namespace Text

variable {separator : Char} {front last text suffix : List Char}

/-! ## The first separator -/

theorem passes_of_not_mem (plain : separator ∉ front) :
    ∀ c ∈ front, decide (c ≠ separator) = true := by
  intro c mem
  rw [decide_eq_true_eq]
  rintro rfl
  exact plain mem

theorem takeWhile_append_cons (plain : separator ∉ front) :
    (front ++ separator :: last).takeWhile (· ≠ separator) = front := by
  rw [List.takeWhile_append_of_pos (passes_of_not_mem plain),
    List.takeWhile_cons_of_neg (by simp), List.append_nil]

theorem dropWhile_append_cons (plain : separator ∉ front) :
    (front ++ separator :: last).dropWhile (· ≠ separator) = separator :: last := by
  rw [List.dropWhile_append_of_pos (passes_of_not_mem plain),
    List.dropWhile_cons_of_neg (by simp)]

theorem dropWhile_of_not_mem (plain : separator ∉ text) : text.dropWhile (· ≠ separator) = [] := by
  rw [← List.append_nil text, List.dropWhile_append_of_pos (passes_of_not_mem plain),
    List.dropWhile_nil]

/-- A text is split at its first separator, so that nothing before it is one. -/
theorem splitFirst?_eq_some_iff :
    splitFirst? separator text = some (front, last) ↔
      text = front ++ separator :: last ∧ separator ∉ front := by
  constructor
  · intro split
    by_cases mem : separator ∈ text
    · obtain ⟨before, after, rfl, plain⟩ := List.eq_append_cons_of_mem mem
      rw [splitFirst?, dropWhile_append_cons plain, takeWhile_append_cons plain] at split
      cases split
      exact ⟨rfl, plain⟩
    · rw [splitFirst?, dropWhile_of_not_mem mem] at split
      cases split
  · rintro ⟨rfl, plain⟩
    rw [splitFirst?, dropWhile_append_cons plain, takeWhile_append_cons plain]

theorem splitFirst?_eq_none_iff : splitFirst? separator text = none ↔ separator ∉ text := by
  constructor
  · intro whole mem
    obtain ⟨front, last, rfl, plain⟩ := List.eq_append_cons_of_mem mem
    rw [splitFirst?_eq_some_iff.2 ⟨rfl, plain⟩] at whole
    cases whole
  · intro plain
    rw [splitFirst?, dropWhile_of_not_mem plain]

/-! ## All separators -/

/-- What follows the last separator. -/
def lastPiece (separator : Char) (text : List Char) : List Char :=
  (text.reverse.takeWhile (· ≠ separator)).reverse

/-- What is appended without a separator continues the last piece. -/
theorem lastPiece_append (plain : separator ∉ suffix) :
    lastPiece separator (text ++ suffix) = lastPiece separator text ++ suffix := by
  have reversed : separator ∉ suffix.reverse := fun mem => plain (List.mem_reverse.1 mem)
  rw [lastPiece, List.reverse_append,
    List.takeWhile_append_of_pos (passes_of_not_mem reversed), List.reverse_append,
    List.reverse_reverse, lastPiece]

theorem lastPiece_of_not_mem (plain : separator ∉ text) : lastPiece separator text = text := by
  have appended : lastPiece separator ([] ++ text) = lastPiece separator [] ++ text :=
    lastPiece_append plain
  exact appended

theorem lastPiece_append_cons (plain : separator ∉ last) :
    lastPiece separator (front ++ separator :: last) = last := by
  have reversed : separator ∉ last.reverse := fun mem => plain (List.mem_reverse.1 mem)
  have reverse_eq : (front ++ separator :: last).reverse =
      last.reverse ++ separator :: front.reverse := by
    simp only [List.reverse_append, List.reverse_cons, List.append_assoc, List.singleton_append]
  rw [lastPiece, reverse_eq, takeWhile_append_cons reversed, List.reverse_reverse]

theorem lastPiece_eq_nil_iff :
    lastPiece separator text = [] ↔ text = [] ∨ text.getLast? = some separator := by
  have empty : text = [] ↔ text.reverse = [] := List.reverse_eq_nil_iff.symm
  rw [lastPiece, List.reverse_eq_nil_iff, empty, ← List.head?_reverse]
  cases text.reverse with
  | nil => simp
  | cons c rest => simp [List.takeWhile_cons]

theorem splitAll_ne_nil (text : List Char) : splitAll separator text ≠ [] := by
  cases text with
  | nil => exact List.cons_ne_nil _ _
  | cons c rest =>
    rw [splitAll]
    split
    · exact List.cons_ne_nil _ _
    · split <;> exact List.cons_ne_nil _ _

theorem splitAll_of_not_mem (plain : separator ∉ text) : splitAll separator text = [text] := by
  induction text with
  | nil => rfl
  | cons c rest ih =>
    rw [List.mem_cons, not_or] at plain
    rw [splitAll, if_neg (Ne.symm plain.1), ih plain.2]

/-- A text is split before and behind a separator. -/
theorem splitAll_append_cons :
    splitAll separator (front ++ separator :: last) =
      splitAll separator front ++ splitAll separator last := by
  induction front with
  | nil => simp [splitAll]
  | cons c front ih =>
    rw [List.cons_append, splitAll, splitAll, ih]
    split
    · rfl
    · cases pieces : splitAll separator front with
      | nil => exact absurd pieces (splitAll_ne_nil front)
      | cons piece pieces => rfl

theorem getLast?_splitAll (separator : Char) (text : List Char) :
    (splitAll separator text).getLast? = some (lastPiece separator text) := by
  by_cases mem : separator ∈ text
  · -- the first separator of the reversed text is the last one
    obtain ⟨back, front, reversed, plain⟩ := List.eq_append_cons_of_mem (List.mem_reverse.2 mem)
    have splits : text = front.reverse ++ separator :: back.reverse := by
      rw [← List.reverse_reverse text, reversed]
      simp only [List.reverse_append, List.reverse_cons, List.append_assoc, List.singleton_append]
    have plainBack : separator ∉ back.reverse := fun mem => plain (List.mem_reverse.1 mem)
    rw [splits, splitAll_append_cons, splitAll_of_not_mem plainBack,
      lastPiece_append_cons plainBack, List.getLast?_concat]
  · rw [splitAll_of_not_mem mem, lastPiece_of_not_mem mem]
    rfl

/-! ## Lines -/

/-- What stands before a line feed is the lines of that part, each without its carriage
return, and what stands behind it is read on its own. -/
theorem lines_append_cons :
    lines (front ++ '\n' :: last) = (splitAll '\n' front).map dropReturn ++ lines last := by
  have unfinished : (splitAll '\n' front ++ splitAll '\n' last).getLast? =
      (splitAll '\n' last).getLast? := by
    rw [List.getLast?_append, getLast?_splitAll, Option.some_or]
  rw [lines, lines, splitAll_append_cons, unfinished,
    List.dropLast_append_of_ne_nil (splitAll_ne_nil last), List.map_append, List.append_assoc]

/-- Lines appended behind a line feed leave the lines before it as they are. -/
theorem lines_append (ended : front.getLast? = some '\n') :
    lines (front ++ suffix) = lines front ++ lines suffix := by
  obtain ⟨body, rfl⟩ := List.getLast?_eq_some_iff.1 ended
  have alone : lines (body ++ ['\n']) = (splitAll '\n' body).map dropReturn := by
    rw [lines_append_cons]
    exact List.append_nil _
  rw [List.append_assoc, List.singleton_append, lines_append_cons, alone]

theorem lines_of_not_mem (plain : '\n' ∉ text) (nonempty : text ≠ []) : lines text = [text] := by
  simp [lines, splitAll_of_not_mem plain, nonempty]

/-- A text and its lines. A line ends with a line feed, or with a carriage return and a line
feed, and what is left behind the last line feed is a line if there is anything. -/
inductive HasLines : List Char → List (List Char) → Prop
  | empty : HasLines [] []
  | unfinished {line : List Char} : line ≠ [] → '\n' ∉ line → HasLines line [line]
  | lineFeed {line rest : List Char} {others : List (List Char)} :
    '\n' ∉ line → line.getLast? ≠ some '\r' → HasLines rest others →
    HasLines (line ++ '\n' :: rest) (line :: others)
  | returnLineFeed {line rest : List Char} {others : List (List Char)} :
    '\n' ∉ line → HasLines rest others →
    HasLines (line ++ '\r' :: '\n' :: rest) (line :: others)

theorem HasLines.lines_eq {found : List (List Char)} (has : HasLines text found) :
    lines text = found := by
  induction has with
  | empty => rfl
  | unfinished nonempty plain => exact lines_of_not_mem plain nonempty
  | @lineFeed line rest others plain unreturned _ ih =>
    rw [lines_append_cons, splitAll_of_not_mem plain, ih, List.map_singleton, dropReturn,
      if_neg unreturned, List.singleton_append]
  | @returnLineFeed line rest others plain _ ih =>
    have returned : '\n' ∉ line ++ ['\r'] := by simp [plain]
    have regroup : line ++ '\r' :: '\n' :: rest = (line ++ ['\r']) ++ '\n' :: rest := by simp
    rw [regroup, lines_append_cons, splitAll_of_not_mem returned, ih, List.map_singleton,
      dropReturn, List.getLast?_concat, if_pos rfl, List.dropLast_concat, List.singleton_append]

theorem hasLines_lines (text : List Char) : HasLines text (lines text) := by
  -- line after line, by the length of what is left
  induction hlength : text.length using Nat.strongRecOn generalizing text with
  | _ length ih =>
    subst hlength
    by_cases mem : '\n' ∈ text
    · obtain ⟨line, rest, rfl, plain⟩ := List.eq_append_cons_of_mem mem
      have rested : HasLines rest (lines rest) := ih rest.length (by simp; omega) rest rfl
      rw [lines_append_cons, splitAll_of_not_mem plain, List.map_singleton, List.singleton_append,
        dropReturn]
      split
      · rename_i returned
        obtain ⟨body, rfl⟩ := List.getLast?_eq_some_iff.1 returned
        have plainBody : '\n' ∉ body := fun mem => plain (List.mem_append_left _ mem)
        rw [List.dropLast_concat, List.append_assoc, List.singleton_append]
        exact .returnLineFeed plainBody rested
      · rename_i unreturned
        exact .lineFeed plain unreturned rested
    · by_cases nonempty : text = []
      · subst nonempty
        exact .empty
      · rw [lines_of_not_mem mem nonempty]
        exact .unfinished nonempty mem

theorem lines_eq_iff {found : List (List Char)} : lines text = found ↔ HasLines text found := by
  constructor
  · rintro rfl
    exact hasLines_lines text
  · exact HasLines.lines_eq

end Text

/-! ## Case -/

theorem toNat_toLower (c : Char) :
    c.toLower.toNat = if 65 ≤ c.toNat ∧ c.toNat ≤ 90 then c.toNat + 32 else c.toNat := by
  have capital_iff : (c.val ≥ 'A'.val ∧ c.val ≤ 'Z'.val) ↔ 65 ≤ c.toNat ∧ c.toNat ≤ 90 := by
    simp only [ge_iff_le, UInt32.le_iff_toNat_le]
    exact Iff.rfl
  unfold Char.toLower
  split
  · rename_i capital
    have bounds := capital_iff.1 capital
    have below : c.toNat + 32 < 2 ^ 32 := by omega
    rw [if_pos bounds]
    exact (UInt32.toNat_add c.val 32).trans (Nat.mod_eq_of_lt below)
  · rename_i other
    rw [if_neg (mt capital_iff.2 other)]

/-- The first character is a capital letter of ASCII, and the second one the same small
letter. -/
def IsCapitalOf (capital small : Char) : Prop :=
  'A' ≤ capital ∧ capital ≤ 'Z' ∧ small.toNat = capital.toNat + 32

/-- Two characters are equal, or the same letter of ASCII. -/
def SameLetter (c d : Char) : Prop := c = d ∨ IsCapitalOf c d ∨ IsCapitalOf d c

theorem toLower_eq_iff {c d : Char} : c.toLower = d.toLower ↔ SameLetter c d := by
  have le_iff (a b : Char) : a ≤ b ↔ a.toNat ≤ b.toNat := Iff.rfl
  have first : 'A'.toNat = 65 := rfl
  have last : 'Z'.toNat = 90 := rfl
  rw [SameLetter, IsCapitalOf, IsCapitalOf, ← Char.toNat_inj, ← Char.toNat_inj, toNat_toLower,
    toNat_toLower, le_iff, le_iff, le_iff, le_iff, first, last]
  split <;> split <;> omega

/-- Two texts are equal but for the case of ASCII letters. -/
def EqIgnoringCase (text other : String) : Prop :=
  List.Forall₂ SameLetter text.toList other.toList

theorem foldCase_eq_iff {text other : String} :
    foldCase text = foldCase other ↔ EqIgnoringCase text other := by
  rw [foldCase, foldCase, String.ofList_inj, ← List.forall₂_eq_eq_eq, List.forall₂_map_left_iff,
    List.forall₂_map_right_iff, EqIgnoringCase]
  simp only [toLower_eq_iff]

instance (text other : String) : Decidable (EqIgnoringCase text other) :=
  decidable_of_iff _ foldCase_eq_iff

end ImageDump
