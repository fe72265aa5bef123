/-!
# Checked steps

Reading an image and planning a dump are sequences of steps that may fail, each
with its own error. A condition is checked with `require`, and an optional
value is taken with `found`. The equivalences at the end turn the success of such
a sequence into the list of facts that its steps established, and its failure into
the step that failed.
-/

namespace ImageDump

variable {ε α β : Type}

/-- Go on only under a condition. -/
def require (condition : Prop) [Decidable condition] (error : ε) : Except ε Unit :=
  if condition then .ok () else .error error

/-- Go on only with a value. -/
def found (value : Option α) (error : ε) : Except ε α :=
  match value with
  | some value => .ok value
  | none => .error error

/-! ## What success means -/

theorem require_eq_ok_iff {condition : Prop} [Decidable condition] {error : ε} {done : Unit} :
    require condition error = .ok done ↔ condition := by
  by_cases holds : condition
  · simp [require, holds]
  · simp [require, holds]

theorem found_eq_ok_iff {value : Option α} {error : ε} {result : α} :
    found value error = .ok result ↔ value = some result := by
  cases value with
  | none => simp [found]
  | some value => simp [found]

theorem bind_eq_ok_iff {first : Except ε α} {next : α → Except ε β} {result : β} :
    (first >>= next) = .ok result ↔ ∃ value, first = .ok value ∧ next value = .ok result := by
  cases first with
  | error error => simp [bind, Except.bind]
  | ok value => simp [bind, Except.bind]

/-! ## What failure means -/

theorem require_eq_error_iff {condition : Prop} [Decidable condition] {error cause : ε} :
    require condition error = .error cause ↔ ¬condition ∧ error = cause := by
  by_cases holds : condition
  · simp [require, holds]
  · simp [require, holds]

theorem found_eq_error_iff {value : Option α} {error cause : ε} :
    found value error = .error cause ↔ value = none ∧ error = cause := by
  cases value with
  | none => simp [found]
  | some value => simp [found]

theorem bind_eq_error_iff {first : Except ε α} {next : α → Except ε β} {cause : ε} :
    (first >>= next) = .error cause ↔
      first = .error cause ∨ ∃ value, first = .ok value ∧ next value = .error cause := by
  cases first with
  | error error => simp [bind, Except.bind]
  | ok value => simp [bind, Except.bind]

end ImageDump
