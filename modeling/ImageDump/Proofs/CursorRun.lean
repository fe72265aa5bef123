import Mathlib.Order.Bounds.Basic
import ImageDump.Proofs.Alignment
import ImageDump.Proofs.Cursor

/-!
# What a series of steps leaves

A step that succeeds writes bytes from the cursor on, possibly none, and moves the cursor
(`Cursor.Effect`); the size of the output never changes, and a step that fails changes nothing
(`Cursor.Outcome`). In a series of steps that goes on behind failures, every position
therefore holds what the last step that wrote there has put, or what it held before
(`Cursor.attemptAll_lastWriterWins`).
-/

namespace ImageDump

/-! ## The bytes of an output -/

theorem Bytes.overwrite_nil (data : Bytes) (offset : Nat) : data.overwrite offset [] = data := by
  rw [overwrite, List.append_nil, List.length_nil, Nat.add_zero, List.take_append_drop]

namespace Buffer

variable {buffer : Buffer} {bytes : Bytes} {offset first stop : Nat}

theorem toBytes_write (fits : offset + bytes.length ≤ buffer.size) :
    (buffer.write offset bytes).toBytes = buffer.toBytes.overwrite offset bytes := by
  apply List.ext_getElem?
  intro position
  rw [Bytes.getElem?_overwrite (buffer.length_toBytes.symm ▸ fits), getElem?_toBytes,
    getElem?_toBytes, size_write, byte_write]
  by_cases inside : offset ≤ position ∧ position < offset + bytes.length
  · rw [if_pos inside, if_pos inside, if_pos (by omega),
      List.getElem?_eq_getElem (by omega), Option.getD_some]
  · rw [if_neg inside, if_neg inside]

/-- Only the positions inside the output count when bytes are zeroed. -/
theorem toBytes_clear (first stop : Nat) :
    (buffer.clear first stop).toBytes =
      buffer.toBytes.overwrite first (Bytes.zeros (min stop buffer.size - first)) := by
  by_cases empty : min stop buffer.size ≤ first
  · have nothing : Bytes.zeros (min stop buffer.size - first) = [] := by
      rw [Nat.sub_eq_zero_of_le empty, Bytes.zeros, List.replicate_zero]
    rw [nothing, Bytes.overwrite_nil]
    apply List.ext_getElem?
    intro position
    rw [getElem?_toBytes, getElem?_toBytes, size_clear, byte_clear]
    by_cases below : position < buffer.size
    · rw [if_pos below, if_pos below, if_neg (by omega)]
    · rw [if_neg below, if_neg below]
  · have length := Bytes.length_zeros (min stop buffer.size - first)
    apply List.ext_getElem?
    intro position
    rw [Bytes.getElem?_overwrite (by rw [length, length_toBytes]; omega), length,
      getElem?_toBytes, getElem?_toBytes, size_clear, byte_clear]
    by_cases below : position < buffer.size
    · rw [if_pos below, if_pos below]
      by_cases inside : first ≤ position ∧ position < stop
      · rw [if_pos inside, if_pos (by omega), Bytes.zeros, List.getElem?_replicate,
          if_pos (by omega)]
      · rw [if_neg inside, if_neg (by omega)]
    · rw [if_neg below, if_neg below, if_neg (by omega)]

end Buffer

namespace Cursor

variable {source bytes : Bytes} {memory : MemoryImage} {cursor next : Cursor} {step : Step}
  {position stop : Nat}

/-! ## One step -/

/-- What a step does to an output of these bytes when it succeeds with the cursor at
`position`: the bytes that it writes from there on, and where the cursor then stands. -/
inductive Effect (source : Bytes) (memory : MemoryImage) (output : Bytes) (position : Nat) :
    Step → Bytes → Nat → Prop where
  | seek (target : Nat) : Effect source memory output position (.seek target) [] target
  | align {alignment stop : Nat} (positive : 0 < alignment)
      (least : IsLeast {stop | position ≤ stop ∧ alignment ∣ stop} stop) :
      Effect source memory output position (.align alignment) [] stop
  | alignZeroed {alignment stop : Nat} (positive : 0 < alignment)
      (least : IsLeast {stop | position ≤ stop ∧ alignment ∣ stop} stop) :
      Effect source memory output position (.alignZeroed alignment)
        (Bytes.zeros (min stop output.length - position)) stop
  | copySource {offset size : Nat} (inside : offset + size ≤ source.length)
      (fits : position + size ≤ output.length) :
      Effect source memory output position (.copySource offset size) (source.slice offset size)
        (position + size)
  | copyMemory {region : Region} {bytes : Bytes} (live : memory.read region = some bytes)
      (fits : position + bytes.length ≤ output.length) :
      Effect source memory output position (.copyMemory region) bytes (position + bytes.length)

/-- A step has one effect at most. -/
theorem Effect.unique {output other : Bytes} {otherStop : Nat}
    (first : Effect source memory output position step bytes stop)
    (second : Effect source memory output position step other otherStop) :
    bytes = other ∧ stop = otherStop := by
  cases first with
  | seek | copySource => cases second; exact ⟨rfl, rfl⟩
  | align _ least =>
    cases second with
    | align _ otherLeast => exact ⟨rfl, least.unique otherLeast⟩
  | alignZeroed _ least =>
    cases second with
    | alignZeroed _ otherLeast =>
      cases least.unique otherLeast
      exact ⟨rfl, rfl⟩
  | copyMemory live =>
    cases second with
    | copyMemory otherLive =>
      cases live.symm.trans otherLive
      exact ⟨rfl, rfl⟩

/-- What is written lies inside the output. -/
theorem Effect.fits {output : Bytes}
    (effect : Effect source memory output position step bytes stop) :
    bytes = [] ∨ position + bytes.length ≤ output.length := by
  cases effect with
  | seek | align => exact .inl rfl
  | alignZeroed =>
    by_cases beyond : min stop output.length ≤ position
    · rw [Nat.sub_eq_zero_of_le beyond]
      exact .inl rfl
    · rw [Bytes.length_zeros]
      exact .inr (by omega)
  | copySource inside fits =>
    rw [Bytes.length_slice_of_le inside]
    exact .inr fits
  | copyMemory live fits => exact .inr fits

theorem Effect.length_overwrite {output : Bytes}
    (effect : Effect source memory output position step bytes stop) :
    (output.overwrite position bytes).length = output.length := by
  rcases effect.fits with rfl | fits
  · rw [Bytes.overwrite_nil]
  · exact Bytes.length_overwrite fits

/-- The bytes that are written are at their positions afterwards, and all others are as they
were. -/
theorem Effect.getElem?_overwrite {output : Bytes}
    (effect : Effect source memory output position step bytes stop) (i : Nat) :
    (output.overwrite position bytes)[i]? =
      if position ≤ i ∧ i < position + bytes.length then bytes[i - position]?
      else output[i]? := by
  rcases effect.fits with rfl | fits
  · rw [Bytes.overwrite_nil, List.length_nil, if_neg (by omega)]
  · exact Bytes.getElem?_overwrite fits i

/-- A step that succeeds has its effect. -/
theorem effect_of_perform (ran : cursor.perform source memory step = .ok next) :
    ∃ bytes, Effect source memory cursor.output.toBytes cursor.position step bytes next.position ∧
      next.output.toBytes = cursor.output.toBytes.overwrite cursor.position bytes := by
  have length := cursor.output.length_toBytes
  cases step with
  | seek target =>
    cases ran
    exact ⟨[], .seek target, (Bytes.overwrite_nil _ _).symm⟩
  | align alignment =>
    obtain ⟨positive, rfl⟩ := align_eq_ok_iff.1 ran
    exact ⟨[], .align positive (isLeast_alignUp positive), (Bytes.overwrite_nil _ _).symm⟩
  | alignZeroed alignment =>
    obtain ⟨positive, rfl⟩ := alignZeroed_eq_ok_iff.1 ran
    refine ⟨_, .alignZeroed positive (isLeast_alignUp positive), ?_⟩
    rw [length]
    exact Buffer.toBytes_clear _ _
  | copySource offset size =>
    obtain ⟨inside, fits, rfl⟩ := copySource_eq_ok_iff.1 ran
    refine ⟨_, .copySource inside (length.symm ▸ fits), Buffer.toBytes_write ?_⟩
    rw [Bytes.length_slice_of_le inside]
    exact fits
  | copyMemory region =>
    obtain ⟨bytes, live, stored⟩ := copyMemory_eq_ok_iff.1 ran
    obtain ⟨fits, rfl⟩ := put_eq_ok_iff.1 stored
    exact ⟨bytes, .copyMemory live (length.symm ▸ fits), Buffer.toBytes_write fits⟩

/-- A step that has an effect succeeds. -/
theorem perform_of_effect
    (effect : Effect source memory cursor.output.toBytes cursor.position step bytes stop) :
    ∃ next, cursor.perform source memory step = .ok next := by
  have length := cursor.output.length_toBytes
  cases effect with
  | seek target => exact ⟨_, rfl⟩
  | align positive => exact ⟨_, align_eq_ok_iff.2 ⟨positive, rfl⟩⟩
  | alignZeroed positive => exact ⟨_, alignZeroed_eq_ok_iff.2 ⟨positive, rfl⟩⟩
  | copySource inside fits => exact ⟨_, copySource_eq_ok_iff.2 ⟨inside, length ▸ fits, rfl⟩⟩
  | copyMemory live fits =>
    exact ⟨_, copyMemory_eq_ok_iff.2 ⟨_, live, put_eq_ok_iff.2 ⟨length ▸ fits, rfl⟩⟩⟩

/-- The step copies bytes. -/
def Step.isCopy : Step → Bool
  | .copySource _ _ | .copyMemory _ => true
  | .seek _ | .align _ | .alignZeroed _ => false

/-- How a step ends in a series that goes on behind failures: it has its effect, or it fails
and changes nothing. Only copies can fail, and rounding up to no alignment. -/
inductive Outcome (source : Bytes) (memory : MemoryImage) (before : Cursor) (step : Step)
    (after : Cursor) : Prop where
  | done {bytes : Bytes} (ran : before.perform source memory step = .ok after)
      (effect : Effect source memory before.output.toBytes before.position step bytes
        after.position)
      (written : after.output.toBytes = before.output.toBytes.overwrite before.position bytes)
  | failed {interrupted : Interrupted}
      (ran : before.perform source memory step = .error interrupted)
      (kind : step.isCopy = true ∨ step = .align 0 ∨ step = .alignZeroed 0)
      (effectless : ∀ bytes stop,
        ¬Effect source memory before.output.toBytes before.position step bytes stop)
      (left : interrupted.output = before.output.toBytes)
      (same : after = before)

section Failures

variable {interrupted : Interrupted}

theorem output_of_put (fails : cursor.put bytes = .error interrupted) :
    interrupted.output = cursor.output.toBytes := by
  simp only [put] at fails
  split at fails
  · cases fails
  · cases fails
    rfl

theorem output_of_align {alignment : Nat} (fails : cursor.align alignment = .error interrupted) :
    alignment = 0 ∧ interrupted.output = cursor.output.toBytes := by
  simp only [align] at fails
  split at fails
  · cases fails
    exact ⟨‹_›, rfl⟩
  · cases fails

theorem output_of_copySource {offset size : Nat}
    (fails : cursor.copySource source offset size = .error interrupted) :
    interrupted.output = cursor.output.toBytes := by
  simp only [copySource] at fails
  split at fails
  · exact output_of_put fails
  · cases fails
    rfl

theorem output_of_copyMemory {region : Region}
    (fails : cursor.copyMemory memory region = .error interrupted) :
    interrupted.output = cursor.output.toBytes := by
  simp only [copyMemory] at fails
  split at fails
  · exact output_of_put fails
  · cases fails
    rfl

/-- Only copies and rounding up to no alignment fail, and they hand over the output as it
was. -/
theorem of_perform_eq_error (fails : cursor.perform source memory step = .error interrupted) :
    (step.isCopy = true ∨ step = .align 0 ∨ step = .alignZeroed 0) ∧
      interrupted.output = cursor.output.toBytes := by
  cases step with
  | seek target => cases fails
  | align alignment =>
    obtain ⟨rfl, left⟩ := output_of_align fails
    exact ⟨.inr (.inl rfl), left⟩
  | alignZeroed alignment =>
    rcases bind_eq_error_iff.1 fails with fails | ⟨_, -, returns⟩
    · obtain ⟨rfl, left⟩ := output_of_align fails
      exact ⟨.inr (.inr rfl), left⟩
    · cases returns
  | copySource offset size => exact ⟨.inl rfl, output_of_copySource fails⟩
  | copyMemory region => exact ⟨.inl rfl, output_of_copyMemory fails⟩

end Failures

theorem outcome_attempt (source : Bytes) (memory : MemoryImage) (cursor : Cursor) (step : Step) :
    Outcome source memory cursor step (cursor.attempt source memory step) := by
  cases ran : cursor.perform source memory step with
  | ok next =>
    have after : cursor.attempt source memory step = next := by rw [attempt, ran]
    obtain ⟨bytes, effect, written⟩ := effect_of_perform ran
    exact .done (ran.trans (congrArg _ after.symm)) (after ▸ effect) (after ▸ written)
  | error interrupted =>
    have after : cursor.attempt source memory step = cursor := by rw [attempt, ran]
    obtain ⟨kind, left⟩ := of_perform_eq_error ran
    refine .failed ran kind (fun bytes stop effect => ?_) left after
    obtain ⟨next, succeeds⟩ := perform_of_effect effect
    cases ran.symm.trans succeeds

theorem Outcome.size_eq {before after : Cursor}
    (outcome : Outcome source memory before step after) :
    after.output.size = before.output.size := by
  cases outcome with
  | done _ effect written =>
    have lengths := congrArg List.length written
    rwa [effect.length_overwrite, Buffer.length_toBytes, Buffer.length_toBytes] at lengths
  | failed _ _ _ _ same => rw [same]

/-! ## Series of steps -/

section Series

variable (source : Bytes) (memory : MemoryImage) (cursor : Cursor) (steps : List Step)

/-- The cursor after the first `count` steps. -/
def afterSteps (count : Nat) : Cursor := attemptAll source memory cursor (steps.take count)

/-- The step at an index succeeds and writes this byte at a position. -/
def WritesAt (index position : Nat) (byte : UInt8) : Prop :=
  ∃ step bytes stop, steps[index]? = some step ∧
    Effect source memory (afterSteps source memory cursor steps index).output.toBytes
      (afterSteps source memory cursor steps index).position step bytes stop ∧
    (afterSteps source memory cursor steps index).position ≤ position ∧
    bytes[position - (afterSteps source memory cursor steps index).position]? = some byte

variable {source memory cursor steps}

theorem afterSteps_succ {count : Nat} (stepAt : steps[count]? = some step) :
    afterSteps source memory cursor steps (count + 1) =
      (afterSteps source memory cursor steps count).attempt source memory step := by
  rw [afterSteps, afterSteps, attemptAll, attemptAll, List.take_add_one, stepAt,
    Option.toList_some, List.foldl_append]
  rfl

variable (source memory cursor) in
theorem outcome_afterSteps {index : Nat} (stepAt : steps[index]? = some step) :
    Outcome source memory (afterSteps source memory cursor steps index) step
      (afterSteps source memory cursor steps (index + 1)) := by
  rw [afterSteps_succ stepAt]
  exact outcome_attempt source memory _ step

theorem size_afterSteps (count : Nat) :
    (afterSteps source memory cursor steps count).output.size = cursor.output.size := by
  induction count with
  | zero => rfl
  | succ count ih =>
    cases stepAt : steps[count]? with
    | none =>
      have same : steps.take (count + 1) = steps.take count := by
        rw [List.take_add_one, stepAt, Option.toList_none, List.append_nil]
      rw [afterSteps, same]
      exact ih
    | some step => rw [(outcome_afterSteps source memory cursor stepAt).size_eq, ih]

variable {index : Nat} {byte : UInt8}

theorem WritesAt.lt_length (writes : WritesAt source memory cursor steps index position byte) :
    index < steps.length := by
  obtain ⟨step, bytes, stop, stepAt, -⟩ := writes
  exact (List.getElem?_eq_some_iff.1 stepAt).1

/-- A byte that a step writes is there after the step. -/
theorem WritesAt.getElem?_succ (writes : WritesAt source memory cursor steps index position byte) :
    (afterSteps source memory cursor steps (index + 1)).output.toBytes[position]? = some byte := by
  obtain ⟨step, bytes, stop, stepAt, effect, le, byteAt⟩ := writes
  cases outcome_afterSteps source memory cursor stepAt with
  | done _ otherEffect written =>
    obtain ⟨rfl, -⟩ := effect.unique otherEffect
    have inside := (List.getElem?_eq_some_iff.1 byteAt).1
    rw [written, effect.getElem?_overwrite, if_pos ⟨le, by omega⟩, byteAt]
  | failed _ _ effectless => exact absurd effect (effectless bytes stop)

/-- A position where a step writes nothing is as it was before the step. -/
theorem getElem?_succ_of_not_writesAt (inSteps : index < steps.length)
    (untouched : ∀ byte, ¬WritesAt source memory cursor steps index position byte) :
    (afterSteps source memory cursor steps (index + 1)).output.toBytes[position]? =
      (afterSteps source memory cursor steps index).output.toBytes[position]? := by
  have stepAt := List.getElem?_eq_getElem inSteps
  cases outcome_afterSteps source memory cursor stepAt with
  | @done bytes _ effect written =>
    rw [written, effect.getElem?_overwrite]
    split
    · rename_i covered
      have inside : position - (afterSteps source memory cursor steps index).position <
          bytes.length := by omega
      exact absurd ⟨_, bytes, _, stepAt, effect, covered.1, List.getElem?_eq_getElem inside⟩
        (untouched _)
    · rfl
  | failed _ _ _ _ same => rw [same]

variable (source memory cursor) in
/-- After some steps a position holds what the last of them that wrote there has put, or what
it held before. -/
theorem lastWrite_afterSteps {count : Nat} (le : count ≤ steps.length) (position : Nat) :
    (∃ index < count, ∃ byte, WritesAt source memory cursor steps index position byte ∧
      (∀ later < count, ∀ other,
        WritesAt source memory cursor steps later position other → later ≤ index) ∧
      (afterSteps source memory cursor steps count).output.toBytes[position]? = some byte) ∨
    (∀ index < count, ∀ byte, ¬WritesAt source memory cursor steps index position byte) ∧
      (afterSteps source memory cursor steps count).output.toBytes[position]? =
        cursor.output.toBytes[position]? := by
  induction count with
  | zero => exact .inr ⟨nofun, rfl⟩
  | succ count ih =>
    by_cases touched : ∃ byte, WritesAt source memory cursor steps count position byte
    · obtain ⟨byte, writes⟩ := touched
      refine .inl ⟨count, Nat.lt_succ_self count, byte, writes, ?_, writes.getElem?_succ⟩
      exact fun later lt _ _ => Nat.le_of_lt_succ lt
    · have untouched := not_exists.1 touched
      have same := getElem?_succ_of_not_writesAt le untouched
      rcases ih (Nat.le_of_succ_le le) with ⟨index, lt, byte, writes, last, holds⟩ | ⟨none, holds⟩
      · refine .inl ⟨index, Nat.lt_succ_of_lt lt, byte, writes, ?_, same.trans holds⟩
        intro later laterLt other laterWrites
        rcases Nat.lt_succ_iff_lt_or_eq.1 laterLt with earlier | rfl
        · exact last later earlier other laterWrites
        · exact absurd laterWrites (untouched other)
      · refine .inr ⟨?_, same.trans holds⟩
        intro index laterLt byte
        rcases Nat.lt_succ_iff_lt_or_eq.1 laterLt with earlier | rfl
        · exact none index earlier byte
        · exact untouched byte

end Series

/-- **The last writer wins.** In a series of steps that goes on behind failures, every step
has its effect or fails and changes nothing, and the output keeps its size. In the end each
position holds what the last step that wrote there has put, or what it held at the start. -/
theorem attemptAll_lastWriterWins (source : Bytes) (memory : MemoryImage) (cursor : Cursor)
    (steps : List Step) :
    (∀ index step, steps[index]? = some step →
      Outcome source memory (afterSteps source memory cursor steps index) step
        (afterSteps source memory cursor steps (index + 1))) ∧
    (∀ count, (afterSteps source memory cursor steps count).output.size = cursor.output.size) ∧
    ∀ position,
      (∃ index byte, WritesAt source memory cursor steps index position byte ∧
        (∀ later other,
          WritesAt source memory cursor steps later position other → later ≤ index) ∧
        (attemptAll source memory cursor steps).output.toBytes[position]? = some byte) ∨
      (∀ index byte, ¬WritesAt source memory cursor steps index position byte) ∧
        (attemptAll source memory cursor steps).output.toBytes[position]? =
          cursor.output.toBytes[position]? := by
  refine ⟨fun index step => outcome_afterSteps source memory cursor, size_afterSteps,
    fun position => ?_⟩
  have all : afterSteps source memory cursor steps steps.length =
      attemptAll source memory cursor steps := by rw [afterSteps, List.take_length]
  rw [← all]
  rcases lastWrite_afterSteps source memory cursor (Nat.le_refl steps.length) position with
    ⟨index, -, byte, writes, last, holds⟩ | ⟨none, holds⟩
  · exact .inl ⟨index, byte, writes, fun later other laterWrites =>
      last later laterWrites.lt_length other laterWrites, holds⟩
  · exact .inr ⟨fun index byte writes => none index writes.lt_length byte writes, holds⟩

/-- Zeros stop at the end of the output, behind which not even no bytes are copied; what is
written there later is written over them. -/
example : (attemptAll [1, 2, 3] { imageBase := 0, region := fun _ => .empty, read := fun _ => none }
    (Cursor.start (Buffer.ofBytes [9, 9, 9, 9, 9, 9]))
    [.seek 3, .alignZeroed 8, .copySource 0 0, .seek 4, .copySource 0 2,
      .copySource 0 1, .seek 1, .copySource 0 3]).output.toBytes = [9, 1, 2, 3, 1, 2] := by
  decide +kernel

end Cursor
end ImageDump
