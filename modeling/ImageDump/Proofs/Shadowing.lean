import ImageDump.Memory.Snapshot

/-!
# Captures that shadow earlier ones

A snapshot is built by captures, some of which are regions. A range of addresses is read from
the latest capture that holds all of it, so a later capture shadows an earlier one only where
it holds the whole range: the bytes of a later capture that holds a part of the range are not
seen (`read_eq_latestByte?_iff`).
-/

namespace ImageDump

/-! ## Reading one capture -/

namespace Capture

variable {capture : Capture} {region : Region} {bytes : Bytes}

/-- The whole region was captured. -/
def Holds (capture : Capture) (region : Region) : Prop :=
  capture.start.toNat ≤ region.start.toNat ∧
    region.stop ≤ capture.start.toNat + capture.bytes.length

instance : Decidable (capture.Holds region) := inferInstanceAs (Decidable (_ ∧ _))

/-- The byte that was captured from an address. -/
def byteAt? (capture : Capture) (address : Nat) : Option UInt8 :=
  if capture.start.toNat ≤ address then capture.bytes[address - capture.start.toNat]? else none

theorem read?_eq_some_iff :
    capture.read? region = some bytes ↔ capture.Holds region ∧
      capture.bytes.slice (region.start.toNat - capture.start.toNat) region.size.toNat =
        bytes := by
  unfold read?
  split
  · rename_i le
    rw [UInt64.le_iff_toNat_le] at le
    rw [Bytes.slice?_eq_some_iff]
    refine and_congr_left fun _ => ?_
    rw [Holds, Region.stop]
    omega
  · rename_i notLe
    rw [UInt64.le_iff_toNat_le] at notLe
    exact iff_of_false nofun fun holds => notLe holds.1.1

theorem read?_eq_none_iff : capture.read? region = none ↔ ¬capture.Holds region := by
  rw [Option.eq_none_iff_forall_ne_some]
  constructor
  · intro unread holds
    exact unread _ (read?_eq_some_iff.2 ⟨holds, rfl⟩)
  · intro notHeld bytes answered
    exact notHeld (read?_eq_some_iff.1 answered).1

/-- What is read from a capture are the bytes captured from each address. -/
theorem getElem?_of_read? (answered : capture.read? region = some bytes) {distance : Nat}
    (lt : distance < region.size.toNat) :
    bytes[distance]? = capture.byteAt? (region.start.toNat + distance) := by
  obtain ⟨⟨startLe, -⟩, rfl⟩ := read?_eq_some_iff.1 answered
  rw [Bytes.getElem?_slice lt, byteAt?, if_pos (by omega)]
  congr 1
  omega

end Capture

/-! ## Captures one after the other -/

/-- A call that adds memory to a snapshot. -/
inductive Snapshot.Call where
  | capture (start : UInt64) (bytes : Bytes)
  | setRegion (kind : RegionKind) (start : UInt64) (bytes : Bytes)
deriving DecidableEq, Repr

namespace Snapshot

/-- The memory that a call adds. -/
def Call.added : Call → Capture
  | .capture start bytes | .setRegion _ start bytes => { start, bytes }

/-- The snapshot after a call. -/
def perform (snapshot : Snapshot) : Call → Snapshot
  | .capture start bytes => snapshot.capture start bytes
  | .setRegion kind start bytes => snapshot.setRegion kind start bytes

/-- The snapshot that a series of calls builds. -/
def ofCalls (base : UInt64) (calls : List Call) : Snapshot :=
  calls.foldl perform { imageBase := base }

/-- The byte that was captured last from an address. -/
def latestByte? (calls : List Call) (address : Nat) : Option UInt8 :=
  calls.reverse.findSome? (·.added.byteAt? address)

variable {base : UInt64} {calls : List Call} {region : Region} {bytes : Bytes}

theorem captures_perform (snapshot : Snapshot) (call : Call) :
    (snapshot.perform call).captures = call.added :: snapshot.captures := by
  cases call with
  | capture start bytes => rfl
  | setRegion kind start bytes => rfl

/-- The captures of a snapshot are what its calls added, the latest first. -/
theorem captures_ofCalls : (ofCalls base calls).captures = (calls.map Call.added).reverse := by
  have grown (snapshot : Snapshot) :
      (calls.foldl perform snapshot).captures =
        (calls.map Call.added).reverse ++ snapshot.captures := by
    induction calls generalizing snapshot with
    | nil => rfl
    | cons call rest ih => simp [ih, captures_perform]
  rw [ofCalls, grown, List.append_nil]

/-- A range is read from the latest call that added all of it. -/
theorem read_ofCalls_eq_some_iff :
    (ofCalls base calls).read region = some bytes ↔
      ∃ older call newer, calls = older ++ call :: newer ∧
        call.added.read? region = some bytes ∧ ∀ later ∈ newer, ¬later.added.Holds region := by
  rw [read, captures_ofCalls, ← List.map_reverse, List.findSome?_map,
    List.findSome?_eq_some_iff]
  constructor
  · rintro ⟨later, call, earlier, split, answered, unread⟩
    refine ⟨earlier.reverse, call, later.reverse, ?_, answered, ?_⟩
    · rw [← calls.reverse_reverse, split, List.reverse_append, List.reverse_cons,
        List.append_assoc, List.singleton_append]
    · intro newer mem
      exact Capture.read?_eq_none_iff.1 (unread newer (List.mem_reverse.1 mem))
  · rintro ⟨older, call, newer, rfl, answered, notHeld⟩
    refine ⟨newer.reverse, call, older.reverse, ?_, answered, ?_⟩
    · rw [List.reverse_append, List.reverse_cons, List.append_assoc, List.singleton_append]
    · intro later mem
      exact Capture.read?_eq_none_iff.2 (notHeld later (List.mem_reverse.1 mem))

/-! ## The latest byte -/

theorem latestByte?_append (older newer : List Call) (address : Nat) :
    latestByte? (older ++ newer) address =
      (latestByte? newer address).or (latestByte? older address) := by
  rw [latestByte?, List.reverse_append, List.findSome?_append]
  rfl

theorem latestByte?_cons (call : Call) (newer : List Call) (address : Nat) :
    latestByte? (call :: newer) address =
      (latestByte? newer address).or (call.added.byteAt? address) := by
  rw [← List.singleton_append, latestByte?_append]
  congr 1
  simp [latestByte?]

/-- **Shadowing.** A range that can be read is read as a whole from the latest call that added
all of it. The answer has the latest byte of an address exactly if the calls after that one
left the byte of this address as it was. -/
theorem read_eq_latestByte?_iff (answered : (ofCalls base calls).read region = some bytes) :
    bytes.length = region.size.toNat ∧
      ∃ older call newer, calls = older ++ call :: newer ∧ call.added.Holds region ∧
        (∀ later ∈ newer, ¬later.added.Holds region) ∧
        ∀ distance < region.size.toNat,
          bytes[distance]? = call.added.byteAt? (region.start.toNat + distance) ∧
          (bytes[distance]? = latestByte? calls (region.start.toNat + distance) ↔
            ∀ byte ∈ latestByte? newer (region.start.toNat + distance),
              call.added.byteAt? (region.start.toNat + distance) = some byte) := by
  have length : bytes.length = region.size.toNat :=
    (ofCalls base calls).exact_toMemoryImage region bytes answered
  obtain ⟨older, call, newer, rfl, read, notHeld⟩ := read_ofCalls_eq_some_iff.1 answered
  refine ⟨length, older, call, newer, rfl, (Capture.read?_eq_some_iff.1 read).1, notHeld, ?_⟩
  intro distance lt
  have stored := Capture.getElem?_of_read? read lt
  have present : bytes[distance]? = some bytes[distance] :=
    List.getElem?_eq_getElem (length ▸ lt)
  refine ⟨stored, ?_⟩
  rw [latestByte?_append, latestByte?_cons, ← stored]
  cases latestByte? newer (region.start.toNat + distance) with
  | none =>
    rw [Option.none_or, present, Option.some_or]
    exact iff_of_true rfl nofun
  | some byte =>
    rw [Option.some_or, Option.some_or]
    constructor
    · rintro same _ ⟨⟩
      exact same
    · intro unchanged
      exact unchanged byte rfl

/-- A range of four addresses is captured, and then the last two of them are captured again.
One of these bytes has changed. -/
def splitCalls : List Call :=
  [.setRegion .bss 0x1000 [0x11, 0x12, 0x13, 0x14], .capture 0x1002 [0x13, 0x24]]

/-- The byte that has not changed is the latest one. -/
theorem read_eq_latestByte?_splitCalls :
    (ofCalls 0x400000 splitCalls).read { start := 0x1000, size := 4 } =
        some [0x11, 0x12, 0x13, 0x14] ∧
      latestByte? splitCalls 0x1002 = some 0x13 := by
  have answered : (ofCalls 0x400000 splitCalls).read { start := 0x1000, size := 4 } =
      some [0x11, 0x12, 0x13, 0x14] := by decide +kernel
  refine ⟨answered, ?_⟩
  obtain ⟨-, older, call, newer, split, holds, -, latest⟩ := read_eq_latestByte?_iff answered
  rcases older with _ | ⟨first, rest⟩
  · cases split
    exact ((latest 2 (by decide)).2.2 (by decide +kernel)).symm
  · -- the second call added only a part of the range
    have second : call = .capture 0x1002 [0x13, 0x24] := by
      have mem : call ∈ [Call.capture 0x1002 [0x13, 0x24]] := by
        rw [(List.cons.inj split).2]
        exact List.mem_append_right rest List.mem_cons_self
      exact List.mem_singleton.1 mem
    subst second
    exact absurd holds (by decide)

/-- The byte that has changed is read as it was before. -/
theorem read_ne_latestByte?_splitCalls :
    (ofCalls 0x400000 splitCalls).read { start := 0x1000, size := 4 } =
        some [0x11, 0x12, 0x13, 0x14] ∧
      latestByte? splitCalls 0x1003 = some 0x24 := by
  decide +kernel

end Snapshot
end ImageDump
