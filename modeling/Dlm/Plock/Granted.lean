import Dlm.Plock.Entries
import Dlm.Plock.NodeRun
import Dlm.Plock.Plain

/-!
# Granted operations and the history of a node

An operation that was answered with success holds its bytes as long as its
holder has no other operation on them carried out.  The history of a node, what
it has read from the kernel and what it has answered, tells which operations
must still hold their bytes.
-/

namespace Dlm.Plock

open Segments

/-- The holder of the request has its bytes in its mode. -/
def Granted (locks : List PosixLock) (info : Info) : Prop :=
  ∀ byte, info.start ≤ byte → byte ≤ info.stop →
    Holds locks info.holder byte info.ex

/-- The requests are of one holder and their ranges overlap. -/
def Meets (first second : Info) : Prop :=
  first.holder = second.holder ∧ first.start ≤ second.stop ∧
    second.start ≤ first.stop

/-- The requests that change locks. -/
def Info.Changes (info : Info) : Prop :=
  info.optype = .lock ∨ info.optype = .unlock

section Granted

variable {info q : Info} {mode : Option UInt8} {locks : List PosixLock}
variable {result : Int × List PosixLock}

theorem granted_of_performs
    (performs : Performs info (some info.ex) locks result) :
    Granted result.2 info := by
  intro byte above below
  apply (performs.2.2 info.holder byte info.ex).mpr
  grind

/-- What is done for other bytes or another holder leaves a request granted. -/
theorem Granted.performs (granted : Granted locks q)
    (performs : Performs info mode locks result)
    (apart : ¬Meets info q) : Granted result.2 q := by
  intro byte above below
  apply (performs.2.2 q.holder byte q.ex).mpr
  have old := granted byte above below
  have outside : ¬(q.holder = info.holder ∧ info.start ≤ byte ∧
      byte ≤ info.stop) := by
    rintro ⟨same, start, stop⟩
    apply apart
    exact ⟨same.symm, by grind, by grind⟩
  grind

/-- No request is granted by an empty table. -/
theorem not_granted_nil (valid : q.Valid) : ¬Granted [] q := by
  intro granted
  have held := granted q.start (by grind) valid.ordered
  exact absurd held View.holds_nil

end Granted

section Plain

variable {locks : List PosixLock} {r : Resource}

theorem holds_plain {holder : Holder} {byte : UInt64} {mode : UInt8} :
    Holds (locks.map plainLock) holder byte mode ↔
      Holds locks holder byte mode := by
  constructor
  · rintro ⟨po, member, covers⟩
    obtain ⟨original, found, rfl⟩ := List.mem_map.mp member
    exact ⟨original, found, covers⟩
  · rintro ⟨po, member, covers⟩
    exact ⟨plainLock po, List.mem_map_of_mem member, covers⟩

theorem granted_plain {q : Info} :
    Granted (locks.map plainLock) q ↔ Granted locks q := by
  simp only [Granted, holds_plain]

theorem safe_plain : Safe (locks.map plainLock) ↔ Safe locks := by
  have compatible : Compatible (locks.map plainLock) ↔ Compatible locks := by
    simp only [Compatible, holds_plain]
  have wellFormed : WellFormed (locks.map plainLock) ↔ WellFormed locks := by
    constructor
    · intro formed
      refine ⟨⟨?_, ?_⟩, ?_⟩
      · intro po member
        exact formed.tidy.ordered (plainLock po) (List.mem_map_of_mem member)
      · have apart := List.pairwise_map.mp formed.tidy.apart
        exact apart
      · intro po member
        exact formed.mode (plainLock po) (List.mem_map_of_mem member)
    · intro formed
      refine ⟨⟨?_, ?_⟩, ?_⟩
      · intro po member
        obtain ⟨original, found, rfl⟩ := List.mem_map.mp member
        exact formed.tidy.ordered original found
      · exact List.pairwise_map.mpr formed.tidy.apart
      · intro po member
        obtain ⟨original, found, rfl⟩ := List.mem_map.mp member
        exact formed.mode original found
  constructor
  · intro safe
    exact ⟨wellFormed.mp safe.wellFormed, compatible.mp safe.compatible⟩
  · intro safe
    exact ⟨wellFormed.mpr safe.wellFormed, compatible.mpr safe.compatible⟩

/-- The table is safe and its waiting requests are as the kernel sent them. -/
structure TableSafe (table : Table) : Prop where
  locks : Safe table.locks
  waiters : ∀ w ∈ table.waiters, w.info.Valid

theorem valid_plain {info : Info} : (plainInfo info).Valid ↔ info.Valid := by
  constructor
  · intro valid
    exact ⟨valid.ordered, valid.mode⟩
  · intro valid
    exact ⟨valid.ordered, valid.mode⟩

theorem tableSafe_iff : TableSafe r.table ↔ ResourceSafe r := by
  constructor
  · intro safe
    refine ⟨safe_plain.mp safe.locks, ?_⟩
    intro w member
    exact valid_plain.mp
      (safe.waiters (plainWaiter w) (List.mem_map_of_mem member))
  · intro safe
    refine ⟨safe_plain.mpr safe.locks, ?_⟩
    intro w member
    obtain ⟨original, found, rfl⟩ := List.mem_map.mp member
    exact valid_plain.mpr (safe.waiters original found)

end Plain

/-- The request is granted and no waiting request meets it. -/
structure Table.Guards (table : Table) (q : Info) : Prop where
  granted : Granted table.locks q
  quiet : ∀ w ∈ table.waiters, ¬Meets w.info q

section Tables

variable {table : Table} {info q : Info}

theorem TableSafe.wake (safe : TableSafe table) : TableSafe table.wake := by
  constructor
  · exact doWaitersLoop_safe _ safe.locks safe.waiters
  · intro w member
    exact safe.waiters w ((doWaitersLoop_sublist _ _ _).mem member)

theorem TableSafe.request (safe : TableSafe table) (valid : info.Valid) :
    TableSafe (table.request info) := by
  unfold Table.request
  split
  · split
    · constructor
      · exact safe.locks
      · intro w member
        rcases List.mem_append.mp member with old | new
        · exact safe.waiters w old
        · rw [List.mem_singleton.mp new]
          exact valid_plain.mpr valid
    · exact safe
  · rename_i free
    constructor
    · exact safe.locks.grant valid (by simpa using free)
    · exact safe.waiters

theorem TableSafe.release (safe : TableSafe table) (valid : info.Valid) :
    TableSafe (table.release info) := by
  constructor
  · exact safe.locks.release valid.ordered
  · exact safe.waiters

/-- Operations keep a table safe. -/
theorem TableSafe.exec (safe : TableSafe table) (valid : info.Valid) :
    TableSafe (table.exec info) := by
  unfold Table.exec
  cases info.optype with
  | lock => exact (safe.request valid).wake
  | unlock => exact (safe.release valid).wake
  | get => exact safe
  | unknown code => exact safe

theorem Granted.doWaitersLoop (env : Env) {locks : List PosixLock}
    {waiters : List LockWaiter} (granted : Granted locks q)
    (safe : Safe locks) (valid : ∀ w ∈ waiters, w.info.Valid)
    (quiet : ∀ w ∈ waiters, ¬Meets w.info q) :
    Granted (doWaitersLoop env locks waiters).1 q := by
  induction waiters generalizing locks with
  | nil => exact granted
  | cons w later induction =>
      obtain ⟨firstValid, laterValid⟩ := List.forall_mem_cons.mp valid
      obtain ⟨firstQuiet, laterQuiet⟩ := List.forall_mem_cons.mp quiet
      rw [Plock.doWaitersLoop]
      split
      · exact induction granted safe laterValid laterQuiet
      · rename_i free
        apply induction _ _ laterValid laterQuiet
        · exact granted.performs
            (lockInternal_performs safe.wellFormed firstValid) firstQuiet
        · exact safe.grant firstValid (by simpa using free)

theorem Table.Guards.wake (guards : table.Guards q)
    (safe : TableSafe table) : table.wake.Guards q := by
  constructor
  · exact guards.granted.doWaitersLoop _ safe.locks safe.waiters guards.quiet
  · intro w member
    exact guards.quiet w ((doWaitersLoop_sublist _ _ _).mem member)

theorem Table.Guards.request (guards : table.Guards q)
    (safe : TableSafe table) (valid : info.Valid)
    (apart : ¬Meets info q) : (table.request info).Guards q := by
  unfold Table.request
  split
  · split
    · constructor
      · exact guards.granted
      · intro w member
        rcases List.mem_append.mp member with old | new
        · exact guards.quiet w old
        · rw [List.mem_singleton.mp new]
          exact apart
    · exact guards
  · constructor
    · exact guards.granted.performs
        (lockInternal_performs safe.locks.wellFormed valid) apart
    · exact guards.quiet

theorem Table.Guards.release (guards : table.Guards q)
    (safe : TableSafe table) (valid : info.Valid)
    (apart : ¬Meets info q) : (table.release info).Guards q := by
  constructor
  · exact guards.granted.performs
      (unlockInternal_performs safe.locks.wellFormed valid.ordered) apart
  · exact guards.quiet

/-- Operations that do not meet a granted request leave it granted. -/
theorem Table.Guards.exec (guards : table.Guards q)
    (safe : TableSafe table) (valid : info.Valid)
    (apart : info.Changes → ¬Meets info q) :
    (table.exec info).Guards q := by
  unfold Table.exec
  cases kind : info.optype with
  | lock =>
      exact (guards.request safe valid (apart (.inl kind))).wake
        (safe.request valid)
  | unlock =>
      exact (guards.release safe valid (apart (.inr kind))).wake
        (safe.release valid)
  | get => exact guards
  | unknown code => exact guards

/-- Conflicting requests of different holders are not both granted. -/
theorem Safe.not_both_granted {locks : List PosixLock} {first second : Info}
    (safe : Safe locks) (firstGranted : Granted locks first)
    (secondGranted : Granted locks second)
    (firstValid : first.Valid) (secondValid : second.Valid)
    (different : first.holder ≠ second.holder)
    (overlap : first.start ≤ second.stop ∧ second.start ≤ first.stop) :
    first.ex = 0 ∧ second.ex = 0 := by
  have firstOrdered := firstValid.ordered
  have secondOrdered := secondValid.ordered
  obtain ⟨byte, firstAbove, firstBelow, secondAbove, secondBelow⟩ :
      ∃ byte, first.start ≤ byte ∧ byte ≤ first.stop ∧
        second.start ≤ byte ∧ byte ≤ second.stop := by
    by_cases later : first.start ≤ second.start
    · exact ⟨second.start, later, overlap.2, by grind, secondOrdered⟩
    · exact ⟨first.start, by grind, firstOrdered, by grind, overlap.1⟩
  exact safe.compatible first.holder second.holder byte first.ex second.ex
    different (firstGranted byte firstAbove firstBelow)
    (secondGranted byte secondAbove secondBelow)

end Tables

end Dlm.Plock
