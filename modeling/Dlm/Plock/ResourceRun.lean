import Dlm.Lib.Run
import Dlm.Plock.Receive
import Dlm.Plock.TableSpec

/-!
# Runs of operations on one resource

The operations that reach one resource: lock and unlock requests, of any node,
and purges.  The state is what `search_resource` finds, so that a resource
freed by `put_resource` or by a purge is created anew by the next request.

In every state reached from an empty resource the lock table is safe: locks of
different holders that overlap are shared, those of one holder are disjoint.
-/

namespace Dlm.Plock

open Segments

variable {locks : List PosixLock} {info : Info} {r : Resource} {env : Env}

/-- A step of a resource. -/
inductive ResourceOp where
  | lock (info : Info)
  | unlock (info : Info)
  | purge (nodeid : Int32) (unmount : Bool)

/-- The effect of a step on what `search_resource` finds. -/
def resourceNext (env : Env) (number : UInt64) (slot : Option Resource) :
    ResourceOp → Option Resource
  | .lock info =>
      (doLock env info (slot.getD (newResource env number))).1
  | .unlock info =>
      (doUnlock env info (slot.getD (newResource env number))).1
  | .purge nodeid unmount =>
      match slot with
      | none => none
      | some r => (purgeResource env nodeid unmount r).1

def resourceSystem (env : Env) (number : UInt64) :
    System (Option Resource) ResourceOp :=
  { enabled := fun _ _ => True
    next := resourceNext env number }

/-- The requests of the step are as the kernel guarantees. -/
def ResourceOp.Valid : ResourceOp → Prop
  | .lock info => info.Valid
  | .unlock info => info.Valid
  | .purge _ _ => True

/-- Different holders share the bytes that they both hold. -/
def Compatible (locks : List PosixLock) : Prop :=
  ∀ first second byte firstMode secondMode, first ≠ second →
    Holds locks first byte firstMode → Holds locks second byte secondMode →
      firstMode = 0 ∧ secondMode = 0

structure Safe (locks : List PosixLock) : Prop where
  wellFormed : WellFormed locks
  compatible : Compatible locks

/-- The table is safe and every waiting request is as the kernel sent it. -/
structure ResourceSafe (r : Resource) : Prop where
  locks : Safe r.locks
  waiters : ∀ w ∈ r.waiters, w.info.Valid

theorem holds_of_sublist {fewer : List PosixLock} {holder : Holder}
    {byte : UInt64} {mode : UInt8} (sublist : fewer.Sublist locks)
    (holds : Holds fewer holder byte mode) :
    Holds locks holder byte mode := by
  obtain ⟨po, member, covers⟩ := holds
  exact ⟨po, sublist.mem member, covers⟩

theorem Safe.nil : Safe [] :=
  { wellFormed := .nil
    compatible := by
      intro first second byte firstMode secondMode _ holds
      exact absurd holds View.holds_nil }

theorem Safe.sublist {fewer : List PosixLock} (safe : Safe locks)
    (sublist : fewer.Sublist locks) : Safe fewer :=
  { wellFormed := safe.wellFormed.sublist sublist
    compatible := by
      intro first second byte firstMode secondMode different firstHolds
        secondHolds
      exact safe.compatible first second byte firstMode secondMode different
        (holds_of_sublist sublist firstHolds)
        (holds_of_sublist sublist secondHolds) }

/-- `is_conflict` says whether some lock conflicts with the request. -/
theorem isConflict_iff :
    (isConflict locks info false).1 = true ↔
      ∃ po ∈ locks, conflicts po info = true := by
  unfold isConflict
  cases found : locks.find? (conflicts · info) with
  | none =>
      have nobody := List.find?_eq_none.mp found
      simpa using nobody
  | some po =>
      have conflict := List.find?_some found
      simp only [Bool.false_eq_true, if_false, true_iff]
      exact ⟨po, List.mem_of_find?_eq_some found, by simpa using conflict⟩

theorem conflicts_iff {po : PosixLock} :
    conflicts po info = true ↔
      po.holder ≠ info.holder ∧ info.start ≤ po.stop ∧ po.start ≤ info.stop ∧
        (info.ex ≠ 0 ∨ po.ex ≠ 0) := by
  simp only [conflicts, PosixLock.holder, Info.holder]
  simp only [Bool.and_eq_true, rangesOverlap_eq_true_iff, Bool.not_eq_true',
    Bool.or_eq_true, bne_iff_ne, ne_eq, Prod.mk.injEq]
  grind

/-- In a well-formed table a conflict is a byte of the request on which
another holder has a mode that does not go with it. -/
theorem isConflict_iff_holds (wellFormed : WellFormed locks)
    (ordered : info.start ≤ info.stop) :
    (isConflict locks info false).1 = true ↔
      ∃ holder byte mode, holder ≠ info.holder ∧
        Holds locks holder byte mode ∧
        info.start ≤ byte ∧ byte ≤ info.stop ∧
        (info.ex ≠ 0 ∨ mode ≠ 0) := by
  rw [isConflict_iff]
  constructor
  · rintro ⟨po, member, conflict⟩
    obtain ⟨different, startBelow, stopAbove, modes⟩ :=
      conflicts_iff.mp conflict
    have poOrdered : po.start ≤ po.stop :=
      wellFormed.tidy.ordered po member
    by_cases front : po.start ≤ info.start
    · exact ⟨po.holder, info.start, po.ex, different,
        ⟨po, member, lockView_at.mpr ⟨rfl, front, startBelow, rfl⟩⟩,
        by grind, ordered, modes⟩
    · exact ⟨po.holder, po.start, po.ex, different,
        ⟨po, member, lockView_at.mpr ⟨rfl, by grind, poOrdered, rfl⟩⟩,
        by grind, stopAbove, modes⟩
  · rintro ⟨holder, byte, mode, different, ⟨po, member, covers⟩, above, below,
      modes⟩
    obtain ⟨holderEq, poAbove, poBelow, modeEq⟩ := lockView_at.mp covers
    refine ⟨po, member, conflicts_iff.mpr ?_⟩
    grind

/-- Granting a request that does not conflict. -/
theorem Safe.grant (safe : Safe locks) (valid : info.Valid)
    (free : (isConflict locks info false).1 = false) :
    Safe (lockInternal [] locks info).2 := by
  obtain ⟨_, wellFormed, written⟩ :=
    lockInternal_performs safe.wellFormed valid
  refine ⟨wellFormed, ?_⟩
  have nobody := (isConflict_iff_holds safe.wellFormed valid.ordered).not
  rw [free] at nobody
  intro first second byte firstMode secondMode different firstHolds
    secondHolds
  have firstOld := (written first byte firstMode).mp firstHolds
  have secondOld := (written second byte secondMode).mp secondHolds
  have compatible := safe.compatible first second byte firstMode secondMode
    different
  have firstFree : first ≠ info.holder → Holds locks first byte firstMode →
      info.start ≤ byte → byte ≤ info.stop →
        info.ex = 0 ∧ firstMode = 0 := by
    intro other holds above below
    by_contra modes
    exact nobody.mp (by simp)
      ⟨first, byte, firstMode, other, holds, above, below, by grind⟩
  have secondFree : second ≠ info.holder →
      Holds locks second byte secondMode →
      info.start ≤ byte → byte ≤ info.stop →
        info.ex = 0 ∧ secondMode = 0 := by
    intro other holds above below
    by_contra modes
    exact nobody.mp (by simp)
      ⟨second, byte, secondMode, other, holds, above, below, by grind⟩
  grind

theorem Safe.release (safe : Safe locks) (ordered : info.start ≤ info.stop) :
    Safe (unlockInternal [] locks info).2 := by
  obtain ⟨_, wellFormed, written⟩ :=
    unlockInternal_performs safe.wellFormed ordered
  refine ⟨wellFormed, ?_⟩
  intro first second byte firstMode secondMode different firstHolds
    secondHolds
  have firstOld := (written first byte firstMode).mp firstHolds
  have secondOld := (written second byte secondMode).mp secondHolds
  exact safe.compatible first second byte firstMode secondMode different
    (by grind) (by grind)

/-- The waiters left by `do_waiters` are some of those that were there. -/
theorem doWaitersLoop_safe (env : Env) {waiters : List LockWaiter}
    (safe : Safe locks) (valid : ∀ w ∈ waiters, w.info.Valid) :
    Safe (doWaitersLoop env locks waiters).1 := by
  induction waiters generalizing locks with
  | nil => simpa [doWaitersLoop] using safe
  | cons w later induction =>
      have laterValid : ∀ other ∈ later, other.info.Valid := by
        intro other member
        exact valid other (by simp [member])
      rw [doWaitersLoop]
      split
      · exact induction safe laterValid
      · rename_i free
        have granted := safe.grant (valid w (by simp)) (by simpa using free)
        exact induction granted laterValid

theorem ResourceSafe.doWaiters (env : Env) (safe : ResourceSafe r) :
    ResourceSafe (doWaiters env r).1 :=
  { locks := doWaitersLoop_safe env safe.locks safe.waiters
    waiters := fun w member =>
      safe.waiters w ((doWaitersLoop_sublist env _ _).mem member) }

theorem ResourceSafe.lockRequest (env : Env) (safe : ResourceSafe r)
    (valid : info.Valid) :
    ResourceSafe (lockRequest env info r).1 := by
  unfold Plock.lockRequest
  split
  · split
    · refine ⟨safe.locks, ?_⟩
      intro w member
      simp only [addWaiter, List.mem_append, List.mem_singleton] at member
      rcases member with old | rfl
      · exact safe.waiters w old
      · exact valid
    · exact safe
  · rename_i free
    exact ⟨safe.locks.grant valid (by simpa using free), safe.waiters⟩

/-- `slot` holds no resource, or a safe one. -/
def SlotSafe (slot : Option Resource) : Prop :=
  ∀ r, slot = some r → ResourceSafe r

theorem ResourceSafe.put (safe : ResourceSafe r) :
    SlotSafe (putResource env r) := by
  intro s kept
  rw [putResource_eq_some kept]
  exact safe

theorem ResourceSafe.new (env : Env) (number : UInt64) :
    ResourceSafe (newResource env number) :=
  { locks := Safe.nil
    waiters := by simp [newResource] }

theorem SlotSafe.getD {number : UInt64} {slot : Option Resource}
    (safe : SlotSafe slot) :
    ResourceSafe (slot.getD (newResource env number)) := by
  cases slot with
  | none => exact .new env number
  | some r => exact safe r rfl

theorem ResourceSafe.purge (safe : ResourceSafe r) (nodeid : Int32)
    (unmount : Bool) :
    SlotSafe (purgeResource env nodeid unmount r).1 := by
  have entries : ResourceSafe (purgeEntries nodeid unmount r) :=
    { locks := safe.locks.sublist List.filter_sublist
      waiters := fun w member =>
        safe.waiters w (List.mem_of_mem_filter member) }
  have owned : ResourceSafe
      (purgeOwner nodeid (purgeEntries nodeid unmount r)).1 := by
    unfold purgeOwner
    split
    · exact ⟨entries.locks, entries.waiters⟩
    · exact entries
  rw [purgeResource_eq]
  exact (owned.doWaiters env).put

/-- Every step keeps the resource safe. -/
theorem resourceNext_safe {number : UInt64} {slot : Option Resource}
    {op : ResourceOp} (valid : op.Valid) (safe : SlotSafe slot) :
    SlotSafe (resourceNext env number slot op) := by
  cases op with
  | lock info =>
      exact ((safe.getD.lockRequest env valid).doWaiters env).put
  | unlock info =>
      have released : ResourceSafe
          { slot.getD (newResource env number) with
            locks := (unlockInternal []
              (slot.getD (newResource env number)).locks info).2 } :=
        ⟨safe.getD.locks.release valid.ordered, safe.getD.waiters⟩
      exact (released.doWaiters env).put
  | purge nodeid unmount =>
      cases slot with
      | none => simp [resourceNext, SlotSafe]
      | some r => exact (safe r rfl).purge nodeid unmount

/-- What a safe table says of its entries. -/
theorem Safe.entries (safe : Safe locks) :
    (∀ po ∈ locks, ∀ other ∈ locks, po.holder ≠ other.holder →
      rangesOverlap po.start po.stop other.start other.stop = true →
        po.ex = 0 ∧ other.ex = 0) ∧
    locks.Pairwise (fun po other => po.holder = other.holder →
      rangesOverlap po.start po.stop other.start other.stop = false) ∧
    (∀ po ∈ locks, po.start ≤ po.stop) := by
  refine ⟨?_, ?_, safe.wellFormed.tidy.ordered⟩
  · intro po member other otherMember different overlaps
    rw [rangesOverlap_eq_true_iff] at overlaps
    have ordered : po.start ≤ po.stop :=
      safe.wellFormed.tidy.ordered po member
    have otherOrdered : other.start ≤ other.stop :=
      safe.wellFormed.tidy.ordered other otherMember
    -- The later of the two starts is a byte of both.
    have common (byte : UInt64) (inPo : po.start ≤ byte ∧ byte ≤ po.stop)
        (inOther : other.start ≤ byte ∧ byte ≤ other.stop) :
        po.ex = 0 ∧ other.ex = 0 :=
      safe.compatible po.holder other.holder byte po.ex other.ex different
        ⟨po, member, lockView_at.mpr ⟨rfl, inPo.1, inPo.2, rfl⟩⟩
        ⟨other, otherMember,
          lockView_at.mpr ⟨rfl, inOther.1, inOther.2, rfl⟩⟩
    by_cases front : po.start ≤ other.start
    · exact common other.start (by grind) (by grind)
    · exact common po.start (by grind) (by grind)
  · refine safe.wellFormed.tidy.apart.imp ?_
    intro po other apart same
    rw [rangesOverlap_eq_false_iff]
    exact apart same

/-- From an empty resource, any sequence of lock and unlock requests and purges
leads to a table in which overlapping locks of different holders are shared,
locks of one holder are disjoint, and every range is ordered. -/
theorem locks_safe_in_every_run {env : Env} {number : UInt64} {r : Resource}
    (run : (resourceSystem env number).Run (fun _ op => op.Valid)
      (some (newResource env number)) (some r)) :
    (∀ po ∈ r.locks, ∀ other ∈ r.locks, po.holder ≠ other.holder →
      rangesOverlap po.start po.stop other.start other.stop = true →
        po.ex = 0 ∧ other.ex = 0) ∧
    r.locks.Pairwise (fun po other => po.holder = other.holder →
      rangesOverlap po.start po.stop other.start other.stop = false) ∧
    (∀ po ∈ r.locks, po.start ≤ po.stop) := by
  have safe : SlotSafe (some r) := by
    refine run.invariant SlotSafe ?_ ?_
    · intro s same
      rw [← Option.some.inj same]
      exact .new env number
    · intro slot op _ valid slotSafe
      exact resourceNext_safe valid slotSafe
  exact (safe r rfl).locks.entries

/-- A node of its own with ownership disabled. -/
def soleEnv : Env :=
  { ourNodeid := 1
    plockOwnership := false
    dropResourcesCount := 10
    waiterJunk := fun _ => false
    lockJunk := fun _ => false
    infoJunk := fun _ => Info.cleared }

/-- A blocking request of lock owner `owner` on node 1 for resource 7. -/
def requestOf (optype : Optype) (ex : UInt8) (owner start stop : UInt64) :
    Info :=
  { Info.cleared with
    optype := optype
    ex := ex
    wait := true
    nodeid := 1
    number := 7
    start := start
    stop := stop
    owner := owner }

instance (op : ResourceOp) : Decidable op.Valid := by
  rcases op <;> unfold ResourceOp.Valid <;> infer_instance

instance (env : Env) (number : UInt64) (slot : Option Resource)
    (op : ResourceOp) :
    Decidable ((resourceSystem env number).enabled slot op) :=
  inferInstanceAs (Decidable True)

/-- A whole-file lock that the next request of its owner splits in three. -/
def splitOps : List ResourceOp :=
  [.lock (requestOf .lock 1 1 0 18446744073709551615),
    .lock (requestOf .lock 0 1 100 199), .lock (requestOf .lock 0 2 150 160)]

theorem locks_safe_after_split :
    ∃ r, (resourceSystem soleEnv 7).Run (fun _ op => op.Valid)
        (some (newResource soleEnv 7)) (some r) ∧
      r.locks.length = 4 ∧ (∀ po ∈ r.locks, po.start ≤ po.stop) := by
  have follows : (resourceSystem soleEnv 7).Follows (fun _ op => op.Valid)
      (some (newResource soleEnv 7)) splitOps := by decide
  have run := System.run_of_follows splitOps .refl follows
  exact ⟨_, run, rfl, (locks_safe_in_every_run run).2.2⟩

end Dlm.Plock
