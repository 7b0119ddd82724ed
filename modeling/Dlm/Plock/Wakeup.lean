import Dlm.Plock.ResourceRun

/-!
# Wake-ups of waiting requests

`do_waiters` makes one pass over the queue.  A request that is granted during
the pass may turn an exclusive range of its holder into a shared one, and a
shared request in front of it, already skipped, is then left waiting although
nothing conflicts with it any more.

Without such a downgrade in the queue, every request that waits after a step
conflicts with some lock.
-/

namespace Dlm.Plock

open Segments

variable {locks : List PosixLock} {info : Info} {w : LockWaiter}
  {queue : List LockWaiter} {r : Resource} {op : ResourceOp}
  {slot : Option Resource}

/-- Every waiting request conflicts with some lock. -/
def AllBlocked (r : Resource) : Prop :=
  ∀ w ∈ r.waiters, (isConflict r.locks w.info false).1 = true

/-- An exclusive range of the holder of `granted` that overlaps both requests,
while these overlap each other. -/
def Exposes (holder : Holder) (ex : UInt8) (start stop : UInt64)
    (skipped granted : Info) : Prop :=
  holder = granted.holder ∧ ex ≠ 0 ∧
    rangesOverlap start stop skipped.start skipped.stop = true ∧
    rangesOverlap start stop granted.start granted.stop = true ∧
    rangesOverlap skipped.start skipped.stop granted.start granted.stop = true

/-- A shared request waits behind a shared request of another holder, and its
own holder has an exclusive lock on a part that both ask for: held already,
asked for further ahead in the queue, or asked for by the step. -/
def QueuedDowngrade (r : Resource) (op : ResourceOp) : Prop :=
  ∃ skipped granted : LockWaiter,
    [skipped, granted].Sublist r.waiters ∧
    skipped.info.ex = 0 ∧ granted.info.ex = 0 ∧
    skipped.info.holder ≠ granted.info.holder ∧
    ((∃ po ∈ r.locks,
        Exposes po.holder po.ex po.start po.stop skipped.info granted.info) ∨
      (∃ w : LockWaiter, [w, skipped, granted].Sublist r.waiters ∧
        Exposes w.info.holder w.info.ex w.info.start w.info.stop
          skipped.info granted.info) ∨
      (∃ info, op = .lock info ∧
        Exposes info.holder info.ex info.start info.stop
          skipped.info granted.info))

/-- The byte lies in the range of the request. -/
def Info.Asks (info : Info) (byte : UInt64) : Prop :=
  info.start ≤ byte ∧ byte ≤ info.stop

/-- The holder of the second request has nothing exclusive on the bytes that
both shared requests ask for. -/
def Unexposed (locks : List PosixLock) (skipped granted : Info) : Prop :=
  skipped.ex = 0 → granted.ex = 0 → skipped.holder ≠ granted.holder →
    ∀ byte mode, Holds locks granted.holder byte mode → mode ≠ 0 →
      skipped.Asks byte → ¬granted.Asks byte

/-- Granting `first` exposes no byte that both other requests ask for. -/
def HarmlessGrant (first skipped granted : Info) : Prop :=
  skipped.ex = 0 → granted.ex = 0 → skipped.holder ≠ granted.holder →
    first.holder = granted.holder → first.ex ≠ 0 →
      ∀ byte, first.Asks byte → skipped.Asks byte → ¬granted.Asks byte

/-- A conflict of the request that no grant of the queue can resolve. -/
def RobustlyBlocked (locks : List PosixLock) (queue : List LockWaiter)
    (info : Info) : Prop :=
  ∃ holder byte mode, holder ≠ info.holder ∧ Holds locks holder byte mode ∧
    info.Asks byte ∧
    (info.ex ≠ 0 ∨ (mode ≠ 0 ∧ ∀ w ∈ queue, w.info.ex = 0 →
      w.info.holder = holder → ¬w.info.Asks byte))

/-- The queue can be worked through in front of this table without exposing a
skipped request. -/
structure Orderly (locks : List PosixLock) (queue : List LockWaiter) :
    Prop where
  valid : ∀ w ∈ queue, w.info.Valid
  unexposed : ∀ skipped granted : LockWaiter,
    [skipped, granted].Sublist queue →
      Unexposed locks skipped.info granted.info
  harmless : ∀ first skipped granted : LockWaiter,
    [first, skipped, granted].Sublist queue →
      HarmlessGrant first.info skipped.info granted.info

/-- Ranges with a byte in common overlap pairwise. -/
theorem common_byte_overlaps {start stop byte : UInt64}
    {skipped granted : Info} (inside : start ≤ byte ∧ byte ≤ stop)
    (skippedAsks : skipped.Asks byte) (grantedAsks : granted.Asks byte) :
    rangesOverlap start stop skipped.start skipped.stop = true ∧
      rangesOverlap start stop granted.start granted.stop = true ∧
      rangesOverlap skipped.start skipped.stop granted.start granted.stop =
        true := by
  simp only [rangesOverlap_eq_true_iff]
  simp only [Info.Asks] at skippedAsks grantedAsks
  grind

theorem Unexposed.grant {skipped granted : Info}
    (wellFormed : WellFormed locks) (valid : info.Valid)
    (unexposed : Unexposed locks skipped granted)
    (harmless : HarmlessGrant info skipped granted) :
    Unexposed (lockInternal [] locks info).2 skipped granted := by
  intro skippedShared grantedShared different byte mode holds exclusive
    skippedAsks
  obtain ⟨_, _, written⟩ := lockInternal_performs wellFormed valid
  rcases (written _ byte mode).mp holds with ⟨same, above, below, modeEq⟩ |
    ⟨_, old⟩
  · have infoExclusive : info.ex ≠ 0 := by
      rw [Option.some.inj modeEq]
      exact exclusive
    exact harmless skippedShared grantedShared different same.symm
      infoExclusive byte ⟨above, below⟩ skippedAsks
  · exact unexposed skippedShared grantedShared different byte mode old
      exclusive skippedAsks

theorem Orderly.tail (orderly : Orderly locks (w :: queue)) :
    Orderly locks queue :=
  { valid := fun other member => orderly.valid other (by simp [member])
    unexposed := fun skipped granted sublist =>
      orderly.unexposed skipped granted (sublist.cons w)
    harmless := fun first skipped granted sublist =>
      orderly.harmless first skipped granted (sublist.cons w) }

theorem Orderly.grant (wellFormed : WellFormed locks)
    (orderly : Orderly locks (w :: queue)) :
    Orderly (lockInternal [] locks w.info).2 queue :=
  { valid := orderly.tail.valid
    unexposed := fun skipped granted sublist =>
      (orderly.tail.unexposed skipped granted sublist).grant wellFormed
        (orderly.valid w (by simp))
        (orderly.harmless w skipped granted (sublist.cons_cons w))
    harmless := orderly.tail.harmless }

theorem RobustlyBlocked.tail
    (blocked : RobustlyBlocked locks (w :: queue) info) :
    RobustlyBlocked locks queue info := by
  obtain ⟨holder, byte, mode, different, holds, asks, lasting⟩ := blocked
  refine ⟨holder, byte, mode, different, holds, asks, ?_⟩
  rcases lasting with exclusive | ⟨exclusive, others⟩
  · exact .inl exclusive
  · exact .inr ⟨exclusive, fun other member => others other (by simp [member])⟩

theorem RobustlyBlocked.grant (wellFormed : WellFormed locks)
    (valid : w.info.Valid) (blocked : RobustlyBlocked locks (w :: queue) info) :
    RobustlyBlocked (lockInternal [] locks w.info).2 queue info := by
  obtain ⟨holder, byte, mode, different, holds, asks, lasting⟩ := blocked
  obtain ⟨_, _, written⟩ := lockInternal_performs wellFormed valid
  by_cases rewritten : holder = w.info.holder ∧ w.info.Asks byte
  · -- The grant gives the blocking byte its own mode.
    refine ⟨holder, byte, w.info.ex, different, ?_, asks, ?_⟩
    · exact (written holder byte w.info.ex).mpr
        (.inl ⟨rewritten.1, rewritten.2.1, rewritten.2.2, rfl⟩)
    · rcases lasting with exclusive | ⟨_, others⟩
      · exact .inl exclusive
      · refine .inr ⟨?_, fun other member => others other (by simp [member])⟩
        intro shared
        exact others w (by simp) shared rewritten.1.symm rewritten.2
  · refine RobustlyBlocked.tail
      ⟨holder, byte, mode, different, ?_, asks, lasting⟩
    exact (written holder byte mode).mpr (.inr ⟨by simpa [Info.Asks] using
      rewritten, holds⟩)

/-- A request skipped in an orderly queue stays blocked. -/
theorem Orderly.skip (wellFormed : WellFormed locks)
    (orderly : Orderly locks (w :: queue))
    (conflict : (isConflict locks w.info false).1 = true) :
    RobustlyBlocked locks queue w.info := by
  have valid := orderly.valid w (by simp)
  obtain ⟨holder, byte, mode, different, holds, above, below, modes⟩ :=
    (isConflict_iff_holds wellFormed valid.ordered).mp conflict
  refine ⟨holder, byte, mode, different, holds, ⟨above, below⟩, ?_⟩
  by_cases exclusive : w.info.ex = 0
  · have modeExclusive : mode ≠ 0 := by grind
    refine .inr ⟨modeExclusive, ?_⟩
    intro granted member shared same
    have pair : [w, granted].Sublist (w :: queue) :=
      (List.singleton_sublist.mpr member).cons_cons w
    refine orderly.unexposed w granted pair exclusive shared ?_ byte mode ?_
      modeExclusive ⟨above, below⟩
    · rw [same]
      exact different.symm
    · rw [same]
      exact holds
  · exact .inl exclusive

theorem RobustlyBlocked.conflict (wellFormed : WellFormed locks)
    (valid : info.Valid) (blocked : RobustlyBlocked locks queue info) :
    (isConflict locks info false).1 = true := by
  obtain ⟨holder, byte, mode, different, holds, asks, lasting⟩ := blocked
  refine (isConflict_iff_holds wellFormed valid.ordered).mpr
    ⟨holder, byte, mode, different, holds, asks.1, asks.2, ?_⟩
  rcases lasting with exclusive | ⟨exclusive, _⟩
  · exact .inl exclusive
  · exact .inr exclusive

/-- After the pass of `do_waiters` over an orderly queue, the requests skipped
before the pass and those left by it are all blocked. -/
theorem doWaitersLoop_blocked (env : Env) (wellFormed : WellFormed locks)
    (orderly : Orderly locks queue) :
    (∀ info : Info, info.Valid → RobustlyBlocked locks queue info →
      (isConflict (doWaitersLoop env locks queue).1 info false).1 = true) ∧
    (∀ w ∈ (doWaitersLoop env locks queue).2.1,
      (isConflict (doWaitersLoop env locks queue).1 w.info false).1 =
        true) := by
  induction queue generalizing locks with
  | nil =>
      simp only [doWaitersLoop, List.not_mem_nil, false_implies, implies_true,
        and_true]
      intro info valid blocked
      exact blocked.conflict wellFormed valid
  | cons w later induction =>
      have valid := orderly.valid w (by simp)
      rw [doWaitersLoop]
      split
      · rename_i conflict
        obtain ⟨earlier, left⟩ := induction wellFormed orderly.tail
        refine ⟨fun info infoValid blocked =>
          earlier info infoValid blocked.tail, ?_⟩
        intro other member
        rcases List.mem_cons.mp member with rfl | member
        · exact earlier _ valid (orderly.skip wellFormed conflict)
        · exact left other member
      · have granted := (lockInternal_performs wellFormed valid).2.1
        obtain ⟨earlier, left⟩ := induction granted (orderly.grant wellFormed)
        exact ⟨fun info infoValid blocked =>
          earlier info infoValid (blocked.grant wellFormed valid), left⟩

theorem Orderly.of_not_queuedDowngrade (valid : ∀ w ∈ r.waiters, w.info.Valid)
    (absent : ¬QueuedDowngrade r op) : Orderly r.locks r.waiters :=
  { valid := valid
    unexposed := by
      intro skipped granted sublist skippedShared grantedShared different byte
        mode holds exclusive skippedAsks grantedAsks
      obtain ⟨po, member, covers⟩ := holds
      obtain ⟨same, above, below, modeEq⟩ := lockView_at.mp covers
      apply absent
      refine ⟨skipped, granted, sublist, skippedShared, grantedShared,
        different, .inl ⟨po, member, same, modeEq ▸ exclusive, ?_⟩⟩
      exact common_byte_overlaps ⟨above, below⟩ skippedAsks grantedAsks
    harmless := by
      intro first skipped granted sublist skippedShared grantedShared
        different same exclusive byte firstAsks skippedAsks grantedAsks
      apply absent
      refine ⟨skipped, granted, (List.sublist_cons_self _ _).trans sublist,
        skippedShared, grantedShared, different,
        .inr (.inl ⟨first, sublist, same, exclusive, ?_⟩)⟩
      exact common_byte_overlaps firstAsks skippedAsks grantedAsks }

/-- The request of the step is harmless for every pair of the queue. -/
theorem harmlessGrant_of_not_queuedDowngrade
    (absent : ¬QueuedDowngrade r (.lock info)) {skipped granted : LockWaiter}
    (sublist : [skipped, granted].Sublist r.waiters) :
    HarmlessGrant info skipped.info granted.info := by
  intro skippedShared grantedShared different same exclusive byte asks
    skippedAsks grantedAsks
  apply absent
  refine ⟨skipped, granted, sublist, skippedShared, grantedShared, different,
    .inr (.inr ⟨info, rfl, same, exclusive, ?_⟩)⟩
  exact common_byte_overlaps asks skippedAsks grantedAsks

/-- Fewer bytes held and fewer requests waiting keep the queue orderly. -/
theorem Orderly.mono {fewer : List PosixLock} {shorter : List LockWaiter}
    (orderly : Orderly locks queue) (held : ∀ holder byte mode,
      Holds fewer holder byte mode → Holds locks holder byte mode)
    (sublist : shorter.Sublist queue) : Orderly fewer shorter :=
  { valid := fun w member => orderly.valid w (sublist.mem member)
    unexposed := by
      intro skipped granted pair skippedShared grantedShared different byte
        mode holds
      exact orderly.unexposed skipped granted (pair.trans sublist)
        skippedShared grantedShared different byte mode (held _ _ _ holds)
    harmless := fun first skipped granted triple =>
      orderly.harmless first skipped granted (triple.trans sublist) }

/-- Every waiting request of the resource in the slot, if any, is blocked. -/
def SlotBlocked (slot : Option Resource) : Prop :=
  ∀ r, slot = some r → AllBlocked r

theorem allBlocked_doWaiters (env : Env) (wellFormed : WellFormed r.locks)
    (orderly : Orderly r.locks r.waiters) :
    AllBlocked (doWaiters env r).1 :=
  (doWaitersLoop_blocked env wellFormed orderly).2

theorem AllBlocked.doWaiters_eq (env : Env) (blocked : AllBlocked r) :
    doWaiters env r = (r, []) := by
  simp [doWaiters, doWaitersLoop_of_blocked env blocked]

theorem SlotBlocked.getD {env : Env} {number : UInt64}
    (blocked : SlotBlocked slot) :
    AllBlocked (slot.getD (newResource env number)) := by
  cases slot with
  | none => simp [AllBlocked, newResource]
  | some r => exact blocked r rfl

theorem AllBlocked.put {env : Env} (blocked : AllBlocked r) :
    SlotBlocked (putResource env r) := by
  intro s kept
  rw [putResource_eq_some kept]
  exact blocked

theorem lock_allBlocked (env : Env) (safe : ResourceSafe r)
    (valid : info.Valid) (blocked : AllBlocked r)
    (absent : ¬QueuedDowngrade r (.lock info)) :
    AllBlocked (doWaiters env (lockRequest env info r).1).1 := by
  unfold lockRequest
  split
  · rename_i conflict
    split
    · have added : AllBlocked (addWaiter env r info) := by
        intro w member
        rcases List.mem_append.mp member with old | new
        · exact blocked w old
        · rw [List.mem_singleton.mp new]
          exact conflict
      rw [added.doWaiters_eq]
      exact added
    · rw [blocked.doWaiters_eq]
      exact blocked
  · have orderly := Orderly.of_not_queuedDowngrade safe.waiters absent
    have wellFormed := safe.locks.wellFormed
    apply allBlocked_doWaiters
    · exact (lockInternal_performs wellFormed valid).2.1
    · exact
        { valid := orderly.valid
          unexposed := fun skipped granted sublist =>
            (orderly.unexposed skipped granted sublist).grant wellFormed valid
              (harmlessGrant_of_not_queuedDowngrade absent sublist)
          harmless := orderly.harmless }

theorem unlock_allBlocked (env : Env) (safe : ResourceSafe r)
    (valid : info.Valid) (absent : ¬QueuedDowngrade r (.unlock info)) :
    AllBlocked (doWaiters env
      { r with locks := (unlockInternal [] r.locks info).2 }).1 := by
  obtain ⟨_, wellFormed, written⟩ :=
    unlockInternal_performs safe.locks.wellFormed valid.ordered
  have orderly := Orderly.of_not_queuedDowngrade safe.waiters absent
  apply allBlocked_doWaiters
  · exact wellFormed
  · apply orderly.mono _ (List.Sublist.refl _)
    intro holder byte mode holds
    rcases (written holder byte mode).mp holds with ⟨_, _, _, none⟩ | ⟨_, old⟩
    · cases none
    · exact old

theorem purge_allBlocked (env : Env) {nodeid : Int32} {unmount : Bool}
    (safe : ResourceSafe r)
    (absent : ¬QueuedDowngrade r (.purge nodeid unmount)) :
    AllBlocked (doWaiters env
      (purgeOwner nodeid (purgeEntries nodeid unmount r)).1).1 := by
  have orderly := Orderly.of_not_queuedDowngrade safe.waiters absent
  have lists : (purgeOwner nodeid (purgeEntries nodeid unmount r)).1.locks =
        (purgeEntries nodeid unmount r).locks ∧
      (purgeOwner nodeid (purgeEntries nodeid unmount r)).1.waiters =
        (purgeEntries nodeid unmount r).waiters := by
    unfold purgeOwner
    split <;> exact ⟨rfl, rfl⟩
  apply allBlocked_doWaiters
  · rw [lists.1]
    exact safe.locks.wellFormed.sublist List.filter_sublist
  · rw [lists.1, lists.2]
    apply orderly.mono _ List.filter_sublist
    intro holder byte mode holds
    exact holds_of_sublist List.filter_sublist holds

/-- The step is a request as the kernel sends it, or a purge, and finds no
queued downgrade. -/
def WakesAll (slot : Option Resource) (op : ResourceOp) : Prop :=
  op.Valid ∧ ∀ r, slot = some r → ¬QueuedDowngrade r op

theorem resourceNext_blocked {env : Env} {number : UInt64}
    (wakes : WakesAll slot op) (safe : SlotSafe slot)
    (blocked : SlotBlocked slot) :
    SlotBlocked (resourceNext env number slot op) := by
  obtain ⟨valid, absent⟩ := wakes
  have absentHere :
      ¬QueuedDowngrade (slot.getD (newResource env number)) op := by
    cases slot with
    | none =>
        rintro ⟨_, _, sublist, _⟩
        simp [newResource] at sublist
    | some r => exact absent r rfl
  cases op with
  | lock info =>
      exact (lock_allBlocked env safe.getD valid blocked.getD absentHere).put
  | unlock info =>
      exact (unlock_allBlocked env safe.getD valid absentHere).put
  | purge nodeid unmount =>
      cases slot with
      | none => simp [resourceNext, SlotBlocked]
      | some r =>
          simp only [resourceNext, purgeResource_eq]
          exact (purge_allBlocked env (safe r rfl) (absent r rfl)).put

/-- No lost wake-up: from an empty resource, in any run whose steps find no
queued downgrade, every request left waiting conflicts with some lock. -/
theorem waiters_blocked_in_every_run {env : Env} {number : UInt64}
    {r : Resource}
    (run : (resourceSystem env number).Run WakesAll
      (some (newResource env number)) (some r)) :
    ∀ w ∈ r.waiters, (isConflict r.locks w.info false).1 = true := by
  have both : SlotSafe (some r) ∧ SlotBlocked (some r) := by
    refine run.invariant (fun slot => SlotSafe slot ∧ SlotBlocked slot) ?_ ?_
    · refine ⟨?_, ?_⟩
      · intro s same
        rw [← Option.some.inj same]
        exact .new env number
      · intro s same
        rw [← Option.some.inj same]
        simp [AllBlocked, newResource]
    · intro slot op _ wakes invariants
      exact ⟨resourceNext_safe wakes.1 invariants.1,
        resourceNext_blocked wakes invariants.1 invariants.2⟩
  exact both.2 r rfl

/-- A queue of at most one request has no queued downgrade. -/
theorem wakesAll_of_short (valid : op.Valid)
    (short : (slot.map (·.waiters.length)).getD 0 ≤ 1) :
    WakesAll slot op := by
  refine ⟨valid, ?_⟩
  rintro r rfl ⟨_, _, sublist, _⟩
  have long := sublist.length_le
  simp at short long
  omega

/-- A partial unlock wakes the only waiter; a request over both locks then
waits. -/
def wakeOps : List ResourceOp :=
  [.lock (requestOf .lock 1 1 0 10), .lock (requestOf .lock 1 2 5 5),
    .unlock (requestOf .unlock 0 1 5 5), .lock (requestOf .lock 1 3 0 20)]

theorem waiters_blocked_after_wake :
    ∃ r, (resourceSystem soleEnv 7).Run WakesAll
        (some (newResource soleEnv 7)) (some r) ∧
      r.locks.length = 3 ∧ r.waiters.length = 1 ∧
      ∀ w ∈ r.waiters, (isConflict r.locks w.info false).1 = true := by
  have follows : (resourceSystem soleEnv 7).Follows
      (fun slot op => op.Valid ∧
        (slot.map (·.waiters.length)).getD 0 ≤ 1)
      (some (newResource soleEnv 7)) wakeOps := by decide
  have run : (resourceSystem soleEnv 7).Run WakesAll
      (some (newResource soleEnv 7)) _ :=
    (System.run_of_follows wakeOps .refl follows).mono
      fun _ _ both => wakesAll_of_short both.1 both.2
  exact ⟨_, run, rfl, rfl, waiters_blocked_in_every_run run⟩

/-- Owner 3 waits for owner 1, who waits behind it with a shared request over
its own exclusive lock and the lock of owner 2. -/
def strandOps : List ResourceOp :=
  [.lock (requestOf .lock 1 1 0 10), .lock (requestOf .lock 1 2 20 30),
    .lock (requestOf .lock 0 3 0 5), .lock (requestOf .lock 0 1 0 30),
    .unlock (requestOf .unlock 0 2 20 30)]

/-- After the unlock of owner 2, owner 3 waits although nothing conflicts. -/
theorem waiter_stranded_by_downgrade :
    ∃ r w, (resourceSystem soleEnv 7).Run (fun _ op => op.Valid)
        (some (newResource soleEnv 7)) (some r) ∧
      w ∈ r.waiters ∧ (isConflict r.locks w.info false).1 = false := by
  have follows : (resourceSystem soleEnv 7).Follows (fun _ op => op.Valid)
      (some (newResource soleEnv 7)) strandOps := by decide
  have run := System.run_of_follows strandOps .refl follows
  exact ⟨_, ⟨false, requestOf .lock 0 3 0 5⟩, run, by decide, by decide⟩

end Dlm.Plock
