import Dlm.Plock.Receive

/-!
# Tables without local fields

The nodes of a cluster agree on the fields of locks and waiters that the
messages carry, not on the `P_SYNCING` flags and the other fields of a waiter's
info.  A `Table` keeps only what is agreed on, and the operations of a node's
resource are operations on its table.
-/

namespace Dlm.Plock

def plainLock (po : PosixLock) : PosixLock := { po with syncing := false }

/-- The fields of a waiter that checkpoint records and `PLOCK_SYNC` messages
carry. -/
def plainInfo (info : Info) : Info :=
  { Info.cleared with
    start := info.start
    stop := info.stop
    nodeid := info.nodeid
    owner := info.owner
    pid := info.pid
    ex := info.ex }

def plainWaiter (w : LockWaiter) : LockWaiter :=
  { syncing := false, info := plainInfo w.info }

/-- The locks and waiters of a resource, without local fields. -/
structure Table where
  locks : List PosixLock
  waiters : List LockWaiter
  deriving DecidableEq, Repr

def Table.empty : Table := { locks := [], waiters := [] }

def Table.isEmpty (table : Table) : Bool :=
  table.locks.isEmpty && table.waiters.isEmpty

def Resource.table (r : Resource) : Table :=
  { locks := r.locks.map plainLock
    waiters := r.waiters.map plainWaiter }

/-- `do_waiters` reads its surroundings only for the results it writes. -/
def Table.env : Env :=
  { ourNodeid := 0
    plockOwnership := true
    dropResourcesCount := 0
    waiterJunk := fun _ => false
    lockJunk := fun _ => false
    infoJunk := fun _ => Info.cleared }

/-- What `do_waiters` makes of a table. -/
def Table.wake (table : Table) : Table :=
  let (locks, waiters, _) :=
    doWaitersLoop Table.env table.locks table.waiters
  { locks := locks, waiters := waiters }

/-- What a lock request makes of a table before `do_waiters`. -/
def Table.request (info : Info) (table : Table) : Table :=
  if (isConflict table.locks info false).1 then
    if info.wait then
      { table with
        waiters :=
          table.waiters ++ [{ syncing := false, info := plainInfo info }] }
    else table
  else { table with locks := (lockInternal [] table.locks info).2 }

/-- What an unlock request makes of a table before `do_waiters`. -/
def Table.release (info : Info) (table : Table) : Table :=
  { table with locks := (unlockInternal [] table.locks info).2 }

/-- What an operation makes of a table. -/
def Table.exec (info : Info) (table : Table) : Table :=
  match info.optype with
  | .lock => (table.request info).wake
  | .unlock => (table.release info).wake
  | .get => table
  | .unknown _ => table

def Table.purge (nodeid : Int32) (unmount : Bool) (table : Table) : Table :=
  { locks := table.locks.filter fun po => !(po.nodeid == nodeid || unmount)
    waiters :=
      table.waiters.filter fun w => !(w.info.nodeid == nodeid || unmount) }

theorem isConflict_plainLock (locks : List PosixLock) (info : Info) :
    (isConflict (locks.map plainLock) info false).1 =
      (isConflict locks info false).1 := by
  have same : (fun po => conflicts po info) ∘ plainLock =
      (conflicts · info) := rfl
  simp only [isConflict, List.find?_map, same]
  cases locks.find? (conflicts · info) with
  | none => rfl
  | some po => rfl

theorem isConflict_plainInfo (locks : List PosixLock) (info : Info) :
    (isConflict locks (plainInfo info) false).1 =
      (isConflict locks info false).1 := by
  have same : (conflicts · (plainInfo info)) = (conflicts · info) := rfl
  simp only [isConflict, same]
  cases locks.find? (conflicts · info) with
  | none => rfl
  | some po => rfl

theorem lockLoop_plainInfo (info : Info) (before after : List PosixLock) :
    lockLoop [] (plainInfo info) before after =
      lockLoop [] info before after := by
  induction after generalizing before with
  | nil => rfl
  | cons po after induction =>
      simp only [lockLoop, induction]
      rfl

@[simp] theorem plainLock_start (po : PosixLock) :
    (plainLock po).start = po.start := rfl

@[simp] theorem plainLock_stop (po : PosixLock) :
    (plainLock po).stop = po.stop := rfl

@[simp] theorem plainLock_ex (po : PosixLock) :
    (plainLock po).ex = po.ex := rfl

@[simp] theorem plainLock_nodeid (po : PosixLock) :
    (plainLock po).nodeid = po.nodeid := rfl

@[simp] theorem plainLock_owner (po : PosixLock) :
    (plainLock po).owner = po.owner := rfl

section Commute

variable (info : Info) (before : List PosixLock) (po : PosixLock)
variable (after : List PosixLock)

theorem lockCase1_map :
    lockCase1 [] (before.map plainLock) (plainLock po)
        (after.map plainLock) info =
      ((lockCase1 [] before po after info).1,
        (lockCase1 [] before po after info).2.map plainLock) := by
  simp only [lockCase1, addLock, malloc, plainLock_start, plainLock_stop]
  by_cases failed :
      (shrinkRange2 po.start po.stop info.start info.stop).1 ≠ 0
  · simp [failed]
  · simp [failed, plainLock]

theorem lockCase2_map :
    lockCase2 [] (before.map plainLock) (plainLock po)
        (after.map plainLock) info =
      ((lockCase2 [] before po after info).1,
        (lockCase2 [] before po after info).2.map plainLock) := by
  simp [lockCase2, addLock, malloc, plainLock]

theorem lockLoop_map :
    lockLoop [] info (before.map plainLock) (after.map plainLock) =
      ((lockLoop [] info before after).1,
        (lockLoop [] info before after).2.map plainLock) := by
  induction after generalizing before with
  | nil => simp [lockLoop, addLock, malloc, plainLock]
  | cons po after induction =>
      have passed (entry : PosixLock) := induction (before ++ [entry])
      simp only [List.map_append, List.map_cons, List.map_nil] at passed
      simp only [List.map_cons, lockLoop, plainLock_nodeid, plainLock_owner,
        plainLock_start, plainLock_stop, plainLock_ex]
      by_cases other : po.nodeid ≠ info.nodeid ∨ po.owner ≠ info.owner
      · simp only [other, if_true, passed]
      · simp only [other, if_false]
        by_cases apart :
            (!rangesOverlap po.start po.stop info.start info.stop) = true
        · simp only [apart, if_true, passed]
        · simp only [apart, Bool.false_eq_true, if_false]
          cases overlapType info.start info.stop po.start po.stop with
          | case0 =>
              by_cases equal : po.ex = info.ex
              · simp [equal]
              · simp [equal, plainLock]
          | case1 =>
              by_cases equal : po.ex = info.ex
              · simp [equal]
              · simp only [equal, if_false]
                exact lockCase1_map info before po after
          | case2 =>
              by_cases equal : po.ex = info.ex
              · simp [equal]
              · simp only [equal, if_false]
                exact lockCase2_map info before po after
          | case3 => exact induction before
          | case4 =>
              by_cases front : po.start < info.start
              · simp only [front, if_true]
                exact passed { po with stop := info.start - 1 }
              · simp only [front, if_false]
                exact passed { po with start := info.stop + 1 }
          | invalid => simp

theorem unlockLoop_map (rv : Int) :
    unlockLoop [] info rv (before.map plainLock) (after.map plainLock) =
      ((unlockLoop [] info rv before after).1,
        (unlockLoop [] info rv before after).2.map plainLock) := by
  induction after generalizing before rv with
  | nil => simp [unlockLoop]
  | cons po after induction =>
      have passed (entry : PosixLock) (value : Int) :=
        induction (before ++ [entry]) value
      simp only [List.map_append, List.map_cons, List.map_nil] at passed
      simp only [List.map_cons, unlockLoop, plainLock_nodeid, plainLock_owner,
        plainLock_start, plainLock_stop, plainLock_ex, addLock, malloc,
        shrinkRange]
      by_cases other : po.nodeid ≠ info.nodeid ∨ po.owner ≠ info.owner
      · simp only [other, if_true, passed]
      · simp only [other, if_false]
        by_cases apart :
            (!rangesOverlap po.start po.stop info.start info.stop) = true
        · simp only [apart, if_true, passed]
        · simp only [apart, Bool.false_eq_true, if_false]
          cases overlapType info.start info.stop po.start po.stop with
          | case0 => simp
          | case1 => simp [plainLock]
          | case2 => simp [plainLock]
          | case3 => exact induction before rv
          | case4 =>
              exact passed (shrinkRange po info.start info.stop).2
                (shrinkRange po info.start info.stop).1
          | invalid => simp

end Commute

theorem lockInternal_map (locks : List PosixLock) (info : Info) :
    lockInternal [] (locks.map plainLock) info =
      ((lockInternal [] locks info).1,
        (lockInternal [] locks info).2.map plainLock) :=
  lockLoop_map info [] locks

theorem unlockInternal_map (locks : List PosixLock) (info : Info) :
    unlockInternal [] (locks.map plainLock) info =
      ((unlockInternal [] locks info).1,
        (unlockInternal [] locks info).2.map plainLock) :=
  unlockLoop_map info [] locks 0

/-- `do_waiters` treats a table like the resource it belongs to. -/
theorem doWaitersLoop_map (env other : Env) (locks : List PosixLock)
    (waiters : List LockWaiter) :
    (doWaitersLoop env (locks.map plainLock) (waiters.map plainWaiter)).1 =
        (doWaitersLoop other locks waiters).1.map plainLock ∧
      (doWaitersLoop env (locks.map plainLock)
          (waiters.map plainWaiter)).2.1 =
        (doWaitersLoop other locks waiters).2.1.map plainWaiter := by
  induction waiters generalizing locks with
  | nil => simp [doWaitersLoop]
  | cons w later induction =>
      have same : (isConflict (locks.map plainLock) (plainWaiter w).info
          false).1 = (isConflict locks w.info false).1 := by
        rw [isConflict_plainLock]
        exact isConflict_plainInfo locks w.info
      rw [List.map_cons]
      by_cases conflict : (isConflict locks w.info false).1 = true
      · rw [doWaitersLoop_skip env _ (same.trans conflict),
          doWaitersLoop_skip other later conflict]
        simpa using induction locks
      · have free : ¬(isConflict (locks.map plainLock) (plainWaiter w).info
            false).1 = true := by
          rw [same]
          exact conflict
        have granted : (lockInternal [] (locks.map plainLock)
            (plainWaiter w).info).2 =
              (lockInternal [] locks w.info).2.map plainLock := by
          have plain : lockInternal [] (locks.map plainLock)
              (plainWaiter w).info =
                lockInternal [] (locks.map plainLock) w.info :=
            lockLoop_plainInfo w.info [] _
          rw [plain, lockInternal_map]
        rw [doWaitersLoop_grant env _ free,
          doWaitersLoop_grant other later conflict]
        simp only [granted]
        exact induction _

theorem doWaiters_table (env : Env) (r : Resource) :
    (doWaiters env r).1.table = r.table.wake := by
  have same := doWaitersLoop_map Table.env env r.locks r.waiters
  simp only [Resource.table, Table.wake, doWaiters, same]

theorem lockRequest_table (env : Env) (info : Info) (r : Resource) :
    (lockRequest env info r).1.table = r.table.request info := by
  have same : (isConflict r.table.locks info false).1 =
      (isConflict r.locks info false).1 := isConflict_plainLock r.locks info
  simp only [lockRequest, Table.request, same]
  split
  · split
    · simp [Resource.table, addWaiter, plainWaiter]
    · rfl
  · simp only [Resource.table, lockInternal_map]

/-- An operation on the resource is the operation on its table. -/
theorem afterPlock_table (env : Env) (info : Info) (r : Resource) :
    (afterPlock env info r).table = r.table.exec info := by
  unfold afterPlock Table.exec
  cases info.optype with
  | lock =>
      dsimp only
      rw [doWaiters_table, lockRequest_table]
  | unlock =>
      dsimp only
      rw [doWaiters_table]
      simp only [Resource.table, Table.release, unlockInternal_map]
  | get => rfl
  | unknown code => rfl

theorem purgeEntries_table (nodeid : Int32) (unmount : Bool) (r : Resource) :
    (purgeEntries nodeid unmount r).table =
      r.table.purge nodeid unmount := by
  simp [purgeEntries, Resource.table, Table.purge, List.filter_map,
    Function.comp_def, plainWaiter, plainInfo]

end Dlm.Plock
