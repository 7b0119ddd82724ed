import Dlm.Plock.Table

/-!
# Lock, unlock and get operations on a resource

`do_lock`, `do_unlock`, `do_get` and `__receive_plock`.  A handler works on
the resource its caller has found and returns `none` when `put_resource` has
freed it, together with its effects.
-/

namespace Dlm.Plock

/-- `put_resource`. -/
def putResource (env : Env) (r : Resource) : Option Resource :=
  if env.plockOwnership then some r
  else if r.locks.isEmpty && r.waiters.isEmpty then none
  else some r

theorem putResource_eq_some {env : Env} {r s : Resource}
    (kept : putResource env r = some s) : s = r := by
  unfold putResource at kept
  grind

/-- `add_waiter`; the memory of the new waiter is not cleared. -/
def addWaiter (env : Env) (r : Resource) (info : Info) : Resource :=
  { r with
    waiters := r.waiters ++ [{ syncing := env.waiterJunk info, info := info }] }

/-- `write_result` of a handler that answers only the node's own requests. -/
def writeResultIfOurs (env : Env) (info : Info) (rv : Int) : List Effect :=
  if info.nodeid = env.ourNodeid then [.writeResult info rv] else []

/-- The loop of `do_waiters`: the locks, the waiters left on the list, and the
results written. -/
def doWaitersLoop (env : Env) :
    List PosixLock → List LockWaiter →
      List PosixLock × List LockWaiter × List Effect
  | locks, [] => (locks, [], [])
  | locks, w :: later =>
      if (isConflict locks w.info false).1 then
        let (locks, waiters, effects) := doWaitersLoop env locks later
        (locks, w :: waiters, effects)
      else
        let (rv, locks) := lockInternal [] locks w.info
        let (locks, waiters, effects) := doWaitersLoop env locks later
        (locks, waiters, writeResultIfOurs env w.info rv ++ effects)

theorem doWaitersLoop_skip (env : Env) {locks : List PosixLock}
    {w : LockWaiter} (later : List LockWaiter)
    (conflict : (isConflict locks w.info false).1 = true) :
    doWaitersLoop env locks (w :: later) =
      ((doWaitersLoop env locks later).1,
        w :: (doWaitersLoop env locks later).2.1,
        (doWaitersLoop env locks later).2.2) := by
  rw [doWaitersLoop, if_pos conflict]

theorem doWaitersLoop_grant (env : Env) {locks : List PosixLock}
    {w : LockWaiter} (later : List LockWaiter)
    (free : ¬(isConflict locks w.info false).1 = true) :
    doWaitersLoop env locks (w :: later) =
      let granted := lockInternal [] locks w.info
      let rest := doWaitersLoop env granted.2 later
      (rest.1, rest.2.1,
        writeResultIfOurs env w.info granted.1 ++ rest.2.2) := by
  rw [doWaitersLoop, if_neg free]

theorem doWaitersLoop_sublist (env : Env) (locks : List PosixLock)
    (waiters : List LockWaiter) :
    (doWaitersLoop env locks waiters).2.1.Sublist waiters := by
  induction waiters generalizing locks with
  | nil => simp [doWaitersLoop]
  | cons w later induction =>
      rw [doWaitersLoop]
      split
      · exact (induction locks).cons_cons w
      · exact (induction _).cons w

/-- Nothing happens in a pass over requests that are all blocked. -/
theorem doWaitersLoop_of_blocked (env : Env) {locks : List PosixLock}
    {queue : List LockWaiter}
    (blocked : ∀ w ∈ queue, (isConflict locks w.info false).1 = true) :
    doWaitersLoop env locks queue = (locks, queue, []) := by
  induction queue with
  | nil => rfl
  | cons w later induction =>
      have tail := induction fun other member =>
        blocked other (by simp [member])
      simp [doWaitersLoop, blocked w (by simp), tail]

def doWaiters (env : Env) (r : Resource) : Resource × List Effect :=
  let (locks, waiters, effects) := doWaitersLoop env r.locks r.waiters
  ({ r with locks := locks, waiters := waiters }, effects)

/-- The part of `do_lock` before `do_waiters`. -/
def lockRequest (env : Env) (info : Info) (r : Resource) :
    Resource × List Effect :=
  if (isConflict r.locks info false).1 then
    if info.wait then (addWaiter env r info, [])
    else (r, writeResultIfOurs env info (-EAGAIN))
  else
    let (rv, locks) := lockInternal [] r.locks info
    ({ r with locks := locks }, writeResultIfOurs env info rv)

section Frame

variable (env : Env) (info : Info) (r : Resource)

@[simp] theorem doWaiters_number : (doWaiters env r).1.number = r.number := rfl

@[simp] theorem doWaiters_owner : (doWaiters env r).1.owner = r.owner := rfl

@[simp] theorem doWaiters_gotUnown :
    (doWaiters env r).1.gotUnown = r.gotUnown := rfl

@[simp] theorem doWaiters_pending :
    (doWaiters env r).1.pending = r.pending := rfl

/-- A request only changes the locks and waiters. -/
theorem lockRequest_frame :
    (lockRequest env info r).1 =
      { r with
        locks := (lockRequest env info r).1.locks
        waiters := (lockRequest env info r).1.waiters } := by
  unfold lockRequest
  split
  · split <;> rfl
  · rfl

@[simp] theorem lockRequest_number :
    (lockRequest env info r).1.number = r.number := by
  rw [lockRequest_frame]

@[simp] theorem lockRequest_owner :
    (lockRequest env info r).1.owner = r.owner := by
  rw [lockRequest_frame]

@[simp] theorem lockRequest_gotUnown :
    (lockRequest env info r).1.gotUnown = r.gotUnown := by
  rw [lockRequest_frame]

@[simp] theorem lockRequest_pending :
    (lockRequest env info r).1.pending = r.pending := by
  rw [lockRequest_frame]

end Frame

def doLock (env : Env) (info : Info) (r : Resource) :
    Option Resource × List Effect :=
  let (r, answered) := lockRequest env info r
  let (r, granted) := doWaiters env r
  (putResource env r, answered ++ granted)

def doUnlock (env : Env) (info : Info) (r : Resource) :
    Option Resource × List Effect :=
  let (rv, locks) := unlockInternal [] r.locks info
  let (r, granted) := doWaiters env { r with locks := locks }
  (putResource env r, writeResultIfOurs env info rv ++ granted)

def doGet (info : Info) (r : Resource) : List Effect :=
  match isConflict r.locks info true with
  | (true, found) => [.writeResult found 1]
  | (false, found) => [.writeResult found 0]

/-- `__receive_plock`.  The digit in this name and in those of the receive
functions counts the underscores in front of the source's name. -/
def receivePlock2 (env : Env) (info : Info) (sender : Int32) (r : Resource) :
    Option Resource × List Effect :=
  match info.optype with
  | .lock =>
      let (slot, effects) := doLock env info r
      (slot, .plockTime :: effects)
  | .unlock =>
      let (slot, effects) := doUnlock env info r
      (slot, .plockTime :: effects)
  | .get => (some r, doGet info r)
  | .unknown _ =>
      (some r,
        if sender = env.ourNodeid then [.writeResult info (-EINVAL)] else [])

/-- The resource after an operation, before `put_resource`. -/
def afterPlock (env : Env) (info : Info) (r : Resource) : Resource :=
  match info.optype with
  | .lock => (doWaiters env (lockRequest env info r).1).1
  | .unlock =>
      (doWaiters env { r with locks := (unlockInternal [] r.locks info).2 }).1
  | .get => r
  | .unknown _ => r

/-- An operation only changes the locks and waiters. -/
theorem afterPlock_frame (env : Env) (info : Info) (r : Resource) :
    afterPlock env info r =
      { r with
        locks := (afterPlock env info r).locks
        waiters := (afterPlock env info r).waiters } := by
  unfold afterPlock
  cases info.optype with
  | lock =>
      simp only [doWaiters]
      rw [lockRequest_frame]
  | unlock => rfl
  | get => rfl
  | unknown code => rfl

section Frame

variable (env : Env) (info : Info) (r : Resource)

@[simp] theorem afterPlock_number :
    (afterPlock env info r).number = r.number := by
  rw [afterPlock_frame]

@[simp] theorem afterPlock_owner :
    (afterPlock env info r).owner = r.owner := by
  rw [afterPlock_frame]

@[simp] theorem afterPlock_gotUnown :
    (afterPlock env info r).gotUnown = r.gotUnown := by
  rw [afterPlock_frame]

@[simp] theorem afterPlock_pending :
    (afterPlock env info r).pending = r.pending := by
  rw [afterPlock_frame]

end Frame

/-- With ownership an operation never frees the resource. -/
theorem receivePlock2_owned {env : Env}
    (ownership : env.plockOwnership = true) (info : Info) (sender : Int32)
    (r : Resource) :
    (receivePlock2 env info sender r).1 = some (afterPlock env info r) := by
  have put : ∀ s, putResource env s = some s := by
    intro s
    simp [putResource, ownership]
  unfold receivePlock2 afterPlock
  cases info.optype with
  | lock => exact put _
  | unlock => exact put _
  | get => rfl
  | unknown code => rfl

end Dlm.Plock
