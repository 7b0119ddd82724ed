import Dlm.Plock.Receive

/-!
# What the entries of a table inherit

The operations on a table change the ranges and modes of its locks, add locks
for the request at hand and grant waiters.  A property of locks that does not
depend on range and mode is kept when the new locks have it.
-/

namespace Dlm.Plock

/-- The lock that `add_lock` makes for a request. -/
def requested (info : Info) (ex : UInt8) (start stop : UInt64) : PosixLock :=
  { pid := info.pid
    owner := info.owner
    start := start
    stop := stop
    ex := ex
    nodeid := info.nodeid
    syncing := false }

/-- The property does not depend on the range and mode of a lock. -/
def Rangeless (P : PosixLock → Prop) : Prop :=
  ∀ po start stop ex, P po →
    P { po with start := start, stop := stop, ex := ex }

/-- The locks made for a request have the property. -/
def Provides (P : PosixLock → Prop) (info : Info) : Prop :=
  ∀ ex start stop, P (requested info ex start stop)

section Inherit

variable {P : PosixLock → Prop} (rangeless : Rangeless P) {info : Info}
variable (provides : Provides P info)
variable {before after : List PosixLock} {po : PosixLock}

theorem forall_mem_zip (passed : ∀ entry ∈ before, P entry) (has : P po)
    (coming : ∀ entry ∈ after, P entry) :
    ∀ entry ∈ before ++ po :: after, P entry :=
  List.forall_mem_append.mpr
    ⟨passed, List.forall_mem_cons.mpr ⟨has, coming⟩⟩

include rangeless provides

theorem lockCase1_forall (passed : ∀ entry ∈ before, P entry) (has : P po)
    (coming : ∀ entry ∈ after, P entry) :
    ∀ entry ∈ (lockCase1 [] before po after info).2, P entry := by
  simp only [lockCase1, addLock, malloc]
  split
  · exact forall_mem_zip passed has coming
  · apply forall_mem_zip passed (rangeless po _ _ _ has)
    apply List.forall_mem_append.mpr ⟨coming, ?_⟩
    exact List.forall_mem_singleton.mpr (provides _ _ _)

theorem lockCase2_forall (passed : ∀ entry ∈ before, P entry) (has : P po)
    (coming : ∀ entry ∈ after, P entry) :
    ∀ entry ∈ (lockCase2 [] before po after info).2, P entry := by
  simp only [lockCase2, addLock, malloc, ne_eq, not_true_eq_false, if_false]
  apply forall_mem_zip passed (rangeless po _ _ _ has)
  rw [List.append_assoc]
  apply List.forall_mem_append.mpr ⟨coming, ?_⟩
  exact List.forall_mem_cons.mpr
    ⟨provides _ _ _, List.forall_mem_singleton.mpr (provides _ _ _)⟩

theorem lockLoop_forall (passed : ∀ entry ∈ before, P entry)
    (coming : ∀ entry ∈ after, P entry) :
    ∀ entry ∈ (lockLoop [] info before after).2, P entry := by
  induction after generalizing before with
  | nil =>
      simp only [lockLoop, addLock, malloc]
      apply List.forall_mem_append.mpr ⟨passed, ?_⟩
      exact List.forall_mem_singleton.mpr (provides _ _ _)
  | cons po later induction =>
      obtain ⟨has, rest⟩ := List.forall_mem_cons.mp coming
      have step (entry : PosixLock) (entryHas : P entry) :
          ∀ found ∈ (lockLoop [] info (before ++ [entry]) later).2,
            P found := by
        apply induction _ rest
        exact List.forall_mem_append.mpr
          ⟨passed, List.forall_mem_singleton.mpr entryHas⟩
      rw [lockLoop]
      split
      · exact step po has
      · split
        · exact step po has
        · split
          · split
            · exact forall_mem_zip passed has rest
            · exact forall_mem_zip passed (rangeless po _ _ _ has) rest
          · split
            · exact forall_mem_zip passed has rest
            · exact lockCase1_forall rangeless provides passed has rest
          · split
            · exact forall_mem_zip passed has rest
            · exact lockCase2_forall rangeless provides passed has rest
          · exact induction passed rest
          · apply step
            split
            · exact rangeless po _ _ _ has
            · exact rangeless po _ _ _ has
          · exact forall_mem_zip passed has rest

theorem unlockLoop_forall (rv : Int) (passed : ∀ entry ∈ before, P entry)
    (coming : ∀ entry ∈ after, P entry) :
    ∀ entry ∈ (unlockLoop [] info rv before after).2, P entry := by
  induction after generalizing before rv with
  | nil => exact passed
  | cons po later induction =>
      obtain ⟨has, rest⟩ := List.forall_mem_cons.mp coming
      have step (entry : PosixLock) (value : Int) (entryHas : P entry) :
          ∀ found ∈ (unlockLoop [] info value (before ++ [entry]) later).2,
            P found := by
        apply induction value _ rest
        exact List.forall_mem_append.mpr
          ⟨passed, List.forall_mem_singleton.mpr entryHas⟩
      rw [unlockLoop]
      split
      · exact step po rv has
      · split
        · exact step po rv has
        · split
          · exact List.forall_mem_append.mpr ⟨passed, rest⟩
          · exact forall_mem_zip passed (rangeless po _ _ _ has) rest
          · apply forall_mem_zip passed (rangeless po _ _ _ has)
            apply List.forall_mem_append.mpr ⟨rest, ?_⟩
            exact List.forall_mem_singleton.mpr (provides _ _ _)
          · exact induction rv passed rest
          · exact step _ _ (rangeless po _ _ _ has)
          · exact forall_mem_zip passed has rest

theorem lockInternal_forall {locks : List PosixLock}
    (all : ∀ entry ∈ locks, P entry) :
    ∀ entry ∈ (lockInternal [] locks info).2, P entry :=
  lockLoop_forall rangeless provides (by simp) all

theorem unlockInternal_forall {locks : List PosixLock}
    (all : ∀ entry ∈ locks, P entry) :
    ∀ entry ∈ (unlockInternal [] locks info).2, P entry :=
  unlockLoop_forall rangeless provides 0 (by simp) all

omit provides

theorem doWaitersLoop_forall (env : Env) {locks : List PosixLock}
    {waiters : List LockWaiter} (all : ∀ entry ∈ locks, P entry)
    (queued : ∀ w ∈ waiters, Provides P w.info) :
    ∀ entry ∈ (doWaitersLoop env locks waiters).1, P entry := by
  induction waiters generalizing locks with
  | nil => exact all
  | cons w later induction =>
      obtain ⟨first, rest⟩ := List.forall_mem_cons.mp queued
      rw [doWaitersLoop]
      split
      · exact induction all rest
      · exact induction (lockInternal_forall rangeless first all) rest

/-- The property is kept by an operation. -/
theorem afterPlock_locks (env : Env) {r : Resource}
    (provides : Provides P info) (all : ∀ entry ∈ r.locks, P entry)
    (queued : ∀ w ∈ r.waiters, Provides P w.info) :
    ∀ entry ∈ (afterPlock env info r).locks, P entry := by
  unfold afterPlock
  cases info.optype with
  | lock =>
      simp only [doWaiters, lockRequest]
      split
      · split
        · apply doWaitersLoop_forall rangeless env all
          apply List.forall_mem_append.mpr ⟨queued, ?_⟩
          exact List.forall_mem_singleton.mpr provides
        · exact doWaitersLoop_forall rangeless env all queued
      · exact doWaitersLoop_forall rangeless env
          (lockInternal_forall rangeless provides all) queued
  | unlock =>
      exact doWaitersLoop_forall rangeless env
        (unlockInternal_forall rangeless provides all) queued
  | get => exact all
  | unknown code => exact all

end Inherit

/-- The waiters after an operation: those before it and the request. -/
theorem afterPlock_waiters (env : Env) (info : Info) (r : Resource) :
    ∀ w ∈ (afterPlock env info r).waiters, w ∈ r.waiters ∨
      info.optype = .lock ∧
        w = { syncing := env.waiterJunk info, info := info } := by
  intro w member
  unfold afterPlock at member
  cases kind : info.optype with
  | lock =>
      simp only [kind, doWaiters] at member
      have queued := (doWaitersLoop_sublist _ _ _).mem member
      simp only [lockRequest] at queued
      split at queued
      · split at queued
        · rcases List.mem_append.mp queued with old | new
          · exact .inl old
          · exact .inr ⟨rfl, List.mem_singleton.mp new⟩
        · exact .inl queued
      · exact .inl queued
  | unlock =>
      simp only [kind, doWaiters] at member
      exact .inl ((doWaitersLoop_sublist _ _ _).mem member)
  | get =>
      simp only [kind] at member
      exact .inl member
  | unknown code =>
      simp only [kind] at member
      exact .inl member

end Dlm.Plock
