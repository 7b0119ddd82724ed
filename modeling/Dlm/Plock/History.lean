import Dlm.Plock.Granted

/-!
# The history of a node

What a node has read from the kernel and what it has answered.  An operation
stands as long as every other operation of its holder on its bytes was answered
before it.  The operations that stand hold their bytes in the node's table.
-/

namespace Dlm.Plock

/-- The operation is a lock that was answered with success, and no other
operation of its holder has been read for its bytes but those answered before
it. -/
def Standing (reads : List Info) (answers : List (Info × Int)) (q : Info) :
    Prop :=
  ∃ front back, answers = front ++ (q, 0) :: back ∧ q.optype = .lock ∧
    ∀ other ∈ reads, other.Changes → Meets other q → other ≠ q →
      ∃ rv, (other, rv) ∈ front

/-- Every operation that stands is an operation of the node and holds its
bytes. -/
def Kept (nodeid : Int32) (reads : List Info) (answers : List (Info × Int))
    (locks : List PosixLock) : Prop :=
  ∀ q, Standing reads answers q →
    q.nodeid = nodeid ∧ q.Valid ∧ Granted locks q

/-- The node has answered none of the operations, and none is there twice. -/
def Fresh (env : Env) (answers : List (Info × Int)) (infos : List Info) :
    Prop :=
  ∀ tag, answers.countP (fun answer => isOp env tag answer.1) +
    infos.countP (isOp env tag) ≤ 1

section Standing

variable {reads : List Info} {answers : List (Info × Int)} {info q : Info}
variable {rv : Int} {locks : List PosixLock} {nodeid : Int32}

theorem Standing.fewer_reads {more : List Info}
    (standing : Standing (reads ++ more) answers q) :
    Standing reads answers q := by
  obtain ⟨front, back, split, lock, followed⟩ := standing
  refine ⟨front, back, split, lock, ?_⟩
  intro other member
  exact followed other (List.mem_append_left _ member)

/-- What stands after an answer: the answered operation or what stood
before. -/
theorem Standing.snoc (standing : Standing reads (answers ++ [(info, rv)]) q) :
    (q = info ∧ rv = 0 ∧ info.optype = .lock) ∨
      Standing reads answers q := by
  obtain ⟨front, back, split, lock, followed⟩ := standing
  rcases List.eq_nil_or_concat back with rfl | ⟨earlier, last, rfl⟩
  · left
    have parts := List.append_inj' split rfl
    have same := List.head_eq_of_cons_eq parts.2
    simp only [Prod.mk.injEq] at same
    exact ⟨same.1.symm, same.2, same.1 ▸ lock⟩
  · right
    rw [List.concat_eq_append] at split
    have parts := List.append_inj' (split.trans
      (List.append_assoc front ((q, 0) :: earlier) [last]).symm) rfl
    exact ⟨front, earlier, parts.1, lock, followed⟩

theorem Kept.more_reads (kept : Kept nodeid reads answers locks)
    (more : List Info) : Kept nodeid (reads ++ more) answers locks := by
  intro q standing
  exact kept q standing.fewer_reads

/-- Over an empty table nothing stands. -/
theorem Kept.of_nil (kept : Kept nodeid reads answers [])
    (locks : List PosixLock) : Kept nodeid reads answers locks := by
  intro q standing
  obtain ⟨_, valid, granted⟩ := kept q standing
  exact absurd granted (not_granted_nil valid)

theorem kept_plain :
    Kept nodeid reads answers (locks.map plainLock) ↔
      Kept nodeid reads answers locks := by
  simp only [Kept, granted_plain]

/-- An answer that grants no lock. -/
theorem Kept.refused (kept : Kept nodeid reads answers locks)
    (refused : rv ≠ 0 ∨ info.optype ≠ .lock) :
    Kept nodeid reads (answers ++ [(info, rv)]) locks := by
  intro q standing
  rcases standing.snoc with ⟨_, success, lock⟩ | before
  · rcases refused with failed | other
    · exact absurd success failed
    · exact absurd lock other
  · exact kept q before

section Perform

variable {mode : Option UInt8} {result : Int × List PosixLock}

/-- An operation of another node leaves what stands. -/
theorem Kept.foreign (kept : Kept nodeid reads answers locks)
    (performs : Performs info mode locks result)
    (other : info.nodeid ≠ nodeid) : Kept nodeid reads answers result.2 := by
  intro q standing
  obtain ⟨ours, valid, granted⟩ := kept q standing
  refine ⟨ours, valid, granted.performs performs ?_⟩
  rintro ⟨same, _⟩
  apply other
  rw [← ours]
  exact congrArg Prod.fst same

/-- An operation of the node that is carried out and answered. -/
theorem Kept.answered (kept : Kept nodeid reads answers locks)
    (performs : Performs info mode locks result) (ours : info.nodeid = nodeid)
    (valid : info.Valid) (listed : info ∈ reads) (changes : info.Changes)
    (unanswered : ∀ rv, (info, rv) ∉ answers)
    (granting : info.optype = .lock → mode = some info.ex) :
    Kept nodeid reads (answers ++ [(info, 0)]) result.2 := by
  intro q standing
  rcases standing.snoc with ⟨rfl, _, lock⟩ | before
  · rw [granting lock] at performs
    exact ⟨ours, valid, granted_of_performs performs⟩
  · obtain ⟨qOurs, qValid, granted⟩ := kept q before
    refine ⟨qOurs, qValid, granted.performs performs ?_⟩
    intro meets
    obtain ⟨front, back, split, _, followed⟩ := before
    have different : info ≠ q := by
      rintro rfl
      apply unanswered 0
      rw [split]
      simp
    obtain ⟨rv, answered⟩ := followed info listed changes meets different
    apply unanswered rv
    rw [split]
    exact List.mem_append_left _ answered

end Perform

end Standing

section Fresh

variable {env : Env} {answers : List (Info × Int)} {infos later : List Info}
variable {info : Info} {rv : Int}

theorem Fresh.sublist (fresh : Fresh env answers infos)
    (fewer : later.Sublist infos) : Fresh env answers later := by
  intro tag
  have once := fresh tag
  have count : later.countP (isOp env tag) ≤ infos.countP (isOp env tag) :=
    fewer.countP_le
  omega

theorem Fresh.tail (fresh : Fresh env answers (info :: later)) :
    Fresh env answers later :=
  fresh.sublist (List.sublist_cons_self info later)

/-- The first operation is answered. -/
theorem Fresh.answer (fresh : Fresh env answers (info :: later)) :
    Fresh env (answers ++ [(info, rv)]) later := by
  intro tag
  have once := fresh tag
  rw [countP_cons_toNat] at once
  rw [List.countP_append, countP_cons_toNat, List.countP_nil]
  dsimp only
  omega

theorem Fresh.perm (fresh : Fresh env answers infos)
    (arranged : later.Perm infos) : Fresh env answers later := by
  intro tag
  rw [arranged.countP_eq]
  exact fresh tag

theorem Fresh.unanswered (fresh : Fresh env answers (info :: later))
    (ours : info.nodeid = env.ourNodeid) : ∀ rv, (info, rv) ∉ answers := by
  intro rv member
  have once := fresh info.tag
  have here : isOp env info.tag info = true := by
    simp [isOp, ours]
  have counted : 0 < answers.countP
      fun answer => isOp env info.tag answer.1 :=
    List.countP_pos_iff.mpr ⟨(info, rv), member, here⟩
  rw [countP_cons_toNat, here, Bool.toNat_true] at once
  omega

end Fresh

section Execution

variable {env : Env} {reads : List Info} {answers : List (Info × Int)}
variable {info : Info} {locks : List PosixLock} {mode : Option UInt8}
variable {result : Int × List PosixLock} {later : List Info}

@[simp] theorem writtenBy_nil : writtenBy [] = [] := rfl

@[simp] theorem writtenBy_append (first second : List Effect) :
    writtenBy (first ++ second) = writtenBy first ++ writtenBy second := by
  simp [writtenBy]

@[simp] theorem writtenBy_plockTime (effects : List Effect) :
    writtenBy (.plockTime :: effects) = writtenBy effects := rfl

@[simp] theorem writtenBy_writeResult (effects : List Effect) (rv : Int) :
    writtenBy (.writeResult info rv :: effects) =
      (info, rv) :: writtenBy effects := rfl

theorem writtenBy_writeResultIfOurs (rv : Int) :
    writtenBy (writeResultIfOurs env info rv) =
      if info.nodeid = env.ourNodeid then [(info, rv)] else [] := by
  unfold writeResultIfOurs
  split <;> rfl

/-- An operation that is carried out and, if it is the node's own,
answered. -/
theorem Kept.perform (kept : Kept env.ourNodeid reads answers locks)
    (performs : Performs info mode locks result) (valid : info.Valid)
    (listed : info.nodeid = env.ourNodeid → info ∈ reads ∧ info.Changes)
    (fresh : Fresh env answers (info :: later))
    (granting : info.optype = .lock → mode = some info.ex) :
    Kept env.ourNodeid reads
      (answers ++ writtenBy (writeResultIfOurs env info result.1))
      result.2 := by
  rw [writtenBy_writeResultIfOurs, performs.1]
  by_cases ours : info.nodeid = env.ourNodeid
  · rw [if_pos ours]
    exact kept.answered performs ours valid (listed ours).1 (listed ours).2
      (fresh.unanswered ours) granting
  · rw [if_neg ours, List.append_nil]
    exact kept.foreign performs ours

theorem Fresh.perform (fresh : Fresh env answers (info :: later)) (rv : Int) :
    Fresh env (answers ++ writtenBy (writeResultIfOurs env info rv))
      later := by
  rw [writtenBy_writeResultIfOurs]
  split
  · exact fresh.answer
  · rw [List.append_nil]
    exact fresh.tail

/-- The requests that wait are the node's own locks, as it has read them, or
those of other nodes. -/
def Queued (env : Env) (reads : List Info) (waiters : List LockWaiter) :
    Prop :=
  ∀ w ∈ waiters, w.info.nodeid = env.ourNodeid →
    w.info ∈ reads ∧ w.info.optype = .lock

/-- The flags of the waiters do not matter. -/
theorem Queued.same_infos {waiters others : List LockWaiter}
    (queued : Queued env reads waiters)
    (same : others.map LockWaiter.info = waiters.map LockWaiter.info) :
    Queued env reads others := by
  intro w member
  have listed : w.info ∈ waiters.map LockWaiter.info := by
    rw [← same]
    exact List.mem_map_of_mem member
  obtain ⟨original, found, equal⟩ := List.mem_map.mp listed
  rw [← equal]
  exact queued original found

/-- `do_waiters` keeps what stands and adds what it grants. -/
theorem Kept.doWaitersLoop {waiters : List LockWaiter}
    (kept : Kept env.ourNodeid reads answers locks) (safe : Safe locks)
    (valid : ∀ w ∈ waiters, w.info.Valid) (queued : Queued env reads waiters)
    (fresh : Fresh env answers (waiters.map LockWaiter.info)) :
    Kept env.ourNodeid reads
      (answers ++ writtenBy (doWaitersLoop env locks waiters).2.2)
      (doWaitersLoop env locks waiters).1 := by
  induction waiters generalizing locks answers with
  | nil => simpa [Plock.doWaitersLoop] using kept
  | cons w later induction =>
      obtain ⟨firstValid, laterValid⟩ := List.forall_mem_cons.mp valid
      obtain ⟨firstQueued, laterQueued⟩ := List.forall_mem_cons.mp queued
      by_cases conflict : (isConflict locks w.info false).1 = true
      · rw [doWaitersLoop_skip env later conflict]
        exact induction kept safe laterValid laterQueued fresh.tail
      · rw [doWaitersLoop_grant env later conflict]
        dsimp only
        rw [writtenBy_append, ← List.append_assoc]
        have performs := lockInternal_performs safe.wellFormed firstValid
        apply induction _ _ laterValid laterQueued (fresh.perform _)
        · apply kept.perform performs firstValid _ fresh (fun _ => rfl)
          intro ours
          exact ⟨(firstQueued ours).1, .inl (firstQueued ours).2⟩
        · exact safe.grant firstValid (by simpa using conflict)

variable {r : Resource}

theorem Kept.lockRequest (kept : Kept env.ourNodeid reads answers r.locks)
    (safe : ResourceSafe r) (valid : info.Valid) (lock : info.optype = .lock)
    (listed : info.nodeid = env.ourNodeid → info ∈ reads)
    (fresh : Fresh env answers (info :: later)) :
    Kept env.ourNodeid reads
      (answers ++ writtenBy (lockRequest env info r).2)
      (lockRequest env info r).1.locks := by
  unfold Plock.lockRequest
  split
  · split
    · simpa [addWaiter] using kept
    · dsimp only
      rw [writtenBy_writeResultIfOurs]
      split
      · exact kept.refused (.inl (by decide))
      · simpa using kept
  · exact kept.perform (lockInternal_performs safe.locks.wellFormed valid)
      valid (fun ours => ⟨listed ours, .inl lock⟩) fresh (fun _ => rfl)

theorem Queued.lockRequest (queued : Queued env reads r.waiters)
    (lock : info.optype = .lock)
    (listed : info.nodeid = env.ourNodeid → info ∈ reads) :
    Queued env reads (lockRequest env info r).1.waiters := by
  unfold Plock.lockRequest
  split
  · split
    · intro w member
      rcases List.mem_append.mp member with old | new
      · exact queued w old
      · rw [List.mem_singleton.mp new]
        exact fun ours => ⟨listed ours, lock⟩
    · exact queued
  · exact queued

/-- Operations pass from one list to another or are answered. -/
theorem Fresh.pass {effects : List Effect} {infos : List Info}
    (fresh : Fresh env answers infos)
    (passed : ∀ tag, later.countP (isOp env tag) +
      effectCount env tag effects ≤ infos.countP (isOp env tag)) :
    Fresh env (answers ++ writtenBy effects) later := by
  intro tag
  have once := fresh tag
  have moved := passed tag
  rw [effectCount_eq] at moved
  rw [List.countP_append]
  omega

theorem waitingCount_eq (tag : Nat) (r : Resource) :
    waitingCount env tag r =
      (r.waiters.map LockWaiter.info).countP (isOp env tag) := by
  rw [List.countP_map]
  rfl

theorem Fresh.lockRequest
    (fresh : Fresh env answers (info :: r.waiters.map LockWaiter.info)) :
    Fresh env (answers ++ writtenBy (lockRequest env info r).2)
      ((lockRequest env info r).1.waiters.map LockWaiter.info) := by
  apply fresh.pass
  intro tag
  have moved := lockRequest_count env tag info r
  rw [waitingCount_eq, waitingCount_eq] at moved
  rw [countP_cons_toNat]
  omega

/-- An operation handed to `__receive_plock` is answered or waits. -/
theorem Fresh.receivePlock2 {rest : List Info} {sender : Int32}
    (ownership : env.plockOwnership = true)
    (honest : info.nodeid = env.ourNodeid → sender = env.ourNodeid)
    (fresh : Fresh env answers
      (info :: (r.waiters.map LockWaiter.info ++ rest))) :
    Fresh env (answers ++ writtenBy (receivePlock2 env info sender r).2)
      ((afterPlock env info r).waiters.map LockWaiter.info ++ rest) := by
  apply fresh.pass
  intro tag
  have moved := receivePlock2_conserves tag info sender
    (.inl ownership : Accountable env r) honest
  rw [Conserves, receivePlock2_owned ownership, slotCount_some,
    slotCount_some, waitingCount_eq, waitingCount_eq] at moved
  have pending : pendingCount env tag (afterPlock env info r) =
      pendingCount env tag r := by
    simp [pendingCount]
  rw [countP_cons_toNat, List.countP_append, List.countP_append]
  omega

theorem ResourceSafe.afterPlock (safe : ResourceSafe r)
    (valid : info.Valid) : ResourceSafe (afterPlock env info r) := by
  unfold Plock.afterPlock
  cases info.optype with
  | lock => exact (safe.lockRequest env valid).doWaiters env
  | unlock =>
      apply ResourceSafe.doWaiters env
      exact ⟨safe.locks.release valid.ordered, safe.waiters⟩
  | get => exact safe
  | unknown code => exact safe

theorem doGet_answer :
    ∃ found rv, writtenBy (doGet info r) = [(found, rv)] ∧
      found.optype = info.optype := by
  have sameType : (isConflict r.locks info true).2.optype =
      info.optype := by
    unfold isConflict
    split
    · rfl
    · rfl
  unfold doGet
  cases result : isConflict r.locks info true with
  | mk conflict found =>
      rw [result] at sameType
      cases conflict with
      | true => exact ⟨found, 1, rfl, sameType⟩
      | false => exact ⟨found, 0, rfl, sameType⟩

/-- `__receive_plock` keeps what stands and adds what it grants. -/
theorem Kept.receivePlock2 {sender : Int32}
    (kept : Kept env.ourNodeid reads answers r.locks)
    (safe : ResourceSafe r) (valid : info.Valid)
    (listed : info.nodeid = env.ourNodeid → info ∈ reads)
    (queued : Queued env reads r.waiters)
    (fresh : Fresh env answers (info :: r.waiters.map LockWaiter.info)) :
    Kept env.ourNodeid reads
      (answers ++ writtenBy (receivePlock2 env info sender r).2)
      (afterPlock env info r).locks := by
  unfold Plock.receivePlock2 Plock.afterPlock
  cases kind : info.optype with
  | lock =>
      dsimp only [doLock, doWaiters]
      rw [writtenBy_plockTime, writtenBy_append, ← List.append_assoc]
      have requested := safe.lockRequest env valid
      exact Kept.doWaitersLoop (kept.lockRequest safe valid kind listed fresh)
        requested.locks requested.waiters (queued.lockRequest kind listed)
        fresh.lockRequest
  | unlock =>
      dsimp only [doUnlock, doWaiters]
      rw [writtenBy_plockTime, writtenBy_append, ← List.append_assoc]
      have performs := unlockInternal_performs safe.locks.wellFormed
        valid.ordered
      apply Kept.doWaitersLoop _ (safe.locks.release valid.ordered)
        safe.waiters queued (fresh.perform _)
      apply kept.perform performs valid _ fresh
      · intro lock
        exact absurd (kind.symm.trans lock) (by decide)
      · intro ours
        exact ⟨listed ours, .inr kind⟩
  | get =>
      obtain ⟨found, rv, written, sameType⟩ := @doGet_answer info r
      dsimp only
      rw [written]
      apply kept.refused
      right
      rw [sameType, kind]
      decide
  | unknown code =>
      dsimp only
      split
      · exact kept.refused (.inl (by decide))
      · simpa using kept

theorem Queued.afterPlock (queued : Queued env reads r.waiters)
    (listed : info.nodeid = env.ourNodeid → info ∈ reads) :
    Queued env reads (afterPlock env info r).waiters := by
  intro w member
  rcases afterPlock_waiters env info r w member with old | ⟨lock, rfl⟩
  · exact queued w old
  · exact fun ours => ⟨listed ours, lock⟩

/-- Operations that had to wait for the ownership are carried out one after
the other. -/
theorem Kept.addPendingLoop {pending : List Info}
    (ownership : env.plockOwnership = true)
    (kept : Kept env.ourNodeid reads answers r.locks)
    (safe : ResourceSafe r)
    (valid : ∀ info ∈ pending, info.Valid)
    (listed : ∀ info ∈ pending, info ∈ reads)
    (queued : Queued env reads r.waiters)
    (fresh : Fresh env answers
      (pending ++ r.waiters.map LockWaiter.info)) :
    ∃ s, (addPendingLoop env pending r).1 = some s ∧ ResourceSafe s ∧
      s.owner = r.owner ∧ s.pending = r.pending ∧
      Queued env reads s.waiters ∧
      Kept env.ourNodeid reads
        (answers ++ writtenBy (addPendingLoop env pending r).2) s.locks := by
  induction pending generalizing r answers with
  | nil =>
      refine ⟨r, rfl, safe, rfl, rfl, queued, ?_⟩
      simpa [Plock.addPendingLoop] using kept
  | cons info later induction =>
      obtain ⟨firstValid, laterValid⟩ := List.forall_mem_cons.mp valid
      obtain ⟨firstListed, laterListed⟩ := List.forall_mem_cons.mp listed
      have first := @Kept.receivePlock2 env reads answers info r
        env.ourNodeid kept safe firstValid (fun _ => firstListed) queued
        (fresh.sublist (by simp))
      have firstFresh := @Fresh.receivePlock2 env answers info r later
        env.ourNodeid ownership (fun _ => rfl)
        (fresh.perm (List.perm_append_comm.cons info))
      rw [addPendingLoop_cons ownership, writtenBy_append,
        ← List.append_assoc, ← afterPlock_owner env info r,
        ← afterPlock_pending env info r]
      exact induction first (safe.afterPlock firstValid) laterValid
        laterListed (queued.afterPlock fun _ => firstListed)
        (firstFresh.perm List.perm_append_comm)

end Execution

end Dlm.Plock
