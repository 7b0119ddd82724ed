import Dlm.Deadlock.Cancel
import Dlm.Deadlock.Locks

/-!
# Where a cancel is carried out

A lock lives on the node of its owner, its home, and under another id on the
master of its resource.  Whatever copies of it a daemon has read, the entry
names the home and the id there, and this is what `send_cancel_lock` sends.
`receive_cancel_lock` however compares the sender of the message with its own
node, and not the node that the message is sent to.
-/

namespace Dlm.Deadlock

/-- A lock of the cluster: its owner is on the node `home`, where it has the id
`homeId`; its resource is mastered on the node `master`, where it has the id
`masterId`. -/
structure KernelLock where
  resource : String
  home : Int32
  homeId : UInt32
  master : Int32
  masterId : UInt32
  xid : UInt64
  deriving DecidableEq, Repr

/-- What the nodes promise: node ids are not 0, a resource has one master, and
on a master every lock from another node has its own id. -/
structure Kernel (locks : List KernelLock) : Prop where
  home : ∀ lock ∈ locks, lock.home ≠ 0
  master : ∀ lock ∈ locks, lock.master ≠ 0
  mastered : ∀ first ∈ locks, ∀ second ∈ locks,
    first.resource = second.resource → first.master = second.master
  unique : ∀ first ∈ locks, ∀ second ∈ locks, first.home ≠ first.master →
    second.home ≠ second.master → first.master = second.master →
    first.masterId = second.masterId → first = second

/-- The lines of debugfs on a node for a lock: as the only copy, as the process
copy or as the master copy. -/
inductive Shows (nodeid : Int32) (lock : KernelLock) (line : PackLock) :
    Prop where
  | only (home : lock.home = nodeid) (master : lock.master = nodeid)
      (remote : line.nodeid = 0) (id : line.id = lock.homeId)
      (xid : line.xid = lock.xid)
  | process (home : lock.home = nodeid) (master : lock.master ≠ nodeid)
      (remote : line.nodeid = lock.master) (id : line.id = lock.homeId)
      (remid : line.remid = lock.masterId)
      (flag : line.flags &&& IFL_MSTCPY = 0) (xid : line.xid = lock.xid)
  | master (home : lock.home ≠ nodeid) (master : lock.master = nodeid)
      (remote : line.nodeid = lock.home) (id : line.id = lock.masterId)
      (remid : line.remid = lock.homeId)
      (flag : line.flags &&& IFL_MSTCPY ≠ 0) (xid : line.xid = 0)

/-- A lock as the daemons pass it on: as the only copy, or from the
perspective of the master. -/
structure Copies (lock : KernelLock) (copy : PackLock) : Prop where
  ids : (copy.copy = .localCopy ∧ copy.nodeid = 0 ∧ copy.id = lock.homeId ∧
      lock.home = lock.master) ∨
    (copy.copy = .masterCopy ∧ copy.nodeid = lock.home ∧
      copy.id = lock.masterId ∧ copy.remid = lock.homeId ∧
      lock.home ≠ lock.master)
  xid : copy.xid = lock.xid ∨ copy.xid = 0

/-- The entry for a lock. -/
structure Describes (lock : KernelLock) (lkb : Lkb) : Prop where
  home : lkb.home = lock.home
  copies : Copies lock lkb.lock

/-- Every entry is for a lock on its resource. -/
def DescribesOne (locks : List KernelLock) (name : String) (lkb : Lkb) :
    Prop :=
  ∃ lock ∈ locks, lock.resource = name ∧ Describes lock lkb

variable {locks : List KernelLock}

theorem Shows.copies {nodeid : Int32} {lock : KernelLock} {line : PackLock}
    (kernel : Kernel locks) (listed : lock ∈ locks)
    (shows_ : Shows nodeid lock line) :
    Copies lock (setCopy nodeid line) ∧
      ((setCopy nodeid line).copy = .localCopy → nodeid = lock.home) := by
  unfold setCopy
  cases shows_ with
  | only home master remote id xid =>
      rw [if_pos remote]
      refine ⟨⟨.inl ⟨rfl, remote, id, ?_⟩, .inl xid⟩, fun _ => home.symm⟩
      rw [home, master]
  | process home master remote id remid flag xid =>
      have other : line.nodeid ≠ 0 := by
        rw [remote]
        exact kernel.master lock listed
      rw [if_neg other, if_neg (Decidable.not_not.mpr flag)]
      refine ⟨⟨.inr ⟨rfl, home.symm, remid, id, ?_⟩, .inl xid⟩,
        fun impossible => ?_⟩
      · rw [home]
        exact Ne.symm master
      · cases impossible
  | master home master remote id remid flag xid =>
      have other : line.nodeid ≠ 0 := by
        rw [remote]
        exact kernel.home lock listed
      rw [if_neg other, if_pos flag]
      refine ⟨⟨.inr ⟨rfl, remote, id, remid, ?_⟩, .inr xid⟩,
        fun impossible => ?_⟩
      · rw [master]
        exact home
      · cases impossible

/-- A copy is put into an entry for the same lock. -/
theorem Copies.fits {lock : KernelLock} {copy : PackLock}
    {fromNodeid : Int32} (kernel : Kernel locks) (listed : lock ∈ locks)
    (copies : Copies lock copy)
    (home : copy.copy = .localCopy → fromNodeid = lock.home) :
    Fits (DescribesOne locks) lock.resource fromNodeid copy := by
  constructor
  · refine ⟨lock, listed, rfl, ?_⟩
    rcases copies.ids with local_ | remote
    · simp only [fillLkb, local_.1]
      exact ⟨home local_.1, copies⟩
    · simp only [fillLkb, remote.1]
      split
      · exact ⟨remote.2.1, .inr ⟨rfl, remote.2⟩, copies.xid⟩
      · exact ⟨remote.2.1, .inr ⟨rfl, remote.2⟩, .inr rfl⟩
  · rintro lkb master nodeid id ⟨other, known, resource, describes⟩
    rcases copies.ids with local_ | remote
    · cases master.symm.trans local_.1
    have same : other = lock := by
      rcases describes.copies.ids with only | merged
      · have zero : lock.home = 0 := by
          rw [← remote.2.1, ← nodeid, only.2.1]
        exact (kernel.home lock listed zero).elim
      · apply kernel.unique other known lock listed merged.2.2.2.2
          remote.2.2.2.2 (kernel.mastered other known lock listed resource)
        rw [← merged.2.2.1, id, remote.2.2.1]
    subst same
    refine ⟨other, listed, rfl, ?_⟩
    simp only [fillLkb, remote.1]
    split
    · exact ⟨remote.2.1, .inr ⟨rfl, remote.2⟩, copies.xid⟩
    · exact ⟨remote.2.1, .inr ⟨rfl, remote.2⟩, describes.copies.xid⟩

/-- What a node has read from its own debugfs. -/
def ownResources (lines : Int32 → List Line) (nodeid : Int32) : List Rsb :=
  readDebugfsLocks nodeid (lines nodeid) []

/-- What a node can have gathered: its own locks and what it has read from the
checkpoints of others, less the locks of nodes that have left. -/
inductive Gathered (lines : Int32 → List Line) (place : Nat)
    (ourNodeid : Int32) : List Rsb → Prop where
  | own : Gathered lines place ourNodeid (ownResources lines ourNodeid)
  | read {resources : List Rsb} (nodeid : Int32) :
      Gathered lines place ourNodeid resources →
      Gathered lines place ourNodeid
        (readCheckpoint ourNodeid nodeid
          (packSections place (ownResources lines nodeid)) resources)
  | purge {resources : List Rsb} (nodeid : Int32) :
      Gathered lines place ourNodeid resources →
      Gathered lines place ourNodeid (purgeLocks nodeid resources)

/-- The lines of debugfs show the locks of the cluster. -/
def AllShown (locks : List KernelLock) (lines : Int32 → List Line) : Prop :=
  ∀ nodeid, ∀ line ∈ lines nodeid, ∃ lock ∈ locks,
    lock.resource = line.1 ∧ Shows nodeid lock line.2

theorem ownResources_described {lines : Int32 → List Line}
    (kernel : Kernel locks) (shown : AllShown locks lines)
    (nodeid : Int32) :
    Everywhere (fun name lkb => DescribesOne locks name lkb ∧
        (lkb.lock.copy = .localCopy → lkb.home = nodeid))
      (ownResources lines nodeid) := by
  have nothing : Everywhere (fun name lkb => DescribesOne locks name lkb ∧
      (lkb.lock.copy = .localCopy → lkb.home = nodeid)) [] :=
    List.forall_mem_nil _
  apply nothing.readDebugfsLocks
  intro line listed
  obtain ⟨lock, known, resource, shows_⟩ := shown nodeid line listed
  obtain ⟨copies, home⟩ := shows_.copies kernel known
  rw [← resource]
  have fits := copies.fits kernel known home
  have localHome : ∀ lkb, (setCopy nodeid line.2).copy = .localCopy →
      (fillLkb nodeid (setCopy nodeid line.2) lkb).home = nodeid := by
    intro lkb same
    simp only [fillLkb, same]
  have masterCopy : ∀ lkb, (setCopy nodeid line.2).copy = .masterCopy →
      (fillLkb nodeid (setCopy nodeid line.2) lkb).lock.copy =
        .masterCopy := by
    intro lkb same
    simp only [fillLkb, same]
    split
    · rfl
    · rfl
  constructor
  · refine ⟨fits.1, fun _ => ?_⟩
    rcases copies.ids with only | remote
    · exact localHome createLkb only.1
    · rename_i kind
      cases (masterCopy createLkb remote.1).symm.trans kind
  · rintro lkb master sameNode sameId ⟨described, _⟩
    refine ⟨fits.2 lkb master sameNode sameId described, fun kind => ?_⟩
    cases (masterCopy lkb master).symm.trans kind

theorem Gathered.described {lines : Int32 → List Line} {place : Nat}
    {ourNodeid : Int32} {resources : List Rsb} (kernel : Kernel locks)
    (shown : AllShown locks lines)
    (gathered : Gathered lines place ourNodeid resources) :
    Everywhere (DescribesOne locks) resources := by
  induction gathered with
  | own =>
      intro r member lkb listed
      exact (ownResources_described kernel shown ourNodeid r member lkb
        listed).1
  | read nodeid _ induction =>
      apply induction.readCheckpoint
      intro _ part member packed listed
      obtain ⟨r, known, rfl⟩ := List.mem_map.mp member
      obtain ⟨lkb, there, rfl⟩ := List.mem_map.mp listed
      obtain ⟨⟨lock, present, resource, describes⟩, home⟩ :=
        ownResources_described kernel shown nodeid r known lkb there
      simp only [← resource]
      apply Copies.fits kernel present
      · exact ⟨describes.copies.ids, describes.copies.xid⟩
      · intro kind
        exact (home kind).symm.trans describes.home
  | purge nodeid _ induction => exact induction.purgeLocks nodeid

/-- `receive_cancel_lock`: the lock id for which it calls
`dlm_ls_deadlock_cancel`; `nodeid` is the sender. -/
def receiveCancelLock (ourNodeid nodeid : Int32) : Message → Option UInt32
  | .cancelLock _ lkid => if nodeid ≠ ourNodeid then none else some lkid
  | _ => none

/-- The calls of `dlm_ls_deadlock_cancel` when a message is delivered to all
nodes. -/
def cancelCalls (nodes : List Int32) (sender : Int32) (message : Message) :
    List (Int32 × UInt32) :=
  nodes.filterMap fun nodeid =>
    (receiveCancelLock nodeid sender message).map (nodeid, ·)

theorem cancelCalls_eq {nodes : List Int32} {sender : Int32}
    (distinct : nodes.Nodup) (member : sender ∈ nodes) (toNodeid : Int32)
    (lkid : UInt32) :
    cancelCalls nodes sender (.cancelLock toNodeid lkid) =
      [(sender, lkid)] := by
  induction nodes with
  | nil => cases member
  | cons head tail induction =>
      obtain ⟨fresh, rest⟩ := List.nodup_cons.mp distinct
      unfold cancelCalls at induction ⊢
      rw [List.filterMap_cons]
      by_cases same : sender = head
      · subst same
        have nobody : ∀ nodeid ∈ tail, (receiveCancelLock nodeid sender
            (.cancelLock toNodeid lkid)).map (nodeid, ·) = none := by
          intro nodeid there
          have apart : sender ≠ nodeid := fun equal =>
            fresh (equal ▸ there)
          simp [receiveCancelLock, apart]
        rw [List.filterMap_eq_nil_iff.mpr nobody]
        simp [receiveCancelLock]
      · have there := (List.mem_cons.mp member).resolve_left same
        rw [induction rest there]
        simp [receiveCancelLock, same]

theorem Describes.sendCancelLock {lock : KernelLock} {lkb : Lkb}
    (describes : Describes lock lkb) (home : lock.home ≠ 0) :
    sendCancelLock lkb = .cancelLock lock.home lock.homeId := by
  unfold Deadlock.sendCancelLock
  rw [describes.home]
  rcases describes.copies.ids with only | remote
  · rw [if_pos only.2.1, only.2.2.1]
  · have other : lkb.lock.nodeid ≠ 0 := by
      rw [remote.2.1]
      exact home
    rw [if_neg other, remote.2.2.2.1]

theorem sendCancelLock_mem {resources : List Rsb} {xid : UInt64}
    {pointers : List LkbPtr} {graph : Graph} {ptr : LkbPtr} {lkb : Lkb}
    (held : ptr ∈ pointers) (found : lkbAt resources ptr = some lkb)
    (waiting : lkb.lock.status ≠ DLM_LKSTS_GRANTED) :
    sendCancelLock lkb ∈ (cancelLocks resources xid pointers graph).2 := by
  induction pointers generalizing graph with
  | nil => cases held
  | cons head later induction =>
      unfold cancelLocks
      rcases List.mem_cons.mp held with rfl | rest
      · simp only [found, if_neg waiting]
        exact List.mem_cons_self
      · split
        · exact induction rest
        · split
          · exact induction rest
          · exact List.mem_cons_of_mem _ (induction rest)

/-- For every lock of the transaction that is cancelled, a message with its
home and its id there is sent; `dlm_ls_deadlock_cancel` is then called exactly
on the home of the lock and with that id if and only if the home is the node
that has found the deadlock. -/
theorem cancel_at_home_iff (locks : List KernelLock) (kernel : Kernel locks)
    (lines : Int32 → List Line) (shown : AllShown locks lines)
    (place : Nat) (low : Int32) (resources : List Rsb)
    (gathered : Gathered lines place low resources) (nodes : List Int32)
    (distinct : nodes.Nodup) (member : low ∈ nodes) (tr : Trans)
    (chosen : findTransToCancel (deadlocked resources).transactions =
      some tr)
    (ptr : LkbPtr) (held : ptr ∈ tr.locks) (lkb : Lkb)
    (found : lkbAt resources ptr = some lkb)
    (waiting : lkb.lock.status ≠ DLM_LKSTS_GRANTED) :
    sendCancelLock lkb ∈ (findDeadlock resources []).2 ∧
      ∃ lock ∈ locks, Describes lock lkb ∧
        sendCancelLock lkb = .cancelLock lock.home lock.homeId ∧
        (cancelCalls nodes low (sendCancelLock lkb) =
            [(lock.home, lock.homeId)] ↔
          lock.home = low) := by
  obtain ⟨r, here, listed⟩ := rsb_of_lkbAt found
  have known := List.mem_of_getElem? here
  constructor
  · have some_ : resources.isEmpty = false := by
      rw [List.isEmpty_eq_false_iff]
      exact List.ne_nil_of_mem known
    have left : (reduceWaitforGraphLoop
        (waitforGraph resources).transactions).isEmpty = false := by
      rw [List.isEmpty_eq_false_iff]
      exact List.ne_nil_of_mem (List.mem_of_find?_eq_some chosen)
    unfold findDeadlock
    simp only [some_, left, List.isEmpty_nil, Bool.not_true,
      Bool.false_eq_true, if_false]
    apply List.mem_append_left
    change sendCancelLock lkb ∈
      (cancelTrans resources (deadlocked resources)).2
    unfold cancelTrans
    simp only [chosen]
    exact sendCancelLock_mem held found waiting
  · obtain ⟨lock, present, _, describes⟩ :=
      gathered.described kernel shown r known lkb listed
    have message := describes.sendCancelLock (kernel.home lock present)
    refine ⟨lock, present, describes, message, ?_⟩
    rw [message, cancelCalls_eq distinct member]
    constructor
    · intro same
      exact (congrArg Prod.fst (List.singleton_inj.mp same)).symm
    · intro same
      rw [same]

/-- The lines of nodes 1 and 2. -/
def linesOf (first second : List Line) (nodeid : Int32) : List Line :=
  if nodeid = 1 then first else if nodeid = 2 then second else []

theorem allShown_of {first second : List Line}
    (one : ∀ line ∈ first, ∃ lock ∈ locks,
      lock.resource = line.1 ∧ Shows 1 lock line.2)
    (two : ∀ line ∈ second, ∃ lock ∈ locks,
      lock.resource = line.1 ∧ Shows 2 lock line.2) :
    AllShown locks (linesOf first second) := by
  intro nodeid line listed
  unfold linesOf at listed
  split at listed
  · rename_i same
    rw [same]
    exact one line listed
  · split at listed
    · rename_i same
      rw [same]
      exact two line listed
    · cases listed

/-- A line for concrete runs. -/
def plainLine (name : String) (nodeid : Int32) (id remid : UInt32)
    (xid : UInt64) (flags : UInt32) (status : Int8) (grmode rqmode : Mode) :
    Line :=
  (name,
    { PackLock.cleared with
      nodeid := nodeid
      id := id
      remid := remid
      xid := xid
      flags := flags
      status := status
      grmode := grmode
      rqmode := rqmode })

/-- A lock on a resource that node 1 masters. -/
def lockOn (resource : String) (home : Int32) (homeId masterId : UInt32)
    (xid : UInt64) : KernelLock :=
  { resource := resource
    home := home
    homeId := homeId
    master := 1
    masterId := masterId
    xid := xid }

/-- Two transactions of node 1 that wait for each other. -/
def localLocks : List KernelLock :=
  [lockOn "a" 1 1 1 1, lockOn "a" 1 2 2 2, lockOn "b" 1 3 3 2,
    lockOn "b" 1 4 4 1]

def localLines : List Line :=
  [plainLine "a" 0 1 0 1 0 2 .ex .un, plainLine "a" 0 2 0 2 0 1 .un .ex,
    plainLine "b" 0 3 0 2 0 2 .ex .un, plainLine "b" 0 4 0 1 0 1 .un .ex]

/-- Transaction 1 of node 1 and transaction 2 of node 2 wait for each
other. -/
def sharedLocks : List KernelLock :=
  [lockOn "a" 1 1 1 1, lockOn "a" 2 1 2 2, lockOn "b" 2 2 3 2,
    lockOn "b" 1 4 4 1]

def masterLines : List Line :=
  [plainLine "a" 0 1 0 1 0 2 .ex .un,
    plainLine "a" 2 2 1 0 IFL_MSTCPY 1 .un .ex,
    plainLine "b" 2 3 2 0 IFL_MSTCPY 2 .ex .un,
    plainLine "b" 0 4 0 1 0 1 .un .ex]

def processLines : List Line :=
  [plainLine "a" 1 1 2 2 0 1 .un .ex, plainLine "b" 1 2 3 2 0 2 .ex .un]

/-- What node 1 gathers. -/
def sharedResources : List Rsb :=
  readCheckpoint 1 2
    (packSections 0 (ownResources (linesOf masterLines processLines) 2))
    (ownResources (linesOf masterLines processLines) 1)

/-- The entry for the lock of `secondWaits` that waits. -/
def waitingLkb (nodeid : Int32) (id remid flags : UInt32) (copy : Copy)
    (home : Int32) (origins : List Nat) : Lkb :=
  { lock :=
      { PackLock.cleared with
        nodeid := nodeid
        id := id
        remid := remid
        xid := 2
        flags := flags
        status := 1
        grmode := .un
        rqmode := .ex
        copy := copy }
    home := home
    origins := origins }

theorem localLocks_kernel : Kernel localLocks := by
  constructor <;> decide

theorem sharedLocks_kernel : Kernel sharedLocks := by
  constructor <;> decide

theorem localLines_shown : AllShown localLocks (linesOf localLines []) := by
  apply allShown_of
  · simp only [localLines, List.forall_mem_cons]
    refine ⟨?_, ?_, ?_, ?_, List.forall_mem_nil _⟩
    · exact ⟨lockOn "a" 1 1 1 1, by decide, rfl, .only rfl rfl rfl rfl rfl⟩
    · exact ⟨lockOn "a" 1 2 2 2, by decide, rfl, .only rfl rfl rfl rfl rfl⟩
    · exact ⟨lockOn "b" 1 3 3 2, by decide, rfl, .only rfl rfl rfl rfl rfl⟩
    · exact ⟨lockOn "b" 1 4 4 1, by decide, rfl, .only rfl rfl rfl rfl rfl⟩
  · exact List.forall_mem_nil _

theorem sharedLines_shown :
    AllShown sharedLocks (linesOf masterLines processLines) := by
  apply allShown_of
  · simp only [masterLines, List.forall_mem_cons]
    refine ⟨?_, ?_, ?_, ?_, List.forall_mem_nil _⟩
    · exact ⟨lockOn "a" 1 1 1 1, by decide, rfl, .only rfl rfl rfl rfl rfl⟩
    · exact ⟨lockOn "a" 2 1 2 2, by decide, rfl,
        .master (by decide) rfl rfl rfl rfl (by decide) rfl⟩
    · exact ⟨lockOn "b" 2 2 3 2, by decide, rfl,
        .master (by decide) rfl rfl rfl rfl (by decide) rfl⟩
    · exact ⟨lockOn "b" 1 4 4 1, by decide, rfl, .only rfl rfl rfl rfl rfl⟩
  · simp only [processLines, List.forall_mem_cons]
    refine ⟨?_, ?_, List.forall_mem_nil _⟩
    · exact ⟨lockOn "a" 2 1 2 2, by decide, rfl,
        .process rfl (by decide) rfl rfl rfl (by decide) rfl⟩
    · exact ⟨lockOn "b" 2 2 3 2, by decide, rfl,
        .process rfl (by decide) rfl rfl rfl (by decide) rfl⟩

/-- The lock of node 1 is cancelled on node 1, which has found the
deadlock. -/
theorem local_lock_cancelled :
    sendCancelLock (waitingLkb 0 2 0 0 .localCopy 1 []) ∈
        (findDeadlock (ownResources (linesOf localLines []) 1) []).2 ∧
      ∃ lock ∈ localLocks, lock.home = 1 ∧
        Describes lock (waitingLkb 0 2 0 0 .localCopy 1 []) ∧
        sendCancelLock (waitingLkb 0 2 0 0 .localCopy 1 []) =
          .cancelLock lock.home lock.homeId ∧
        cancelCalls [1, 2] 1
            (sendCancelLock (waitingLkb 0 2 0 0 .localCopy 1 [])) =
          [(lock.home, lock.homeId)] := by
  have ours : ∀ lock ∈ localLocks, lock.home = 1 := by decide
  obtain ⟨sent, lock, known, describes, message, atHome⟩ :=
    cancel_at_home_iff localLocks localLocks_kernel (linesOf localLines [])
      localLines_shown 0 1 _ .own [1, 2] (by decide) (by decide) secondWaits
      (by decide) { rsb := 1, place := 0 } (by decide)
      (waitingLkb 0 2 0 0 .localCopy 1 []) (by decide) (by decide)
  exact ⟨sent, lock, known, ours lock known, describes, message,
    atHome.mpr (ours lock known)⟩

/-- The lock of node 2 is cancelled on node 1, where its id belongs to another
lock. -/
theorem remote_lock_not_cancelled :
    Kernel sharedLocks ∧
      AllShown sharedLocks (linesOf masterLines processLines) ∧
      Gathered (linesOf masterLines processLines) 0 1 sharedResources ∧
      findTransToCancel (deadlocked sharedResources).transactions =
        some secondWaits ∧
      findDeadlock sharedResources [] =
        ([], [.cancelLock 2 1, .cycleEnd]) ∧
      ∃ lock ∈ sharedLocks, lock.home = 2 ∧ lock.homeId = 1 ∧
        lkbAt sharedResources { rsb := 1, place := 0 } =
          some (waitingLkb 2 2 1 IFL_MSTCPY .masterCopy 2 [0]) ∧
        Describes lock (waitingLkb 2 2 1 IFL_MSTCPY .masterCopy 2 [0]) ∧
        sendCancelLock (waitingLkb 2 2 1 IFL_MSTCPY .masterCopy 2 [0]) =
          .cancelLock 2 1 ∧
        cancelCalls [1, 2] 1 (.cancelLock 2 1) = [(1, 1)] := by
  have describes : Describes (lockOn "a" 2 1 2 2)
      (waitingLkb 2 2 1 IFL_MSTCPY .masterCopy 2 [0]) := by
    refine ⟨rfl, .inr ⟨rfl, rfl, rfl, rfl, ?_⟩, .inl rfl⟩
    decide
  refine ⟨sharedLocks_kernel, sharedLines_shown, .read 2 .own, by decide,
    by decide, ?_⟩
  exact ⟨lockOn "a" 2 1 2 2, by decide, rfl, rfl, by decide, describes,
    by decide, by decide⟩

end Dlm.Deadlock
