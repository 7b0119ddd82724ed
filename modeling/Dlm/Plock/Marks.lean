import Mathlib.Data.List.Perm.Subperm
import Dlm.Plock.Entries
import Dlm.Plock.NodeRun
import Dlm.Plock.Slots
import Dlm.Plock.Transitions

/-!
# Entries left out of a checkpoint

`pack_section_buf` leaves out the entries marked `P_SYNCING`.  `send_syncs`
marks the entries of a resource that the node gives up, and each mark is
cleared when the `PLOCK_SYNC` message of the entry comes back.  New waiters and
the entries read from a checkpoint are not cleared when they are allocated:
their marks are what `malloc` left in memory.
-/

namespace Dlm.Plock

/-- The fields that `clear_syncing_flag` compares. -/
structure SyncKey where
  start : UInt64
  stop : UInt64
  nodeid : Int32
  owner : UInt64
  pid : UInt32
  ex : UInt8
  deriving DecidableEq

def Info.syncKey (info : Info) : SyncKey :=
  { start := info.start
    stop := info.stop
    nodeid := info.nodeid
    owner := info.owner
    pid := info.pid
    ex := info.ex }

def PosixLock.syncKey (po : PosixLock) : SyncKey :=
  { start := po.start
    stop := po.stop
    nodeid := po.nodeid
    owner := po.owner
    pid := po.pid
    ex := po.ex }

def LockWaiter.syncKey (w : LockWaiter) : SyncKey :=
  w.info.syncKey

/-- The keys of the marked entries of a list. -/
def markedKeys {α : Type} (syncing : α → Bool) (key : α → SyncKey)
    (entries : List α) : List SyncKey :=
  (entries.filter syncing).map key

/-- The keys of the marked entries of a resource. -/
def Resource.marks (r : Resource) : List SyncKey :=
  markedKeys PosixLock.syncing PosixLock.syncKey r.locks ++
    markedKeys LockWaiter.syncing LockWaiter.syncKey r.waiters

/-- The keys of the node's own `PLOCK_SYNC` messages about a resource. -/
def syncsOn (env : Env) (number : UInt64) (messages : List Message) :
    List SyncKey :=
  (messages.filter fun message =>
    message.nodeid == env.ourNodeid && message.isSync &&
      message.info.number == number).map (·.info.syncKey)

section Keys

variable {α : Type} {syncing : α → Bool} {key : α → SyncKey}

theorem markedKeys_eq_nil_iff {entries : List α} :
    markedKeys syncing key entries = [] ↔
      ∀ entry ∈ entries, syncing entry = false := by
  simp [markedKeys]

theorem markedKeys_of_marked {entries : List α}
    (marked : ∀ entry ∈ entries, syncing entry = true) :
    markedKeys syncing key entries = entries.map key := by
  rw [markedKeys, List.filter_eq_self.mpr marked]

/-- Unmarking the first marked entry with a key removes the key once. -/
theorem markedKeys_modifyFirst {test : α → Bool} {wanted : SyncKey}
    (change : α → α)
    (tests : ∀ entry, test entry = (syncing entry && key entry == wanted))
    (clears : ∀ entry, syncing (change entry) = false)
    (entries : List α) :
    markedKeys syncing key (modifyFirst test change entries) =
      (markedKeys syncing key entries).erase wanted := by
  induction entries with
  | nil => rfl
  | cons entry later induction =>
      rw [modifyFirst]
      cases marked : syncing entry with
      | false =>
          have passed : test entry = false := by simp [tests, marked]
          simp only [passed, Bool.false_eq_true, if_false]
          simpa [markedKeys, marked] using induction
      | true =>
          by_cases same : key entry = wanted
          · have found : test entry = true := by simp [tests, marked, same]
            simp [found, markedKeys, clears, marked, same]
          · have passed : test entry = false := by simp [tests, same]
            simp only [passed, Bool.false_eq_true, if_false]
            simpa [markedKeys, marked, List.erase_cons_tail, same]
              using induction

end Keys

section Marks

variable {env : Env} {r : Resource} {info : Info} {number : UInt64}

theorem marks_eq_nil_iff :
    r.marks = [] ↔ (∀ po ∈ r.locks, po.syncing = false) ∧
      ∀ w ∈ r.waiters, w.syncing = false := by
  rw [Resource.marks, List.append_eq_nil_iff, markedKeys_eq_nil_iff,
    markedKeys_eq_nil_iff]

theorem syncMatchesLock_eq (info : Info) (po : PosixLock) :
    syncMatchesLock info po = (po.syncing && po.syncKey == info.syncKey) := by
  rw [Bool.eq_iff_iff]
  simp only [syncMatchesLock, Bool.and_eq_true, beq_iff_eq, Info.syncKey,
    PosixLock.syncKey, SyncKey.mk.injEq]
  constructor
  · intro ⟨⟨⟨⟨⟨⟨marked, start⟩, stop⟩, nodeid⟩, owner⟩, pid⟩, ex⟩
    exact ⟨marked, start.symm, stop.symm, nodeid.symm, owner.symm, pid.symm,
      ex.symm⟩
  · intro ⟨marked, start, stop, nodeid, owner, pid, ex⟩
    exact ⟨⟨⟨⟨⟨⟨marked, start.symm⟩, stop.symm⟩, nodeid.symm⟩, owner.symm⟩,
      pid.symm⟩, ex.symm⟩

theorem syncMatchesWaiter_eq (info : Info) (w : LockWaiter) :
    syncMatchesWaiter info w = (w.syncing && w.syncKey == info.syncKey) := by
  exact syncMatchesLock_eq info
    { pid := w.info.pid
      owner := w.info.owner
      start := w.info.start
      stop := w.info.stop
      ex := w.info.ex
      nodeid := w.info.nodeid
      syncing := w.syncing }

/-- `clear_syncing_flag` clears one mark with the key of the message. -/
theorem clearSyncingFlag_marks (r : Resource) (info : Info) :
    (clearSyncingFlag r info).marks = r.marks.erase info.syncKey := by
  have locks := markedKeys_modifyFirst
    (fun po : PosixLock => { po with syncing := false })
    (syncMatchesLock_eq info) (fun _ => rfl) r.locks
  have waiters := markedKeys_modifyFirst
    (fun w : LockWaiter => { w with syncing := false })
    (syncMatchesWaiter_eq info) (fun _ => rfl) r.waiters
  unfold clearSyncingFlag
  split
  · rename_i found
    obtain ⟨po, member, matched⟩ := List.any_eq_true.mp found
    rw [syncMatchesLock_eq, Bool.and_eq_true, beq_iff_eq] at matched
    have marked : info.syncKey ∈
        markedKeys PosixLock.syncing PosixLock.syncKey r.locks :=
      List.mem_map.mpr
        ⟨po, List.mem_filter.mpr ⟨member, matched.1⟩, matched.2⟩
    rw [Resource.marks, Resource.marks, List.erase_append_left _ marked,
      ← locks]
  · rename_i absent
    have unmarked : info.syncKey ∉
        markedKeys PosixLock.syncing PosixLock.syncKey r.locks := by
      intro marked
      obtain ⟨po, member, same⟩ := List.mem_map.mp marked
      obtain ⟨member, syncing⟩ := List.mem_filter.mp member
      apply absent
      apply List.any_eq_true.mpr ⟨po, member, ?_⟩
      rw [syncMatchesLock_eq, syncing, same]
      simp
    rw [Resource.marks, Resource.marks, List.erase_append_right _ unmarked,
      ← waiters]

end Marks

/-- The bit `P_SYNCING` is clear in the memory that `malloc` returns. -/
structure CleanMemory (env : Env) : Prop where
  waiters : ∀ info, env.waiterJunk info = false
  locks : ∀ po, env.lockJunk po = false

section Clean

variable {env : Env} {r : Resource} {info : Info}

/-- An operation on a resource without marks makes none. -/
theorem CleanMemory.executed (clean : CleanMemory env) (info : Info)
    (unmarked : r.marks = []) : (afterPlock env info r).marks = [] := by
  obtain ⟨locks, waiters⟩ := marks_eq_nil_iff.mp unmarked
  apply marks_eq_nil_iff.mpr
  constructor
  · exact afterPlock_locks (P := fun po => po.syncing = false)
      (fun _ _ _ _ unmarked => unmarked) env (fun _ _ _ => rfl) locks
      (fun _ _ _ _ _ => rfl)
  · intro w member
    rcases afterPlock_waiters env info r w member with old | ⟨_, rfl⟩
    · exact waiters w old
    · exact clean.waiters info

theorem CleanMemory.addWaiter (clean : CleanMemory env) (r : Resource)
    (info : Info) : (addWaiter env r info).marks = r.marks := by
  simp [Resource.marks, Plock.addWaiter, markedKeys, clean.waiters]

theorem CleanMemory.unpacked (clean : CleanMemory env) (section_ : Section) :
    (unpackSectionBuf env section_).marks = [] := by
  apply marks_eq_nil_iff.mpr
  constructor
  · intro po member
    obtain ⟨pp, _, rfl⟩ := List.mem_map.mp member
    exact clean.locks _
  · intro w member
    obtain ⟨pp, _, rfl⟩ := List.mem_map.mp member
    exact clean.waiters _

end Clean

/-- Only a resource without an owner has marks, the operations put aside are
about the resource, and so are the waiters that the node may have to announce
when it gives the resource up. -/
structure Accounted (env : Env) (r : Resource) : Prop where
  unowned : r.marks ≠ [] → r.owner = 0
  waiters : r.owner = env.ourNodeid ∨ r.owner = -1 →
    ∀ w ∈ r.waiters, w.info.number = r.number
  pending : ∀ info ∈ r.pending, info.number = r.number

section Accounted

variable {env : Env} {r : Resource} {message : Message}

theorem Accounted.new (env : Env) (number : UInt64) :
    Accounted env (newResource env number) := by
  constructor
  · intro marked
    exact (marked rfl).elim
  · intro _ w absent
    cases absent
  · intro info absent
    cases absent

theorem Accounted.executed (accounted : Accounted env r)
    (clean : CleanMemory env) {info : Info} (about : info.number = r.number) :
    Accounted env (afterPlock env info r) := by
  constructor
  · intro marked
    rw [afterPlock_owner]
    apply accounted.unowned
    intro unmarked
    exact marked (clean.executed info unmarked)
  · intro ours w member
    rw [afterPlock_owner] at ours
    rw [afterPlock_number]
    rcases afterPlock_waiters env info r w member with old | ⟨_, rfl⟩
    · exact accounted.waiters ours w old
    · exact about
  · rw [afterPlock_pending, afterPlock_number]
    exact accounted.pending

theorem Accounted.saved (accounted : Accounted env r) {info : Info}
    (about : info.number = r.number) :
    Accounted env (savePendingPlock r info) := by
  refine ⟨accounted.unowned, accounted.waiters, ?_⟩
  exact List.forall_mem_append.mpr
    ⟨accounted.pending, List.forall_mem_singleton.mpr about⟩

theorem Accounted.flushed (accounted : Accounted env r) :
    Accounted env { r with pending := [] } := by
  refine ⟨accounted.unowned, accounted.waiters, ?_⟩
  intro info absent
  cases absent

/-- A resource that nobody owns is only asked about its operations. -/
theorem Accounted.of_unowned (ours : env.ourNodeid ≠ 0) (unowned : r.owner = 0)
    (pending : ∀ info ∈ r.pending, info.number = r.number) :
    Accounted env r := by
  refine ⟨fun _ => unowned, ?_, pending⟩
  intro owned
  rw [unowned] at owned
  rcases owned with us | unknown
  · exact (ours us.symm).elim
  · cases unknown

/-- `send_syncs` marks every entry. -/
theorem sendSyncs_marks (r : Resource) :
    (sendSyncs r).1.marks =
      r.locks.map PosixLock.syncKey ++ r.waiters.map LockWaiter.syncKey := by
  rw [Resource.marks, markedKeys_of_marked, markedKeys_of_marked]
  · simp only [sendSyncs, List.map_map]
    rfl
  · intro w member
    obtain ⟨old, _, rfl⟩ := List.mem_map.mp member
    rfl
  · intro po member
    obtain ⟨old, _, rfl⟩ := List.mem_map.mp member
    rfl

theorem clearSyncingFlag_frame (r : Resource) (info : Info) :
    ∃ locks waiters,
      clearSyncingFlag r info = { r with locks := locks, waiters := waiters } ∧
        ∀ w ∈ waiters, ∃ old ∈ r.waiters, w.info = old.info := by
  unfold clearSyncingFlag
  split
  · exact ⟨_, _, rfl, fun w member => ⟨w, member, rfl⟩⟩
  · refine ⟨_, _, rfl, fun w member => ?_⟩
    rcases mem_modifyFirst member with kept | ⟨old, oldMember, _, rfl⟩
    · exact ⟨w, kept, rfl⟩
    · exact ⟨old, oldMember, rfl⟩

theorem Accounted.cleared (accounted : Accounted env r) (info : Info) :
    Accounted env (clearSyncingFlag r info) := by
  have marks := clearSyncingFlag_marks r info
  obtain ⟨locks, waiters, frame, kept⟩ := clearSyncingFlag_frame r info
  rw [frame] at marks ⊢
  refine ⟨?_, ?_, accounted.pending⟩
  · intro marked
    apply accounted.unowned
    intro unmarked
    rw [unmarked] at marks
    exact marked marks
  · intro owned w member
    obtain ⟨old, oldMember, same⟩ := kept w member
    rw [same]
    exact accounted.waiters owned old oldMember

/-- A lock that another node announces is not marked. -/
theorem addLock_marks (r : Resource) (info : Info) :
    ({ r with
      locks := (addLock [] r.locks info.nodeid info.owner info.pid info.ex
        info.start info.stop).2.1 } : Resource).marks = r.marks := by
  simp [Resource.marks, addLock, malloc, markedKeys]

end Accounted

/-- What a message does to the books of its resource, apart from the marks. -/
theorem accounted_survives {env : Env} (ours : env.ourNodeid ≠ 0)
    (clean : CleanMemory env) (message : Message) :
    Survives env message (·.number = message.info.number)
      (fun r => Accounted env r ∧ r.number = message.info.number) := by
  constructor
  case new => exact ⟨.new env _, rfl⟩
  case sent =>
    intro _
    rfl
  case pending =>
    intro r here info member
    exact (here.1.pending info member).trans here.2
  case executed =>
    intro r info here about
    refine ⟨here.1.executed clean (about.trans here.2.symm), ?_⟩
    rw [afterPlock_number]
    exact here.2
  case saved =>
    intro r info here about _
    exact ⟨here.1.saved (about.trans here.2.symm), here.2⟩
  case flushed =>
    intro r here
    exact ⟨here.1.flushed, here.2⟩
  case claimed =>
    intro r here unknown _
    have unmarked : r.marks = [] := by
      by_contra marked
      rw [here.1.unowned marked] at unknown
      cases unknown
    refine ⟨⟨fun marked => (marked unmarked).elim, ?_, here.1.pending⟩,
      here.2⟩
    intro _
    exact here.1.waiters (.inr unknown)
  case flagged =>
    intro r here _
    exact ⟨⟨here.1.unowned, here.1.waiters, here.1.pending⟩, here.2⟩
  case released =>
    intro r here
    exact ⟨.of_unowned ours rfl here.1.pending, here.2⟩
  case synced =>
    intro r here
    exact ⟨.of_unowned ours rfl here.1.pending, here.2⟩
  case cleared =>
    intro r here
    refine ⟨here.1.cleared message.info, ?_⟩
    rw [clearSyncingFlag_number]
    exact here.2
  case lock =>
    intro _ r here
    refine ⟨⟨?_, here.1.waiters, here.1.pending⟩, here.2⟩
    rw [addLock_marks]
    exact here.1.unowned
  case waiter =>
    intro _ r here
    refine ⟨⟨?_, ?_, here.1.pending⟩, here.2⟩
    · rw [clean.addWaiter]
      exact here.1.unowned
    · intro owned
      exact List.forall_mem_append.mpr
        ⟨here.1.waiters owned, List.forall_mem_singleton.mpr here.2.symm⟩

/-- The marks of a slot are covered by messages on their way. -/
def SlotCovered (env : Env) (number : UInt64) (flight : List Message)
    (slot : Option Resource) : Prop :=
  ∀ r ∈ slot, r.marks.Subperm (syncsOn env number flight)

/-- A lock or unlock operation finds its resource without marks. -/
def FoundUnmarked (resources : List Resource) (message : Message) : Prop :=
  message.type = .plock →
    message.info.optype = .lock ∨ message.info.optype = .unlock →
      ∀ r ∈ searchResource resources message.info.number, r.marks = []

section Covered

variable {env : Env} {r : Resource} {message : Message}
variable {flight : List Message} {slot : Option Resource} {number : UInt64}

theorem syncsOn_append (number : UInt64) (front back : List Message) :
    syncsOn env number (front ++ back) =
      syncsOn env number front ++ syncsOn env number back := by
  simp [syncsOn]

theorem SlotCovered.more (covered : SlotCovered env number flight slot)
    (sent : List Message) :
    SlotCovered env number (flight ++ sent) slot := by
  intro r member
  rw [syncsOn_append]
  exact (covered r member).trans (List.sublist_append_left _ _).subperm

theorem executed_unmarked (clean : CleanMemory env) {info : Info}
    {sender : Int32} (unmarked : r.marks = []) :
    ∀ s ∈ (receivePlock2 env info sender r).1, s.marks = [] := by
  intro s kept
  rw [receivePlock2_slot kept]
  exact clean.executed info unmarked

/-- An operation leaves the marks of a resource that it does not find without
marks. -/
theorem receivePlock2_marks (clean : CleanMemory env) {info : Info}
    {sender : Int32}
    (undisturbed : info.optype = .lock ∨ info.optype = .unlock →
      r.marks = []) :
    ∀ s ∈ (receivePlock2 env info sender r).1, s.marks = r.marks := by
  intro s kept
  rw [receivePlock2_slot kept]
  cases kind : info.optype with
  | lock =>
      have unmarked := undisturbed (.inl kind)
      rw [clean.executed info unmarked, unmarked]
  | unlock =>
      have unmarked := undisturbed (.inr kind)
      rw [clean.executed info unmarked, unmarked]
  | get => rw [afterPlock, kind]
  | unknown code => rw [afterPlock, kind]

/-- A delivered operation does not touch marks. -/
theorem receivePlock1_marks (clean : CleanMemory env)
    (undisturbed : message.info.optype = .lock ∨
      message.info.optype = .unlock → ∀ r ∈ slot, r.marks = []) :
    ∀ s ∈ (receivePlock1 env message slot).1,
      s.marks = [] ∨ ∃ r ∈ slot, s.marks = r.marks := by
  have same : ∀ s ∈ slot, s.marks = [] ∨ ∃ r ∈ slot, s.marks = r.marks :=
    fun s member => .inr ⟨s, member, rfl⟩
  unfold receivePlock1
  dsimp only
  split
  · exact same
  · split
    · exact same
    · split
      · split
        · intro s absent
          cases absent
        · intro s new
          cases new
          exact .inl rfl
      · rename_i r found
        have origin : r.marks = [] ∨ r ∈ slot := by
          rcases findResource_eq_some found with rfl | ⟨_, rfl⟩
          · exact .inr rfl
          · exact .inl rfl
        have inherits (s : Resource) (marks : s.marks = r.marks) :
            s.marks = [] ∨ ∃ r ∈ slot, s.marks = r.marks := by
          rcases origin with unmarked | member
          · exact .inl (marks.trans unmarked)
          · exact .inr ⟨r, member, marks⟩
        have executed : ∀ s ∈ (receivePlock2 env message.info
            message.nodeid r).1,
            s.marks = [] ∨ ∃ r ∈ slot, s.marks = r.marks := by
          intro s kept
          apply inherits
          refine receivePlock2_marks clean ?_ s kept
          intro changes
          exact origin.elim id (undisturbed changes r)
        have exit := receivePlockFound_exit env message.info message.nodeid r
        generalize receivePlockFound env message.info message.nodeid r =
          result at exit ⊢
        cases exit with
        | executed => exact executed
        | saved =>
            intro s saved
            cases saved
            exact inherits _ rfl
        | ignored =>
            intro s kept
            cases kept
            exact inherits _ rfl

theorem sentBy_append (front back : List Effect) :
    sentBy env (front ++ back) = sentBy env front ++ sentBy env back :=
  List.filterMap_append

/-- The messages that announce a list of entries. -/
theorem syncsOn_announced {α : Type} {type : MsgType}
    (sync : type = .syncLock ∨ type = .syncWaiter) (announce : α → Info)
    (entries : List α)
    (about : ∀ entry ∈ entries, (announce entry).number = number) :
    syncsOn env number (sentBy env
        (entries.map fun entry => sendStructInfo (announce entry) type)) =
      entries.map fun entry => (announce entry).syncKey := by
  have sent : sentBy env
      (entries.map fun entry => sendStructInfo (announce entry) type) =
      entries.map fun entry => ⟨type, env.ourNodeid, announce entry⟩ := by
    rw [sentBy, List.filterMap_map, ← List.filterMap_eq_map']
    rfl
  rw [sent, syncsOn, List.filter_eq_self.mpr, List.map_map]
  · rfl
  · intro message member
    obtain ⟨entry, listed, rfl⟩ := List.mem_map.mp member
    rcases sync with rfl | rfl
    · simp [Message.isSync, about entry listed]
    · simp [Message.isSync, about entry listed]

/-- `send_syncs` announces what it marks. -/
theorem syncsOn_sendSyncs
    (about : ∀ w ∈ r.waiters, w.info.number = r.number) :
    syncsOn env r.number (sentBy env (sendSyncs r).2) =
      (sendSyncs r).1.marks := by
  rw [sendSyncs_marks, sendSyncs, sentBy_append, syncsOn_append]
  congr 1
  · exact syncsOn_announced (.inl rfl) (syncLockInfo r.number) r.locks
      (fun _ _ => rfl)
  · exact syncsOn_announced (.inr rfl) (·.info) r.waiters about

theorem addPendingLoop_unmarked (clean : CleanMemory env)
    (pending : List Info) (unmarked : r.marks = []) :
    ∀ s ∈ (addPendingLoop env pending r).1, s.marks = [] := by
  induction pending generalizing r with
  | nil =>
      intro s same
      cases same
      exact unmarked
  | cons info later induction =>
      have first : ∀ s ∈ (receivePlock2 env info env.ourNodeid r).1,
          s.marks = [] :=
        executed_unmarked clean unmarked
      rw [addPendingLoop]
      cases received : receivePlock2 env info env.ourNodeid r with
      | mk slot effects =>
          rw [received] at first
          cases slot with
          | none =>
              intro s absent
              cases absent
          | some s => exact induction (first s rfl)

theorem receiveOwnFromUs_marks (clean : CleanMemory env)
    (accounted : Accounted env r) (info : Info) :
    ∀ s ∈ (receiveOwnFromUs env info r).1, s.marks = r.marks := by
  have same : ∀ s ∈ some r, s.marks = r.marks := by
    intro s kept
    cases kept
    rfl
  unfold receiveOwnFromUs
  split
  · split
    · exact same
    · split
      · intro s flagged
        cases flagged
        rfl
      · exact same
  · split
    · split
      · rename_i unknown
        have unmarked : r.marks = [] := by
          by_contra marked
          rw [accounted.unowned marked] at unknown
          cases unknown
        intro s kept
        rw [unmarked]
        exact addPendingLoop_unmarked clean r.pending
          (r := { r with owner := env.ourNodeid, pending := [] }) unmarked s
          kept
      · split
        · exact same
        · split
          · intro s flushed
            cases flushed
            rfl
          · exact same
    · exact same

/-- Another node's claim leaves the marks, or all entries are marked and
announced. -/
theorem receiveOwnFromOther_marks (accounted : Accounted env r) (info : Info)
    (sender : Int32) :
    ∀ s ∈ (receiveOwnFromOther env info sender r).1, s.marks = r.marks ∨
      s.marks.Sublist (syncsOn env r.number (sentBy env
        (receiveOwnFromOther env info sender r).2)) := by
  have same (effects : List Effect) : ∀ s ∈ some r, s.marks = r.marks ∨
      s.marks.Sublist (syncsOn env r.number (sentBy env effects)) := by
    intro s kept
    cases kept
    exact .inl rfl
  unfold receiveOwnFromOther
  split
  · split
    · exact same _
    · split
      · exact same _
      · split
        · exact same _
        · intro s released
          cases released
          exact .inl rfl
  · split
    · split
      · intro s claimed
        cases claimed
        exact .inl rfl
      · split
        · rename_i owned
          intro s relinquished
          cases relinquished
          right
          rw [sentBy_append, syncsOn_append,
            syncsOn_sendSyncs (accounted.waiters (.inl owned))]
          exact List.sublist_append_left _ _
        · exact same _
    · exact same _

theorem syncsOn_cons_other (number : UInt64) (flight : List Message)
    (other : message.nodeid = env.ourNodeid → message.isSync = true →
      message.info.number ≠ number) :
    syncsOn env number (message :: flight) = syncsOn env number flight := by
  rw [syncsOn, List.filter_cons_of_neg]
  · rfl
  · simpa [and_imp] using other

theorem syncsOn_cons_own (flight : List Message)
    (ours : message.nodeid = env.ourNodeid) (sync : message.isSync = true) :
    syncsOn env message.info.number (message :: flight) =
      message.info.syncKey :: syncsOn env message.info.number flight := by
  rw [syncsOn, List.filter_cons_of_pos (by simp [ours, sync])]
  rfl

theorem receiveSync1_covered (clean : CleanMemory env)
    (sync : message.isSync = true)
    (covered : SlotCovered env message.info.number (message :: flight) slot) :
    SlotCovered env message.info.number flight
      (receiveSync1 env message slot).1 := by
  cases slot with
  | none =>
      intro s absent
      cases absent
  | some r =>
      have before := covered r rfl
      simp only [receiveSync1]
      split
      · rename_i ours
        intro s cleared
        cases cleared
        rw [syncsOn_cons_own flight ours sync] at before
        rw [clearSyncingFlag_marks]
        have erased := before.erase message.info.syncKey
        rw [List.erase_cons_head] at erased
        exact erased
      · rename_i other
        rw [syncsOn_cons_other _ _ fun ours => (other ours).elim] at before
        split
        · intro s locked
          cases locked
          rw [show Resource.marks _ = _ from addLock_marks r message.info]
          exact before
        · split
          · intro s queued
            cases queued
            rw [clean.addWaiter]
            exact before
          · intro s same
            cases same
            exact before

theorem receiveOwn1_covered (clean : CleanMemory env)
    (accounted : ∀ r ∈ slot,
      Accounted env r ∧ r.number = message.info.number)
    (covered : SlotCovered env message.info.number flight slot) :
    SlotCovered env message.info.number
      (flight ++ sentBy env (receiveOwn1 env message slot).2)
      (receiveOwn1 env message slot).1 := by
  unfold receiveOwn1
  split
  · intro s absent
    cases absent
  · rename_i r found
    have here : (Accounted env r ∧ r.number = message.info.number) ∧
        r.marks.Subperm (syncsOn env message.info.number flight) := by
      rcases findResource_eq_some found with rfl | ⟨_, rfl⟩
      · exact ⟨accounted r rfl, covered r rfl⟩
      · exact ⟨⟨.new env _, rfl⟩, List.nil_subperm⟩
    obtain ⟨⟨accounted, number⟩, before⟩ := here
    split
    · apply SlotCovered.more
      intro s kept
      rw [receiveOwnFromUs_marks clean accounted message.info s kept]
      exact before
    · intro s kept
      rw [syncsOn_append]
      rcases receiveOwnFromOther_marks accounted message.info message.nodeid
        s kept with same | announced
      · rw [same]
        exact before.trans (List.sublist_append_left _ _).subperm
      · rw [number] at announced
        exact (announced.trans (List.sublist_append_right _ _)).subperm

/-- A message is handled: the marks left are covered by the messages left. -/
theorem receiveSlot_covered (clean : CleanMemory env)
    (accounted : ∀ r ∈ slot,
      Accounted env r ∧ r.number = message.info.number)
    (undisturbed : message.type = .plock →
      message.info.optype = .lock ∨ message.info.optype = .unlock →
        ∀ r ∈ slot, r.marks = [])
    (covered : SlotCovered env message.info.number (message :: flight) slot) :
    SlotCovered env message.info.number
      (flight ++ sentBy env (receiveSlot env message slot).2)
      (receiveSlot env message slot).1 := by
  have dropped (plain : message.isSync = false) :
      SlotCovered env message.info.number flight slot := by
    intro r member
    have before := covered r member
    rw [syncsOn_cons_other _ _ fun _ sync => by simp [plain] at sync] at before
    exact before
  unfold receiveSlot
  cases kind : message.type with
  | plock =>
      apply SlotCovered.more
      intro s kept
      rcases receivePlock1_marks clean (undisturbed kind) s kept
        with unmarked | ⟨r, member, same⟩
      · rw [unmarked]
        exact List.nil_subperm
      · rw [same]
        exact dropped (by simp [Message.isSync, kind]) r member
  | own =>
      exact receiveOwn1_covered clean accounted
        (dropped (by simp [Message.isSync, kind]))
  | drop =>
      apply SlotCovered.more
      intro s kept
      rcases receiveDrop1_cases slot with freed | same
      · rw [freed] at kept
        cases kept
      · rw [same] at kept
        exact dropped (by simp [Message.isSync, kind]) s kept
  | syncLock =>
      apply SlotCovered.more
      exact receiveSync1_covered clean (by simp [Message.isSync, kind]) covered
  | syncWaiter =>
      apply SlotCovered.more
      exact receiveSync1_covered clean (by simp [Message.isSync, kind]) covered

end Covered

/-- The books of a table: every resource is accounted for, its marks are
covered by own messages that have not come back, and of several resources with
one number only the first has marks. -/
structure Booked (env : Env) (resources : List Resource)
    (flight : List Message) : Prop where
  first : resources.Pairwise fun r s => r.number = s.number → s.marks = []
  accounted : ∀ r ∈ resources, Accounted env r
  covered : ∀ r ∈ resources,
    r.marks.Subperm (syncsOn env r.number flight)

section Tables

variable {env : Env} {resources : List Resource}
variable {flight after : List Message}

theorem Booked.grow (booked : Booked env resources flight)
    (grows : ∀ number,
      (syncsOn env number flight).Subperm (syncsOn env number after)) :
    Booked env resources after := by
  refine ⟨booked.first, booked.accounted, ?_⟩
  intro r member
  exact (booked.covered r member).trans (grows r.number)

theorem Booked.nil (env : Env) (flight : List Message) :
    Booked env [] flight := by
  refine ⟨.nil, ?_, ?_⟩
  · intro r absent
    cases absent
  · intro r absent
    cases absent

theorem Booked.cons_iff {r : Resource} :
    Booked env (r :: resources) flight ↔
      (∀ s ∈ resources, r.number = s.number → s.marks = []) ∧
        Accounted env r ∧ r.marks.Subperm (syncsOn env r.number flight) ∧
          Booked env resources flight := by
  constructor
  · intro booked
    obtain ⟨head, tail⟩ := List.pairwise_cons.mp booked.first
    obtain ⟨accounted, accountedRest⟩ :=
      List.forall_mem_cons.mp booked.accounted
    obtain ⟨covered, coveredRest⟩ := List.forall_mem_cons.mp booked.covered
    exact ⟨head, accounted, covered, tail, accountedRest, coveredRest⟩
  · intro ⟨head, accounted, covered, booked⟩
    exact ⟨.cons head booked.first,
      List.forall_mem_cons.mpr ⟨accounted, booked.accounted⟩,
      List.forall_mem_cons.mpr ⟨covered, booked.covered⟩⟩

/-- The first resource with a number is replaced. -/
theorem Booked.replace {number : UInt64} {slot : Option Resource}
    (booked : Booked env resources flight) (numbered : Numbered number slot)
    (accounted : ∀ s ∈ slot, Accounted env s)
    (covered : SlotCovered env number after slot)
    (others : ∀ other, other ≠ number →
      (syncsOn env other flight).Subperm (syncsOn env other after)) :
    Booked env (putSlot number slot resources) after := by
  have here (later : List Resource)
      (unmarked : ∀ s ∈ later, s.number = number → s.marks = [])
      (rest : Booked env later after) :
      Booked env (slot.toList ++ later) after := by
    cases slot with
    | none => exact rest
    | some s =>
        have same := numbered s rfl
        refine Booked.cons_iff.mpr ⟨?_, accounted s rfl, ?_, rest⟩
        · intro other member equal
          exact unmarked other member (equal.symm.trans same)
        · rw [same]
          exact covered s rfl
  induction resources with
  | nil =>
      have alone := here [] (List.forall_mem_nil _)
        (.nil env after)
      rw [List.append_nil] at alone
      exact alone
  | cons r later induction =>
      obtain ⟨head, rAccounted, rCovered, tail⟩ := Booked.cons_iff.mp booked
      rw [putSlot]
      split
      · rename_i same
        rw [beq_iff_eq.mp same] at head
        have unmarked : ∀ s ∈ later, s.number = number → s.marks = [] :=
          fun s member equal => head s member equal.symm
        refine here later unmarked ⟨tail.first, tail.accounted, ?_⟩
        intro s member
        by_cases equal : s.number = number
        · rw [unmarked s member equal]
          exact List.nil_subperm
        · exact (tail.covered s member).trans (others s.number equal)
      · rename_i different
        have mismatch : r.number ≠ number := by simpa using different
        refine Booked.cons_iff.mpr ⟨?_, rAccounted, ?_, induction tail⟩
        · intro s member equal
          rcases mem_putSlot member with new | old
          · exact (mismatch (equal.trans (numbered s new))).elim
          · exact head s old equal
        · exact rCovered.trans (others r.number mismatch)

/-- A step that changes each resource on its own, without new marks. -/
theorem Booked.filterMap (booked : Booked env resources flight)
    (change : Resource → Option Resource)
    (changed : ∀ r ∈ resources, ∀ s ∈ change r, s.number = r.number ∧
      Accounted env s ∧ s.marks.Sublist r.marks) :
    Booked env (resources.filterMap change) flight := by
  induction resources with
  | nil => exact .nil env flight
  | cons r later induction =>
      obtain ⟨head, rAccounted, rCovered, tail⟩ := Booked.cons_iff.mp booked
      obtain ⟨first, rest⟩ := List.forall_mem_cons.mp changed
      have kept := induction tail rest
      cases result : change r with
      | none =>
          rw [List.filterMap_cons_none result]
          exact kept
      | some s =>
          rw [List.filterMap_cons_some result]
          obtain ⟨number, accounted, marks⟩ := first s result
          refine Booked.cons_iff.mpr ⟨?_, accounted, ?_, kept⟩
          · intro other member equal
            obtain ⟨old, oldMember, came⟩ := List.mem_filterMap.mp member
            obtain ⟨oldNumber, _, fewer⟩ := rest old oldMember other came
            have unmarked := head old oldMember
              (number.symm.trans (equal.trans oldNumber))
            rw [unmarked] at fewer
            exact List.sublist_nil.mp fewer
          · rw [number]
            exact marks.subperm.trans rCovered

/-- A step that leaves the numbers and the marks. -/
theorem Booked.same {changed : List Resource}
    (booked : Booked env resources flight)
    (same : changed.map (fun r => (r.number, r.marks)) =
      resources.map fun r => (r.number, r.marks))
    (accounted : ∀ s ∈ changed, Accounted env s) :
    Booked env changed flight := by
  have origin (s : Resource) (member : s ∈ changed) :
      ∃ r ∈ resources, r.number = s.number ∧ r.marks = s.marks := by
    have listed := List.mem_map_of_mem (f := fun r : Resource =>
      (r.number, r.marks)) member
    rw [same] at listed
    obtain ⟨r, old, equal⟩ := List.mem_map.mp listed
    obtain ⟨number, marks⟩ := Prod.mk.inj equal
    exact ⟨r, old, number, marks⟩
  refine ⟨?_, accounted, ?_⟩
  · have pairs : (resources.map fun r => (r.number, r.marks)).Pairwise
        fun r s => r.1 = s.1 → s.2 = [] :=
      List.pairwise_map.mpr booked.first
    rw [← same] at pairs
    exact List.pairwise_map.mp pairs
  · intro s member
    obtain ⟨r, old, number, marks⟩ := origin s member
    rw [← number, ← marks]
    exact booked.covered r old

/-- Resources without marks are added at the end. -/
theorem Booked.append (booked : Booked env resources flight)
    {added : List Resource}
    (new : ∀ s ∈ added, Accounted env s ∧ s.marks = []) :
    Booked env (resources ++ added) flight := by
  refine ⟨?_, ?_, ?_⟩
  · refine List.pairwise_append.mpr ⟨booked.first, ?_, ?_⟩
    · exact List.pairwise_of_forall_mem_list
        fun _ _ s member _ => (new s member).2
    · intro r _ s member _
      exact (new s member).2
  · exact List.forall_mem_append.mpr
      ⟨booked.accounted, fun s member => (new s member).1⟩
  · refine List.forall_mem_append.mpr ⟨booked.covered, ?_⟩
    intro s member
    rw [(new s member).2]
    exact List.nil_subperm

/-- A message is handled. -/
theorem Booked.receiveNow {ls : Lockspace} {message : Message}
    (ours : env.ourNodeid ≠ 0) (clean : CleanMemory env)
    (booked : Booked env ls.plockResources (message :: flight))
    (undisturbed : FoundUnmarked ls.plockResources message) :
    Booked env (receiveNow env ls message).1.plockResources
      (flight ++ sentBy env (receiveNow env ls message).2) := by
  let slot := searchResource ls.plockResources message.info.number
  have accounted : SlotHolds (fun r => Accounted env r ∧
      r.number = message.info.number) slot := by
    intro r found
    exact ⟨booked.accounted r (List.mem_of_find?_eq_some found),
      searchResource_numbered _ _ r found⟩
  have covered : SlotCovered env message.info.number (message :: flight)
      slot := by
    intro r found
    have before := booked.covered r (List.mem_of_find?_eq_some found)
    rw [(accounted r found).2] at before
    exact before
  have handled := (accounted_survives ours clean message).receiveSlot accounted
  apply booked.replace
  · exact fun s kept => (handled s kept).2
  · exact fun s kept => (handled s kept).1
  · exact receiveSlot_covered clean accounted undisturbed covered
  · intro other different
    rw [syncsOn_cons_other _ _ fun _ _ same => different same.symm,
      syncsOn_append]
    exact (List.sublist_append_left _ _).subperm

end Tables

section Handlers

variable {env : Env} {r : Resource}

theorem Accounted.processed (accounted : Accounted env r)
    (clean : CleanMemory env) {info : Info} (about : info.number = r.number) :
    ∀ s ∈ (processPlock env info (some r)).1,
      Accounted env s ∧ s.marks = r.marks := by
  unfold processPlock
  dsimp only [Option.getD_some]
  split
  · intro s same
    cases same
    exact ⟨accounted, rfl⟩
  · rename_i owned
    have unmarked : r.marks = [] := by
      by_contra marked
      exact owned (accounted.unowned marked)
    split
    · intro s kept
      rw [receivePlock2_slot kept]
      refine ⟨accounted.executed clean about, ?_⟩
      rw [clean.executed info unmarked, unmarked]
    · intro s saved
      cases saved
      exact ⟨accounted.saved about, rfl⟩

/-- `do_waiters` on a resource without marks or without waiters. -/
theorem doWaiters_marks
    (quiet : r.marks = [] ∨ r.waiters = []) :
    (doWaiters env r).1.marks.Sublist r.marks := by
  rcases quiet with unmarked | empty
  · obtain ⟨locks, waiters⟩ := marks_eq_nil_iff.mp unmarked
    have still : (doWaiters env r).1.marks = [] := by
      apply marks_eq_nil_iff.mpr
      constructor
      · exact doWaitersLoop_forall (P := fun po => po.syncing = false)
          (fun _ _ _ _ unmarked => unmarked) env locks
          (fun _ _ _ _ _ => rfl)
      · intro w member
        exact waiters w ((doWaitersLoop_sublist _ _ _).mem member)
    rw [still]
    exact List.nil_sublist _
  · have idle : (doWaiters env r).1 = r := by
      rw [doWaiters, empty, doWaitersLoop, ← empty]
    rw [idle]

theorem purgeEntries_marks (nodeid : Int32) (unmount : Bool) (r : Resource) :
    (purgeEntries nodeid unmount r).marks.Sublist r.marks := by
  apply List.Sublist.append
  · exact (List.filter_sublist.filter _).map _
  · exact (List.filter_sublist.filter _).map _

/-- Entries may go away. -/
theorem Accounted.fewer (accounted : Accounted env r)
    {locks : List PosixLock} {waiters : List LockWaiter}
    (marks : ({ r with locks := locks, waiters := waiters } :
      Resource).marks.Sublist r.marks)
    (kept : waiters ⊆ r.waiters) :
    Accounted env { r with locks := locks, waiters := waiters } := by
  refine ⟨?_, ?_, accounted.pending⟩
  · intro marked
    apply accounted.unowned
    intro unmarked
    rw [unmarked] at marks
    exact marked (List.sublist_nil.mp marks)
  · intro owned w member
    exact accounted.waiters owned w (kept member)

theorem purgeOwner_cases (nodeid : Int32) (r : Resource) :
    (purgeOwner nodeid r).1 = r ∨
      (purgeOwner nodeid r).1 = { r with owner := 0, pending := [] } := by
  unfold purgeOwner
  split
  · exact .inr rfl
  · exact .inl rfl

theorem Accounted.purged (accounted : Accounted env r)
    (ours : env.ourNodeid ≠ 0) (nodeid : Int32)
    (quiet : r.marks = [] ∨ r.waiters = []) :
    ∀ s ∈ (purgeResource env nodeid false r).1,
      Accounted env s ∧ s.marks.Sublist r.marks := by
  have marks := purgeEntries_marks nodeid false r
  have entries : Accounted env (purgeEntries nodeid false r) :=
    accounted.fewer marks List.filter_sublist.subset
  have empty (none_ : r.waiters = []) :
      (purgeEntries nodeid false r).waiters = [] := by
    rw [purgeEntries, none_, List.filter_nil]
  intro s kept
  rw [purgeResource_eq] at kept
  rw [putResource_eq_some kept]
  generalize purgeEntries nodeid false r = purged at marks entries empty ⊢
  have owned : Accounted env (purgeOwner nodeid purged).1 ∧
      (purgeOwner nodeid purged).1.marks = purged.marks ∧
      (purgeOwner nodeid purged).1.waiters = purged.waiters := by
    rcases purgeOwner_cases nodeid purged with same | same
    · rw [same]
      exact ⟨entries, rfl, rfl⟩
    · rw [same]
      refine ⟨.of_unowned ours rfl ?_, rfl, rfl⟩
      intro info absent
      cases absent
  obtain ⟨owned, sameMarks, sameWaiters⟩ := owned
  have still : (purgeOwner nodeid purged).1.marks = [] ∨
      (purgeOwner nodeid purged).1.waiters = [] := by
    rw [sameMarks, sameWaiters]
    rcases quiet with unmarked | none_
    · rw [unmarked] at marks
      exact .inl (List.sublist_nil.mp marks)
    · exact .inr (empty none_)
  have granted : (doWaiters env (purgeOwner nodeid purged).1).1.marks.Sublist
      (purgeOwner nodeid purged).1.marks :=
    doWaiters_marks still
  refine ⟨owned.fewer granted (doWaitersLoop_sublist _ _ _).subset, ?_⟩
  rw [sameMarks] at granted
  exact granted.trans marks

theorem dropResource_marks (r : Resource) :
    (dropResource env r).1.marks = r.marks := by
  unfold dropResource
  split
  · rfl
  · split
    · rfl
    · rfl

theorem Accounted.dropped (accounted : Accounted env r)
    (ours : env.ourNodeid ≠ 0) : Accounted env (dropResource env r).1 := by
  unfold dropResource
  split
  · exact .of_unowned ours rfl accounted.pending
  · split
    · exact accounted
    · exact accounted

theorem Accounted.unpacked (clean : CleanMemory env) {section_ : Section}
    (foreign : (scanSectionId section_.id).2 = env.ourNodeid ∨
      (scanSectionId section_.id).2 = -1 →
        section_.data.filter (·.waiter != 0) = []) :
    Accounted env (unpackSectionBuf env section_) := by
  refine ⟨?_, ?_, ?_⟩
  · intro marked
    exact (marked (clean.unpacked section_)).elim
  · intro owned w member
    obtain ⟨pp, listed, _⟩ := List.mem_map.mp member
    rw [foreign owned] at listed
    cases listed
  · intro info absent
    cases absent

end Handlers

/-- The operations of the saved messages find their resources without
marks. -/
def ReplaySpared (env : Env) : List Message → Lockspace → Prop
  | [], _ => True
  | message :: later, ls =>
      FoundUnmarked ls.plockResources message ∧
        ReplaySpared env later (receiveNow env ls message).1

/-- The condition on the steps of a run.  While an entry of a resource is
marked, no lock or unlock operation is carried out on the resource and no node
is purged if it has waiters.  A section that is read and names this node or no
known node as the owner has no waiters. -/
def MarksSpared (env : Env) (state : NodeState) : NodeEvent → Prop
  | .deliverOwn =>
      state.ls.savePlocks = false → ∀ message ∈ state.sent.head?,
        FoundUnmarked state.ls.plockResources message
  | .deliverOther message =>
      state.ls.savePlocks = false →
        FoundUnmarked state.ls.plockResources message
  | .purge _ =>
      ∀ r ∈ state.ls.plockResources, r.marks = [] ∨ r.waiters = []
  | .stored sections =>
      (∀ section_ ∈ sections,
        (scanSectionId section_.id).2 = env.ourNodeid ∨
          (scanSectionId section_.id).2 = -1 →
            section_.data.filter (·.waiter != 0) = []) ∧
        ReplaySpared env state.ls.savedMessages
          { retrievePlocks env sections state.ls with savedMessages := [] }
  | _ => True

section Steps

variable {env : Env} {state : NodeState}

/-- The books of a node: saved messages have not come back either. -/
def Balanced (env : Env) (state : NodeState) : Prop :=
  Booked env state.ls.plockResources (state.ls.savedMessages ++ state.sent)

theorem syncsOn_perm {front back : List Message} (perm : front.Perm back)
    (number : UInt64) :
    (syncsOn env number front).Subperm (syncsOn env number back) :=
  ((perm.filter _).map _).subperm

theorem syncsOn_sublist {front back : List Message}
    (sublist : front.Sublist back) (number : UInt64) :
    (syncsOn env number front).Subperm (syncsOn env number back) :=
  ((sublist.filter _).map _).subperm

theorem Booked.replay (ours : env.ourNodeid ≠ 0) (clean : CleanMemory env)
    {saved flight : List Message} {ls : Lockspace}
    (booked : Booked env ls.plockResources (saved ++ flight))
    (undisturbed : ReplaySpared env saved ls) :
    Booked env (processSavedLoop env saved ls).1.plockResources
      (flight ++ sentBy env (processSavedLoop env saved ls).2) := by
  induction saved generalizing ls flight with
  | nil =>
      rw [processSavedLoop]
      exact booked.grow (syncsOn_sublist (List.sublist_append_left _ _))
  | cons message later induction =>
      obtain ⟨first, rest⟩ := undisturbed
      rw [List.cons_append] at booked
      have next := booked.receiveNow ours clean first
      rw [List.append_assoc] at next
      have replayed := induction next rest
      rw [List.append_assoc, ← sentBy_append] at replayed
      exact replayed

theorem Balanced.start (env : Env) : Balanced env NodeState.start :=
  .nil env _

/-- Messages that are sent do not uncover a mark. -/
theorem Booked.sent {resources : List Resource} {saved sent : List Message}
    (booked : Booked env resources (saved ++ sent)) (new : List Message) :
    Booked env resources (saved ++ (sent ++ new)) := by
  rw [← List.append_assoc]
  exact booked.grow (syncsOn_sublist (List.sublist_append_left _ _))

theorem Balanced.read (booked : Balanced env state)
    (clean : CleanMemory env) (info : Info) :
    Balanced env (nodeNext env state (.read info)) := by
  apply Booked.sent
  let found := searchResource state.ls.plockResources info.number
  let r := found.getD (newResource env info.number)
  have here : Accounted env r ∧ r.number = info.number ∧
      r.marks.Subperm (syncsOn env info.number
        (state.ls.savedMessages ++ state.sent)) := by
    cases searched : found with
    | none =>
        simp only [r, searched]
        exact ⟨.new env _, rfl, List.nil_subperm⟩
    | some old =>
        simp only [r, searched]
        have member := List.mem_of_find?_eq_some searched
        have number : old.number = info.number :=
          searchResource_numbered _ _ old searched
        have covered := booked.covered old member
        rw [number] at covered
        exact ⟨booked.accounted old member, number, covered⟩
  obtain ⟨accounted, number, covered⟩ := here
  have processed : ∀ s ∈ (processPlock env
      { info with tag := state.accepted, nodeid := env.ourNodeid }
      (some r)).1, Accounted env s ∧ s.marks = r.marks :=
    accounted.processed clean number.symm
  apply Booked.replace booked
  · exact processPlock_numbered (searchResource_numbered _ _)
  · exact fun s kept => (processed s kept).1
  · intro s kept
    rw [(processed s kept).2]
    exact covered
  · exact fun _ _ => List.Subperm.refl _

theorem Balanced.deliverOwn (booked : Balanced env state)
    (ours : env.ourNodeid ≠ 0) (clean : CleanMemory env)
    (spared : MarksSpared env state .deliverOwn) :
    Balanced env (nodeNext env state .deliverOwn) := by
  cases pending : state.sent with
  | nil =>
      simp only [nodeNext, pending]
      exact booked
  | cons message later =>
      rw [Balanced, pending] at booked
      simp only [nodeNext, pending, receive]
      split
      · refine Booked.grow booked (syncsOn_perm ?_)
        simp [NodeState.commit, saveMessage, sentBy]
      · rename_i processing
        have moved : (state.ls.savedMessages ++ message :: later).Perm
            (message :: (state.ls.savedMessages ++ later)) :=
          List.perm_middle
        have undisturbed := spared (by simpa using processing) message
          (by rw [pending]; rfl)
        have next := (booked.grow (syncsOn_perm moved)).receiveNow ours clean
          undisturbed
        rw [List.append_assoc] at next
        exact next

theorem Balanced.deliverOther (booked : Balanced env state)
    (ours : env.ourNodeid ≠ 0) (clean : CleanMemory env) {message : Message}
    (spared : MarksSpared env state (.deliverOther message)) :
    Balanced env (nodeNext env state (.deliverOther message)) := by
  simp only [nodeNext, receive]
  split
  · refine Booked.grow booked (syncsOn_sublist ?_)
    simp only [NodeState.commit, saveMessage, sentBy, List.filterMap_nil,
      List.append_nil]
    exact (List.sublist_append_left _ _).append_right _
  · rename_i processing
    have known : Booked env state.ls.plockResources
        (message :: (state.ls.savedMessages ++ state.sent)) :=
      Booked.grow booked (syncsOn_sublist (List.sublist_cons_self _ _))
    have next := known.receiveNow ours clean
      (spared (by simpa using processing))
    rw [List.append_assoc] at next
    exact next

theorem Balanced.purge (booked : Balanced env state)
    (ours : env.ourNodeid ≠ 0) {nodeid : Int32}
    (spared : MarksSpared env state (.purge nodeid)) :
    Balanced env (nodeNext env state (.purge nodeid)) := by
  apply Booked.sent
  change Booked env ((state.ls.plockResources.map
    (purgeResource env nodeid false)).filterMap (·.1)) _
  rw [List.filterMap_map]
  apply Booked.filterMap booked
  intro r member s kept
  obtain ⟨accounted, marks⟩ := (booked.accounted r member).purged ours nodeid
    (spared r member) s kept
  exact ⟨purgeResource_number kept, accounted, marks⟩

theorem Balanced.drop (booked : Balanced env state)
    (ours : env.ourNodeid ≠ 0) (aged : UInt64 → Bool) :
    Balanced env (nodeNext env state (.drop aged)) := by
  apply Booked.sent
  apply Booked.same booked
  · apply dropResources_map
    intro r
    rw [dropResource_number, dropResource_marks]
  · exact Everywhere.dropResources booked.accounted
      (fun _ accounted => accounted.dropped ours) aged

theorem Balanced.prepare (booked : Balanced env state)
    (how : PrepareCase) : Balanced env (nodeNext env state (.prepare how)) := by
  cases how with
  | alone => exact booked
  | noState => exact booked
  | needed =>
      simp only [nodeNext, preparePlocks]
      split
      · exact booked
      · exact booked
  | ready => exact booked

theorem Balanced.stored (booked : Balanced env state)
    (ours : env.ourNodeid ≠ 0) (clean : CleanMemory env)
    {sections : List Section}
    (spared : MarksSpared env state (.stored sections)) :
    Balanced env (nodeNext env state (.stored sections)) := by
  obtain ⟨foreign, undisturbed⟩ := spared
  have restored : Booked env
      (retrievePlocks env sections state.ls).plockResources
      (state.ls.savedMessages ++ state.sent) := by
    apply Booked.append booked
    intro s member
    obtain ⟨section_, listed, rfl⟩ := List.mem_map.mp member
    exact ⟨.unpacked clean (foreign section_ listed), clean.unpacked section_⟩
  have replayed := @Booked.replay env ours clean state.ls.savedMessages
    state.sent
    { retrievePlocks env sections state.ls with savedMessages := [] }
    restored undisturbed
  exact replayed.grow (syncsOn_sublist (List.sublist_append_right _ _))

theorem Balanced.next (booked : Balanced env state)
    (ours : env.ourNodeid ≠ 0) (clean : CleanMemory env) {event : NodeEvent}
    (spared : MarksSpared env state event) :
    Balanced env (nodeNext env state event) := by
  cases event with
  | read info => exact booked.read clean info
  | deliverOwn => exact booked.deliverOwn ours clean spared
  | deliverOther message => exact booked.deliverOther ours clean spared
  | purge nodeid => exact booked.purge ours spared
  | drop aged => exact booked.drop ours aged
  | prepare how => exact booked.prepare how
  | stored sections => exact booked.stored ours clean spared

end Steps

/-- The section buffer of a resource without marks has a record for every
entry. -/
theorem packSectionBuf_of_unmarked {env : Env} {r : Resource}
    (other : r.owner ≠ env.ourNodeid) (unmarked : r.marks = []) :
    packSectionBuf env r =
      r.locks.map packLock ++ r.waiters.map packWaiter := by
  obtain ⟨locks, waiters⟩ := marks_eq_nil_iff.mp unmarked
  rw [packSectionBuf, if_neg other, List.filter_eq_self.mpr,
    List.filter_eq_self.mpr]
  · intro w member
    rw [waiters w member]
    rfl
  · intro po member
    rw [locks po member]
    rfl

/-- If the memory for new entries does not carry the mark, and marked entries
are spared by the steps of the run, the checkpoint section of an unowned
resource whose `PLOCK_SYNC` messages have all come back has a record for every
lock and every waiter. -/
theorem packed_completely (env : Env) (ours : env.ourNodeid ≠ 0)
    (clean : CleanMemory env) (state : NodeState)
    (run : (nodeSystem env).Run (MarksSpared env) NodeState.start state)
    (r : Resource) (member : r ∈ state.ls.plockResources)
    (unowned : r.owner = 0)
    (returned : ∀ message ∈ state.ls.savedMessages ++ state.sent,
      message.nodeid = env.ourNodeid → message.isSync = true →
        message.info.number ≠ r.number) :
    packSectionBuf env r =
      r.locks.map packLock ++ r.waiters.map packWaiter := by
  have booked : Balanced env state := by
    apply run.invariant (Balanced env) (.start env)
    intro state event _ spared booked
    exact booked.next ours clean spared
  have settled : syncsOn env r.number
      (state.ls.savedMessages ++ state.sent) = [] := by
    rw [syncsOn, List.map_eq_nil_iff, List.filter_eq_nil_iff]
    intro message listed
    simpa [and_imp] using returned message listed
  have covered := booked.covered r member
  rw [settled] at covered
  apply packSectionBuf_of_unmarked
  · rw [unowned]
    exact ours.symm
  · exact List.subperm_nil.mp covered

instance (resources : List Resource) (message : Message) :
    Decidable (FoundUnmarked resources message) :=
  inferInstanceAs (Decidable (_ → _ ∨ _ → ∀ r ∈ _, _))

instance decidableReplaySpared (env : Env) :
    ∀ (messages : List Message) (ls : Lockspace),
      Decidable (ReplaySpared env messages ls)
  | [], _ => isTrue trivial
  | message :: later, ls =>
      @instDecidableAnd _ _ inferInstance
        (decidableReplaySpared env later (receiveNow env ls message).1)

instance (env : Env) (state : NodeState) (event : NodeEvent) :
    Decidable (MarksSpared env state event) := by
  rcases event <;> unfold MarksSpared <;> infer_instance

/-- A resource is claimed by the node and given up for another node. -/
def claimAndRelinquish : List NodeEvent :=
  [.read (requestOf .lock 1 3 0 9), .deliverOwn,
    .deliverOther ⟨.own, 2, ownInfo 7 2⟩, .deliverOwn, .deliverOwn]

/-- A second request waits for the lock. -/
def relinquishAndWait : List NodeEvent :=
  claimAndRelinquish ++ [.read (requestOf .lock 1 4 0 9), .deliverOwn]

theorem relinquishAndWait_packed :
    ∃ state, (nodeSystem (memberEnv 1)).Run (MarksSpared (memberEnv 1))
        NodeState.start state ∧
      ∃ r ∈ state.ls.plockResources, r.owner = 0 ∧
        (r.locks.length = 1 ∧ r.waiters.length = 1) ∧
        packSectionBuf (memberEnv 1) r =
          r.locks.map packLock ++ r.waiters.map packWaiter := by
  let state := (nodeSystem (memberEnv 1)).follow NodeState.start
    relinquishAndWait
  have run : (nodeSystem (memberEnv 1)).Run (MarksSpared (memberEnv 1))
      NodeState.start state :=
    System.run_of_follows relinquishAndWait .refl (by decide)
  have settled : state.ls.savedMessages ++ state.sent = [] := by decide
  have present : state.ls.plockResources ≠ [] := by decide
  have shape : (state.ls.plockResources.all fun r => r.owner == 0 &&
      (r.locks.length == 1 && r.waiters.length == 1)) = true := by
    decide
  obtain ⟨r, member⟩ := List.exists_mem_of_ne_nil _ present
  have entries := List.all_eq_true.mp shape r member
  simp only [Bool.and_eq_true, beq_iff_eq] at entries
  refine ⟨state, run, r, member, entries.1, entries.2, ?_⟩
  apply packed_completely (memberEnv 1) (by decide)
    ⟨fun _ => rfl, fun _ => rfl⟩ state run r member entries.1
  rw [settled]
  intro message absent
  cases absent

/-- A node whose `malloc` returns memory with the bit `P_SYNCING` set. -/
def dirtyEnv : Env :=
  { memberEnv 1 with waiterJunk := fun _ => true }

/-- The waiter that `add_waiter` has allocated is left out. -/
theorem relinquishAndWait_left_out :
    ¬∀ (env : Env), env.ourNodeid ≠ 0 →
      ∀ state, (nodeSystem env).Run (fun _ _ => True) NodeState.start state →
        ∀ r ∈ state.ls.plockResources, r.owner = 0 →
          (∀ message ∈ state.ls.savedMessages ++ state.sent,
            message.nodeid = env.ourNodeid → message.isSync = true →
              message.info.number ≠ r.number) →
          packSectionBuf env r =
            r.locks.map packLock ++ r.waiters.map packWaiter := by
  intro claimed
  let state := (nodeSystem dirtyEnv).follow NodeState.start relinquishAndWait
  have run : (nodeSystem dirtyEnv).Run (fun _ _ => True) NodeState.start
      state :=
    System.run_of_follows relinquishAndWait .refl (by decide)
  have settled : state.ls.savedMessages ++ state.sent = [] := by decide
  have present : state.ls.plockResources ≠ [] := by decide
  have shape : (state.ls.plockResources.all fun r => r.owner == 0 &&
      (r.locks.length == 1 && r.waiters.length == 1 &&
        (packSectionBuf dirtyEnv r).length == 1)) = true := by
    decide
  obtain ⟨r, member⟩ := List.exists_mem_of_ne_nil _ present
  have entries := List.all_eq_true.mp shape r member
  simp only [Bool.and_eq_true, beq_iff_eq] at entries
  obtain ⟨unowned, ⟨locks, waiters⟩, short⟩ := entries
  have packed : packSectionBuf dirtyEnv r =
      r.locks.map packLock ++ r.waiters.map packWaiter := by
    apply claimed dirtyEnv (by decide) state run r member unowned
    rw [settled]
    intro message absent
    cases absent
  rw [packed, List.length_append, List.length_map, List.length_map, locks,
    waiters] at short
  cases short

end Dlm.Plock
