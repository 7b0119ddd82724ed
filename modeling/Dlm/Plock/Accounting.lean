import Dlm.Plock.Node

/-!
# Where an accepted operation is

Every handler moves an operation of the node from one place to another: from a
message to the pending list, the waiters or an answer, and back into a message.
Counting the occurrences before and after each handler shows that an accepted
operation is always in exactly one place.
-/

namespace Dlm.Plock

variable {slot : Option Resource} {message : Message}

section Counting

variable (env : Env) (tag : Nat)

/-- The info is that of our operation with the tag. -/
def isOp (info : Info) : Bool :=
  info.nodeid == env.ourNodeid && info.tag == tag

/-- The message is our `PLOCK` message of the operation. -/
def carries (message : Message) : Bool :=
  message.type == .plock && message.nodeid == env.ourNodeid &&
    isOp env tag message.info

def pendingCount (r : Resource) : Nat :=
  r.pending.countP (isOp env tag)

def waitingCount (r : Resource) : Nat :=
  r.waiters.countP fun w => isOp env tag w.info

def slotCount (slot : Option Resource) : Nat :=
  (slot.map fun r => pendingCount env tag r + waitingCount env tag r).getD 0

/-- The effect answers the operation or sends its message. -/
def concerns : Effect → Bool
  | .writeResult info _ => isOp env tag info
  | .send type info => type == .plock && isOp env tag info
  | .plockTime => false

def effectCount (effects : List Effect) : Nat :=
  effects.countP (concerns env tag)

/-- The handler makes an operation that comes in `input` times out of nothing
else than what it found. -/
def Conserves (input : Nat) (before : Option Resource)
    (result : Option Resource × List Effect) : Prop :=
  input + slotCount env tag before =
    slotCount env tag result.1 + effectCount env tag result.2

end Counting

theorem countP_cons_toNat {α : Type} (test : α → Bool) (entry : α)
    (later : List α) :
    (entry :: later).countP test = (test entry).toNat + later.countP test := by
  rw [List.countP_cons]
  cases test entry with
  | false => simp
  | true => simp [Nat.add_comm]

section Handlers

variable (env : Env) (tag : Nat)

@[simp] theorem slotCount_none : slotCount env tag none = 0 := rfl

@[simp] theorem slotCount_some (r : Resource) :
    slotCount env tag (some r) =
      pendingCount env tag r + waitingCount env tag r := rfl

@[simp] theorem effectCount_nil : effectCount env tag [] = 0 := rfl

@[simp] theorem effectCount_append (first second : List Effect) :
    effectCount env tag (first ++ second) =
      effectCount env tag first + effectCount env tag second :=
  List.countP_append

@[simp] theorem effectCount_plockTime (effects : List Effect) :
    effectCount env tag (.plockTime :: effects) =
      effectCount env tag effects := by
  simp [effectCount, concerns]

@[simp] theorem effectCount_writeResult (info : Info) (rv : Int) :
    effectCount env tag [.writeResult info rv] =
      (isOp env tag info).toNat := by
  cases ours : isOp env tag info <;> simp [effectCount, concerns, ours]

@[simp] theorem effectCount_writeResultIfOurs (info : Info) (rv : Int) :
    effectCount env tag (writeResultIfOurs env info rv) =
      (isOp env tag info).toNat := by
  unfold writeResultIfOurs
  split
  · simp
  · rename_i other
    have foreign : isOp env tag info = false := by
      simp [isOp, other]
    simp [foreign]

/-- `do_waiters` answers the operations that it takes from the list. -/
theorem doWaitersLoop_count (locks : List PosixLock)
    (waiters : List LockWaiter) :
    waiters.countP (fun w => isOp env tag w.info) =
      (doWaitersLoop env locks waiters).2.1.countP
          (fun w => isOp env tag w.info) +
        effectCount env tag (doWaitersLoop env locks waiters).2.2 := by
  induction waiters generalizing locks with
  | nil => simp [doWaitersLoop]
  | cons w later induction =>
      by_cases conflict : (isConflict locks w.info false).1 = true
      · have rest := induction locks
        rw [doWaitersLoop_skip env later conflict]
        simp only [List.countP_cons]
        omega
      · have rest := induction (lockInternal [] locks w.info).2
        rw [doWaitersLoop_grant env later conflict]
        simp only [effectCount_append, effectCount_writeResultIfOurs,
          countP_cons_toNat]
        omega

theorem doWaiters_count (r : Resource) :
    waitingCount env tag r = waitingCount env tag (doWaiters env r).1 +
      effectCount env tag (doWaiters env r).2 :=
  doWaitersLoop_count env tag r.locks r.waiters

theorem lockRequest_count (info : Info) (r : Resource) :
    (isOp env tag info).toNat + waitingCount env tag r =
      waitingCount env tag (lockRequest env info r).1 +
        effectCount env tag (lockRequest env info r).2 := by
  unfold lockRequest
  split
  · split
    · cases ours : isOp env tag info <;>
        simp [waitingCount, addWaiter, ours]
      omega
    · simp only [effectCount_writeResultIfOurs]
      omega
  · simp only [effectCount_writeResultIfOurs, waitingCount]
    omega

/-- A resource that `put_resource` may free without losing an operation: with
ownership it frees none, and without ownership nothing is ever pending. -/
def Accountable (r : Resource) : Prop :=
  env.plockOwnership = true ∨ (r.owner = 0 ∧ r.pending = [])

variable {env} {r : Resource}

theorem putResource_count (accountable : Accountable env r) :
    slotCount env tag (putResource env r) =
      pendingCount env tag r + waitingCount env tag r := by
  unfold putResource
  rcases accountable with ownership | ⟨_, empty⟩
  · simp [ownership]
  · split
    · rfl
    · split
      · rename_i unused
        simp only [Bool.and_eq_true, List.isEmpty_iff] at unused
        simp [pendingCount, waitingCount, empty, unused.2]
      · rfl

theorem doLock_conserves (info : Info) (accountable : Accountable env r) :
    Conserves env tag (isOp env tag info).toNat (some r)
      (doLock env info r) := by
  have request := lockRequest_count env tag info r
  have granted := doWaiters_count env tag (lockRequest env info r).1
  have kept : Accountable env (doWaiters env (lockRequest env info r).1).1 := by
    simpa [Accountable] using accountable
  have pending : pendingCount env tag
      (doWaiters env (lockRequest env info r).1).1 = pendingCount env tag r := by
    simp [pendingCount]
  simp only [Conserves, doLock, slotCount_some, effectCount_append,
    putResource_count tag kept]
  omega

theorem doUnlock_conserves (info : Info) (accountable : Accountable env r) :
    Conserves env tag (isOp env tag info).toNat (some r)
      (doUnlock env info r) := by
  have granted := doWaiters_count env tag
    { r with locks := (unlockInternal [] r.locks info).2 }
  have kept : Accountable env (doWaiters env
      { r with locks := (unlockInternal [] r.locks info).2 }).1 := by
    simpa [Accountable] using accountable
  have pending : pendingCount env tag (doWaiters env
      { r with locks := (unlockInternal [] r.locks info).2 }).1 =
        pendingCount env tag r := by
    simp [pendingCount]
  have waiting : waitingCount env tag
      { r with locks := (unlockInternal [] r.locks info).2 } =
        waitingCount env tag r := rfl
  simp only [Conserves, doUnlock, slotCount_some, effectCount_append,
    effectCount_writeResultIfOurs, putResource_count tag kept]
  omega

theorem doGet_count (info : Info) :
    effectCount env tag (doGet info r) = (isOp env tag info).toNat := by
  unfold doGet isConflict
  cases r.locks.find? (conflicts · info) with
  | none => simp
  | some po => simp [isOp]

/-- An operation handed to `__receive_plock` is answered or waits. -/
theorem receivePlock2_conserves (info : Info) (sender : Int32)
    (accountable : Accountable env r)
    (honest : info.nodeid = env.ourNodeid → sender = env.ourNodeid) :
    Conserves env tag (isOp env tag info).toNat (some r)
      (receivePlock2 env info sender r) := by
  unfold receivePlock2
  cases info.optype with
  | lock =>
      have locked := doLock_conserves tag info accountable
      simpa [Conserves] using locked
  | unlock =>
      have unlocked := doUnlock_conserves tag info accountable
      simpa [Conserves] using unlocked
  | get =>
      simp only [Conserves, doGet_count]
      omega
  | unknown code =>
      by_cases ours : sender = env.ourNodeid
      · simp only [Conserves, ours, if_true, effectCount_writeResult]
        omega
      · have foreign : isOp env tag info = false := by
          simp only [isOp, Bool.and_eq_false_iff, beq_eq_false_iff_ne]
          exact .inl fun same => ours (honest same)
        simp [Conserves, ours, foreign]

/-- The handler loses and invents no operation, and leaves a resource whose
operations later handlers will not lose either. -/
structure Accounts (env : Env) (tag input : Nat) (before : Option Resource)
    (result : Option Resource × List Effect) : Prop where
  conserves : Conserves env tag input before result
  accountable : ∀ r ∈ result.1, Accountable env r

theorem Accountable.new (env : Env) (number : UInt64) :
    Accountable env (newResource env number) := by
  cases ownership : env.plockOwnership with
  | false => exact .inr ⟨by simp [newResource, ownership], rfl⟩
  | true => exact .inl ownership

/-- Only with ownership can a resource have another owner than 0. -/
theorem Accountable.ownership (accountable : Accountable env r)
    (owned : r.owner ≠ 0) : env.plockOwnership = true := by
  rcases accountable with ownership | ⟨unowned, _⟩
  · exact ownership
  · exact absurd unowned owned

theorem Accounts.unchanged (accountable : ∀ r ∈ slot, Accountable env r) :
    Accounts env tag 0 slot (slot, []) :=
  { conserves := by simp [Conserves]
    accountable := accountable }

theorem putResource_accountable (accountable : Accountable env r) :
    ∀ s ∈ putResource env r, Accountable env s := by
  intro s kept
  unfold putResource at kept
  split at kept
  · cases kept
    exact accountable
  · split at kept
    · cases kept
    · cases kept
      exact accountable

theorem receivePlock2_accounts (info : Info) (sender : Int32)
    (accountable : Accountable env r)
    (honest : info.nodeid = env.ourNodeid → sender = env.ourNodeid) :
    Accounts env tag (isOp env tag info).toNat (some r)
      (receivePlock2 env info sender r) := by
  refine ⟨receivePlock2_conserves tag info sender accountable honest, ?_⟩
  unfold receivePlock2
  cases info.optype with
  | lock =>
      have kept : Accountable env
          (doWaiters env (lockRequest env info r).1).1 := by
        simpa [Accountable] using accountable
      exact putResource_accountable kept
  | unlock =>
      have kept : Accountable env (doWaiters env
          { r with locks := (unlockInternal [] r.locks info).2 }).1 := by
        simpa [Accountable] using accountable
      exact putResource_accountable kept
  | get => simpa using accountable
  | unknown code => simpa using accountable

theorem savePendingPlock_count (info : Info) :
    slotCount env tag (some (savePendingPlock r info)) =
      (isOp env tag info).toNat + slotCount env tag (some r) := by
  cases ours : isOp env tag info <;>
    simp [savePendingPlock, pendingCount, waitingCount, ours]
  omega

@[simp] theorem sendOwn_count (owner : Int32) :
    effectCount env tag (sendOwn r owner) = 0 := by
  unfold sendOwn
  split <;>
    simp [effectCount, concerns, sendStructInfo]

theorem carries_foreign (foreign : message.nodeid ≠ env.ourNodeid) :
    carries env tag message = false := by
  simp [carries, foreign]

/-- Nothing of the operation comes in and the resource stays as it is. -/
theorem Accounts.kept (accountable : Accountable env r) :
    Accounts env tag 0 (some r) (some r, []) :=
  .unchanged tag (by simpa using accountable)

/-- With an owner other than 0, `_receive_plock` keeps our own operation for
later. -/
theorem savePending_accounts (info : Info) (accountable : Accountable env r)
    (owned : r.owner ≠ 0) :
    Accounts env tag (isOp env tag info).toNat (some r)
      (some (savePendingPlock r info), []) :=
  { conserves := by
      simp only [Conserves, savePendingPlock_count, effectCount_nil]
      omega
    accountable := fun _ _ => .inl (accountable.ownership owned) }

theorem receivePlockFound_accounts {info : Info} {sender : Int32}
    (accountable : Accountable env r) (honest : sender = info.nodeid) :
    Accounts env tag (isOp env tag info).toNat (some r)
      (receivePlockFound env info sender r) := by
  have received := receivePlock2_accounts tag info sender accountable
    fun ours => honest.trans ours
  have ignored : sender ≠ env.ourNodeid →
      Accounts env tag (isOp env tag info).toNat (some r) (some r, []) := by
    intro other
    have foreign : isOp env tag info = false := by
      simp [isOp, ← honest, other]
    rw [foreign]
    exact .kept tag accountable
  have exit := receivePlockFound_exit env info sender r
  generalize receivePlockFound env info sender r = result at exit ⊢
  cases exit with
  | executed => exact received
  | saved owned => exact savePending_accounts tag info accountable owned
  | ignored _ other => exact ignored other

theorem slotCount_new (number : UInt64) :
    slotCount env tag (some (newResource env number)) = 0 := by
  simp [newResource, pendingCount, waitingCount]

/-- A handler that works on the resource that `find_resource` has found or
allocated. -/
theorem Accounts.find {number : UInt64} {create : Bool} {input : Nat}
    {result : Option Resource × List Effect}
    (accountable : ∀ r ∈ slot, Accountable env r)
    (found : findResource env number create slot = some r)
    (handled : Accountable env r → Accounts env tag input (some r) result) :
    Accounts env tag input slot result := by
  rcases findResource_eq_some found with rfl | ⟨rfl, rfl⟩
  · exact handled (accountable r rfl)
  · have allocated := handled (.new env number)
    refine ⟨?_, allocated.accountable⟩
    have conserves := allocated.conserves
    rw [Conserves, slotCount_new] at conserves
    exact conserves

theorem receivePlock1_accounts (plock : message.type = .plock)
    (accountable : ∀ r ∈ slot, Accountable env r) :
    Accounts env tag (carries env tag message).toNat slot
      (receivePlock1 env message slot) := by
  have ignored (notOurs : carries env tag message = false) :
      Accounts env tag (carries env tag message).toNat slot (slot, []) := by
    rw [notOurs]
    exact .unchanged tag accountable
  unfold receivePlock1
  dsimp only
  split
  · rename_i foreign
    exact ignored (carries_foreign tag foreign.2)
  · split
    · rename_i liar
      apply ignored
      simp only [carries, isOp, Bool.and_eq_false_iff, beq_eq_false_iff_ne]
      by_cases ours : message.nodeid = env.ourNodeid
      · exact .inr (.inl fun same => liar (ours.trans same.symm))
      · exact .inl (.inr ours)
    · rename_i honest
      have sender : message.nodeid = message.info.nodeid := by
        simpa using honest
      have input : carries env tag message = isOp env tag message.info := by
        simp [carries, plock, isOp, sender]
      split
      · rename_i absent
        obtain ⟨missing, noCreate⟩ := findResource_eq_none absent
        have ownership : env.plockOwnership = true := by simpa using noCreate
        subst missing
        split
        · rename_i foreign
          exact ignored (carries_foreign tag foreign)
        · rw [input]
          refine ⟨?_, fun _ _ => .inl ownership⟩
          simp only [Conserves, savePendingPlock_count, sendOwn_count,
            slotCount_new, slotCount_none]
      · rename_i r found
        rw [input]
        exact .find tag accountable found fun allocated =>
          receivePlockFound_accounts tag allocated sender

theorem sendPendingPlocks_count (env : Env) (r : Resource) :
    slotCount env tag (some r) =
      slotCount env tag (some (sendPendingPlocks r).1) +
        effectCount env tag (sendPendingPlocks r).2 := by
  have sent : effectCount env tag (r.pending.map sendPlock) =
      pendingCount env tag r := by
    rw [effectCount, List.countP_map, pendingCount]
    congr 1
  simp only [sendPendingPlocks, slotCount_some, sent]
  simp only [pendingCount, waitingCount, List.countP_nil]
  omega

/-- Sending the pending operations of a resource without owner. -/
theorem sendPending_accounts (accountable : Accountable env r)
    (unowned : r.owner = 0) :
    Accounts env tag 0 (some r)
      (some (sendPendingPlocks r).1, (sendPendingPlocks r).2) :=
  { conserves := by
      have sent := sendPendingPlocks_count tag env r
      simp only [Conserves]
      omega
    accountable := by
      intro s same
      cases same
      rcases accountable with ownership | _
      · exact .inl ownership
      · exact .inr ⟨unowned, rfl⟩ }

theorem addPendingLoop_accounts (ownership : env.plockOwnership = true)
    (pending : List Info) (r : Resource) :
    Accounts env tag (pending.countP (isOp env tag)) (some r)
      (addPendingLoop env pending r) := by
  refine ⟨?_, fun _ _ => .inl ownership⟩
  induction pending generalizing r with
  | nil => simp [addPendingLoop, Conserves]
  | cons info later induction =>
      have first := receivePlock2_conserves tag info env.ourNodeid
        (r := r) (.inl ownership) fun _ => rfl
      have rest := induction (afterPlock env info r)
      have kept := receivePlock2_owned ownership info env.ourNodeid r
      rw [addPendingLoop]
      cases received : receivePlock2 env info env.ourNodeid r with
      | mk slot effects =>
          rw [received] at kept first
          cases kept
          simp only [Conserves, effectCount_append, countP_cons_toNat]
            at first rest ⊢
          omega

theorem sendSyncs_count (env : Env) (r : Resource) :
    slotCount env tag (some (sendSyncs r).1) =
        slotCount env tag (some r) ∧
      effectCount env tag (sendSyncs r).2 = 0 := by
  constructor
  · simp [sendSyncs, pendingCount, waitingCount, List.countP_map,
      Function.comp_def]
  · simp [sendSyncs, effectCount, List.countP_map, Function.comp_def,
      concerns, sendStructInfo]

theorem receiveOwnFromUs_accounts (info : Info)
    (accountable : Accountable env r) :
    Accounts env tag 0 (some r) (receiveOwnFromUs env info r) := by
  have kept := Accounts.kept tag accountable
  unfold receiveOwnFromUs
  split
  · split
    · exact kept
    · split
      · exact ⟨kept.conserves, fun s same => by cases same; exact accountable⟩
      · exact kept
  · split
    · split
      · rename_i new
        have ownership := accountable.ownership (by rw [new]; decide)
        have added := addPendingLoop_accounts tag ownership r.pending
          { r with owner := env.ourNodeid, pending := [] }
        refine ⟨?_, fun _ _ => .inl ownership⟩
        have conserves := added.conserves
        simp only [Conserves, slotCount_some, pendingCount, waitingCount,
          addPendingPlocks, List.countP_nil] at conserves ⊢
        omega
      · split
        · exact kept
        · split
          · rename_i unowned
            exact sendPending_accounts tag accountable unowned
          · exact kept
    · exact kept

theorem receiveOwnFromOther_accounts (info : Info) (sender : Int32)
    (accountable : Accountable env r) :
    Accounts env tag 0 (some r) (receiveOwnFromOther env info sender r) := by
  have kept := Accounts.kept tag accountable
  unfold receiveOwnFromOther
  split
  · split
    · exact kept
    · split
      · exact kept
      · split
        · exact kept
        · rename_i owned
          have ownership := accountable.ownership owned
          have unowned :
              Accountable env { r with owner := 0, gotUnown := true } :=
            .inl ownership
          have sent := sendPending_accounts tag unowned rfl
          exact ⟨sent.conserves, sent.accountable⟩
  · split
    · split
      · rename_i new
        have ownership := accountable.ownership (by rw [new]; decide)
        exact ⟨kept.conserves, fun _ _ => .inl ownership⟩
      · split
        · rename_i notNew ours
          have synced := sendSyncs_count tag env r
          refine ⟨?_, ?_⟩
          · simp only [Conserves, effectCount_append, sendOwn_count]
            change 0 + slotCount env tag (some r) =
              slotCount env tag (some (sendSyncs r).1) + _
            omega
          · intro s same
            cases same
            rcases accountable with ownership | ⟨_, pending⟩
            · exact .inl ownership
            · exact .inr ⟨rfl, pending⟩
        · exact kept
    · exact kept

theorem receiveOwn1_accounts (accountable : ∀ r ∈ slot, Accountable env r) :
    Accounts env tag 0 slot (receiveOwn1 env message slot) := by
  unfold receiveOwn1
  split
  · rename_i absent
    exact absurd (findResource_eq_none absent).2 (by decide)
  · rename_i r found
    refine .find tag accountable found fun allocated => ?_
    split
    · exact receiveOwnFromUs_accounts tag message.info allocated
    · exact receiveOwnFromOther_accounts tag message.info message.nodeid
        allocated

theorem countP_modifyFirst {α : Type} (test matched : α → Bool)
    (change : α → α) (same : ∀ entry, test (change entry) = test entry)
    (entries : List α) :
    (modifyFirst matched change entries).countP test =
      entries.countP test := by
  induction entries with
  | nil => rfl
  | cons entry later induction =>
      rw [modifyFirst]
      split
      · simp [List.countP_cons, same]
      · simp [List.countP_cons, induction]

theorem clearSyncingFlag_accounts (info : Info)
    (accountable : Accountable env r) :
    Accounts env tag 0 (some r) (some (clearSyncingFlag r info), []) := by
  unfold clearSyncingFlag
  split
  · refine ⟨by simp [Conserves, pendingCount, waitingCount], ?_⟩
    intro s same
    cases same
    exact accountable
  · refine ⟨?_, ?_⟩
    · have same := countP_modifyFirst
        (fun w : LockWaiter => isOp env tag w.info) (syncMatchesWaiter info)
        (fun w => { w with syncing := false }) (fun _ => rfl) r.waiters
      simp only [Conserves, slotCount_some, pendingCount, waitingCount,
        effectCount_nil]
      omega
    · intro s same
      cases same
      exact accountable

/-- A sync message of another node brings no operation of ours. -/
theorem receiveSync1_accounts (accountable : ∀ r ∈ slot, Accountable env r)
    (foreign : message.nodeid ≠ env.ourNodeid →
      message.info.nodeid ≠ env.ourNodeid) :
    Accounts env tag 0 slot (receiveSync1 env message slot) := by
  unfold receiveSync1
  cases slot with
  | none => exact .unchanged tag accountable
  | some r =>
      have here := accountable r rfl
      dsimp only
      split
      · exact clearSyncingFlag_accounts tag message.info here
      · rename_i other
        split
        · refine ⟨by simp [Conserves, pendingCount, waitingCount], ?_⟩
          intro s same
          cases same
          exact here
        · split
          · have notOurs : isOp env tag message.info = false := by
              simp [isOp, foreign other]
            refine ⟨?_, ?_⟩
            · simp [Conserves, addWaiter, pendingCount, waitingCount, notOurs]
            · intro s same
              cases same
              exact here
          · exact .kept tag here

theorem receiveDrop1_accounts (accountable : ∀ r ∈ slot, Accountable env r) :
    Accounts env tag 0 slot (receiveDrop1 slot, []) := by
  unfold receiveDrop1
  cases slot with
  | none => exact .unchanged tag accountable
  | some r =>
      have kept := Accounts.kept tag (accountable r rfl)
      dsimp only
      split
      · exact kept
      · split
        · exact kept
        · rename_i settled
          split
          · rename_i unused
            simp only [Bool.and_eq_true, List.isEmpty_iff,
              Bool.not_eq_true', Bool.not_eq_false] at unused settled
            refine ⟨?_, by simp⟩
            simp [Conserves, pendingCount, waitingCount, unused, settled]
          · exact kept

/-- A received message brings an operation of ours only if it is our `PLOCK`
message. -/
theorem receiveSlot_accounts (accountable : ∀ r ∈ slot, Accountable env r)
    (foreign : message.isSync = true → message.nodeid ≠ env.ourNodeid →
      message.info.nodeid ≠ env.ourNodeid) :
    Accounts env tag (carries env tag message).toNat slot
      (receiveSlot env message slot) := by
  have other (kind : message.type ≠ .plock) :
      (carries env tag message).toNat = 0 := by
    simp [carries, kind]
  unfold receiveSlot
  cases kind : message.type with
  | plock => exact receivePlock1_accounts tag kind accountable
  | own =>
      rw [other (by simp [kind])]
      exact receiveOwn1_accounts tag accountable
  | drop =>
      rw [other (by simp [kind])]
      exact receiveDrop1_accounts tag accountable
  | syncLock =>
      rw [other (by simp [kind])]
      exact receiveSync1_accounts tag accountable
        (foreign (by simp [Message.isSync, kind]))
  | syncWaiter =>
      rw [other (by simp [kind])]
      exact receiveSync1_accounts tag accountable
        (foreign (by simp [Message.isSync, kind]))

theorem processPlock_accounts {info : Info}
    (accountable : ∀ r ∈ slot, Accountable env r) :
    Accounts env tag (isOp env tag info).toNat slot
      (processPlock env info slot) := by
  have found : findResource env info.number true slot =
      some (slot.getD (newResource env info.number)) := by
    cases slot <;> rfl
  refine .find tag accountable found fun allocated => ?_
  unfold processPlock
  dsimp only
  split
  · refine ⟨?_, ?_⟩
    · have sent : effectCount env tag [sendPlock info] =
          (isOp env tag info).toNat := by
        cases op : isOp env tag info <;>
          simp [effectCount, concerns, sendPlock, sendStructInfo, op]
      simp only [Conserves, sent]
      omega
    · intro s same
      cases same
      exact allocated
  · rename_i owned
    split
    · exact receivePlock2_accounts tag info env.ourNodeid allocated
        fun _ => rfl
    · refine ⟨?_, fun _ _ => .inl (allocated.ownership owned)⟩
      simp only [Conserves, savePendingPlock_count, sendOwn_count]
      omega

/-- A purge of another node does not touch our operations. -/
theorem purgeEntries_count {nodeid : Int32}
    (foreign : nodeid ≠ env.ourNodeid) (r : Resource) :
    slotCount env tag (some (purgeEntries nodeid false r)) =
      slotCount env tag (some r) := by
  simp only [slotCount_some, pendingCount, waitingCount, purgeEntries,
    List.countP_filter, Nat.add_left_cancel_iff]
  congr 1
  funext w
  by_cases ours : w.info.nodeid = env.ourNodeid
  · simp [isOp, ours, foreign.symm]
  · simp [isOp, ours]

theorem purgeOwner_accounts (nodeid : Int32)
    (accountable : Accountable env r) :
    Accounts env tag 0 (some r)
      (some (purgeOwner nodeid r).1, (purgeOwner nodeid r).2) := by
  unfold purgeOwner
  split
  · have unowned : Accountable env { r with owner := 0 } := by
      rcases accountable with ownership | ⟨_, pending⟩
      · exact .inl ownership
      · exact .inr ⟨rfl, pending⟩
    have sent := sendPending_accounts tag unowned rfl
    exact ⟨sent.conserves, sent.accountable⟩
  · exact .kept tag accountable

theorem purgeResource_accounts {nodeid : Int32}
    (foreign : nodeid ≠ env.ourNodeid) (accountable : Accountable env r) :
    Accounts env tag 0 (some r) (purgeResource env nodeid false r) := by
  have purged : Accountable env (purgeEntries nodeid false r) := accountable
  have entries := purgeEntries_count tag foreign r
  have owner := purgeOwner_accounts tag nodeid purged
  have ownerCount := owner.conserves
  have granted := doWaiters_count env tag
    (purgeOwner nodeid (purgeEntries nodeid false r)).1
  have ownerKept : Accountable env
      (purgeOwner nodeid (purgeEntries nodeid false r)).1 :=
    owner.accountable _ rfl
  have kept : Accountable env (doWaiters env
      (purgeOwner nodeid (purgeEntries nodeid false r)).1).1 := ownerKept
  have pending : pendingCount env tag (doWaiters env
      (purgeOwner nodeid (purgeEntries nodeid false r)).1).1 =
        pendingCount env tag
          (purgeOwner nodeid (purgeEntries nodeid false r)).1 := rfl
  rw [purgeResource_eq]
  refine ⟨?_, putResource_accountable kept⟩
  simp only [Conserves, effectCount_append, putResource_count tag kept]
  simp only [Conserves, slotCount_some] at ownerCount entries ⊢
  omega

theorem dropResource_accounts (accountable : Accountable env r)
    (ownership : env.plockOwnership = true) :
    Accounts env tag 0 (some r)
      (some (dropResource env r).1, (dropResource env r).2) := by
  refine ⟨?_, fun _ _ => .inl ownership⟩
  unfold dropResource
  split
  · simp [Conserves, pendingCount, waitingCount]
  · split
    · simp [Conserves, effectCount, concerns, sendDrop, sendStructInfo]
    · exact (Accounts.kept tag accountable).conserves

end Handlers

end Dlm.Plock
