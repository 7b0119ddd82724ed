import Dlm.Plock.Ops

/-!
# Ownership of a resource

The handlers of `PLOCK`, `PLOCK_OWN`, `PLOCK_SYNC_*` and `PLOCK_DROP` messages,
the read of a kernel operation, the relinquishing done by `drop_resources` and
the purge of a node, each on the one resource that it concerns.

A handler takes what `search_resource` finds for the resource number and
returns what is there afterwards: `none` means that the lockspace has no such
resource.
-/

namespace Dlm.Plock

/-- The resource that `find_resource` allocates. -/
def newResource (env : Env) (number : UInt64) : Resource :=
  { number := number
    owner := if env.plockOwnership then -1 else 0
    gotUnown := false
    locks := []
    waiters := []
    pending := [] }

/-- `find_resource` on what `search_resource` has found; `none` stands for
`-ENOENT`. -/
def findResource (env : Env) (number : UInt64) (create : Bool)
    (slot : Option Resource) : Option Resource :=
  match slot with
  | some r => some r
  | none => if create then some (newResource env number) else none

theorem findResource_eq_none {env : Env} {number : UInt64} {create : Bool}
    {slot : Option Resource}
    (absent : findResource env number create slot = none) :
    slot = none ∧ create = false := by
  cases slot with
  | none => simpa [findResource] using absent
  | some r => simp [findResource] at absent

theorem findResource_eq_some {env : Env} {number : UInt64} {create : Bool}
    {slot : Option Resource} {r : Resource}
    (found : findResource env number create slot = some r) :
    slot = some r ∨ (slot = none ∧ r = newResource env number) := by
  cases slot with
  | none =>
      right
      simp only [findResource] at found
      split at found
      · exact ⟨rfl, (Option.some.inj found).symm⟩
      · cases found
  | some s => exact .inl (by simpa [findResource] using found)

def sendStructInfo (info : Info) (type : MsgType) : Effect :=
  .send type info

def sendPlock (info : Info) : Effect :=
  sendStructInfo info .plock

/-- The info of an ownership message. -/
def ownInfo (number : UInt64) (owner : Int32) : Info :=
  { Info.cleared with number := number, nodeid := owner }

/-- `send_own`: nothing is sent while operations are pending. -/
def sendOwn (r : Resource) (owner : Int32) : List Effect :=
  if r.pending.isEmpty then
    [sendStructInfo (ownInfo r.number owner) .own]
  else []

/-- The info with which `send_syncs` announces a lock. -/
def syncLockInfo (number : UInt64) (po : PosixLock) : Info :=
  { Info.cleared with
    number := number
    start := po.start
    stop := po.stop
    nodeid := po.nodeid
    owner := po.owner
    pid := po.pid
    ex := po.ex }

def sendSyncs (r : Resource) : Resource × List Effect :=
  ({ r with
      locks := r.locks.map fun po => { po with syncing := true }
      waiters := r.waiters.map fun w => { w with syncing := true } },
    (r.locks.map fun po =>
      sendStructInfo (syncLockInfo r.number po) .syncLock) ++
    (r.waiters.map fun w => sendStructInfo w.info .syncWaiter))

def sendDrop (r : Resource) : Effect :=
  sendStructInfo { Info.cleared with number := r.number } .drop

def savePendingPlock (r : Resource) (info : Info) : Resource :=
  { r with pending := r.pending ++ [info] }

/-- The loop of `add_pending_plocks`.  The source would go on with a freed
resource; with ownership `put_resource` never frees one. -/
def addPendingLoop (env : Env) :
    List Info → Resource → Option Resource × List Effect
  | [], r => (some r, [])
  | info :: later, r =>
      match receivePlock2 env info env.ourNodeid r with
      | (none, effects) => (none, effects)
      | (some r, effects) =>
          let (slot, more) := addPendingLoop env later r
          (slot, effects ++ more)

/-- With ownership the operations are carried out one after the other. -/
theorem addPendingLoop_cons {env : Env}
    (ownership : env.plockOwnership = true) (info : Info)
    (later : List Info) (r : Resource) :
    addPendingLoop env (info :: later) r =
      ((addPendingLoop env later (afterPlock env info r)).1,
        (receivePlock2 env info env.ourNodeid r).2 ++
          (addPendingLoop env later (afterPlock env info r)).2) := by
  have executed := receivePlock2_owned ownership info env.ourNodeid r
  rw [addPendingLoop]
  cases result : receivePlock2 env info env.ourNodeid r with
  | mk slot effects =>
      rw [result] at executed
      dsimp only at executed
      rw [executed]

def addPendingPlocks (env : Env) (r : Resource) :
    Option Resource × List Effect :=
  addPendingLoop env r.pending { r with pending := [] }

def sendPendingPlocks (r : Resource) : Resource × List Effect :=
  ({ r with pending := [] }, r.pending.map sendPlock)

/-- The part of `_receive_plock` behind `find_resource`. -/
def receivePlockFound (env : Env) (info : Info) (sender : Int32)
    (r : Resource) : Option Resource × List Effect :=
  if r.owner = 0 then receivePlock2 env info sender r
  else if r.owner = -1 then
    if sender = env.ourNodeid then (some (savePendingPlock r info), [])
    else (some r, [])
  else if r.owner ≠ env.ourNodeid then
    if sender = env.ourNodeid then (some (savePendingPlock r info), [])
    else (some r, [])
  else if sender = env.ourNodeid then receivePlock2 env info sender r
  else (some r, [])

/-- The operation is carried out, put aside or ignored. -/
inductive PlockExit (env : Env) (info : Info) (sender : Int32)
    (r : Resource) : Option Resource × List Effect → Prop where
  | executed (runs : r.owner = 0 ∨
      r.owner ≠ -1 ∧ r.owner = env.ourNodeid ∧ sender = env.ourNodeid) :
      PlockExit env info sender r (receivePlock2 env info sender r)
  | saved (owned : r.owner ≠ 0)
      (waits : r.owner = -1 ∨ r.owner ≠ env.ourNodeid)
      (ours : sender = env.ourNodeid) :
      PlockExit env info sender r (some (savePendingPlock r info), [])
  | ignored (owned : r.owner ≠ 0) (other : sender ≠ env.ourNodeid) :
      PlockExit env info sender r (some r, [])

theorem receivePlockFound_exit (env : Env) (info : Info) (sender : Int32)
    (r : Resource) :
    PlockExit env info sender r (receivePlockFound env info sender r) := by
  unfold receivePlockFound
  split
  · rename_i shared
    exact .executed (.inl shared)
  · rename_i owned
    split
    · rename_i new
      split
      · rename_i ours
        exact .saved owned (.inl new) ours
      · rename_i other
        exact .ignored owned other
    · rename_i known
      split
      · rename_i foreign
        split
        · rename_i ours
          exact .saved owned (.inr foreign) ours
        · rename_i other
          exact .ignored owned other
      · rename_i held
        split
        · rename_i ours
          exact .executed (.inr ⟨known, Decidable.not_not.mp held, ours⟩)
        · rename_i other
          exact .ignored owned other

/-- `_receive_plock`. -/
def receivePlock1 (env : Env) (message : Message) (slot : Option Resource) :
    Option Resource × List Effect :=
  let info := message.info
  let sender := message.nodeid
  if info.optype = .get ∧ sender ≠ env.ourNodeid then (slot, [])
  else if sender ≠ info.nodeid then (slot, [])
  else
    match findResource env info.number (!env.plockOwnership) slot with
    | none =>
        -- There must have been a race with a drop.
        if sender ≠ env.ourNodeid then (none, [])
        else
          let r := newResource env info.number
          (some (savePendingPlock r info), sendOwn r env.ourNodeid)
    | some r => receivePlockFound env info sender r

/-- `_receive_own` of a message of our own. -/
def receiveOwnFromUs (env : Env) (info : Info) (r : Resource) :
    Option Resource × List Effect :=
  if info.nodeid = 0 then
    if r.owner = env.ourNodeid then (some r, [])
    else if r.owner = 0 then (some { r with gotUnown := true }, [])
    else (some r, [])
  else if info.nodeid = env.ourNodeid then
    if r.owner = -1 then
      addPendingPlocks env { r with owner := env.ourNodeid }
    else if r.owner = env.ourNodeid then (some r, [])
    else if r.owner = 0 then
      let (r, effects) := sendPendingPlocks r
      (some r, effects)
    else (some r, [])
  else (some r, [])

/-- `_receive_own` of a message of another node. -/
def receiveOwnFromOther (env : Env) (info : Info) (sender : Int32)
    (r : Resource) : Option Resource × List Effect :=
  if info.nodeid = 0 then
    if r.owner = -1 then (some r, [])
    else if r.owner = env.ourNodeid then (some r, [])
    else if r.owner = 0 then (some r, [])
    else
      let (r, effects) :=
        sendPendingPlocks { r with owner := 0, gotUnown := true }
      (some r, effects)
  else if info.nodeid = sender then
    if r.owner = -1 then (some { r with owner := sender }, [])
    else if r.owner = env.ourNodeid then
      let (r, synced) := sendSyncs r
      (some { r with owner := 0 }, synced ++ sendOwn r 0)
    else (some r, [])
  else (some r, [])

/-- `_receive_own`. -/
def receiveOwn1 (env : Env) (message : Message) (slot : Option Resource) :
    Option Resource × List Effect :=
  match findResource env message.info.number true slot with
  | none => (none, [])
  | some r =>
      if message.nodeid = env.ourNodeid then
        receiveOwnFromUs env message.info r
      else receiveOwnFromOther env message.info message.nodeid r

/-- The test of `clear_syncing_flag` on a lock. -/
def syncMatchesLock (info : Info) (po : PosixLock) : Bool :=
  po.syncing && info.start == po.start && info.stop == po.stop &&
    info.nodeid == po.nodeid && info.owner == po.owner &&
    info.pid == po.pid && info.ex == po.ex

/-- The test of `clear_syncing_flag` on a waiter. -/
def syncMatchesWaiter (info : Info) (w : LockWaiter) : Bool :=
  w.syncing && info.start == w.info.start && info.stop == w.info.stop &&
    info.nodeid == w.info.nodeid && info.owner == w.info.owner &&
    info.pid == w.info.pid && info.ex == w.info.ex

/-- Rewrite the first entry that passes the test. -/
def modifyFirst (test : α → Bool) (change : α → α) : List α → List α
  | [] => []
  | entry :: later =>
      if test entry then change entry :: later
      else entry :: modifyFirst test change later

theorem modifyFirst_split {α : Type} {test : α → Bool} {change : α → α}
    {front back : List α} {entry : α}
    (passed : ∀ other ∈ front, test other = false)
    (found : test entry = true) :
    modifyFirst test change (front ++ entry :: back) =
      front ++ change entry :: back := by
  induction front with
  | nil => simp [modifyFirst, found]
  | cons head later induction =>
      obtain ⟨first, rest⟩ := List.forall_mem_cons.mp passed
      simp [modifyFirst, first, induction rest]

theorem map_modifyFirst {α β : Type} {test : α → Bool} {change : α → α}
    {project : α → β} (same : ∀ entry, project (change entry) = project entry)
    (entries : List α) :
    (modifyFirst test change entries).map project = entries.map project := by
  induction entries with
  | nil => rfl
  | cons head later induction =>
      rw [modifyFirst]
      split
      · simp [same]
      · simp [induction]

/-- A key that no two entries share is that of the first entry with it. -/
theorem modifyFirst_eq_map {α κ : Type} [DecidableEq κ] {key : α → κ}
    {change : α → α} {entries : List α} {wanted : κ}
    (different : (entries.map key).Nodup) :
    modifyFirst (key · == wanted) change entries =
      entries.map fun entry =>
        if key entry = wanted then change entry else entry := by
  induction entries with
  | nil => rfl
  | cons entry later induction =>
      rw [List.map_cons, List.nodup_cons] at different
      rw [modifyFirst, List.map_cons]
      by_cases first : key entry = wanted
      · have rest : later.map (fun other =>
            if key other = wanted then change other else other) = later := by
          rw [List.map_congr_left, List.map_id]
          intro other member
          apply if_neg
          intro same
          apply different.1
          exact List.mem_map.mpr ⟨other, member, same.trans first.symm⟩
        simp [first, rest]
      · simp [first, induction different.2]

/-- Rewriting the first entry with a key leaves the first entries with the
other keys. -/
theorem find?_modifyFirst {α κ : Type} [DecidableEq κ] {key : α → κ}
    {change : α → α} (keeps : ∀ entry, key (change entry) = key entry)
    (entries : List α) (changed wanted : κ) :
    (modifyFirst (key · == changed) change entries).find?
        (key · == wanted) =
      if changed = wanted then (entries.find? (key · == wanted)).map change
      else entries.find? (key · == wanted) := by
  induction entries with
  | nil => simp [modifyFirst]
  | cons entry later induction =>
      rw [modifyFirst]
      by_cases first : key entry = changed
      · by_cases same : changed = wanted
        · simp [first, same, keeps]
        · simp [first, same, keeps]
      · by_cases other : key entry = wanted
        · have different : changed ≠ wanted := fun same =>
            first (other.trans same.symm)
          have skipped : wanted ≠ changed := different.symm
          simp [other, different, skipped]
        · simp [first, other, induction]

theorem mem_modifyFirst {α : Type} {test : α → Bool} {change : α → α}
    {entries : List α} {entry : α}
    (member : entry ∈ modifyFirst test change entries) :
    entry ∈ entries ∨
      ∃ old ∈ entries, test old = true ∧ entry = change old := by
  induction entries with
  | nil => cases member
  | cons head tail induction =>
      rw [modifyFirst] at member
      split at member
      · rename_i found
        rcases List.mem_cons.mp member with first | later
        · exact .inr ⟨head, List.mem_cons_self, found, first⟩
        · exact .inl (List.mem_cons_of_mem _ later)
      · rcases List.mem_cons.mp member with first | later
        · exact .inl (first ▸ List.mem_cons_self)
        · rcases induction later with old | ⟨old, oldMember, same⟩
          · exact .inl (List.mem_cons_of_mem _ old)
          · exact .inr ⟨old, List.mem_cons_of_mem _ oldMember, same⟩

/-- `clear_syncing_flag`: the first matching lock, else the first matching
waiter. -/
def clearSyncingFlag (r : Resource) (info : Info) : Resource :=
  if r.locks.any (syncMatchesLock info) then
    { r with
      locks := modifyFirst (syncMatchesLock info)
        (fun po => { po with syncing := false }) r.locks }
  else
    { r with
      waiters := modifyFirst (syncMatchesWaiter info)
        (fun w => { w with syncing := false }) r.waiters }

/-- `_receive_sync`. -/
def receiveSync1 (env : Env) (message : Message) (slot : Option Resource) :
    Option Resource × List Effect :=
  let info := message.info
  match slot with
  | none => (none, [])
  | some r =>
      if message.nodeid = env.ourNodeid then
        (some (clearSyncingFlag r info), [])
      else if message.type = .syncLock then
        let (_, locks, _) :=
          addLock [] r.locks info.nodeid info.owner info.pid info.ex
            info.start info.stop
        (some { r with locks := locks }, [])
      else if message.type = .syncWaiter then (some (addWaiter env r info), [])
      else (some r, [])

/-- `_receive_drop`. -/
def receiveDrop1 (slot : Option Resource) : Option Resource :=
  match slot with
  | none => none
  | some r =>
      if r.owner ≠ 0 then some r
      else if !r.pending.isEmpty then some r
      else if r.locks.isEmpty && r.waiters.isEmpty then none
      else some r

theorem receiveDrop1_cases (slot : Option Resource) :
    receiveDrop1 slot = none ∨ receiveDrop1 slot = slot := by
  unfold receiveDrop1
  split
  · exact .inl rfl
  · split
    · exact .inr rfl
    · split
      · exact .inr rfl
      · split
        · exact .inl rfl
        · exact .inr rfl

/-- The part of `process_plocks` after `find_resource`.  The info already
carries our node id. -/
def processPlock (env : Env) (info : Info) (slot : Option Resource) :
    Option Resource × List Effect :=
  let r := slot.getD (newResource env info.number)
  if r.owner = 0 then (some r, [sendPlock info])
  else if r.owner = env.ourNodeid then
    receivePlock2 env info env.ourNodeid r
  else (some (savePendingPlock r info), sendOwn r env.ourNodeid)

/-- What `drop_resources` does with an unused resource. -/
def dropResource (env : Env) (r : Resource) : Resource × List Effect :=
  if r.owner = env.ourNodeid then ({ r with owner := 0 }, sendOwn r 0)
  else if r.owner = 0 ∧ r.gotUnown then (r, [sendDrop r])
  else (r, [])

/-- The locks and waiters that a purge of the node leaves. -/
def purgeEntries (nodeid : Int32) (unmount : Bool) (r : Resource) :
    Resource :=
  { r with
    locks := r.locks.filter fun po => !(po.nodeid == nodeid || unmount)
    waiters :=
      r.waiters.filter fun w => !(w.info.nodeid == nodeid || unmount) }

/-- The transition of `purge_plocks` to owner 0. -/
def purgeOwner (nodeid : Int32) (r : Resource) :
    Resource × List Effect :=
  if r.owner = nodeid then sendPendingPlocks { r with owner := 0 }
  else (r, [])

/-- The body of the loop of `purge_plocks` over the resources; the effects do
not include the update of `last_plock_time` that follows the loop. -/
def purgeResource (env : Env) (nodeid : Int32) (unmount : Bool)
    (r : Resource) : Option Resource × List Effect :=
  let (r, resent) := purgeOwner nodeid (purgeEntries nodeid unmount r)
  let (r, granted) := if r.waiters.isEmpty then (r, []) else doWaiters env r
  let slot :=
    if !env.plockOwnership && r.locks.isEmpty && r.waiters.isEmpty then none
    else some r
  (slot, resent ++ granted)

/-- `purge_plocks` skips `do_waiters` only where it would do nothing, and frees
what `put_resource` would free. -/
theorem purgeResource_eq (env : Env) (nodeid : Int32) (unmount : Bool)
    (r : Resource) :
    purgeResource env nodeid unmount r =
      let owned := purgeOwner nodeid (purgeEntries nodeid unmount r)
      let granted := doWaiters env owned.1
      (putResource env granted.1, owned.2 ++ granted.2) := by
  have skipped (s : Resource) :
      (if s.waiters.isEmpty then (s, []) else doWaiters env s) =
        doWaiters env s := by
    split
    · rename_i empty
      cases s
      simp_all [doWaiters, doWaitersLoop]
    · rfl
  simp only [purgeResource, skipped, putResource]
  cases env.plockOwnership with
  | false => simp
  | true => simp

end Dlm.Plock
