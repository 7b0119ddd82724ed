import Dlm.Plock.Transitions

/-!
# What a checkpoint records

`store_plocks` writes nothing while its last checkpoint is newer than
`last_plock_time`.  The definitions here say of a message, an operation or a
removed node, and of the resources that its handler finds, whether the handler
leaves alone what `store_plocks` would write or sets that time.
-/

namespace Dlm.Plock

variable {number : UInt64} {env : Env} {ls : Lockspace}

/-- The section for what is in a slot. -/
def slotSection (env : Env) (slot : Option Resource) : Option Section :=
  slot.bind (storeResource env)

theorem filterMap_putSlot (env : Env) {slot : Option Resource}
    {resources : List Resource} (same : slotSection env slot =
      slotSection env (searchResource resources number)) :
    (putSlot number slot resources).filterMap (storeResource env) =
      resources.filterMap (storeResource env) := by
  have alone (slot : Option Resource) :
      slot.toList.filterMap (storeResource env) =
        (slotSection env slot).toList := by
    cases slot with
    | none => rfl
    | some r => cases stored : storeResource env r with
      | none => simp [slotSection, stored]
      | some section_ => simp [slotSection, stored]
  induction resources with
  | nil =>
      rw [putSlot, alone, same]
      rfl
  | cons r later induction =>
      rw [searchResource, List.find?_cons] at same
      rw [putSlot]
      cases found : r.number == number with
      | true =>
          rw [found] at same
          rw [if_pos rfl, List.filterMap_append, alone, same, ← alone,
            ← List.filterMap_append]
          rfl
      | false =>
          rw [found] at same
          rw [if_neg Bool.false_ne_true, List.filterMap_cons,
            List.filterMap_cons, induction same]

theorem storePlocks_onSlot
    {handler : Option Resource → Option Resource × List Effect}
    (same : slotSection env
        (handler (searchResource ls.plockResources number)).1 =
      slotSection env (searchResource ls.plockResources number)) :
    storePlocks env (ls.onSlot number handler).1 = storePlocks env ls :=
  filterMap_putSlot env same

section Handlers

variable {info : Info} {sender : Int32} {r : Resource}
  {slot : Option Resource}

/-- An operation that does not set the time does nothing to the resource. -/
theorem receivePlock2_untimed
    (untimed : .plockTime ∉ (receivePlock2 env info sender r).2) :
    (receivePlock2 env info sender r).1 = some r := by
  unfold receivePlock2 at untimed ⊢
  cases kind : info.optype with
  | lock =>
      rw [kind] at untimed
      exact (untimed List.mem_cons_self).elim
  | unlock =>
      rw [kind] at untimed
      exact (untimed List.mem_cons_self).elim
  | get => rfl
  | unknown code => rfl

theorem slotSection_pending (r : Resource) (info : Info) :
    slotSection env (some (savePendingPlock r info)) =
      slotSection env (some r) :=
  rfl

theorem receivePlockFound_section
    (untimed : .plockTime ∉ (receivePlockFound env info sender r).2) :
    slotSection env (receivePlockFound env info sender r).1 =
      slotSection env (some r) := by
  have exit := receivePlockFound_exit env info sender r
  generalize receivePlockFound env info sender r = result at exit untimed ⊢
  cases exit with
  | executed => rw [receivePlock2_untimed untimed]
  | saved => exact slotSection_pending r info
  | ignored => rfl

theorem slotSection_unknown (ownership : env.plockOwnership = true) :
    slotSection env (some (newResource env number)) = none := by
  simp [slotSection, storeResource, sectionOwner, newResource, ownership]

/-- An operation that sets the time when it is carried out. -/
def Optype.timed : Optype → Bool
  | .lock => true
  | .unlock => true
  | .get => false
  | .unknown _ => false

theorem receivePlock2_timed (timed : info.optype.timed = true) :
    .plockTime ∈ (receivePlock2 env info sender r).2 := by
  unfold receivePlock2
  cases kind : info.optype with
  | lock => exact List.mem_cons_self
  | unlock => exact List.mem_cons_self
  | get =>
      rw [kind] at timed
      cases timed
  | unknown code =>
      rw [kind] at timed
      cases timed

/-- A plock message that does not allocate its resource, or does it without
writing a section for it. -/
def plockKeeps (env : Env) (message : Message) (slot : Option Resource) :
    Bool :=
  env.plockOwnership || message.info.optype.timed || slot.isSome ||
    (message.info.optype = .get && message.nodeid ≠ env.ourNodeid) ||
    message.nodeid ≠ message.info.nodeid

/-- Such a message leaves the section of its resource alone if it does not set
the time. -/
theorem receivePlock1_section {message : Message}
    (keeps : plockKeeps env message slot = true)
    (untimed : .plockTime ∉ (receivePlock1 env message slot).2) :
    slotSection env (receivePlock1 env message slot).1 =
      slotSection env slot := by
  revert untimed
  unfold receivePlock1
  dsimp only
  split
  · exact fun _ => rfl
  · rename_i answered
    split
    · exact fun _ => rfl
    · rename_i honest
      cases found : findResource env message.info.number
          (!env.plockOwnership) slot with
      | none =>
          obtain ⟨rfl, creates⟩ := findResource_eq_none found
          have ownership : env.plockOwnership = true := by
            simpa using creates
          dsimp only
          split
          · exact fun _ => rfl
          · intro _
            rw [slotSection_pending, slotSection_unknown ownership]
            rfl
      | some r =>
          intro untimed
          have kept := receivePlockFound_section untimed
          rcases findResource_eq_some found with rfl | ⟨rfl, rfl⟩
          · exact kept
          · have shared : env.plockOwnership = false := by
              simpa [findResource] using found
            have unowned : (newResource env message.info.number).owner =
                0 := by
              simp [newResource, shared]
            have timed : message.info.optype.timed = true := by
              simpa [plockKeeps, shared, answered, honest] using keeps
            dsimp only at untimed
            rw [receivePlockFound, if_pos unowned] at untimed
            exact (untimed (receivePlock2_timed timed)).elim

theorem slotSection_getD (number : UInt64)
    (keeps : (env.plockOwnership || slot.isSome) = true) :
    slotSection env (some (slot.getD (newResource env number))) =
      slotSection env slot := by
  cases slot with
  | none => exact slotSection_unknown (by simpa using keeps)
  | some r => rfl

/-- The same of an operation that is read, with ownership or on a resource
that is there. -/
theorem processPlock_section
    (keeps : (env.plockOwnership || slot.isSome) = true)
    (untimed : .plockTime ∉ (processPlock env info slot).2) :
    slotSection env (processPlock env info slot).1 =
      slotSection env slot := by
  rw [← slotSection_getD info.number keeps]
  revert untimed
  unfold processPlock
  dsimp only
  split
  · exact fun _ => rfl
  · split
    · intro untimed
      rw [receivePlock2_untimed untimed]
    · exact fun _ => slotSection_pending _ _

end Handlers

/-- A resource whose release the others have announced has no owner. -/
def ReleasedUnowned (r : Resource) : Prop :=
  r.gotUnown = true → r.owner = 0

theorem SlotHolds.released {slot : Option Resource}
    (sound : SlotHolds ReleasedUnowned slot) (env : Env) (number : UInt64) :
    ReleasedUnowned (slot.getD (newResource env number)) := by
  cases slot with
  | none => exact fun flagged => (Bool.false_ne_true flagged).elim
  | some r => exact sound r rfl

section Messages

variable {message : Message} {r : Resource} {slot : Option Resource}

/-- An ownership message that changes the owner that `store_plocks` writes: the
release that the node itself has announced, a release or a claim of another
node, or a claim of its own for which no lock operation is pending. -/
def changesOwner (env : Env) (message : Message) (r : Resource) : Bool :=
  if message.nodeid = env.ourNodeid then
    if message.info.nodeid = 0 then
      r.owner = 0 && r.owner ≠ env.ourNodeid && !r.gotUnown
    else
      message.info.nodeid = env.ourNodeid && r.owner = -1 &&
        !r.pending.any (·.optype.timed)
  else if message.info.nodeid = 0 then
    r.owner ≠ -1 && r.owner ≠ env.ourNodeid && r.owner ≠ 0
  else message.info.nodeid = message.nodeid && r.owner = -1

def ownKeeps (env : Env) (message : Message) (slot : Option Resource) :
    Bool :=
  (env.plockOwnership || slot.isSome) &&
    !changesOwner env message
      (slot.getD (newResource env message.info.number))

/-- Pending operations set the time if one of them is a lock or an unlock. -/
theorem addPendingLoop_timed {pending : List Info}
    (timed : pending.any (·.optype.timed) = true) :
    .plockTime ∈ (addPendingLoop env pending r).2 := by
  induction pending generalizing r with
  | nil => cases timed
  | cons info later induction =>
      rw [List.any_cons, Bool.or_eq_true] at timed
      rw [addPendingLoop]
      by_cases here : .plockTime ∈ (receivePlock2 env info env.ourNodeid r).2
      · cases result : receivePlock2 env info env.ourNodeid r with
        | mk slot effects =>
            rw [result] at here
            cases slot with
            | none => exact here
            | some s => exact List.mem_append_left _ here
      · have untimed : ¬ info.optype.timed = true :=
          fun timed => here (receivePlock2_timed timed)
        have kept := receivePlock2_untimed here
        cases result : receivePlock2 env info env.ourNodeid r with
        | mk slot effects =>
            rw [result] at kept
            cases kept
            apply List.mem_append_right
            exact induction (timed.resolve_left untimed)

theorem receiveOwnFromUs_section
    (ours : message.nodeid = env.ourNodeid)
    (keeps : changesOwner env message r = false)
    (untimed : .plockTime ∉ (receiveOwnFromUs env message.info r).2) :
    slotSection env (receiveOwnFromUs env message.info r).1 =
      slotSection env (some r) := by
  revert untimed
  simp only [changesOwner, ours, if_true] at keeps
  unfold receiveOwnFromUs
  split
  · rename_i release
    rw [if_pos release] at keeps
    split
    · exact fun _ => rfl
    · rename_i foreign
      split
      · rename_i unowned
        intro _
        rw [unowned] at foreign
        have flagged : r.gotUnown = true := by
          simpa [unowned, foreign] using keeps
        have same : ({ r with gotUnown := true } : Resource) = r := by
          cases r
          simp_all
        rw [same]
      · exact fun _ => rfl
  · rename_i claim
    rw [if_neg claim] at keeps
    split
    · rename_i named
      split
      · rename_i unknown
        intro untimed
        have timed : r.pending.any (·.optype.timed) = true := by
          simpa [named, unknown] using keeps
        exact (untimed (addPendingLoop_timed timed)).elim
      · split
        · exact fun _ => rfl
        · split
          · exact fun _ => rfl
          · exact fun _ => rfl
    · exact fun _ => rfl

/-- A resource that is given up is written as before until the others have
read its locks. -/
theorem slotSection_given (sound : ReleasedUnowned r) (known : r.owner ≠ -1)
    (ours : r.owner = env.ourNodeid) :
    slotSection env (some { (sendSyncs r).1 with owner := 0 }) =
      slotSection env (some r) := by
  by_cases zero : env.ourNodeid = 0
  · simp [slotSection, storeResource, sectionOwner, packSectionBuf, sendSyncs,
      ours, zero]
  · have flagged : r.gotUnown = false := by
      apply Bool.eq_false_iff.mpr
      intro flagged
      exact zero (ours.symm.trans (sound flagged))
    have other : (0 : Int32) ≠ env.ourNodeid := fun same => zero same.symm
    rw [ours] at known
    simp [slotSection, storeResource, sectionOwner, packSectionBuf, sendSyncs,
      ours, known, flagged, other]

theorem receiveOwnFromOther_section (sound : ReleasedUnowned r)
    (other : message.nodeid ≠ env.ourNodeid)
    (keeps : changesOwner env message r = false) :
    slotSection env
        (receiveOwnFromOther env message.info message.nodeid r).1 =
      slotSection env (some r) := by
  simp only [changesOwner, other, if_false] at keeps
  unfold receiveOwnFromOther
  split
  · rename_i release
    rw [if_pos release] at keeps
    split
    · rfl
    · rename_i known
      split
      · rfl
      · rename_i foreign
        split
        · rfl
        · rename_i owned
          simp [known, foreign, owned] at keeps
  · rename_i claim
    rw [if_neg claim] at keeps
    split
    · rename_i named
      split
      · rename_i unknown
        simp [named, unknown] at keeps
      · rename_i known
        split
        · rename_i ours
          exact slotSection_given sound known ours
        · rfl
    · rfl

theorem receiveOwn1_section (sound : SlotHolds ReleasedUnowned slot)
    (keeps : ownKeeps env message slot = true)
    (untimed : .plockTime ∉ (receiveOwn1 env message slot).2) :
    slotSection env (receiveOwn1 env message slot).1 =
      slotSection env slot := by
  simp only [ownKeeps, Bool.and_eq_true, Bool.not_eq_true'] at keeps
  obtain ⟨present, keeps⟩ := keeps
  rw [← slotSection_getD message.info.number present]
  have found : findResource env message.info.number true slot =
      some (slot.getD (newResource env message.info.number)) := by
    cases slot with
    | none => rfl
    | some r => rfl
  have released := sound.released env message.info.number
  generalize slot.getD (newResource env message.info.number) = r
    at found released keeps ⊢
  simp only [receiveOwn1, found] at untimed ⊢
  split
  · rename_i ours
    rw [if_pos ours] at untimed
    exact receiveOwnFromUs_section ours keeps untimed
  · rename_i other
    exact receiveOwnFromOther_section released other keeps

/-- A synchronisation message whose resource is written without locks, or not
at all, or our own one for an entry that is not marked. -/
def syncKeeps (env : Env) (message : Message) (slot : Option Resource) :
    Bool :=
  slot.all fun r =>
    r.owner = -1 || r.owner = env.ourNodeid ||
      (message.nodeid = env.ourNodeid &&
        !r.locks.any (syncMatchesLock message.info) &&
        !r.waiters.any (syncMatchesWaiter message.info))

theorem slotSection_hidden
    (hidden : r.owner = -1 ∨ r.owner = env.ourNodeid)
    (locks : List PosixLock) (waiters : List LockWaiter) :
    slotSection env (some { r with locks := locks, waiters := waiters }) =
      slotSection env (some r) := by
  rcases hidden with unknown | ours
  · simp [slotSection, storeResource, sectionOwner, unknown]
  · simp [slotSection, storeResource, sectionOwner, packSectionBuf, ours]

theorem modifyFirst_of_none {α : Type} {test : α → Bool} {change : α → α}
    {entries : List α} (none_ : entries.any test = false) :
    modifyFirst test change entries = entries := by
  induction entries with
  | nil => rfl
  | cons entry later induction =>
      rw [List.any_cons, Bool.or_eq_false_iff] at none_
      rw [modifyFirst, none_.1, induction none_.2]
      rfl

theorem receiveSync1_section (keeps : syncKeeps env message slot = true) :
    slotSection env (receiveSync1 env message slot).1 =
      slotSection env slot := by
  cases slot with
  | none => rfl
  | some r =>
      simp only [syncKeeps, Option.all_some, Bool.or_eq_true,
        Bool.and_eq_true, Bool.not_eq_true', decide_eq_true_eq] at keeps
      unfold receiveSync1
      rcases keeps with hidden | ⟨⟨ours, locks⟩, waiters⟩
      · have same := slotSection_hidden hidden
        dsimp only
        split
        · unfold clearSyncingFlag
          split
          · exact same _ r.waiters
          · exact same r.locks _
        · split
          · exact same _ r.waiters
          · split
            · exact same r.locks _
            · rfl
      · simp only [ours, if_true, clearSyncingFlag, locks, Bool.false_eq_true,
          if_false, modifyFirst_of_none waiters]

/-- A drop message that does not free its resource. -/
def dropKeeps (slot : Option Resource) : Bool :=
  slot.all fun r =>
    r.owner ≠ 0 || !r.pending.isEmpty ||
      !(r.locks.isEmpty && r.waiters.isEmpty)

theorem receiveDrop1_of_keeps (keeps : dropKeeps slot = true) :
    receiveDrop1 slot = slot := by
  cases slot with
  | none => rfl
  | some r =>
      simp only [dropKeeps, Option.all_some] at keeps
      unfold receiveDrop1
      grind

/-- A message whose handler leaves the section of its resource alone or sets
the time. -/
def Message.keepsSection (env : Env) (message : Message)
    (slot : Option Resource) : Bool :=
  match message.type with
  | .plock => plockKeeps env message slot
  | .own => ownKeeps env message slot
  | .drop => dropKeeps slot
  | .syncLock => syncKeeps env message slot
  | .syncWaiter => syncKeeps env message slot

theorem receiveSlot_section (sound : SlotHolds ReleasedUnowned slot)
    (keeps : message.keepsSection env slot = true)
    (untimed : .plockTime ∉ (receiveSlot env message slot).2) :
    slotSection env (receiveSlot env message slot).1 =
      slotSection env slot := by
  unfold receiveSlot at untimed ⊢
  cases kind : message.type with
  | plock =>
      simp only [Message.keepsSection, kind] at keeps untimed
      exact receivePlock1_section keeps untimed
  | own =>
      simp only [Message.keepsSection, kind] at keeps untimed
      exact receiveOwn1_section sound keeps untimed
  | drop =>
      simp only [Message.keepsSection, kind] at keeps
      exact congrArg _ (receiveDrop1_of_keeps keeps)
  | syncLock =>
      simp only [Message.keepsSection, kind] at keeps
      exact receiveSync1_section keeps
  | syncWaiter =>
      simp only [Message.keepsSection, kind] at keeps
      exact receiveSync1_section keeps

end Messages

section Purges

variable {nodeid : Int32}

/-- A resource that the purge of a node without locks and waiters leaves
alone. -/
def purgeSpares (env : Env) (nodeid : Int32) (r : Resource) : Bool :=
  r.owner ≠ nodeid &&
    r.waiters.all (fun w => (isConflict r.locks w.info false).1) &&
    (env.plockOwnership || !(r.locks.isEmpty && r.waiters.isEmpty))

/-- Among the nodes that are removed, those in front of the first one with a
lock or a waiter are such that their purge leaves every resource alone. -/
def removalsKeep (env : Env) (resources : List Resource) :
    List Int32 → Bool
  | [] => true
  | nodeid :: later =>
      (resources.map (purgeCount nodeid false)).sum ≠ 0 ||
        (resources.all (purgeSpares env nodeid) &&
          removalsKeep env resources later)

theorem purgePlocks_timed
    (held : (ls.plockResources.map (purgeCount nodeid false)).sum ≠ 0) :
    .plockTime ∈ (purgePlocks env ls nodeid false).2 := by
  simp [purgePlocks, held]

theorem purgeResource_spared {r : Resource}
    (unheld : purgeCount nodeid false r = 0)
    (spared : purgeSpares env nodeid r = true) :
    purgeResource env nodeid false r = (some r, []) := by
  simp only [purgeSpares, Bool.and_eq_true, decide_eq_true_eq,
    List.all_eq_true] at spared
  obtain ⟨⟨owner, blocked⟩, present⟩ := spared
  have entries : purgeEntries nodeid false r = r := by
    simp only [purgeCount, Nat.add_eq_zero_iff, List.length_eq_zero_iff,
      List.filter_eq_nil_iff] at unheld
    obtain ⟨locks, waiters⟩ := unheld
    simp only [purgeEntries]
    rw [List.filter_eq_self.mpr (by simpa using locks),
      List.filter_eq_self.mpr (by simpa using waiters)]
  have granted : doWaiters env r = (r, []) := by
    simp only [doWaiters, doWaitersLoop_of_blocked env blocked]
  have put : putResource env r = some r := by
    unfold putResource
    grind
  rw [purgeResource_eq, entries, purgeOwner, if_neg owner]
  simp only [granted, put]
  rfl

theorem purgePlocks_spared
    (unheld : (ls.plockResources.map (purgeCount nodeid false)).sum = 0)
    (spared : ls.plockResources.all (purgeSpares env nodeid) = true) :
    purgePlocks env ls nodeid false = (ls, []) := by
  have each : ls.plockResources.map (purgeResource env nodeid false) =
      ls.plockResources.map fun r => (some r, []) := by
    apply List.map_congr_left
    intro r member
    apply purgeResource_spared
    · exact List.sum_eq_zero_iff_forall_eq_nat.mp unheld _
        (List.mem_map_of_mem member)
    · exact List.all_eq_true.mp spared r member
  simp [purgePlocks, unheld, each, List.filterMap_map]

end Purges

theorem ReleasedUnowned.survives (env : Env) (message : Message) :
    Survives env message (fun _ => True) ReleasedUnowned where
  new := fun flagged => (Bool.false_ne_true flagged).elim
  sent := fun _ => trivial
  pending := fun _ _ _ _ => trivial
  executed := by
    intro r info sound _ flagged
    rw [afterPlock_gotUnown] at flagged
    rw [afterPlock_owner]
    exact sound flagged
  saved := fun _ _ sound _ _ => sound
  flushed := fun _ sound => sound
  claimed := by
    intro r sound unknown _ flagged
    have unowned := sound flagged
    rw [unknown] at unowned
    cases unowned
  flagged := fun _ _ unowned _ => unowned
  released := fun _ _ _ => rfl
  synced := fun _ _ _ => rfl
  cleared := by
    intro r sound
    unfold clearSyncingFlag
    split
    · exact sound
    · exact sound
  lock := fun _ _ sound => sound
  waiter := fun _ _ sound => sound

theorem ReleasedUnowned.processPlock {info : Info} {slot : Option Resource}
    (sound : SlotHolds ReleasedUnowned slot) :
    SlotHolds ReleasedUnowned (processPlock env info slot).1 := by
  have present := sound.released env info.number
  unfold Plock.processPlock
  dsimp only
  split
  · exact .some present
  · split
    · apply SlotHolds.executed
      intro flagged
      rw [afterPlock_gotUnown] at flagged
      rw [afterPlock_owner]
      exact present flagged
    · exact .some present

theorem ReleasedUnowned.purgePlocks {nodeid : Int32} {unmount : Bool}
    (sound : Everywhere ReleasedUnowned ls) :
    Everywhere ReleasedUnowned (purgePlocks env ls nodeid unmount).1 := by
  refine Everywhere.purgePlocks sound ?_
  intro r released s kept
  rw [purgeResource_eq] at kept
  rw [putResource_eq_some kept]
  intro flagged
  unfold purgeOwner at flagged ⊢
  split
  · rfl
  · rename_i other
    rw [if_neg other] at flagged
    exact released flagged

/-- Giving up an unused resource leaves its section alone: its owner is written
until the message about it is back. -/
theorem dropResource_section {r : Resource} (named : env.ourNodeid ≠ -1)
    (sound : ReleasedUnowned r) :
    ReleasedUnowned (dropResource env r).1 ∧
      (r.locks.isEmpty && r.waiters.isEmpty →
        storeResource env (dropResource env r).1 = storeResource env r) := by
  unfold dropResource
  split
  · rename_i ours
    refine ⟨fun _ => rfl, fun unused => ?_⟩
    by_cases zero : env.ourNodeid = 0
    · have same : ({ r with owner := 0 } : Resource) = r := by
        cases r
        simp_all
      dsimp only
      rw [same]
    · have unflagged : r.gotUnown = false := by
        apply Bool.eq_false_iff.mpr
        intro flagged
        exact zero (ours.symm.trans (sound flagged))
      have empty : r.locks = [] ∧ r.waiters = [] := by
        simpa using unused
      have notNew : (0 : Int32) ≠ -1 := by decide
      have other : (0 : Int32) ≠ env.ourNodeid := fun same => zero same.symm
      simp [storeResource, sectionOwner, packSectionBuf, ours, named,
        unflagged, empty.1, empty.2, notNew, other]
  · split
    · exact ⟨sound, fun _ => rfl⟩
    · exact ⟨sound, fun _ => rfl⟩

theorem dropResources_section {aged : UInt64 → Bool}
    (named : env.ourNodeid ≠ -1) (sound : Everywhere ReleasedUnowned ls) :
    Everywhere ReleasedUnowned (dropResources env aged ls).1 ∧
      storePlocks env (dropResources env aged ls).1 =
        storePlocks env ls := by
  have all {before after : List Resource}
      (dropped : List.Forall₂ (Dropped env) before after)
      (sound : ∀ r ∈ before, ReleasedUnowned r) :
      after.filterMap (storeResource env) =
        before.filterMap (storeResource env) := by
    induction dropped with
    | nil => rfl
    | cons first _ induction =>
        obtain ⟨here, rest⟩ := List.forall_mem_cons.mp sound
        rw [List.filterMap_cons, List.filterMap_cons, induction rest]
        rcases first with rfl | ⟨unused, rfl⟩
        · rfl
        · rw [(dropResource_section named here).2 unused]
  constructor
  · exact sound.dropResources
      (fun _ here => (dropResource_section named here).1) aged
  · exact all (dropResources_dropped env aged ls) sound

end Dlm.Plock
