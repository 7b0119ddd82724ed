import Dlm.Plock.Checkpoint

/-!
# What a plock message does to a resource

Every handler changes a resource by a few kinds of transition: an operation is
carried out or put aside, the resource is claimed, given up or synchronised.
A property that survives each kind of transition survives every handler.
-/

namespace Dlm.Plock

/-- `holds` survives what a message can do to a resource, when the operations
that are carried out are all `usable`. -/
structure Survives (env : Env) (message : Message) (usable : Info → Prop)
    (holds : Resource → Prop) : Prop where
  new : holds (newResource env message.info.number)
  sent : message.nodeid = message.info.nodeid → usable message.info
  pending : ∀ r, holds r → ∀ info ∈ r.pending, usable info
  executed : ∀ r info, holds r → usable info →
    holds (afterPlock env info r)
  saved : ∀ r info, holds r → usable info → info.nodeid = env.ourNodeid →
    holds (savePendingPlock r info)
  flushed : ∀ r, holds r → holds { r with pending := [] }
  claimed : ∀ r, holds r → r.owner = -1 →
    message.info.nodeid = message.nodeid →
    holds { r with owner := message.nodeid }
  flagged : ∀ r, holds r → r.owner = 0 → holds { r with gotUnown := true }
  released : ∀ r, holds r → holds { r with owner := 0, gotUnown := true }
  synced : ∀ r, holds r → holds { (sendSyncs r).1 with owner := 0 }
  cleared : ∀ r, holds r → holds (clearSyncingFlag r message.info)
  lock : message.type = .syncLock → ∀ r, holds r →
    holds { r with
      locks := (addLock [] r.locks message.info.nodeid message.info.owner
        message.info.pid message.info.ex message.info.start
        message.info.stop).2.1 }
  waiter : message.type = .syncWaiter → ∀ r, holds r →
    holds (addWaiter env r message.info)

/-- The property holds of what is in the slot. -/
def SlotHolds (holds : Resource → Prop) (slot : Option Resource) : Prop :=
  ∀ r ∈ slot, holds r

section Slots

variable {env : Env} {holds : Resource → Prop} {r : Resource}

theorem SlotHolds.some (here : holds r) : SlotHolds holds (some r) := by
  intro s member
  cases member
  exact here

theorem SlotHolds.none : SlotHolds holds none := by
  intro s member
  cases member

theorem receivePlock2_slot {info : Info} {sender : Int32} {s : Resource}
    (kept : s ∈ (receivePlock2 env info sender r).1) :
    s = afterPlock env info r := by
  unfold receivePlock2 at kept
  unfold afterPlock
  cases kind : info.optype with
  | lock =>
      rw [kind] at kept
      exact putResource_eq_some kept
  | unlock =>
      rw [kind] at kept
      exact putResource_eq_some kept
  | get =>
      rw [kind] at kept
      exact (Option.some.inj kept).symm
  | unknown code =>
      rw [kind] at kept
      exact (Option.some.inj kept).symm

theorem SlotHolds.executed {info : Info} {sender : Int32}
    (here : holds (afterPlock env info r)) :
    SlotHolds holds (receivePlock2 env info sender r).1 := by
  intro s kept
  rw [receivePlock2_slot kept]
  exact here

end Slots

namespace Survives

variable {env : Env} {message : Message} {usable : Info → Prop}
  {holds : Resource → Prop} {slot : Option Resource} {r : Resource}

theorem find {number : UInt64} {create : Bool}
    (survives : Survives env message usable holds)
    (here : SlotHolds holds slot) (same : number = message.info.number)
    (found : findResource env number create slot = some r) : holds r := by
  rcases findResource_eq_some found with rfl | ⟨_, rfl⟩
  · exact here r rfl
  · rw [same]
    exact survives.new

theorem receivePlock1 (survives : Survives env message usable holds)
    (here : SlotHolds holds slot) :
    SlotHolds holds (receivePlock1 env message slot).1 := by
  unfold Plock.receivePlock1
  dsimp only
  split
  · exact here
  · split
    · exact here
    · rename_i honest
      have sent := Decidable.not_not.mp honest
      have carried := survives.sent sent
      have saved (r : Resource) (present : holds r)
          (ours : message.nodeid = env.ourNodeid) : SlotHolds holds
            (Option.some (savePendingPlock r message.info)) :=
        .some (survives.saved r message.info present carried
          (sent.symm.trans ours))
      split
      · split
        · exact .none
        · rename_i ours
          exact saved _ survives.new (Decidable.not_not.mp ours)
      · rename_i r found
        have present := survives.find here rfl found
        have executed : SlotHolds holds
            (receivePlock2 env message.info message.nodeid r).1 :=
          .executed (survives.executed r message.info present carried)
        have exit := receivePlockFound_exit env message.info message.nodeid r
        generalize receivePlockFound env message.info message.nodeid r =
          result at exit ⊢
        cases exit with
        | executed => exact executed
        | saved _ _ ours => exact saved r present ours
        | ignored => exact .some present

theorem addPendingLoop (survives : Survives env message usable holds)
    {pending : List Info} (carried : ∀ info ∈ pending, usable info)
    (present : holds r) :
    SlotHolds holds (addPendingLoop env pending r).1 := by
  induction pending generalizing r with
  | nil => exact .some present
  | cons info later induction =>
      obtain ⟨first, rest⟩ := List.forall_mem_cons.mp carried
      have next : SlotHolds holds
          (receivePlock2 env info env.ourNodeid r).1 :=
        .executed (survives.executed r info present first)
      rw [Plock.addPendingLoop]
      cases received : receivePlock2 env info env.ourNodeid r with
      | mk slot effects =>
          rw [received] at next
          cases slot with
          | none => exact .none
          | some s => exact induction rest (next s rfl)

theorem receiveOwnFromUs (survives : Survives env message usable holds)
    (ours : message.nodeid = env.ourNodeid) (present : holds r) :
    SlotHolds holds (receiveOwnFromUs env message.info r).1 := by
  unfold Plock.receiveOwnFromUs
  split
  · split
    · exact .some present
    · split
      · rename_i unowned
        exact .some (survives.flagged r present unowned)
      · exact .some present
  · split
    · rename_i named
      split
      · rename_i unknown
        have claimed := survives.claimed r present unknown
          (named.trans ours.symm)
        rw [ours] at claimed
        exact survives.addPendingLoop (survives.pending r present)
          (survives.flushed _ claimed)
      · split
        · exact .some present
        · split
          · exact .some (survives.flushed r present)
          · exact .some present
    · exact .some present

theorem receiveOwnFromOther (survives : Survives env message usable holds)
    (present : holds r) :
    SlotHolds holds
      (receiveOwnFromOther env message.info message.nodeid r).1 := by
  unfold Plock.receiveOwnFromOther
  split
  · split
    · exact .some present
    · split
      · exact .some present
      · split
        · exact .some present
        · exact .some (survives.flushed _ (survives.released r present))
  · split
    · rename_i named
      split
      · rename_i unknown
        exact .some (survives.claimed r present unknown named)
      · split
        · exact .some (survives.synced r present)
        · exact .some present
    · exact .some present

theorem receiveOwn1 (survives : Survives env message usable holds)
    (here : SlotHolds holds slot) :
    SlotHolds holds (receiveOwn1 env message slot).1 := by
  unfold Plock.receiveOwn1
  split
  · exact .none
  · rename_i r found
    have present := survives.find here rfl found
    split
    · rename_i ours
      exact survives.receiveOwnFromUs ours present
    · exact survives.receiveOwnFromOther present

theorem receiveSync1 (survives : Survives env message usable holds)
    (here : SlotHolds holds slot) :
    SlotHolds holds (receiveSync1 env message slot).1 := by
  unfold Plock.receiveSync1
  dsimp only
  split
  · exact .none
  · rename_i r
    have present := here r rfl
    split
    · exact .some (survives.cleared r present)
    · split
      · rename_i kind
        exact .some (survives.lock kind r present)
      · split
        · rename_i kind
          exact .some (survives.waiter kind r present)
        · exact .some present

theorem receiveSlot (survives : Survives env message usable holds)
    (here : SlotHolds holds slot) :
    SlotHolds holds (receiveSlot env message slot).1 := by
  unfold Plock.receiveSlot
  split
  · exact survives.receivePlock1 here
  · exact survives.receiveOwn1 here
  · rcases receiveDrop1_cases slot with freed | kept
    · rw [freed]
      exact .none
    · rw [kept]
      exact here
  · exact survives.receiveSync1 here
  · exact survives.receiveSync1 here

end Survives

/-- The property holds of every resource. -/
def Everywhere (holds : Resource → Prop) (ls : Lockspace) : Prop :=
  ∀ r ∈ ls.plockResources, holds r

section Lockspaces

variable {env : Env} {holds : Resource → Prop} {ls : Lockspace}

theorem Everywhere.search (everywhere : Everywhere holds ls)
    (number : UInt64) :
    SlotHolds holds (searchResource ls.plockResources number) :=
  fun r found => everywhere r (List.mem_of_find?_eq_some found)

theorem Everywhere.onSlot {number : UInt64}
    {handler : Option Resource → Option Resource × List Effect}
    (everywhere : Everywhere holds ls)
    (handled : SlotHolds holds
      (handler (searchResource ls.plockResources number)).1) :
    Everywhere holds (ls.onSlot number handler).1 := by
  intro r member
  rcases mem_putSlot member with new | old
  · exact handled r new
  · exact everywhere r old

theorem Everywhere.receiveNow {message : Message} {usable : Info → Prop}
    (everywhere : Everywhere holds ls)
    (survives : Survives env message usable holds) :
    Everywhere holds (receiveNow env ls message).1 :=
  everywhere.onSlot
    (survives.receiveSlot (everywhere.search message.info.number))

theorem Everywhere.receive {message : Message} {usable : Info → Prop}
    (everywhere : Everywhere holds ls)
    (survives : ls.savePlocks = false →
      Survives env message usable holds) :
    Everywhere holds (receive env ls message).1 := by
  unfold Plock.receive
  split
  · exact everywhere
  · rename_i processing
    exact everywhere.receiveNow (survives (by simpa using processing))

theorem Everywhere.processSavedLoop {saved : List Message}
    {usable : Info → Prop} (everywhere : Everywhere holds ls)
    (survives : ∀ message ∈ saved, Survives env message usable holds) :
    Everywhere holds (processSavedLoop env saved ls).1 := by
  induction saved generalizing ls with
  | nil => exact everywhere
  | cons message later induction =>
      obtain ⟨first, rest⟩ := List.forall_mem_cons.mp survives
      exact induction (everywhere.receiveNow first) rest

theorem Everywhere.receivePlocksStored {sections : List Section}
    {usable : Info → Prop} (everywhere : Everywhere holds ls)
    (restored : ∀ section_ ∈ sections,
      holds (unpackSectionBuf env section_))
    (survives : ∀ message ∈ ls.savedMessages,
      Survives env message usable holds) :
    Everywhere holds (receivePlocksStored env sections ls).1 := by
  refine Everywhere.processSavedLoop ?_ survives
  intro r member
  rcases List.mem_append.mp member with old | new
  · exact everywhere r old
  · obtain ⟨section_, listed, rfl⟩ := List.mem_map.mp new
    exact restored section_ listed

theorem Everywhere.purgePlocks {left : Resource → Prop} {nodeid : Int32}
    {unmount : Bool} (everywhere : Everywhere holds ls)
    (purged : ∀ r, holds r →
      SlotHolds left (purgeResource env nodeid unmount r).1) :
    Everywhere left (purgePlocks env ls nodeid unmount).1 := by
  intro s member
  obtain ⟨r, old, kept⟩ := mem_purgePlocks member
  exact purged r (everywhere r old) s kept

theorem Everywhere.dropResources (everywhere : Everywhere holds ls)
    (kept : ∀ r, holds r → holds (dropResource env r).1)
    (aged : UInt64 → Bool) :
    Everywhere holds (dropResources env aged ls).1 := by
  intro s member
  obtain ⟨r, old, rfl | ⟨_, rfl⟩⟩ := mem_dropResources member
  · exact everywhere s old
  · exact kept r (everywhere r old)

end Lockspaces

end Dlm.Plock
