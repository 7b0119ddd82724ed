import Mathlib.Data.List.Forall2
import Dlm.Plock.Receive

/-!
# The plock state of a lockspace

The list of resources and the messages saved while a joining node waits for
the checkpoint.  The handlers of `Receive` are applied to the resource that
`search_resource` finds, that is to the first one with the number.
-/

namespace Dlm.Plock

/-- The plock fields of `struct lockspace`. -/
structure Lockspace where
  plockResources : List Resource
  savedMessages : List Message
  needPlocks : Bool
  savePlocks : Bool
  deriving DecidableEq, Repr

def searchResource (resources : List Resource) (number : UInt64) :
    Option Resource :=
  resources.find? (·.number == number)

/-- Leave `slot` in the place of the first resource with the number, or at the
end of the list when there is none. -/
def putSlot (number : UInt64) (slot : Option Resource) :
    List Resource → List Resource
  | [] => slot.toList
  | r :: later =>
      if r.number == number then slot.toList ++ later
      else r :: putSlot number slot later

theorem mem_putSlot {number : UInt64} {slot : Option Resource}
    {resources : List Resource} {r : Resource}
    (member : r ∈ putSlot number slot resources) :
    r ∈ slot ∨ r ∈ resources := by
  induction resources with
  | nil => exact .inl (by simpa [putSlot] using member)
  | cons s later induction =>
      rw [putSlot] at member
      split at member
      · rcases List.mem_append.mp member with new | old
        · exact .inl (by simpa using new)
        · exact .inr (List.mem_cons_of_mem s old)
      · rcases List.mem_cons.mp member with rfl | rest
        · exact .inr List.mem_cons_self
        · rcases induction rest with new | old
          · exact .inl new
          · exact .inr (List.mem_cons_of_mem s old)

/-- Run a handler on the resource with the number. -/
def Lockspace.onSlot (ls : Lockspace) (number : UInt64)
    (handler : Option Resource → Option Resource × List Effect) :
    Lockspace × List Effect :=
  let (slot, effects) := handler (searchResource ls.plockResources number)
  ({ ls with plockResources := putSlot number slot ls.plockResources },
    effects)

/-- The underscored receive function of a message's type. -/
def receiveSlot (env : Env) (message : Message) (slot : Option Resource) :
    Option Resource × List Effect :=
  match message.type with
  | .plock => receivePlock1 env message slot
  | .own => receiveOwn1 env message slot
  | .drop => (receiveDrop1 slot, [])
  | .syncLock => receiveSync1 env message slot
  | .syncWaiter => receiveSync1 env message slot

/-- A plock message that is processed and not saved. -/
def receiveNow (env : Env) (ls : Lockspace) (message : Message) :
    Lockspace × List Effect :=
  ls.onSlot message.info.number (receiveSlot env message)

/-- `save_message`. -/
def saveMessage (ls : Lockspace) (message : Message) : Lockspace :=
  { ls with savedMessages := ls.savedMessages ++ [message] }

/-- `receive_plock`, `receive_own`, `receive_sync` and `receive_drop`, as
`deliver_cb` calls them. -/
def receive (env : Env) (ls : Lockspace) (message : Message) :
    Lockspace × List Effect :=
  if ls.savePlocks then (saveMessage ls message, [])
  else receiveNow env ls message

/-- The loop of `process_saved_plocks`. -/
def processSavedLoop (env : Env) :
    List Message → Lockspace → Lockspace × List Effect
  | [], ls => (ls, [])
  | message :: later, ls =>
      let (ls, effects) := receiveNow env ls message
      let (ls, more) := processSavedLoop env later ls
      (ls, effects ++ more)

def processSavedPlocks (env : Env) (ls : Lockspace) :
    Lockspace × List Effect :=
  processSavedLoop env ls.savedMessages { ls with savedMessages := [] }

/-- `process_plocks` for an operation that it accepts: the lockspace exists
and plocks are enabled.  The kernel does not set the node id. -/
def processPlocks (env : Env) (ls : Lockspace) (info : Info) :
    Lockspace × List Effect :=
  let info := { info with nodeid := env.ourNodeid }
  ls.onSlot info.number (processPlock env info)

/-- The loop of `drop_resources` over the list read backwards.  `budget` is
what is left of `cfgd_drop_resources_count`, and `aged` tells the numbers whose
last access is longer ago than `cfgd_drop_resources_age`. -/
def dropResourcesLoop (env : Env) (aged : UInt64 → Bool) :
    Nat → List Resource → List Resource × List Effect
  | _, [] => ([], [])
  | 0, resources => (resources, [])
  | budget + 1, r :: later =>
      if (r.owner ≠ 0 ∧ r.owner ≠ env.ourNodeid) ∨ !aged r.number ∨
          !(r.locks.isEmpty && r.waiters.isEmpty) then
        let (later, effects) := dropResourcesLoop env aged (budget + 1) later
        (r :: later, effects)
      else
        let (r, sent) := dropResource env r
        let (later, effects) := dropResourcesLoop env aged budget later
        (r :: later, sent ++ effects)

def dropResources (env : Env) (aged : UInt64 → Bool) (ls : Lockspace) :
    Lockspace × List Effect :=
  let (resources, effects) :=
    dropResourcesLoop env aged env.dropResourcesCount
      ls.plockResources.reverse
  ({ ls with plockResources := resources.reverse }, effects)

/-- The number of locks and waiters that a purge of the node removes. -/
def purgeCount (nodeid : Int32) (unmount : Bool) (r : Resource) : Nat :=
  (r.locks.filter fun po => po.nodeid == nodeid || unmount).length +
    (r.waiters.filter fun w => w.info.nodeid == nodeid || unmount).length

/-- `purge_plocks`. -/
def purgePlocks (env : Env) (ls : Lockspace) (nodeid : Int32)
    (unmount : Bool) : Lockspace × List Effect :=
  let purged := ls.plockResources.map (purgeResource env nodeid unmount)
  let touched :=
    if (ls.plockResources.map (purgeCount nodeid unmount)).sum = 0 then []
    else [Effect.plockTime]
  ({ ls with plockResources := purged.filterMap (·.1) },
    purged.flatMap (·.2) ++ touched)

section Loops

variable {env : Env} {ls : Lockspace}

/-- What `drop_resources` can do to one resource. -/
def Dropped (env : Env) (r s : Resource) : Prop :=
  s = r ∨
    (r.locks.isEmpty && r.waiters.isEmpty) = true ∧
      s = (dropResource env r).1

theorem dropResourcesLoop_dropped (env : Env) (aged : UInt64 → Bool)
    (budget : Nat) (resources : List Resource) :
    List.Forall₂ (Dropped env) resources
      (dropResourcesLoop env aged budget resources).1 := by
  have same (resources : List Resource) :
      List.Forall₂ (Dropped env) resources resources :=
    List.forall₂_same.mpr fun r _ => .inl rfl
  induction resources generalizing budget with
  | nil => cases budget <;> exact .nil
  | cons r later induction =>
      cases budget with
      | zero => exact same _
      | succ budget =>
          rw [dropResourcesLoop]
          split
          · exact .cons (.inl rfl) (induction (budget + 1))
          · rename_i unused
            have empty : (r.locks.isEmpty && r.waiters.isEmpty) = true := by
              simp only [not_or, Bool.not_eq_true, Bool.not_eq_false']
                at unused
              exact unused.2.2
            exact .cons (.inr ⟨empty, rfl⟩) (induction budget)

theorem dropResources_dropped (env : Env) (aged : UInt64 → Bool)
    (ls : Lockspace) :
    List.Forall₂ (Dropped env) ls.plockResources
      (dropResources env aged ls).1.plockResources := by
  have dropped := dropResourcesLoop_dropped env aged env.dropResourcesCount
    ls.plockResources.reverse
  rw [← List.forall₂_reverse_iff, List.reverse_reverse] at dropped
  exact dropped

/-- What giving up a resource does not change stays the same of all. -/
theorem dropResources_map {β : Type} {project : Resource → β}
    (kept : ∀ r, project (dropResource env r).1 = project r)
    (aged : UInt64 → Bool) :
    (dropResources env aged ls).1.plockResources.map project =
      ls.plockResources.map project := by
  have all {before after : List Resource}
      (dropped : List.Forall₂ (Dropped env) before after) :
      after.map project = before.map project := by
    induction dropped with
    | nil => rfl
    | cons first _ induction =>
        rw [List.map_cons, List.map_cons, induction]
        rcases first with rfl | ⟨_, rfl⟩
        · rfl
        · rw [kept]
  exact all (dropResources_dropped env aged ls)

theorem mem_dropResources {aged : UInt64 → Bool} {s : Resource}
    (member : s ∈ (dropResources env aged ls).1.plockResources) :
    ∃ r ∈ ls.plockResources, Dropped env r s := by
  have all {before after : List Resource}
      (dropped : List.Forall₂ (Dropped env) before after)
      (member : s ∈ after) : ∃ r ∈ before, Dropped env r s := by
    induction dropped with
    | nil => cases member
    | @cons r _ _ _ first _ induction =>
        rcases List.mem_cons.mp member with rfl | listed
        · exact ⟨r, List.mem_cons_self, first⟩
        · obtain ⟨old, among, dropped⟩ := induction listed
          exact ⟨old, List.mem_cons_of_mem _ among, dropped⟩
  exact all (dropResources_dropped env aged ls) member

theorem mem_purgePlocks {nodeid : Int32} {unmount : Bool} {s : Resource}
    (member : s ∈ (purgePlocks env ls nodeid unmount).1.plockResources) :
    ∃ r ∈ ls.plockResources,
      (purgeResource env nodeid unmount r).1 = some s := by
  obtain ⟨result, listed, kept⟩ := List.mem_filterMap.mp member
  obtain ⟨r, old, rfl⟩ := List.mem_map.mp listed
  exact ⟨r, old, kept⟩

end Loops

end Dlm.Plock
