import Dlm.Plock.Entries
import Dlm.Plock.Transitions

/-!
# The nodes that a resource names

The locks and waiters of a resource carry the node that asked for them, and
the resource may have an owner.  The handlers only bring in the sender of the
message at hand, the node that a synchronisation message is about, or the node
itself; and a purge takes out the node that is gone.
-/

namespace Dlm.Plock

variable {us : Int32} {known : Int32 → Prop} {r : Resource} {info : Info}

/-- The nodes of the locks and waiters, and a positive owner. -/
def Resource.names (r : Resource) : List Int32 :=
  r.locks.map (·.nodeid) ++ r.waiters.map (·.info.nodeid) ++
    if 0 < r.owner then [r.owner] else []

/-- The node that a synchronisation message is about. -/
def Message.synced (message : Message) : List Int32 :=
  match message.type with
  | .syncLock => [message.info.nodeid]
  | .syncWaiter => [message.info.nodeid]
  | _ => []

/-- The resource names known nodes only, and its pending operations are our
own. -/
structure Named (us : Int32) (known : Int32 → Prop) (r : Resource) :
    Prop where
  locks : ∀ po ∈ r.locks, known po.nodeid
  waiters : ∀ w ∈ r.waiters, known w.info.nodeid
  owner : 0 < r.owner → known r.owner
  pending : ∀ info ∈ r.pending, info.nodeid = us

theorem Named.of_names (all : ∀ n ∈ r.names, known n)
    (pending : ∀ info ∈ r.pending, info.nodeid = us) : Named us known r := by
  refine ⟨?_, ?_, ?_, pending⟩
  · intro po member
    apply all
    exact List.mem_append_left _
      (List.mem_append_left _ (List.mem_map_of_mem member))
  · intro w member
    apply all
    exact List.mem_append_left _
      (List.mem_append_right _ (List.mem_map_of_mem member))
  · intro owned
    apply all
    apply List.mem_append_right
    rw [if_pos owned]
    exact List.mem_singleton_self _

theorem Named.names (named : Named us known r) : ∀ n ∈ r.names, known n := by
  intro n member
  rcases List.mem_append.mp member with entries | owner
  · rcases List.mem_append.mp entries with lock | waiter
    · obtain ⟨po, here, rfl⟩ := List.mem_map.mp lock
      exact named.locks po here
    · obtain ⟨w, here, rfl⟩ := List.mem_map.mp waiter
      exact named.waiters w here
  · split at owner
    · rename_i owned
      rw [List.mem_singleton.mp owner]
      exact named.owner owned
    · cases owner

theorem Named.mono {wider : Int32 → Prop} (named : Named us known r)
    (weaker : ∀ n, known n → wider n) :
    Named us wider r :=
  ⟨fun po member => weaker _ (named.locks po member),
    fun w member => weaker _ (named.waiters w member),
    fun owned => weaker _ (named.owner owned), named.pending⟩

section Handlers

variable {env : Env}

theorem Named.new (env : Env) (known : Int32 → Prop) (number : UInt64) :
    Named env.ourNodeid known (newResource env number) := by
  refine ⟨?_, ?_, ?_, ?_⟩
  · intro po member
    cases member
  · intro w member
    cases member
  · simp only [newResource]
    split
    · intro owned
      exact absurd owned (by decide)
    · intro owned
      exact absurd owned (by decide)
  · intro info member
    cases member

theorem rangeless_nodeid (known : Int32 → Prop) :
    Rangeless fun po => known po.nodeid :=
  fun _ _ _ _ has => has

theorem Named.executed (named : Named env.ourNodeid known r)
    (asking : known info.nodeid) :
    Named env.ourNodeid known (afterPlock env info r) := by
  refine ⟨?_, ?_, ?_, ?_⟩
  · exact afterPlock_locks (rangeless_nodeid known) env
      (fun _ _ _ => asking) named.locks fun w member _ _ _ =>
        named.waiters w member
  · intro w member
    rcases afterPlock_waiters env info r w member with old | ⟨_, rfl⟩
    · exact named.waiters w old
    · exact asking
  · rw [afterPlock_owner]
    exact named.owner
  · rw [afterPlock_pending]
    exact named.pending

theorem Named.pend (named : Named env.ourNodeid known r)
    (ours : info.nodeid = env.ourNodeid) :
    Named env.ourNodeid known (savePendingPlock r info) := by
  refine ⟨named.locks, named.waiters, named.owner, ?_⟩
  exact List.forall_mem_append.mpr
    ⟨named.pending, List.forall_mem_singleton.mpr ours⟩

/-- A message brings in its sender and the node it is about. -/
theorem Named.survives {message : Message} (us : known env.ourNodeid)
    (sender : known message.nodeid)
    (synced : ∀ n ∈ message.synced, known n) :
    Survives env message (fun info => known info.nodeid)
      (Named env.ourNodeid known) where
  new := .new env known message.info.number
  sent := by
    intro same
    rw [← same]
    exact sender
  pending := by
    intro r named info member
    rw [named.pending info member]
    exact us
  executed := fun r info named asking => named.executed asking
  saved := fun r info named _ ours => named.pend ours
  flushed := fun r named =>
    ⟨named.locks, named.waiters, named.owner,
      List.forall_mem_nil _⟩
  claimed := fun r named _ _ =>
    ⟨named.locks, named.waiters, fun _ => sender, named.pending⟩
  flagged := fun r named _ =>
    ⟨named.locks, named.waiters, named.owner, named.pending⟩
  released := fun r named =>
    ⟨named.locks, named.waiters, fun owned => (Int32.lt_irrefl owned).elim,
      named.pending⟩
  synced := by
    intro r named
    refine ⟨?_, ?_, fun owned => (Int32.lt_irrefl owned).elim, named.pending⟩
    · intro po member
      obtain ⟨old, here, rfl⟩ := List.mem_map.mp member
      exact named.locks old here
    · intro w member
      obtain ⟨old, here, rfl⟩ := List.mem_map.mp member
      exact named.waiters old here
  cleared := by
    intro r named
    unfold clearSyncingFlag
    split
    · refine ⟨?_, named.waiters, named.owner, named.pending⟩
      intro po member
      rcases mem_modifyFirst member with old | ⟨old, here, _, rfl⟩
      · exact named.locks po old
      · exact named.locks old here
    · refine ⟨named.locks, ?_, named.owner, named.pending⟩
      intro w member
      rcases mem_modifyFirst member with old | ⟨old, here, _, rfl⟩
      · exact named.waiters w old
      · exact named.waiters old here
  lock := by
    intro kind r named
    refine ⟨?_, named.waiters, named.owner, named.pending⟩
    have about : known message.info.nodeid :=
      synced _ (by simp [Message.synced, kind])
    exact List.forall_mem_append.mpr
      ⟨named.locks, List.forall_mem_singleton.mpr about⟩
  waiter := by
    intro kind r named
    refine ⟨named.locks, ?_, named.owner, named.pending⟩
    have about : known message.info.nodeid :=
      synced _ (by simp [Message.synced, kind])
    exact List.forall_mem_append.mpr
      ⟨named.waiters, List.forall_mem_singleton.mpr about⟩

theorem Named.processPlock {slot : Option Resource} (us : known env.ourNodeid)
    (ours : info.nodeid = env.ourNodeid)
    (here : SlotHolds (Named env.ourNodeid known) slot) :
    SlotHolds (Named env.ourNodeid known) (processPlock env info slot).1 := by
  have named : Named env.ourNodeid known
      (slot.getD (newResource env info.number)) := by
    cases slot with
    | none => exact .new env known info.number
    | some r => exact here r rfl
  unfold Plock.processPlock
  dsimp only
  split
  · exact .some named
  · split
    · apply SlotHolds.executed
      apply named.executed
      rw [ours]
      exact us
    · exact .some (named.pend ours)

theorem Named.dropResource (named : Named env.ourNodeid known r) :
    Named env.ourNodeid known (dropResource env r).1 := by
  unfold Plock.dropResource
  split
  · exact ⟨named.locks, named.waiters, fun owned => (Int32.lt_irrefl owned).elim,
      named.pending⟩
  · split
    · exact named
    · exact named

/-- The purge of a node takes its name out. -/
theorem Named.purge {nodeid : Int32} {s : Resource}
    (named : Named env.ourNodeid known r)
    (kept : (purgeResource env nodeid false r).1 = some s) :
    Named env.ourNodeid (fun n => known n ∧ n ≠ nodeid) s := by
  rw [purgeResource_eq] at kept
  rw [putResource_eq_some kept]
  have entries : Named env.ourNodeid (fun n => known n ∧ n ≠ nodeid)
      (purgeOwner nodeid (purgeEntries nodeid false r)).1 := by
    have locks : ∀ po ∈ (purgeEntries nodeid false r).locks,
        known po.nodeid ∧ po.nodeid ≠ nodeid := by
      intro po member
      obtain ⟨old, other⟩ := List.mem_filter.mp member
      exact ⟨named.locks po old, by simpa using other⟩
    have waiters : ∀ w ∈ (purgeEntries nodeid false r).waiters,
        known w.info.nodeid ∧ w.info.nodeid ≠ nodeid := by
      intro w member
      obtain ⟨old, other⟩ := List.mem_filter.mp member
      exact ⟨named.waiters w old, by simpa using other⟩
    unfold purgeOwner
    split
    · exact ⟨locks, waiters, fun owned => (Int32.lt_irrefl owned).elim,
        List.forall_mem_nil _⟩
    · rename_i other
      exact ⟨locks, waiters, fun owned => ⟨named.owner owned, other⟩,
        named.pending⟩
  refine ⟨?_, ?_, entries.owner, entries.pending⟩
  · exact doWaitersLoop_forall
      (rangeless_nodeid fun n => known n ∧ n ≠ nodeid) env entries.locks
      fun w member _ _ _ => entries.waiters w member
  · intro w member
    exact entries.waiters w ((doWaitersLoop_sublist _ _ _).mem member)

end Handlers

section Lockspaces

variable {env : Env} {ls : Lockspace}

theorem Named.purgePlocks {nodeid : Int32}
    (named : Everywhere (Named env.ourNodeid known) ls) :
    Everywhere (Named env.ourNodeid fun n => known n ∧ n ≠ nodeid)
      (purgePlocks env ls nodeid false).1 :=
  Everywhere.purgePlocks named fun _ here _ kept => here.purge kept

theorem Named.dropResources {aged : UInt64 → Bool}
    (named : Everywhere (Named env.ourNodeid known) ls) :
    Everywhere (Named env.ourNodeid known) (dropResources env aged ls).1 :=
  Everywhere.dropResources named (fun _ here => here.dropResource) aged

end Lockspaces

end Dlm.Plock
