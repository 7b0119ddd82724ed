import Dlm.Cluster.Announce
import Dlm.Plock.Wakeup

/-!
# Operations, drops and failures

What a node does of its own accord and when another node fails keeps the
relation to the agreed state.
-/

namespace Dlm.Cluster

open Plock Broadcast

section Steps

variable {c : Config} {mode : Mode} {n : Nodeid} {r : Resource}
variable {slot : Option Resource} {out : List Body} {g : Agreed}
variable {info : Info} {body : Body}

/-- An operation read from the kernel. -/
theorem Config.Follows.read (follows : c.Follows mode n slot out g)
    (nodeid : info.nodeid = n.val) (named : info.number = c.number) :
    c.Follows mode n (processPlock (c.env n) info slot).1
      (out ++ bodies (processPlock (c.env n) info slot).2) g := by
  have queued {r : Resource} (unshared : r.owner ≠ 0)
      (notOurs : r.owner ≠ n.val) :
      processPlock (c.env n) info (some r) =
        (some (savePendingPlock r info), sendOwn r n.val) := by
    simp [processPlock, c.ourNodeid, unshared, notOurs]
  have sent {r : Resource} (shared : r.owner = 0) :
      processPlock (c.env n) info (some r) = (some r, [sendPlock info]) := by
    simp [processPlock, shared]
  have saved {pending : List Info} (waits : c.Waits n pending) :
      c.Waits n (pending ++ [info]) :=
    List.forall_mem_append.mpr
      ⟨waits, List.forall_mem_singleton.mpr ⟨nodeid, named⟩⟩
  have operation : ∀ body ∈ bodies [sendPlock info], c.Late mode n body :=
    List.forall_mem_singleton.mpr ⟨named, .inr (.inl ⟨rfl, nodeid⟩)⟩
  cases follows with
  | absent early =>
      have created : processPlock (c.env n) info none =
          processPlock (c.env n) info
            (some (newResource (c.env n) info.number)) := rfl
      have unclaimed : (newResource (c.env n) info.number).owner = -1 := by
        simp [newResource, c.ownership]
      have first : c.Waits n [] := by simp [Config.Waits]
      have claim : ∀ body ∈ bodies
          (sendOwn (newResource (c.env n) info.number) n.val),
          c.Early mode n body := sendOwn_early named
      rw [created, queued (by rw [unclaimed]; decide)
        (by rw [unclaimed]; exact Ne.symm n.ne_minus_one)]
      exact .unclaimed named unclaimed rfl rfl rfl (saved first)
        (List.forall_mem_append.mpr ⟨early, claim⟩)
  | unclaimed number owner got locks waiters waits early =>
      rw [queued (by rw [owner]; decide)
        (by rw [owner]; exact Ne.symm n.ne_minus_one)]
      refine .unclaimed number owner got locks waiters (saved waits) ?_
      exact List.forall_mem_append.mpr ⟨early, sendOwn_early number⟩
  | @follower r _ holder asked table other number owner got same unflagged
      waits early =>
      rw [queued (by rw [owner]; exact holder.ne_zero)
        (by rw [owner]; exact fun equal => other (Subtype.ext equal))]
      refine .follower other number owner got same unflagged (saved waits) ?_
      exact List.forall_mem_append.mpr ⟨early, sendOwn_early number⟩
  | @owner r _ number owner got pending holding early =>
      have executed : processPlock (c.env n) info (some r) =
          receivePlock2 (c.env n) info n.val r := by
        simp [processPlock, c.ourNodeid, owner, n.ne_zero]
      rw [executed, bodies_receivePlock2, receivePlock2_owned (c.ownership n),
        List.append_nil]
      exact .owner (by simpa using number) (by simpa using owner)
        (by simpa using got) (by simpa using pending)
        (holding.afterPlock nodeid named) early
  | releasing locks waiters before after number owner got pending holding
      order flagged early late split same =>
      rw [sent owner]
      refine .releasing locks waiters before
        (after ++ bodies [sendPlock info]) number owner got pending holding
        order flagged early ?_ ?_ same
      · exact List.forall_mem_append.mpr ⟨late, operation⟩
      · rw [split]
        simp
  | shared number owner pending same unflagged late =>
      rw [sent owner]
      exact .shared number owner pending same unflagged
        (List.forall_mem_append.mpr ⟨late, operation⟩)

/-- `drop_resources` on an unused resource. -/
theorem Config.Follows.dropResource
    (follows : c.Follows mode n (some r) out g)
    (unused : r.locks = [] ∧ r.waiters = [])
    (permitted : mode.drops = false →
      ¬(r.owner = 0 ∧ r.gotUnown = true)) :
    c.Follows mode n (some (dropResource (c.env n) r).1)
      (out ++ bodies (dropResource (c.env n) r).2) g := by
  have unchanged (notOurs : r.owner ≠ n.val)
      (held : ¬(r.owner = 0 ∧ r.gotUnown = true)) :
      Plock.dropResource (c.env n) r = (r, []) := by
    rw [Plock.dropResource, c.ourNodeid, if_neg notOurs, if_neg held]
  cases follows with
  | unclaimed number owner got locks waiters waits early =>
      rw [unchanged (by rw [owner]; exact Ne.symm n.ne_minus_one)
        (by rw [owner]; exact fun held => absurd held.1 (by decide)),
        bodies_nil, List.append_nil]
      exact .unclaimed number owner got locks waiters waits early
  | @follower _ _ holder asked table other number owner got same unflagged
      waits early =>
      rw [unchanged
        (by rw [owner]; exact fun equal => other (Subtype.ext equal))
        (by rw [owner]; exact fun held => holder.ne_zero held.1),
        bodies_nil, List.append_nil]
      exact .follower other number owner got same unflagged waits early
  | owner number owner got pending holding early =>
      have released : Plock.dropResource (c.env n) r =
          ({ r with owner := 0 }, sendOwn r 0) := by
        simp [Plock.dropResource, c.ourNodeid, owner]
      have sent : bodies (sendOwn r 0) = [releaseBody c.number] := by
        simp [sendOwn, pending, sendStructInfo, releaseBody, number]
      have empty : announcements { r with owner := 0 } 0 0 = [] := by
        simp [announcements, unused]
      rw [released]
      refine .releasing 0 0 out [] number rfl got pending
        ⟨holding.number, holding.locks, holding.waiters⟩ (fun _ => rfl) ?_
        early (by simp) ?_ rfl
      · intro _
        simp [unused]
      · rw [empty, sent]
        rfl
  | releasing locks waiters before after number owner got pending holding
      order flagged early late split same =>
      rw [unchanged (by rw [owner]; exact Ne.symm n.ne_zero)
        (by rw [got]; exact fun held => absurd held.2 (by decide)),
        bodies_nil, List.append_nil]
      exact .releasing locks waiters before after number owner got pending
        holding order flagged early late split same
  | shared number owner pending same unflagged late =>
      by_cases got : r.gotUnown = true
      · have sent : Plock.dropResource (c.env n) r = (r, [sendDrop r]) := by
          simp [Plock.dropResource, c.ourNodeid, owner, Ne.symm n.ne_zero,
            got]
        have drops : mode.drops = true := by
          cases kept : mode.drops with
          | true => rfl
          | false => exact absurd ⟨owner, got⟩ (permitted kept)
        have drop : ∀ body ∈ bodies [sendDrop r], c.Late mode n body :=
          List.forall_mem_singleton.mpr
            ⟨number, .inr (.inr ⟨drops, rfl⟩)⟩
        rw [sent]
        exact .shared number owner pending same unflagged
          (List.forall_mem_append.mpr ⟨late, drop⟩)
      · rw [unchanged (by rw [owner]; exact Ne.symm n.ne_zero)
          (fun held => got held.2), bodies_nil, List.append_nil]
        exact .shared number owner pending same unflagged late

section Purge

variable {node : Nodeid}

/-- With ownership a purge never frees the resource. -/
theorem purgeResource_owned :
    purgeResource (c.env n) node.val false r =
      (some (doWaiters (c.env n)
          (purgeOwner node.val (purgeEntries node.val false r)).1).1,
        (purgeOwner node.val (purgeEntries node.val false r)).2 ++
          (doWaiters (c.env n)
            (purgeOwner node.val (purgeEntries node.val false r)).1).2) := by
  rw [purgeResource_eq]
  simp [putResource, c.ownership]

theorem Mode.Unflagged.purge (unflagged : mode.Unflagged n r) (env : Env)
    (nodeid : Int32) :
    mode.Unflagged n (doWaiters env (purgeEntries nodeid false r)).1 := by
  intro stores
  obtain ⟨locks, waiters⟩ := unflagged stores
  refine ⟨?_, ?_⟩
  · apply doWaitersLoop_forall (P := fun po => po.syncing = false)
      (fun _ _ _ _ has => has) env _ (fun _ _ _ _ _ => rfl)
    exact fun po member => locks po (List.mem_of_mem_filter member)
  · intro w member
    have purged := (doWaitersLoop_sublist _ _ _).mem member
    exact waiters w (List.mem_of_mem_filter purged)

theorem Config.Holding.purge (holding : c.Holding mode n r) (env : Env)
    (nodeid : Int32) :
    c.Holding mode n (doWaiters env (purgeEntries nodeid false r)).1 := by
  have kept {w : LockWaiter} (member : w ∈
      (doWaiters env (purgeEntries nodeid false r)).1.waiters) :
      w ∈ r.waiters := by
    have purged := (doWaitersLoop_sublist _ _ _).mem member
    exact List.mem_of_mem_filter purged
  refine ⟨fun w member => holding.number w (kept member), ?_,
    fun confined w member => holding.waiters confined w (kept member)⟩
  intro confined
  apply doWaitersLoop_forall (P := fun po => po.nodeid = n.val)
    (fun _ _ _ _ has => has) env
  · exact fun po member =>
      holding.locks confined po (List.mem_of_mem_filter member)
  · intro w member _ _ _
    exact holding.waiters confined w (List.mem_of_mem_filter member)

/-- Nothing is purged from a list without entries of the node. -/
theorem filter_foreign {α : Type} {nodeidOf : α → Int32} {entries : List α}
    {nodeid : Int32} (foreign : ∀ entry ∈ entries, nodeidOf entry ≠ nodeid) :
    entries.filter (fun entry => !(nodeidOf entry == nodeid || false)) =
      entries := by
  apply List.filter_eq_self.mpr
  intro entry member
  simpa using foreign entry member

/-- A table that holds nothing of the failed node and whose waiters are all
blocked is not changed by its removal. -/
theorem Table.remove_eq_self {table : Table} {nodeid : Int32}
    (locks : ∀ po ∈ table.locks, po.nodeid ≠ nodeid)
    (waiters : ∀ w ∈ table.waiters, w.info.nodeid ≠ nodeid)
    (blocked : ∀ w ∈ table.waiters,
      (isConflict table.locks w.info false).1 = true) :
    table.remove nodeid = table := by
  have kept : table.purge nodeid false = table := by
    rw [Table.purge, filter_foreign locks, filter_foreign waiters]
  rw [Table.remove, kept, Table.wake, doWaitersLoop_of_blocked _ blocked]

theorem Config.Holding.purgeEntries_eq_self (holding : c.Holding mode n r)
    (confined : mode.foreign = false) {nodeid : Int32}
    (foreign : n.val ≠ nodeid) : purgeEntries nodeid false r = r := by
  have locks : ∀ po ∈ r.locks, po.nodeid ≠ nodeid := by
    intro po member
    rw [holding.locks confined po member]
    exact foreign
  have waiters : ∀ w ∈ r.waiters, w.info.nodeid ≠ nodeid := by
    intro w member
    rw [holding.waiters confined w member]
    exact foreign
  rw [purgeEntries, filter_foreign locks, filter_foreign waiters]

/-- What a releasing owner has announced is not changed by the failure of
another node. -/
theorem Config.Holding.cut_remove (holding : c.Holding mode n r)
    (confined : mode.foreign = false) {nodeid : Int32}
    (foreign : n.val ≠ nodeid) (blocked : AllBlocked r)
    {locks waiters : Nat} (order : locks < r.locks.length → waiters = 0) :
    (r.table.cut locks waiters).remove nodeid =
      r.table.cut locks waiters := by
  apply Table.remove_eq_self
  · intro po member
    obtain ⟨old, found, rfl⟩ :=
      List.mem_map.mp (List.mem_of_mem_take member)
    rw [plainLock_nodeid, holding.locks confined old found]
    exact foreign
  · intro w member
    obtain ⟨old, found, rfl⟩ :=
      List.mem_map.mp (List.mem_of_mem_take member)
    have nodeid : (plainWaiter old).info.nodeid = n.val :=
      holding.waiters confined old found
    rw [nodeid]
    exact foreign
  · intro w member
    rcases Nat.lt_or_ge locks r.locks.length with inside | beyond
    · rw [order inside] at member
      simp [Table.cut] at member
    · obtain ⟨old, found, rfl⟩ :=
        List.mem_map.mp (List.mem_of_mem_take member)
      have whole : (r.table.cut locks waiters).locks =
          r.locks.map plainLock :=
        List.take_of_length_le (by simpa [Resource.table] using beyond)
      rw [whole, isConflict_plainLock]
      exact (isConflict_plainInfo r.locks old.info).trans (blocked old found)

/-- The failure of another node. -/
theorem Config.Follows.purge (follows : c.Follows mode n (some r) out g)
    (other : node ≠ n) (confined : mode.foreign = false)
    (blocked : releaseBody c.number ∈ out → AllBlocked r) :
    c.Follows mode n (purgeResource (c.env n) node.val false r).1
      (out ++ bodies (purgeResource (c.env n) node.val false r).2)
      (g.remove node) := by
  have kept (notTheirs : r.owner ≠ node.val) :
      purgeOwner node.val (purgeEntries node.val false r) =
        (purgeEntries node.val false r, []) := by
    simp [purgeOwner, purgeEntries, notTheirs]
  have table : (doWaiters (c.env n) (purgeEntries node.val false r)).1.table =
      r.table.remove node.val := by
    rw [doWaiters_table, purgeEntries_table]
    rfl
  have foreign : n.val ≠ node.val := fun same => other (Subtype.ext same.symm)
  rw [purgeResource_owned]
  cases follows with
  | unclaimed number owner got locks waiters waits early =>
      rw [kept (by rw [owner]; exact Ne.symm node.ne_minus_one)]
      simp only [bodies_append, bodies_nil, bodies_doWaiters, List.append_nil]
      refine .unclaimed number owner got ?_ ?_ waits early
      · simp [doWaiters, purgeEntries, locks, waiters, doWaitersLoop]
      · simp [doWaiters, purgeEntries, locks, waiters, doWaitersLoop]
  | @follower _ _ holder asked shown notUs number owner got same unflagged
      waits early =>
      by_cases theirs : holder = node
      · let freed : Resource :=
          { purgeEntries node.val false r with owner := 0 }
        have released : purgeOwner node.val (purgeEntries node.val false r) =
            sendPendingPlocks freed := by
          simp [purgeOwner, purgeEntries, owner, theirs, freed]
        rw [released]
        simp only [Agreed.remove, theirs, if_true, bodies_append,
          bodies_doWaiters, List.append_nil]
        refine .shared number rfl rfl ?_ ?_ ?_
        · rw [← same]
          exact table
        · exact unflagged.purge (c.env n) node.val
        · exact List.forall_mem_append.mpr
            ⟨fun body member => (early body member).late,
              @sendPending_late c mode n freed waits⟩
      · rw [kept (by rw [owner]; exact fun equal => theirs (Subtype.ext equal))]
        simp only [Agreed.remove, theirs, if_false, bodies_append, bodies_nil,
          bodies_doWaiters, List.append_nil]
        refine .follower notUs number owner got ?_
          (unflagged.purge (c.env n) node.val) waits early
        rw [← same]
        exact table
  | owner number owner got pending holding early =>
      rw [kept (by rw [owner]; exact foreign)]
      simp only [Agreed.remove, Ne.symm other, if_false, bodies_append,
        bodies_nil, bodies_doWaiters, List.append_nil]
      exact .owner number owner got pending
        (holding.purge (c.env n) node.val) early
  | @releasing _ _ asked shown locks waiters before after number owner got
      pending holding order flagged early late split same =>
      have allBlocked := blocked (by rw [split]; simp)
      rw [kept (by rw [owner]; exact Ne.symm node.ne_zero),
        holding.purgeEntries_eq_self confined foreign,
        allBlocked.doWaiters_eq]
      simp only [Agreed.remove, Ne.symm other, if_false, bodies_nil,
        List.append_nil, ← same]
      rw [holding.cut_remove confined foreign allBlocked order]
      exact .releasing locks waiters before after number owner got pending
        holding order flagged early late split rfl
  | shared number owner pending same unflagged late =>
      rw [kept (by rw [owner]; exact Ne.symm node.ne_zero)]
      simp only [Agreed.remove, bodies_append, bodies_nil, bodies_doWaiters,
        List.append_nil]
      refine .shared number owner pending ?_
        (unflagged.purge (c.env n) node.val) late
      rw [← same]
      exact table

end Purge

end Steps

end Dlm.Cluster
