import Dlm.Cluster.Announce
import Dlm.Plock.History

/-!
# What a node has granted stays in its table

A node that owns the resource, or takes it for unowned, has the locks of all
its operations that stand in its table; in every other state none of its
operations stands.  Each handler keeps this, and sends no operation that the
node has not read from the kernel.
-/

namespace Dlm.Cluster

open Plock Broadcast

/-- The locks of the resource count for the node. -/
def Active (env : Env) (r : Resource) : Prop :=
  r.owner = 0 ∨ r.owner = env.ourNodeid

/-- The resource has what stands, and its operations are those that the node
has read. -/
structure Upholds (env : Env) (reads : List Info)
    (answers : List (Info × Int)) (r : Resource) : Prop where
  active : Active env r →
    Kept env.ourNodeid reads answers r.locks ∧ ResourceSafe r
  idle : ¬Active env r → Kept env.ourNodeid reads answers []
  pending : ∀ info ∈ r.pending, info ∈ reads
  queued : Queued env reads r.waiters

def SlotUpholds (env : Env) (reads : List Info)
    (answers : List (Info × Int)) : Option Resource → Prop
  | none => Kept env.ourNodeid reads answers []
  | some r => Upholds env reads answers r

/-- The result of a handler. -/
structure Upheld (env : Env) (reads : List Info)
    (answers : List (Info × Int)) (result : Option Resource × List Effect) :
    Prop where
  slot : SlotUpholds env reads (answers ++ writtenBy result.2) result.1
  sent : ∀ body ∈ bodies result.2, body.type = .plock → body.info ∈ reads

section Handlers

variable {env : Env} {reads : List Info} {answers : List (Info × Int)}
variable {slot : Option Resource} {r s : Resource} {info : Info}

theorem Upheld.unchanged (upholds : SlotUpholds env reads answers slot) :
    Upheld env reads answers (slot, []) := by
  constructor
  · simpa using upholds
  · simp

/-- A handler that writes no result and only sends what is listed. -/
theorem Upheld.silent {effects : List Effect}
    (upholds : SlotUpholds env reads answers slot)
    (unwritten : writtenBy effects = [])
    (sent : ∀ body ∈ bodies effects, body.type = .plock →
      body.info ∈ reads) :
    Upheld env reads answers (slot, effects) := by
  constructor
  · rw [unwritten, List.append_nil]
    exact upholds
  · exact sent

/-- Changes that the table does not show. -/
theorem Upholds.same_table (upholds : Upholds env reads answers r)
    (same : s.table = r.table) (owner : Active env s ↔ Active env r)
    (pending : ∀ info ∈ s.pending, info ∈ reads)
    (queued : Queued env reads s.waiters) : Upholds env reads answers s := by
  constructor
  · intro active
    obtain ⟨kept, safe⟩ := upholds.active (owner.mp active)
    constructor
    · rw [← kept_plain] at kept ⊢
      have locks := congrArg Table.locks same
      rw [show s.locks.map plainLock = r.locks.map plainLock from locks]
      exact kept
    · rw [← tableSafe_iff] at safe ⊢
      rw [same]
      exact safe
  · intro idle
    exact upholds.idle fun active => idle (owner.mpr active)
  · exact pending
  · exact queued

/-- Operations that wait are one more. -/
theorem Upholds.savePending (upholds : Upholds env reads answers r)
    (listed : info ∈ reads) :
    Upholds env reads answers (savePendingPlock r info) := by
  refine upholds.same_table (s := savePendingPlock r info) rfl Iff.rfl ?_ ?_
  · intro other member
    rcases List.mem_append.mp member with old | new
    · exact upholds.pending other old
    · rw [List.mem_singleton.mp new]
      exact listed
  · exact upholds.queued

theorem receivePlock2_upheld {sender : Int32}
    (ownership : env.plockOwnership = true) (active : Active env r)
    (upholds : Upholds env reads answers r) (valid : info.Valid)
    (listed : info.nodeid = env.ourNodeid → info ∈ reads)
    (fresh : Fresh env answers (info :: r.waiters.map LockWaiter.info)) :
    Upheld env reads answers (receivePlock2 env info sender r) := by
  obtain ⟨kept, safe⟩ := upholds.active active
  constructor
  · rw [receivePlock2_owned ownership]
    constructor
    · intro _
      exact ⟨kept.receivePlock2 safe valid listed upholds.queued fresh,
        safe.afterPlock valid⟩
    · intro idle
      apply absurd active
      simpa [Active] using idle
    · rw [afterPlock_pending]
      exact upholds.pending
    · exact upholds.queued.afterPlock listed
  · simp

theorem receivePlockFound_upheld (ownership : env.plockOwnership = true)
    (upholds : Upholds env reads answers r) (valid : info.Valid)
    (listed : info.nodeid = env.ourNodeid → info ∈ reads)
    (fresh : Fresh env answers (info :: r.waiters.map LockWaiter.info)) :
    Upheld env reads answers (receivePlockFound env info info.nodeid r) := by
  have exit := receivePlockFound_exit env info info.nodeid r
  generalize receivePlockFound env info info.nodeid r = result at exit ⊢
  cases exit with
  | executed runs =>
      have active : r.owner = 0 ∨ r.owner = env.ourNodeid :=
        runs.imp_right fun held => held.2.1
      exact receivePlock2_upheld ownership active upholds valid listed fresh
  | saved _ _ ours => exact .unchanged (upholds.savePending (listed ours))
  | ignored => exact .unchanged upholds

theorem Upholds.new (nothing : Kept env.ourNodeid reads answers [])
    (number : UInt64) :
    Upholds env reads answers (newResource env number) := by
  constructor
  · intro _
    exact ⟨nothing, .new env number⟩
  · intro _
    exact nothing
  · intro info member
    cases member
  · intro w member
    cases member

theorem SlotUpholds.getD (upholds : SlotUpholds env reads answers slot)
    (number : UInt64) :
    Upholds env reads answers (slot.getD (newResource env number)) := by
  cases slot with
  | none => exact .new upholds number
  | some r => exact upholds

/-- No operation is sent among the effects. -/
theorem sendOwn_sent (owner : Int32) :
    ∀ body ∈ bodies (sendOwn r owner), body.type ≠ .plock := by
  unfold sendOwn
  split
  · intro body member
    rw [List.mem_singleton.mp member]
    exact MsgType.noConfusion
  · intro body member
    cases member

theorem sendOwn_unwritten (owner : Int32) :
    writtenBy (sendOwn r owner) = [] := by
  unfold sendOwn
  split
  · rfl
  · rfl

theorem receivePlock1_upheld {message : Message}
    (ownership : env.plockOwnership = true)
    (upholds : SlotUpholds env reads answers slot)
    (valid : message.info.Valid)
    (listed : message.info.nodeid = env.ourNodeid → message.info ∈ reads)
    (fresh : ∀ r, slot = some r →
      Fresh env answers (message.info :: r.waiters.map LockWaiter.info)) :
    Upheld env reads answers (receivePlock1 env message slot) := by
  unfold receivePlock1
  dsimp only
  split
  · exact .unchanged upholds
  · split
    · exact .unchanged upholds
    · rename_i honest
      rw [not_ne_iff.mp honest, ownership]
      cases slot with
      | none =>
          dsimp only [findResource, Bool.not_true]
          rw [if_neg (by decide)]
          dsimp only
          split
          · exact .unchanged upholds
          · rename_i ours
            apply Upheld.silent
            · exact (Upholds.new upholds _).savePending
                (listed (not_ne_iff.mp ours))
            · exact sendOwn_unwritten _
            · intro body member plock
              exact absurd plock (sendOwn_sent _ body member)
      | some r =>
          exact receivePlockFound_upheld ownership upholds valid listed
            (fresh r rfl)

/-- The pending operations are sent. -/
theorem sendPending_upheld (upholds : Upholds env reads answers r) :
    Upheld env reads answers
      (some (sendPendingPlocks r).1, (sendPendingPlocks r).2) := by
  apply Upheld.silent
  · refine upholds.same_table (s := (sendPendingPlocks r).1) rfl Iff.rfl ?_
      upholds.queued
    intro info member
    cases member
  · simp [sendPendingPlocks, writtenBy, List.filterMap_map,
      Function.comp_def, sendPlock, sendStructInfo]
  · intro body member _
    rw [bodies_sendPendingPlocks] at member
    obtain ⟨info, found, rfl⟩ := List.mem_map.mp member
    exact upholds.pending info found

/-- The node becomes the owner of an empty resource and carries out what was
pending. -/
theorem addPending_upheld (ownership : env.plockOwnership = true)
    (upholds : Upholds env reads answers r)
    (valid : ∀ info ∈ reads, info.Valid)
    (unclaimed : ¬Active env r) (locks : r.locks = [])
    (waiters : r.waiters = []) (fresh : Fresh env answers r.pending) :
    Upheld env reads answers
      (addPendingPlocks env { r with owner := env.ourNodeid }) := by
  have kept := upholds.idle unclaimed
  let claimant : Resource :=
    { r with owner := env.ourNodeid, pending := [] }
  have empty : ResourceSafe claimant := by
    constructor
    · dsimp only [claimant]
      rw [locks]
      exact Safe.nil
    · dsimp only [claimant]
      rw [waiters]
      intro w member
      cases member
  obtain ⟨s, reached, safe, owner, pending, queued, sKept⟩ :=
    Kept.addPendingLoop (r := claimant) ownership (kept.of_nil _) empty
      (fun info member => valid info (upholds.pending info member))
      upholds.pending upholds.queued
      (by simpa [claimant, waiters] using fresh)
  constructor
  · have slot : (addPendingPlocks env
        { r with owner := env.ourNodeid }).1 = some s := reached
    rw [slot]
    constructor
    · intro _
      exact ⟨sKept, safe⟩
    · intro idle
      exact absurd (.inr owner) idle
    · rw [pending]
      intro info member
      cases member
    · exact queued
  · rw [addPendingPlocks, bodies_addPendingLoop ownership]
    simp

theorem receiveOwnFromUs_upheld (ownership : env.plockOwnership = true)
    (upholds : Upholds env reads answers r)
    (valid : ∀ info ∈ reads, info.Valid)
    (unclaimed : r.owner = -1 →
      ¬Active env r ∧ r.locks = [] ∧ r.waiters = [])
    (fresh : Fresh env answers r.pending) :
    Upheld env reads answers (receiveOwnFromUs env info r) := by
  unfold receiveOwnFromUs
  split
  · split
    · exact .unchanged upholds
    · split
      · apply Upheld.unchanged
        exact upholds.same_table (s := { r with gotUnown := true }) rfl
          Iff.rfl upholds.pending upholds.queued
      · exact .unchanged upholds
  · split
    · split
      · rename_i nobody
        obtain ⟨idle, locks, waiters⟩ := unclaimed nobody
        exact addPending_upheld ownership upholds valid idle locks waiters
          fresh
      · split
        · exact .unchanged upholds
        · split
          · exact sendPending_upheld upholds
          · exact .unchanged upholds
    · exact .unchanged upholds

/-- The owner gives up the resource. -/
theorem relinquish_upheld (upholds : Upholds env reads answers r)
    (ours : r.owner = env.ourNodeid) :
    Upheld env reads answers
      (some { (sendSyncs r).1 with owner := 0 },
        (sendSyncs r).2 ++ sendOwn (sendSyncs r).1 0) := by
  apply Upheld.silent
  · refine upholds.same_table (s := { (sendSyncs r).1 with owner := 0 })
      ?_ ?_ upholds.pending ?_
    · simp [sendSyncs, Resource.table, plainLock, plainWaiter]
    · exact iff_of_true (.inl rfl) (.inr ours)
    · apply upholds.queued.same_infos
      simp [sendSyncs]
  · rw [writtenBy_append, sendOwn_unwritten, List.append_nil]
    simp [sendSyncs, writtenBy, List.filterMap_map, sendStructInfo]
  · intro body member plock
    rw [bodies_append] at member
    rcases List.mem_append.mp member with synced | released
    · rw [bodies_sendSyncs] at synced
      rcases List.mem_append.mp synced with lock | waiter
      · obtain ⟨po, _, rfl⟩ := List.mem_map.mp lock
        cases plock
      · obtain ⟨w, _, rfl⟩ := List.mem_map.mp waiter
        cases plock
    · exact absurd plock (sendOwn_sent 0 body released)

theorem receiveOwnFromOther_upheld {sender : Int32}
    (upholds : Upholds env reads answers r)
    (other : sender ≠ env.ourNodeid) (named : sender ≠ 0)
    (unclaimed : r.owner = -1 → ¬Active env r)
    (handed : info.nodeid = 0 → ¬Active env r → r.owner ≠ -1 →
      ResourceSafe r) :
    Upheld env reads answers (receiveOwnFromOther env info sender r) := by
  unfold receiveOwnFromOther
  split
  · rename_i released
    split
    · exact .unchanged upholds
    · split
      · exact .unchanged upholds
      · split
        · exact .unchanged upholds
        · rename_i claimed notOurs owned
          have idle : ¬Active env r := by
            rintro (unowned | ours)
            · exact owned unowned
            · exact notOurs ours
          apply sendPending_upheld
            (r := { r with owner := 0, gotUnown := true })
          constructor
          · intro _
            have safe := handed released idle claimed
            exact ⟨(upholds.idle idle).of_nil _, safe.locks, safe.waiters⟩
          · intro waiting
            exact absurd (.inl rfl) waiting
          · exact upholds.pending
          · exact upholds.queued
  · split
    · split
      · rename_i nobody
        have idle := upholds.idle (unclaimed nobody)
        apply Upheld.unchanged
        constructor
        · rintro (zero | ours)
          · exact absurd zero named
          · exact absurd ours other
        · intro _
          exact idle
        · exact upholds.pending
        · exact upholds.queued
      · split
        · rename_i ours
          exact relinquish_upheld upholds ours
        · exact .unchanged upholds
    · exact .unchanged upholds

theorem receiveSync1_upheld {message : Message}
    (upholds : SlotUpholds env reads answers slot)
    (foreign : message.nodeid ≠ env.ourNodeid →
      message.info.nodeid ≠ env.ourNodeid ∧
        ∀ r, slot = some r → ¬Active env r) :
    Upheld env reads answers (receiveSync1 env message slot) := by
  unfold receiveSync1
  cases slot with
  | none => exact .unchanged upholds
  | some r =>
      dsimp only
      split
      · apply Upheld.unchanged
        obtain ⟨_, infos⟩ := clearSyncingFlag_plain r message.info
        refine Upholds.same_table (s := clearSyncingFlag r message.info)
          upholds (clearSyncingFlag_table r message.info) ?_ ?_
          (upholds.queued.same_infos infos)
        · rw [clearSyncingFlag_frame]
          exact Iff.rfl
        · rw [clearSyncingFlag_frame]
          exact upholds.pending
      · rename_i other
        obtain ⟨named, idle⟩ := foreign other
        have inactive := idle r rfl
        split
        · apply Upheld.unchanged
          constructor
          · exact fun active => absurd active inactive
          · exact fun _ => upholds.idle inactive
          · exact upholds.pending
          · exact upholds.queued
        · split
          · apply Upheld.unchanged
            constructor
            · exact fun active => absurd active inactive
            · exact fun _ => upholds.idle inactive
            · exact upholds.pending
            · intro w member
              rcases List.mem_append.mp member with old | new
              · exact upholds.queued w old
              · rw [List.mem_singleton.mp new]
                exact fun ours => absurd ours named
          · exact .unchanged upholds

theorem receiveDrop1_upheld (upholds : SlotUpholds env reads answers slot) :
    Upheld env reads answers (receiveDrop1 slot, []) := by
  unfold receiveDrop1
  cases slot with
  | none => exact .unchanged upholds
  | some r =>
      dsimp only
      split
      · exact .unchanged upholds
      · rename_i unowned
        split
        · exact .unchanged upholds
        · split
          · rename_i unused
            simp only [Bool.and_eq_true, List.isEmpty_iff] at unused
            have kept := (upholds.active (.inl (not_ne_iff.mp unowned))).1
            rw [unused.1] at kept
            exact Upheld.unchanged kept
          · exact .unchanged upholds

theorem dropResource_upheld (upholds : Upholds env reads answers r) :
    Upheld env reads answers
      (some (dropResource env r).1, (dropResource env r).2) := by
  unfold dropResource
  split
  · rename_i ours
    apply Upheld.silent
    · exact upholds.same_table (s := { r with owner := 0 }) rfl
        (iff_of_true (.inl rfl) (.inr ours)) upholds.pending upholds.queued
    · exact sendOwn_unwritten 0
    · exact fun body member plock => absurd plock (sendOwn_sent 0 body member)
  · split
    · apply Upheld.silent
      · exact upholds
      · rfl
      · intro body member plock
        rw [List.mem_singleton.mp member] at plock
        cases plock
    · exact .unchanged upholds

/-- A new operation is read. -/
theorem Upholds.more_reads (upholds : Upholds env reads answers r)
    (more : List Info) : Upholds env (reads ++ more) answers r := by
  constructor
  · intro active
    obtain ⟨kept, safe⟩ := upholds.active active
    exact ⟨kept.more_reads more, safe⟩
  · intro idle
    exact (upholds.idle idle).more_reads more
  · intro info member
    exact List.mem_append_left _ (upholds.pending info member)
  · intro w member ours
    obtain ⟨listed, lock⟩ := upholds.queued w member ours
    exact ⟨List.mem_append_left _ listed, lock⟩

theorem processPlock_upheld (ownership : env.plockOwnership = true)
    (upholds : SlotUpholds env reads answers slot) (valid : info.Valid)
    (fresh : ∀ r, slot = some r →
      Fresh env answers (info :: r.waiters.map LockWaiter.info))
    (first : Fresh env answers [info]) :
    Upheld env (reads ++ [info]) answers (processPlock env info slot) := by
  have found := (upholds.getD info.number).more_reads [info]
  have listed : info ∈ reads ++ [info] := by simp
  have once : Fresh env answers (info ::
      (slot.getD (newResource env info.number)).waiters.map
        LockWaiter.info) := by
    cases slot with
    | none => exact first
    | some r => exact fresh r rfl
  unfold processPlock
  generalize slot.getD (newResource env info.number) = r at *
  dsimp only
  split
  · apply Upheld.silent
    · exact found
    · rfl
    · intro body member _
      rw [List.mem_singleton.mp member]
      exact listed
  · split
    · rename_i ours
      exact receivePlock2_upheld ownership (.inr ours) found valid
        (fun _ => listed) once
    · apply Upheld.silent
      · exact found.savePending listed
      · exact sendOwn_unwritten _
      · exact fun body member plock =>
          absurd plock (sendOwn_sent _ body member)

end Handlers

end Dlm.Cluster
