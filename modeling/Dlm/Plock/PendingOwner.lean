import Dlm.Plock.NodeRun
import Dlm.Plock.Transitions

/-!
# Pending operations and the owner

An operation is put aside while the owner of its resource is unknown or another
node.  Every transition to owner 0 or to the node itself empties the pending
list, so the tests that `send_own` and `_receive_drop` make of that list never
stand in the way of a relinquished or an unowned resource.
-/

namespace Dlm.Plock

/-- A resource with pending operations is not unowned and not ours. -/
def OwnedElsewhere (env : Env) (r : Resource) : Prop :=
  r.pending ≠ [] → r.owner ≠ 0 ∧ r.owner ≠ env.ourNodeid

namespace OwnedElsewhere

variable {env : Env} {r s : Resource} {slot : Option Resource}

theorem flushed (empty : r.pending = []) : OwnedElsewhere env r :=
  fun waiting => (waiting empty).elim

/-- Only the owner and the pending list count. -/
theorem frame (here : OwnedElsewhere env r) (owner : s.owner = r.owner)
    (pending : s.pending = r.pending) : OwnedElsewhere env s := by
  rw [OwnedElsewhere, owner, pending]
  exact here

theorem saved (owned : r.owner ≠ 0) (foreign : r.owner ≠ env.ourNodeid)
    (info : Info) : OwnedElsewhere env (savePendingPlock r info) :=
  fun _ => ⟨owned, foreign⟩

theorem executed (here : OwnedElsewhere env r) (info : Info)
    (sender : Int32) :
    SlotHolds (OwnedElsewhere env) (receivePlock2 env info sender r).1 :=
  .executed (here.frame (afterPlock_owner ..) (afterPlock_pending ..))

theorem pending_eq_nil (here : OwnedElsewhere env r)
    (ours : r.owner = 0 ∨ r.owner = env.ourNodeid) : r.pending = [] := by
  by_contra waiting
  obtain ⟨owned, foreign⟩ := here waiting
  rcases ours with unowned | us
  · exact owned unowned
  · exact foreign us

/-- With ownership a new resource has an unknown owner. -/
theorem newResource_owner (ownership : env.plockOwnership = true)
    (number : UInt64) : (newResource env number).owner = -1 := by
  rw [newResource, ownership]
  rfl

theorem find {number : UInt64} {create : Bool}
    (here : SlotHolds (OwnedElsewhere env) slot)
    (found : findResource env number create slot = some r) :
    OwnedElsewhere env r := by
  rcases findResource_eq_some found with rfl | ⟨_, rfl⟩
  · exact here r rfl
  · exact flushed rfl

theorem receivePlock1 (ownership : env.plockOwnership = true)
    (known : env.ourNodeid ≠ -1) (message : Message)
    (here : SlotHolds (OwnedElsewhere env) slot) :
    SlotHolds (OwnedElsewhere env) (receivePlock1 env message slot).1 := by
  unfold Plock.receivePlock1
  dsimp only
  split
  · exact here
  · split
    · exact here
    · split
      · split
        · exact .none
        · have unknown := newResource_owner ownership message.info.number
          apply SlotHolds.some
          apply saved
          · rw [unknown]
            decide
          · rw [unknown]
            exact known.symm
      · rename_i r found
        have present := find here found
        have exit := receivePlockFound_exit env message.info message.nodeid r
        generalize receivePlockFound env message.info message.nodeid r =
          result at exit ⊢
        cases exit with
        | executed => exact present.executed message.info message.nodeid
        | saved owned waits =>
            apply SlotHolds.some
            apply saved owned
            rcases waits with unknown | foreign
            · rw [unknown]
              exact known.symm
            · exact foreign
        | ignored => exact .some present

/-- The pending operations are carried out on an empty pending list. -/
theorem addPendingLoop (operations : List Info) (empty : r.pending = []) :
    SlotHolds (OwnedElsewhere env)
      (addPendingLoop env operations r).1 := by
  induction operations generalizing r with
  | nil => exact .some (flushed empty)
  | cons info later induction =>
      rw [Plock.addPendingLoop]
      cases received : receivePlock2 env info env.ourNodeid r with
      | mk slot effects =>
          cases slot with
          | none => exact .none
          | some s =>
              apply induction
              rw [receivePlock2_slot (congrArg Prod.fst received),
                afterPlock_pending]
              exact empty

theorem receiveOwnFromUs (info : Info) (here : OwnedElsewhere env r) :
    SlotHolds (OwnedElsewhere env) (receiveOwnFromUs env info r).1 := by
  unfold Plock.receiveOwnFromUs
  split
  · split
    · exact .some here
    · split
      · exact .some (here.frame rfl rfl)
      · exact .some here
  · split
    · split
      · exact addPendingLoop r.pending rfl
      · split
        · exact .some here
        · split
          · exact .some (flushed rfl)
          · exact .some here
    · exact .some here

theorem receiveOwnFromOther (info : Info) {sender : Int32}
    (other : sender ≠ env.ourNodeid) (here : OwnedElsewhere env r) :
    SlotHolds (OwnedElsewhere env)
      (receiveOwnFromOther env info sender r).1 := by
  unfold Plock.receiveOwnFromOther
  split
  · split
    · exact .some here
    · split
      · exact .some here
      · split
        · exact .some here
        · exact .some (flushed rfl)
  · rename_i claims
    split
    · rename_i named
      split
      · rw [named] at claims
        exact .some fun _ => ⟨claims, other⟩
      · split
        · rename_i ours
          exact .some (flushed (here.pending_eq_nil (.inr ours)))
        · exact .some here
    · exact .some here

theorem receiveOwn1 (message : Message)
    (here : SlotHolds (OwnedElsewhere env) slot) :
    SlotHolds (OwnedElsewhere env) (receiveOwn1 env message slot).1 := by
  unfold Plock.receiveOwn1
  split
  · exact .none
  · rename_i r found
    have present := find here found
    split
    · exact present.receiveOwnFromUs message.info
    · rename_i other
      exact present.receiveOwnFromOther message.info other

theorem receiveSync1 (message : Message)
    (here : SlotHolds (OwnedElsewhere env) slot) :
    SlotHolds (OwnedElsewhere env) (receiveSync1 env message slot).1 := by
  unfold Plock.receiveSync1
  dsimp only
  split
  · exact .none
  · rename_i r
    have present := here r rfl
    split
    · apply SlotHolds.some
      unfold clearSyncingFlag
      split
      · exact present.frame rfl rfl
      · exact present.frame rfl rfl
    · split
      · exact .some (present.frame rfl rfl)
      · split
        · exact .some (present.frame rfl rfl)
        · exact .some present

theorem receiveSlot (ownership : env.plockOwnership = true)
    (known : env.ourNodeid ≠ -1) (message : Message)
    (here : SlotHolds (OwnedElsewhere env) slot) :
    SlotHolds (OwnedElsewhere env) (receiveSlot env message slot).1 := by
  unfold Plock.receiveSlot
  split
  · exact receivePlock1 ownership known message here
  · exact receiveOwn1 message here
  · rcases receiveDrop1_cases slot with freed | kept
    · rw [freed]
      exact .none
    · rw [kept]
      exact here
  · exact receiveSync1 message here
  · exact receiveSync1 message here

theorem processPlock (info : Info)
    (here : SlotHolds (OwnedElsewhere env) slot) :
    SlotHolds (OwnedElsewhere env) (processPlock env info slot).1 := by
  have present : OwnedElsewhere env
      (slot.getD (newResource env info.number)) := by
    cases slot with
    | none => exact flushed rfl
    | some r => exact here r rfl
  unfold Plock.processPlock
  dsimp only
  split
  · exact .some present
  · rename_i owned
    split
    · exact present.executed info env.ourNodeid
    · rename_i foreign
      exact .some (saved owned foreign info)

theorem dropResource (here : OwnedElsewhere env r) :
    OwnedElsewhere env (dropResource env r).1 := by
  unfold Plock.dropResource
  split
  · rename_i ours
    exact flushed (here.pending_eq_nil (.inr ours))
  · split
    · exact here
    · exact here

theorem purgeResource (nodeid : Int32) (unmount : Bool)
    (here : OwnedElsewhere env r) :
    SlotHolds (OwnedElsewhere env)
      (purgeResource env nodeid unmount r).1 := by
  intro s kept
  rw [purgeResource_eq] at kept
  rw [putResource_eq_some kept]
  have owned : OwnedElsewhere env
      (purgeOwner nodeid (purgeEntries nodeid unmount r)).1 := by
    unfold purgeOwner
    split
    · exact flushed rfl
    · exact here.frame rfl rfl
  exact owned.frame (doWaiters_owner ..) (doWaiters_pending ..)

end OwnedElsewhere

/-- What the event handlers do to the lockspace, one operation, one message or
one loop at a time.  `keep` stands for changes of the saved messages and the
flags. -/
inductive Call where
  | read (info : Info)
  | message (message : Message)
  | drop (aged : UInt64 → Bool)
  | purge (nodeid : Int32) (unmount : Bool)
  | retrieve (sections : List Section)
  | keep (savedMessages : List Message) (needPlocks savePlocks : Bool)

def runCall (env : Env) (ls : Lockspace) : Call → Lockspace
  | .read info => (processPlocks env ls info).1
  | .message message => (receiveNow env ls message).1
  | .drop aged => (dropResources env aged ls).1
  | .purge nodeid unmount => (purgePlocks env ls nodeid unmount).1
  | .retrieve sections => retrievePlocks env sections ls
  | .keep savedMessages needPlocks savePlocks =>
      { ls with
        savedMessages := savedMessages
        needPlocks := needPlocks
        savePlocks := savePlocks }

/-- A call keeps the invariant. -/
theorem runCall_ownedElsewhere {env : Env}
    (ownership : env.plockOwnership = true) (known : env.ourNodeid ≠ -1)
    {ls : Lockspace} (everywhere : Everywhere (OwnedElsewhere env) ls)
    (call : Call) :
    Everywhere (OwnedElsewhere env) (runCall env ls call) := by
  cases call with
  | read info =>
      exact everywhere.onSlot
        (OwnedElsewhere.processPlock _ (everywhere.search _))
  | message message =>
      exact everywhere.onSlot
        (OwnedElsewhere.receiveSlot ownership known message
          (everywhere.search _))
  | drop aged =>
      exact everywhere.dropResources (fun _ here => here.dropResource) aged
  | purge nodeid unmount =>
      exact everywhere.purgePlocks
        fun _ here => here.purgeResource nodeid unmount
  | retrieve sections =>
      intro r member
      rcases List.mem_append.mp member with old | new
      · exact everywhere r old
      · obtain ⟨section_, _, rfl⟩ := List.mem_map.mp new
        exact OwnedElsewhere.flushed rfl
  | keep => exact everywhere

theorem processSavedLoop_calls (env : Env) (saved : List Message)
    (ls : Lockspace) :
    (processSavedLoop env saved ls).1 =
      (saved.map Call.message).foldl (runCall env) ls := by
  induction saved generalizing ls with
  | nil => rfl
  | cons message later induction => exact induction _

/-- Every event of a node is a sequence of calls. -/
theorem nodeNext_calls (env : Env) (state : NodeState) (event : NodeEvent) :
    ∃ calls : List Call,
      (nodeNext env state event).ls = calls.foldl (runCall env) state.ls := by
  have received (message : Message) : ∃ calls : List Call,
      (receive env state.ls message).1 =
        calls.foldl (runCall env) state.ls := by
    unfold receive
    split
    · exact ⟨[.keep (state.ls.savedMessages ++ [message])
        state.ls.needPlocks state.ls.savePlocks], rfl⟩
    · exact ⟨[.message message], rfl⟩
  cases event with
  | read info => exact ⟨[.read { info with tag := state.accepted }], rfl⟩
  | deliverOwn =>
      rw [nodeNext]
      split
      · exact ⟨[], rfl⟩
      · exact received _
  | deliverOther message => exact received message
  | purge nodeid => exact ⟨[.purge nodeid false], rfl⟩
  | drop aged => exact ⟨[.drop aged], rfl⟩
  | prepare how =>
      have kept : ∃ need save, preparePlocks how state.ls =
          { state.ls with needPlocks := need, savePlocks := save } := by
        cases how with
        | alone => exact ⟨false, state.ls.savePlocks, rfl⟩
        | noState => exact ⟨false, false, rfl⟩
        | needed =>
            unfold preparePlocks
            dsimp only
            split
            · exact ⟨state.ls.needPlocks, true, rfl⟩
            · exact ⟨state.ls.needPlocks, state.ls.savePlocks, rfl⟩
        | ready => exact ⟨state.ls.needPlocks, state.ls.savePlocks, rfl⟩
      obtain ⟨need, save, same⟩ := kept
      exact ⟨[.keep state.ls.savedMessages need save], same⟩
  | stored sections =>
      let opened : Lockspace :=
        { retrievePlocks env sections state.ls with savedMessages := [] }
      let processed := processSavedLoop env state.ls.savedMessages opened
      refine ⟨.retrieve sections ::
        .keep [] state.ls.needPlocks state.ls.savePlocks ::
        (state.ls.savedMessages.map .message ++
          [.keep processed.1.savedMessages false false]), ?_⟩
      rw [List.foldl_cons, List.foldl_cons, List.foldl_append]
      have replayed := processSavedLoop_calls env state.ls.savedMessages opened
      have begun : runCall env (runCall env state.ls (.retrieve sections))
          (.keep [] state.ls.needPlocks state.ls.savePlocks) = opened := rfl
      rw [begun, ← replayed]
      rfl

/-- The invariant holds in every state of a run and after any calls that a
handler makes there. -/
theorem ownedElsewhere_of_run {env : Env}
    (ownership : env.plockOwnership = true) (known : env.ourNodeid ≠ -1)
    {allowed : NodeState → NodeEvent → Prop} {state : NodeState}
    (run : (nodeSystem env).Run allowed NodeState.start state)
    (calls : List Call) :
    Everywhere (OwnedElsewhere env)
      (calls.foldl (runCall env) state.ls) := by
  have called (ls : Lockspace) (calls : List Call)
      (begun : Everywhere (OwnedElsewhere env) ls) :
      Everywhere (OwnedElsewhere env) (calls.foldl (runCall env) ls) := by
    induction calls generalizing ls with
    | nil => exact begun
    | cons call later induction =>
        exact induction _ (runCall_ownedElsewhere ownership known begun call)
  apply called
  apply run.invariant fun state => Everywhere (OwnedElsewhere env) state.ls
  · intro r member
    cases member
  · intro state event _ _ begun
    obtain ⟨calls, same⟩ := nodeNext_calls env state event
    have next : ((nodeSystem env).next state event).ls =
        calls.foldl (runCall env) state.ls := same
    rw [next]
    exact called state.ls calls begun

/-- With ownership, in every run of a node and also in the middle of a handler,
a resource with pending operations is neither unowned nor ours.  So `send_own`
of owner 0, which is called for a resource of ours when it is given up after
its syncs or dropped, sends its message, and `_receive_drop` finds no pending
operation on an unowned resource. -/
theorem pending_owned_elsewhere {env : Env}
    (ownership : env.plockOwnership = true) (known : env.ourNodeid ≠ -1)
    {state : NodeState}
    (run : (nodeSystem env).Run (fun _ _ => True) NodeState.start state)
    (calls : List Call) :
    ∀ r ∈ (calls.foldl (runCall env) state.ls).plockResources,
      (r.pending ≠ [] → r.owner ≠ 0 ∧ r.owner ≠ env.ourNodeid) ∧
        (r.owner = env.ourNodeid →
          sendOwn r 0 = [.send .own (ownInfo r.number 0)] ∧
          sendOwn (sendSyncs r).1 0 = [.send .own (ownInfo r.number 0)]) ∧
        (r.owner = 0 → r.pending = []) := by
  intro r member
  have here := ownedElsewhere_of_run ownership known run calls r member
  refine ⟨here, ?_, fun unowned => here.pending_eq_nil (.inl unowned)⟩
  intro ours
  have empty := here.pending_eq_nil (.inr ours)
  have synced : (sendSyncs r).1.pending = [] := empty
  constructor
  · rw [sendOwn, empty]
    rfl
  · rw [sendOwn, synced]
    rfl

/-- Two operations wait for the owner, and another node claims the
resource. -/
def claimedByOther : List NodeEvent :=
  [.prepare .alone, .read (requestOf .lock 1 1 0 10),
    .read (requestOf .lock 1 2 5 5),
    .deliverOther ⟨.own, 2, ownInfo 7 2⟩]

theorem claimedByOther_pending :
    (∃ r ∈ ((nodeSystem (memberEnv 1)).follow NodeState.start
        claimedByOther).ls.plockResources,
      r.pending.length = 2 ∧ r.owner = 2) ∧
    ∀ r ∈ (([] : List Call).foldl (runCall (memberEnv 1))
        ((nodeSystem (memberEnv 1)).follow NodeState.start
          claimedByOther).ls).plockResources,
      (r.pending ≠ [] → r.owner ≠ 0 ∧ r.owner ≠ 1) ∧
        (r.owner = 1 →
          sendOwn r 0 = [.send .own (ownInfo r.number 0)] ∧
          sendOwn (sendSyncs r).1 0 = [.send .own (ownInfo r.number 0)]) ∧
        (r.owner = 0 → r.pending = []) :=
  ⟨by decide, pending_owned_elsewhere (by decide) (by decide)
    (System.run_of_follows claimedByOther .refl (by decide)) []⟩

end Dlm.Plock
