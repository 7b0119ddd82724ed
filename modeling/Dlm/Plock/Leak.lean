import Dlm.Plock.NodeRun
import Dlm.Plock.ResourceRun
import Dlm.Plock.Slots
import Dlm.Plock.Transitions

/-!
# Resources that are not freed

Without ownership a resource is allocated when an operation is read and when
it is delivered, and `put_resource` frees it as soon as it has neither locks
nor waiters.  `do_get` does not call `put_resource`: a query for a resource
without locks leaves it behind.
-/

namespace Dlm.Plock

variable {r : Resource} {message : Message}

/-- What the node reads and receives without ownership, and purges. -/
inductive OpEvent where
  | read (info : Info)
  | deliverOwn
  | deliverOther (message : Message)
  | purge (nodeid : Int32) (unmount : Bool)

/-- A lock, unlock or get operation. -/
def Optype.known : Optype → Bool
  | .unknown _ => false
  | _ => true

def opEnabled (env : Env) (state : NodeState) : OpEvent → Prop
  | .read info => info.optype.known = true
  | .deliverOwn => nodeEnabled env state .deliverOwn
  | .deliverOther message =>
      message.nodeid ≠ env.ourNodeid ∧ message.type = .plock ∧
        message.info.optype.known = true
  | .purge _ _ => True

/-- The steps of `nodeNext`; here `purge_plocks` may also run at unmount. -/
def opNext (env : Env) (state : NodeState) : OpEvent → NodeState
  | .read info => nodeNext env state (.read info)
  | .deliverOwn => nodeNext env state .deliverOwn
  | .deliverOther message => nodeNext env state (.deliverOther message)
  | .purge nodeid unmount =>
      state.commit env (purgePlocks env state.ls nodeid unmount)

def opSystem (env : Env) : System NodeState OpEvent :=
  { enabled := opEnabled env
    next := opNext env }

/-- The resource has a lock or a waiter. -/
def Resource.used (r : Resource) : Bool :=
  !(r.locks.isEmpty && r.waiters.isEmpty)

/-- The condition on the steps of a run: an own get operation is delivered
only when its resource has a lock or a waiter, or when another own operation on
it is still to be delivered. -/
def GetsUsed (state : NodeState) : OpEvent → Prop
  | .deliverOwn =>
      match state.sent with
      | [] => True
      | message :: later =>
          message.info.optype = .get →
            (searchResource state.ls.plockResources
                message.info.number).any (·.used) = true ∨
              ∃ other ∈ later, other.info.number = message.info.number
  | _ => True

section Slot

variable {env : Env} {s : Resource}

theorem putResource_used (off : env.plockOwnership = false)
    (kept : putResource env r = some s) : s.used = true := by
  unfold putResource at kept
  simp only [off, Bool.false_eq_true, if_false] at kept
  split at kept
  · cases kept
  · rename_i used
    cases kept
    rw [Resource.used, Bool.eq_false_iff.mpr used]
    rfl

/-- A lock or unlock operation leaves a used resource or none. -/
theorem receivePlock2_used (off : env.plockOwnership = false) {info : Info}
    {sender : Int32} (known : info.optype.known = true)
    (other : info.optype ≠ .get)
    (kept : s ∈ (receivePlock2 env info sender r).1) : s.used = true := by
  unfold receivePlock2 at kept
  cases kind : info.optype with
  | lock =>
      rw [kind] at kept
      exact putResource_used off kept
  | unlock =>
      rw [kind] at kept
      exact putResource_used off kept
  | get => exact (other kind).elim
  | unknown code =>
      rw [kind] at known
      cases known

/-- A resource that is replicated on all nodes. -/
structure Replicated (r : Resource) : Prop where
  owner : r.owner = 0
  pending : r.pending = []

theorem Replicated.new (off : env.plockOwnership = false)
    (number : UInt64) : Replicated (newResource env number) := by
  constructor
  · simp [newResource, off]
  · rfl

theorem Replicated.executed (replicated : Replicated r) {info : Info}
    {sender : Int32} (kept : s ∈ (receivePlock2 env info sender r).1) :
    Replicated s := by
  rw [receivePlock2_slot kept]
  constructor
  · rw [afterPlock_owner]
    exact replicated.owner
  · rw [afterPlock_pending]
    exact replicated.pending

end Slot

section Silent

variable {env : Env} {type : MsgType} {sent : Info}

theorem writeResultIfOurs_silent (info : Info) (rv : Int) :
    .send type sent ∉ writeResultIfOurs env info rv := by
  unfold writeResultIfOurs
  split
  · simp
  · simp

theorem doWaitersLoop_silent (locks : List PosixLock)
    (waiters : List LockWaiter) :
    .send type sent ∉ (doWaitersLoop env locks waiters).2.2 := by
  induction waiters generalizing locks with
  | nil => simp [doWaitersLoop]
  | cons w later induction =>
      rw [doWaitersLoop]
      split
      · exact induction locks
      · intro member
        rcases List.mem_append.mp member with first | rest
        · exact writeResultIfOurs_silent w.info _ first
        · exact induction _ rest

theorem lockRequest_silent (info : Info) (r : Resource) :
    .send type sent ∉ (lockRequest env info r).2 := by
  unfold lockRequest
  split
  · split
    · simp
    · exact writeResultIfOurs_silent info _
  · exact writeResultIfOurs_silent info _

/-- An operation on a replicated resource sends nothing. -/
theorem receivePlock2_silent (info : Info) (sender : Int32) (r : Resource) :
    .send type sent ∉ (receivePlock2 env info sender r).2 := by
  unfold receivePlock2
  cases info.optype with
  | lock =>
      intro member
      rcases List.mem_cons.mp member with time | rest
      · cases time
      · rcases List.mem_append.mp rest with answered | granted
        · exact lockRequest_silent info r answered
        · exact doWaitersLoop_silent _ _ granted
  | unlock =>
      intro member
      rcases List.mem_cons.mp member with time | rest
      · cases time
      · rcases List.mem_append.mp rest with answered | granted
        · exact writeResultIfOurs_silent info _ answered
        · exact doWaitersLoop_silent _ _ granted
  | get =>
      simp only [doGet]
      split
      · simp
      · simp
  | unknown code =>
      simp only
      split
      · simp
      · simp

theorem sentBy_nil {effects : List Effect}
    (silent : ∀ type info, .send type info ∉ effects) :
    sentBy env effects = [] := by
  rw [sentBy, List.filterMap_eq_nil_iff]
  intro effect member
  cases effect with
  | send type info => exact (silent type info member).elim
  | writeResult info rv => rfl
  | plockTime => rfl

end Silent

/-- A message that the node sends when it reads an operation. -/
structure OwnOp (env : Env) (message : Message) : Prop where
  type : message.type = .plock
  nodeid : message.nodeid = env.ourNodeid
  origin : message.info.nodeid = env.ourNodeid
  known : message.info.optype.known = true

section Deliver

variable {env : Env} {slot : Option Resource}

/-- A delivered operation sends nothing and leaves a replicated resource.
That is a used one, or the one found if the message is not an own one, or for
an own get operation the one found or allocated. -/
theorem receivePlock1_replicated (off : env.plockOwnership = false)
    (known : message.info.optype.known = true)
    (here : SlotHolds Replicated slot) :
    sentBy env (receivePlock1 env message slot).2 = [] ∧
      ∀ s ∈ (receivePlock1 env message slot).1, Replicated s ∧
        (s.used = true ∨ slot = some s ∧ ¬OwnOp env message ∨
          message.nodeid = env.ourNodeid ∧ message.info.optype = .get ∧
            s = slot.getD (newResource env message.info.number)) := by
  unfold receivePlock1
  simp only
  split
  · rename_i foreign
    refine ⟨rfl, fun s kept => ⟨here s kept, .inr (.inl ⟨kept, ?_⟩)⟩⟩
    exact fun own => foreign.2 own.nodeid
  · rename_i answered
    split
    · rename_i forged
      refine ⟨rfl, fun s kept => ⟨here s kept, .inr (.inl ⟨kept, ?_⟩)⟩⟩
      exact fun own => forged (own.nodeid.trans own.origin.symm)
    · have found : findResource env message.info.number
          (!env.plockOwnership) slot =
          some (slot.getD (newResource env message.info.number)) := by
        cases slot with
        | none => simp [findResource, off]
        | some r => rfl
      have replicated : Replicated
          (slot.getD (newResource env message.info.number)) := by
        cases slot with
        | none => exact .new off _
        | some r => exact here r rfl
      rw [found]
      simp only [receivePlockFound, replicated.owner, if_true]
      refine ⟨sentBy_nil fun _ _ => receivePlock2_silent _ _ _,
        fun s kept => ⟨replicated.executed kept, ?_⟩⟩
      by_cases query : message.info.optype = .get
      · refine .inr (.inr ⟨?_, query, ?_⟩)
        · exact not_not.mp fun foreign => answered ⟨query, foreign⟩
        · rw [receivePlock2_slot kept, afterPlock, query]
      · exact .inl (receivePlock2_used off known query kept)

end Deliver

/-- The resource has a lock or a waiter, or an own operation on it has not
been delivered. -/
def InUse (sent : List Message) (r : Resource) : Prop :=
  r.used = true ∨ ∃ message ∈ sent, message.info.number = r.number

/-- What holds of a node without ownership. -/
structure Tidy (env : Env) (state : NodeState) : Prop where
  distinct : Distinct state.ls.plockResources
  direct : state.ls.savePlocks = false
  replicated : ∀ r ∈ state.ls.plockResources, Replicated r
  own : ∀ message ∈ state.sent, OwnOp env message
  kept : ∀ r ∈ state.ls.plockResources, InUse state.sent r

section Steps

variable {env : Env} {state after : NodeState}

theorem Tidy.start (env : Env) : Tidy env NodeState.start := by
  refine ⟨List.nodup_nil, rfl, ?_, ?_, ?_⟩
  · intro r absent
    cases absent
  · intro message absent
    cases absent
  · intro r absent
    cases absent

/-- The resources after one has been replaced: that one, and the others with
other numbers. -/
theorem mem_putSlot_distinct {resources : List Resource} {number : UInt64}
    {slot : Option Resource} (distinct : Distinct resources)
    (numbered : Numbered number slot)
    (member : r ∈ putSlot number slot resources) :
    r ∈ slot ∨ r ∈ resources ∧ r.number ≠ number := by
  have found := (distinct.putSlot numbered).search_of_mem member
  by_cases same : r.number = number
  · left
    rw [same, searchResource_putSlot_eq distinct numbered] at found
    exact found
  · right
    rw [searchResource_putSlot_ne numbered same] at found
    exact ⟨List.mem_of_find?_eq_some found, same⟩

/-- A step on the resource with one number.  Only messages about it leave the
list of undelivered messages. -/
theorem Tidy.replace (tidy : Tidy env state) (number : UInt64)
    (slot : Option Resource) (numbered : Numbered number slot)
    (resources : after.ls.plockResources =
      putSlot number slot state.ls.plockResources)
    (direct : after.ls.savePlocks = state.ls.savePlocks)
    (own : ∀ message ∈ after.sent, OwnOp env message)
    (left_ : ∀ message ∈ state.sent,
      message ∈ after.sent ∨ message.info.number = number)
    (here : ∀ s ∈ slot, Replicated s ∧ InUse after.sent s) :
    Tidy env after := by
  have split_ (r : Resource) (member : r ∈ after.ls.plockResources) :
      r ∈ slot ∨ r ∈ state.ls.plockResources ∧ r.number ≠ number := by
    rw [resources] at member
    exact mem_putSlot_distinct tidy.distinct numbered member
  refine ⟨?_, direct.trans tidy.direct, ?_, own, ?_⟩
  · rw [resources]
    exact tidy.distinct.putSlot numbered
  · intro r member
    rcases split_ r member with new | ⟨old, _⟩
    · exact (here r new).1
    · exact tidy.replicated r old
  · intro r member
    rcases split_ r member with new | ⟨old, different⟩
    · exact (here r new).2
    · rcases tidy.kept r old with used | ⟨message, pending, same⟩
      · exact .inl used
      · rcases left_ message pending with still | gone
        · exact .inr ⟨message, still, same⟩
        · exact (different (same.symm.trans gone)).elim

theorem Tidy.slot (tidy : Tidy env state) (number : UInt64) :
    SlotHolds Replicated (searchResource state.ls.plockResources number) := by
  intro r found
  exact tidy.replicated r (List.mem_of_find?_eq_some found)

theorem Tidy.read (tidy : Tidy env state) (off : env.plockOwnership = false)
    (info : Info) (known : info.optype.known = true) :
    Tidy env (opNext env state (.read info)) := by
  let read : Info :=
    { info with tag := state.accepted, nodeid := env.ourNodeid }
  let found := searchResource state.ls.plockResources info.number
  let r := found.getD (newResource env info.number)
  have replicated : Replicated r := by
    cases here : found with
    | none =>
        simp only [r, here]
        exact .new off _
    | some s =>
        simp only [r, here]
        exact tidy.slot info.number s here
  have number : r.number = info.number := by
    cases here : found with
    | none =>
        simp only [r, here]
        rfl
    | some s =>
        simp only [r, here]
        exact searchResource_numbered _ _ s here
  have sends : processPlock env read found = (some r, [sendPlock read]) := by
    rw [processPlock]
    exact if_pos replicated.owner
  have result : processPlocks env state.ls { info with tag := state.accepted } =
      ({ state.ls with
          plockResources :=
            putSlot info.number (some r) state.ls.plockResources },
        [sendPlock read]) := by
    rw [processPlocks, Lockspace.onSlot]
    rw [show processPlock env _ _ = _ from sends]
  have sent : (opNext env state (.read info)).sent =
      state.sent ++ [⟨.plock, env.ourNodeid, read⟩] := by
    rw [opNext, nodeNext, result]
    rfl
  apply tidy.replace info.number (some r) (numbered_some number)
  · rw [opNext, nodeNext, result]
    rfl
  · rw [opNext, nodeNext, result]
    rfl
  · intro message member
    rw [sent] at member
    rcases List.mem_append.mp member with old | new
    · exact tidy.own message old
    · cases List.mem_singleton.mp new
      exact ⟨rfl, rfl, rfl, known⟩
  · intro message member
    left
    rw [sent]
    exact List.mem_append_left _ member
  · intro s same
    cases same
    refine ⟨replicated, .inr ⟨⟨.plock, env.ourNodeid, read⟩, ?_, ?_⟩⟩
    · rw [sent]
      exact List.mem_append_right _ List.mem_cons_self
    · exact number.symm

/-- What a delivered operation does to the node. -/
theorem Tidy.receive_eq (tidy : Tidy env state)
    (off : env.plockOwnership = false) (plock : message.type = .plock)
    (known : message.info.optype.known = true) :
    (receive env state.ls message).1 =
        { state.ls with
          plockResources :=
            putSlot message.info.number
              (receivePlock1 env message (searchResource
                state.ls.plockResources message.info.number)).1
              state.ls.plockResources } ∧
      sentBy env (receive env state.ls message).2 = [] := by
  have silent := (receivePlock1_replicated off known
    (tidy.slot message.info.number)).1
  have handler : receiveSlot env message = receivePlock1 env message := by
    funext slot
    rw [receiveSlot, plock]
  rw [receive, tidy.direct, if_neg Bool.false_ne_true, receiveNow, handler,
    Lockspace.onSlot]
  exact ⟨rfl, silent⟩

theorem Tidy.deliverOther (tidy : Tidy env state)
    (off : env.plockOwnership = false)
    (foreign : message.nodeid ≠ env.ourNodeid) (plock : message.type = .plock)
    (known : message.info.optype.known = true) :
    Tidy env (opNext env state (.deliverOther message)) := by
  obtain ⟨ls, silent⟩ := tidy.receive_eq off plock known
  have sent : (opNext env state (.deliverOther message)).sent =
      state.sent := by
    rw [opNext, nodeNext, NodeState.commit, silent, List.append_nil]
  apply tidy.replace message.info.number (receivePlock1 env message
    (searchResource state.ls.plockResources message.info.number)).1
    (receivePlock1_numbered (searchResource_numbered _ _))
  · exact congrArg Lockspace.plockResources ls
  · rw [opNext, nodeNext, NodeState.commit, ls]
  · rw [sent]
    exact tidy.own
  · intro other member
    left
    rw [sent]
    exact member
  · intro s received
    obtain ⟨replicated, used | ⟨same, _⟩ | ⟨own, _⟩⟩ :=
      (receivePlock1_replicated off known
        (tidy.slot message.info.number)).2 s received
    · exact ⟨replicated, .inl used⟩
    · rw [sent]
      exact ⟨replicated, tidy.kept s (List.mem_of_find?_eq_some same)⟩
    · exact (foreign own).elim

theorem Tidy.deliverOwn (tidy : Tidy env state)
    (off : env.plockOwnership = false) {later : List Message}
    (pending : state.sent = message :: later)
    (allowed : GetsUsed state .deliverOwn) :
    Tidy env (opNext env state .deliverOwn) := by
  have own : OwnOp env message := by
    apply tidy.own
    rw [pending]
    exact List.mem_cons_self
  obtain ⟨ls, silent⟩ := tidy.receive_eq off own.type own.known
  have reached : opNext env state .deliverOwn =
      { state with sent := later }.commit env
        (receive env state.ls message) := by
    simp only [opNext, nodeNext, pending]
  have sent : (opNext env state .deliverOwn).sent = later := by
    rw [reached, NodeState.commit, silent, List.append_nil]
  apply tidy.replace message.info.number (receivePlock1 env message
    (searchResource state.ls.plockResources message.info.number)).1
    (receivePlock1_numbered (searchResource_numbered _ _))
  · rw [reached]
    exact congrArg Lockspace.plockResources ls
  · rw [reached, NodeState.commit, ls]
  · intro other member
    rw [sent] at member
    apply tidy.own
    rw [pending]
    exact List.mem_cons_of_mem message member
  · intro other member
    rw [pending] at member
    rw [sent]
    rcases List.mem_cons.mp member with rfl | still
    · exact .inr rfl
    · exact .inl still
  · intro s received
    obtain ⟨replicated, used | ⟨_, notOwn⟩ | ⟨_, query, same⟩⟩ :=
      (receivePlock1_replicated off own.known
        (tidy.slot message.info.number)).2 s received
    · exact ⟨replicated, .inl used⟩
    · exact (notOwn own).elim
    · refine ⟨replicated, ?_⟩
      have number := receivePlock1_numbered
        (searchResource_numbered _ _) s received
      simp only [GetsUsed, pending] at allowed
      rw [sent]
      rcases allowed query with used | ⟨other, still, about⟩
      · left
        rw [same]
        cases found : searchResource state.ls.plockResources
            message.info.number with
        | none =>
            rw [found] at used
            cases used
        | some r =>
            rw [found] at used
            exact used
      · exact .inr ⟨other, still, about.trans number.symm⟩

theorem purgeOwner_replicated (replicated : Replicated r) (nodeid : Int32) :
    purgeOwner nodeid r = (r, []) := by
  cases r
  obtain ⟨rfl, rfl⟩ := replicated
  unfold purgeOwner
  split
  · rfl
  · rfl

theorem purgeResource_replicated (off : env.plockOwnership = false)
    (replicated : Replicated r) (nodeid : Int32) (unmount : Bool) :
    (∀ type info,
        .send type info ∉ (purgeResource env nodeid unmount r).2) ∧
      ∀ s ∈ (purgeResource env nodeid unmount r).1,
        Replicated s ∧ s.used = true := by
  have entries : Replicated (purgeEntries nodeid unmount r) :=
    ⟨replicated.owner, replicated.pending⟩
  rw [purgeResource_eq, purgeOwner_replicated entries]
  refine ⟨fun _ _ => doWaitersLoop_silent _ _, fun s kept => ⟨?_, ?_⟩⟩
  · rw [putResource_eq_some kept]
    exact ⟨entries.owner, entries.pending⟩
  · exact putResource_used off kept

theorem Tidy.purge (tidy : Tidy env state)
    (off : env.plockOwnership = false) (nodeid : Int32) (unmount : Bool) :
    Tidy env (opNext env state (.purge nodeid unmount)) := by
  have purged (r : Resource) (member : r ∈ state.ls.plockResources) :=
    purgeResource_replicated off (tidy.replicated r member) nodeid unmount
  have remains (s : Resource) (member : s ∈
      (opNext env state (.purge nodeid unmount)).ls.plockResources) :
      Replicated s ∧ s.used = true := by
    obtain ⟨r, old, kept⟩ := mem_purgePlocks member
    exact (purged r old).2 s kept
  have silent : sentBy env (purgePlocks env state.ls nodeid unmount).2 =
      [] := by
    apply sentBy_nil
    intro type info sent
    rcases List.mem_append.mp sent with resent | time
    · obtain ⟨result, among, effect⟩ := List.mem_flatMap.mp resent
      obtain ⟨r, old, rfl⟩ := List.mem_map.mp among
      exact (purged r old).1 type info effect
    · split at time
      · cases time
      · cases List.mem_singleton.mp time
  have sent : (opNext env state (.purge nodeid unmount)).sent =
      state.sent := by
    rw [opNext, NodeState.commit, silent, List.append_nil]
  refine ⟨purgePlocks_distinct env tidy.distinct nodeid unmount, tidy.direct,
    fun s member => (remains s member).1, ?_,
    fun s member => .inl (remains s member).2⟩
  rw [sent]
  exact tidy.own

theorem Tidy.next (tidy : Tidy env state) (off : env.plockOwnership = false)
    {event : OpEvent} (enabled : opEnabled env state event)
    (allowed : GetsUsed state event) : Tidy env (opNext env state event) := by
  cases event with
  | read info => exact tidy.read off info enabled
  | deliverOwn =>
      cases pending : state.sent with
      | nil => exact (enabled pending).elim
      | cons message later => exact tidy.deliverOwn off pending allowed
  | deliverOther message =>
      obtain ⟨foreign, plock, known⟩ := enabled
      exact tidy.deliverOther off foreign plock known
  | purge nodeid unmount => exact tidy.purge off nodeid unmount

end Steps

/-- Without ownership, in every run whose steps meet the condition, a resource
none of whose own operations is undelivered has a lock or a waiter. -/
theorem resource_used (env : Env) (off : env.plockOwnership = false)
    (state : NodeState)
    (run : (opSystem env).Run GetsUsed NodeState.start state)
    (number : UInt64)
    (delivered : ∀ message ∈ state.sent, message.info.number ≠ number)
    (r : Resource) (member : r ∈ state.ls.plockResources)
    (same : r.number = number) : r.locks ≠ [] ∨ r.waiters ≠ [] := by
  have tidy : Tidy env state := by
    apply run.invariant (Tidy env) (Tidy.start env)
    intro state event enabled allowed tidy
    exact tidy.next off enabled allowed
  rcases tidy.kept r member with used | ⟨message, pending, about⟩
  · cases locks : r.locks with
    | cons po later => exact .inl (by simp)
    | nil =>
        right
        intro waiters
        simp [Resource.used, locks, waiters] at used
  · exact (delivered message pending (about.trans same)).elim

instance (env : Env) (state : NodeState) (event : OpEvent) :
    Decidable ((opSystem env).enabled state event) := by
  rcases event <;> unfold opSystem opEnabled nodeEnabled <;> infer_instance

instance (state : NodeState) (event : OpEvent) :
    Decidable (GetsUsed state event) := by
  unfold GetsUsed
  split
  · split <;> infer_instance
  · infer_instance

/-- A node on which ownership is off. -/
def replicatedEnv : Env :=
  { memberEnv 1 with plockOwnership := false }

/-- A lock is taken and then queried. -/
def lockThenGet : List OpEvent :=
  [.read (requestOf .lock 1 3 0 9), .deliverOwn,
    .read (requestOf .get 1 4 0 9), .deliverOwn]

theorem lockThenGet_used :
    ∃ state, (opSystem replicatedEnv).Run GetsUsed NodeState.start state ∧
      state.sent = [] ∧ ∃ r ∈ state.ls.plockResources,
        r.number = 7 ∧ (r.locks ≠ [] ∨ r.waiters ≠ []) := by
  let state := (opSystem replicatedEnv).follow NodeState.start lockThenGet
  have run : (opSystem replicatedEnv).Run GetsUsed NodeState.start state :=
    System.run_of_follows lockThenGet .refl (by decide)
  have sent : state.sent = [] := by decide
  have left_ : ∃ r, state.ls.plockResources = [r] ∧ r.number = 7 :=
    ⟨_, rfl, rfl⟩
  obtain ⟨r, only, number⟩ := left_
  have member : r ∈ state.ls.plockResources := by
    rw [only]
    exact List.mem_cons_self
  refine ⟨state, run, sent, r, member, number, ?_⟩
  exact resource_used replicatedEnv rfl state run 7 (by simp [sent]) r member
    number

/-- A query for a resource without locks. -/
def getAlone : List OpEvent :=
  [.read (requestOf .get 1 4 0 9), .deliverOwn]

theorem getAlone_leaks :
    ¬∀ (env : Env), env.plockOwnership = false →
      ∀ state, (opSystem env).Run (fun _ _ => True) NodeState.start state →
        ∀ number, (∀ message ∈ state.sent, message.info.number ≠ number) →
          ∀ r ∈ state.ls.plockResources, r.number = number →
            r.locks ≠ [] ∨ r.waiters ≠ [] := by
  intro claimed
  let state := (opSystem replicatedEnv).follow NodeState.start getAlone
  have run : (opSystem replicatedEnv).Run (fun _ _ => True) NodeState.start
      state :=
    System.run_of_follows getAlone .refl (by decide)
  have sent : state.sent = [] := by decide
  have left_ : state.ls.plockResources = [newResource replicatedEnv 7] := by
    rfl
  have used := claimed replicatedEnv rfl state run 7 (by simp [sent])
    (newResource replicatedEnv 7) (by rw [left_]; exact List.mem_cons_self)
    rfl
  rcases used with locks | waiters
  · exact locks rfl
  · exact waiters rfl

end Dlm.Plock
