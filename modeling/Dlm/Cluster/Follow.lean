import Dlm.Cluster.Relation
import Dlm.Plock.Entries

/-!
# The handlers follow the agreed state

One lemma per handler: whatever a node does with a message of its own, a
message of another node, the failure of a node or a kernel operation, its
resource stays in the relation to the agreed state.
-/

namespace Dlm.Cluster

open Plock Broadcast

variable {p : Nodeid}

theorem Nodeid.ne_zero (n : Nodeid) : n.val ≠ 0 := by
  intro zero
  have positive := n.property
  rw [zero] at positive
  exact absurd positive (by decide)

theorem Nodeid.ne_minus_one (n : Nodeid) : n.val ≠ -1 := by
  intro minus
  have positive := n.property
  rw [minus] at positive
  exact absurd positive (by decide)

section Bodies

variable (effects more : List Effect) (info : Info)

@[simp] theorem bodies_nil : bodies [] = [] := rfl

@[simp] theorem bodies_append :
    bodies (effects ++ more) = bodies effects ++ bodies more := by
  simp [bodies]

@[simp] theorem bodies_send (type : MsgType) :
    bodies (.send type info :: effects) =
      { type := type, info := info } :: bodies effects := rfl

@[simp] theorem bodies_writeResult (rv : Int) :
    bodies (.writeResult info rv :: effects) = bodies effects := rfl

@[simp] theorem bodies_plockTime :
    bodies (.plockTime :: effects) = bodies effects := rfl

@[simp] theorem bodies_writeResultIfOurs (env : Env) (rv : Int) :
    bodies (writeResultIfOurs env info rv) = [] := by
  unfold writeResultIfOurs
  split <;> rfl

theorem bodies_doWaitersLoop (env : Env) (locks : List PosixLock)
    (waiters : List LockWaiter) :
    bodies (doWaitersLoop env locks waiters).2.2 = [] := by
  induction waiters generalizing locks with
  | nil => rfl
  | cons w later induction =>
      rw [doWaitersLoop]
      split
      · exact induction locks
      · simp [induction]

@[simp] theorem bodies_doWaiters (env : Env) (r : Resource) :
    bodies (doWaiters env r).2 = [] :=
  bodies_doWaitersLoop env r.locks r.waiters

@[simp] theorem bodies_lockRequest (env : Env) (r : Resource) :
    bodies (lockRequest env info r).2 = [] := by
  unfold lockRequest
  split
  · split
    · rfl
    · simp
  · simp

/-- Operations send nothing. -/
@[simp] theorem bodies_receivePlock2 (env : Env) (sender : Int32)
    (r : Resource) : bodies (receivePlock2 env info sender r).2 = [] := by
  unfold receivePlock2
  split
  · simp [doLock]
  · simp [doUnlock]
  · unfold doGet
    split <;> rfl
  · dsimp only
    split <;> rfl

theorem bodies_sendSyncs (r : Resource) :
    bodies (sendSyncs r).2 =
      r.locks.map (lockBody r.number) ++ r.waiters.map waiterBody := by
  simp only [sendSyncs, bodies, List.filterMap_append, List.filterMap_map,
    sendStructInfo, Function.comp_def, List.filterMap_eq_map']
  rfl

theorem bodies_addPendingLoop {env : Env}
    (ownership : env.plockOwnership = true) (infos : List Info)
    (r : Resource) : bodies (addPendingLoop env infos r).2 = [] := by
  induction infos generalizing r with
  | nil => rfl
  | cons info later induction =>
      rw [addPendingLoop_cons ownership, bodies_append, bodies_receivePlock2,
        induction]
      rfl

end Bodies

/-- Messages that a node must not be delivered between its own release of a
resource and the return of its `OWN 0`: the other nodes still ignore an
operation or a drop that this node would carry out. -/
def Disturbs (r : Resource) (body : Body) : Prop :=
  body.type = .plock ∧
      (body.info.optype = .lock ∨ body.info.optype = .unlock) ∨
    body.type = .drop ∧ r.locks = [] ∧ r.waiters = []

section Handlers

variable {c : Config} {mode : Mode} {n : Nodeid} {r : Resource}
variable {slot : Option Resource} {out : List Body} {g : Agreed}
variable {info : Info} {body : Body}

def Config.Calm (c : Config) (mode : Mode) (slot : Option Resource)
    (out : List Body) (body : Body) : Prop :=
  mode.drops = true → ∀ r, slot = some r → releaseBody c.number ∈ out →
    ¬Disturbs r body

theorem Config.Early.late (early : c.Early mode n body) :
    c.Late mode n body := by
  obtain ⟨number, own | ⟨drops, plock | drop⟩⟩ := early
  · exact ⟨number, .inl own⟩
  · exact ⟨number, .inr (.inl plock)⟩
  · exact ⟨number, .inr (.inr ⟨drops, drop⟩)⟩

theorem Config.Late.early (drops : mode.drops = true)
    (late : c.Late mode n body) : c.Early mode n body := by
  obtain ⟨number, own | plock | ⟨_, drop⟩⟩ := late
  · exact ⟨number, .inl own⟩
  · exact ⟨number, .inr ⟨drops, .inl plock⟩⟩
  · exact ⟨number, .inr ⟨drops, .inr drop⟩⟩

theorem Config.Early.not_release (early : c.Early mode n body) :
    ¬body.Releases := by
  rintro ⟨type, released⟩
  obtain ⟨_, ⟨_, claimed⟩ | ⟨_, ⟨plock, _⟩ | drop⟩⟩ := early
  · exact n.ne_zero (claimed.symm.trans released)
  · exact absurd (type.symm.trans plock) (by decide)
  · exact absurd (type.symm.trans drop) (by decide)

theorem Config.Late.not_release (late : c.Late mode n body) :
    ¬body.Releases := by
  rintro ⟨type, released⟩
  obtain ⟨_, ⟨_, claimed⟩ | ⟨plock, _⟩ | ⟨_, drop⟩⟩ := late
  · exact n.ne_zero (claimed.symm.trans released)
  · exact absurd (type.symm.trans plock) (by decide)
  · exact absurd (type.symm.trans drop) (by decide)

/-- An owner's operation keeps its table its own. -/
theorem Config.Holding.afterPlock (holding : c.Holding mode n r)
    (nodeid : info.nodeid = n.val) (number : info.number = c.number) :
    c.Holding mode n (afterPlock (c.env n) info r) := by
  refine ⟨?_, ?_, ?_⟩
  · intro w member
    rcases afterPlock_waiters _ info r w member with old | ⟨_, rfl⟩
    · exact holding.number w old
    · exact number
  · intro confined
    apply afterPlock_locks (P := fun po => po.nodeid = n.val)
      (fun _ _ _ _ has => has) _ (fun _ _ _ => nodeid)
      (holding.locks confined)
    exact fun w member _ _ _ => holding.waiters confined w member
  · intro confined w member
    rcases afterPlock_waiters _ info r w member with old | ⟨_, rfl⟩
    · exact holding.waiters confined w old
    · exact nodeid

/-- New locks and waiters are not flagged. -/
theorem Mode.Unflagged.afterPlock {env : Env} (unflagged : mode.Unflagged n r)
    (cleared : mode.stores n = true → ∀ info, env.waiterJunk info = false) :
    mode.Unflagged n (afterPlock env info r) := by
  intro stores
  obtain ⟨locks, waiters⟩ := unflagged stores
  refine ⟨?_, ?_⟩
  · exact afterPlock_locks (P := fun po => po.syncing = false)
      (fun _ _ _ _ has => has) _ (fun _ _ _ => rfl) locks
      (fun _ _ _ _ _ => rfl)
  · intro w member
    rcases afterPlock_waiters _ info r w member with old | ⟨_, rfl⟩
    · exact waiters w old
    · exact cleared stores info

section Heard

variable (p : Nodeid) (heard : body.info.optype = .get → p = n)
variable (honest : body.info.nodeid = p.val)

include heard in
theorem not_foreign_get :
    ¬(body.info.optype = .get ∧ p.val ≠ (c.env n).ourNodeid) := by
  rintro ⟨get, other⟩
  rw [heard get, c.ourNodeid] at other
  exact other rfl

include heard honest

theorem receivePlock1_some :
    receivePlock1 (c.env n) (body.message p) (some r) =
      receivePlockFound (c.env n) body.info p.val r := by
  simp only [receivePlock1, Body.message, not_foreign_get p heard, honest,
    if_false, ne_eq, not_true_eq_false, findResource]

/-- An operation on a resource that the node does not have. -/
theorem receivePlock1_none :
    receivePlock1 (c.env n) (body.message p) none =
      if p = n then
        (some (savePendingPlock (newResource (c.env n) body.info.number)
            body.info),
          sendOwn (newResource (c.env n) body.info.number) n.val)
      else (none, []) := by
  simp only [receivePlock1, Body.message, not_foreign_get p heard, honest,
    if_false, ne_eq, not_true_eq_false, findResource, c.ownership,
    Bool.not_true, Bool.false_eq_true]
  simp only [c.ourNodeid, Subtype.val_inj, ite_not]

end Heard

/-- An operation on a resource that waits for an owner. -/
theorem receivePlockFound_waiting (p : Nodeid) (unshared : r.owner ≠ 0)
    (notOurs : r.owner ≠ n.val) :
    receivePlockFound (c.env n) info p.val r =
      (some (if p = n then savePendingPlock r info else r), []) := by
  simp only [receivePlockFound, unshared, if_false, c.ourNodeid, notOurs,
    ne_eq, not_false_eq_true, if_true, Subtype.val_inj, ite_self]
  split <;> rfl

/-- An operation on a resource of our own. -/
theorem receivePlockFound_ours (p : Nodeid) (ours : r.owner = n.val) :
    receivePlockFound (c.env n) info p.val r =
      if p = n then receivePlock2 (c.env n) info n.val r
      else (some r, []) := by
  simp only [receivePlockFound, ours, n.ne_zero, n.ne_minus_one, if_false,
    c.ourNodeid, ne_eq, not_true_eq_false, Subtype.val_inj]
  split
  · rename_i same
    rw [same]
  · rfl

theorem receivePlockFound_shared (p : Nodeid) (shared : r.owner = 0) :
    receivePlockFound (c.env n) info p.val r =
      receivePlock2 (c.env n) info p.val r := by
  simp only [receivePlockFound, shared, if_true]

/-- An operation that is neither a lock nor an unlock changes nothing. -/
theorem receivePlock2_harmless {env : Env} {sender : Int32}
    (harmless : ¬(info.optype = .lock ∨ info.optype = .unlock)) :
    (receivePlock2 env info sender r).1 = some r := by
  unfold receivePlock2
  cases kind : info.optype with
  | lock => exact absurd (.inl kind) harmless
  | unlock => exact absurd (.inr kind) harmless
  | get => rfl
  | unknown code => rfl

/-- The first message of a releasing node is one sent before the release, an
announcement, or the release. -/
theorem releasing_head {before after announced : List Body}
    {release : Body}
    (split : body :: out = before ++ (announced ++ release :: after)) :
    (∃ later, before = body :: later ∧
        out = later ++ (announced ++ release :: after)) ∨
      (before = [] ∧ ∃ later, announced = body :: later ∧
        out = later ++ release :: after) ∨
      before = [] ∧ announced = [] ∧ body = release ∧ out = after := by
  cases before with
  | cons head later =>
      obtain ⟨rfl, rfl⟩ := List.cons.inj split
      exact .inl ⟨later, rfl, rfl⟩
  | nil =>
      cases announced with
      | cons head later =>
          obtain ⟨rfl, rfl⟩ := List.cons.inj split
          exact .inr (.inl ⟨rfl, later, rfl, rfl⟩)
      | nil =>
          obtain ⟨rfl, rfl⟩ := List.cons.inj split
          exact .inr (.inr ⟨rfl, rfl, rfl, rfl⟩)

theorem announcements_announce (holding : c.Holding mode n r)
    (number : r.number = c.number) (locks waiters : Nat) :
    ∀ body ∈ announcements r locks waiters, c.Announces mode n body := by
  intro body member
  rcases List.mem_append.mp member with lock | waiter
  · obtain ⟨po, found, rfl⟩ :=
      List.mem_map.mp (List.mem_of_mem_drop lock)
    exact ⟨number, .inl rfl, fun confined => holding.locks confined po found⟩
  · obtain ⟨w, found, rfl⟩ :=
      List.mem_map.mp (List.mem_of_mem_drop waiter)
    exact ⟨holding.number w found, .inr rfl,
      fun confined => holding.waiters confined w found⟩

theorem Config.Early.admissible (early : c.Early mode n body) :
    c.Admissible mode g n body := by
  obtain ⟨number, ⟨type, nodeid⟩ | ⟨drops, ⟨type, nodeid⟩ | type⟩⟩ := early
  · exact ⟨number, by rw [type]; exact .inl nodeid⟩
  · refine ⟨number, ?_⟩
    rw [type]
    exact ⟨nodeid, fun kept => absurd (drops.symm.trans kept) (by decide)⟩
  · exact ⟨number, by rw [type]; exact drops⟩

theorem Config.Late.admissible (shared : g.Shared)
    (late : c.Late mode n body) : c.Admissible mode g n body := by
  obtain ⟨number, ⟨type, nodeid⟩ | ⟨type, nodeid⟩ | ⟨drops, type⟩⟩ := late
  · exact ⟨number, by rw [type]; exact .inl nodeid⟩
  · exact ⟨number, by rw [type]; exact ⟨nodeid, fun _ => shared⟩⟩
  · exact ⟨number, by rw [type]; exact drops⟩

theorem Config.Announces.admissible (owned : g.OwnedBy n)
    (announces : c.Announces mode n body) : c.Admissible mode g n body := by
  obtain ⟨number, type | type, nodeid⟩ := announces
  · exact ⟨number, by rw [type]; exact ⟨owned, nodeid⟩⟩
  · exact ⟨number, by rw [type]; exact ⟨owned, nodeid⟩⟩

theorem Config.Follows.promises (follows : c.Follows mode n slot out g) :
    c.Promises mode n out g := by
  cases follows with
  | absent early => exact .inl early
  | unclaimed _ _ _ _ _ _ early => exact .inl early
  | follower _ _ _ _ _ _ _ early => exact .inl early
  | owner _ _ _ _ _ early => exact .inl early
  | releasing locks waiters before after number _ _ _ holding _ _ early late
      split _ =>
      exact .inr (.inr ⟨⟨_, _, rfl⟩, before, _, after, split, early,
        announcements_announce holding number locks waiters, late⟩)
  | shared _ _ _ _ _ late => exact .inr (.inl ⟨⟨_, rfl⟩, late⟩)

/-- The next message of a node is admissible. -/
theorem Config.Promises.head (promises : c.Promises mode n (body :: out) g) :
    c.Admissible mode g n body := by
  rcases promises with early | ⟨shared, late⟩ | ⟨owned, before, announced,
    after, split, early, announce, late⟩
  · exact (early body List.mem_cons_self).admissible
  · exact (late body List.mem_cons_self).admissible shared
  · rcases releasing_head split with ⟨later, rfl, _⟩ | ⟨_, later, rfl, _⟩ |
      ⟨_, _, rfl, _⟩
    · exact (early body List.mem_cons_self).admissible
    · exact (announce body List.mem_cons_self).admissible owned
    · exact ⟨rfl, .inr ⟨rfl, owned⟩⟩

/-- While a node owns the resource only its own announcements change the
agreed table. -/
theorem Agreed.owned_receive {asked : Bool} {table : Table}
    (admissible : c.Admissible mode (.owned n asked table) p body)
    (kept : p = n → ¬body.Releases) :
    (∃ asked', (Agreed.owned n asked table).receive p body =
        .owned n asked' (announce table body)) ∧
      (p ≠ n → announce table body = table) := by
  obtain ⟨_, admitted⟩ := admissible
  have owner {q : Nodeid} (same : (Agreed.owned n asked table).OwnedBy q) :
      q = n := by
    obtain ⟨_, _, equal⟩ := same
    cases equal
    rfl
  unfold announce
  cases kind : body.type with
  | plock =>
      exact ⟨⟨asked, by simp [Agreed.receive, kind, Agreed.plock]⟩,
        fun _ => rfl⟩
  | own =>
      simp only [kind] at admitted
      refine ⟨?_, fun _ => rfl⟩
      simp only [Agreed.receive, kind, Agreed.own]
      rcases admitted with claim | ⟨release, theirs⟩
      · rw [if_neg (by rw [claim]; exact p.ne_zero), if_pos claim]
        exact ⟨_, rfl⟩
      · exact absurd ⟨kind, release⟩ (kept (owner theirs))
  | drop =>
      exact ⟨⟨asked, by simp [Agreed.receive, kind, Agreed.drop]⟩,
        fun _ => rfl⟩
  | syncLock =>
      simp only [kind] at admitted
      have same := owner admitted.1
      refine ⟨⟨asked, ?_⟩, fun other => absurd same other⟩
      simp only [Agreed.receive, kind, Agreed.sync, same, if_true]
  | syncWaiter =>
      simp only [kind] at admitted
      have same := owner admitted.1
      refine ⟨⟨asked, ?_⟩, fun other => absurd same other⟩
      simp only [Agreed.receive, kind, Agreed.sync, same, if_true]

/-- Only its own release, or its failure, takes a resource from its owner. -/
theorem Agreed.OwnedBy.receive (owned : g.OwnedBy n)
    (admissible : c.Admissible mode g p body) (kept : p = n → ¬body.Releases) :
    (g.receive p body).OwnedBy n := by
  obtain ⟨asked, table, rfl⟩ := owned
  obtain ⟨⟨asked', reached⟩, _⟩ := Agreed.owned_receive admissible kept
  exact ⟨asked', announce table body, reached⟩

/-- A shared resource stays shared unless it is dropped. -/
theorem Agreed.Shared.receive (shared : g.Shared) (kept : body.type ≠ .drop) :
    (g.receive p body).Shared := by
  obtain ⟨table, rfl⟩ := shared
  cases kind : body.type with
  | plock =>
      simp only [Agreed.receive, kind, Agreed.plock]
      split <;> exact ⟨_, rfl⟩
  | own =>
      simp only [Agreed.receive, kind, Agreed.own]
      split
      · exact ⟨_, rfl⟩
      · split <;> exact ⟨_, rfl⟩
  | drop => exact absurd kind kept
  | syncLock => exact ⟨_, by simp [Agreed.receive, kind, Agreed.sync]; rfl⟩
  | syncWaiter => exact ⟨_, by simp [Agreed.receive, kind, Agreed.sync]; rfl⟩

/-- Messages that a node sends for a shared resource are good after any
message. -/
theorem Config.Promises.of_late (shared : g.Shared)
    (admissible : c.Admissible mode g p body)
    (late : ∀ body ∈ out, c.Late mode n body) :
    c.Promises mode n out (g.receive p body) := by
  by_cases kept : body.type ≠ .drop
  · exact .inr (.inl ⟨shared.receive kept, late⟩)
  · obtain ⟨_, drops⟩ := admissible
    rw [not_not.mp kept] at drops
    exact .inl fun body member => (late body member).early drops

/-- The promise of a node that is delivered a message of another node. -/
theorem Config.Promises.message_other (other : p ≠ n)
    (promises : c.Promises mode n out g)
    (admissible : c.Admissible mode g p body) :
    c.Promises mode n out (g.receive p body) := by
  rcases promises with early | ⟨shared, late⟩ | ⟨owned, rest⟩
  · exact .inl early
  · exact .of_late shared admissible late
  · exact .inr (.inr ⟨owned.receive admissible fun same => absurd same other,
      rest⟩)

/-- The promise of a node that is delivered its own message. -/
theorem Config.Promises.message_us
    (promises : c.Promises mode n (body :: out) g) :
    c.Promises mode n out (g.receive n body) := by
  have admissible := promises.head
  rcases promises with early | ⟨shared, late⟩ | ⟨owned, before, announced,
    after, split, early, announce, late⟩
  · exact .inl (List.forall_mem_cons.mp early).2
  · exact .of_late shared admissible (List.forall_mem_cons.mp late).2
  · rcases releasing_head split with ⟨later, rfl, rest⟩ | ⟨rfl, later, rfl,
      rest⟩ | ⟨_, _, rfl, rfl⟩
    · obtain ⟨head, tail⟩ := List.forall_mem_cons.mp early
      have owned := owned.receive admissible (by
        rintro _ ⟨isOwn, release⟩
        obtain ⟨_, ⟨_, claim⟩ | ⟨_, ⟨plock, _⟩ | drop⟩⟩ := head
        · exact n.ne_zero (claim.symm.trans release)
        · simp [isOwn] at plock
        · simp [isOwn] at drop)
      exact .inr (.inr ⟨owned, later, announced, after, rest, tail, announce,
        late⟩)
    · obtain ⟨head, tail⟩ := List.forall_mem_cons.mp announce
      have owned := owned.receive admissible (by
        rintro _ ⟨isOwn, _⟩
        simp [Config.Announces, isOwn] at head)
      exact .inr (.inr ⟨owned, [], later, after, rest, by simp, tail, late⟩)
    · obtain ⟨asked, table, rfl⟩ := owned
      refine .inr (.inl ⟨⟨table, ?_⟩, late⟩)
      simp [Agreed.receive, releaseBody, ownInfo, Agreed.own]

/-- A claim of the node is never out of place. -/
theorem sendOwn_early (number : r.number = c.number) :
    ∀ body ∈ bodies (sendOwn r n.val), c.Early mode n body := by
  intro body member
  unfold sendOwn at member
  split at member
  · rw [List.mem_singleton.mp member]
    exact ⟨number, .inl ⟨rfl, rfl⟩⟩
  · simp at member

section Plock

variable (tidy : c.Tidy mode)
variable (isPlock : body.type = .plock)

include tidy isPlock

/-- An operation that the node does not ignore.  A message of its own has been
taken off the messages it waits for. -/
theorem Config.Follows.plock_heard (follows : c.Follows mode n slot out g)
    (admissible : c.Admissible mode g p body)
    (calm : c.Calm mode slot out body)
    (heard : body.info.optype = .get → p = n) :
    c.Follows mode n
      (receivePlock1 (c.env n) (body.message p) slot).1
      (out ++ bodies (receivePlock1 (c.env n) (body.message p) slot).2)
      (g.plock p body.info) := by
  obtain ⟨named, admitted⟩ := admissible
  rw [isPlock] at admitted
  obtain ⟨honest, shared⟩ := admitted
  have ours (same : p = n) :
      body.info.nodeid = n.val ∧ body.info.number = c.number :=
    ⟨by rw [honest, same], named⟩
  have saved {pending : List Info} (waits : c.Waits n pending) (same : p = n) :
      c.Waits n (pending ++ [body.info]) :=
    List.forall_mem_append.mpr
      ⟨waits, List.forall_mem_singleton.mpr (ours same)⟩
  cases follows with
  | absent early =>
      rw [receivePlock1_none p heard honest]
      split
      · rename_i same
        have first : c.Waits n [] := by simp [Config.Waits]
        simp only [named]
        refine .unclaimed rfl ?_ rfl rfl rfl (saved first same) ?_
        · simp [savePendingPlock, newResource, c.ownership]
        · exact List.forall_mem_append.mpr ⟨early, sendOwn_early rfl⟩
      · simp only [bodies_nil, List.append_nil]
        exact .absent early
  | unclaimed number owner got locks waiters waits early =>
      rw [receivePlock1_some p heard honest,
        receivePlockFound_waiting p (by rw [owner]; decide)
          (by rw [owner]; exact Ne.symm n.ne_minus_one)]
      simp only [bodies_nil, List.append_nil]
      split
      · rename_i same
        exact .unclaimed number owner got locks waiters (saved waits same)
          early
      · exact .unclaimed number owner got locks waiters waits early
  | @follower r _ holder asked table notUs number owner got same unflagged
      waits early =>
      rw [receivePlock1_some p heard honest,
        receivePlockFound_waiting p (by rw [owner]; exact holder.ne_zero)
          (by rw [owner]; exact fun equal => notUs (Subtype.ext equal))]
      simp only [bodies_nil, List.append_nil]
      split
      · rename_i fromUs
        exact .follower notUs number owner got same unflagged
          (saved waits fromUs) early
      · exact .follower notUs number owner got same unflagged waits early
  | owner number owner got pending holding early =>
      rw [receivePlock1_some p heard honest, receivePlockFound_ours p owner]
      split
      · rename_i same
        rw [bodies_receivePlock2, receivePlock2_owned (c.ownership n),
          List.append_nil]
        exact .owner (by simpa using number) (by simpa using owner)
          (by simpa using got) (by simpa using pending)
          (holding.afterPlock (ours same).1 named) early
      · simp only [bodies_nil, List.append_nil]
        exact .owner number owner got pending holding early
  | releasing locks waiters before after number owner got pending holding
      order flagged early late split table =>
      have drops : mode.drops = true := by
        cases kept : mode.drops with
        | true => rfl
        | false =>
            obtain ⟨_, impossible⟩ := shared kept
            cases impossible
      have harmless := calm drops _ rfl (by rw [split]; simp)
      rw [receivePlock1_some p heard honest,
        receivePlockFound_shared p owner, bodies_receivePlock2,
        receivePlock2_harmless fun kind => harmless (.inl ⟨isPlock, kind⟩),
        List.append_nil]
      exact .releasing locks waiters before after number owner got pending
        holding order flagged early late split table
  | shared number owner pending table unflagged late =>
      rw [receivePlock1_some p heard honest,
        receivePlockFound_shared p owner, bodies_receivePlock2,
        receivePlock2_owned (c.ownership n), List.append_nil]
      simp only [Agreed.plock, honest, if_true]
      refine .shared (by simpa using number) (by simpa using owner)
        (by simpa using pending) ?_
        (unflagged.afterPlock (tidy n)) late
      rw [afterPlock_table, table]

theorem Config.Follows.plock (follows : c.Follows mode n slot out g)
    (admissible : c.Admissible mode g p body)
    (calm : c.Calm mode slot out body) :
    c.Follows mode n
      (receivePlock1 (c.env n) (body.message p) slot).1
      (out ++ bodies (receivePlock1 (c.env n) (body.message p) slot).2)
      (g.plock p body.info) := by
  by_cases ignored : body.info.optype = .get ∧ p ≠ n
  · obtain ⟨get, other⟩ := ignored
    have unchanged : receivePlock1 (c.env n) (body.message p) slot =
        (slot, []) := by
      have foreign : p.val ≠ n.val := fun same => other (Subtype.ext same)
      simp [receivePlock1, Body.message, get, c.ourNodeid, foreign]
    have same : g.plock p body.info = g := by
      cases g with
      | unowned table => simp [Agreed.plock, Table.exec, get]
      | none => rfl
      | owned owner asked table => rfl
    rw [unchanged, same]
    simpa using follows
  · apply follows.plock_heard tidy isPlock admissible calm
    intro get
    by_contra other
    exact ignored ⟨get, other⟩

end Plock

section Own

/-- The operations that waited for the claim are executed by the new owner. -/
theorem addPendingLoop_owner {infos : List Info}
    (waits : c.Waits n infos) (number : r.number = c.number)
    (owner : r.owner = n.val) (got : r.gotUnown = false)
    (pending : r.pending = []) (holding : c.Holding mode n r) :
    ∃ s, (addPendingLoop (c.env n) infos r).1 = some s ∧
      s.number = c.number ∧ s.owner = n.val ∧ s.gotUnown = false ∧
      s.pending = [] ∧ c.Holding mode n s := by
  induction infos generalizing r with
  | nil => exact ⟨r, rfl, number, owner, got, pending, holding⟩
  | cons info later induction =>
      obtain ⟨⟨nodeid, named⟩, rest⟩ := List.forall_mem_cons.mp waits
      rw [addPendingLoop_cons (c.ownership n)]
      exact @induction (afterPlock (c.env n) info r) rest
        (by simpa using number) (by simpa using owner) (by simpa using got)
        (by simpa using pending) (holding.afterPlock nodeid named)

/-- A message that is neither an announcement nor the release may be taken off
the front. -/
theorem Config.Follows.tail (follows : c.Follows mode n slot (body :: out) g)
    (unannounced : ¬c.Announces mode n body)
    (unreleased : body ≠ releaseBody c.number) :
    c.Follows mode n slot out g := by
  cases follows with
  | absent early => exact .absent (List.forall_mem_cons.mp early).2
  | unclaimed number owner got locks waiters waits early =>
      exact .unclaimed number owner got locks waiters waits
        (List.forall_mem_cons.mp early).2
  | follower other number owner got table unflagged waits early =>
      exact .follower other number owner got table unflagged waits
        (List.forall_mem_cons.mp early).2
  | owner number owner got pending holding early =>
      exact .owner number owner got pending holding
        (List.forall_mem_cons.mp early).2
  | releasing locks waiters before after number owner got pending holding
      order flagged early late split table =>
      rcases releasing_head split with ⟨later, rfl, rest⟩ | ⟨_, later,
        listed, _⟩ | ⟨_, _, same, _⟩
      · exact .releasing locks waiters later after number owner got pending
          holding order flagged (List.forall_mem_cons.mp early).2 late rest
          table
      · have announces := announcements_announce holding number locks waiters
          body (by rw [listed]; exact List.mem_cons_self)
        exact absurd announces unannounced
      · exact absurd same unreleased
  | shared number owner pending table unflagged late =>
      exact .shared number owner pending table unflagged
        (List.forall_mem_cons.mp late).2

theorem sendPendingPlocks_nil (pending : r.pending = []) :
    sendPendingPlocks r = (r, []) := by
  cases r
  simp only at pending
  simp [sendPendingPlocks, pending]

theorem receiveOwn1_us :
    receiveOwn1 (c.env n) (body.message n) slot =
      receiveOwnFromUs (c.env n) body.info
        (slot.getD (newResource (c.env n) body.info.number)) := by
  cases slot with
  | none =>
      simp [receiveOwn1, findResource, Body.message, c.ourNodeid]
  | some r =>
      simp [receiveOwn1, findResource, Body.message, c.ourNodeid]

theorem receiveOwn1_other (other : p ≠ n) :
    receiveOwn1 (c.env n) (body.message p) slot =
      receiveOwnFromOther (c.env n) body.info p.val
        (slot.getD (newResource (c.env n) body.info.number)) := by
  cases slot with
  | none =>
      simp [receiveOwn1, findResource, Body.message, c.ourNodeid,
        Subtype.val_inj, other]
  | some r =>
      simp [receiveOwn1, findResource, Body.message, c.ourNodeid,
        Subtype.val_inj, other]

/-- The node's claim of an unclaimed resource makes it the owner. -/
theorem Config.Follows.become_owner (nodeid : info.nodeid = n.val)
    (number : r.number = c.number) (owner : r.owner = -1)
    (got : r.gotUnown = false) (locks : r.locks = [])
    (waiters : r.waiters = []) (waits : c.Waits n r.pending)
    (early : ∀ body ∈ out, c.Early mode n body) :
    c.Follows mode n (receiveOwnFromUs (c.env n) info r).1
      (out ++ bodies (receiveOwnFromUs (c.env n) info r).2)
      (.owned n false Table.empty) := by
  have claimed : receiveOwnFromUs (c.env n) info r =
      addPendingPlocks (c.env n) { r with owner := n.val } := by
    simp [receiveOwnFromUs, nodeid, n.ne_zero, c.ourNodeid, owner]
  let claimant : Resource := { r with owner := n.val, pending := [] }
  have holding : c.Holding mode n claimant := by
    refine ⟨?_, ?_, ?_⟩
    · simp [claimant, waiters]
    · simp [claimant, locks]
    · simp [claimant, waiters]
  obtain ⟨s, result, sNumber, sOwner, sGot, sPending, sHolding⟩ :=
    @addPendingLoop_owner c mode n claimant r.pending waits number rfl got rfl
      holding
  rw [claimed, addPendingPlocks, bodies_addPendingLoop (c.ownership n),
    result, List.append_nil]
  exact .owner sNumber sOwner sGot sPending sHolding early

/-- A claim of the node's own comes back. -/
theorem Config.Follows.own_claim_us (nodeid : body.info.nodeid = n.val)
    (named : body.info.number = c.number)
    (follows : c.Follows mode n slot out g) :
    c.Follows mode n (receiveOwn1 (c.env n) (body.message n) slot).1
      (out ++ bodies (receiveOwn1 (c.env n) (body.message n) slot).2)
      (g.own n body.info.nodeid) := by
  have unchanged {r : Resource} (claimed : r.owner ≠ -1)
      (pending : r.owner = 0 → r.pending = []) :
      (receiveOwnFromUs (c.env n) body.info r).1 = some r ∧
        bodies (receiveOwnFromUs (c.env n) body.info r).2 = [] := by
    by_cases shared : r.owner = 0
    · simp [receiveOwnFromUs, nodeid, n.ne_zero, c.ourNodeid, shared,
        Ne.symm n.ne_zero, sendPendingPlocks_nil (pending shared)]
    · simp only [receiveOwnFromUs, nodeid, n.ne_zero, c.ourNodeid, claimed,
        shared, if_false, if_true]
      split <;> exact ⟨rfl, rfl⟩
  rw [receiveOwn1_us]
  have notZero : body.info.nodeid ≠ 0 := nodeid ▸ n.ne_zero
  cases follows with
  | absent early =>
      simp only [Option.getD_none, named, Agreed.own, nodeid, n.ne_zero,
        if_false, if_true]
      exact .become_owner nodeid rfl (by simp [newResource, c.ownership]) rfl
        rfl rfl (by simp [Config.Waits, newResource]) early
  | unclaimed number owner got locks waiters waits early =>
      simp only [Option.getD_some, Agreed.own, nodeid, n.ne_zero, if_false,
        if_true]
      exact .become_owner nodeid number owner got locks waiters waits early
  | @follower r _ holder asked table other number owner got same unflagged
      waits early =>
      obtain ⟨kept, quiet⟩ := @unchanged r
        (by rw [owner]; exact holder.ne_minus_one)
        (by rw [owner]; exact fun zero => absurd zero holder.ne_zero)
      simp only [Option.getD_some, kept, quiet, List.append_nil, Agreed.own,
        nodeid, n.ne_zero, if_false, if_true]
      exact .follower other number owner got same unflagged waits early
  | @owner r _ number owner got pending holding early =>
      obtain ⟨kept, quiet⟩ := @unchanged r
        (by rw [owner]; exact n.ne_minus_one) (fun _ => pending)
      simp only [Option.getD_some, kept, quiet, List.append_nil, Agreed.own,
        nodeid, n.ne_zero, if_false, if_true, ne_eq, not_true_eq_false,
        decide_false, Bool.or_false]
      exact .owner number owner got pending holding early
  | @releasing r _ asked table locks waiters before after number owner got
      pending holding order flagged early late split same =>
      obtain ⟨kept, quiet⟩ := @unchanged r (by rw [owner]; decide)
        (fun _ => pending)
      simp only [Option.getD_some, kept, quiet, List.append_nil, Agreed.own,
        nodeid, n.ne_zero, if_false, if_true]
      exact .releasing locks waiters before after number owner got pending
        holding order flagged early late split same
  | @shared r _ table number owner pending same unflagged late =>
      obtain ⟨kept, quiet⟩ := @unchanged r (by rw [owner]; decide)
        (fun _ => pending)
      simp only [Option.getD_some, kept, quiet, List.append_nil, Agreed.own,
        nodeid, n.ne_zero, if_false, if_true]
      exact .shared number owner pending same unflagged late

/-- The release has nothing left to announce when its `OWN 0` comes back. -/
theorem cut_eq_self {locks waiters : Nat}
    (nothing : announcements r locks waiters = []) :
    r.table.cut locks waiters = r.table ∧ r.locks.take locks = r.locks ∧
      r.waiters.take waiters = r.waiters := by
  obtain ⟨noLocks, noWaiters⟩ := List.append_eq_nil_iff.mp nothing
  simp only [List.drop_eq_nil_iff, List.length_map] at noLocks noWaiters
  refine ⟨?_, List.take_of_length_le noLocks,
    List.take_of_length_le noWaiters⟩
  simp only [Table.cut, Resource.table]
  rw [List.take_of_length_le (by simpa using noLocks),
    List.take_of_length_le (by simpa using noWaiters)]

/-- The node's release comes back. -/
theorem Config.Follows.own_release_us (isOwn : body.type = .own)
    (nodeid : body.info.nodeid = 0)
    (follows : c.Follows mode n slot (body :: out) g) :
    c.Follows mode n (receiveOwn1 (c.env n) (body.message n) slot).1
      (out ++ bodies (receiveOwn1 (c.env n) (body.message n) slot).2)
      (g.own n body.info.nodeid) := by
  have notEarly : ¬c.Early mode n body := by
    simp [Config.Early, isOwn, nodeid, Ne.symm n.ne_zero]
  have notLate : ¬c.Late mode n body := by
    simp [Config.Late, isOwn, nodeid, Ne.symm n.ne_zero]
  cases follows with
  | absent early => exact absurd (early body List.mem_cons_self) notEarly
  | unclaimed _ _ _ _ _ _ early =>
      exact absurd (early body List.mem_cons_self) notEarly
  | follower _ _ _ _ _ _ _ early =>
      exact absurd (early body List.mem_cons_self) notEarly
  | owner _ _ _ _ _ early =>
      exact absurd (early body List.mem_cons_self) notEarly
  | shared _ _ _ _ _ late =>
      exact absurd (late body List.mem_cons_self) notLate
  | @releasing r _ asked table locks waiters before after number owner got
      pending holding order flagged early late split same =>
      rcases releasing_head split with ⟨later, rfl, _⟩ | ⟨_, later,
        listed, _⟩ | ⟨_, nothing, _, rest⟩
      · exact absurd (early body List.mem_cons_self) notEarly
      · have announces := announcements_announce holding number locks waiters
          body (by rw [listed]; exact List.mem_cons_self)
        simp [Config.Announces, isOwn] at announces
      · obtain ⟨whole, allLocks, allWaiters⟩ := cut_eq_self nothing
        have released : receiveOwn1 (c.env n) (body.message n) (some r) =
            (some { r with gotUnown := true }, []) := by
          simp [receiveOwn1_us, receiveOwnFromUs, nodeid, owner, c.ourNodeid,
            Ne.symm n.ne_zero]
        rw [released, nodeid, rest]
        simp only [bodies_nil, List.append_nil, Agreed.own, if_true]
        refine .shared number owner pending (whole.symm.trans same) ?_ late
        intro stores
        obtain ⟨⟨unflaggedLocks, _⟩, unflaggedWaiters, _⟩ := flagged stores
        rw [allLocks] at unflaggedLocks
        rw [allWaiters] at unflaggedWaiters
        exact ⟨unflaggedLocks, unflaggedWaiters⟩

/-- An owner that is asked for its resource announces its table and releases
it. -/
theorem Config.Follows.relinquish {asked : Bool}
    (number : r.number = c.number) (got : r.gotUnown = false)
    (pending : r.pending = []) (holding : c.Holding mode n r)
    (early : ∀ body ∈ out, c.Early mode n body) :
    c.Follows mode n (some { (sendSyncs r).1 with owner := 0 })
      (out ++ bodies ((sendSyncs r).2 ++ sendOwn (sendSyncs r).1 0))
      (.owned n asked Table.empty) := by
  have held : c.Holding mode n { (sendSyncs r).1 with owner := 0 } := by
    refine ⟨?_, ?_, ?_⟩
    · intro w member
      obtain ⟨old, found, rfl⟩ := List.mem_map.mp member
      exact holding.number old found
    · intro confined po member
      obtain ⟨old, found, rfl⟩ := List.mem_map.mp member
      exact holding.locks confined old found
    · intro confined w member
      obtain ⟨old, found, rfl⟩ := List.mem_map.mp member
      exact holding.waiters confined old found
  have sent : bodies ((sendSyncs r).2 ++ sendOwn (sendSyncs r).1 0) =
      announcements { (sendSyncs r).1 with owner := 0 } 0 0 ++
        [releaseBody c.number] := by
    have released : bodies (sendOwn (sendSyncs r).1 0) =
        [releaseBody c.number] := by
      simp [sendOwn, sendSyncs, pending, sendStructInfo, releaseBody, number]
    rw [bodies_append, released, bodies_sendSyncs]
    simp only [announcements, sendSyncs, List.map_map, List.drop_zero]
    rfl
  refine .releasing 0 0 out [] number rfl got pending held (fun _ => rfl) ?_
    early (by simp) (by rw [sent]) rfl
  intro _
  simp [sendSyncs]

/-- A claim of another node. -/
theorem Config.Follows.own_claim_other (other : p ≠ n)
    (nodeid : body.info.nodeid = p.val) (named : body.info.number = c.number)
    (follows : c.Follows mode n slot out g) :
    c.Follows mode n (receiveOwn1 (c.env n) (body.message p) slot).1
      (out ++ bodies (receiveOwn1 (c.env n) (body.message p) slot).2)
      (g.own p body.info.nodeid) := by
  have unchanged {r : Resource} (claimed : r.owner ≠ -1)
      (notOurs : r.owner ≠ n.val) :
      receiveOwnFromOther (c.env n) body.info p.val r = (some r, []) := by
    simp [receiveOwnFromOther, nodeid, p.ne_zero, c.ourNodeid, claimed,
      notOurs]
  have obey {r : Resource} (number : r.number = c.number)
      (owner : r.owner = -1) (got : r.gotUnown = false)
      (locks : r.locks = []) (waiters : r.waiters = [])
      (waits : c.Waits n r.pending)
      (early : ∀ body ∈ out, c.Early mode n body) :
      c.Follows mode n (receiveOwnFromOther (c.env n) body.info p.val r).1
        (out ++
          bodies (receiveOwnFromOther (c.env n) body.info p.val r).2)
        (.owned p false Table.empty) := by
    have claimed : receiveOwnFromOther (c.env n) body.info p.val r =
        (some { r with owner := p.val }, []) := by
      simp [receiveOwnFromOther, nodeid, p.ne_zero, owner]
    rw [claimed, bodies_nil, List.append_nil]
    refine .follower other number rfl got ?_ ?_ waits early
    · simp [Resource.table, locks, waiters, Table.empty]
    · intro _
      simp [locks, waiters]
  rw [receiveOwn1_other other]
  cases follows with
  | absent early =>
      simp only [Option.getD_none, named, Agreed.own, nodeid, p.ne_zero,
        if_false, if_true]
      exact obey rfl (by simp [newResource, c.ownership]) rfl rfl rfl
        (by simp [Config.Waits, newResource]) early
  | unclaimed number owner got locks waiters waits early =>
      simp only [Option.getD_some, Agreed.own, nodeid, p.ne_zero, if_false,
        if_true]
      exact obey number owner got locks waiters waits early
  | @follower r _ holder asked table notUs number owner got same unflagged
      waits early =>
      rw [Option.getD_some, unchanged
        (by rw [owner]; exact holder.ne_minus_one)
        (by rw [owner]; exact fun equal => notUs (Subtype.ext equal))]
      simp only [bodies_nil, List.append_nil, Agreed.own, nodeid, p.ne_zero,
        if_false, if_true]
      exact .follower notUs number owner got same unflagged waits early
  | @owner r _ number owner got pending holding early =>
      have asked : receiveOwnFromOther (c.env n) body.info p.val r =
          (some { (sendSyncs r).1 with owner := 0 },
            (sendSyncs r).2 ++ sendOwn (sendSyncs r).1 0) := by
        simp [receiveOwnFromOther, nodeid, p.ne_zero, c.ourNodeid, owner,
          n.ne_minus_one]
      rw [Option.getD_some, asked]
      simp only [Agreed.own, nodeid, p.ne_zero, if_false, if_true]
      exact .relinquish number got pending holding early
  | @releasing r _ asked table locks waiters before after number owner got
      pending holding order flagged early late split same =>
      rw [Option.getD_some, unchanged (by rw [owner]; decide)
        (by rw [owner]; exact Ne.symm n.ne_zero)]
      simp only [bodies_nil, List.append_nil, Agreed.own, nodeid, p.ne_zero,
        if_false, if_true]
      exact .releasing locks waiters before after number owner got pending
        holding order flagged early late split same
  | @shared r _ table number owner pending same unflagged late =>
      rw [Option.getD_some, unchanged (by rw [owner]; decide)
        (by rw [owner]; exact Ne.symm n.ne_zero)]
      simp only [bodies_nil, List.append_nil, Agreed.own, nodeid, p.ne_zero,
        if_false, if_true]
      exact .shared number owner pending same unflagged late

theorem bodies_sendPendingPlocks (r : Resource) :
    bodies (sendPendingPlocks r).2 =
      r.pending.map fun info => { type := .plock, info := info } := by
  simp [sendPendingPlocks, bodies, List.filterMap_map, Function.comp_def,
    sendPlock, sendStructInfo]

theorem sendPending_late (waits : c.Waits n r.pending) :
    ∀ body ∈ bodies (sendPendingPlocks r).2, c.Late mode n body := by
  intro body member
  rw [bodies_sendPendingPlocks] at member
  obtain ⟨info, found, rfl⟩ := List.mem_map.mp member
  obtain ⟨nodeid, number⟩ := waits info found
  exact ⟨number, .inr (.inl ⟨rfl, nodeid⟩)⟩

/-- The release of another owner. -/
theorem Config.Follows.own_release_other (other : p ≠ n)
    (nodeid : body.info.nodeid = 0) (owned : g.OwnedBy p)
    (follows : c.Follows mode n slot out g) :
    c.Follows mode n (receiveOwn1 (c.env n) (body.message p) slot).1
      (out ++ bodies (receiveOwn1 (c.env n) (body.message p) slot).2)
      (g.own p body.info.nodeid) := by
  obtain ⟨asked, table, rfl⟩ := owned
  cases follows with
  | owner => exact absurd rfl other
  | releasing => exact absurd rfl other
  | @follower r _ _ _ _ _ number owner got same unflagged waits early =>
      have foreign : p.val ≠ n.val := fun equal => other (Subtype.ext equal)
      let freed : Resource := { r with owner := 0, gotUnown := true }
      have released : receiveOwn1 (c.env n) (body.message p) (some r) =
          (some (sendPendingPlocks freed).1, (sendPendingPlocks freed).2) := by
        simp [receiveOwn1_other other, receiveOwnFromOther, nodeid, owner,
          c.ourNodeid, p.ne_zero, p.ne_minus_one, foreign, freed]
      rw [released, nodeid]
      simp only [Agreed.own, if_true]
      refine .shared number rfl rfl same unflagged ?_
      exact List.forall_mem_append.mpr
        ⟨fun body member => (early body member).late,
          @sendPending_late c mode n freed waits⟩

end Own

section Drop

theorem receiveDrop1_owned (owned : r.owner ≠ 0) :
    receiveDrop1 (some r) = some r := by
  simp [receiveDrop1, owned]

/-- A `PLOCK_DROP` message. -/
theorem Config.Follows.drop (isDrop : body.type = .drop)
    (drops : mode.drops = true) (calm : c.Calm mode slot out body)
    (follows : c.Follows mode n slot out g) :
    c.Follows mode n (receiveDrop1 slot) out g.drop := by
  cases follows with
  | absent early => exact .absent early
  | unclaimed number owner got locks waiters waits early =>
      rw [receiveDrop1_owned (by rw [owner]; decide)]
      exact .unclaimed number owner got locks waiters waits early
  | @follower r _ holder asked table other number owner got same unflagged
      waits early =>
      rw [receiveDrop1_owned (by rw [owner]; exact holder.ne_zero)]
      exact .follower other number owner got same unflagged waits early
  | @owner r _ number owner got pending holding early =>
      rw [receiveDrop1_owned (by rw [owner]; exact n.ne_zero)]
      exact .owner number owner got pending holding early
  | @releasing r _ asked table locks waiters before after number owner got
      pending holding order flagged early late split same =>
      have harmless := calm drops r rfl (by rw [split]; simp)
      have kept : receiveDrop1 (some r) = some r := by
        have used : ¬(r.locks.isEmpty && r.waiters.isEmpty) = true := by
          rw [Bool.and_eq_true, List.isEmpty_iff, List.isEmpty_iff]
          exact fun empty => harmless (.inr ⟨isDrop, empty⟩)
        simp [receiveDrop1, owner, pending, used]
      rw [kept]
      exact .releasing locks waiters before after number owner got pending
        holding order flagged early late split same
  | @shared r _ table number owner pending same unflagged late =>
      have decided : receiveDrop1 (some r) =
          if table.isEmpty then none else some r := by
        simp [receiveDrop1, owner, pending, ← same, Table.isEmpty,
          Resource.table]
      rw [decided, Agreed.drop]
      split
      · exact .absent fun body member => (late body member).early drops
      · exact .shared number owner pending same unflagged late

end Drop

end Handlers

end Dlm.Cluster
