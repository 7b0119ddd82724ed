import Dlm.Cluster.Agreed

/-!
# How a node follows the agreed state

`Config.Follows` relates the resource of a node, and what the node has sent
and not been delivered, to the agreed state at the position of the node.  The
owner of a resource is ahead of the agreed state: it has a table of its own,
and after it has released the resource it waits for its announcements and its
`OWN 0` message to come back.
-/

namespace Dlm.Plock

/-- The part of a table that has been announced. -/
def Table.cut (locks waiters : Nat) (table : Table) : Table :=
  { locks := table.locks.take locks, waiters := table.waiters.take waiters }

end Dlm.Plock

namespace Dlm.Cluster

open Plock Broadcast

/-- The message with which `send_syncs` announces a lock. -/
def lockBody (number : UInt64) (po : PosixLock) : Body :=
  { type := .syncLock, info := syncLockInfo number po }

/-- The message with which `send_syncs` announces a waiter. -/
def waiterBody (w : LockWaiter) : Body :=
  { type := .syncWaiter, info := w.info }

/-- The `OWN 0` message. -/
def releaseBody (number : UInt64) : Body :=
  { type := .own, info := ownInfo number 0 }

/-- The table with what the message announces. -/
def announce (table : Table) (body : Body) : Table :=
  match body.type with
  | .syncLock => table.syncLock body.info
  | .syncWaiter => table.syncWaiter body.info
  | _ => table

/-- What is left to announce after a number of locks and waiters. -/
def announcements (r : Resource) (locks waiters : Nat) : List Body :=
  (r.locks.map (lockBody r.number)).drop locks ++
    (r.waiters.map waiterBody).drop waiters

section Relation

variable (c : Config) (mode : Mode) (n : Nodeid)

/-- The messages that a node may have outstanding before the resource is
shared. -/
def Config.Early (body : Body) : Prop :=
  body.info.number = c.number ∧
    (body.type = .own ∧ body.info.nodeid = n.val ∨
      mode.drops = true ∧
        (body.type = .plock ∧ body.info.nodeid = n.val ∨ body.type = .drop))

/-- The messages that a node may have outstanding for a shared resource. -/
def Config.Late (body : Body) : Prop :=
  body.info.number = c.number ∧
    (body.type = .own ∧ body.info.nodeid = n.val ∨
      body.type = .plock ∧ body.info.nodeid = n.val ∨
      mode.drops = true ∧ body.type = .drop)

/-- An announcement of the node's table. -/
def Config.Announces (body : Body) : Prop :=
  body.info.number = c.number ∧
    (body.type = .syncLock ∨ body.type = .syncWaiter) ∧
    (mode.foreign = false → body.info.nodeid = n.val)

/-- The operations that wait for an owner are the node's own. -/
def Config.Waits (pending : List Info) : Prop :=
  ∀ info ∈ pending, info.nodeid = n.val ∧ info.number = c.number

/-- The table of an owner. -/
structure Config.Holding (r : Resource) : Prop where
  number : ∀ w ∈ r.waiters, w.info.number = c.number
  locks : mode.foreign = false → ∀ po ∈ r.locks, po.nodeid = n.val
  waiters : mode.foreign = false → ∀ w ∈ r.waiters, w.info.nodeid = n.val

def Mode.Unflagged (r : Resource) : Prop :=
  mode.stores n = true →
    (∀ po ∈ r.locks, po.syncing = false) ∧
      ∀ w ∈ r.waiters, w.syncing = false

/-- The flags of the waiters that a storing node allocates are cleared. -/
def Config.Tidy : Prop :=
  ∀ n, mode.stores n = true → ∀ info, (c.env n).waiterJunk info = false

/-- `P_SYNCING` is set on what is left to announce. -/
def Mode.FlaggedFrom (locks waiters : Nat) (r : Resource) : Prop :=
  mode.stores n = true →
    ((∀ po ∈ r.locks.take locks, po.syncing = false) ∧
        ∀ po ∈ r.locks.drop locks, po.syncing = true) ∧
      (∀ w ∈ r.waiters.take waiters, w.syncing = false) ∧
        ∀ w ∈ r.waiters.drop waiters, w.syncing = true

/-- The relation between a node and the agreed state. -/
inductive Config.Follows : Option Resource → List Body → Agreed → Prop where
  | absent {out : List Body} :
      (∀ body ∈ out, c.Early mode n body) → Follows none out .none
  | unclaimed {r : Resource} {out : List Body} :
      r.number = c.number → r.owner = -1 → r.gotUnown = false →
      r.locks = [] → r.waiters = [] → c.Waits n r.pending →
      (∀ body ∈ out, c.Early mode n body) → Follows (some r) out .none
  | follower {r : Resource} {out : List Body} {owner : Nodeid}
      {asked : Bool} {table : Table} :
      owner ≠ n → r.number = c.number → r.owner = owner.val →
      r.gotUnown = false → r.table = table → mode.Unflagged n r →
      c.Waits n r.pending → (∀ body ∈ out, c.Early mode n body) →
      Follows (some r) out (.owned owner asked table)
  | owner {r : Resource} {out : List Body} :
      r.number = c.number → r.owner = n.val → r.gotUnown = false →
      r.pending = [] → c.Holding mode n r →
      (∀ body ∈ out, c.Early mode n body) →
      Follows (some r) out (.owned n false Table.empty)
  | releasing {r : Resource} {out : List Body} {asked : Bool}
      {table : Table} (locks waiters : Nat) (before after : List Body) :
      r.number = c.number → r.owner = 0 → r.gotUnown = false →
      r.pending = [] → c.Holding mode n r →
      (locks < r.locks.length → waiters = 0) →
      mode.FlaggedFrom n locks waiters r →
      (∀ body ∈ before, c.Early mode n body) →
      (∀ body ∈ after, c.Late mode n body) →
      out = before ++
        (announcements r locks waiters ++ releaseBody c.number :: after) →
      r.table.cut locks waiters = table →
      Follows (some r) out (.owned n asked table)
  | shared {r : Resource} {out : List Body} {table : Table} :
      r.number = c.number → r.owner = 0 → r.pending = [] →
      r.table = table → mode.Unflagged n r →
      (∀ body ∈ out, c.Late mode n body) →
      Follows (some r) out (.unowned table)

/-- What remains of the relation when the node lags behind. -/
def Config.Promises (out : List Body) (g : Agreed) : Prop :=
  (∀ body ∈ out, c.Early mode n body) ∨
    (g.Shared ∧ ∀ body ∈ out, c.Late mode n body) ∨
    (g.OwnedBy n ∧ ∃ before announced after,
      out = before ++ (announced ++ releaseBody c.number :: after) ∧
      (∀ body ∈ before, c.Early mode n body) ∧
      (∀ body ∈ announced, c.Announces mode n body) ∧
      ∀ body ∈ after, c.Late mode n body)

end Relation

end Dlm.Cluster
