import Dlm.Cluster.System
import Dlm.Plock.Plain

/-!
# The agreed state of a resource

What the log says about the resource: nobody has claimed it since it was last
dropped, a node owns it and has announced a part of its table, or it is shared
by all nodes.  The state is a function of the log alone.
-/

namespace Dlm.Plock

/-- The table with a lock announced by `PLOCK_SYNC_LOCK`. -/
def Table.syncLock (info : Info) (table : Table) : Table :=
  { table with
    locks := table.locks ++
      [{ pid := info.pid
         owner := info.owner
         start := info.start
         stop := info.stop
         ex := info.ex
         nodeid := info.nodeid
         syncing := false }] }

/-- The table with a waiter announced by `PLOCK_SYNC_WAITER`. -/
def Table.syncWaiter (info : Info) (table : Table) : Table :=
  { table with
    waiters :=
      table.waiters ++ [{ syncing := false, info := plainInfo info }] }

/-- The table after the removal of a failed node. -/
def Table.remove (nodeid : Int32) (table : Table) : Table :=
  (table.purge nodeid false).wake

end Dlm.Plock

namespace Dlm.Cluster

open Plock Broadcast

/-- The agreed state.  `asked` tells that another node has asked the owner for
the resource, and the table of an owned resource holds what the owner has
announced. -/
inductive Agreed where
  | none
  | owned (owner : Nodeid) (asked : Bool) (table : Table)
  | unowned (table : Table)

namespace Agreed

/-- A `PLOCK` message counts while the resource is shared. -/
def plock (sender : Nodeid) (info : Info) : Agreed → Agreed
  | .unowned table =>
      if info.nodeid = sender.val then .unowned (table.exec info)
      else .unowned table
  | g => g

/-- The first claim makes its sender the owner, and only the owner's `OWN 0`
releases the resource. -/
def own (sender : Nodeid) (claimed : Int32) (g : Agreed) : Agreed :=
  if claimed = 0 then
    match g with
    | .owned owner asked table =>
        if owner = sender then .unowned table else .owned owner asked table
    | g => g
  else if claimed = sender.val then
    match g with
    | .none => .owned sender false Table.empty
    | .owned owner asked table =>
        .owned owner (asked || decide (owner ≠ sender)) table
    | .unowned table => .unowned table
  else g

def sync (sender : Nodeid) (change : Table → Table) : Agreed → Agreed
  | .owned owner asked table =>
      if owner = sender then .owned owner asked (change table)
      else .owned owner asked table
  | g => g

/-- A shared resource with no lock and no waiter is dropped. -/
def drop : Agreed → Agreed
  | .unowned table => if table.isEmpty then .none else .unowned table
  | g => g

def remove (node : Nodeid) : Agreed → Agreed
  | .none => .none
  | .owned owner asked table =>
      if owner = node then .unowned (table.remove node.val)
      else .owned owner asked (table.remove node.val)
  | .unowned table => .unowned (table.remove node.val)

def receive (sender : Nodeid) (body : Body) (g : Agreed) : Agreed :=
  match body.type with
  | .plock => g.plock sender body.info
  | .own => g.own sender body.info.nodeid
  | .drop => g.drop
  | .syncLock => g.sync sender (Table.syncLock body.info)
  | .syncWaiter => g.sync sender (Table.syncWaiter body.info)

def advance (g : Agreed) : Entry Nodeid Body → Agreed
  | .message sender body => g.receive sender body
  | .down node => g.remove node

/-- The owner that a checkpoint should name; `none` while nobody has claimed
the resource. -/
def owner : Agreed → Option Int32
  | .none => Option.none
  | .owned owner _ _ => some owner.val
  | .unowned _ => some 0

/-- Whether the node is the owner. -/
def OwnedBy (n : Nodeid) (g : Agreed) : Prop :=
  ∃ asked table, g = .owned n asked table

def Shared (g : Agreed) : Prop := ∃ table, g = .unowned table

end Agreed

/-- What a class of runs contains.  `drops`: `PLOCK_DROP` messages are sent.
`stores`: the nodes that store checkpoints, whose `P_SYNCING` flags matter.
`foreign`: an owner may start with locks and waiters of other nodes in its
table, and no node fails. -/
structure Mode where
  drops : Bool
  stores : Nodeid → Bool
  foreign : Bool

variable (c : Config) (mode : Mode)

/-- The messages that a node sends in the agreed state: it claims the resource
for itself, announces and releases it only as its owner and, when nothing is
dropped, sends operations only while the resource is shared. -/
def Config.Admissible (g : Agreed) (sender : Nodeid) (body : Body) : Prop :=
  body.info.number = c.number ∧
    match body.type with
    | .plock => body.info.nodeid = sender.val ∧
        (mode.drops = false → g.Shared)
    | .own => body.info.nodeid = sender.val ∨
        body.info.nodeid = 0 ∧ g.OwnedBy sender
    | .drop => mode.drops = true
    | .syncLock => g.OwnedBy sender ∧
        (mode.foreign = false → body.info.nodeid = sender.val)
    | .syncWaiter => g.OwnedBy sender ∧
        (mode.foreign = false → body.info.nodeid = sender.val)

def Config.agreement (start : Agreed) : Agreement Nodeid Body Agreed :=
  { start := start
    advance := Agreed.advance
    Admissible := c.Admissible mode
    Fallible := True }

/-- The message gives up the resource. -/
def Body.Releases (body : Body) : Prop :=
  body.type = .own ∧ body.info.nodeid = 0

section Receive

variable {body : Body}

/-- What a message does to a shared resource. -/
theorem Agreed.unowned_receive (p : Nodeid) (body : Body) (table : Table) :
    (Agreed.unowned table).receive p body = .unowned table ∨
      (body.type = .plock ∧ body.info.nodeid = p.val ∧
        (Agreed.unowned table).receive p body =
          .unowned (table.exec body.info)) ∨
      table.isEmpty = true ∧
        (Agreed.unowned table).receive p body = .none := by
  cases kind : body.type with
  | plock =>
      simp only [Agreed.receive, kind, Agreed.plock]
      split
      · rename_i honest
        exact .inr (.inl ⟨trivial, honest, rfl⟩)
      · exact .inl rfl
  | own =>
      simp only [Agreed.receive, kind, Agreed.own]
      split
      · exact .inl rfl
      · split
        · exact .inl rfl
        · exact .inl rfl
  | drop =>
      simp only [Agreed.receive, kind, Agreed.drop]
      split
      · rename_i empty
        exact .inr (.inr ⟨empty, rfl⟩)
      · exact .inl rfl
  | syncLock => exact .inl (by simp [Agreed.receive, kind, Agreed.sync])
  | syncWaiter => exact .inl (by simp [Agreed.receive, kind, Agreed.sync])

/-- What a message does to an owned resource: only the release of its owner
makes it shared. -/
theorem Agreed.owned_receive_cases (p owner : Nodeid) (asked : Bool)
    (table : Table) (body : Body) :
    (owner = p ∧ body.Releases ∧
        (Agreed.owned owner asked table).receive p body = .unowned table) ∨
      ¬(owner = p ∧ body.Releases) ∧
        ((Agreed.owned owner asked table).receive p body).OwnedBy owner := by
  have kept (other : body.type ≠ .own) :
      ¬(owner = p ∧ body.Releases) := fun releases => other releases.2.1
  cases kind : body.type with
  | plock =>
      right
      refine ⟨kept (by rw [kind]; decide), asked, table, ?_⟩
      simp only [Agreed.receive, kind, Agreed.plock]
  | own =>
      simp only [Agreed.receive, kind, Agreed.own]
      by_cases nobody : body.info.nodeid = 0
      · rw [if_pos nobody]
        by_cases same : owner = p
        · rw [if_pos same]
          exact .inl ⟨same, ⟨kind, nobody⟩, rfl⟩
        · rw [if_neg same]
          exact .inr ⟨fun releases => same releases.1, _, _, rfl⟩
      · rw [if_neg nobody]
        right
        refine ⟨fun releases => nobody releases.2.2, ?_⟩
        split
        · exact ⟨_, _, rfl⟩
        · exact ⟨_, _, rfl⟩
  | drop =>
      right
      refine ⟨kept (by rw [kind]; decide), asked, table, ?_⟩
      simp only [Agreed.receive, kind, Agreed.drop]
  | syncLock =>
      right
      refine ⟨kept (by rw [kind]; decide), ?_⟩
      simp only [Agreed.receive, kind, Agreed.sync]
      split
      · exact ⟨_, _, rfl⟩
      · exact ⟨_, _, rfl⟩
  | syncWaiter =>
      right
      refine ⟨kept (by rw [kind]; decide), ?_⟩
      simp only [Agreed.receive, kind, Agreed.sync]
      split
      · exact ⟨_, _, rfl⟩
      · exact ⟨_, _, rfl⟩

/-- Only the release of its owner makes an owned resource shared. -/
theorem Agreed.owned_receive_unowned {p owner : Nodeid} {asked : Bool}
    {table announced : Table}
    (reached : (Agreed.owned owner asked announced).receive p body =
      .unowned table) : owner = p ∧ body.Releases ∧ announced = table := by
  rcases Agreed.owned_receive_cases p owner asked announced body with
    ⟨same, releases, shared⟩ | ⟨_, _, _, owned⟩
  · rw [shared] at reached
    exact ⟨same, releases, Agreed.unowned.inj reached⟩
  · rw [owned] at reached
    cases reached

theorem Agreed.none_receive_unowned {p : Nodeid} {table : Table} :
    Agreed.none.receive p body ≠ .unowned table := by
  intro reached
  simp only [Agreed.receive] at reached
  split at reached
  case h_2 =>
    simp only [Agreed.own] at reached
    split at reached
    · cases reached
    · split at reached
      · cases reached
      · cases reached
  all_goals cases reached

end Receive

end Dlm.Cluster
