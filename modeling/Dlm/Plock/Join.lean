import Dlm.Plock.Restore
import Dlm.Plock.ResourceRun
import Dlm.Plock.Slots
import Mathlib.Data.List.Induction

/-!
# Joining without ownership

Without ownership all nodes execute all lock and unlock messages.  The state of
a resource that matters for this is its owner and its table: `_receive_plock`
executes a message if the owner is 0, or if both the owner and the sender are
the node itself.

`store_plocks` takes a resource without `R_GOT_UNOWN` for one that its node has
just given up, although without ownership nothing sets this flag.  The joining
node then has the checkpoint node for owner and executes nothing.
-/

namespace Dlm.Plock

variable {stream before : List Message} {message : Message}

/-- The owner and the table of what `search_resource` finds.  Without ownership
an absent resource is like an empty one of owner 0. -/
structure View where
  owner : Int32
  table : Table

def View.absent : View := { owner := 0, table := Table.empty }

def Resource.view (r : Resource) : View :=
  { owner := r.owner, table := r.table }

def slotView (slot : Option Resource) : View :=
  (slot.map Resource.view).getD View.absent

/-- A lock or unlock request whose sender is the node it names. -/
def Message.isRequest (message : Message) : Bool :=
  message.nodeid == message.info.nodeid &&
    (message.info.optype == .lock || message.info.optype == .unlock)

/-- `_receive_plock` executes a request of the sender on a resource with the
owner. -/
def executes (env : Env) (owner sender : Int32) : Bool :=
  owner == 0 ||
    (owner != -1 && owner == env.ourNodeid && sender == env.ourNodeid)

/-- `put_resource` without ownership. -/
def View.put (view : View) : View :=
  if view.table.isEmpty then View.absent else view

def View.step (env : Env) (message : Message) (view : View) : View :=
  if message.isRequest && executes env view.owner message.nodeid then
    { view with table := view.table.exec message.info : View }.put
  else view

/-- The messages of a stream that name the resource, one after the other. -/
def View.run (env : Env) (number : UInt64) (view : View)
    (stream : List Message) : View :=
  stream.foldl
    (fun view message =>
      if message.info.number = number then view.step env message else view)
    view

theorem Table.isEmpty_iff (table : Table) :
    table.isEmpty = true ↔ table = Table.empty := by
  cases table
  simp [Table.isEmpty, Table.empty]

@[simp] theorem slotView_none : slotView none = View.absent := rfl

@[simp] theorem slotView_some (r : Resource) :
    slotView (some r) = r.view := rfl

section Step

variable {env : Env} (shared : env.plockOwnership = false)

include shared

end Step

/-- The lockspace of a node that has the plock state. -/
def settled (resources : List Resource) : Lockspace :=
  { plockResources := resources
    savedMessages := []
    needPlocks := false
    savePlocks := false }

/-- The lockspace of a node that waits for the checkpoint. -/
def joining : Lockspace :=
  { plockResources := []
    savedMessages := []
    needPlocks := true
    savePlocks := true }

section Streams

variable {env : Env}

end Streams

section Restore

variable {env joiner : Env}

variable {resources : List Resource} {sections : List Section}

end Restore

section Runs

variable (env : Env) (number : UInt64)

/-- The message is a request for the number that a node with the owner
executes. -/
def Touches (owner : Int32) (message : Message) : Prop :=
  message.info.number = number ∧ message.isRequest = true ∧
    executes env owner message.nodeid = true

/-- The node executes the request, or has freed the resource at an earlier one
and creates it anew. -/
def Reaches (owner : Int32) (table : Table) (before : List Message)
    (message : Message) : Prop :=
  message.info.number = number ∧ message.isRequest = true ∧
    (executes env owner message.nodeid = true ∨
      table.isEmpty = true ∧ ∃ early ∈ before, Touches env number owner early)

/-- Every message that reaches the table leaves it as it is. -/
def Undisturbed (owner : Int32) (table : Table) (stream : List Message) :
    Prop :=
  ∀ before message after, stream = before ++ message :: after →
    Reaches env number owner table before message →
      table.exec message.info = table

variable {env number} {owner : Int32} {table : Table}

theorem run_snoc (view : View) (before : List Message) (message : Message) :
    view.run env number (before ++ [message]) =
      if message.info.number = number then
        (view.run env number before).step env message
      else view.run env number before := by
  simp [View.run]

/-- What a stream has made of the view: nothing, or an absent resource after a
request that an empty one was freed at. -/
inductive Calm (env : Env) (number : UInt64) (owner : Int32) (table : Table)
    (stream : List Message) : View → Prop where
  | kept :
      (table.isEmpty = true →
        ∀ early ∈ stream, ¬Touches env number owner early) →
      Calm env number owner table stream ⟨owner, table⟩
  | freed (early : Message) :
      table.isEmpty = true → early ∈ stream →
      Touches env number owner early →
      Calm env number owner table stream View.absent

/-- A message that the node does not execute changes nothing. -/
theorem Calm.pass {view : View}
    (calm : Calm env number owner table before view)
    (untouched : ¬Touches env number owner message) :
    Calm env number owner table (before ++ [message]) view := by
  cases calm with
  | kept calm =>
      refine .kept fun empty early member => ?_
      rcases List.mem_append.mp member with old | new
      · exact calm empty early old
      · rw [List.mem_singleton.mp new]
        exact untouched
  | freed early empty member touches =>
      exact .freed early empty (List.mem_append_left _ member) touches

/-- A request that reaches the table and leaves it as it is. -/
theorem Calm.step {view : View}
    (calm : Calm env number owner table before view)
    (named : message.info.number = number) (request : message.isRequest = true)
    (harmless : Reaches env number owner table before message →
      table.exec message.info = table) :
    Calm env number owner table (before ++ [message])
      (view.step env message) := by
  cases calm with
  | kept calm =>
      by_cases runs : executes env owner message.nodeid = true
      · have kept := harmless ⟨named, request, .inl runs⟩
        simp only [View.step, request, runs, Bool.and_self, if_true, kept,
          View.put]
        by_cases empty : table.isEmpty = true
        · rw [if_pos empty]
          exact .freed message empty (by simp) ⟨named, request, runs⟩
        · rw [if_neg empty]
          exact .kept fun isEmpty => absurd isEmpty empty
      · have rests : (View.mk owner table).step env message =
            ⟨owner, table⟩ := by
          simp [View.step, runs]
        rw [rests]
        exact Calm.pass (.kept calm) fun touches => runs touches.2.2
  | freed early empty member touches =>
      have kept := harmless
        ⟨named, request, .inr ⟨empty, early, member, touches⟩⟩
      have nothing := (Table.isEmpty_iff table).mp empty
      have still : View.absent.step env message = View.absent := by
        rw [nothing] at kept empty
        simp [View.step, View.absent, executes, request, kept, View.put,
          empty]
      rw [still]
      exact .freed early empty (List.mem_append_left _ member) touches

theorem View.step_table {view : View} (request : message.isRequest = true)
    (runs : executes env view.owner message.nodeid = true) :
    (view.step env message).table = view.table.exec message.info := by
  simp only [View.step, request, runs, Bool.and_self, if_true, View.put]
  split
  · rename_i empty
    exact ((Table.isEmpty_iff _).mp empty).symm
  · rfl

/-- A request that reaches the table is executed. -/
theorem Calm.reached {view : View}
    (calm : Calm env number owner table before view)
    (reaches : Reaches env number owner table before message) :
    (view.step env message).table = table.exec message.info := by
  obtain ⟨_, request, how⟩ := reaches
  cases calm with
  | kept untouched =>
      rcases how with runs | ⟨empty, early, member, touches⟩
      · exact View.step_table request runs
      · exact absurd touches (untouched empty early member)
  | freed early empty _ _ =>
      rw [View.step_table request (by simp [View.absent, executes]),
        (Table.isEmpty_iff table).mp empty]
      rfl

end Runs

/-- The joining node restores the locks and waiters of the resource. -/
structure Packed (env : Env) (r : Resource) : Prop where
  locks : ∀ po ∈ r.locks, po.syncing = false
  waiters : ∀ w ∈ r.waiters, w.syncing = false
  replicated : r.owner = -1 ∨ r.owner = env.ourNodeid →
    r.locks = [] ∧ r.waiters = []

/-- The node executes nothing on a resource with the owner. -/
def Passive (env : Env) (owner : Int32) : Prop :=
  ∀ sender, executes env owner sender = false

section Convergence

variable {env joiner : Env} {number : UInt64}

theorem Passive.run {owner : Int32} (passive : Passive env owner)
    (table : Table) (stream : List Message) :
    (View.mk owner table).run env number stream = ⟨owner, table⟩ := by
  induction stream using List.reverseRecOn with
  | nil => rfl
  | append_singleton before message induction =>
      rw [run_snoc, induction]
      simp [View.step, passive message.nodeid]

theorem Passive.undisturbed {owner : Int32} (passive : Passive env owner)
    (table : Table) (stream : List Message) :
    Undisturbed env number owner table stream := by
  rintro before message after _ ⟨_, _, runs | ⟨_, early, _, touches⟩⟩
  · rw [passive] at runs
    cases runs
  · have runs := touches.2.2
    rw [passive] at runs
    cases runs

variable (member : env.ourNodeid ≠ 0) (other : env.ourNodeid ≠ joiner.ourNodeid)

include member

include other

end Convergence

end Dlm.Plock
