import Dlm.Deadlock.Graph
import Dlm.Deadlock.Locks
import Dlm.Lib.ProcessGroup

/-!
# The cycles of the deadlock detection

A `CYCLE_START` makes every node write its locks to a checkpoint and announce
it by `CHECKPOINT_READY`.  Every node reads the checkpoints that are announced,
and when all nodes of the cycle are ready the one with the lowest id looks for
a deadlock and ends the cycle by `CYCLE_END`.

The nodes are a process group that shares the checkpoint service.  A checkpoint
stays in the service until it is unlinked, also when its writer is gone.
-/

namespace Dlm.Deadlock

open ProcessGroup

/-- `struct node` of `deadlock.c`. -/
structure CycleNode where
  nodeid : Int32
  checkpointReady : Bool
  inCycle : Bool
  deriving DecidableEq, Repr

/-- The fields of `struct lockspace` for the deadlock detection.  `cycleStart`
stands for `cycle_start_time`: it is the place of the `CYCLE_START` that began
the last cycle.  No function looks at it. -/
structure Space where
  confchgInit : Bool
  nodes : List CycleNode
  cycleRunning : Bool
  allCheckpointsReady : Bool
  lowNodeid : Int32
  resources : List Rsb
  transactions : List Trans
  ckptHandle : Bool
  cycleStart : Nat
  deriving DecidableEq, Repr

def Space.new : Space :=
  { confchgInit := false
    nodes := []
    cycleRunning := false
    allCheckpointsReady := false
    lowNodeid := 0
    resources := []
    transactions := []
    ckptHandle := false
    cycleStart := 0 }

/-- The creation attributes of a checkpoint: its size, in locks, the number of
its sections and the size of the largest one. -/
structure Attributes where
  checkpointSize : Nat
  maxSections : Nat
  maxSectionSize : Nat
  deriving DecidableEq, Repr

structure Checkpoint where
  attributes : Attributes
  sections : List Section
  deriving DecidableEq, Repr

def checkpointAttributes (resources : List Rsb) : Attributes :=
  { checkpointSize :=
      resources.foldl (fun size r => size + r.locks.length) 0
    maxSections := resources.length + 1
    maxSectionSize :=
      resources.foldl (fun size r =>
        if size < r.locks.length then r.locks.length else size) 0 }

/-- `write_checkpoint`, on what the service has under the name of the node.  An
open with other attributes than those of an old checkpoint fails, and nothing
is written; a section that exists already makes the node clear the old
checkpoint and begin again. -/
def writeCheckpoint (place : Nat) (space : Space)
    (checkpoint : Option Checkpoint) : Space × Option Checkpoint :=
  let attributes := checkpointAttributes space.resources
  let sections := packSections place space.resources
  match if space.ckptHandle then none else checkpoint with
  | none =>
      ({ space with ckptHandle := true },
        some { attributes := attributes, sections := sections })
  | some old =>
      if old.attributes ≠ attributes then (space, some old)
      else if sections.any fun part => old.sections.any (·.1 == part.1) then
        ({ space with ckptHandle := true },
          some { attributes := attributes, sections := sections })
      else
        ({ space with ckptHandle := true },
          some { old with sections := old.sections ++ sections })

/-- One round of the loop of `run_deadlock` that finds the lowest node of the
cycle. -/
def lowerNode (low : Int32) (node : CycleNode) : Int32 :=
  if !node.inCycle then low
  else if node.nodeid < low ∨ low = -1 then node.nodeid
  else low

def lowNode (nodes : List CycleNode) : Int32 :=
  nodes.foldl lowerNode (-1)

/-- What a handler does outside the lockspace: the messages it sends, and the
resources with which it calls `find_deadlock`. -/
structure Effects where
  sent : List Message
  found : Option (List Rsb)

def Effects.none : Effects :=
  { sent := [], found := Option.none }

/-- `run_deadlock`. -/
def runDeadlock (ourNodeid : Int32) (space : Space) : Space × Effects :=
  if space.nodes.any fun node => node.inCycle && !node.checkpointReady then
    (space, .none)
  else
    let low := lowNode space.nodes
    let space :=
      { space with allCheckpointsReady := true, lowNodeid := low }
    if low = ourNodeid then
      let (transactions, sent) :=
        findDeadlock space.resources space.transactions
      ({ space with transactions := transactions },
        { sent := sent, found := some space.resources })
    else (space, .none)

/-- The loop of `receive_checkpoint_ready`, which stops at the first match. -/
def markReady (nodeid : Int32) (nodes : List CycleNode) : List CycleNode :=
  match nodes.findIdx? (·.nodeid == nodeid) with
  | none => nodes
  | some place =>
      nodes.modify place fun node => { node with checkpointReady := true }

/-- `receive_checkpoint_ready`, on the checkpoint that the service has for the
sender. -/
def receiveCheckpointReady (ourNodeid nodeid : Int32)
    (checkpoint : Option Checkpoint) (space : Space) : Space × Effects :=
  runDeadlock ourNodeid
    { space with
      resources :=
        readCheckpoint ourNodeid nodeid
          ((checkpoint.map (·.sections)).getD []) space.resources
      nodes := markReady nodeid space.nodes }

/-- `receive_cycle_start`. -/
def receiveCycleStart (ourNodeid : Int32) (place : Nat) (lines : List Line)
    (checkpoint : Option Checkpoint) (space : Space) :
    Space × Effects × Option Checkpoint :=
  if space.cycleRunning then (space, .none, checkpoint)
  else
    let (space, checkpoint) :=
      writeCheckpoint place
        { space with
          cycleRunning := true
          cycleStart := place
          nodes := space.nodes.map fun node => { node with inCycle := true }
          resources := readDebugfsLocks ourNodeid lines space.resources }
        checkpoint
    (space, { Effects.none with sent := [.checkpointReady] }, checkpoint)

/-- `receive_cycle_end`. -/
def receiveCycleEnd (checkpoint : Option Checkpoint) (space : Space) :
    Space × Option Checkpoint :=
  if !space.cycleRunning then (space, checkpoint)
  else
    ({ space with
        cycleRunning := false
        allCheckpointsReady := false
        nodes := space.nodes.map fun node =>
          { node with checkpointReady := false }
        resources := []
        transactions := []
        ckptHandle := false }, none)

def nodeJoined (nodes : List CycleNode) (nodeid : Int32) : List CycleNode :=
  nodes ++ [{ nodeid := nodeid, checkpointReady := false, inCycle := false }]

def nodeLeft (nodes : List CycleNode) (nodeid : Int32) : List CycleNode :=
  nodes.filter (·.nodeid != nodeid)

/-- `deadlk_confchg`. -/
def deadlkConfchg (ourNodeid : Int32) (change : Confchg Int32)
    (space : Space) : Space × Effects :=
  if !space.confchgInit then
    ({ space with
        confchgInit := true
        nodes := change.members.foldl nodeJoined space.nodes }, .none)
  else
    let left := change.left.map (·.1)
    let space :=
      { space with
        nodes := left.foldl nodeLeft
          (change.joined.foldl nodeJoined space.nodes) }
    if !space.cycleRunning then (space, .none)
    else if left.isEmpty then (space, .none)
    else if !space.allCheckpointsReady then runDeadlock ourNodeid space
    else
      let space :=
        { space with
          resources := left.foldl (fun resources nodeid =>
            purgeLocks nodeid resources) space.resources }
      if space.lowNodeid ∈ left then runDeadlock ourNodeid space
      else (space, .none)

/-- A call of `find_deadlock`: the node, the delivery that it was made for, the
place of the `CYCLE_START` of the cycle, and the resources. -/
structure Call where
  node : Int32
  delivery : Nat
  start : Nat
  resources : List Rsb
  deriving DecidableEq, Repr

/-- What the nodes share: the checkpoint service, and the calls of
`find_deadlock` so far. -/
structure Store where
  checkpoints : Int32 → Option Checkpoint
  calls : List Call

/-- The call that a handler has made. -/
def Effects.calls (effects : Effects) (node : Int32) (delivery start : Nat) :
    List Call :=
  match effects.found with
  | Option.none => []
  | some resources =>
      [{ node := node
         delivery := delivery
         start := start
         resources := resources }]

/-- A handled delivery in the group. -/
def Effects.outcome (effects : Effects) (node : Int32) (delivery : Nat)
    (space : Space) (checkpoint : Option Checkpoint) (store : Store) :
    Outcome Message Space Store :=
  { state := space
    sent := effects.sent
    shared :=
      { checkpoints := Function.update store.checkpoints node checkpoint
        calls := store.calls ++
          effects.calls node delivery space.cycleStart } }

/-- The delivery of an entry of the stream; `lines` is what debugfs shows. -/
def deliverEntry (n : Int32) (index : Nat) (entry : Entry Int32 Message)
    (lines : List Line) (store : Store) (space : Space) :
    Outcome Message Space Store :=
  match entry with
  | .confchg change =>
      let (space, effects) := deadlkConfchg n change space
      effects.outcome n index space (store.checkpoints n) store
  | .message _ .cycleStart =>
      let (space, effects, checkpoint) :=
        receiveCycleStart n index lines (store.checkpoints n) space
      effects.outcome n index space checkpoint store
  | .message sender .checkpointReady =>
      let (space, effects) :=
        receiveCheckpointReady n sender (store.checkpoints sender) space
      effects.outcome n index space (store.checkpoints n) store
  | .message _ .cycleEnd =>
      let (space, checkpoint) :=
        receiveCycleEnd (store.checkpoints n) space
      Effects.none.outcome n index space checkpoint store
  | .message _ (.cancelLock _ _) =>
      Effects.none.outcome n index space (store.checkpoints n) store

/-- The nodes of a lockspace.  Any of them may send `CYCLE_START` at any
time. -/
def cycles : Process Int32 Message (List Line) Unit Space Store :=
  { birth := fun _ => Space.new
    ready := fun _ _ => true
    deliver := deliverEntry
    act := fun _ _ _ store space =>
      { state := space, sent := [.cycleStart], shared := store } }

abbrev CycleLog := List (Entry Int32 Message)

abbrev CycleGroup := State Int32 Message Space Store

abbrev CycleLabel := Label Int32 (List Line) Unit

/-- Nobody has joined, and there is no checkpoint. -/
def CycleGroup.start : CycleGroup :=
  State.empty { checkpoints := fun _ => none, calls := [] }

/-- The running cycle after one more entry: the place of its `CYCLE_START`.  A
cycle ends by a `CYCLE_END`, or when nobody is left who takes part in it. -/
def cycleNext (index : Nat) (cycle : Option Nat) :
    Entry Int32 Message → Option Nat
  | .confchg change =>
      if change.members.all (· ∈ change.joined) then none else cycle
  | .message _ .cycleStart => some (cycle.getD index)
  | .message _ .cycleEnd => none
  | .message _ _ => cycle

/-- The cycle that is running at the end of a log. -/
def cycleAt (log : CycleLog) : Option Nat :=
  log.zipIdx.foldl (fun cycle entry => cycleNext entry.2 cycle entry.1) none

/-- The condition on the steps of a run: nodes are added only while no cycle
is running, they are distinct and none has the id -1, and a node that writes
its checkpoint finds none left in the service from an earlier life. -/
def Undisturbed (s : CycleGroup) : CycleLabel → Prop
  | .confchg change =>
      change.joined ≠ [] →
        cycleAt s.log = none ∧ change.joined.Nodup ∧ -1 ∉ change.joined
  | .deliver n _ =>
      ∀ site ∈ s.site n, site.state.cycleRunning = false →
        site.state.ckptHandle = false →
        (s.log[site.position]?).any (fun entry =>
          match entry with
          | .message _ .cycleStart => true
          | _ => false) = true →
        (s.shared.checkpoints n).isNone = true
  | _ => True

instance (s : CycleGroup) (label : CycleLabel) :
    Decidable (Undisturbed s label) := by
  rcases label <;> unfold Undisturbed <;> infer_instance

end Dlm.Deadlock
