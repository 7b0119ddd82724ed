import Dlm.Lib.OrderedBroadcast
import Dlm.Plock.Node

/-!
# A cluster of plock daemons

The daemons of several nodes over the agreed log of corosync's closed process
groups, with plock ownership enabled.  Kernel operations all name the same
resource number: the handlers of different numbers do not touch each other's
resource.  The reads and answers of a daemon are kept as its history.
-/

namespace Dlm.Cluster

open Plock Broadcast

/-- The node ids of a cluster are positive: 0 and -1 have a meaning of their
own as owner of a resource. -/
abbrev Nodeid : Type := { nodeid : Int32 // 0 < nodeid }

/-- A message without its sender. -/
structure Body where
  type : MsgType
  info : Info
  deriving DecidableEq, Repr

def Body.message (sender : Nodeid) (body : Body) : Message :=
  { type := body.type, nodeid := sender.val, info := body.info }

/-- The bodies that a handler hands to `dlm_send_message`. -/
def bodies (effects : List Effect) : List Body :=
  effects.filterMap fun effect =>
    match effect with
    | .send type info => some { type := type, info := info }
    | _ => none

/-- The daemons and the resource number that the operations name. -/
structure Config where
  env : Nodeid → Env
  number : UInt64
  ourNodeid : ∀ n, (env n).ourNodeid = n.val
  ownership : ∀ n, (env n).plockOwnership = true

/-- A daemon: its lockspace, the operations it has read from the kernel and
the results it has written. -/
structure Daemon where
  ls : Lockspace
  reads : List Info
  answers : List (Info × Int)

def Daemon.commit (daemon : Daemon) (result : Lockspace × List Effect) :
    Daemon × List Body :=
  ({ daemon with
      ls := result.1
      answers := daemon.answers ++ writtenBy result.2 },
    bodies result.2)

/-- The lockspace that `create_ls` allocates. -/
def Daemon.fresh : Daemon :=
  { ls := NodeState.start.ls, reads := [], answers := [] }

/-- A daemon of the first members, after `prepare_plocks` has found that no
node has plock state. -/
def Daemon.idle : Daemon :=
  { Daemon.fresh with ls := preparePlocks .noState NodeState.start.ls }

inductive Action where
  | read (info : Info)
  | drop (aged : Bool)

/-- The operation that `process_plocks` works on: it fills in the node id.
The tag is the number of the operation in the daemon's history. -/
def Config.operation (c : Config) (n : Nodeid) (daemon : Daemon)
    (info : Info) : Info :=
  { info with
    nodeid := n.val
    number := c.number
    tag := daemon.reads.length }

def Config.act (c : Config) (n : Nodeid) (action : Action)
    (daemon : Daemon) : Daemon × List Body :=
  match action with
  | .read info =>
      let info := c.operation n daemon info
      { daemon with reads := daemon.reads ++ [info] }.commit
        (processPlocks (c.env n) daemon.ls info)
  | .drop aged =>
      daemon.commit (dropResources (c.env n) (fun _ => aged) daemon.ls)

def Config.algorithm (c : Config) :
    Algorithm Nodeid Body Action Daemon (List Section) :=
  { act := c.act
    receive := fun n sender body daemon =>
      daemon.commit (receive (c.env n) daemon.ls (body.message sender))
    remove := fun n node daemon =>
      daemon.commit (purgePlocks (c.env n) daemon.ls node.val false)
    fresh := fun _ => Daemon.fresh
    save := fun _ daemon =>
      { daemon with ls := preparePlocks .needed daemon.ls }
    snapshot := fun n daemon => storePlocks (c.env n) daemon.ls
    restore := fun n sections daemon =>
      daemon.commit (receivePlocksStored (c.env n) sections daemon.ls) }

abbrev State : Type :=
  Broadcast.State Nodeid Body Daemon (List Section)

abbrev Label : Type := Broadcast.Label Nodeid Action

def Config.system (c : Config) : System State Label := c.algorithm.system

instance (c : Config) (s : State) (label : Label) :
    Decidable (c.system.enabled s label) :=
  inferInstanceAs (Decidable (enabled s label))

/-- The first members start together, with no resource. -/
def initial (members : Nodeid → Bool) : State :=
  { log := []
    site := fun n =>
      { status := if members n then .member else .absent
        node := Daemon.idle
        position := 0
        queue := [] }
    snapshots := [] }

/-- The resource that a node has. -/
def Config.resource (c : Config) (s : State) (n : Nodeid) :
    Option Resource :=
  searchResource (s.site n).node.ls.plockResources c.number

/-- Daemons whose memory is cleared, for concrete runs. -/
def tidyEnv (n : Nodeid) : Env :=
  { ourNodeid := n.val
    plockOwnership := true
    dropResourcesCount := 10
    waiterJunk := fun _ => false
    lockJunk := fun _ => false
    infoJunk := fun _ => Info.cleared }

def tidy : Config :=
  { env := tidyEnv
    number := 7
    ourNodeid := fun _ => rfl
    ownership := fun _ => rfl }

def node1 : Nodeid := ⟨1, by decide⟩
def node2 : Nodeid := ⟨2, by decide⟩
def node3 : Nodeid := ⟨3, by decide⟩

/-- Three members. -/
def trio : State := initial fun n => n = node1 ∨ n = node2 ∨ n = node3

/-- A kernel operation of a holder on a range. -/
def kernelOp (optype : Optype) (ex : UInt8) (holder start stop : UInt64) :
    Info :=
  { Info.cleared with
    optype := optype
    ex := ex
    wait := true
    owner := holder
    start := start
    stop := stop }

end Dlm.Cluster
