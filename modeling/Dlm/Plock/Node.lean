import Dlm.Lib.Run
import Dlm.Plock.Checkpoint

/-!
# A node and its surroundings

The plock state of one node with the messages it has sent and not yet received
itself, and everything that can happen to it: operations read from the kernel,
its own messages in the order in which it sent them, messages of other nodes,
failures of other nodes, `drop_resources`, and the steps of a join.
-/

namespace Dlm.Plock

/-- The messages among the effects of a handler. -/
def sentBy (env : Env) (effects : List Effect) : List Message :=
  effects.filterMap fun effect =>
    match effect with
    | .send type info =>
        some { type := type, nodeid := env.ourNodeid, info := info }
    | _ => none

/-- The results written among the effects of a handler. -/
def writtenBy (effects : List Effect) : List (Info × Int) :=
  effects.filterMap fun effect =>
    match effect with
    | .writeResult info rv => some (info, rv)
    | _ => none

/-- A node: its lockspace, its messages that it has not received yet, the
number of operations that `process_plocks` has accepted, and the results
written to the plock device. -/
structure NodeState where
  ls : Lockspace
  sent : List Message
  accepted : Nat
  answers : List (Info × Int)

/-- The lockspace that `create_ls` allocates. -/
def NodeState.start : NodeState :=
  { ls :=
      { plockResources := []
        savedMessages := []
        needPlocks := true
        savePlocks := false }
    sent := []
    accepted := 0
    answers := [] }

/-- The state after a handler. -/
def NodeState.commit (env : Env) (state : NodeState)
    (result : Lockspace × List Effect) : NodeState :=
  { state with
    ls := result.1
    sent := state.sent ++ sentBy env result.2
    answers := state.answers ++ writtenBy result.2 }

inductive NodeEvent where
  | read (info : Info)
  | deliverOwn
  | deliverOther (message : Message)
  | purge (nodeid : Int32)
  | drop (aged : UInt64 → Bool)
  | prepare (how : PrepareCase)
  | stored (sections : List Section)

def Message.isSync (message : Message) : Bool :=
  message.type == .syncLock || message.type == .syncWaiter

/-- What other nodes may do: no `PLOCK_SYNC` message and no checkpoint record
of theirs carries our node id.  Without ownership the node does not read a
checkpoint. -/
def nodeEnabled (env : Env) (state : NodeState) : NodeEvent → Prop
  | .read _ => True
  | .deliverOwn => state.sent ≠ []
  | .deliverOther message =>
      message.nodeid ≠ env.ourNodeid ∧
        (message.isSync = true → message.info.nodeid ≠ env.ourNodeid)
  | .purge nodeid => nodeid ≠ env.ourNodeid
  | .drop _ => env.plockOwnership = true
  | .prepare _ => True
  | .stored sections =>
      env.plockOwnership = true ∧ state.ls.needPlocks = true ∧
        ∀ section_ ∈ sections, ∀ pp ∈ section_.data,
          pp.nodeid.toInt32 ≠ env.ourNodeid

/-- The next state.  An accepted operation is tagged with its number. -/
def nodeNext (env : Env) (state : NodeState) : NodeEvent → NodeState
  | .read info =>
      { state with accepted := state.accepted + 1 }.commit env
        (processPlocks env state.ls { info with tag := state.accepted })
  | .deliverOwn =>
      match state.sent with
      | [] => state
      | message :: later =>
          { state with sent := later }.commit env
            (receive env state.ls message)
  | .deliverOther message => state.commit env (receive env state.ls message)
  | .purge nodeid =>
      state.commit env (purgePlocks env state.ls nodeid false)
  | .drop aged => state.commit env (dropResources env aged state.ls)
  | .prepare how => { state with ls := preparePlocks how state.ls }
  | .stored sections =>
      state.commit env (receivePlocksStored env sections state.ls)

def nodeSystem (env : Env) : System NodeState NodeEvent :=
  { enabled := nodeEnabled env
    next := nodeNext env }

end Dlm.Plock
