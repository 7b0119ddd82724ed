import Dlm.Cpg.Types

/-!
# The conditions for a start

The history of the nodes and the three conditions that a lockspace waits for
before it sends its start message: that the failed nodes have been fenced,
that the cluster has quorum without them, and that the file system daemon has
acknowledged them.
-/

namespace Dlm.Cpg

open Plock ProcessGroup

def getNodeHistory (history : List Node) (nodeid : Int32) : Option Node :=
  history.find? (·.nodeid == nodeid)

/-- Rewrite the entry that `get_node_history` finds. -/
def updateNode (nodeid : Int32) (change : Node → Node)
    (history : List Node) : List Node :=
  modifyFirst (·.nodeid == nodeid) change history

def nodeHistoryInit (history : List Node) (nodeid : Int32) : List Node :=
  match getNodeHistory history nodeid with
  | some _ => history
  | none => history ++ [Node.new nodeid]

def nodeHistoryStart (now : UInt64) (history : List Node) (nodeid : Int32) :
    List Node :=
  updateNode nodeid (fun node => { node with addTime := now }) history

def nodeHistoryLeft (history : List Node) (nodeid : Int32) : List Node :=
  updateNode nodeid (fun node => { node with addTime := 0 }) history

/-- The entry of a failed node. -/
def failNode (env : Env) (fsRegistered : Bool) (node : Node) : Node :=
  let node :=
    if env.enableFencing && node.addTime != 0 then
      { node with checkFencing := true, fenceTime := 0, fenceQueries := 0 }
    else node
  let node :=
    if env.enableQuorum && !env.enableFencing then
      { node with checkQuorum := true }
    else node
  if fsRegistered then { node with checkFs := true } else node

def nodeHistoryFail (env : Env) (fsRegistered : Bool) (history : List Node)
    (nodeid : Int32) : List Node :=
  updateNode nodeid (failNode env fsRegistered) history

/-- An entry that a query has found fenced. -/
def fenced (lastFencedTime : UInt64) (node : Node) : Node :=
  { node with
    checkFencing := false
    addTime := 0
    fenceTime := lastFencedTime }

/-- An entry that a query has not found fenced. -/
def notFenced (lastFencedTime : UInt64) (node : Node) : Node :=
  if node.fenceQueries = 0 ∨ node.fenceTime ≠ lastFencedTime then
    { node with
      fenceQueries := node.fenceQueries + 1
      fenceTime := lastFencedTime }
  else node

/-- The loop of `check_fencing_done`, from the number of queries made so far
and the value of `last_fenced_time`; it also returns `wait_count`.  A query
that fails leaves `last_fenced_time` as it is. -/
def checkFencingLoop (answers : Answers) :
    Nat → UInt64 → List Node → List Node × Nat
  | _, _, [] => ([], 0)
  | calls, lastFencedTime, node :: later =>
      if !node.checkFencing then
        let (later, waitCount) :=
          checkFencingLoop answers calls lastFencedTime later
        (node :: later, waitCount)
      else
        let lastFencedTime :=
          (answers.fenceNodeTime calls node.nodeid).getD lastFencedTime
        let (later, waitCount) :=
          checkFencingLoop answers (calls + 1) lastFencedTime later
        if lastFencedTime > node.addTime then
          (fenced lastFencedTime node :: later, waitCount)
        else (notFenced lastFencedTime node :: later, waitCount + 1)

/-- `check_fencing_done`, with the history it leaves. -/
def checkFencingDone (env : Env) (answers : Answers) (history : List Node) :
    Bool × List Node :=
  if !env.enableFencing then (true, history)
  else
    let (history, waitCount) :=
      checkFencingLoop answers 0 answers.junk history
    if waitCount ≠ 0 then (false, history)
    else
      match answers.fenceInProgress with
      | none => (false, history)
      | some inProgress => (!inProgress, history)

/-- `check_quorum_done`, with the history it leaves. -/
def checkQuorumDone (env : Env) (answers : Answers) (history : List Node) :
    Bool × List Node :=
  if !env.enableQuorum then (true, history)
  else
    let history := history.map fun node =>
      if node.checkQuorum && !answers.isClusterMember node.nodeid then
        { node with checkQuorum := false }
      else node
    (!history.any (·.checkQuorum) && answers.clusterQuorate, history)

/-- `check_fs_done`, with the history it leaves. -/
def checkFsDone (fsRegistered : Bool) (history : List Node) :
    Bool × List Node :=
  if !fsRegistered then (true, history)
  else
    let history := history.map fun node =>
      if node.checkFs && node.fsNotified then { node with checkFs := false }
      else node
    (!history.any (·.checkFs), history)

/-- `wait_conditions_done`, with the history it leaves. -/
def waitConditionsDone (env : Env) (answers : Answers) (fsRegistered : Bool)
    (history : List Node) : Bool × List Node :=
  let (fencingDone, history) := checkFencingDone env answers history
  if !fencingDone then (false, history)
  else
    let (quorumDone, history) := checkQuorumDone env answers history
    if !quorumDone then (false, history)
    else checkFsDone fsRegistered history

/-- `set_fs_notified`, without its return value. -/
def setFsNotified (history : List Node) (nodeid : Int32) : List Node :=
  match getNodeHistory history nodeid with
  | none => history
  | some node =>
      if !node.checkFs then history
      else
        updateNode nodeid (fun node => { node with fsNotified := true })
          history

end Dlm.Cpg
