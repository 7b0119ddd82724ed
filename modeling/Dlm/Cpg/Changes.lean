import Dlm.Cpg.Conditions

/-!
# The changes of a lockspace

Every configuration change of the group becomes a `struct change`.  The
members of the newest one send `START` messages, which every node attributes
to one of its pending changes by comparing counts and members, and when all
have arrived the change is complete: the kernel is started with its members,
the plock state of new nodes is arranged, and all pending changes are closed.
-/

namespace Dlm.Cpg

open Plock ProcessGroup

def findMemb (cg : Change) (nodeid : Int32) : Option Member :=
  cg.members.find? (·.nodeid == nodeid)

/-- `match_change`. -/
def matchChange (env : Env) (sender : Int32) (li : LsInfo) (cg : Change) :
    Bool :=
  li.ids.contains env.plock.ourNodeid &&
    (findMemb cg sender).isSome &&
    (li.memberCount == cg.memberCount && li.joinedCount == cg.joinedCount &&
      li.removeCount == cg.removeCount &&
      li.failedCount == cg.failedCount) &&
    li.ids.all fun nodeid => (findMemb cg nodeid).isSome

/-- Rewrite the change that `find_change` finds: the oldest one that
matches. -/
def updateOldest (test : Change → Bool) (change : Change → Change)
    (changes : List Change) : List Change :=
  (modifyFirst test change changes.reverse).reverse

def isAdded (changes : List Change) (nodeid : Int32) : Bool :=
  changes.any fun cg => (findMemb cg nodeid).any (·.added)

/-- Rewrite the member that `find_memb` finds. -/
def updateMemb (nodeid : Int32) (change : Member → Member) (cg : Change) :
    Change :=
  { cg with
    members := modifyFirst (·.nodeid == nodeid) change cg.members }

/-- `receive_start` refuses a node that was added although it has already
started. -/
def refusesStart (changes : List Change) (sender : Int32) (li : LsInfo) :
    Bool :=
  isAdded changes sender && li.startedCount != 0

/-- `receive_start`. -/
def receiveStart (env : Env) (now : UInt64) (sender : Int32) (li : LsInfo)
    (ls : Lockspace) : Lockspace :=
  if !ls.changes.any (matchChange env sender li) then ls
  else if refusesStart ls.changes sender li then
    { ls with
      changes := updateOldest (matchChange env sender li)
        (updateMemb sender fun memb =>
          { memb with startFlags := li.flags, disallowed := true })
        ls.changes }
  else
    { ls with
      nodeHistory := nodeHistoryStart now ls.nodeHistory sender
      changes := updateOldest (matchChange env sender li)
        (updateMemb sender fun memb =>
          { memb with startFlags := li.flags, start := true })
        ls.changes }

/-- `send_info` for the newest change. -/
def sendInfo (type : InfoType) (ls : Lockspace) (cg : Change) : LsInfo :=
  { type := type
    seq := cg.seq
    flags := { joining := ls.joining, havePlock := !ls.plocks.needPlocks }
    startedCount := ls.startedCount
    memberCount := cg.memberCount
    joinedCount := cg.joinedCount
    removeCount := cg.removeCount
    failedCount := cg.failedCount
    ids := cg.members.map (·.nodeid)
    about := cg.index }

def sendStart (ls : Lockspace) (cg : Change) : Effect :=
  .send (sendInfo .start ls cg)

def sendPlocksStored (ls : Lockspace) (cg : Change) : Effect :=
  .send (sendInfo .plocksStored ls cg)

def formatMemberIds (cg : Change) : List Int32 :=
  cg.members.map (·.nodeid)

/-- `format_renew_ids`: a member is listed once for every entry in a removed
list of an older change. -/
def formatRenewIds (startcg : Change) (older : List Change) : List Int32 :=
  startcg.members.flatMap fun memb =>
    older.flatMap fun cg =>
      (cg.removed.filter (·.nodeid == memb.nodeid)).map fun _ => memb.nodeid

/-- `start_kernel` for the newest change. -/
def startKernel (ls : Lockspace) (cg : Change) (older : List Change) :
    Lockspace × List Effect :=
  if !ls.kernelStopped then (ls, [])
  else
    ({ ls with kernelStopped := false, joining := false },
      (if ls.joining then [.setSysfsId] else []) ++
        [.setConfigfsMembers (formatMemberIds cg) (formatRenewIds cg older),
          .setSysfsControl true] ++
        (if ls.joining then [.setSysfsEventDone] else []))

def stopKernel (ls : Lockspace) : Lockspace × List Effect :=
  if !ls.kernelStopped then
    ({ ls with kernelStopped := true }, [.setSysfsControl false])
  else (ls, [])

def waitMessagesDone (cg : Change) : Bool :=
  cg.members.all (·.start)

/-- `cleanup_changes` after the newest change. -/
def cleanupChanges (ls : Lockspace) (cg : Change) : Lockspace :=
  let count := ls.startedCount + 1
  { ls with
    changes := []
    startedChange := some cg
    startedCount := if count = 0 then count + 1 else count }

/-- The node that `set_plock_ckpt_node` chooses: the lowest of the members
that had plock state in their start message, or 0. -/
def lowPlockNode (cg : Change) : Int32 :=
  cg.members.foldl
    (fun low memb =>
      if !memb.startFlags.havePlock then low
      else if low = 0 ∨ memb.nodeid < low then memb.nodeid
      else low) 0

/-- The checkpoint is closed by a node that is no longer to write it. -/
def closed (env : Env) (ls : Lockspace) (cg : Change) : List Effect :=
  if ls.plockCkptNode = env.plock.ourNodeid ∧
      lowPlockNode cg ≠ env.plock.ourNodeid then [.closeCheckpoint]
  else []

def setPlockCkptNode (env : Env) (ls : Lockspace) (cg : Change) :
    Lockspace × List Effect :=
  ({ ls with plockCkptNode := lowPlockNode cg }, closed env ls cg)

def nodesAdded (changes : List Change) : Bool :=
  changes.any (·.joinedCount != 0)

/-- `store_plocks`: nothing is written while the last checkpoint is up to
date. -/
def storePlocks (env : Env) (now : UInt64) (ls : Lockspace) :
    Lockspace × List Effect :=
  if !env.enablePlock then (ls, [])
  else if ls.lastCheckpointTime > ls.lastPlockTime then (ls, [])
  else
    ({ ls with lastCheckpointTime := now },
      [.storeCheckpoint (Plock.storePlocks env.plock ls.plocks)])

/-- `prepare_plocks` for the newest change. -/
def preparePlocks (env : Env) (now : UInt64) (ls : Lockspace) (cg : Change)
    (older : List Change) : Lockspace × List Effect :=
  if !env.enablePlock then (ls, [])
  else if cg.memberCount = 1 then
    ({ ls with
        plockCkptNode := env.plock.ourNodeid
        plocks := Plock.preparePlocks .alone ls.plocks }, [])
  else
    let need := ls.plocks.needPlocks
    let (ls, closed) := setPlockCkptNode env ls cg
    -- `set_plock_ckpt_node` has just stored the low node.
    if lowPlockNode cg = 0 then
      ({ ls with plocks := Plock.preparePlocks .noState ls.plocks }, closed)
    else if need then
      ({ ls with plocks := Plock.preparePlocks .needed ls.plocks }, closed)
    else if lowPlockNode cg ≠ env.plock.ourNodeid then (ls, closed)
    else
      let (ls, stored) :=
        if nodesAdded (cg :: older) then storePlocks env now ls else (ls, [])
      (ls, closed ++ stored ++ [sendPlocksStored ls cg])

/-- The end of `apply_changes` for a change whose messages have all
arrived. -/
def completeChange (env : Env) (now : UInt64) (ls : Lockspace) (cg : Change)
    (older : List Change) : Lockspace × List Effect :=
  let (ls, started) := startKernel ls cg older
  let (ls, prepared) := preparePlocks env now ls cg older
  (cleanupChanges ls cg,
    started ++ prepared ++ [.complete cg.index ls.plockCkptNode])

def applyChanges (env : Env) (answers : Answers) (ls : Lockspace) :
    Lockspace × List Effect :=
  match ls.changes with
  | [] => (ls, [])
  | cg :: older =>
      match cg.state with
      | .waitConditions =>
          let (done, history) :=
            waitConditionsDone env answers ls.fsRegistered ls.nodeHistory
          if done then
            ({ ls with
                nodeHistory := history
                changes := { cg with state := .waitMessages } :: older },
              [sendStart ls cg])
          else ({ ls with nodeHistory := history }, [])
      | .waitMessages =>
          if waitMessagesDone cg then
            completeChange env answers.now ls cg older
          else (ls, [])

end Dlm.Cpg
