import Dlm.Cpg.Changes

/-!
# The lockspace of one daemon

The callbacks of the group and the other events of the daemon's main loop, on
one lockspace, and the system of their runs.  The daemon is given the stream of
configuration changes and messages of the group, in which it is added first,
and anything the surroundings may answer.
-/

namespace Dlm.Cpg

open Plock ProcessGroup

/-- A plock handler as part of the lockspace. -/
def Lockspace.onPlocks (ls : Lockspace) (now : UInt64)
    (result : Plock.Lockspace × List Plock.Effect) :
    Lockspace × List Effect :=
  ({ ls with
      plocks := result.1
      lastPlockTime :=
        if .plockTime ∈ result.2 then now else ls.lastPlockTime },
    result.2.map .plock)

/-- The tests of `receive_plocks_stored`: plocks are needed, no change is
pending, and the message matches the change started last. -/
def acceptsPlocksStored (env : Env) (sender : Int32) (li : LsInfo)
    (ls : Lockspace) : Bool :=
  ls.plocks.needPlocks && ls.changes.isEmpty &&
    ls.startedChange.any (matchChange env sender li)

/-- `receive_plocks_stored`.  Without plocks nothing is retrieved. -/
def receivePlocksStored (env : Env) (answers : Answers) (sender : Int32)
    (li : LsInfo) (ls : Lockspace) : Lockspace × List Effect :=
  if !acceptsPlocksStored env sender li ls then (ls, [])
  else
    ls.onPlocks answers.now
      (Plock.receivePlocksStored env.plock
        (if env.enablePlock then answers.sections else []) ls.plocks)

/-- The body of the loop of `add_change` over the left list, on the
history. -/
def nodeHistoryGone (env : Env) (fsRegistered : Bool) (history : List Node)
    (gone : Int32 × Reason) : List Node :=
  if gone.2.failed then nodeHistoryFail env fsRegistered history gone.1
  else nodeHistoryLeft history gone.1

def addLeft (env : Env) (fsRegistered : Bool) (left : List (Int32 × Reason))
    (history : List Node) : List Node :=
  left.foldl (nodeHistoryGone env fsRegistered) history

/-- The loop of `add_change` over the joined list, on the members and the
history.  It fails at a node that is not a member. -/
def addJoined (env : Env) :
    List Int32 → List Member → List Node →
      Option (List Member) × List Node
  | [], members, history => (some members, history)
  | nodeid :: later, members, history =>
      if members.any (·.nodeid == nodeid) then
        addJoined env later
          (modifyFirst (·.nodeid == nodeid)
            (fun memb => { memb with added := true }) members)
          (if nodeid = env.plock.ourNodeid then history
            else nodeHistoryInit history nodeid)
      else (none, history)

/-- `cg->removed`. -/
def removedMember (gone : Int32 × Reason) : Member :=
  { Member.new gone.1 with failed := gone.2.failed }

/-- `++ls->change_seq`, which skips 0. -/
def nextSeq (seq : UInt32) : UInt32 :=
  if seq + 1 = 0 then seq + 2 else seq + 1

/-- The change that `add_change` makes of its lists. -/
def newChange (index : Nat) (confchg : Confchg Int32) (seq : UInt32)
    (members : List Member) : Change :=
  { index := index
    members := members
    removed := confchg.left.map removedMember
    memberCount := confchg.members.length
    joinedCount := confchg.joined.length
    removeCount := confchg.left.length
    failedCount := (confchg.left.filter (·.2.failed)).length
    state := .waitConditions
    seq := seq }

/-- `add_change`, when its allocations succeed; `none` stands for
`-ENOENT`. -/
def addChange (env : Env) (index : Nat) (confchg : Confchg Int32)
    (ls : Lockspace) : Option Change × Lockspace :=
  let seq := nextSeq ls.changeSeq
  let history := addLeft env ls.fsRegistered confchg.left ls.nodeHistory
  let (members, history) :=
    addJoined env confchg.joined (confchg.members.map Member.new) history
  let ls := { ls with changeSeq := seq, nodeHistory := history }
  match members with
  | none => (none, ls)
  | some members =>
      let cg := newChange index confchg seq members
      (some cg,
        { ls with
          changes := cg :: ls.changes
          nodeHistory :=
            if env.plock.ourNodeid ∈ confchg.joined then
              confchg.members.foldl nodeHistoryInit ls.nodeHistory
            else ls.nodeHistory })

/-- The loop of `confchg_cb` over the removed nodes. -/
def purgeRemoved (env : Env) (now : UInt64) :
    List (Int32 × Reason) → Lockspace → Lockspace × List Effect
  | [], ls => (ls, [])
  | gone :: later, ls =>
      let (ls, effects) :=
        ls.onPlocks now
          (if env.enablePlock then
            purgePlocks env.plock ls.plocks gone.1 false
          else (ls.plocks, []))
      let (ls, more) := purgeRemoved env now later ls
      (ls, effects ++ more)

/-- The nodes that `add_change` kicks out of the cluster. -/
def kicked (left : List (Int32 × Reason)) : List Effect :=
  (left.filter (·.2 = .procdown)).map fun gone => .kickNodeFromCluster gone.1

/-- `confchg_cb`, when it is not for our own leave. -/
def confchgCb (env : Env) (answers : Answers) (index : Nat)
    (confchg : Confchg Int32) (ls : Lockspace) : Lockspace × List Effect :=
  match addChange env index confchg ls with
  | (none, ls) => (ls, kicked confchg.left)
  | (some _, ls) =>
      let (ls, stopped) := stopKernel ls
      let (ls, purged) := purgeRemoved env answers.now confchg.left ls
      let (ls, applied) := applyChanges env answers ls
      (ls, kicked confchg.left ++ stopped ++ purged ++ applied)

/-- Run `apply_changes` after a handler. -/
def thenApply (env : Env) (answers : Answers)
    (result : Lockspace × List Effect) : Lockspace × List Effect :=
  let (ls, applied) := applyChanges env answers result.1
  (ls, result.2 ++ applied)

/-- `deliver_cb` for a message of `send_info`. -/
def deliverInfo (env : Env) (answers : Answers) (sender : Int32)
    (li : LsInfo) (ls : Lockspace) : Lockspace × List Effect :=
  thenApply env answers <|
    match li.type with
    | .start => (receiveStart env answers.now sender li ls, [])
    | .plocksStored => receivePlocksStored env answers sender li ls

/-- `deliver_cb` for a plock message. -/
def deliverPlock (env : Env) (answers : Answers) (message : Message)
    (ls : Lockspace) : Lockspace × List Effect :=
  thenApply env answers
    (ls.onPlocks answers.now (receive env.plock ls.plocks message))

/-- What happens to the lockspace. -/
inductive Event where
  | confchg (index : Nat) (change : Confchg Int32)
  | info (sender : Int32) (li : LsInfo)
  | plock (message : Message)
  | poll
  | read (info : Info)
  | drop (aged : UInt64 → Bool)
  | fsRegister
  | fsUnregister
  | fsNotified (nodeid : Int32)

/-- The handler of an event.  `process_plocks` and `drop_resources` do nothing
without plocks. -/
def handle (env : Env) (answers : Answers) (event : Event) (ls : Lockspace) :
    Lockspace × List Effect :=
  match event with
  | .confchg index change => confchgCb env answers index change ls
  | .info sender li => deliverInfo env answers sender li ls
  | .plock message => deliverPlock env answers message ls
  | .poll => applyChanges env answers ls
  | .read info =>
      if !env.enablePlock then (ls, [])
      else ls.onPlocks answers.now (processPlocks env.plock ls.plocks info)
  | .drop aged =>
      if !(env.enablePlock && env.plock.plockOwnership) then (ls, [])
      else ls.onPlocks answers.now (dropResources env.plock aged ls.plocks)
  | .fsRegister => ({ ls with fsRegistered := true }, [])
  | .fsUnregister => ({ ls with fsRegistered := false }, [])
  | .fsNotified nodeid =>
      ({ ls with nodeHistory := setFsNotified ls.nodeHistory nodeid }, [])

/-- A daemon: its lockspace, and as history the members of the last
configuration change, the time of the last event and the sections of the last
checkpoint that it wrote. -/
structure Daemon where
  ls : Lockspace
  view : Option (List Int32)
  clock : UInt64
  written : List Section

def Daemon.start (fsRegistered : Bool) : Daemon :=
  { ls := Lockspace.new fsRegistered
    view := none
    clock := 0
    written := [] }

/-- The sections written last among the effects of a handler. -/
def writtenSections (before : List Section) (effects : List Effect) :
    List Section :=
  effects.foldl
    (fun written effect =>
      match effect with
      | .storeCheckpoint sections => sections
      | _ => written) before

def Event.view (before : Option (List Int32)) : Event → Option (List Int32)
  | .confchg _ change => some change.members
  | _ => before

/-- The first configuration change adds the daemon's node and reports nobody
gone.  Every later one follows the members of the one before. -/
def Event.Possible (env : Env) (view : Option (List Int32)) : Event → Prop
  | .confchg _ change =>
      match view with
      | none => change.Begins env.plock.ourNodeid
      | some members => change.Follows members
  | _ => True

/-- An event and the answers of the surroundings. -/
structure Step where
  event : Event
  answers : Answers

/-- The clock does not go back. -/
def daemonEnabled (env : Env) (daemon : Daemon) (step : Step) : Prop :=
  step.event.Possible env daemon.view ∧ daemon.clock ≤ step.answers.now

def daemonEffects (env : Env) (daemon : Daemon) (step : Step) :
    List Effect :=
  (handle env step.answers step.event daemon.ls).2

def daemonNext (env : Env) (daemon : Daemon) (step : Step) : Daemon :=
  { ls := (handle env step.answers step.event daemon.ls).1
    view := step.event.view daemon.view
    clock := step.answers.now
    written :=
      writtenSections daemon.written (daemonEffects env daemon step) }

def daemonSystem (env : Env) : System Daemon Step :=
  { enabled := daemonEnabled env
    next := daemonNext env }

instance (env : Env) (view : Option (List Int32)) (event : Event) :
    Decidable (event.Possible env view) := by
  rcases event <;> rcases view <;> unfold Event.Possible <;> infer_instance

instance (env : Env) (daemon : Daemon) (step : Step) :
    Decidable ((daemonSystem env).enabled daemon step) :=
  inferInstanceAs (Decidable (_ ∧ _))

/-- A daemon with every option on, whose memory is cleared, for concrete
runs. -/
def plainEnv (nodeid : Int32) : Env :=
  { plock :=
      { ourNodeid := nodeid
        plockOwnership := true
        dropResourcesCount := 10
        waiterJunk := fun _ => false
        lockJunk := fun _ => false
        infoJunk := fun _ => Info.cleared }
    enableFencing := true
    enableQuorum := true
    enablePlock := true }

/-- Surroundings in which nothing stands in the way of a start, except that
fenced does not know the failed nodes. -/
def calmAnswers (now : UInt64) : Answers :=
  { now := now
    junk := 0
    fenceNodeTime := fun _ _ => none
    fenceInProgress := some false
    isClusterMember := fun _ => false
    clusterQuorate := true
    sections := [] }

/-- Surroundings in which every failed node has been fenced. -/
def fencedAnswers (now time : UInt64) : Answers :=
  { calmAnswers now with fenceNodeTime := fun _ _ => some time }

/-- A message about a change of nodes that have no plock state and have not
started before. -/
def infoAbout (type : InfoType) (index : Nat) (change : Confchg Int32) :
    LsInfo :=
  { type := type
    seq := 1
    flags := { joining := true, havePlock := false }
    startedCount := 0
    memberCount := change.members.length
    joinedCount := change.joined.length
    removeCount := change.left.length
    failedCount := (change.left.filter (·.2.failed)).length
    ids := change.members
    about := index }

/-- The same of a node that has started before and has plock state. -/
def infoFrom (type : InfoType) (index : Nat) (change : Confchg Int32)
    (startedCount : UInt32) : LsInfo :=
  { infoAbout type index change with
    flags := { joining := false, havePlock := true }
    startedCount := startedCount }

/-- Node 2 joins node 1. -/
def secondJoins : Confchg Int32 :=
  { members := [1, 2], left := [], joined := [2] }

/-- Node 2 leaves node 1. -/
def secondLeaves : Confchg Int32 :=
  { members := [1], left := [(2, .leave)], joined := [] }

/-- Node 2 fails. -/
def loseTwo : Confchg Int32 :=
  { members := [1], left := [(2, .nodedown)], joined := [] }

/-- Node 3 joins nodes 1 and 2. -/
def thirdJoins : Confchg Int32 :=
  { members := [1, 2, 3], left := [], joined := [3] }

/-- Some nodes join together. -/
def formed (members : List Int32) : Confchg Int32 :=
  { members := members, left := [], joined := members }

/-- Node 1 after the start of some nodes. -/
def startedWith (members : List Int32) : Daemon :=
  (daemonSystem (plainEnv 1)).follow (Daemon.start false)
    (⟨.confchg 0 (formed members), calmAnswers 100⟩ ::
      members.map fun nodeid =>
        ⟨.info nodeid (infoAbout .start 0 (formed members)),
          calmAnswers 110⟩)

end Dlm.Cpg
