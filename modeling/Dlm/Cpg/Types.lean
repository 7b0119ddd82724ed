import Dlm.Lib.ProcessGroup
import Dlm.Plock.Checkpoint

/-!
# Data model of the lockspace changes

The records of `cpg.c` around the closed process group of a lockspace: the
members and the changes of the group, the history of the nodes, and the
`START` and `PLOCKS_STORED` messages.  The sequence numbers and the reason
that `node_history` keeps for queries are left out, and so is `combined_seq`.
-/

namespace Dlm.Cpg

open Plock ProcessGroup

/-- The bits of `hd->flags`: `DLM_MFLG_JOINING` and `DLM_MFLG_HAVEPLOCK`. -/
structure Flags where
  joining : Bool
  havePlock : Bool
  deriving DecidableEq, Repr

/-- `struct member`. -/
structure Member where
  nodeid : Int32
  start : Bool
  added : Bool
  failed : Bool
  disallowed : Bool
  startFlags : Flags
  deriving DecidableEq, Repr

/-- A member cleared by `memset`. -/
def Member.new (nodeid : Int32) : Member :=
  { nodeid := nodeid
    start := false
    added := false
    failed := false
    disallowed := false
    startFlags := { joining := false, havePlock := false } }

/-- `CGST_WAIT_CONDITIONS` and `CGST_WAIT_MESSAGES`. -/
inductive CgState where
  | waitConditions
  | waitMessages
  deriving DecidableEq, Repr

/-- `struct change`.  `index` is not in the source: it is the place of the
configuration change in the stream of deliveries.  No function looks at it. -/
structure Change where
  index : Nat
  members : List Member
  removed : List Member
  memberCount : Nat
  joinedCount : Nat
  removeCount : Nat
  failedCount : Nat
  state : CgState
  seq : UInt32
  deriving DecidableEq, Repr

/-- `struct node`, an entry of `node_history`. -/
structure Node where
  nodeid : Int32
  checkFencing : Bool
  checkQuorum : Bool
  checkFs : Bool
  fsNotified : Bool
  addTime : UInt64
  fenceTime : UInt64
  fenceQueries : UInt32
  deriving DecidableEq, Repr

/-- The entry that `node_history_init` allocates. -/
def Node.new (nodeid : Int32) : Node :=
  { nodeid := nodeid
    checkFencing := false
    checkQuorum := false
    checkFs := false
    fsNotified := false
    addTime := 0
    fenceTime := 0
    fenceQueries := 0 }

/-- `DLM_MSG_START` and `DLM_MSG_PLOCKS_STORED`. -/
inductive InfoType where
  | start
  | plocksStored
  deriving DecidableEq, Repr

/-- A message made by `send_info`: the type, `msgdata` and flags of its
header, its `ls_info` and the node ids of its `id_info` entries.  `about` is
not in the source: it is the `index` of the change that the message was sent
for.  No function looks at it. -/
structure LsInfo where
  type : InfoType
  seq : UInt32
  flags : Flags
  startedCount : UInt32
  memberCount : Nat
  joinedCount : Nat
  removeCount : Nat
  failedCount : Nat
  ids : List Int32
  about : Nat
  deriving DecidableEq, Repr

/-- The fields of `struct lockspace` that the modelled functions use.
`changes` has the newest change in front.  A `time_t` is not negative. -/
structure Lockspace where
  joining : Bool
  kernelStopped : Bool
  fsRegistered : Bool
  changeSeq : UInt32
  startedCount : UInt32
  startedChange : Option Change
  changes : List Change
  nodeHistory : List Node
  plockCkptNode : Int32
  lastCheckpointTime : UInt64
  lastPlockTime : UInt64
  plocks : Plock.Lockspace
  deriving DecidableEq, Repr

/-- The lockspace that `create_ls` allocates and `dlm_join_lockspace` hands to
the group; `fsRegistered` is the answer of `fs_register_check`. -/
def Lockspace.new (fsRegistered : Bool) : Lockspace :=
  { joining := true
    kernelStopped := true
    fsRegistered := fsRegistered
    changeSeq := 0
    startedCount := 0
    startedChange := none
    changes := []
    nodeHistory := []
    plockCkptNode := 0
    lastCheckpointTime := 0
    lastPlockTime := 0
    plocks :=
      { plockResources := []
        savedMessages := []
        needPlocks := true
        savePlocks := false } }

/-- What a handler does outside the lockspace, in the order in which it does
it.  `complete` is not in the source: it marks that `apply_changes` has run
`start_kernel` and `prepare_plocks` for the change with the index, and the
checkpoint node it chose. -/
inductive Effect where
  | plock (effect : Plock.Effect)
  | send (message : LsInfo)
  | storeCheckpoint (sections : List Section)
  | closeCheckpoint
  | setSysfsId
  | setConfigfsMembers (members renew : List Int32)
  | setSysfsControl (value : Bool)
  | setSysfsEventDone
  | kickNodeFromCluster (nodeid : Int32)
  | complete (index : Nat) (ckptNode : Int32)
  deriving DecidableEq, Repr

/-- The globals that the handlers read. -/
structure Env where
  plock : Plock.Env
  enableFencing : Bool
  enableQuorum : Bool
  enablePlock : Bool

/-- What the surroundings answer while a handler runs: the time, the results
of `fence_node_time` by the number of the call and the node asked about, of
`fence_in_progress`, of `is_cluster_member`, the value of `cluster_quorate`,
and the sections of the checkpoint.  `none` is an error return.  `junk` is what
`last_fenced_time` holds before it is assigned. -/
structure Answers where
  now : UInt64
  junk : UInt64
  fenceNodeTime : Nat → Int32 → Option UInt64
  fenceInProgress : Option Bool
  isClusterMember : Int32 → Bool
  clusterQuorate : Bool
  sections : List Section

end Dlm.Cpg
