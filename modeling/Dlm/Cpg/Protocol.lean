import Dlm.Lib.ProcessGroup

/-!
# The protocol versions of the daemons

The daemons themselves form a process group, in which they agree on the
versions of the protocols that they run.  A daemon announces the versions it
can run whenever somebody joins.  One that has heard from all members proposes
the minimum of what they can run, and every daemon adopts the first versions
that it receives.
-/

namespace Dlm.Cpg

open ProcessGroup

/-- `struct protocol_version`. -/
structure ProtocolVersion where
  major : UInt16
  minor : UInt16
  patch : UInt16
  flags : UInt16
  deriving DecidableEq, Repr

def ProtocolVersion.zero : ProtocolVersion :=
  { major := 0, minor := 0, patch := 0, flags := 0 }

/-- One of the first three numbers is zero, which is no valid value. -/
def ProtocolVersion.invalid (version : ProtocolVersion) : Bool :=
  version.major = 0 || version.minor = 0 || version.patch = 0

/-- `struct protocol`. -/
structure Protocol where
  daemonMax : ProtocolVersion
  kernelMax : ProtocolVersion
  daemonRun : ProtocolVersion
  kernelRun : ProtocolVersion
  deriving DecidableEq, Repr

def Protocol.zero : Protocol :=
  { daemonMax := .zero
    kernelMax := .zero
    daemonRun := .zero
    kernelRun := .zero }

/-- The versions that are run. -/
def Protocol.run (proto : Protocol) : ProtocolVersion × ProtocolVersion :=
  (proto.daemonRun, proto.kernelRun)

/-- The fields of `struct node` for an entry of `daemon_nodes`. -/
structure DaemonNode where
  nodeid : Int32
  proto : Protocol
  deriving DecidableEq, Repr

/-- The state of a daemon.  `started` tells whether `setup_cpg` has set
`our_protocol`, and `result` is what `set_protocol` has returned. -/
structure ProtocolDaemon where
  started : Bool
  ourProtocol : Protocol
  daemonMember : List Int32
  daemonNodes : List DaemonNode
  sentProposal : Bool
  result : Option Int
  deriving DecidableEq, Repr

def ProtocolDaemon.new : ProtocolDaemon :=
  { started := false
    ourProtocol := .zero
    daemonMember := []
    daemonNodes := []
    sentProposal := false
    result := none }

/-- The versions that a daemon can run, as `setup_cpg` sets them. -/
structure MaxVersions where
  daemonMax : ProtocolVersion
  kernelMax : ProtocolVersion
  deriving DecidableEq, Repr

def setupCpg (versions : MaxVersions) (daemon : ProtocolDaemon) :
    ProtocolDaemon :=
  if daemon.started then daemon
  else
    { daemon with
      started := true
      ourProtocol :=
        { Protocol.zero with
          daemonMax := versions.daemonMax
          kernelMax := versions.kernelMax } }

def getNodeDaemon (nodes : List DaemonNode) (nodeid : Int32) :
    Option DaemonNode :=
  nodes.find? (·.nodeid == nodeid)

def addNodeDaemon (nodes : List DaemonNode) (nodeid : Int32) :
    List DaemonNode :=
  if (getNodeDaemon nodes nodeid).isSome then nodes
  else nodes ++ [{ nodeid := nodeid, proto := .zero }]

/-- Overwrite the `proto` of the node that `get_node_daemon` returns. -/
def saveProto (nodeid : Int32) (proto : Protocol) :
    List DaemonNode → List DaemonNode
  | [] => []
  | node :: later =>
      if node.nodeid = nodeid then { node with proto := proto } :: later
      else node :: saveProto nodeid proto later

def allProtocolMessages (daemon : ProtocolDaemon) : Bool :=
  !daemon.daemonMember.isEmpty &&
    daemon.daemonMember.all fun nodeid =>
      (getNodeDaemon daemon.daemonNodes nodeid).any fun node =>
        node.proto.daemonMax.major != 0

/-- The choice between the number found so far and one more. -/
def pickNumber (least number : UInt16) : UInt16 :=
  if least = 0 ∨ number < least then number else least

/-- The three loops of `pick_min_protocol` for one of the two versions. -/
def pickMin (versions : List ProtocolVersion) : ProtocolVersion :=
  let major := versions.foldl (fun least v => pickNumber least v.major) 0
  let minor := versions.foldl (fun least v =>
    if major = v.major then pickNumber least v.minor else least) 0
  let patch := versions.foldl (fun least v =>
    if major = v.major ∧ minor = v.minor then pickNumber least v.patch
    else least) 0
  { major := major, minor := minor, patch := patch, flags := 0 }

/-- `pick_min_protocol`; `none` stands for the return value -1. -/
def pickMinProtocol (daemon : ProtocolDaemon) (proto : Protocol) :
    Option Protocol :=
  match daemon.daemonMember.mapM (getNodeDaemon daemon.daemonNodes) with
  | none => none
  | some nodes =>
      let mind := pickMin (nodes.map (·.proto.daemonMax))
      let mink := pickMin (nodes.map (·.proto.kernelMax))
      if mind.invalid || mink.invalid then none
      else some { proto with daemonRun := mind, kernelRun := mink }

/-- `receive_protocol`. -/
def receiveProtocol (sender : Int32) (p : Protocol)
    (daemon : ProtocolDaemon) : ProtocolDaemon :=
  if p.daemonMax.invalid || p.kernelMax.invalid then daemon
  else if p.daemonRun.major ≠ 0 &&
      (p.daemonRun.invalid || p.kernelRun.invalid) then daemon
  else if daemon.ourProtocol.daemonRun.major ≠ 0 then daemon
  else if p.daemonRun.major ≠ 0 then
    { daemon with
      ourProtocol :=
        { daemon.ourProtocol with
          daemonRun := p.daemonRun
          kernelRun := p.kernelRun } }
  else
    { daemon with daemonNodes := saveProto sender p daemon.daemonNodes }

/-- The test of `set_protocol` on one of the versions that were adopted. -/
def incompatible (run max : ProtocolVersion) : Bool :=
  run.major ≠ max.major || run.minor > max.minor

/-- A round of the loop of `set_protocol`, up to the `poll`, and the messages it
sends. -/
def setProtocol (daemon : ProtocolDaemon) : ProtocolDaemon × List Protocol :=
  if daemon.result.isSome then (daemon, [])
  else if daemon.ourProtocol.daemonRun.major ≠ 0 then
    if incompatible daemon.ourProtocol.daemonRun
          daemon.ourProtocol.daemonMax ||
        incompatible daemon.ourProtocol.kernelRun
          daemon.ourProtocol.kernelMax then
      ({ daemon with result := some (-1) }, [])
    else ({ daemon with result := some 0 }, [])
  else if !daemon.sentProposal && allProtocolMessages daemon then
    let daemon := { daemon with sentProposal := true }
    match pickMinProtocol daemon daemon.ourProtocol with
    | none => ({ daemon with result := some (-1) }, [])
    | some proto => (daemon, [proto])
  else (daemon, [])

/-- `confchg_cb_daemon`, and the messages it sends. -/
def confchgCbDaemon (change : Confchg Int32) (daemon : ProtocolDaemon) :
    ProtocolDaemon × List Protocol :=
  ({ daemon with
      daemonMember := change.members
      daemonNodes := change.members.foldl addNodeDaemon daemon.daemonNodes },
    if change.joined.isEmpty then [] else [daemon.ourProtocol])

/-- The delivery of an entry.  A daemon for which `set_protocol` has failed
ends and handles nothing any more. -/
def deliverProtocol (entry : Entry Int32 Protocol) (versions : MaxVersions)
    (daemon : ProtocolDaemon) : ProtocolDaemon × List Protocol :=
  if daemon.result = some (-1) then (daemon, [])
  else
    let daemon := setupCpg versions daemon
    match entry with
    | .confchg change => confchgCbDaemon change daemon
    | .message sender p => (receiveProtocol sender p daemon, [])

/-- The daemons of a cluster.  The input of a delivery gives the versions of a
daemon that has not started; an action is a round of `set_protocol`. -/
def controlds : Process Int32 Protocol MaxVersions Unit ProtocolDaemon Unit :=
  { birth := fun _ => .new
    ready := fun _ _ => true
    deliver := fun _ _ entry versions _ daemon =>
      let (daemon, sent) := deliverProtocol entry versions daemon
      { state := daemon, sent := sent, shared := () }
    act := fun _ _ _ _ daemon =>
      let (daemon, sent) := setProtocol daemon
      { state := daemon, sent := sent, shared := () } }

abbrev ProtocolLog := List (Entry Int32 Protocol)

abbrev Controlds := State Int32 Protocol ProtocolDaemon Unit

/-- The versions that a message makes a daemon without versions adopt. -/
def Protocol.adoptable (p : Protocol) : Bool :=
  !(p.daemonMax.invalid || p.kernelMax.invalid) && p.daemonRun.major ≠ 0 &&
    !(p.daemonRun.invalid || p.kernelRun.invalid)

/-- What the log says about the versions: the members, those among them that
have been given versions since they joined, and these versions. -/
structure Rule where
  members : List Int32
  given : List Int32
  version : ProtocolVersion × ProtocolVersion
  deriving DecidableEq, Repr

def Rule.next (rule : Rule) : Entry Int32 Protocol → Rule
  | .confchg change =>
      { rule with
        members := change.members
        given := rule.given.filter (· ∈ change.members) }
  | .message _ p =>
      if !p.adoptable then rule
      else
        { rule with
          given := rule.members
          version := if rule.given.isEmpty then p.run else rule.version }

def ruleAt (log : ProtocolLog) : Rule :=
  log.foldl Rule.next
    { members := [], given := [], version := (.zero, .zero) }

/-- The condition on the steps of a run: when a daemon joins, every daemon that
has been given versions has adopted them, and all its messages that still wait
for their order carry them. -/
def Caught (s : Controlds) : Label Int32 MaxVersions Unit → Prop
  | .confchg change =>
      change.joined ≠ [] → ∀ n ∈ (ruleAt s.log).given, ∀ site ∈ s.site n,
        site.state.ourProtocol.daemonRun.major ≠ 0 ∧
          ∀ p ∈ site.queue, p.run = site.state.ourProtocol.run
  | _ => True

instance (s : Controlds) (label : Label Int32 MaxVersions Unit) :
    Decidable (Caught s label) :=
  match label with
  | .confchg change =>
      haveI : Decidable (∀ n ∈ (ruleAt s.log).given, ∀ site ∈ s.site n,
          site.state.ourProtocol.daemonRun.major ≠ 0 ∧
            ∀ p ∈ site.queue, p.run = site.state.ourProtocol.run) :=
        List.decidableBAll _ _
      inferInstanceAs (Decidable (change.joined ≠ [] → _))
  | .order _ => isTrue trivial
  | .deliver _ _ => isTrue trivial
  | .act _ _ => isTrue trivial

end Dlm.Cpg
