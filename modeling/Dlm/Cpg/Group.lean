import Dlm.Cpg.Plocks
import Dlm.Lib.GroupRuns

/-!
# The group of a lockspace

The daemons of a lockspace as a process group.  They are given the same stream
of configuration changes and messages, and share a checkpoint, which a
joining daemon finds as the last store has left it.  The state carries a
history that no handler looks at: when a daemon began to save messages, when
the checkpoint was stored and which change every handled delivery completed.
-/

namespace Dlm.Cpg

open Plock ProcessGroup

/-- What the members send: the messages of `send_info` and those of the plock
code.  `dlm_send_message` adds the sender. -/
inductive Payload where
  | info (li : LsInfo)
  | plock (type : MsgType) (info : Info)
  deriving DecidableEq, Repr

/-- What happens to a daemon beside the deliveries. -/
inductive Local where
  | poll
  | read (info : Info)
  | drop (aged : UInt64 → Bool)
  | fsRegister
  | fsUnregister
  | fsNotified (nodeid : Int32)

def Local.event : Local → Event
  | .poll => .poll
  | .read info => .read info
  | .drop aged => .drop aged
  | .fsRegister => .fsRegister
  | .fsUnregister => .fsUnregister
  | .fsNotified nodeid => .fsNotified nodeid

/-- The delivery of an entry of the stream. -/
def entryEvent (index : Nat) : Entry Int32 Payload → Event
  | .confchg change => .confchg index change
  | .message sender (.info li) => .info sender li
  | .message sender (.plock type info) =>
      .plock { type := type, nodeid := sender, info := info }

/-- The plock message that an event delivers. -/
def Event.plocks : Event → List Message
  | .plock message => [message]
  | _ => []

/-- A daemon in the group.  `savingSince` is the number of entries it had read
when it last did not save messages. -/
structure Peer where
  ls : Lockspace
  savingSince : Nat

/-- A handled event: the node, the delivery if it was one, and the index and
the checkpoint node of the change that it completed. -/
structure Record where
  node : Int32
  delivery : Option Nat
  completed : Option (Nat × Int32)
  deriving DecidableEq, Repr

/-- What the daemons share: the checkpoint with the number of entries that its
writer had read when it stored it, and the events handled so far. -/
structure Common where
  checkpoint : Option (Nat × List Section)
  trace : List Record

/-- The sections that `retrieve_plocks` finds. -/
def Common.sections (common : Common) : List Section :=
  match common.checkpoint with
  | none => []
  | some (_, sections) => sections

/-- The daemons of the group. -/
structure Settings where
  env : Int32 → Env
  ourNodeid : ∀ n, (env n).plock.ourNodeid = n
  fsRegistered : Int32 → Bool

def Effect.payload : Effect → Option Payload
  | .send li => some (.info li)
  | .plock (.send type info) => some (.plock type info)
  | _ => none

/-- The checkpoint after the effects of a handler. -/
def storedBy (position : Nat) (before : Option (Nat × List Section))
    (effects : List Effect) : Option (Nat × List Section) :=
  effects.foldl
    (fun checkpoint effect =>
      match effect with
      | .storeCheckpoint sections => some (position, sections)
      | _ => checkpoint) before

/-- The change that a handler completed. -/
def completedBy (effects : List Effect) : Option (Nat × Int32) :=
  effects.findSome? fun effect =>
    match effect with
    | .complete index ckptNode => some (index, ckptNode)
    | _ => none

/-- A handled event in the group; `position` is the number of entries read
when it is done. -/
def handled (settings : Settings) (n : Int32) (position : Nat)
    (delivery : Option Nat) (event : Event) (answers : Answers)
    (common : Common) (peer : Peer) : Outcome Payload Peer Common :=
  let result := handle (settings.env n) answers event peer.ls
  { state :=
      { ls := result.1
        savingSince :=
          if peer.ls.plocks.savePlocks then peer.savingSince else position }
    sent := result.2.filterMap Effect.payload
    shared :=
      { checkpoint := storedBy position common.checkpoint result.2
        trace := common.trace ++
          [{ node := n
             delivery := delivery
             completed := completedBy result.2 }] } }

/-- The checkpoint service returns the sections in any order. -/
def daemons (settings : Settings) :
    Process Int32 Payload Answers (Local × Answers) Peer Common :=
  { birth := fun n =>
      { ls := Lockspace.new (settings.fsRegistered n), savingSince := 0 }
    ready := fun answers common => answers.sections.isPerm common.sections
    deliver := fun n index entry answers common peer =>
      handled settings n (index + 1) (some index) (entryEvent index entry)
        answers common peer
    act := fun n position action common peer =>
      handled settings n position none action.1.event action.2 common peer }

abbrev Group := State Int32 Payload Peer Common

abbrev GroupLabel := Label Int32 Answers (Local × Answers)

/-- Nobody has joined, and there is no checkpoint. -/
def Group.start : Group :=
  State.empty { checkpoint := none, trace := [] }

abbrev Log := List (Entry Int32 Payload)

/-- The event makes `receive_plocks_stored` get past its tests. -/
def Event.accepted (env : Env) (ls : Lockspace) : Event → Bool
  | .info sender li =>
      li.type == .plocksStored && acceptsPlocksStored env sender li ls
  | _ => false

/-- The event makes `retrieve_plocks` read the checkpoint. -/
def retrieves (env : Env) (event : Event) (ls : Lockspace) : Bool :=
  env.enablePlock && event.accepted env ls

/-- The next delivery to the process makes it retrieve the checkpoint. -/
def retrieving (settings : Settings) (s : Group) (n : Int32)
    (site : Site Payload Peer) : Bool :=
  (s.log[site.position]?).any fun entry =>
    retrieves (settings.env n) (entryEvent site.position entry)
      site.state.ls

theorem possible_of_entry {log : Log} (lawful : Lawful log) (env : Env)
    {index : Nat} {entry : Entry Int32 Payload}
    (here : log[index]? = some entry) :
    (entryEvent index entry).Possible env (some (view (log.take index))) := by
  cases entry with
  | confchg change => exact lawful.follows index change here
  | message sender body =>
      cases body with
      | info li => trivial
      | plock type info => trivial

theorem Local.possible (action : Local) (env : Env)
    (view : Option (List Int32)) : action.event.Possible env view := by
  cases action with
  | poll => trivial
  | read info => trivial
  | drop aged => trivial
  | fsRegister => trivial
  | fsUnregister => trivial
  | fsNotified nodeid => trivial

theorem Local.not_accepted (action : Local) (env : Env) (ls : Lockspace) :
    action.event.accepted env ls = false := by
  cases action with
  | poll => rfl
  | read info => rfl
  | drop aged => rfl
  | fsRegister => rfl
  | fsUnregister => rfl
  | fsNotified nodeid => rfl

theorem Local.plocks_nil (action : Local) : action.event.plocks = [] := by
  cases action with
  | poll => rfl
  | read info => rfl
  | drop aged => rfl
  | fsRegister => rfl
  | fsUnregister => rfl
  | fsNotified nodeid => rfl

theorem retrieves_needs {env : Env} {event : Event} {ls : Lockspace}
    (retrieved : retrieves env event ls = true) :
    env.enablePlock = true ∧ ls.plocks.needPlocks = true ∧
      ls.startedChange.isSome = true := by
  cases event with
  | info sender li =>
      simp only [retrieves, Event.accepted, acceptsPlocksStored,
        Bool.and_eq_true] at retrieved
      obtain ⟨plock, _, ⟨need, _⟩, matched⟩ := retrieved
      refine ⟨plock, need, ?_⟩
      cases started : ls.startedChange with
      | none =>
          rw [started] at matched
          cases matched
      | some cg => rfl
  | _ => simp [retrieves, Event.accepted] at retrieved

/-- The checkpoint is left in place or replaced. -/
theorem storedBy_cases (position : Nat) (before : Option (Nat × List Section))
    (effects : List Effect) :
    storedBy position before effects = before ∨
      ∃ sections, .storeCheckpoint sections ∈ effects ∧
        storedBy position before effects = some (position, sections) := by
  induction effects generalizing before with
  | nil => exact .inl rfl
  | cons effect later induction =>
      have rest := induction
        (match effect with
        | .storeCheckpoint sections => some (position, sections)
        | _ => before)
      rcases rest with same | ⟨sections, member, stored⟩
      · cases effect with
        | storeCheckpoint sections =>
            exact .inr ⟨sections, List.mem_cons_self, same⟩
        | _ => exact .inl same
      · exact .inr ⟨sections, List.mem_cons_of_mem _ member, stored⟩

/-- A group of daemons with every option on, for concrete runs. -/
def plainSettings : Settings :=
  { env := plainEnv
    ourNodeid := fun _ => rfl
    fsRegistered := fun _ => false }

/-- The group after a concrete run. -/
def Group.after (labels : List GroupLabel) : Group :=
  (daemons plainSettings).system.follow Group.start labels

/-- Surroundings with a checkpoint. -/
def storedAnswers (now : UInt64) (sections : List Section) : Answers :=
  { calmAnswers now with sections := sections }

/-- An operation that locks resource 7. -/
def lockSeven : Info :=
  { Info.cleared with optype := .lock, ex := 1, number := 7, stop := 9 }

/-- Node 1 joins and completes its first change alone. -/
def firstAlone : List GroupLabel :=
  [.confchg { members := [1], left := [], joined := [1] },
    .deliver 1 (calmAnswers 1),
    .order 1,
    .deliver 1 (calmAnswers 1)]

end Dlm.Cpg
