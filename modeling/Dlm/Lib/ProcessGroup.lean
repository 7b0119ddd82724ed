import Dlm.Lib.Run
import Mathlib.Logic.Function.Basic
import Mathlib.Tactic.MkIffOfInductiveProp

/-!
# Process groups over an agreed log

Processes that are told, in one agreed order, how their group changes and what
its members send.  A message waits in the queue of its sender until it gets
its place in the log.  A process starts at the configuration change that adds
it and reads the log at its own pace from there.  A failed process disappears
with the change that reports it, and what it had not yet got into the log is
lost; a process that leaves ends when it reads of its own departure.

Beside the log the processes share a store that a handler reads and writes at
once.
-/

namespace Dlm.ProcessGroup

/-- Why a member is gone. -/
inductive Reason where
  | leave
  | nodedown
  | procdown
  deriving DecidableEq, Repr

def Reason.failed : Reason → Bool
  | .leave => false
  | .nodedown => true
  | .procdown => true

/-- A configuration change: the members from now on, those that are gone and
those that are new. -/
structure Confchg (N : Type) where
  members : List N
  left : List (N × Reason)
  joined : List N
  deriving DecidableEq, Repr

inductive Entry (N M : Type) where
  | confchg (change : Confchg N)
  | message (sender : N) (body : M)
  deriving DecidableEq, Repr

section Log

variable {N M : Type}

def Confchg.Removes (change : Confchg N) (n : N) : Prop :=
  ∃ gone ∈ change.left, gone.1 = n

def Confchg.Fails (change : Confchg N) (n : N) : Prop :=
  ∃ gone ∈ change.left, gone.1 = n ∧ gone.2.failed = true

def Entry.Removes (entry : Entry N M) (n : N) : Prop :=
  match entry with
  | .confchg change => change.Removes n
  | .message _ _ => False

/-- The change can follow a membership. -/
@[mk_iff]
structure Confchg.Follows (change : Confchg N) (view : List N) : Prop where
  nodup : change.members.Nodup
  left_members : ∀ gone ∈ change.left, gone.1 ∈ view
  joined_new : ∀ n ∈ change.joined, n ∉ view
  joined_members : ∀ n ∈ change.joined, n ∈ change.members
  members_known : ∀ n ∈ change.members,
    n ∈ change.joined ∨ (n ∈ view ∧ ¬ change.Removes n)
  view_kept : ∀ n ∈ view, change.Removes n ∨ n ∈ change.members

/-- The change can be the first that a process sees: it adds the process and
reports nobody gone. -/
@[mk_iff]
structure Confchg.Begins (change : Confchg N) (n : N) : Prop where
  nodup : change.members.Nodup
  left_nobody : change.left = []
  joins : n ∈ change.joined
  joined_members : ∀ m ∈ change.joined, m ∈ change.members

/-- The membership after an entry. -/
def advance (view : List N) : Entry N M → List N
  | .confchg change => change.members
  | .message _ _ => view

/-- The membership at the end of a log. -/
def view (log : List (Entry N M)) : List N :=
  log.foldl advance []

section Decidable

variable [DecidableEq N]

instance decidableRemoves (change : Confchg N) (n : N) :
    Decidable (change.Removes n) :=
  inferInstanceAs (Decidable (∃ gone ∈ change.left, gone.1 = n))

instance decidableFails (change : Confchg N) (n : N) :
    Decidable (change.Fails n) :=
  inferInstanceAs
    (Decidable (∃ gone ∈ change.left, gone.1 = n ∧ gone.2.failed = true))

instance decidableEntryRemoves (entry : Entry N M) (n : N) :
    Decidable (entry.Removes n) := by
  rcases entry <;> unfold Entry.Removes <;> infer_instance

instance decidableFollowsView (change : Confchg N) (view : List N) :
    Decidable (change.Follows view) :=
  decidable_of_iff _ (Confchg.follows_iff change view).symm

instance decidableBegins (change : Confchg N) (n : N) :
    Decidable (change.Begins n) :=
  decidable_of_iff _ (Confchg.begins_iff change n).symm

end Decidable

end Log

/-- What a handler leaves behind. -/
structure Outcome (M S D : Type) where
  state : S
  sent : List M
  shared : D

/-- What the processes run.  A delivery is told the index of its entry, an
action how many entries have been read; `ready` tells the inputs that the
shared store allows. -/
structure Process (N M I A S D : Type) where
  birth : N → S
  ready : I → D → Bool
  deliver : N → Nat → Entry N M → I → D → S → Outcome M S D
  act : N → Nat → A → D → S → Outcome M S D

/-- A running process: the index of the change that added it, the number of
entries it has read or skipped, its state and its unordered messages. -/
structure Site (M S : Type) where
  born : Nat
  position : Nat
  state : S
  queue : List M

structure State (N M S D : Type) where
  log : List (Entry N M)
  site : N → Option (Site M S)
  shared : D

inductive Label (N I A : Type) where
  | confchg (change : Confchg N)
  | order (n : N)
  | deliver (n : N) (input : I)
  | act (n : N) (action : A)

section Steps

variable {N M I A S D : Type} [DecidableEq N]

def State.put (s : State N M S D) (n : N) (site : Option (Site M S)) :
    State N M S D :=
  { s with site := Function.update s.site n site }

/-- The site after a handler. -/
def Site.commit (site : Site M S) (outcome : Outcome M S D) : Site M S :=
  { site with
    state := outcome.state
    queue := site.queue ++ outcome.sent }

def Site.advance (site : Site M S) : Site M S :=
  { site with position := site.position + 1 }

/-- The group after a handler of one of its processes. -/
def State.settle (s : State N M S D) (n : N) (site : Site M S)
    (outcome : Outcome M S D) : State N M S D :=
  { s.put n (some (site.commit outcome)) with shared := outcome.shared }

variable (proc : Process N M I A S D)

def Process.site (n : N) (index : Nat) : Site M S :=
  { born := index, position := index, state := proc.birth n, queue := [] }

def Process.enabled (s : State N M S D) : Label N I A → Prop
  | .confchg change =>
      change.Follows (view s.log) ∧
        ∀ n ∈ change.joined, (s.site n).isNone = true
  | .order n =>
      n ∈ view s.log ∧
        (s.site n).any (fun site => !site.queue.isEmpty) = true
  | .deliver n input =>
      (s.site n).any (fun site => site.position < s.log.length) = true ∧
        proc.ready input s.shared = true
  | .act n _ => (s.site n).isSome = true

/-- The sites after a configuration change. -/
def Process.reform (s : State N M S D) (change : Confchg N) (n : N) :
    Option (Site M S) :=
  if n ∈ change.joined then some (proc.site n s.log.length)
  else if change.Fails n then none
  else s.site n

def Process.next (s : State N M S D) : Label N I A → State N M S D
  | .confchg change =>
      { s with
        log := s.log ++ [.confchg change]
        site := proc.reform s change }
  | .order n =>
      match s.site n with
      | none => s
      | some site =>
          match site.queue with
          | [] => s
          | body :: later =>
              { s.put n (some { site with queue := later }) with
                log := s.log ++ [.message n body] }
  | .deliver n input =>
      match s.site n with
      | none => s
      | some site =>
          match s.log[site.position]? with
          | none => s
          | some entry =>
              if entry.Removes n then s.put n none
              else s.settle n site.advance
                (proc.deliver n site.position entry input s.shared site.state)
  | .act n action =>
      match s.site n with
      | none => s
      | some site =>
          s.settle n site
            (proc.act n site.position action s.shared site.state)

def Process.system : System (State N M S D) (Label N I A) :=
  { enabled := proc.enabled
    next := proc.next }

instance decidableEnabled (s : State N M S D) (label : Label N I A) :
    Decidable (proc.enabled s label) := by
  rcases label <;> unfold Process.enabled <;> infer_instance

instance decidableSystemEnabled (s : State N M S D) (label : Label N I A) :
    Decidable (proc.system.enabled s label) :=
  decidableEnabled proc s label

/-- Nobody has joined yet. -/
def State.empty (shared : D) : State N M S D :=
  { log := [], site := fun _ => none, shared := shared }

end Steps

end Dlm.ProcessGroup
