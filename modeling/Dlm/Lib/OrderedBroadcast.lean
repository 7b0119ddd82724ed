import Dlm.Lib.Run
import Mathlib.Logic.Function.Basic

/-!
# Replicas over an agreed log

Nodes that broadcast over a channel with one agreed order.  A message waits in
the queue of its sender until it gets its place in the log, and every node
delivers the log from its start to its end at its own pace.  A node may fail,
which puts a `down` entry into the log, or join.  A joining node starts at some
position of the log, at a later position begins to save what it is delivered,
and becomes a member when it restores a snapshot.
-/

namespace Dlm.Broadcast

/-- An entry of the agreed log. -/
inductive Entry (N M : Type) where
  | message (sender : N) (body : M)
  | down (node : N)
  deriving DecidableEq

/-- The node that an entry is about. -/
def Entry.source {N M : Type} : Entry N M → N
  | .message sender _ => sender
  | .down node => node

inductive Status where
  | absent
  | waiting
  | saving (since : Nat)
  | member
  deriving DecidableEq

def Status.isSaving : Status → Bool
  | .saving _ => true
  | _ => false

/-- What the nodes run.  Every handler returns the bodies it sends. -/
structure Algorithm (N M A S D : Type) where
  act : N → A → S → S × List M
  receive : N → N → M → S → S × List M
  remove : N → N → S → S × List M
  fresh : N → S
  save : N → S → S
  snapshot : N → S → D
  restore : N → D → S → S × List M

structure Site (M S : Type) where
  status : Status
  node : S
  position : Nat
  queue : List M

structure State (N M S D : Type) where
  log : List (Entry N M)
  site : N → Site M S
  snapshots : List (Nat × D)

inductive Label (N A : Type) where
  | act (n : N) (action : A)
  | order (n : N)
  | deliver (n : N)
  | crash (n : N)
  | snapshot (n : N)
  | join (n : N) (position : Nat)
  | save (n : N)
  | restore (n : N) (index : Nat)

section Steps

variable {N M A S D : Type} [DecidableEq N]

def Algorithm.handle (alg : Algorithm N M A S D) (n : N) :
    Entry N M → S → S × List M
  | .message sender body => alg.receive n sender body
  | .down node => alg.remove n node

def State.put (s : State N M S D) (n : N) (site : Site M S) :
    State N M S D :=
  { s with site := Function.update s.site n site }

/-- The site after a handler. -/
def Site.commit (site : Site M S) (result : S × List M) : Site M S :=
  { site with node := result.1, queue := site.queue ++ result.2 }

/-- The bodies that a node has in a part of the log. -/
def own (n : N) (entries : List (Entry N M)) : List M :=
  entries.filterMap fun entry =>
    match entry with
    | .message sender body => if sender = n then some body else none
    | .down _ => none

/-- What a node has sent and not been delivered. -/
def State.outstanding (s : State N M S D) (n : N) : List M :=
  own n (s.log.drop (s.site n).position) ++ (s.site n).queue

/-- The entry that a node is delivered next. -/
def State.coming (s : State N M S D) (n : N) : Option (Entry N M) :=
  s.log[(s.site n).position]?

/-- A node may join anywhere behind the last entry about it. -/
def enabled (s : State N M S D) : Label N A → Prop
  | .act n _ => (s.site n).status ≠ .absent
  | .order n =>
      (s.site n).status ≠ .absent ∧ (s.site n).queue.isEmpty = false
  | .deliver n =>
      (s.site n).status ≠ .absent ∧ (s.site n).position < s.log.length
  | .crash n => (s.site n).status ≠ .absent
  | .snapshot n => (s.site n).status = .member
  | .join n position =>
      (s.site n).status = .absent ∧ position ≤ s.log.length ∧
        ∀ entry ∈ s.log.drop position, entry.source ≠ n
  | .save n => (s.site n).status = .waiting
  | .restore n index =>
      (s.site n).status.isSaving = true ∧ index < s.snapshots.length

def Algorithm.next (alg : Algorithm N M A S D) (s : State N M S D) :
    Label N A → State N M S D
  | .act n action =>
      s.put n ((s.site n).commit (alg.act n action (s.site n).node))
  | .order n =>
      match (s.site n).queue with
      | [] => s
      | body :: later =>
          { s.put n { s.site n with queue := later } with
            log := s.log ++ [.message n body] }
  | .deliver n =>
      match s.coming n with
      | none => s
      | some entry =>
          s.put n
            ({ s.site n with position := (s.site n).position + 1 }.commit
              (alg.handle n entry (s.site n).node))
  | .crash n =>
      { s.put n { status := .absent, node := alg.fresh n, position := 0,
                  queue := [] } with
        log := s.log ++ [.down n] }
  | .snapshot n =>
      { s with
        snapshots := s.snapshots ++
          [((s.site n).position, alg.snapshot n (s.site n).node)] }
  | .join n position =>
      s.put n { status := .waiting, node := alg.fresh n, position := position,
                queue := [] }
  | .save n =>
      s.put n
        { s.site n with
          status := .saving (s.site n).position
          node := alg.save n (s.site n).node }
  | .restore n index =>
      match s.snapshots[index]? with
      | none => s
      | some (_, snapshot) =>
          s.put n
            ({ s.site n with status := .member }.commit
              (alg.restore n snapshot (s.site n).node))

def Algorithm.system (alg : Algorithm N M A S D) :
    System (State N M S D) (Label N A) :=
  { enabled := enabled
    next := alg.next }

instance decidableEnabled (s : State N M S D) (label : Label N A) :
    Decidable (enabled s label) := by
  rcases label <;> unfold enabled <;> infer_instance

end Steps

section Agreement

variable {N M G : Type}

/-- The state that the replicas agree on, as a function of the log.  Only
admissible messages are expected in it, and failures only where nodes may
fail. -/
structure Agreement (N M G : Type) where
  start : G
  advance : G → Entry N M → G
  Admissible : G → N → M → Prop
  Fallible : Prop

variable (agreement : Agreement N M G)

def Agreement.Admits (g : G) : Entry N M → Prop
  | .message sender body => agreement.Admissible g sender body
  | .down _ => agreement.Fallible

def Agreement.after (g : G) (entries : List (Entry N M)) : G :=
  entries.foldl agreement.advance g

/-- Every entry is admissible when its turn comes. -/
def Agreement.Chain : G → List (Entry N M) → Prop
  | _, [] => True
  | g, entry :: later =>
      agreement.Admits g entry ∧ Chain (agreement.advance g entry) later

/-- The agreed state at a position of the log. -/
def Agreement.upTo (log : List (Entry N M)) (position : Nat) : G :=
  agreement.after agreement.start (log.take position)

variable {agreement}

variable {log : List (Entry N M)} {position : Nat} {entry : Entry N M}

theorem Agreement.chain_append {g : G} {front back : List (Entry N M)} :
    agreement.Chain g (front ++ back) ↔
      agreement.Chain g front ∧
        agreement.Chain (agreement.after g front) back := by
  induction front generalizing g with
  | nil => simp [Agreement.Chain, Agreement.after]
  | cons entry later induction =>
      simp only [List.cons_append, Agreement.Chain, induction, and_assoc]
      rfl

theorem Agreement.Chain.drop (chain : agreement.Chain agreement.start log)
    (position : Nat) :
    agreement.Chain (agreement.upTo log position) (log.drop position) := by
  rw [← List.take_append_drop position log, chain_append] at chain
  exact chain.2

theorem Agreement.after_append (g : G) (front back : List (Entry N M)) :
    agreement.after g (front ++ back) =
      agreement.after (agreement.after g front) back := by
  simp [Agreement.after]

theorem Agreement.upTo_append (bound : position ≤ log.length)
    (more : List (Entry N M)) :
    agreement.upTo (log ++ more) position = agreement.upTo log position := by
  rw [upTo, upTo, List.take_append_of_le_length bound]

theorem Agreement.after_drop (log : List (Entry N M)) (position : Nat) :
    agreement.after (agreement.upTo log position) (log.drop position) =
      agreement.upTo log log.length := by
  rw [upTo, ← after_append, List.take_append_drop, upTo, List.take_length]

/-- The entries between two positions lead from the agreed state at the first
to the one at the second. -/
theorem Agreement.Chain.between (chain : agreement.Chain agreement.start log)
    {first last : Nat} (ordered : first ≤ last) :
    agreement.Chain (agreement.upTo log first)
        ((log.take last).drop first) ∧
      agreement.after (agreement.upTo log first)
        ((log.take last).drop first) = agreement.upTo log last := by
  have same : agreement.upTo log first =
      agreement.upTo (log.take last) first := by
    rw [upTo, upTo, List.take_take, Nat.min_eq_left ordered]
  rw [← List.take_append_drop last log, chain_append] at chain
  refine ⟨?_, ?_⟩
  · rw [same]
    exact chain.1.drop first
  · rw [same, after_drop, upTo, List.take_length]
    rfl

theorem Agreement.Chain.after {P : G → Prop}
    (step : ∀ {g entry}, P g → agreement.Admits g entry →
      P (agreement.advance g entry))
    {g : G} {entries : List (Entry N M)} (chain : agreement.Chain g entries)
    (holds : P g) : P (agreement.after g entries) := by
  induction entries generalizing g with
  | nil => exact holds
  | cons entry later induction =>
      exact induction chain.2 (step holds chain.1)

/-- What admissible entries keep holds from a position on. -/
theorem Agreement.Chain.from {P : G → Prop}
    (step : ∀ {g entry}, P g → agreement.Admits g entry →
      P (agreement.advance g entry)) {first last : Nat}
    (chain : agreement.Chain agreement.start log) (ordered : first ≤ last)
    (holds : P (agreement.upTo log first)) :
    P (agreement.upTo log last) := by
  obtain ⟨between, reached⟩ := chain.between ordered
  rw [← reached]
  exact between.after step holds

theorem Agreement.upTo_length_append (log : List (Entry N M))
    (entry : Entry N M) :
    agreement.upTo (log ++ [entry]) (log.length + 1) =
      agreement.advance (agreement.upTo log log.length) entry := by
  rw [upTo, upTo, List.take_of_length_le (by simp), after_append,
    List.take_length]
  rfl

theorem take_of_coming (coming : log[position]? = some entry) :
    log.take (position + 1) = log.take position ++ [entry] := by
  rw [List.take_add_one, coming]
  rfl

theorem drop_of_coming (coming : log[position]? = some entry) :
    log.drop position = entry :: log.drop (position + 1) := by
  obtain ⟨bound, rfl⟩ := List.getElem?_eq_some_iff.mp coming
  exact List.drop_eq_getElem_cons bound

theorem Agreement.upTo_of_coming (coming : log[position]? = some entry) :
    agreement.upTo log (position + 1) =
      agreement.advance (agreement.upTo log position) entry := by
  rw [upTo, take_of_coming coming, after_append]
  rfl

/-- No entry of a part of the log is about the node. -/
def Silent (n : N) (entries : List (Entry N M)) : Prop :=
  ∀ entry ∈ entries, entry.source ≠ n

theorem Silent.drop_append {n : N} (silent : Silent n (log.drop position))
    (other : entry.source ≠ n) :
    Silent n ((log ++ [entry]).drop position) := by
  intro found member
  rw [List.drop_append, List.mem_append] at member
  rcases member with old | new
  · exact silent found old
  · have same := List.mem_of_mem_drop new
    rw [List.mem_singleton.mp same]
    exact other

end Agreement

section Simulation

variable {N M A S D G : Type} [DecidableEq N]

/-- How the state of a node follows the agreed state at its own position.
`Rel` also speaks of the bodies that the node still has to be delivered;
`Promise` is what remains of it when the node lags behind the end of the log.
The `ok` predicates are the conditions on the steps of a run. -/
structure Simulation (alg : Algorithm N M A S D)
    (agreement : Agreement N M G) where
  Rel : N → S → List M → G → Prop
  Promise : N → List M → G → Prop
  Vacant : N → G → Prop
  Waiting : N → S → Prop
  Saving : N → S → List (Entry N M) → Prop
  Stored : D → G → Prop
  okAct : N → A → S → Prop
  okDeliver : N → Entry N M → S → List M → Prop
  okSnapshot : N → S → List M → Prop
  okJoin : N → Prop
  okWaiting : N → Entry N M → Prop
  okSaving : N → Entry N M → Prop
  promise : ∀ {n node out g}, Rel n node out g → Promise n out g
  promise_head : ∀ {n body out g},
    Promise n (body :: out) g → agreement.Admissible g n body
  promise_step : ∀ {n entry out g},
    Promise n (own n [entry] ++ out) g → agreement.Admits g entry →
    entry ≠ .down n → Promise n out (agreement.advance g entry)
  act : ∀ {n action node out g}, Rel n node out g → okAct n action node →
    Rel n (alg.act n action node).1 (out ++ (alg.act n action node).2) g
  deliver : ∀ {n entry node out g},
    Rel n node (own n [entry] ++ out) g → agreement.Admits g entry →
    entry ≠ .down n → okDeliver n entry node (own n [entry] ++ out) →
    Rel n (alg.handle n entry node).1 (out ++ (alg.handle n entry node).2)
      (agreement.advance g entry)
  snapshot : ∀ {n node out g}, Rel n node out g → okSnapshot n node out →
    Stored (alg.snapshot n node) g
  vacant_down : ∀ {n g}, Vacant n (agreement.advance g (.down n))
  vacant_step : ∀ {n g entry}, Vacant n g → agreement.Admits g entry →
    entry.source ≠ n → Vacant n (agreement.advance g entry)
  waiting_fresh : ∀ {n}, okJoin n → Waiting n (alg.fresh n)
  waiting_deliver : ∀ {n node entry}, Waiting n node → entry.source ≠ n →
    okWaiting n entry →
    Waiting n (alg.handle n entry node).1 ∧
      (alg.handle n entry node).2 = []
  save : ∀ {n node}, Waiting n node → Saving n (alg.save n node) []
  saving_deliver : ∀ {n node entries entry}, Saving n node entries →
    okSaving n entry →
    Saving n (alg.handle n entry node).1 (entries ++ [entry]) ∧
      (alg.handle n entry node).2 = []
  restore : ∀ {n node entries snapshot g}, Stored snapshot g → Vacant n g →
    agreement.Chain g entries → (∀ entry ∈ entries, entry.source ≠ n) →
    Saving n node entries →
    Rel n (alg.restore n snapshot node).1 (alg.restore n snapshot node).2
      (agreement.after g entries)

variable {alg : Algorithm N M A S D} {agreement : Agreement N M G}
variable (sim : Simulation alg agreement)

/-- What holds of a site, by the status of its node. -/
def Simulation.Placed (log : List (Entry N M)) (n : N) (site : Site M S) :
    Prop :=
  match site.status with
  | .absent => ∀ position ≤ log.length, Silent n (log.drop position) →
      sim.Vacant n (agreement.upTo log position)
  | .waiting => site.position ≤ log.length ∧ site.queue = [] ∧
      Silent n (log.drop site.position) ∧ sim.Waiting n site.node ∧
      sim.Vacant n (agreement.upTo log site.position)
  | .saving since => site.position ≤ log.length ∧ site.queue = [] ∧
      since ≤ site.position ∧ Silent n (log.drop since) ∧
      sim.Saving n site.node ((log.take site.position).drop since) ∧
      sim.Vacant n (agreement.upTo log since)
  | .member => site.position ≤ log.length ∧
      .down n ∉ log.drop site.position ∧
      sim.Rel n site.node (own n (log.drop site.position) ++ site.queue)
        (agreement.upTo log site.position)

/-- The invariant of a run. -/
structure Simulation.Sound (s : State N M S D) : Prop where
  chain : agreement.Chain agreement.start s.log
  placed : ∀ n, sim.Placed s.log n (s.site n)
  stored : ∀ taken ∈ s.snapshots, taken.1 ≤ s.log.length ∧
    sim.Stored taken.2 (agreement.upTo s.log taken.1)

/-- The conditions on the steps of a run.  A snapshot is restored by the nodes
that began to save where it was taken. -/
def Simulation.Allowed (s : State N M S D) : Label N A → Prop
  | .act n action =>
      ((s.site n).status = .absent ∨ (s.site n).status = .member) ∧
        sim.okAct n action (s.site n).node
  | .order _ => True
  | .deliver n => ∀ entry, s.coming n = some entry →
      match (s.site n).status with
      | .absent => True
      | .waiting => sim.okWaiting n entry
      | .saving _ => sim.okSaving n entry
      | .member =>
          sim.okDeliver n entry (s.site n).node (s.outstanding n)
  | .crash _ => agreement.Fallible
  | .snapshot n => sim.okSnapshot n (s.site n).node (s.outstanding n)
  | .join n _ => sim.okJoin n
  | .save _ => True
  | .restore n index => ∀ taken, s.snapshots[index]? = some taken →
      (s.site n).status = .saving taken.1

theorem own_of_silent {n : N} {entries : List (Entry N M)}
    (silent : Silent n entries) : own n entries = [] := by
  apply List.filterMap_eq_nil_iff.mpr
  intro entry member
  cases entry with
  | message sender body => exact if_neg (silent _ member)
  | down node => rfl

theorem own_message_self (n : N) (body : M) :
    own n [.message n body] = [body] := by
  simp [own]

theorem own_message_other {n sender : N} (other : sender ≠ n) (body : M) :
    own n [.message sender body] = [] := by
  simp [own, other]

theorem own_append (n : N) (front back : List (Entry N M)) :
    own n (front ++ back) = own n front ++ own n back :=
  List.filterMap_append

/-- A property of the agreed state and of the messages that a node still waits
for, carried along entries that the node has not been delivered. -/
theorem Agreement.walk {P : G → List M → Prop} {n : N}
    (step : ∀ {entry out g}, P g (own n [entry] ++ out) →
      agreement.Admits g entry → entry ≠ .down n →
      P (agreement.advance g entry) out)
    {entries : List (Entry N M)} {rest : List M} {g : G}
    (holds : P g (own n entries ++ rest)) (chain : agreement.Chain g entries)
    (alive : .down n ∉ entries) : P (agreement.after g entries) rest := by
  induction entries generalizing g with
  | nil => exact holds
  | cons entry later induction =>
      have split : own n (entry :: later) = own n [entry] ++ own n later :=
        own_append n [entry] later
      rw [split, List.append_assoc] at holds
      have headAlive : entry ≠ .down n := by
        rintro rfl
        exact alive List.mem_cons_self
      exact induction (step holds chain.1 headAlive) chain.2
        (fun member => alive (List.mem_cons_of_mem entry member))

/-- The same from the position of a node to a later one. -/
theorem Agreement.walk_to {P : G → List M → Prop} {n : N}
    (step : ∀ {entry out g}, P g (own n [entry] ++ out) →
      agreement.Admits g entry → entry ≠ .down n →
      P (agreement.advance g entry) out)
    {log : List (Entry N M)} {queue : List M} {first last : Nat}
    (chain : agreement.Chain agreement.start log)
    (alive : .down n ∉ log.drop first) (ordered : first ≤ last)
    (holds : P (agreement.upTo log first) (own n (log.drop first) ++ queue)) :
    P (agreement.upTo log last) (own n (log.drop last) ++ queue) := by
  have split : (log.take last).drop first ++ log.drop last =
      log.drop first := by
    rw [List.drop_take, ← Nat.add_sub_of_le ordered, ← List.drop_drop,
      Nat.add_sub_cancel_left, List.take_append_drop]
  rw [← split, own_append, List.append_assoc] at holds
  obtain ⟨between, reached⟩ := chain.between ordered
  rw [← reached]
  apply Agreement.walk step holds between
  intro member
  apply alive
  rw [← split]
  exact List.mem_append_left _ member

variable {sim}

variable {log : List (Entry N M)} {n : N} {site : Site M S} {entry : Entry N M}
  {s : State N M S D} {label : Label N A}

/-- The message at the head of a member's queue is admissible at the end of
the log. -/
theorem Simulation.admissible_head {body : M} {later : List M}
    (chain : agreement.Chain agreement.start log)
    (placed : sim.Placed log n site) (member : site.status = .member)
    (queue : site.queue = body :: later) :
    agreement.Admissible (agreement.upTo log log.length) n body := by
  rw [Placed, member] at placed
  obtain ⟨_, alive, rel⟩ := placed
  have promise := sim.promise rel
  rw [queue] at promise
  have atEnd := Agreement.walk (P := fun g out => sim.Promise n out g)
    sim.promise_step promise (chain.drop site.position) alive
  rw [Agreement.after_drop] at atEnd
  exact sim.promise_head atEnd

/-- A site is not disturbed by a new entry about another node. -/
theorem Simulation.Placed.extend (placed : sim.Placed log n site)
    (admitted : agreement.Admits (agreement.upTo log log.length) entry)
    (other : entry.source ≠ n) :
    sim.Placed (log ++ [entry]) n site := by
  unfold Placed at placed ⊢
  cases status : site.status with
  | absent =>
      simp only [status] at placed ⊢
      intro position bound silent
      rw [List.length_append, List.length_singleton] at bound
      rcases Nat.lt_or_ge log.length position with beyond | within
      · have last : position = log.length + 1 := by omega
        have vacant := placed log.length (Nat.le_refl _) (by simp [Silent])
        rw [last, Agreement.upTo_length_append]
        exact sim.vacant_step vacant admitted other
      · rw [Agreement.upTo_append within]
        apply placed position within
        intro found member
        apply silent found
        rw [List.drop_append_of_le_length within]
        exact List.mem_append_left _ member
  | waiting =>
      simp only [status] at placed ⊢
      obtain ⟨bound, empty, silent, waits, vacant⟩ := placed
      rw [Agreement.upTo_append bound, List.length_append]
      exact ⟨by omega, empty, silent.drop_append other, waits, vacant⟩
  | saving since =>
      simp only [status] at placed ⊢
      obtain ⟨bound, empty, after, silent, saves, vacant⟩ := placed
      rw [Agreement.upTo_append (by omega), List.length_append,
        List.take_append_of_le_length bound]
      exact ⟨by omega, empty, after, silent.drop_append other, saves, vacant⟩
  | member =>
      simp only [status] at placed ⊢
      obtain ⟨bound, alive, rel⟩ := placed
      have foreign : own n [entry] = [] := by
        apply own_of_silent
        intro found member
        rw [List.mem_singleton.mp member]
        exact other
      rw [Agreement.upTo_append bound, List.length_append,
        List.drop_append_of_le_length bound, own_append, foreign,
        List.append_nil]
      refine ⟨by omega, ?_, rel⟩
      intro member
      rcases List.mem_append.mp member with old | new
      · exact alive old
      · apply other
        rw [← List.mem_singleton.mp new]
        rfl

/-- A member's next message gets its place in the log. -/
theorem Simulation.Placed.order {body : M} {later : List M}
    (placed : sim.Placed log n site) (member : site.status = .member)
    (queue : site.queue = body :: later) :
    sim.Placed (log ++ [.message n body]) n { site with queue := later } := by
  simp only [Placed, member] at placed ⊢
  obtain ⟨bound, alive, rel⟩ := placed
  rw [queue] at rel
  rw [Agreement.upTo_append bound, List.length_append,
    List.drop_append_of_le_length bound, own_append, own_message_self]
  refine ⟨by omega, ?_, by simpa using rel⟩
  intro found
  rcases List.mem_append.mp found with old | new
  · exact alive old
  · simp at new

/-- A delivery moves a site along the log. -/
theorem Simulation.Placed.deliver (chain : agreement.Chain agreement.start log)
    (placed : sim.Placed log n site)
    (coming : log[site.position]? = some entry)
    (present : site.status ≠ .absent) (ok : match site.status with
      | .absent => True
      | .waiting => sim.okWaiting n entry
      | .saving _ => sim.okSaving n entry
      | .member => sim.okDeliver n entry site.node
          (own n (log.drop site.position) ++ site.queue)) :
    sim.Placed log n
      ({ site with position := site.position + 1 }.commit
        (alg.handle n entry site.node)) := by
  have within : site.position + 1 ≤ log.length :=
    (List.getElem?_eq_some_iff.mp coming).1
  have front := drop_of_coming coming
  have admitted : agreement.Admits (agreement.upTo log site.position)
      entry := by
    have rest := chain.drop site.position
    rw [front] at rest
    exact rest.1
  cases status : site.status with
  | absent => exact absurd status present
  | waiting =>
      simp only [Placed, Site.commit, status] at placed ok ⊢
      obtain ⟨_, empty, silent, waits, vacant⟩ := placed
      rw [front] at silent
      obtain ⟨still, quiet⟩ := sim.waiting_deliver waits
        (silent entry List.mem_cons_self) ok
      refine ⟨within, by rw [empty, quiet]; rfl, ?_, still, ?_⟩
      · exact fun found member => silent found (List.mem_cons_of_mem _ member)
      · rw [Agreement.upTo_of_coming coming]
        exact sim.vacant_step vacant admitted (silent entry List.mem_cons_self)
  | saving since =>
      simp only [Placed, Site.commit, status] at placed ok ⊢
      obtain ⟨_, empty, after, silent, saves, vacant⟩ := placed
      obtain ⟨still, quiet⟩ := sim.saving_deliver saves ok
      refine ⟨within, by rw [empty, quiet]; rfl, by omega, silent, ?_, vacant⟩
      have reach : since ≤ (log.take site.position).length := by
        rw [List.length_take]
        omega
      rw [take_of_coming coming, List.drop_append_of_le_length reach]
      exact still
  | member =>
      simp only [Placed, Site.commit, status] at placed ok ⊢
      obtain ⟨_, alive, rel⟩ := placed
      have split : own n (log.drop site.position) =
          own n [entry] ++ own n (log.drop (site.position + 1)) := by
        rw [front]
        exact own_append n [entry] _
      rw [front, List.mem_cons, not_or] at alive
      rw [split, List.append_assoc] at rel ok
      refine ⟨within, alive.2, ?_⟩
      rw [Agreement.upTo_of_coming coming, ← List.append_assoc]
      exact sim.deliver rel admitted (Ne.symm alive.1) ok

/-- A step that changes one site and neither the log nor the snapshots. -/
theorem Simulation.Sound.put (sound : sim.Sound s)
    (placed : sim.Placed s.log n site) :
    sim.Sound (s.put n site) := by
  refine ⟨sound.chain, ?_, sound.stored⟩
  intro other
  by_cases same : other = n
  · subst same
    simpa [State.put] using placed
  · simpa [State.put, same] using sound.placed other

/-- A step that appends an entry about the node whose site it changes. -/
theorem Simulation.Sound.append (sound : sim.Sound s)
    (admitted : agreement.Admits (agreement.upTo s.log s.log.length) entry)
    (source : entry.source = n)
    (placed : sim.Placed (s.log ++ [entry]) n site) :
    sim.Sound { s.put n site with log := s.log ++ [entry] } := by
  refine ⟨?_, ?_, ?_⟩
  · have atEnd : agreement.upTo s.log s.log.length =
        agreement.after agreement.start s.log := by
      rw [Agreement.upTo, List.take_length]
    rw [atEnd] at admitted
    exact Agreement.chain_append.mpr ⟨sound.chain, admitted, trivial⟩
  · intro other
    by_cases same : other = n
    · subst same
      simpa [State.put] using placed
    · have kept := (sound.placed other).extend admitted
        (by rw [source]; exact Ne.symm same)
      simpa [State.put, same] using kept
  · intro taken member
    obtain ⟨bound, stored⟩ := sound.stored taken member
    simp only [List.length_append]
    rw [Agreement.upTo_append bound]
    exact ⟨by omega, stored⟩

/-- Every allowed step keeps the invariant. -/
theorem Simulation.Sound.step (sound : sim.Sound s) (label : Label N A)
    (enabled : enabled s label) (allowed : sim.Allowed s label) :
    sim.Sound (alg.next s label) := by
  cases label with
  | act n action =>
      obtain ⟨settled, ok⟩ := allowed
      have member := settled.resolve_left enabled
      apply sound.put
      have placed := sound.placed n
      simp only [Placed, Site.commit, member] at placed ⊢
      obtain ⟨bound, alive, rel⟩ := placed
      refine ⟨bound, alive, ?_⟩
      rw [← List.append_assoc]
      exact sim.act rel ok
  | order n =>
      obtain ⟨present, waiting⟩ := enabled
      cases queue : (s.site n).queue with
      | nil => simp [queue] at waiting
      | cons body later =>
          have member : (s.site n).status = .member := by
            have placed := sound.placed n
            cases status : (s.site n).status with
            | absent => exact absurd status present
            | waiting =>
                simp [Placed, status, queue] at placed
            | saving since =>
                simp [Placed, status, queue] at placed
            | member => rfl
          have admitted : agreement.Admits
              (agreement.upTo s.log s.log.length) (.message n body) :=
            sim.admissible_head sound.chain (sound.placed n) member queue
          simp only [Algorithm.next, queue]
          exact sound.append admitted rfl
            ((sound.placed n).order member queue)
  | deliver n =>
      simp only [Algorithm.next]
      cases coming : s.coming n with
      | none => exact sound
      | some entry =>
          exact sound.put ((sound.placed n).deliver sound.chain coming
            enabled.1 (allowed entry coming))
  | crash n =>
      have admitted : agreement.Admits
          (agreement.upTo s.log s.log.length) (.down n) := allowed
      refine sound.append admitted rfl ?_
      simp only [Placed]
      intro position bound silent
      have last : position = s.log.length + 1 := by
        rw [List.length_append, List.length_singleton] at bound
        by_contra different
        have within : position ≤ s.log.length := by omega
        apply silent (.down n) _ rfl
        rw [List.drop_append_of_le_length within]
        simp
      rw [last, Agreement.upTo_length_append]
      exact sim.vacant_down
  | snapshot n =>
      refine ⟨sound.chain, sound.placed, ?_⟩
      intro taken found
      rcases List.mem_append.mp found with old | new
      · exact sound.stored taken old
      · rw [List.mem_singleton.mp new]
        have placed := sound.placed n
        have member : (s.site n).status = .member := enabled
        simp only [Placed, member] at placed
        exact ⟨placed.1, sim.snapshot placed.2.2 allowed⟩
  | join n position =>
      obtain ⟨absent, bound, silent⟩ := enabled
      apply sound.put
      have placed := sound.placed n
      simp only [Placed, absent] at placed ⊢
      exact ⟨bound, trivial, silent, sim.waiting_fresh allowed,
        placed position bound silent⟩
  | save n =>
      apply sound.put
      have placed := sound.placed n
      have waiting : (s.site n).status = .waiting := enabled
      simp only [Placed, waiting] at placed ⊢
      obtain ⟨bound, empty, silent, waits, vacant⟩ := placed
      have none : (s.log.take (s.site n).position).drop
          (s.site n).position = [] := by
        apply List.drop_eq_nil_of_le
        rw [List.length_take]
        omega
      rw [none]
      exact ⟨bound, empty, Nat.le_refl _, silent, sim.save waits, vacant⟩
  | restore n index =>
      simp only [Algorithm.next]
      cases found : s.snapshots[index]? with
      | none => exact sound
      | some taken =>
          have saving := allowed taken found
          obtain ⟨_, stored⟩ :=
            sound.stored taken (List.mem_of_getElem? found)
          apply sound.put
          have placed := sound.placed n
          simp only [Placed, Site.commit, saving] at placed ⊢
          obtain ⟨bound, empty, after, silent, saves, vacant⟩ := placed
          obtain ⟨chain, reached⟩ := sound.chain.between after
          have inside : Silent n
              ((s.log.take (s.site n).position).drop taken.1) := by
            intro entry member
            rw [List.drop_take] at member
            exact silent entry (List.mem_of_mem_take member)
          have behind : Silent n (s.log.drop (s.site n).position) := by
            intro entry member
            apply silent entry
            rw [← Nat.add_sub_of_le after, ← List.drop_drop] at member
            exact List.mem_of_mem_drop member
          refine ⟨bound, fun down => behind _ down rfl, ?_⟩
          rw [own_of_silent behind, empty, ← reached]
          exact sim.restore stored vacant chain inside saves

/-- The invariant holds in every state of a run whose steps meet the
conditions. -/
theorem Simulation.sound_of_run {allowed : State N M S D → Label N A → Prop}
    {start : State N M S D} (run : alg.system.Run allowed start s)
    (initially : sim.Sound start)
    (implied : ∀ state label, allowed state label →
      sim.Allowed state label) : sim.Sound s :=
  run.invariant sim.Sound initially fun state label enabled permitted sound =>
    sound.step label enabled (implied state label permitted)

/-- No node is joining. -/
def Settled (s : State N M S D) : Prop :=
  ∀ n, (s.site n).status = .absent ∨ (s.site n).status = .member

/-- The steps of a join. -/
def Label.joining : Label N A → Bool
  | .join _ _ => true
  | .save _ => true
  | .restore _ _ => true
  | _ => false

theorem Settled.put (settled : Settled s)
    (status : site.status = .absent ∨ site.status = .member) :
    Settled (s.put n site) := by
  intro other
  by_cases same : other = n
  · subst same
    simpa [State.put] using status
  · simpa [State.put, same] using settled other

theorem Settled.next (settled : Settled s) (still : label.joining = false) :
    Settled (alg.next s label) := by
  cases label with
  | act n action => exact settled.put (settled n)
  | order n =>
      simp only [Algorithm.next]
      cases (s.site n).queue with
      | nil => exact settled
      | cons body later => exact settled.put (settled n)
  | deliver n =>
      simp only [Algorithm.next]
      cases s.coming n with
      | none => exact settled
      | some entry => exact settled.put (settled n)
  | crash n => exact settled.put (.inl rfl)
  | snapshot n => exact settled
  | join n position => cases still
  | save n => cases still
  | restore n index => cases still

/-- No node has failed. -/
def Unbroken (s : State N M S D) : Prop :=
  ∀ node, .down node ∉ s.log

def Label.crashing : Label N A → Bool
  | .crash _ => true
  | _ => false

theorem Unbroken.next (unbroken : Unbroken s) (still : label.crashing = false) :
    Unbroken (alg.next s label) := by
  cases label with
  | order n =>
      simp only [Algorithm.next]
      cases (s.site n).queue with
      | nil => exact unbroken
      | cons body later =>
          intro node member
          rcases List.mem_append.mp member with old | new
          · exact unbroken node old
          · simp at new
  | deliver n =>
      simp only [Algorithm.next]
      cases s.coming n with
      | none => exact unbroken
      | some entry => exact unbroken
  | crash n => cases still
  | restore n index =>
      simp only [Algorithm.next]
      cases s.snapshots[index]? with
      | none => exact unbroken
      | some taken => exact unbroken
  | act n action => exact unbroken
  | snapshot n => exact unbroken
  | join n position => exact unbroken
  | save n => exact unbroken

section Restrict

variable {allowed : State N M S D → Label N A → Prop}
variable {start s : State N M S D}

/-- In a run without joins the present nodes are members. -/
theorem run_settled (run : alg.system.Run allowed start s)
    (settled : Settled start)
    (still : ∀ state label, allowed state label → label.joining = false) :
    alg.system.Run (fun state label => allowed state label ∧ Settled state)
      start s :=
  run.strengthen settled
    (fun _ _ _ permitted settled => settled.next (still _ _ permitted))
    (fun _ _ _ permitted settled => ⟨permitted, settled⟩)

/-- In a run without failures no failure is delivered. -/
theorem run_unbroken (run : alg.system.Run allowed start s)
    (unbroken : Unbroken start)
    (still : ∀ state label, allowed state label → label.crashing = false) :
    alg.system.Run (fun state label => allowed state label ∧ Unbroken state)
      start s :=
  run.strengthen unbroken
    (fun _ _ _ permitted unbroken => unbroken.next (still _ _ permitted))
    (fun _ _ _ permitted unbroken => ⟨permitted, unbroken⟩)

end Restrict

theorem log_of_run {allowed : State N M S D → Label N A → Prop}
    {start s : State N M S D} (run : alg.system.Run allowed start s) :
    start.log <+: s.log := by
  apply run.invariant (fun state => start.log <+: state.log)
    (List.prefix_refl _)
  intro state label _ _ grown
  apply grown.trans
  change state.log <+: (alg.next state label).log
  cases label with
  | order n =>
      simp only [Algorithm.next]
      cases (state.site n).queue with
      | nil => exact List.prefix_refl _
      | cons body later => exact List.prefix_append _ _
  | deliver n =>
      simp only [Algorithm.next]
      cases state.coming n with
      | none => exact List.prefix_refl _
      | some entry => exact List.prefix_refl _
  | crash n => exact List.prefix_append _ _
  | restore n index =>
      simp only [Algorithm.next]
      cases state.snapshots[index]? with
      | none => exact List.prefix_refl _
      | some taken => exact List.prefix_refl _
  | act n action => exact List.prefix_refl _
  | snapshot n => exact List.prefix_refl _
  | join n position => exact List.prefix_refl _
  | save n => exact List.prefix_refl _

end Simulation

end Dlm.Broadcast
