import Dlm.Deadlock.CycleNode

/-!
# Cycles in a run

In a run in which nobody is added during a cycle the stream stays orderly, and
every node keeps track of it.  The messages of a node that are still on their
way belong to the cycle that the node is in: a `CHECKPOINT_READY` is waited
for, and a `CYCLE_END` is the only one that can end the cycle.
-/

namespace Dlm.Deadlock

open ProcessGroup

variable {log : CycleLog} {entry : Entry Int32 Message} {n : Int32}
  {start position : Nat} {queue later : List Message}

/-- What the node has in the log beyond what it has read. -/
structure Awaited (log : CycleLog) (n : Int32) (position : Nat) : Prop where
  ready : ∀ index, position ≤ index →
    log[index]? = some (.message n .checkpointReady) →
    cycleAt (log.take position) = cycleAt (log.take index)
  ended : ∀ index, position ≤ index →
    log[index]? = some (.message n .cycleEnd) →
    ∃ start, cycleAt (log.take position) = some start ∧
      cycleAt (log.take index) = some start ∧
      Called (log.take position) n start

theorem Awaited.append (awaited : Awaited log n position)
    (within : position ≤ log.length)
    (ready : entry = .message n .checkpointReady →
      cycleAt (log.take position) = cycleAt log)
    (ended : entry = .message n .cycleEnd →
      ∃ start, cycleAt (log.take position) = some start ∧
        cycleAt log = some start ∧ Called (log.take position) n start) :
    Awaited (log ++ [entry]) n position := by
  constructor
  · intro index above here
    rw [take_append_entry within]
    rcases getElem?_append_cases here with old | ⟨rfl, same⟩
    · rw [take_append_entry (Nat.le_of_lt (lt_length_of_entry old))]
      exact awaited.ready index above old
    · rw [List.take_left]
      exact ready same.symm
  · intro index above here
    rw [take_append_entry within]
    rcases getElem?_append_cases here with old | ⟨rfl, same⟩
    · rw [take_append_entry (Nat.le_of_lt (lt_length_of_entry old))]
      exact awaited.ended index above old
    · rw [List.take_left]
      exact ended same.symm

theorem Awaited.read (awaited : Awaited log n position)
    (orderly : Orderly log) (lawful : Lawful log) :
    Awaited log n (position + 1) := by
  constructor
  · intro index above here
    have below := Nat.le_of_succ_le above
    obtain ⟨start, running, _⟩ := orderly.ready index n here
    have same := awaited.ready index below here
    have begun := cycleAt_lt (same.trans running)
    rw [running]
    exact cycleAt_between (Nat.le_of_lt (lt_length_of_entry here)) running
      (Nat.lt_succ_of_lt begun) above
  · intro index above here
    have inside := Nat.le_of_lt (lt_length_of_entry here)
    obtain ⟨start, before, running, called⟩ :=
      awaited.ended index (Nat.le_of_succ_le above) here
    have begun := cycleAt_lt before
    have now := cycleAt_between inside running (Nat.lt_succ_of_lt begun) above
    exact ⟨start, now, running, called.mono orderly lawful
      (Nat.le_trans above inside) now begun (Nat.le_succ position)⟩

/-- What a member has not yet got into the log. -/
structure Queued (log : CycleLog) (n : Int32) (position : Nat)
    (queue : List Message) : Prop where
  ready : .checkpointReady ∈ queue →
    ∃ start, cycleAt (log.take position) = some start ∧ ¬ Ready log n start
  ready_once : queue.count .checkpointReady ≤ 1
  ended : .cycleEnd ∈ queue →
    (∃ start, cycleAt (log.take position) = some start ∧
      Called (log.take position) n start) ∧
    ∀ index, position ≤ index → log[index]? ≠ some (.message n .cycleEnd)
  ended_once : queue.count .cycleEnd ≤ 1

theorem Queued.append (queued : Queued log n position queue)
    (within : position ≤ log.length)
    (ready : entry = .message n .checkpointReady →
      .checkpointReady ∉ queue)
    (ended : entry = .message n .cycleEnd → .cycleEnd ∉ queue) :
    Queued (log ++ [entry]) n position queue := by
  refine ⟨?_, queued.ready_once, ?_, queued.ended_once⟩
  · intro member
    obtain ⟨start, running, waiting⟩ := queued.ready member
    rw [take_append_entry within]
    refine ⟨start, running, ?_⟩
    rw [ready_append]
    rintro (old | ⟨_, same⟩)
    · exact waiting old
    · exact ready same member
  · intro member
    rw [take_append_entry within]
    obtain ⟨called, silent⟩ := queued.ended member
    refine ⟨called, ?_⟩
    intro index above here
    rcases getElem?_append_cases here with old | ⟨_, same⟩
    · exact silent index above old
    · exact ended same.symm member

theorem Queued.tail {body : Message}
    (queued : Queued log n position (body :: later)) :
    Queued log n position later := by
  refine ⟨?_, ?_, ?_, ?_⟩
  · exact fun member => queued.ready (List.mem_cons_of_mem body member)
  · exact Nat.le_trans List.count_le_count_cons queued.ready_once
  · exact fun member => queued.ended (List.mem_cons_of_mem body member)
  · exact Nat.le_trans List.count_le_count_cons queued.ended_once

/-- The head of a queue that has it once is not in the rest. -/
theorem not_mem_of_count {body : Message}
    (once : (body :: later).count body ≤ 1) : body ∉ later := by
  rw [List.count_cons_self] at once
  exact List.count_eq_zero.mp (by omega)

/-- A running node: it is fresh or has read the stream since no cycle was
running. -/
structure Standing (log : CycleLog) (n : Int32)
    (site : Site Message Space) : Prop where
  fresh : site.position = site.born → site.state = Space.new
  quiet : cycleAt (log.take site.born) = none
  tracks : site.born < site.position →
    Tracks (log.take site.position) site.state
  awaited : Awaited log n site.position
  queued : n ∈ view log → Queued log n site.position site.queue

variable {site : Site Message Space}

/-- A node in a cycle has read more than its own joining. -/
theorem Standing.begun (standing : Standing log n site)
    (placed : Placed log n site)
    (running : cycleAt (log.take site.position) = some start) :
    site.born < site.position := by
  apply Nat.lt_of_le_of_ne placed.after
  intro same
  have quiet := standing.quiet
  rw [same, running] at quiet
  cases quiet

/-- The cycle of a node that has a `CHECKPOINT_READY` to be ordered is
running. -/
theorem Standing.waiting (standing : Standing log n site)
    (placed : Placed log n site) (lawful : Lawful log)
    (orderly : Orderly log) (member : n ∈ view log)
    (sent : .checkpointReady ∈ site.queue) :
    ∃ start, cycleAt (log.take site.position) = some start ∧
      cycleAt log = some start ∧ ¬ Ready log n start := by
  obtain ⟨start, running, waiting⟩ := (standing.queued member).ready sent
  have begun := standing.begun placed running
  refine ⟨start, running, ?_, waiting⟩
  have now : cycleAt (log.take log.length) = some start :=
    orderly.open_waiting lawful running placed.within (Nat.le_refl _)
    (fun index above below => placed.stays member index
      (Nat.lt_of_lt_of_le begun above) below)
    (by rw [List.take_length]; exact waiting)
  rwa [List.take_length] at now

/-- The same for a `CYCLE_END`; its sender is called. -/
theorem Standing.called (standing : Standing log n site)
    (placed : Placed log n site) (lawful : Lawful log)
    (orderly : Orderly log) (member : n ∈ view log)
    (sent : .cycleEnd ∈ site.queue) :
    ∃ start, cycleAt (log.take site.position) = some start ∧
      cycleAt log = some start ∧ Called (log.take site.position) n start ∧
      Called log n start := by
  obtain ⟨⟨start, running, called⟩, silent⟩ :=
    (standing.queued member).ended sent
  have begun := standing.begun placed running
  have now : cycleAt (log.take log.length) = some start :=
    orderly.open_called lawful running placed.within (Nat.le_refl _)
    (fun index above below => placed.stays member index
      (Nat.lt_of_lt_of_le begun above) below)
    called (fun index above _ => silent index above)
  have later := called.mono orderly lawful (Nat.le_refl _) now
    (cycleAt_lt running) placed.within
  rw [List.take_length] at now later
  exact ⟨start, running, now, called, later⟩

/-- The log grows by an entry that is not from the node. -/
theorem Standing.append (standing : Standing log n site)
    (placed : Placed log n site)
    (foreign : ∀ body, entry ≠ .message n body)
    (known : n ∈ view (log ++ [entry]) → n ∈ view log) :
    Standing (log ++ [entry]) n site := by
  have within := placed.within
  have born := Nat.le_trans placed.after within
  refine ⟨standing.fresh, ?_, ?_, ?_, ?_⟩
  · rw [take_append_entry born]
    exact standing.quiet
  · rw [take_append_entry within]
    exact standing.tracks
  · exact standing.awaited.append within
      (fun same => (foreign _ same).elim) fun same => (foreign _ same).elim
  · intro member
    exact (standing.queued (known member)).append within
      (fun same => (foreign _ same).elim) fun same => (foreign _ same).elim

/-- The next message of the node gets into the log. -/
theorem Standing.order {body : Message} (standing : Standing log n site)
    (placed : Placed log n site) (lawful : Lawful log)
    (orderly : Orderly log) (member : n ∈ view log)
    (waiting : site.queue = body :: later) :
    Standing (log ++ [.message n body]) n { site with queue := later } := by
  have within := placed.within
  have born := Nat.le_trans placed.after within
  have queued := standing.queued member
  have sent : body ∈ site.queue := by
    rw [waiting]
    exact List.mem_cons_self
  refine ⟨standing.fresh, ?_, ?_, ?_, fun _ => ?_⟩
  · rw [take_append_entry born]
    exact standing.quiet
  · rw [take_append_entry within]
    exact standing.tracks
  · apply standing.awaited.append within
    · intro same
      cases same
      obtain ⟨start, running, now, _⟩ :=
        standing.waiting placed lawful orderly member sent
      rw [running, now]
    · intro same
      cases same
      obtain ⟨start, running, now, called, _⟩ :=
        standing.called placed lawful orderly member sent
      exact ⟨start, running, now, called⟩
  · have rest := queued
    rw [waiting] at rest
    apply rest.tail.append within
    · intro same
      cases same
      exact not_mem_of_count rest.ready_once
    · intro same
      cases same
      exact not_mem_of_count rest.ended_once

/-- What an ordered message adds to the stream. -/
theorem Orderly.order {body : Message} (orderly : Orderly log)
    (standing : Standing log n site) (placed : Placed log n site)
    (lawful : Lawful log) (member : n ∈ view log)
    (waiting : site.queue = body :: later) :
    Orderly (log ++ [.message n body]) := by
  have sent : body ∈ site.queue := by
    rw [waiting]
    exact List.mem_cons_self
  apply orderly.append
  · intro m same
    cases same
    obtain ⟨start, _, now, unready⟩ :=
      standing.waiting placed lawful orderly member sent
    exact ⟨start, now, unready⟩
  · intro m same
    cases same
    obtain ⟨start, _, now, _, called⟩ :=
      standing.called placed lawful orderly member sent
    exact ⟨start, now, called⟩
  · intro change same
    cases same
  · intro change same
    cases same
  · have named := orderly.named log.length
    rw [List.take_length] at named
    exact named

section Deliver

variable {space : Space}

/-- A delivery keeps a node on track. -/
theorem Tracks.deliver (tracks : Tracks (log.take position) space)
    (lawful : Lawful log) (orderly : Orderly log)
    (here : log[position]? = some entry) (kept : ¬ entry.Removes n)
    (member : n ∈ view (log.take position)) (lines : List Line)
    (store : Store) :
    Tracks (log.take (position + 1))
        (deliverEntry n position entry lines store space).state ∧
      Reaction (log.take position) (log.take (position + 1)) n
        (deliverEntry n position entry lines store space).sent := by
  have length : (log.take position).length = position :=
    List.length_take_of_le (Nat.le_of_lt (lt_length_of_entry here))
  have named := orderly.named (position + 1)
  rw [take_succ here] at named ⊢
  cases entry with
  | confchg change =>
      rw [view_append] at named
      exact tracks.deadlkConfchg (lawful.follows position change here)
        (orderly.joined position change here)
        (orderly.distinct position change here) member kept named
  | message sender body =>
      cases body with
      | cycleStart =>
          have started := @Tracks.receiveCycleStart _ _ n sender tracks
            member lines (store.checkpoints n)
          rw [length] at started
          exact started
      | checkpointReady =>
          obtain ⟨start, running, waiting⟩ :=
            orderly.ready position sender here
          exact tracks.receiveCheckpointReady running waiting
            (lawful.member position sender _ here) member
            (orderly.named position) (store.checkpoints sender)
      | cycleEnd =>
          obtain ⟨start, running, _⟩ := orderly.ended position sender here
          exact ⟨tracks.receiveCycleEnd running (store.checkpoints n),
            .silent⟩
      | cancelLock toNodeid lkid =>
          exact ⟨tracks.message (cycleAt_append _ _) (by simp), .silent⟩

/-- `run_deadlock` calls `find_deadlock` with the resources it leaves, and then
`CYCLE_END` is sent. -/
theorem runDeadlock_found (n : Int32) (space : Space) :
    (runDeadlock n space).2.found = none ∨
      (.cycleEnd ∈ (runDeadlock n space).2.sent ∧
        (runDeadlock n space).2.found =
          some (runDeadlock n space).1.resources) := by
  rcases runDeadlock_cases n space with ⟨_, result⟩ |
    ⟨_, ⟨_, result⟩ | ⟨_, result⟩⟩
  · rw [result]
    exact .inl rfl
  · rw [result]
    exact .inl rfl
  · rw [result]
    refine .inr ⟨?_, rfl⟩
    apply List.count_pos_iff.mp
    rw [(findDeadlock_count space.resources space.transactions).2]
    exact Nat.one_pos

theorem deadlkConfchg_found (n : Int32) (change : Confchg Int32)
    (space : Space) :
    (deadlkConfchg n change space).2.found = none ∨
      (.cycleEnd ∈ (deadlkConfchg n change space).2.sent ∧
        (deadlkConfchg n change space).2.found =
          some (deadlkConfchg n change space).1.resources) := by
  unfold deadlkConfchg
  split
  · exact .inl rfl
  · simp only
    split
    · exact .inl rfl
    · split
      · exact .inl rfl
      · split
        · exact runDeadlock_found n _
        · split
          · exact runDeadlock_found n _
          · exact .inl rfl

/-- The call that a delivery makes. -/
theorem deliverEntry_calls (n : Int32) (position : Nat)
    (entry : Entry Int32 Message) (lines : List Line) (store : Store)
    (space : Space) :
    (deliverEntry n position entry lines store space).shared.calls =
        store.calls ∨
      (.cycleEnd ∈ (deliverEntry n position entry lines store space).sent ∧
        (deliverEntry n position entry lines store space).shared.calls =
          store.calls ++
            [{ node := n
               delivery := position
               start := (deliverEntry n position entry lines store
                 space).state.cycleStart
               resources := (deliverEntry n position entry lines store
                 space).state.resources }]) := by
  have split_ : ∀ (next : Space) (effects : Effects)
      (checkpoint : Option Checkpoint),
      (effects.found = none ∨ (.cycleEnd ∈ effects.sent ∧
        effects.found = some next.resources)) →
      (effects.outcome n position next checkpoint store).shared.calls =
          store.calls ∨
        (.cycleEnd ∈ effects.sent ∧
          (effects.outcome n position next checkpoint store).shared.calls =
            store.calls ++
              [{ node := n
                 delivery := position
                 start := next.cycleStart
                 resources := next.resources }]) := by
    rintro next effects checkpoint (nothing | ⟨sent, found⟩)
    · refine .inl ?_
      simp [Effects.outcome, Effects.calls, nothing]
    · refine .inr ⟨sent, ?_⟩
      simp [Effects.outcome, Effects.calls, found]
  cases entry with
  | confchg change =>
      exact split_ _ _ _ (deadlkConfchg_found n change space)
  | message sender body =>
      cases body with
      | cycleStart =>
          have nothing : (receiveCycleStart n position lines
              (store.checkpoints n) space).2.1.found = none := by
            unfold receiveCycleStart
            split
            · rfl
            · rfl
          exact split_ _ _ _ (.inl nothing)
      | checkpointReady => exact split_ _ _ _ (runDeadlock_found n _)
      | cycleEnd => exact split_ _ .none _ (.inl rfl)
      | cancelLock toNodeid lkid => exact split_ _ .none _ (.inl rfl)

end Deliver

/-- What the node sends for an entry joins its queue. -/
theorem Queued.read {sent : List Message} (standing : Standing log n site)
    (placed : Placed log n site) (lawful : Lawful log)
    (orderly : Orderly log) (member : n ∈ view log)
    (here : log[site.position]? = some entry)
    (after : n ∈ view (log.take (site.position + 1)))
    (reaction : Reaction (log.take site.position)
      (log.take (site.position + 1)) n sent) :
    Queued log n (site.position + 1) (site.queue ++ sent) := by
  have queued := standing.queued member
  have inside := lt_length_of_entry here
  have noReady : .checkpointReady ∈ sent →
      .checkpointReady ∉ site.queue := by
    intro new old
    obtain ⟨start, running, _⟩ := queued.ready old
    rw [(reaction.ready new).1] at running
    cases running
  have noEnd : .cycleEnd ∈ sent → .cycleEnd ∉ site.queue := by
    intro new old
    obtain ⟨⟨start, running, called⟩, _⟩ := queued.ended old
    obtain ⟨other, before, _, _, uncalled⟩ := reaction.ended new
    cases running.symm.trans before
    exact uncalled called
  have stays : ∀ start, cycleAt (log.take site.position) = some start →
      ∀ index, site.position ≤ index → index ≤ site.position + 1 →
        n ∈ view (log.take index) := by
    intro start running index above below
    rcases Nat.lt_or_ge site.position index with beyond | within
    · rw [show index = site.position + 1 by omega]
      exact after
    · rw [show index = site.position by omega]
      exact placed.member _ (standing.begun placed running) (Nat.le_refl _)
  refine ⟨?_, ?_, ?_, ?_⟩
  · intro waiting
    rcases List.mem_append.mp waiting with old | new
    · obtain ⟨start, running, unready⟩ := queued.ready old
      refine ⟨start, ?_, unready⟩
      exact orderly.open_waiting lawful running (Nat.le_succ _) inside
        (stays start running) fun ready => unready ready.of_take
    · obtain ⟨idle, begins⟩ := reaction.ready new
      refine ⟨_, begins, ?_⟩
      rintro ⟨index, above, ready⟩
      rw [List.length_take_of_le placed.within] at above
      obtain ⟨start, running, _⟩ := orderly.ready index n ready
      have same := standing.awaited.ready index (Nat.le_of_lt above) ready
      rw [idle, running] at same
      cases same
  · rw [List.count_append]
    by_cases new : .checkpointReady ∈ sent
    · rw [List.count_eq_zero.mpr (noReady new), Nat.zero_add]
      exact reaction.ready_once
    · rw [List.count_eq_zero.mpr new]
      exact queued.ready_once
  · intro waiting
    rcases List.mem_append.mp waiting with old | new
    · obtain ⟨⟨start, running, called⟩, silent⟩ := queued.ended old
      have now := orderly.open_called lawful running (Nat.le_succ _) inside
        (stays start running) called fun index above _ => silent index above
      exact ⟨⟨start, now, called.mono orderly lawful inside now
          (cycleAt_lt running) (Nat.le_succ _)⟩,
        fun index above => silent index (Nat.le_of_succ_le above)⟩
    · obtain ⟨start, running, now, called, uncalled⟩ := reaction.ended new
      refine ⟨⟨start, now, called⟩, ?_⟩
      intro index above ends
      obtain ⟨other, before, _, early⟩ :=
        standing.awaited.ended index (Nat.le_of_succ_le above) ends
      cases running.symm.trans before
      exact uncalled early
  · rw [List.count_append]
    by_cases new : .cycleEnd ∈ sent
    · rw [List.count_eq_zero.mpr (noEnd new), Nat.zero_add]
      exact reaction.ended_once
    · rw [List.count_eq_zero.mpr new]
      exact queued.ended_once

/-- A delivery of an entry to a node, fresh or not. -/
theorem Standing.deliver (standing : Standing log n site)
    (placed : Placed log n site) (lawful : Lawful log)
    (orderly : Orderly log) (here : log[site.position]? = some entry)
    (kept : ¬ entry.Removes n) (lines : List Line) (store : Store) :
    Tracks (log.take (site.position + 1))
        (deliverEntry n site.position entry lines store
          site.state).state ∧
      Reaction (log.take site.position) (log.take (site.position + 1)) n
        (deliverEntry n site.position entry lines store
          site.state).sent := by
  rcases Nat.eq_or_lt_of_le placed.after with first | begun
  · obtain ⟨change, added, _⟩ := placed.joins
    rw [first] at added
    cases here.symm.trans added
    have idle := standing.quiet
    rw [first] at idle
    rw [standing.fresh first.symm, take_succ here]
    exact ⟨tracks_first n idle (lawful.follows _ change here).nodup,
      .silent⟩
  · exact (standing.tracks begun).deliver lawful orderly here kept
      (placed.member _ begun (Nat.le_refl _)) lines store

/-- A call of `find_deadlock` has been waiting for all members. -/
structure Answered (log : CycleLog) (call : Call) : Prop where
  delivered : call.delivery < log.length
  running : cycleAt (log.take call.delivery) = some call.start
  ready : ∀ m ∈ view (log.take (call.delivery + 1)),
    Ready (log.take (call.delivery + 1)) m call.start

theorem Answered.append {call : Call} (answered : Answered log call)
    (entry : Entry Int32 Message) : Answered (log ++ [entry]) call := by
  have within := answered.delivered
  refine ⟨?_, ?_, ?_⟩
  · rw [List.length_append]
    exact Nat.lt_add_right _ within
  · rw [take_append_entry (Nat.le_of_lt within)]
    exact answered.running
  · rw [take_append_entry within]
    exact answered.ready

/-- The stream is orderly and every call has been answered. -/
structure Conducted (log : CycleLog) (store : Store) : Prop where
  orderly : Orderly log
  answered : ∀ call ∈ store.calls, Answered log call

theorem conducted_upkeep :
    Upkeep cycles Undisturbed Conducted Standing := by
  constructor
  · -- a node is added
    intro s change n _ enabled allowed joined
    obtain ⟨idle, _⟩ := allowed (List.ne_nil_of_mem joined)
    refine ⟨fun _ => rfl, ?_, fun begun => (Nat.lt_irrefl _ begun).elim,
      ⟨?_, ?_⟩, fun _ => ?_⟩
    · simp only [Process.site, List.take_left]
      exact idle
    · intro index above ready
      rcases getElem?_append_cases ready with old | ⟨_, same⟩
      · exact absurd (lt_length_of_entry old) (Nat.not_lt.mpr above)
      · cases same
    · intro index above ends
      rcases getElem?_append_cases ends with old | ⟨_, same⟩
      · exact absurd (lt_length_of_entry old) (Nat.not_lt.mpr above)
      · cases same
    · exact ⟨fun member => (List.not_mem_nil member).elim, Nat.zero_le 1,
        fun member => (List.not_mem_nil member).elim, Nat.zero_le 1⟩
  · -- the log grows by a change
    intro s change upheld enabled allowed
    have orderly := upheld.global.orderly
    refine ⟨?_, fun call made => (upheld.global.answered call made).append _⟩
    apply orderly.append
    · intro m same
      cases same
    · intro m same
      cases same
    · intro other same some_
      cases same
      exact (allowed some_).1
    · intro other same
      cases same
      by_cases nobody : change.joined = []
      · rw [nobody]
        exact List.nodup_nil
      · exact (allowed nobody).2.1
    · intro listed
      rcases enabled.1.members_known _ listed with joined | ⟨known, _⟩
      · exact (allowed (List.ne_nil_of_mem joined)).2.2 joined
      · have named := orderly.named s.log.length
        rw [List.take_length] at named
        exact named known
  · -- the nodes that are there when it does
    intro s change n site upheld enabled allowed found
    apply (upheld.each n site found).append (upheld.placed n site found)
    · intro body same
      cases same
    · intro member
      rw [view_append] at member
      rcases enabled.1.members_known n member with joined | ⟨known, _⟩
      · have absent := enabled.2 n joined
        rw [found] at absent
        exact (Bool.false_ne_true absent).elim
      · exact known
  · -- a message is ordered
    intro s n site body later upheld member _ found waiting
    have standing := upheld.each n site found
    have placed := upheld.placed n site found
    have orderly := upheld.global.orderly
    exact ⟨⟨orderly.order standing placed upheld.lawful member waiting,
        fun call made => (upheld.global.answered call made).append _⟩,
      standing.order placed upheld.lawful orderly member waiting⟩
  · intro s n site body later m other upheld _ _ _ _ found apart
    apply (upheld.each m other found).append (upheld.placed m other found)
    · intro sent same
      cases same
      exact apart rfl
    · intro member
      rw [view_append] at member
      exact member
  · -- an entry is delivered
    intro s n lines site entry upheld _ _ found here kept
    have standing := upheld.each n site found
    have placed := upheld.placed n site found
    have orderly := upheld.global.orderly
    obtain ⟨tracks, reaction⟩ := standing.deliver placed upheld.lawful
      orderly here kept lines s.shared
    refine ⟨⟨orderly, ?_⟩, ?_⟩
    · intro call made
      rcases deliverEntry_calls n site.position entry lines s.shared
        site.state with same | ⟨sent, new⟩
      · apply upheld.global.answered call
        rw [← same]
        exact made
      · have listed : call ∈ (deliverEntry n site.position entry lines
          s.shared site.state).shared.calls := made
        rw [new] at listed
        rcases List.mem_append.mp listed with old | last
        · exact upheld.global.answered call old
        · cases List.mem_singleton.mp last
          obtain ⟨start, before, now, called, _⟩ := reaction.ended sent
          have begun := tracks.begun start now
          refine ⟨lt_length_of_entry here, ?_, ?_⟩
          · simp only [begun]
            exact before
          · simp only [begun]
            exact called.ready
    · refine ⟨fun same => ?_, standing.quiet, fun _ => tracks,
        standing.awaited.read orderly upheld.lawful, fun member => ?_⟩
      · have after := placed.after
        simp only [Site.commit, Site.advance] at same
        omega
      · apply Queued.read standing placed upheld.lawful orderly member here
        · exact (placed.read upheld.lawful here kept).member _
            (Nat.lt_succ_of_le placed.after) (Nat.le_refl _)
        · exact reaction
  · -- a node sends CYCLE_START
    intro s n action site upheld _ found
    have standing := upheld.each n site found
    refine ⟨upheld.global, standing.fresh, standing.quiet, standing.tracks,
      standing.awaited, fun member => ?_⟩
    have queued := standing.queued member
    refine ⟨?_, ?_, ?_, ?_⟩
    · intro sent
      apply queued.ready
      exact (List.mem_append.mp sent).resolve_right
        fun last => (by cases List.mem_singleton.mp last)
    · simp only [Site.commit, cycles, List.count_append]
      exact queued.ready_once
    · intro sent
      apply queued.ended
      exact (List.mem_append.mp sent).resolve_right
        fun last => (by cases List.mem_singleton.mp last)
    · simp only [Site.commit, cycles, List.count_append]
      exact queued.ended_once

theorem conducted_start :
    Conducted [] ({ checkpoints := fun _ => none, calls := [] } : Store) := by
  refine ⟨⟨?_, ?_, ?_, ?_, ?_⟩, ?_⟩
  · intro index m here
    cases here
  · intro index m here
    cases here
  · intro index change here
    cases here
  · intro index change here
    cases here
  · intro index member
    rw [List.take_nil] at member
    exact List.not_mem_nil member
  · exact List.forall_mem_nil _

end Dlm.Deadlock
