import Dlm.Deadlock.CycleRun

/-!
# A cycle and its own data

Every lock that is read from a checkpoint carries the place of the stream at
which the checkpoint was written.  In a run in which nobody is added during a
cycle and no checkpoint is left from an earlier life of its writer, a search
for a deadlock has only locks of its own cycle, and it has waited for every
member.
-/

namespace Dlm.Deadlock

open ProcessGroup

variable {checkpoint : Option Checkpoint}

/-- A call of `find_deadlock` uses only the data of its cycle: the cycle began
with a `CYCLE_START`, every member of that time that is still there has sent a
`CHECKPOINT_READY` since that has been read, and no lock came from an older
checkpoint. -/
def OwnData (log : CycleLog) (call : Call) : Prop :=
  (∃ sender, log[call.start]? = some (.message sender .cycleStart)) ∧
    (∀ m ∈ view (log.take call.start),
      m ∈ view (log.take (call.delivery + 1)) →
      ∃ index ≤ call.delivery, call.start < index ∧
        log[index]? = some (.message m .checkpointReady)) ∧
    ∀ r ∈ call.resources, ∀ lkb ∈ r.locks, ∀ origin ∈ lkb.origins,
      call.start ≤ origin

/-- No lock came from a checkpoint written before the place. -/
def NotBefore (start : Nat) (resources : List Rsb) : Prop :=
  Everywhere (fun _ lkb => ∀ origin ∈ lkb.origins, start ≤ origin) resources

/-- A checkpoint, if there is one, has not been written before the place. -/
def WrittenSince (start : Nat) (checkpoint : Option Checkpoint) : Prop :=
  ∀ written ∈ checkpoint, ∀ part ∈ written.sections, ∀ lock ∈ part.2,
    ∀ origin ∈ lock.origin, start ≤ origin

section Origins

variable {start place : Nat} {resources : List Rsb}

theorem fits_origins {name : String} {fromNodeid : Int32} {lock : PackLock}
    (since : ∀ origin ∈ lock.origin, start ≤ origin) :
    Fits (fun _ lkb => ∀ origin ∈ lkb.origins, start ≤ origin) name
      fromNodeid lock := by
  have fills : ∀ lkb : Lkb, (∀ origin ∈ lkb.origins, start ≤ origin) →
      ∀ origin ∈ (fillLkb fromNodeid lock lkb).origins, start ≤ origin := by
    intro lkb old origin member
    have either : origin ∈ lock.origin ∨ origin ∈ lkb.origins := by
      unfold fillLkb at member
      split at member
      · exact .inr member
      · exact (List.mem_append.mp member).imp Option.mem_toList.mp id
      · split at member
        · exact (List.mem_append.mp member).imp Option.mem_toList.mp id
        · exact (List.mem_append.mp member).imp Option.mem_toList.mp id
    rcases either with new | known
    · exact since origin new
    · exact old origin known
  exact ⟨fills createLkb (List.forall_mem_nil _),
    fun lkb _ _ _ old => fills lkb old⟩

theorem setCopy_origin (ourNodeid : Int32) (lock : PackLock) :
    (setCopy ourNodeid lock).origin = none := by
  unfold setCopy
  split
  · rfl
  · split
    · rfl
    · rfl

/-- What is read from debugfs came from no checkpoint. -/
theorem NotBefore.readDebugfsLocks (before : NotBefore start resources)
    (n : Int32) (lines : List Line) :
    NotBefore start (readDebugfsLocks n lines resources) := by
  apply Everywhere.readDebugfsLocks before
  intro line _
  apply fits_origins
  rw [setCopy_origin]
  intro origin member
  cases member

theorem NotBefore.readCheckpoint (before : NotBefore start resources)
    (since : WrittenSince start checkpoint) (n m : Int32) :
    NotBefore start (readCheckpoint n m
      ((checkpoint.map (·.sections)).getD []) resources) := by
  apply Everywhere.readCheckpoint before
  intro _ part listed lock packed
  apply fits_origins
  cases checkpoint with
  | none => exact (List.not_mem_nil listed).elim
  | some written => exact since written rfl part listed lock packed

theorem NotBefore.purge (before : NotBefore start resources)
    (left : List Int32) :
    NotBefore start (left.foldl
      (fun resources nodeid => purgeLocks nodeid resources) resources) := by
  induction left generalizing resources with
  | nil => exact before
  | cons nodeid later induction =>
      exact induction (Everywhere.purgeLocks before nodeid)

theorem writtenSince_pack (attributes : Attributes) :
    WrittenSince place (some
      { attributes := attributes
        sections := packSections place resources }) := by
  intro written same part listed lock packed origin member
  cases same
  obtain ⟨r, _, rfl⟩ := List.mem_map.mp listed
  obtain ⟨lkb, _, rfl⟩ := List.mem_map.mp packed
  exact Nat.le_of_eq (Option.some.inj member)

theorem WrittenSince.mono {earlier : Nat}
    (since : WrittenSince start checkpoint) (below : earlier ≤ start) :
    WrittenSince earlier checkpoint :=
  fun written here part listed lock packed origin member =>
    Nat.le_trans below (since written here part listed lock packed origin
      member)

end Origins

theorem runDeadlock_resources (n : Int32) (space : Space) :
    (runDeadlock n space).1.resources = space.resources := by
  rcases runDeadlock_cases n space with ⟨_, result⟩ |
    ⟨_, ⟨_, result⟩ | ⟨_, result⟩⟩
  · rw [result]
  · rw [result]
  · rw [result]

theorem deadlkConfchg_resources {start : Nat} (n : Int32)
    (change : Confchg Int32) {space : Space}
    (before : NotBefore start space.resources) :
    NotBefore start (deadlkConfchg n change space).1.resources := by
  unfold deadlkConfchg
  split
  · exact before
  · simp only
    split
    · exact before
    · split
      · exact before
      · split
        · rw [runDeadlock_resources]
          exact before
        · split
          · rw [runDeadlock_resources]
            exact before.purge _
          · exact before.purge _

/-- A node without a checkpoint, or with the handle of its old one, writes a
new one. -/
theorem writeCheckpoint_fresh {place : Nat} {space : Space}
    (clear : space.ckptHandle = false → checkpoint = none) :
    (writeCheckpoint place space checkpoint).2 =
      some
        { attributes := checkpointAttributes space.resources
          sections := packSections place space.resources } := by
  have nothing : (if space.ckptHandle then none else checkpoint) = none := by
    cases handle : space.ckptHandle with
    | false => exact clear handle
    | true => rfl
  unfold writeCheckpoint
  simp only [nothing]

/-- Where the locks in the checkpoints, the nodes and the calls come from. -/
structure Sourced (s : CycleGroup) : Prop where
  announced : ∀ index m start,
    s.log[index]? = some (.message m .checkpointReady) →
    cycleAt (s.log.take index) = some start →
    WrittenSince start (s.shared.checkpoints m)
  written : ∀ n site start, s.site n = some site →
    cycleAt (s.log.take site.position) = some start →
    WrittenSince start (s.shared.checkpoints n)
  gathered : ∀ n site start, s.site n = some site →
    cycleAt (s.log.take site.position) = some start →
    NotBefore start site.state.resources
  called : ∀ call ∈ s.shared.calls, NotBefore call.start call.resources

section Deliver

variable {s : CycleGroup} {n : Int32} {site : Site Message Space}
  {entry : Entry Int32 Message} {lines : List Line}

/-- What a delivery does to the checkpoint of the node: nothing, or it removes
it, or a cycle begins and it writes one. -/
theorem deliver_checkpoints
    (upheld : Upheld Conducted Standing s) (found : s.site n = some site)
    (here : s.log[site.position]? = some entry)
    (undisturbed : Undisturbed s (.deliver n lines)) :
    ∃ checkpoint,
      (deliverEntry n site.position entry lines s.shared
        site.state).shared.checkpoints =
        Function.update s.shared.checkpoints n checkpoint ∧
      ((checkpoint = s.shared.checkpoints n ∧
          ∀ start, cycleAt (s.log.take (site.position + 1)) = some start →
            cycleAt (s.log.take site.position) = some start) ∨
        checkpoint = none ∨
        (cycleAt (s.log.take site.position) = none ∧
          WrittenSince site.position checkpoint)) := by
  have placed := upheld.placed n site found
  have standing := upheld.each n site found
  have goesOn : (∀ sender, entry ≠ .message sender .cycleStart) →
      ∀ start, cycleAt (s.log.take (site.position + 1)) = some start →
        cycleAt (s.log.take site.position) = some start := by
    intro other start now
    rw [cycleAt_take_succ here] at now
    rcases cycleNext_eq_some now with before | ⟨_, sender, same⟩
    · exact before
    · exact absurd same (other sender)
  cases entry with
  | confchg change =>
      exact ⟨_, rfl, .inl ⟨rfl, goesOn fun sender same => by cases same⟩⟩
  | message sender body =>
      have tracks := standing.tracks (placed.begun here)
      cases body with
      | cycleStart =>
          refine ⟨(receiveCycleStart n site.position lines
            (s.shared.checkpoints n) site.state).2.2, rfl, ?_⟩
          cases now : cycleAt (s.log.take site.position) with
          | some start =>
              have running : site.state.cycleRunning = true := by
                rw [tracks.running, now]
                rfl
              refine .inl ⟨?_, ?_⟩
              · simp only [receiveCycleStart, if_pos running]
              · intro other later
                rw [cycleAt_take_succ here, now] at later
                exact later
          | none =>
              have stopped : site.state.cycleRunning = false := by
                rw [tracks.running, now]
                rfl
              have clear := undisturbed site found stopped
              rw [here] at clear
              refine .inr (.inr ⟨rfl, ?_⟩)
              simp only [receiveCycleStart, stopped, Bool.false_eq_true,
                if_false]
              rw [writeCheckpoint_fresh]
              · exact writtenSince_pack _
              · intro handle
                exact Option.isNone_iff_eq_none.mp (clear handle rfl)
      | checkpointReady =>
          exact ⟨_, rfl, .inl ⟨rfl, goesOn fun other same => by
            cases same⟩⟩
      | cycleEnd =>
          obtain ⟨start, running, _⟩ :=
            upheld.global.orderly.ended site.position sender here
          have isRunning : ¬ (!site.state.cycleRunning) = true := by
            rw [tracks.running, running]
            exact Bool.false_ne_true
          refine ⟨(receiveCycleEnd (s.shared.checkpoints n)
            site.state).2, rfl, .inr (.inl ?_)⟩
          simp only [receiveCycleEnd, if_neg isRunning]
      | cancelLock toNodeid lkid =>
          exact ⟨_, rfl, .inl ⟨rfl, goesOn fun other same => by
            cases same⟩⟩

/-- The locks that a node has after a delivery. -/
theorem deliver_resources {start : Nat}
    (upheld : Upheld Conducted Standing s) (sourced : Sourced s)
    (found : s.site n = some site)
    (here : s.log[site.position]? = some entry)
    (now : cycleAt (s.log.take (site.position + 1)) = some start) :
    NotBefore start (deliverEntry n site.position entry lines s.shared
      site.state).state.resources := by
  have placed := upheld.placed n site found
  have standing := upheld.each n site found
  rw [cycleAt_take_succ here] at now
  rcases cycleNext_eq_some now with before | ⟨rfl, sender, rfl⟩
  · have gathered := sourced.gathered n site start found before
    cases entry with
    | confchg change =>
        exact deadlkConfchg_resources n change gathered
    | message sender body =>
        have tracks := standing.tracks (placed.begun here)
        cases body with
        | cycleStart =>
            have running : site.state.cycleRunning = true := by
              rw [tracks.running, before]
              rfl
            simp only [deliverEntry, receiveCycleStart, if_pos running]
            exact gathered
        | checkpointReady =>
            have since := sourced.announced site.position sender start here
              before
            simp only [deliverEntry, receiveCheckpointReady, Effects.outcome]
            rw [runDeadlock_resources]
            exact gathered.readCheckpoint since n sender
        | cycleEnd => cases now
        | cancelLock toNodeid lkid => exact gathered
  · have tracks := standing.tracks (placed.begun here)
    cases before : cycleAt (s.log.take site.position) with
    | some old =>
        rw [before] at now
        cases now
        exact (Nat.lt_irrefl _ (cycleAt_lt before)).elim
    | none =>
        have stopped : site.state.cycleRunning = false := by
          rw [tracks.running, before]
          rfl
        obtain ⟨handle, written⟩ := writeCheckpoint_fst site.position
          { site.state with
            cycleRunning := true
            cycleStart := site.position
            nodes := site.state.nodes.map fun node =>
              { node with inCycle := true }
            resources :=
              readDebugfsLocks n lines site.state.resources }
          (s.shared.checkpoints n)
        simp only [deliverEntry, receiveCycleStart, stopped,
          Bool.false_eq_true, if_false, Effects.outcome, written]
        rw [tracks.unused before]
        apply NotBefore.readDebugfsLocks
        intro r member
        exact (List.not_mem_nil member).elim

/-- The delivery of an entry that does not remove the node. -/
theorem Sourced.deliver (sourced : Sourced s)
    (upheld : Upheld Conducted Standing s) (found : s.site n = some site)
    (here : s.log[site.position]? = some entry)
    (kept : ¬ entry.Removes n)
    (undisturbed : Undisturbed s (.deliver n lines)) :
    Sourced (s.settle n site.advance
      (deliverEntry n site.position entry lines s.shared site.state)) := by
  have standing := upheld.each n site found
  have placed := upheld.placed n site found
  obtain ⟨tracks, reaction⟩ := standing.deliver placed upheld.lawful
    upheld.global.orderly here kept lines s.shared
  obtain ⟨checkpoint, updated, effect⟩ :=
    deliver_checkpoints upheld found here undisturbed
  refine ⟨?_, ?_, ?_, ?_⟩
  · intro index m start ready running
    have before := sourced.announced index m start ready running
    simp only [State.settle, updated]
    by_cases own : m = n
    · subst own
      rw [Function.update_self]
      rcases effect with ⟨rfl, _⟩ | rfl | ⟨idle, since⟩
      · exact before
      · intro written member
        cases member
      · apply since.mono
        by_contra above
        have same := standing.awaited.ready index
          (by have := cycleAt_lt running; omega) ready
        exact Option.some_ne_none start
          (running.symm.trans (same.symm.trans idle))
    · rw [Function.update_of_ne own]
      exact before
  · intro m other start settled running
    simp only [State.settle, updated]
    rcases State.put_cases settled with ⟨rfl, same⟩ | ⟨own, old⟩
    · cases same
      rw [Function.update_self]
      rcases effect with ⟨rfl, goesOn⟩ | rfl | ⟨idle, since⟩
      · exact sourced.written m site start found (goesOn start running)
      · intro written member
        cases member
      · apply since.mono
        exact Nat.le_of_lt_succ (cycleAt_lt running)
    · rw [Function.update_of_ne own]
      exact sourced.written m other start old running
  · intro m other start settled running
    rcases State.put_cases settled with ⟨rfl, same⟩ | ⟨_, old⟩
    · cases same
      exact deliver_resources upheld sourced found here running
    · exact sourced.gathered m other start old running
  · intro call made
    rcases deliverEntry_calls n site.position entry lines s.shared
      site.state with same | ⟨sent, new⟩
    · apply sourced.called call
      rw [← same]
      exact made
    · have listed : call ∈ (deliverEntry n site.position entry lines
        s.shared site.state).shared.calls := made
      rw [new] at listed
      rcases List.mem_append.mp listed with old | last
      · exact sourced.called call old
      · cases List.mem_singleton.mp last
        obtain ⟨start, _, now, _⟩ := reaction.ended sent
        simp only [tracks.begun start now]
        exact deliver_resources upheld sourced found here now

end Deliver

/-- A step of an undisturbed run mixes no data of two cycles. -/
theorem Sourced.next {s : CycleGroup} {label : CycleLabel}
    (sourced : Sourced s) (upheld : Upheld Conducted Standing s)
    (enabled : cycles.enabled s label) (undisturbed : Undisturbed s label) :
    Sourced (cycles.next s label) := by
  cases label with
  | confchg change =>
      have sites : ∀ n site start,
          cycles.reform s change n = some site →
          cycleAt ((s.log ++ [Entry.confchg change]).take site.position) =
            some start →
          s.site n = some site ∧
            cycleAt (s.log.take site.position) = some start := by
        intro n site start here running
        rcases Process.reform_cases here with ⟨joined, rfl⟩ | ⟨_, old⟩
        · obtain ⟨idle, _⟩ := undisturbed (List.ne_nil_of_mem joined)
          simp only [Process.site, List.take_left, idle] at running
          cases running
        · rw [take_append_entry (upheld.placed n site old).within] at running
          exact ⟨old, running⟩
      refine ⟨?_, ?_, ?_, sourced.called⟩
      · intro index m start ready running
        rcases getElem?_append_cases ready with old | ⟨_, same⟩
        · simp only [Process.next] at running
          rw [take_append_entry (Nat.le_of_lt (lt_length_of_entry old))]
            at running
          exact sourced.announced index m start old running
        · cases same
      · intro n site start here running
        obtain ⟨old, before⟩ := sites n site start here running
        exact sourced.written n site start old before
      · intro n site start here running
        obtain ⟨old, before⟩ := sites n site start here running
        exact sourced.gathered n site start old before
  | order n =>
      obtain ⟨member, _⟩ := enabled
      cases found : s.site n with
      | none => simpa [Process.next, found] using sourced
      | some site =>
          cases waiting : site.queue with
          | nil => simpa [Process.next, found, waiting] using sourced
          | cons body later =>
              have sites : ∀ m other start,
                  (s.put n (some { site with queue := later })).site m =
                    some other →
                  cycleAt ((s.log ++ [Entry.message n body]).take
                    other.position) = some start →
                  ∃ before, s.site m = some before ∧
                    before.state = other.state ∧
                    cycleAt (s.log.take before.position) = some start := by
                intro m other start here running
                rcases State.put_cases here with ⟨rfl, same⟩ | ⟨_, old⟩
                · cases same
                  rw [take_append_entry (upheld.placed m site found).within]
                    at running
                  exact ⟨site, found, rfl, running⟩
                · rw [take_append_entry (upheld.placed m other old).within]
                    at running
                  exact ⟨other, old, rfl, running⟩
              simp only [Process.next, found, waiting]
              refine ⟨?_, ?_, ?_, sourced.called⟩
              · intro index m start ready running
                rcases getElem?_append_cases ready with old | ⟨rfl, same⟩
                · simp only at running
                  rw [take_append_entry
                    (Nat.le_of_lt (lt_length_of_entry old))] at running
                  exact sourced.announced index m start old running
                · cases same
                  simp only [List.take_left] at running
                  obtain ⟨other, before, now, _⟩ :=
                    (upheld.each n site found).waiting
                      (upheld.placed n site found) upheld.lawful
                      upheld.global.orderly member
                      (by rw [waiting]; exact List.mem_cons_self)
                  cases running.symm.trans now
                  exact sourced.written n site start found before
              · intro m other start here running
                obtain ⟨before, old, _, then_⟩ :=
                  sites m other start here running
                exact sourced.written m before start old then_
              · intro m other start here running
                obtain ⟨before, old, same, then_⟩ :=
                  sites m other start here running
                rw [← same]
                exact sourced.gathered m before start old then_
  | deliver n lines =>
      cases found : s.site n with
      | none => simpa [Process.next, found] using sourced
      | some site =>
          cases here : s.log[site.position]? with
          | none => simpa [Process.next, found, here] using sourced
          | some entry =>
              by_cases removed : entry.Removes n
              · simp only [Process.next, found, here, if_pos removed]
                refine ⟨sourced.announced, ?_, ?_, sourced.called⟩
                · intro m other start left running
                  rcases State.put_cases left with ⟨_, gone⟩ | ⟨_, old⟩
                  · cases gone
                  · exact sourced.written m other start old running
                · intro m other start left running
                  rcases State.put_cases left with ⟨_, gone⟩ | ⟨_, old⟩
                  · cases gone
                  · exact sourced.gathered m other start old running
              · simp only [Process.next, found, here, if_neg removed]
                exact sourced.deliver upheld found here removed undisturbed
  | act n action =>
      cases found : s.site n with
      | none => simpa [Process.next, found] using sourced
      | some site =>
          simp only [Process.next, found]
          refine ⟨sourced.announced, ?_, ?_, sourced.called⟩
          · intro m other start here running
            rcases State.put_cases here with ⟨rfl, same⟩ | ⟨_, old⟩
            · cases same
              exact sourced.written m site start found running
            · exact sourced.written m other start old running
          · intro m other start here running
            rcases State.put_cases here with ⟨rfl, same⟩ | ⟨_, old⟩
            · cases same
              exact sourced.gathered m site start found running
            · exact sourced.gathered m other start old running

theorem sourced_start : Sourced CycleGroup.start := by
  refine ⟨?_, ?_, ?_, ?_⟩
  · intro index m start ready
    cases ready
  · intro n site start found
    cases found
  · intro n site start found
    cases found
  · intro call made
    exact (List.not_mem_nil made).elim

/-- In every run in which nobody is added during a cycle and no node finds an
old checkpoint of its own, every search for a deadlock uses the data of its
cycle only. -/
theorem find_deadlock_own_data {s : CycleGroup}
    (run : cycles.system.Run Undisturbed CycleGroup.start s) :
    ∀ call ∈ s.shared.calls, OwnData s.log call := by
  have upheld := conducted_upkeep.run run conducted_start
  have sourced : Sourced s :=
    (conducted_upkeep.strengthen run conducted_start).invariant Sourced
      sourced_start fun state label enabled permitted before =>
        before.next permitted.2 enabled permitted.1
  intro call made
  have answered := upheld.global.answered call made
  refine ⟨?_, ?_, sourced.called call made⟩
  · obtain ⟨⟨sender, begun⟩, _⟩ := cycleAt_since answered.running
    rw [List.getElem?_take] at begun
    split at begun
    · exact ⟨sender, begun⟩
    · cases begun
  · intro m _ present
    obtain ⟨index, above, ready⟩ := answered.ready m present
    rw [List.getElem?_take] at ready
    split at ready
    · rename_i below
      exact ⟨index, Nat.le_of_lt_succ below, above, ready⟩
    · cases ready

/-- A granted lock of the node itself. -/
def heldLine (name : String) (xid : UInt64) : Line :=
  (name, { PackLock.cleared with
           xid := xid
           id := 1
           status := DLM_LKSTS_GRANTED
           grmode := .ex })

/-- Nodes 2 and 3 are there, and node 2 starts a cycle. -/
def beginCycle (third : List Line) : List CycleLabel :=
  [.confchg { members := [2, 3], left := [], joined := [2, 3] },
    .deliver 2 [], .deliver 3 [], .act 2 (), .order 2,
    .deliver 2 [heldLine "a" 1], .deliver 3 third]

/-- Both announce their checkpoints, and node 2 reads that of node 3 and
searches. -/
def plainCycle : List CycleLabel :=
  beginCycle [heldLine "b" 2] ++
    [.order 2, .order 3, .deliver 2 [], .deliver 2 []]

theorem plainCycle_own_data :
    (∃ call ∈ (cycles.system.follow CycleGroup.start plainCycle).shared.calls,
      ∃ r ∈ call.resources, ∃ lkb ∈ r.locks, lkb.origins ≠ []) ∧
    ∀ call ∈ (cycles.system.follow CycleGroup.start plainCycle).shared.calls,
      OwnData (cycles.system.follow CycleGroup.start plainCycle).log call :=
  ⟨by decide, find_deadlock_own_data
    (System.run_of_follows plainCycle .refl (by decide))⟩

/-- In every undisturbed run a node announces its checkpoint only during a
cycle and once in it, and a cycle is ended by the lowest member after all
members have announced theirs. -/
theorem cycle_messages_in_order {s : CycleGroup}
    (run : cycles.system.Run Undisturbed CycleGroup.start s)
    {index : Nat} {n : Int32} {message : Message}
    (here : s.log[index]? = some (.message n message)) :
    (message = .checkpointReady → ∃ start,
      cycleAt (s.log.take index) = some start ∧
      ¬ Ready (s.log.take index) n start) ∧
    (message = .cycleEnd → ∃ start,
      cycleAt (s.log.take index) = some start ∧
      ∀ m ∈ view (s.log.take index),
        Ready (s.log.take index) m start ∧ n ≤ m) := by
  have orderly := (conducted_upkeep.run run conducted_start).global.orderly
  refine ⟨?_, ?_⟩
  · rintro rfl
    exact orderly.ready index n here
  · rintro rfl
    obtain ⟨start, running, called⟩ := orderly.ended index n here
    exact ⟨start, running, fun m member =>
      ⟨called.ready m member, called.least m member⟩⟩

/-- The `CYCLE_END` of node 2 is ordered. -/
def endedCycle : CycleGroup :=
  cycles.system.follow CycleGroup.start (plainCycle ++ [.order 2])

theorem plainCycle_ended_by_lowest :
    endedCycle.log[4]? = some (.message 2 .cycleEnd) ∧
      ∃ start, cycleAt (endedCycle.log.take 4) = some start ∧
        ∀ m ∈ view (endedCycle.log.take 4),
          Ready (endedCycle.log.take 4) m start ∧ 2 ≤ m := by
  have here : endedCycle.log[4]? = some (.message 2 .cycleEnd) := by decide
  have run : cycles.system.Run Undisturbed CycleGroup.start endedCycle :=
    System.run_of_follows _ .refl (by decide)
  exact ⟨here, (cycle_messages_in_order run here).2 rfl⟩

/-- Node 1 is added while the cycle is running and reads the checkpoint of
node 2.  It ignores the end of the cycle, and in the next one it searches as
soon as its own checkpoint is announced. -/
def joinedCycle : List CycleLabel :=
  beginCycle [] ++
    [.confchg { members := [1, 2, 3], left := [], joined := [1] },
      .deliver 1 [], .order 2, .order 3,
      .deliver 2 [], .deliver 2 [], .deliver 2 [], .order 2,
      .deliver 1 [], .deliver 1 [], .deliver 1 [],
      .deliver 2 [], .act 2 (), .order 2,
      .deliver 1 [], .order 1, .deliver 1 []]

/-- The search of node 1: the cycle began at place 6, and the lock is from the
checkpoint that node 2 wrote at place 1. -/
def staleCall : Call :=
  { node := 1
    delivery := 7
    start := 6
    resources :=
      [{ name := "a"
         locks :=
           [{ lock :=
                { PackLock.cleared with
                  xid := 1
                  id := 1
                  status := DLM_LKSTS_GRANTED
                  grmode := .ex
                  copy := .localCopy
                  origin := some 1 }
              home := 2
              origins := [1] }] }] }

theorem joined_during_cycle_mixes_data :
    cycles.system.Run (fun _ _ => True) CycleGroup.start
        (cycles.system.follow CycleGroup.start joinedCycle) ∧
      staleCall ∈
        (cycles.system.follow CycleGroup.start joinedCycle).shared.calls ∧
      (∃ r ∈ staleCall.resources, ∃ lkb ∈ r.locks, ∃ origin ∈ lkb.origins,
        origin < staleCall.start) ∧
      ¬ OwnData (cycles.system.follow CycleGroup.start joinedCycle).log
        staleCall := by
  refine ⟨System.run_of_follows joinedCycle .refl (by decide), by decide,
    by decide, ?_⟩
  rintro ⟨_, ready, _⟩
  obtain ⟨index, below, above, here⟩ := ready 2 (by decide) (by decide)
  have last : index = 7 := by
    simp only [staleCall] at below above
    omega
  subst last
  revert here
  decide

end Dlm.Deadlock
