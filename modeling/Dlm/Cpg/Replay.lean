import Dlm.Cpg.Group

/-!
# The replay window of a joining node

A joining node saves the plock messages that it is given from the point at
which it completes its first change, and replays them on top of the checkpoint.
They are the messages behind the checkpoint exactly when nothing was delivered
between that point and the point at which the checkpoint was stored.
-/

namespace Dlm.Cpg

open Plock ProcessGroup

variable {env : Env} {messages : List Message} {ls : Lockspace}
  {view : Option (List Int32)} {event : Event} {log : Log} {first last : Nat}

/-- The plock messages of a stream. -/
def plockMessages (log : Log) : List Message :=
  log.flatMap fun entry => (entryEvent 0 entry).plocks

/-- What a node that needs a checkpoint has saved: the given messages, from
the point at which it began to save. -/
structure Saves (env : Env) (messages : List Message) (ls : Lockspace) :
    Prop where
  started : env.enablePlock = true → ls.plocks.needPlocks = true →
    ls.startedChange.isSome = true → ls.plocks.savePlocks = true
  saved : ls.plocks.needPlocks = true → ls.plocks.savedMessages =
    if ls.plocks.savePlocks then messages else []

theorem Saves.done (ready : ls.plocks.needPlocks = false) :
    Saves env messages ls := by
  constructor
  · intro _ need
    exact (Bool.false_ne_true (ready.symm.trans need)).elim
  · intro need
    exact (Bool.false_ne_true (ready.symm.trans need)).elim

theorem purgeRemoved_flags (env : Env) (now : UInt64)
    (left : List (Int32 × Reason)) (ls : Lockspace) :
    (purgeRemoved env now left ls).1.plocks.needPlocks =
        ls.plocks.needPlocks ∧
      (purgeRemoved env now left ls).1.plocks.savePlocks =
        ls.plocks.savePlocks ∧
      (purgeRemoved env now left ls).1.plocks.savedMessages =
        ls.plocks.savedMessages := by
  apply purgeRemoved_invariant fun after =>
    after.plocks.needPlocks = ls.plocks.needPlocks ∧
      after.plocks.savePlocks = ls.plocks.savePlocks ∧
      after.plocks.savedMessages = ls.plocks.savedMessages
  · intro after nodeid same
    exact same
  · exact ⟨rfl, rfl, rfl⟩

theorem arrival_startedChange (answers : Answers) (ls : Lockspace)
    (possible : event.Possible env view) :
    (arrival env answers event ls).1.startedChange = ls.startedChange := by
  have arrived := arrival_arrived answers ls possible
  generalize (arrival env answers event ls).1 = before at arrived ⊢
  cases arrived with
  | confchg fresh opened => exact opened.startedChange
  | @start sender li kind =>
      have marked := receiveStart_marked env answers.now sender li ls
      generalize receiveStart env answers.now sender li ls = after
        at marked ⊢
      cases marked with
      | unmatched => rfl
      | refused => rfl
      | started => rfl
  | plocks same => exact same.startedChange
  | registered => rfl
  | notified => rfl

/-- A node that still needs a checkpoint after another event than a plock
message has saved what it had saved before. -/
theorem Moved.flags {answers : Answers} {before : Lockspace}
    (moved : Moved env answers ls event before) (other : event.plocks = [])
    (need : before.plocks.needPlocks = true) :
    ls.plocks.needPlocks = true ∧
      before.plocks.savePlocks = ls.plocks.savePlocks ∧
      before.plocks.savedMessages = ls.plocks.savedMessages := by
  cases moved with
  | quiet same =>
      rw [same.plocks] at need ⊢
      exact ⟨need, rfl, rfl⟩
  | @purged index change stopped same =>
      obtain ⟨sameNeed, sameSave, sameSaved⟩ :=
        purgeRemoved_flags env answers.now change.left stopped
      rw [sameNeed, same.plocks] at need
      rw [sameSave, sameSaved, same.plocks]
      exact ⟨need, rfl, rfl⟩
  | received message => cases other
  | stored => cases need
  | read => exact ⟨need, rfl, rfl⟩
  | dropped => exact ⟨need, rfl, rfl⟩

theorem receive_flags (env : Plock.Env) (plocks : Plock.Lockspace)
    (message : Message) :
    (receive env plocks message).1.needPlocks = plocks.needPlocks ∧
      (receive env plocks message).1.savePlocks = plocks.savePlocks ∧
      (receive env plocks message).1.savedMessages =
        plocks.savedMessages ++
          if plocks.savePlocks then [message] else [] := by
  unfold receive
  split
  · exact ⟨rfl, rfl, rfl⟩
  · exact ⟨rfl, rfl, (List.append_nil _).symm⟩

/-- What is saved before `apply_changes`. -/
theorem arrival_saved {answers : Answers}
    (need : (arrival env answers event ls).1.plocks.needPlocks = true) :
    ls.plocks.needPlocks = true ∧
      (arrival env answers event ls).1.plocks.savePlocks =
        ls.plocks.savePlocks ∧
      (arrival env answers event ls).1.plocks.savedMessages =
        ls.plocks.savedMessages ++
          if ls.plocks.savePlocks then event.plocks else [] := by
  by_cases other : event.plocks = []
  · have flags := (arrival_moved env answers event ls).flags other need
    simpa [other] using flags
  · cases event with
    | plock message =>
        obtain ⟨sameNeed, flags⟩ :=
          receive_flags env.plock ls.plocks message
        exact ⟨sameNeed.symm.trans need, flags⟩
    | _ => exact (other rfl).elim

theorem Saves.arrival (answers : Answers) (possible : event.Possible env view)
    (saves : Saves env messages ls) :
    Saves env (messages ++ event.plocks)
      (arrival env answers event ls).1 := by
  constructor
  · intro plock need started
    obtain ⟨before, same, _⟩ := arrival_saved need
    rw [arrival_startedChange answers ls possible] at started
    rw [same]
    exact saves.started plock before started
  · intro need
    obtain ⟨before, same, saved⟩ := arrival_saved need
    rw [saved, same, saves.saved before]
    cases ls.plocks.savePlocks with
    | false => rfl
    | true => rfl

/-- A node that begins to save starts with nothing. -/
theorem Saves.restart (saves : Saves env messages ls)
    (idle : ls.plocks.needPlocks = true → ls.plocks.savePlocks = false) :
    Saves env [] ls := by
  refine ⟨saves.started, ?_⟩
  intro need
  simpa [idle need] using saves.saved need

theorem Saves.prepared {now : UInt64} {cg : Change} {older : List Change}
    {result : Lockspace × List Effect}
    (prepared : Prepared env now ls cg older result)
    (saves : Saves env messages ls)
    (fresh : ls.plocks.needPlocks = true → ls.plocks.savePlocks = false →
      messages = []) :
    Saves env messages (cleanupChanges result.1 cg) := by
  cases prepared with
  | disabled off =>
      refine ⟨?_, saves.saved⟩
      intro plock
      exact (Bool.false_ne_true (off.symm.trans plock)).elim
  | alone => exact .done rfl
  | noState => exact .done rfl
  | needed plock several somebody need =>
      simp only [Plock.preparePlocks, need, if_true, cleanupChanges]
      refine ⟨fun _ _ _ => rfl, fun _ => ?_⟩
      have saved := saves.saved need
      dsimp only
      rw [saved]
      cases saving : ls.plocks.savePlocks with
      | false => simp [fresh need saving]
      | true => rfl
  | other plock several somebody ready => exact .done ready
  | reuse plock several somebody ready => exact .done ready
  | store plock several somebody ready => exact .done ready

theorem Saves.apply (answers : Answers) (saves : Saves env messages ls)
    (fresh : ls.plocks.needPlocks = true → ls.plocks.savePlocks = false →
      messages = []) :
    Saves env messages (applyChanges env answers ls).1 := by
  have applied := applyChanges_applied env answers ls
  generalize applyChanges env answers ls = result at applied ⊢
  cases applied with
  | idle => exact saves
  | begin => exact ⟨saves.started, saves.saved⟩
  | wait => exact ⟨saves.started, saves.saved⟩
  | collect => exact saves
  | @complete cg older pending state arrived =>
      obtain ⟨result, prepared, equation⟩ :=
        completeChange_prepared env answers.now ls cg older
      rw [equation]
      exact Saves.prepared prepared ⟨saves.started, saves.saved⟩ fresh

/-- An event adds its message to those saved, and a node that does not save
yet has nothing. -/
theorem Saves.handle (answers : Answers) (possible : event.Possible env view)
    (saves : Saves env messages ls) :
    Saves env
      (if ls.plocks.savePlocks then messages ++ event.plocks else [])
      (handle env answers event ls).1 := by
  have before := saves.arrival answers possible
  have same (need : (Cpg.arrival env answers event ls).1.plocks.needPlocks =
      true) := (arrival_saved need).2.1
  have after (later : List Message)
      (here : Saves env later (Cpg.arrival env answers event ls).1)
      (fresh : ls.plocks.savePlocks = false → later = []) :
      Saves env later (Cpg.handle env answers event ls).1 := by
    rw [handle_eq answers ls possible]
    split
    · exact here.apply answers fun need idle =>
        fresh ((same need).symm.trans idle)
    · exact here
  cases saving : ls.plocks.savePlocks with
  | false =>
      exact after [] (before.restart fun need => (same need).trans saving)
        fun _ => rfl
  | true =>
      apply after _ before
      intro idle
      exact (Bool.false_ne_true (idle.symm.trans saving)).elim

theorem entryEvent_plocks (index : Nat) (entry : Entry Int32 Payload) :
    (entryEvent index entry).plocks = (entryEvent 0 entry).plocks := by
  cases entry with
  | confchg change => rfl
  | message sender body =>
      cases body with
      | info li => rfl
      | plock type info => rfl

/-- The messages that are delivered between two points of a stream. -/
def between (log : Log) (first last : Nat) : List Message :=
  plockMessages ((log.take last).drop first)

theorem between_succ {entry : Entry Int32 Payload}
    (here : log[last]? = some entry) (ordered : first ≤ last) :
    between log first (last + 1) =
      between log first last ++ (entryEvent last entry).plocks := by
  have length : (log.take last).length = last :=
    List.length_take_of_le (Nat.le_of_lt (lt_length_of_entry here))
  rw [entryEvent_plocks]
  simp only [between, take_succ here]
  rw [List.drop_append_of_le_length (by rw [length]; exact ordered)]
  simp [plockMessages]

theorem between_self (log : Log) (point : Nat) :
    between log point point = [] := by
  have empty : (log.take point).drop point = [] :=
    List.drop_eq_nil_of_le (List.length_take_le point log)
  rw [between, empty]
  rfl

theorem between_append {middle : Nat} (lower : first ≤ middle)
    (upper : middle ≤ last) :
    between log first last =
      between log first middle ++ between log middle last := by
  have front : (log.take middle).drop first =
      ((log.take last).drop first).take (middle - first) := by
    rw [← List.drop_take, List.take_take, Nat.min_eq_left upper]
  have back : (log.take last).drop middle =
      ((log.take last).drop first).drop (middle - first) := by
    rw [List.drop_drop, Nat.add_sub_cancel' lower]
  simp only [between, plockMessages]
  rw [front, back, ← List.flatMap_append, List.take_append_drop]

theorem between_of_le (past : last ≤ first) : between log first last = [] := by
  have empty : (log.take last).drop first = [] :=
    List.drop_eq_nil_of_le (Nat.le_trans (List.length_take_le last log) past)
  rw [between, empty]
  rfl

theorem between_eq_of_le {second : Nat} (ordered : first ≤ second) :
    between log first last = between log second last ↔
      between log first (min second last) = [] := by
  by_cases inside : second ≤ last
  · rw [Nat.min_eq_left inside, between_append ordered inside]
    exact List.append_left_eq_self
  · have past : last ≤ second := Nat.le_of_not_le inside
    rw [Nat.min_eq_right past, between_of_le past]

/-- The messages behind two points are the same exactly when there is none
between the points. -/
theorem between_eq_iff (log : Log) (first second last : Nat) :
    between log first last = between log second last ↔
      between log (min first second) (min (max first second) last) = [] := by
  rcases Nat.le_total first second with ordered | ordered
  · rw [Nat.min_eq_left ordered, Nat.max_eq_right ordered]
    exact between_eq_of_le ordered
  · rw [Nat.min_eq_right ordered, Nat.max_eq_left ordered]
    exact eq_comm.trans (between_eq_of_le ordered)

/-- What a process has saved, as part of the stream. -/
structure SavesWindow (settings : Settings) (log : Log) (n : Int32)
    (site : Site Payload Peer) : Prop where
  since : site.state.savingSince ≤ site.position
  saves : Saves (settings.env n)
    (between log site.state.savingSince site.position) site.state.ls

theorem between_grow {entry : Entry Int32 Payload}
    (within : last ≤ log.length) :
    between (log ++ [entry]) first last = between log first last := by
  rw [between, take_append_entry within]
  rfl

theorem SavesWindow.grow {settings : Settings} {n : Int32}
    {site : Site Payload Peer} (window : SavesWindow settings log n site)
    (within : site.position ≤ log.length) (entry : Entry Int32 Payload) :
    SavesWindow settings (log ++ [entry]) n site := by
  refine ⟨window.since, ?_⟩
  rw [between_grow within]
  exact window.saves

/-- The messages from where a process begins to save after an event. -/
theorem SavesWindow.handled {settings : Settings} {n : Int32}
    {site : Site Payload Peer} {position : Nat} (answers : Answers)
    (delivery : Option Nat) (common : Common)
    (possible : event.Possible (settings.env n) view)
    (window : SavesWindow settings log n site)
    (ordered : site.position ≤ position)
    (delivered : between log site.state.savingSince position =
      between log site.state.savingSince site.position ++ event.plocks)
    {next : Site Payload Peer} (place : next.position = position)
    (state : next.state = (Cpg.handled settings n position delivery event
      answers common site.state).state) :
    SavesWindow settings log n next := by
  have saves := window.saves.handle answers possible
  constructor
  · rw [place, state]
    simp only [Cpg.handled]
    split
    · exact Nat.le_trans window.since ordered
    · exact Nat.le_refl position
  · rw [place, state]
    simp only [Cpg.handled]
    split
    · rename_i saving
      rw [if_pos saving] at saves
      rw [delivered]
      exact saves
    · rename_i idle
      rw [if_neg idle] at saves
      rw [between_self]
      exact saves

theorem window_upkeep (settings : Settings) :
    Upkeep (daemons settings) (fun _ _ => True) (fun _ _ => True)
      (SavesWindow settings) where
  born := by
    intro s change n _ _ _ _
    refine ⟨Nat.zero_le _, ?_, ?_⟩
    · intro _ _ started
      cases started
    · intro _
      rfl
  changed := fun _ _ _ _ _ => trivial
  told := fun _ change n site upheld _ _ here =>
    (upheld.each n site here).grow (upheld.placed n site here).within _
  ordered := fun _ n site body _ upheld _ _ here _ =>
    have window := (upheld.each n site here).grow
      (upheld.placed n site here).within (.message n body)
    ⟨trivial, window.since, window.saves⟩
  heard := fun _ n _ body _ m other upheld _ _ _ _ here _ =>
    (upheld.each m other here).grow (upheld.placed m other here).within _
  delivered := by
    intro s n answers site entry upheld _ _ found here _
    have window := upheld.each n site found
    exact ⟨trivial, window.handled answers (some site.position) s.shared
      (possible_of_entry upheld.lawful (settings.env n) here)
      (Nat.le_succ _) (between_succ here window.since) rfl rfl⟩
  acted := by
    intro s n action site upheld _ found
    have window := upheld.each n site found
    refine ⟨trivial, window.handled action.2 none s.shared
      (action.1.possible (settings.env n) none) (Nat.le_refl _) ?_ rfl rfl⟩
    rw [action.1.plocks_nil, List.append_nil]

/-- When a joining node retrieves a checkpoint, the messages that it then
replays are those delivered behind the point at which the checkpoint was
stored, exactly when no plock message was delivered between that point and the
point at which the node began to save. -/
theorem replay_window_iff (settings : Settings) (s : Group)
    (run : (daemons settings).system.Run (fun _ _ => True) Group.start s)
    (n : Int32) (site : Site Payload Peer) (here : s.site n = some site)
    (retrieved : retrieving settings s n site = true) :
    ∀ stored ∈ s.shared.checkpoint.map (·.1),
      (site.state.ls.plocks.savedMessages =
          between s.log stored site.position ↔
        between s.log (min site.state.savingSince stored)
          (min (max site.state.savingSince stored) site.position) = []) := by
  intro stored _
  have window := ((window_upkeep settings).run run trivial).each n site here
  obtain ⟨entry, _, reads⟩ := (Option.any_eq_true _ _).mp retrieved
  obtain ⟨plock, need, started⟩ := retrieves_needs reads
  have saving := window.saves.started plock need started
  have saved := window.saves.saved need
  rw [if_pos saving] at saved
  rw [saved]
  exact between_eq_iff s.log _ stored site.position

/-- Node 2 joins, and node 1 claims resource 7 between the store and the
announcement of the checkpoint. -/
def claimBehindStore : List GroupLabel :=
  firstAlone ++
    [.confchg secondJoins,
      .deliver 1 (calmAnswers 3),
      .deliver 2 (calmAnswers 3),
      .order 1,
      .order 2,
      .act 1 (.read lockSeven, calmAnswers 3),
      .order 1,
      .deliver 1 (calmAnswers 10),
      .deliver 1 (calmAnswers 10),
      .deliver 2 (calmAnswers 10),
      .deliver 2 (calmAnswers 10),
      .deliver 2 (calmAnswers 10),
      .order 1]

/-- Node 2 joins and retrieves the empty checkpoint, then claims resource 7;
and node 3 joins while that checkpoint counts as up to date. -/
def claimBeforeReuse : List GroupLabel :=
  firstAlone ++
    [.confchg secondJoins,
      .deliver 1 (calmAnswers 3),
      .deliver 2 (calmAnswers 3),
      .order 1,
      .order 2,
      .deliver 1 (calmAnswers 10),
      .deliver 1 (calmAnswers 10),
      .deliver 2 (calmAnswers 10),
      .deliver 2 (calmAnswers 10),
      .order 1,
      .deliver 1 (calmAnswers 10),
      .deliver 2 (calmAnswers 10),
      .act 2 (.read lockSeven, calmAnswers 10),
      .order 2,
      .deliver 1 (calmAnswers 11),
      .deliver 2 (calmAnswers 11),
      .confchg thirdJoins,
      .deliver 1 (calmAnswers 12),
      .deliver 2 (calmAnswers 12),
      .deliver 3 (calmAnswers 12),
      .order 1,
      .order 2,
      .order 3,
      .deliver 1 (calmAnswers 13),
      .deliver 1 (calmAnswers 13),
      .deliver 1 (calmAnswers 13),
      .deliver 3 (calmAnswers 13),
      .deliver 3 (calmAnswers 13),
      .deliver 3 (calmAnswers 13),
      .order 1]

theorem claim_replayed :
    ∃ site ∈ (Group.after claimBehindStore).site 2,
      site.state.ls.plocks.savedMessages ≠ [] ∧
        ∀ stored ∈ (Group.after claimBehindStore).shared.checkpoint.map
            (·.1),
          site.state.ls.plocks.savedMessages =
            between (Group.after claimBehindStore).log stored
              site.position := by
  have run : (daemons plainSettings).system.Run (fun _ _ => True)
      Group.start (Group.after claimBehindStore) :=
    System.run_of_follows claimBehindStore .refl (by decide)
  have state : ((Group.after claimBehindStore).site 2).any (fun site =>
      !site.state.ls.plocks.savedMessages.isEmpty &&
        retrieving plainSettings (Group.after claimBehindStore) 2 site &&
        (site.state.savingSince == 5)) = true := by
    decide
  obtain ⟨site, here, facts⟩ := (Option.any_eq_true _ _).mp state
  simp only [Bool.and_eq_true, Bool.not_eq_true', beq_iff_eq] at facts
  obtain ⟨⟨saved, retrieved⟩, since⟩ := facts
  refine ⟨site, here, by simpa using saved, ?_⟩
  intro stored checkpoint
  have five : stored = 5 := by
    have found : (Group.after claimBehindStore).shared.checkpoint.map
        (·.1) = some 5 := by
      decide
    exact (Option.some.inj (found.symm.trans checkpoint)).symm
  apply (replay_window_iff plainSettings _ run 2 site here retrieved stored
    checkpoint).mpr
  rw [since, five]
  exact between_of_le (Nat.min_le_left _ _)

/-- Node 3 retrieves a checkpoint without resource 7 and has not saved the
message in which node 2 claims it. -/
theorem claim_not_replayed :
    ¬ ∀ s, (daemons plainSettings).system.Run (fun _ _ => True)
        Group.start s →
      ∀ n site, s.site n = some site →
        retrieving plainSettings s n site = true →
        ∀ stored ∈ s.shared.checkpoint.map (·.1),
          site.state.ls.plocks.savedMessages =
            between s.log stored site.position := by
  intro replayed
  have run : (daemons plainSettings).system.Run (fun _ _ => True)
      Group.start (Group.after claimBeforeReuse) :=
    System.run_of_follows claimBeforeReuse .refl (by decide)
  have state : ((Group.after claimBeforeReuse).site 3).any (fun site =>
      site.state.ls.plocks.savedMessages.isEmpty &&
        retrieving plainSettings (Group.after claimBeforeReuse) 3 site &&
        !(between (Group.after claimBeforeReuse).log 5
          site.position).isEmpty) = true := by
    decide
  obtain ⟨site, here, facts⟩ := (Option.any_eq_true _ _).mp state
  simp only [Bool.and_eq_true, Bool.not_eq_true'] at facts
  obtain ⟨⟨saved, retrieved⟩, missed⟩ := facts
  have found : 5 ∈ (Group.after claimBeforeReuse).shared.checkpoint.map
      (·.1) := by
    decide
  have same := replayed _ run 3 site here retrieved 5 found
  rw [← same, saved] at missed
  cases missed

end Dlm.Cpg
