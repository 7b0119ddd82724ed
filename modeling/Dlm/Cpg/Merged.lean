import Dlm.Cpg.Steps

/-!
# Nodes that come back without having been reset

A node that was partitioned away and merges again is added to the group like a
new one, but its start messages tell that it has already started.
`receive_start` does not count them as long as the change that added the node
is pending, and that change stays pending until one without the node is
complete.
-/

namespace Dlm.Cpg

open Plock ProcessGroup

variable {cg : Change} {older : List Change}

/-- The members of a change and whether it has added them. -/
def Change.roster (cg : Change) : List (Int32 × Bool) :=
  cg.members.map fun memb => (memb.nodeid, memb.added)

/-- The node is among the members as one that was added. -/
def marksAdded (roster : List (Int32 × Bool)) (nodeid : Int32) : Bool :=
  (roster.find? (·.1 == nodeid)).any (·.2)

/-- The change has no start message of the node. -/
def Change.Unstarted (cg : Change) (nodeid : Int32) : Prop :=
  ∀ memb ∈ cg.members, memb.nodeid = nodeid → memb.start = false

/-- A start message of the node says that it has started before. -/
def Event.Restarts (nodeid : Int32) : Event → Prop
  | .info sender li =>
      sender = nodeid → li.type = .start → li.startedCount ≠ 0
  | _ => True

instance (nodeid : Int32) (event : Event) :
    Decidable (event.Restarts nodeid) := by
  rcases event <;> unfold Event.Restarts <;> infer_instance

/-- The node is not a member, or it was added by a pending change and the
newest one has no start message of it. -/
structure Barred (nodeid : Int32) (view : List Int32) (changes : List Change) :
    Prop where
  newest : ∀ cg older, changes = cg :: older → formatMemberIds cg = view
  held : nodeid ∈ view → isAdded changes nodeid = true ∧
    ∃ cg older, changes = cg :: older ∧ cg.Unstarted nodeid

section Rosters

variable {nodeid : Int32}

theorem roster_startStable : StartStable Change.roster := by
  intro sender flags cg
  constructor
  · simp only [Change.roster, updateMemb]
    rw [map_modifyFirst]
    intro _
    rfl
  · simp only [Change.roster, updateMemb]
    rw [map_modifyFirst]
    intro _
    rfl

theorem isAdded_eq (changes : List Change) :
    isAdded changes nodeid =
      (changes.map Change.roster).any (marksAdded · nodeid) := by
  simp only [isAdded, List.any_map, findMemb, marksAdded, Change.roster,
    List.find?_map, Option.any_map, Function.comp_def]

theorem formatMemberIds_eq (cg : Change) :
    formatMemberIds cg = cg.roster.map Prod.fst := by
  simp [formatMemberIds, Change.roster, Function.comp_def]

/-- The loop of `add_change` marks the joined nodes. -/
theorem addJoined_marks {env : Env} {joined : List Int32}
    {members marked : List Member} {history : List Node}
    (result : (addJoined env joined members history).1 = some marked)
    (member : nodeid ∈ joined ∨
      (members.find? (·.nodeid == nodeid)).any (·.added) = true) :
    (marked.find? (·.nodeid == nodeid)).any (·.added) = true := by
  induction joined generalizing members history with
  | nil =>
      cases result
      rcases member with impossible | already
      · cases impossible
      · exact already
  | cons first later induction =>
      rw [addJoined] at result
      split at result
      · rename_i found
        apply induction result
        have lookup := @find?_modifyFirst Member Int32 _ (·.nodeid)
          (fun memb => { memb with added := true }) (fun _ => rfl) members
          first nodeid
        rw [lookup]
        by_cases same : first = nodeid
        · right
          obtain ⟨memb, inside, here⟩ := List.any_eq_true.mp found
          rw [same] at here
          have found : (members.find? (·.nodeid == nodeid)).isSome = true :=
            List.find?_isSome.mpr ⟨memb, inside, here⟩
          obtain ⟨marked, isMarked⟩ := Option.isSome_iff_exists.mp found
          rw [if_pos same, isMarked]
          rfl
        · rw [if_neg same]
          rcases member with joins | already
          · exact .inl ((List.mem_cons.mp joins).resolve_left
              fun equal => same equal.symm)
          · exact .inr already
      · cases result

theorem isAdded_cons (added : isAdded older nodeid = true) :
    isAdded (cg :: older) nodeid = true := by
  simp only [isAdded, List.any_cons] at added ⊢
  rw [added, Bool.or_true]

end Rosters

section Steps

variable {env : Env} {answers : Answers} {nodeid : Int32}
variable {view : List Int32} {ls : Lockspace}

/-- A configuration change bars the nodes that it adds and those that were
barred before it. -/
theorem barred_confchg {index : Nat} {change : Confchg Int32}
    (known : ∀ n ∈ change.joined, n ∈ change.members)
    (member : nodeid ∈ change.members → nodeid ∈ change.joined ∨
      isAdded ls.changes nodeid = true) :
    Barred nodeid change.members
      (arrival env answers (.confchg index change) ls).1.changes := by
  obtain ⟨marked, history, result, ids, changes⟩ :=
    @arrival_newChange env index change answers ls known
  obtain ⟨cg, fresh, opened⟩ :=
    @arrival_opened env index change answers ls known
  rw [opened.changes] at changes ⊢
  obtain ⟨rfl, _⟩ := List.cons.inj changes
  constructor
  · intro newest older pending
    cases pending
    exact fresh.ids
  · intro inside
    refine ⟨?_, _, _, rfl, fun memb here _ => fresh.unstarted memb here⟩
    rcases member inside with joins | already
    · have marks := addJoined_marks result (.inl joins)
      simp only [isAdded, List.any_cons, findMemb, newChange]
      rw [marks, Bool.true_or]
    · exact isAdded_cons already

/-- What `receive_start` leaves of a change when it does not count a start
message of the node. -/
theorem updateMemb_unstarted {sender : Int32} {change : Member → Member}
    (same : ∀ memb, (change memb).nodeid = memb.nodeid)
    (silent : sender = nodeid → ∀ memb, (change memb).start = memb.start)
    (unstarted : cg.Unstarted nodeid) :
    (updateMemb sender change cg).Unstarted nodeid := by
  intro memb member here
  rcases mem_modifyFirst member with old | ⟨old, inside, found, rfl⟩
  · exact unstarted memb old here
  · rw [same] at here
    have equal : sender = nodeid := (beq_iff_eq.mp found).symm.trans here
    rw [silent equal]
    exact unstarted old inside here

/-- The newest change keeps its members when the rosters stay. -/
theorem Barred.newest_of_rosters {changes later : List Change}
    (barred : Barred nodeid view changes)
    (rosters : later.map Change.roster = changes.map Change.roster)
    (pending : later = cg :: older) :
    formatMemberIds cg = view := by
  rw [pending] at rosters
  cases same : changes with
  | nil =>
      rw [same] at rosters
      cases rosters
  | cons newest rest =>
      rw [same] at rosters
      obtain ⟨first, _⟩ := List.cons.inj rosters
      rw [← barred.newest newest rest same, formatMemberIds_eq,
        formatMemberIds_eq, first]

/-- A barred node stays barred when start messages arrive. -/
theorem Barred.receiveStart (barred : Barred nodeid view ls.changes)
    {sender : Int32} {li : LsInfo} (now : UInt64)
    (restarts : sender = nodeid → li.startedCount ≠ 0) :
    Barred nodeid view (receiveStart env now sender li ls).changes := by
  have rosters := roster_startStable.receiveStart env now sender li ls
  constructor
  · intro cg older pending
    exact barred.newest_of_rosters rosters pending
  · intro inside
    obtain ⟨added, cg, older, pending, unstarted⟩ := barred.held inside
    refine ⟨by rw [isAdded_eq, rosters, ← isAdded_eq, added], ?_⟩
    have marked := receiveStart_marked env now sender li ls
    generalize Cpg.receiveStart env now sender li ls = after at marked ⊢
    cases marked with
    | unmatched => exact ⟨cg, older, pending, unstarted⟩
    | refused found =>
        rw [pending] at found
        simp only [pending]
        exact updateOldest_head found
          (updateMemb_unstarted (fun _ => rfl) (fun _ _ => rfl)) unstarted
    | started found accepts =>
        have other : sender ≠ nodeid := by
          rintro rfl
          simp [refusesStart, added, restarts rfl] at accepts
        rw [pending] at found
        simp only [pending]
        exact updateOldest_head found
          (updateMemb_unstarted (fun _ => rfl)
            (fun same => (other same).elim)) unstarted

theorem Barred.arrival (barred : Barred nodeid view ls.changes)
    {event : Event} {known : Option (List Int32)}
    (possible : event.Possible env known) (quiet : event.confchgs = [])
    (restarts : event.Restarts nodeid) :
    Barred nodeid view (arrival env answers event ls).1.changes := by
  have arrived := arrival_arrived answers ls possible
  generalize (Cpg.arrival env answers event ls).1 = before at arrived ⊢
  cases arrived with
  | confchg => cases quiet
  | start kind =>
      exact barred.receiveStart answers.now fun same => restarts same kind
  | plocks same =>
      rw [same.changes]
      exact barred
  | registered => exact barred
  | notified => exact barred

/-- No change completes that has a barred node as a member. -/
theorem Barred.apply (barred : Barred nodeid view ls.changes) :
    Barred nodeid view (applyChanges env answers ls).1.changes ∧
      ∀ index node, .complete index node ∈ (applyChanges env answers ls).2 →
        ∀ cg, (applyChanges env answers ls).1.startedChange = some cg →
          nodeid ∉ formatMemberIds cg := by
  have applied := applyChanges_applied env answers ls
  generalize applyChanges env answers ls = result at applied ⊢
  cases applied with
  | idle =>
      refine ⟨barred, ?_⟩
      intro index node impossible
      cases impossible
  | @begin cg older pending =>
      refine ⟨⟨?_, ?_⟩, ?_⟩
      · intro newest rest same
        cases same
        exact barred.newest cg older pending
      · intro inside
        obtain ⟨added, newest, rest, same, unstarted⟩ := barred.held inside
        cases pending.symm.trans same
        refine ⟨?_, _, _, rfl, unstarted⟩
        rw [isAdded_eq, pending] at added
        rw [isAdded_eq]
        exact added
      · intro index node impossible
        cases List.mem_singleton.mp impossible
  | wait =>
      refine ⟨barred, ?_⟩
      intro index node impossible
      cases impossible
  | collect =>
      refine ⟨barred, ?_⟩
      intro index node impossible
      cases impossible
  | @complete cg older pending state arrived =>
      have closed := completeChange_closed env answers.now ls cg older
      have absent : nodeid ∉ view := by
        intro inside
        obtain ⟨_, newest, rest, same, unstarted⟩ := barred.held inside
        cases pending.symm.trans same
        rw [← barred.newest cg older pending] at inside
        obtain ⟨memb, member, here⟩ := List.mem_map.mp inside
        have started := List.all_eq_true.mp arrived memb member
        rw [unstarted memb member here] at started
        cases started
      refine ⟨⟨?_, fun inside => (absent inside).elim⟩, ?_⟩
      · rw [closed.changes]
        intro _ _ impossible
        cases impossible
      · intro _ _ _ started same
        rw [closed.startedChange] at same
        cases same
        rw [barred.newest cg older pending]
        exact absent

end Steps

/-- The node is barred in the lockspace of a daemon that has joined. -/
def Daemon.Bars (nodeid : Int32) (daemon : Daemon) : Prop :=
  ∃ view, daemon.view = some view ∧ Barred nodeid view daemon.ls.changes

section Runs

variable {env : Env} {nodeid : Int32} {daemon : Daemon} {step : Step}

/-- A barred node stays barred until it has been started with. -/
theorem Daemon.Bars.before (bars : daemon.Bars nodeid)
    (enabled : (daemonSystem env).enabled daemon step)
    (restarts : step.event.Restarts nodeid) :
    ∃ view, step.event.view daemon.view = some view ∧
      Barred nodeid view
        (arrival env step.answers step.event daemon.ls).1.changes := by
  obtain ⟨view, known, barred⟩ := bars
  obtain ⟨possible, _⟩ := enabled
  cases event : step.event with
  | confchg index change =>
      rw [event, known] at possible
      refine ⟨change.members, rfl, ?_⟩
      apply barred_confchg possible.known
      intro inside
      rcases Confchg.Follows.members_known possible nodeid inside with
        joins | ⟨old, _⟩
      · exact .inl joins
      · exact .inr (barred.held old).1
  | _ =>
      rw [event] at possible restarts
      exact ⟨view, known, barred.arrival possible rfl restarts⟩

theorem Daemon.Bars.next (bars : daemon.Bars nodeid)
    (enabled : (daemonSystem env).enabled daemon step)
    (restarts : step.event.Restarts nodeid) :
    (daemonNext env daemon step).Bars nodeid ∧
      ∀ index node, .complete index node ∈ daemonEffects env daemon step →
        ∀ cg, (daemonNext env daemon step).ls.startedChange = some cg →
          nodeid ∉ formatMemberIds cg := by
  obtain ⟨view, known, barred⟩ := bars.before enabled restarts
  have handled := handle_eq step.answers daemon.ls enabled.1
  simp only [Daemon.Bars, daemonNext, daemonEffects, handled]
  split
  · obtain ⟨after, completes⟩ := @Barred.apply env step.answers _ _ _ barred
    refine ⟨⟨view, known, after⟩, ?_⟩
    intro index node member
    rcases List.mem_append.mp member with early | late
    · cases arrival_effects early
    · exact completes index node late
  · refine ⟨⟨view, known, barred⟩, ?_⟩
    intro index node member
    cases arrival_effects member

/-- Only a change that waits for messages is completed. -/
theorem applyChanges_complete {answers : Answers} {ls : Lockspace}
    {number : Nat} {node : Int32}
    (completes : .complete number node ∈ (applyChanges env answers ls).2) :
    ∃ cg older, ls.changes = cg :: older ∧ cg.state = .waitMessages := by
  have applied := applyChanges_applied env answers ls
  generalize applyChanges env answers ls = result at applied completes
  cases applied with
  | idle => cases completes
  | begin => cases List.mem_singleton.mp completes
  | wait => cases completes
  | collect => cases completes
  | complete pending state => exact ⟨_, _, pending, state⟩

/-- A configuration change bars the nodes it adds, and completes nothing. -/
theorem bars_of_join {index : Nat} {change : Confchg Int32}
    {answers : Answers}
    (enabled : (daemonSystem env).enabled daemon
      ⟨.confchg index change, answers⟩)
    (joins : nodeid ∈ change.joined) :
    (daemonNext env daemon ⟨.confchg index change, answers⟩).Bars nodeid ∧
      ∀ number node, .complete number node ∉
        daemonEffects env daemon ⟨.confchg index change, answers⟩ := by
  obtain ⟨possible, _⟩ := enabled
  have barred := @barred_confchg env answers nodeid daemon.ls index change
    possible.known fun _ => .inl joins
  have handled : handle env answers (.confchg index change) daemon.ls =
      thenApply env answers
        (arrival env answers (.confchg index change) daemon.ls) :=
    handle_eq answers daemon.ls possible
  simp only [Daemon.Bars, daemonNext, daemonEffects, handled]
  refine ⟨⟨change.members, rfl, (@Barred.apply env answers _ _ _ barred).1⟩,
    ?_⟩
  intro number node member
  rcases List.mem_append.mp member with early | late
  · cases arrival_effects early
  · obtain ⟨cg, fresh, opened⟩ :=
      @arrival_opened env index change answers daemon.ls possible.known
    obtain ⟨_, _, pending, state⟩ := applyChanges_complete late
    cases opened.changes.symm.trans pending
    cases fresh.state.symm.trans state

/-- The count of starts skips 0 when it wraps around. -/
theorem cleanupChanges_startedCount (ls : Lockspace) (cg : Change) :
    (cleanupChanges ls cg).startedCount ≠ 0 := by
  simp only [cleanupChanges]
  split
  · rename_i zero
    rw [zero]
    decide
  · assumption

theorem arrival_startedCount {event : Event} {view : Option (List Int32)}
    (answers : Answers) (ls : Lockspace)
    (possible : event.Possible env view) :
    (arrival env answers event ls).1.startedCount = ls.startedCount := by
  have arrived := arrival_arrived answers ls possible
  generalize (arrival env answers event ls).1 = before at arrived ⊢
  cases arrived with
  | confchg fresh opened => exact opened.startedCount
  | @start sender li =>
      have marked := receiveStart_marked env answers.now sender li ls
      generalize receiveStart env answers.now sender li ls = after at marked ⊢
      cases marked with
      | unmatched => rfl
      | refused => rfl
      | started => rfl
  | plocks same => exact same.startedCount
  | registered => rfl
  | notified => rfl

theorem Prepared.send_startedCount {now : UInt64} {ls : Lockspace}
    {result : Lockspace × List Effect}
    (prepared : Prepared env now ls cg older result) {li : LsInfo}
    (member : .send li ∈ result.2) : li.startedCount = ls.startedCount := by
  have closing : .send li ∉ closed env ls cg := by
    unfold closed
    split
    · simp
    · simp
  cases prepared with
  | disabled => cases member
  | alone => cases member
  | noState => exact (closing member).elim
  | needed => exact (closing member).elim
  | other => exact (closing member).elim
  | reuse =>
      rcases List.mem_append.mp member with first | last
      · exact (closing first).elim
      · cases List.mem_singleton.mp last
        rfl
  | store =>
      rcases List.mem_append.mp member with front | last
      · rcases List.mem_append.mp front with first | stored
        · exact (closing first).elim
        · cases List.mem_singleton.mp stored
      · cases List.mem_singleton.mp last
        rfl

/-- What `apply_changes` sends carries the count of starts, and a count that
is not 0 does not become 0. -/
theorem applyChanges_startedCount (answers : Answers) (ls : Lockspace) :
    (∀ li, .send li ∈ (applyChanges env answers ls).2 →
      li.startedCount = ls.startedCount) ∧
    (ls.startedCount ≠ 0 ∨
        (∃ index node, .complete index node ∈
          (applyChanges env answers ls).2) →
      (applyChanges env answers ls).1.startedCount ≠ 0) := by
  have applied := applyChanges_applied env answers ls
  generalize applyChanges env answers ls = result at applied ⊢
  cases applied with
  | idle => simp
  | begin =>
      constructor
      · intro li member
        cases List.mem_singleton.mp member
        rfl
      · simp [sendStart]
  | wait => simp
  | collect => simp
  | @complete cg older pending state arrived =>
      obtain ⟨result, prepared, equation⟩ :=
        completeChange_prepared env answers.now ls cg older
      rw [equation]
      refine ⟨?_, fun _ => cleanupChanges_startedCount result.1 cg⟩
      intro li member
      rcases List.mem_append.mp member with front | last
      · rcases List.mem_append.mp front with started | sent
        · exact (startKernel_send ls cg older li started).elim
        · exact prepared.send_startedCount sent
      · cases List.mem_singleton.mp last

theorem step_startedCount
    (enabled : (daemonSystem env).enabled daemon step) :
    (∀ li, .send li ∈ daemonEffects env daemon step →
      li.startedCount = daemon.ls.startedCount) ∧
    (daemon.ls.startedCount ≠ 0 ∨
        (∃ index node, .complete index node ∈
          daemonEffects env daemon step) →
      (daemonNext env daemon step).ls.startedCount ≠ 0) := by
  have count := arrival_startedCount step.answers daemon.ls enabled.1
  have handled := handle_eq step.answers daemon.ls enabled.1
  obtain ⟨sends, counts⟩ := @applyChanges_startedCount env step.answers
    (arrival env step.answers step.event daemon.ls).1
  rw [count] at sends counts
  simp only [daemonNext, daemonEffects, handled]
  split
  · constructor
    · intro li member
      rcases List.mem_append.mp member with early | late
      · cases arrival_effects early
      · exact sends li late
    · rintro (started | ⟨index, node, member⟩)
      · exact counts (.inl started)
      · rcases List.mem_append.mp member with early | late
        · cases arrival_effects early
        · exact counts (.inr ⟨index, node, late⟩)
  · constructor
    · intro li member
      cases arrival_effects member
    · rintro (started | ⟨index, node, member⟩)
      · rw [count]
        exact started
      · cases arrival_effects member

end Runs

/-- A node that a configuration change adds, and whose start messages from
then on all say that it has started before, is in no change that completes.
A daemon that has completed a change sends no message with a count of 0. -/
theorem remerged_node_never_started (env : Env) :
    (∀ (nodeid : Int32) (before after : Daemon) (index : Nat)
      (change : Confchg Int32) (answers : Answers) (step : Step),
      (daemonSystem env).enabled before ⟨.confchg index change, answers⟩ →
      nodeid ∈ change.joined →
      (daemonSystem env).Run (fun _ step => step.event.Restarts nodeid)
        (daemonNext env before ⟨.confchg index change, answers⟩) after →
      (daemonSystem env).enabled after step →
      step.event.Restarts nodeid →
      (∀ number node, .complete number node ∉
        daemonEffects env before ⟨.confchg index change, answers⟩) ∧
      ∀ number node, .complete number node ∈ daemonEffects env after step →
        ∀ cg, (daemonNext env after step).ls.startedChange = some cg →
          nodeid ∉ formatMemberIds cg) ∧
    ∀ (before after : Daemon) (number : Nat) (node : Int32)
      (first step : Step) (li : LsInfo),
      (daemonSystem env).enabled before first →
      .complete number node ∈ daemonEffects env before first →
      (daemonSystem env).Run (fun _ _ => True)
        (daemonNext env before first) after →
      (daemonSystem env).enabled after step →
      .send li ∈ daemonEffects env after step →
      li.startedCount ≠ 0 := by
  constructor
  · intro nodeid before after index change answers step joined joins run
      enabled restarts
    obtain ⟨first, incomplete⟩ := bars_of_join joined joins
    have bars : after.Bars nodeid :=
      run.invariant (Daemon.Bars nodeid) first
        fun _ _ enabled restarts bars => (bars.next enabled restarts).1
    exact ⟨incomplete, (bars.next enabled restarts).2⟩
  · intro before after number node first step li started completes run
      enabled sends
    have counted : after.ls.startedCount ≠ 0 :=
      run.invariant (fun daemon => daemon.ls.startedCount ≠ 0)
        ((step_startedCount started).2 (.inr ⟨number, node, completes⟩))
        fun _ _ enabled _ counted => (step_startedCount enabled).2 (.inl counted)
    rw [(step_startedCount enabled).1 li sends]
    exact counted

/-- Node 2 joins node 1. -/
def secondMerges : Step :=
  ⟨.confchg 4 secondJoins, calmAnswers 120⟩

/-- The start messages of both nodes, of which that of node 2 says that it has
started five times; then node 2 leaves again. -/
def mergedStarts : List Step :=
  [⟨.info 1 (infoFrom .start 4 secondJoins 1), calmAnswers 130⟩,
    ⟨.info 2 (infoFrom .start 4 secondJoins 5), calmAnswers 130⟩,
    ⟨.confchg 7 secondLeaves, calmAnswers 130⟩]

/-- The start message of node 1 for the change without node 2. -/
def startsAlone : Step :=
  ⟨.info 1 (infoFrom .start 7 secondLeaves 1), calmAnswers 140⟩

/-- Node 1 after its first configuration change. -/
def joinedAlone : Daemon :=
  daemonNext (plainEnv 1) (Daemon.start false)
    ⟨.confchg 0 (formed [1]), calmAnswers 100⟩

/-- The change that completes does not have node 2, and the start message that
node 1 sends when node 2 joins carries a count of 1. -/
theorem remerged_second_refused :
    (.complete 7 1 ∈ daemonEffects (plainEnv 1)
        ((daemonSystem (plainEnv 1)).follow
          (daemonNext (plainEnv 1) (startedWith [1]) secondMerges)
          mergedStarts) startsAlone ∧
      ∀ cg, (daemonNext (plainEnv 1)
        ((daemonSystem (plainEnv 1)).follow
          (daemonNext (plainEnv 1) (startedWith [1]) secondMerges)
          mergedStarts) startsAlone).ls.startedChange = some cg →
        2 ∉ formatMemberIds cg) ∧
      { infoFrom .start 4 secondJoins 1 with seq := 2 }.startedCount ≠ 0 := by
  obtain ⟨refused, counted⟩ := remerged_node_never_started (plainEnv 1)
  have completes : .complete 7 1 ∈ daemonEffects (plainEnv 1)
      ((daemonSystem (plainEnv 1)).follow
        (daemonNext (plainEnv 1) (startedWith [1]) secondMerges)
        mergedStarts) startsAlone := by
    decide
  constructor
  · refine ⟨completes, ?_⟩
    exact (refused 2 (startedWith [1]) _ 4 secondJoins (calmAnswers 120)
      startsAlone (by decide) (by decide)
      (System.run_of_follows mergedStarts .refl (by decide)) (by decide)
      (by decide)).2 7 1 completes
  · exact counted joinedAlone (startedWith [1]) 0 1
      ⟨.info 1 (infoAbout .start 0 (formed [1])), calmAnswers 110⟩
      secondMerges _ (by decide) (by decide) .refl (by decide) (by decide)

end Dlm.Cpg
