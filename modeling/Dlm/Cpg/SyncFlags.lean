import Dlm.Cpg.Plocks

/-!
# The synchronisation flags

`need_plocks`, `save_plocks` and the saved messages of a joining node.
`prepare_plocks` has exits that give up the need for a checkpoint and leave
`save_plocks` or the saved messages behind; they are harmless as long as the
node has not begun to save.
-/

namespace Dlm.Cpg

open Plock ProcessGroup

/-- Messages are saved only by a node that needs a checkpoint, and are there
only while it saves. -/
structure FlagsOk (plocks : Plock.Lockspace) : Prop where
  needs : plocks.savePlocks = true → plocks.needPlocks = true
  saves : plocks.savedMessages ≠ [] → plocks.savePlocks = true

theorem FlagsOk.resources {plocks : Plock.Lockspace} (flags : FlagsOk plocks)
    (resources : List Resource) :
    FlagsOk { plocks with plockResources := resources } :=
  ⟨flags.needs, flags.saves⟩

theorem FlagsOk.receive {plocks : Plock.Lockspace} (flags : FlagsOk plocks)
    (env : Plock.Env) (message : Message) :
    FlagsOk (receive env plocks message).1 := by
  unfold Plock.receive
  split
  · rename_i saving
    exact ⟨flags.needs, fun _ => saving⟩
  · exact flags.resources _

theorem processSavedLoop_saved (env : Plock.Env) (messages : List Message)
    (plocks : Plock.Lockspace) :
    (processSavedLoop env messages plocks).1.savedMessages =
      plocks.savedMessages := by
  induction messages generalizing plocks with
  | nil => rfl
  | cons message later induction => exact induction _

theorem FlagsOk.stored (env : Plock.Env) (sections : List Section)
    (plocks : Plock.Lockspace) :
    FlagsOk (Plock.receivePlocksStored env sections plocks).1 := by
  constructor
  · intro saving
    cases saving
  · intro saved
    exact (saved (processSavedLoop_saved env _ _)).elim

theorem FlagsOk.moved {env : Env} {answers : Answers} {ls before : Lockspace}
    {event : Event} (flags : FlagsOk ls.plocks)
    (moved : Moved env answers ls event before) : FlagsOk before.plocks := by
  cases moved with
  | quiet same =>
      rw [same.plocks]
      exact flags
  | purged same =>
      apply purgeRemoved_invariant (fun ls => FlagsOk ls.plocks)
      · intro ls nodeid holds
        exact holds.resources _
      · rw [same.plocks]
        exact flags
  | received message => exact flags.receive env.plock message
  | stored => exact FlagsOk.stored ..
  | read => exact flags.resources _
  | dropped => exact flags.resources _

/-- A node that has begun to save does not find itself alone or without a node
that has plock state when it completes a change. -/
def Accompanied (ls : Lockspace) : Prop :=
  ls.plocks.savePlocks = true → ∀ cg ∈ ls.changes.head?,
    cg.state = .waitMessages → waitMessagesDone cg = true →
    cg.memberCount ≠ 1 ∧ lowPlockNode cg ≠ 0

theorem Prepared.flagsOk {env : Env} {now : UInt64} {ls : Lockspace}
    {cg : Change} {older : List Change} {result : Lockspace × List Effect}
    (prepared : Prepared env now ls cg older result)
    (flags : FlagsOk ls.plocks)
    (accompanied : ls.plocks.savePlocks = true →
      cg.memberCount ≠ 1 ∧ lowPlockNode cg ≠ 0) :
    FlagsOk result.1.plocks := by
  have idle : cg.memberCount = 1 ∨ lowPlockNode cg = 0 →
      ls.plocks.savePlocks = false ∧ ls.plocks.savedMessages = [] := by
    intro lonely
    have notSaving : ls.plocks.savePlocks ≠ true := by
      intro saving
      obtain ⟨several, somebody⟩ := accompanied saving
      exact lonely.elim several somebody
    refine ⟨Bool.eq_false_iff.mpr notSaving, ?_⟩
    by_contra saved
    exact notSaving (flags.saves saved)
  cases prepared with
  | disabled => exact flags
  | alone plock single =>
      obtain ⟨notSaving, empty⟩ := idle (.inl single)
      refine ⟨fun saving => ?_, fun saved => (saved empty).elim⟩
      exact nomatch notSaving.symm.trans saving
  | noState plock several nobody =>
      obtain ⟨_, empty⟩ := idle (.inr nobody)
      exact ⟨fun saving => (nomatch saving), fun saved => (saved empty).elim⟩
  | needed plock several somebody need =>
      simp only [Plock.preparePlocks, need, if_true]
      exact ⟨fun _ => rfl, fun _ => rfl⟩
  | other => exact flags
  | reuse => exact flags
  | store => exact flags

theorem FlagsOk.apply {env : Env} {ls : Lockspace} (answers : Answers)
    (flags : FlagsOk ls.plocks) (accompanied : Accompanied ls) :
    FlagsOk (applyChanges env answers ls).1.plocks := by
  have settles := applyChanges_settles env answers ls
  generalize applyChanges env answers ls = result at settles ⊢
  cases settles with
  | quiet same =>
      rw [same.plocks]
      exact flags
  | @complete cg older pending state arrived =>
      obtain ⟨result, prepared, equation⟩ :=
        completeChange_prepared env answers.now ls cg older
      rw [equation]
      apply prepared.flagsOk flags
      intro saving
      exact accompanied saving cg (by rw [pending]; rfl) state arrived

/-- The condition on the steps of a run. -/
def AccompaniedStep (env : Env) (daemon : Daemon) (step : Step) : Prop :=
  step.event.applies = true →
    Accompanied (arrival env step.answers step.event daemon.ls).1

instance (env : Env) (daemon : Daemon) (step : Step) :
    Decidable (AccompaniedStep env daemon step) :=
  inferInstanceAs (Decidable (_ → _ → ∀ cg ∈ _, _ → _ → _ ∧ _))

/-- If a node that has begun to save messages completes changes only together
with other members, one of which has plock state, then in every state it
reaches it saves messages only while it needs a checkpoint, and has saved
messages only while it saves. -/
theorem sync_flags_consistent (env : Env) (fsRegistered : Bool)
    (daemon : Daemon)
    (run : (daemonSystem env).Run (AccompaniedStep env)
      (Daemon.start fsRegistered) daemon) :
    (daemon.ls.plocks.savePlocks = true →
      daemon.ls.plocks.needPlocks = true) ∧
    (daemon.ls.plocks.savedMessages ≠ [] →
      daemon.ls.plocks.savePlocks = true) := by
  have flags : FlagsOk daemon.ls.plocks := by
    apply run.invariant (fun daemon => FlagsOk daemon.ls.plocks)
    · exact ⟨fun saving => (nomatch saving), fun saved => (saved rfl).elim⟩
    · intro daemon step enabled accompanied flags
      have before := flags.moved
        (arrival_moved env step.answers step.event daemon.ls)
      simp only [daemonSystem, daemonNext,
        handle_eq step.answers daemon.ls enabled.1]
      split
      · rename_i applies
        exact before.apply step.answers (accompanied applies)
      · exact before
  exact ⟨flags.needs, flags.saves⟩

/-- The start messages of the join arrive at node 2. -/
def joinerStarts : List Step :=
  [⟨.confchg 0 secondJoins, calmAnswers 100⟩,
    ⟨.info 1 (infoFrom .start 0 secondJoins 1), calmAnswers 110⟩,
    ⟨.info 2 (infoAbout .start 0 secondJoins), calmAnswers 110⟩]

/-- A message that arrives then is saved. -/
def joinerSaves : List Step :=
  joinerStarts ++
    [⟨.plock { type := .plock, nodeid := 1, info := Info.cleared },
      calmAnswers 120⟩]

/-- Node 1 fails before it announces the checkpoint, and node 2 completes the
change alone. -/
def joinerLeftAlone : List Step :=
  joinerStarts ++
    [⟨.confchg 3 { members := [2], left := [(1, .nodedown)], joined := [] },
        fencedAnswers 120 115⟩,
      ⟨.info 2 { infoAbout .start 3
          { members := [2], left := [(1, .nodedown)], joined := [] } with
          startedCount := 1 }, fencedAnswers 130 115⟩]

theorem joiner_saves_while_needed :
    ((daemonSystem (plainEnv 2)).follow (Daemon.start false)
        joinerSaves).ls.plocks.savedMessages ≠ [] ∧
      ((daemonSystem (plainEnv 2)).follow (Daemon.start false)
        joinerSaves).ls.plocks.needPlocks = true := by
  have consistent := sync_flags_consistent (plainEnv 2) false
    ((daemonSystem (plainEnv 2)).follow (Daemon.start false) joinerSaves)
    (System.run_of_follows joinerSaves .refl (by decide))
  have saved : ((daemonSystem (plainEnv 2)).follow (Daemon.start false)
      joinerSaves).ls.plocks.savedMessages ≠ [] := by
    decide
  exact ⟨saved, consistent.1 (consistent.2 saved)⟩

/-- Node 2 has no more need of a checkpoint and goes on saving messages. -/
theorem saving_outlives_need :
    ¬ ∀ daemon, (daemonSystem (plainEnv 2)).Run (fun _ _ => True)
        (Daemon.start false) daemon →
      (daemon.ls.plocks.savePlocks = true →
        daemon.ls.plocks.needPlocks = true) ∧
      (daemon.ls.plocks.savedMessages ≠ [] →
        daemon.ls.plocks.savePlocks = true) := by
  intro consistent
  have run : (daemonSystem (plainEnv 2)).Run (fun _ _ => True)
      (Daemon.start false)
      ((daemonSystem (plainEnv 2)).follow (Daemon.start false)
        joinerLeftAlone) :=
    System.run_of_follows joinerLeftAlone .refl (by decide)
  have needs := (consistent _ run).1 (by decide)
  revert needs
  decide

end Dlm.Cpg
