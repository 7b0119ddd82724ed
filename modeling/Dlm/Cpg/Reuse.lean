import Dlm.Cpg.Plocks
import Dlm.Plock.Freshness

/-!
# Reusing a checkpoint

`store_plocks` writes nothing when its last checkpoint is newer than the last
plock operation.  What it wrote then is what it would write now, as long as no
event arrives that changes the sections without setting `last_plock_time`: an
`OWN` that changes an owner, a `SYNC` or `DROP` that changes a table, a removed
node that is an owner only, and without ownership whatever allocates a resource
without locking it.
-/

namespace Dlm.Cpg

open Plock ProcessGroup

variable {ls : Lockspace} {env : Env} {now : UInt64} {written : List Section}

/-- The test with which `store_plocks` finds its last checkpoint up to
date. -/
def UpToDate (ls : Lockspace) : Prop :=
  ls.lastCheckpointTime > ls.lastPlockTime

instance (ls : Lockspace) : Decidable (UpToDate ls) :=
  inferInstanceAs (Decidable (_ < _))

theorem storePlocks_upToDate (env : Env) (now : UInt64)
    (upToDate : UpToDate ls) : storePlocks env now ls = (ls, []) := by
  unfold storePlocks
  split
  · rfl
  · exact if_pos upToDate

/-- By its input and the plock state that it finds, the handler of the event
leaves the sections of the checkpoint alone or sets `last_plock_time`. -/
def Event.inert (env : Env) (plocks : Plock.Lockspace) : Event → Bool
  | .confchg _ change =>
      removalsKeep env.plock plocks.plockResources (change.left.map Prod.fst)
  | .plock message =>
      plocks.savePlocks ||
        message.keepsSection env.plock
          (searchResource plocks.plockResources message.info.number)
  | .read operation =>
      env.plock.plockOwnership ||
        (searchResource plocks.plockResources operation.number).isSome
  | _ => true

/-- The condition on the steps of a run: while the last checkpoint counts as up
to date, only such events arrive. -/
def InertWhileUpToDate (env : Env) (daemon : Daemon) (step : Step) : Prop :=
  UpToDate daemon.ls → step.event.inert env daemon.ls.plocks = true

instance (env : Env) (daemon : Daemon) (step : Step) :
    Decidable (InertWhileUpToDate env daemon step) :=
  inferInstanceAs (Decidable (UpToDate _ → _ = true))

/-- What is written and when. -/
structure Current (env : Env) (clock : UInt64) (written : List Section)
    (ls : Lockspace) : Prop where
  past : ls.lastCheckpointTime ≤ clock
  needing : ls.plocks.needPlocks = true → ls.lastCheckpointTime = 0
  sound : Everywhere ReleasedUnowned ls.plocks
  written : UpToDate ls → written = Plock.storePlocks env.plock ls.plocks

theorem Current.later {clock : UInt64} (current : Current env clock written ls)
    (later : clock ≤ now) :
    Current env now written ls :=
  ⟨UInt64.le_trans current.past later, current.needing, current.sound,
    current.written⟩

theorem Current.same {clock : UInt64} {after : Lockspace}
    (current : Current env clock written ls) (same : SamePlocks ls after) :
    Current env clock written after := by
  refine ⟨?_, ?_, ?_, ?_⟩
  · rw [same.lastCheckpointTime]
    exact current.past
  · rw [same.plocks, same.lastCheckpointTime]
    exact current.needing
  · rw [same.plocks]
    exact current.sound
  · rw [UpToDate, same.plocks, same.lastCheckpointTime, same.lastPlockTime]
    exact current.written

/-- A handler that leaves the last checkpoint up to date has not set the
time. -/
theorem UpToDate.of_onPlocks {result : Plock.Lockspace × List Plock.Effect}
    (past : ls.lastCheckpointTime ≤ now)
    (upToDate : UpToDate (ls.onPlocks now result).1) :
    .plockTime ∉ result.2 ∧ UpToDate ls := by
  simp only [UpToDate, Lockspace.onPlocks, gt_iff_lt] at upToDate
  by_cases timed : Plock.Effect.plockTime ∈ result.2
  · rw [if_pos timed] at upToDate
    exact (UInt64.not_lt.mpr past upToDate).elim
  · rw [if_neg timed] at upToDate
    exact ⟨timed, upToDate⟩

/-- A plock handler keeps what is written current when it leaves the sections
alone without setting the time. -/
theorem Current.onPlocks {result : Plock.Lockspace × List Plock.Effect}
    (current : Current env now written ls)
    (needs : result.1.needPlocks = true → ls.plocks.needPlocks = true)
    (sound : Everywhere ReleasedUnowned result.1)
    (sections : UpToDate (ls.onPlocks now result).1 →
      .plockTime ∉ result.2 → UpToDate ls →
      Plock.storePlocks env.plock result.1 =
        Plock.storePlocks env.plock ls.plocks) :
    Current env now written (ls.onPlocks now result).1 := by
  refine ⟨current.past, fun need => current.needing (needs need), sound, ?_⟩
  intro upToDate
  obtain ⟨untimed, before⟩ := UpToDate.of_onPlocks current.past upToDate
  exact (current.written before).trans
    (sections upToDate untimed before).symm

theorem receive_need (env : Plock.Env) (plocks : Plock.Lockspace)
    (message : Message) :
    (receive env plocks message).1.needPlocks = plocks.needPlocks := by
  unfold receive
  split
  · rfl
  · rfl

theorem purgeRemoved_upToDate (env : Env) (left : List (Int32 × Reason))
    (past : ls.lastCheckpointTime ≤ now)
    (sound : Everywhere ReleasedUnowned ls.plocks) :
    (purgeRemoved env now left ls).1.lastCheckpointTime =
        ls.lastCheckpointTime ∧
      (purgeRemoved env now left ls).1.plocks.needPlocks =
        ls.plocks.needPlocks ∧
      Everywhere ReleasedUnowned (purgeRemoved env now left ls).1.plocks ∧
      (UpToDate (purgeRemoved env now left ls).1 → UpToDate ls) := by
  apply purgeRemoved_invariant fun after =>
    after.lastCheckpointTime = ls.lastCheckpointTime ∧
      after.plocks.needPlocks = ls.plocks.needPlocks ∧
      Everywhere ReleasedUnowned after.plocks ∧
      (UpToDate after → UpToDate ls)
  · intro after nodeid holds
    obtain ⟨stored, need, sound, earlier⟩ := holds
    refine ⟨stored, need, ReleasedUnowned.purgePlocks sound, ?_⟩
    intro upToDate
    rw [← stored] at past
    exact earlier (UpToDate.of_onPlocks past upToDate).2
  · exact ⟨rfl, rfl, sound, id⟩

theorem purgeRemoved_disabled (now : UInt64) (ls : Lockspace)
    (left : List (Int32 × Reason)) (disabled : env.enablePlock = false) :
    (purgeRemoved env now left ls).1 = ls := by
  induction left with
  | nil => rfl
  | cons gone later induction =>
      rw [purgeRemoved, disabled]
      exact induction

/-- Removals that keep the sections leave the plock state alone as long as the
checkpoint is up to date. -/
theorem purgeRemoved_keeps {left : List (Int32 × Reason)}
    (past : ls.lastCheckpointTime ≤ now)
    (sound : Everywhere ReleasedUnowned ls.plocks)
    (keeps : removalsKeep env.plock ls.plocks.plockResources
      (left.map Prod.fst) = true)
    (upToDate : UpToDate (purgeRemoved env now left ls).1) :
    (purgeRemoved env now left ls).1.plocks = ls.plocks := by
  cases enabled : env.enablePlock with
  | false => rw [purgeRemoved_disabled now ls left enabled]
  | true =>
      induction left with
      | nil => rfl
      | cons gone later induction =>
          simp only [List.map_cons, removalsKeep, Bool.or_eq_true,
            Bool.and_eq_true, decide_eq_true_eq] at keeps
          simp only [purgeRemoved, enabled, if_true] at upToDate ⊢
          by_cases unheld : (ls.plocks.plockResources.map
              (purgeCount gone.1 false)).sum = 0
          · obtain ⟨spared, rest⟩ := keeps.resolve_left (not_not_intro unheld)
            rw [purgePlocks_spared unheld spared] at upToDate ⊢
            exact induction rest upToDate
          · have timed := @purgePlocks_timed env.plock ls.plocks gone.1 unheld
            have before : UpToDate (ls.onPlocks now
                (purgePlocks env.plock ls.plocks gone.1 false)).1 := by
              refine (purgeRemoved_upToDate env later ?_ ?_).2.2.2 upToDate
              · exact past
              · exact ReleasedUnowned.purgePlocks sound
            exact ((UpToDate.of_onPlocks past before).1 timed).elim

theorem Current.moved {answers : Answers} {before : Lockspace} {event : Event}
    (named : env.plock.ourNodeid ≠ -1)
    (current : Current env answers.now written ls)
    (moved : Moved env answers ls event before)
    (inert : UpToDate ls → event.inert env ls.plocks = true) :
    Current env answers.now written before := by
  cases moved with
  | quiet same => exact current.same same
  | @purged index change stopped same =>
      have purged := purgeRemoved_upToDate env change.left
        (by rw [same.lastCheckpointTime]; exact current.past)
        (by rw [same.plocks]; exact current.sound)
      rw [same.lastCheckpointTime, same.plocks] at purged
      obtain ⟨stored, need, sound, earlier⟩ := purged
      refine ⟨?_, ?_, sound, ?_⟩
      · rw [stored]
        exact current.past
      · rw [need, stored]
        exact current.needing
      · intro upToDate
        have before := earlier upToDate
        rw [UpToDate, same.lastCheckpointTime, same.lastPlockTime] at before
        have kept :
            (purgeRemoved env answers.now change.left stopped).1.plocks =
              stopped.plocks := by
          apply purgeRemoved_keeps _ _ _ upToDate
          · rw [same.lastCheckpointTime]
            exact current.past
          · rw [same.plocks]
            exact current.sound
          · rw [same.plocks]
            exact inert before
        rw [kept, same.plocks]
        exact current.written before
  | received message =>
      apply current.onPlocks
      · rw [receive_need]
        exact id
      · exact current.sound.receive fun _ =>
          ReleasedUnowned.survives env.plock message
      · intro _ untimed upToDate
        have keeps := inert upToDate
        simp only [Event.inert, Bool.or_eq_true] at keeps
        unfold receive at untimed ⊢
        split
        · rfl
        · rename_i processing
          rw [if_neg processing] at untimed
          apply storePlocks_onSlot
          exact receiveSlot_section (current.sound.search _)
            (keeps.resolve_left processing) untimed
  | stored kind accepts =>
      apply current.onPlocks
      · intro need
        cases need
      · apply Everywhere.receivePlocksStored current.sound
        · intro section_ _ flagged
          cases flagged
        · exact fun message _ =>
            ReleasedUnowned.survives env.plock message
      · intro _ _ upToDate
        have need : ls.plocks.needPlocks = true := by
          simp only [acceptsPlocksStored, Bool.and_eq_true] at accepts
          exact accepts.1.1
        rw [UpToDate, current.needing need] at upToDate
        exact (UInt64.not_lt_zero upToDate).elim
  | read info =>
      apply current.onPlocks
      · exact id
      · exact current.sound.onSlot
          (ReleasedUnowned.processPlock (current.sound.search _))
      · intro _ untimed upToDate
        apply storePlocks_onSlot
        exact processPlock_section (inert upToDate) untimed
  | dropped aged =>
      obtain ⟨sound, same⟩ :=
        @dropResources_section env.plock ls.plocks aged named current.sound
      apply current.onPlocks
      · exact id
      · exact sound
      · exact fun _ _ _ => same

theorem writtenSections_append (before : List Section)
    (front back : List Effect) :
    writtenSections before (front ++ back) =
      writtenSections (writtenSections before front) back :=
  List.foldl_append

theorem writtenSections_silent {before : List Section}
    {effects : List Effect}
    (silent : ∀ sections, .storeCheckpoint sections ∉ effects) :
    writtenSections before effects = before := by
  induction effects with
  | nil => rfl
  | cons effect later induction =>
      have rest := induction fun sections member =>
        silent sections (List.mem_cons_of_mem _ member)
      cases effect with
      | storeCheckpoint sections =>
          exact (silent sections List.mem_cons_self).elim
      | _ => exact rest

theorem Current.prepared {cg : Change} {older : List Change}
    {result : Lockspace × List Effect} (current : Current env now written ls)
    (prepared : Prepared env now ls cg older result) :
    Current env now (writtenSections written result.2) result.1 := by
  have silent := @writtenSections_silent written (closed env ls cg)
    (closed_silent env ls cg)
  cases prepared with
  | disabled => exact current
  | alone =>
      exact ⟨current.past, fun need => (Bool.false_ne_true need).elim,
        current.sound, current.written⟩
  | noState =>
      rw [silent]
      exact ⟨current.past, fun need => (Bool.false_ne_true need).elim,
        current.sound, current.written⟩
  | needed plock several somebody need =>
      rw [silent]
      simp only [Plock.preparePlocks, need, if_true]
      exact ⟨current.past, fun _ => current.needing need, current.sound,
        current.written⟩
  | other =>
      rw [silent]
      exact ⟨current.past, current.needing, current.sound, current.written⟩
  | reuse =>
      rw [writtenSections_append, silent]
      exact ⟨current.past, current.needing, current.sound, current.written⟩
  | store plock several somebody ready =>
      refine ⟨UInt64.le_refl now, ?_, current.sound, fun _ => ?_⟩
      · intro need
        exact (Bool.false_ne_true (ready.symm.trans need)).elim
      · rw [writtenSections_append, writtenSections_append]
        rfl

theorem Current.apply {answers : Answers}
    (current : Current env answers.now written ls) :
    Current env answers.now
      (writtenSections written (applyChanges env answers ls).2)
      (applyChanges env answers ls).1 := by
  have settles := applyChanges_settles env answers ls
  generalize applyChanges env answers ls = result at settles ⊢
  cases settles with
  | quiet same silent =>
      rw [writtenSections_silent silent]
      exact current.same same
  | @complete cg older pending state arrived =>
      obtain ⟨result, prepared, equation⟩ :=
        completeChange_prepared env answers.now ls cg older
      have started : Current env answers.now written
          { ls with
            kernelStopped := false
            joining := ls.joining && !ls.kernelStopped } :=
        current.same ⟨rfl, rfl, rfl⟩
      rw [equation, writtenSections_append, writtenSections_append,
        writtenSections_silent (startKernel_silent ls cg older)]
      exact (started.prepared prepared).same ⟨rfl, rfl, rfl⟩

theorem Current.next {daemon : Daemon} {step : Step}
    (named : env.plock.ourNodeid ≠ -1)
    (enabled : daemonEnabled env daemon step)
    (inert : InertWhileUpToDate env daemon step)
    (current : Current env daemon.clock daemon.written daemon.ls) :
    Current env step.answers.now daemon.written
        (arrival env step.answers step.event daemon.ls).1 ∧
      Current env (daemonNext env daemon step).clock
        (daemonNext env daemon step).written
        (daemonNext env daemon step).ls := by
  have before := (current.later enabled.2).moved named
    (arrival_moved env step.answers step.event daemon.ls) inert
  refine ⟨before, ?_⟩
  simp only [daemonNext, daemonEffects,
    handle_eq step.answers daemon.ls enabled.1]
  split
  · simp only [thenApply]
    rw [writtenSections_append, writtenSections_silent arrival_silent]
    exact before.apply
  · rw [writtenSections_silent arrival_silent]
    exact before

/-- As long as the handlers that do not set `last_plock_time` leave the
sections alone, what the node last wrote is what a full store would write
whenever `store_plocks` would find its checkpoint up to date. -/
theorem reused_checkpoint_current (env : Env) (fsRegistered : Bool)
    (named : env.plock.ourNodeid ≠ -1) (daemon : Daemon) (step : Step)
    (run : (daemonSystem env).Run (InertWhileUpToDate env)
      (Daemon.start fsRegistered) daemon)
    (enabled : (daemonSystem env).enabled daemon step)
    (inert : InertWhileUpToDate env daemon step)
    (upToDate :
      UpToDate (arrival env step.answers step.event daemon.ls).1) :
    storePlocks env step.answers.now
        (arrival env step.answers step.event daemon.ls).1 =
      ((arrival env step.answers step.event daemon.ls).1, []) ∧
    daemon.written = Plock.storePlocks env.plock
      (arrival env step.answers step.event daemon.ls).1.plocks := by
  have current : Current env daemon.clock daemon.written daemon.ls := by
    apply run.invariant fun daemon =>
      Current env daemon.clock daemon.written daemon.ls
    · exact ⟨UInt64.le_refl 0, fun _ => rfl,
        List.forall_mem_nil _,
        fun upToDate => (UInt64.not_lt_zero upToDate).elim⟩
    · intro daemon step enabled inert current
      exact (current.next named enabled inert).2
  exact ⟨storePlocks_upToDate env step.answers.now upToDate,
    (current.next named enabled inert).1.written upToDate⟩

/-- Node 1 has owned resource 7 alone, and stores a checkpoint when node 2
joins. -/
def storesForSecond : List Step :=
  [⟨.confchg 0 { members := [1], left := [], joined := [1] },
      calmAnswers 1⟩,
    ⟨.info 1 (infoAbout .start 0
      { members := [1], left := [], joined := [1] }), calmAnswers 1⟩,
    ⟨.plock { type := .own, nodeid := 1, info := ownInfo 7 1 },
      calmAnswers 2⟩,
    ⟨.confchg 3 secondJoins, calmAnswers 3⟩,
    ⟨.info 1 (infoFrom .start 3 secondJoins 1), calmAnswers 3⟩,
    ⟨.info 2 (infoAbout .start 3 secondJoins), calmAnswers 10⟩]

/-- Then node 3 joins. -/
def startsForThird (index : Nat) : List Step :=
  [⟨.confchg index thirdJoins, calmAnswers 12⟩,
    ⟨.info 1 (infoFrom .start index thirdJoins 2), calmAnswers 12⟩,
    ⟨.info 2 (infoFrom .start index thirdJoins 1), calmAnswers 12⟩]

/-- The message with which node 1 completes the change. -/
def completesThird (index : Nat) : Step :=
  ⟨.info 3 (infoAbout .start index thirdJoins), calmAnswers 13⟩

/-- Node 2 takes another resource while the checkpoint counts as up to
date. -/
def secondClaims : Step :=
  ⟨.plock { type := .own, nodeid := 2, info := ownInfo 8 2 },
    calmAnswers 11⟩

theorem unchanged_checkpoint_reused :
    ((daemonSystem (plainEnv 1)).follow (Daemon.start false)
        (storesForSecond ++ startsForThird 6)).written ≠ [] ∧
      ((daemonSystem (plainEnv 1)).follow (Daemon.start false)
          (storesForSecond ++ startsForThird 6)).written =
        Plock.storePlocks (plainEnv 1).plock
          (arrival (plainEnv 1) (completesThird 6).answers
            (completesThird 6).event
            ((daemonSystem (plainEnv 1)).follow (Daemon.start false)
              (storesForSecond ++ startsForThird 6)).ls).1.plocks := by
  have run : (daemonSystem (plainEnv 1)).Run (InertWhileUpToDate (plainEnv 1))
      (Daemon.start false)
      ((daemonSystem (plainEnv 1)).follow (Daemon.start false)
        (storesForSecond ++ startsForThird 6)) :=
    System.run_of_follows (storesForSecond ++ startsForThird 6) .refl
      (by decide)
  refine ⟨by decide, ?_⟩
  exact (reused_checkpoint_current (plainEnv 1) false (by decide) _
    (completesThird 6) run (by decide) (by decide) (by decide)).2

def Effect.announces : Effect → Bool
  | .send li => li.type == .plocksStored
  | _ => false

/-- The step announces a checkpoint to nodes that were added. -/
def Announces (env : Env) (daemon : Daemon) (step : Step) : Prop :=
  nodesAdded (arrival env step.answers step.event daemon.ls).1.changes =
      true ∧
    (daemonEffects env daemon step).any Effect.announces = true

instance (env : Env) (daemon : Daemon) (step : Step) :
    Decidable (Announces env daemon step) :=
  inferInstanceAs (Decidable (_ = true ∧ _ = true))

/-- Node 1 announces its checkpoint to node 3 without the resource of
node 2. -/
theorem claim_missing_from_reused :
    ¬ ∀ daemon step,
      (daemonSystem (plainEnv 1)).Run (fun _ _ => True)
        (Daemon.start false) daemon →
      (daemonSystem (plainEnv 1)).enabled daemon step →
      Announces (plainEnv 1) daemon step →
      UpToDate (arrival (plainEnv 1) step.answers step.event daemon.ls).1 →
      daemon.written = Plock.storePlocks (plainEnv 1).plock
        (arrival (plainEnv 1) step.answers step.event
          daemon.ls).1.plocks := by
  intro current
  have run : (daemonSystem (plainEnv 1)).Run (fun _ _ => True)
      (Daemon.start false)
      ((daemonSystem (plainEnv 1)).follow (Daemon.start false)
        (storesForSecond ++ [secondClaims] ++ startsForThird 7)) :=
    System.run_of_follows
      (storesForSecond ++ [secondClaims] ++ startsForThird 7) .refl
      (by decide)
  have same := current _ (completesThird 7) run (by decide) (by decide)
    (by decide)
  have counts := congrArg List.length same
  revert counts
  decide

end Dlm.Cpg
