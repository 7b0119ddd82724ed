import Dlm.Cpg.History

/-!
# The recovery barrier

The kernel runs only between the completion of a change and the next
configuration change, and it is started only when nothing is left to be
checked with fenced or with the quorum system.  The second part holds because
the conditions are met when the newest change begins to wait for messages, and
every later failure puts a new change in front of it.
-/

namespace Dlm.Cpg

open Plock ProcessGroup

variable {env : Env} {ls : Lockspace}

structure Barrier (env : Env) (ls : Lockspace) : Prop where
  running : ls.kernelStopped = false →
    ls.changes = [] ∧ ls.startedChange.isSome = true
  settled : ∀ cg older, ls.changes = cg :: older →
    cg.state = .waitMessages → AllSettled env ls.nodeHistory

theorem Barrier.new (env : Env) (fsRegistered : Bool) :
    Barrier env (Lockspace.new fsRegistered) := by
  constructor
  · intro running
    cases running
  · intro cg older pending
    cases pending

/-- While a change is pending the kernel is stopped. -/
theorem Barrier.stopped {cg : Change} {older : List Change}
    (barrier : Barrier env ls) (pending : ls.changes = cg :: older) :
    ls.kernelStopped = true := by
  cases stopped : ls.kernelStopped with
  | true => rfl
  | false =>
      have empty := (barrier.running stopped).1
      rw [pending] at empty
      cases empty

theorem Barrier.apply (answers : Answers) (barrier : Barrier env ls) :
    Barrier env (applyChanges env answers ls).1 := by
  have applied := applyChanges_applied env answers ls
  generalize applyChanges env answers ls = result at applied ⊢
  cases applied with
  | idle => exact barrier
  | begin pending state done =>
      constructor
      · intro running
        rw [barrier.stopped pending] at running
        cases running
      · intro _ _ _ _
        exact waitConditionsDone_settles done
  | wait pending state =>
      constructor
      · exact barrier.running
      · intro cg older found waits
        cases pending.symm.trans found
        rw [state] at waits
        cases waits
  | collect => exact barrier
  | @complete cg older pending state arrived =>
      have closed := completeChange_closed env answers.now ls cg older
      constructor
      · intro _
        exact ⟨closed.changes, by rw [closed.startedChange]; rfl⟩
      · intro cg older found
        rw [closed.changes] at found
        cases found

theorem Barrier.update {history : List Node} {test : Change → Bool}
    {change : Change → Change} (barrier : Barrier env ls)
    (same : ∀ cg, (change cg).state = cg.state)
    (kept : AllSettled env ls.nodeHistory → AllSettled env history) :
    Barrier env
      { ls with
        nodeHistory := history
        changes := updateOldest test change ls.changes } := by
  have states := @map_updateOldest CgState test change Change.state same
    ls.changes
  constructor
  · intro running
    obtain ⟨empty, set⟩ := barrier.running running
    rw [empty]
    exact ⟨rfl, set⟩
  · intro cg older found waits
    change updateOldest test change ls.changes = cg :: older at found
    rw [found] at states
    cases pending : ls.changes with
    | nil =>
        rw [pending] at states
        cases states
    | cons newest rest =>
        rw [pending] at states
        obtain ⟨first, _⟩ := List.cons.inj states
        exact kept (barrier.settled newest rest pending (first ▸ waits))

theorem Barrier.receiveStart (barrier : Barrier env ls) (now : UInt64)
    (sender : Int32) (li : LsInfo) :
    Barrier env (receiveStart env now sender li ls) := by
  have marked := receiveStart_marked env now sender li ls
  generalize Cpg.receiveStart env now sender li ls = after at marked ⊢
  cases marked with
  | unmatched => exact barrier
  | refused => exact barrier.update (fun _ => rfl) id
  | started =>
      exact barrier.update (fun _ => rfl) fun settled => settled.start now sender

theorem Barrier.sameControl {after : Lockspace} (barrier : Barrier env ls)
    (same : SameControl ls after) :
    Barrier env after := by
  constructor
  · rw [same.kernelStopped, same.changes, same.startedChange]
    exact barrier.running
  · rw [same.changes, same.nodeHistory]
    exact barrier.settled

theorem Barrier.arrived {answers : Answers} {before : Lockspace}
    {event : Event} (barrier : Barrier env ls)
    (arrived : Arrived env answers ls event before) :
    Barrier env before := by
  cases arrived with
  | confchg fresh opened =>
      constructor
      · intro running
        rw [opened.kernelStopped] at running
        cases running
      · intro cg older found waits
        rw [opened.changes] at found
        cases found
        rw [fresh.state] at waits
        cases waits
  | start => exact barrier.receiveStart ..
  | plocks same => exact barrier.sameControl same
  | registered => exact ⟨barrier.running, barrier.settled⟩
  | notified nodeid =>
      refine ⟨barrier.running, ?_⟩
      intro cg older found waits
      exact (barrier.settled cg older found waits).setFsNotified nodeid

/-- When `apply_changes` starts the kernel, nothing is left to be checked. -/
theorem Barrier.starts {answers : Answers} (barrier : Barrier env ls)
    (starts : .setSysfsControl true ∈ (applyChanges env answers ls).2) :
    AllSettled env (applyChanges env answers ls).1.nodeHistory := by
  have applied := applyChanges_applied env answers ls
  generalize applyChanges env answers ls = result at applied starts ⊢
  cases applied with
  | idle => cases starts
  | begin =>
      cases List.mem_singleton.mp starts
  | wait => cases starts
  | collect => cases starts
  | @complete cg older pending state =>
      rw [(completeChange_closed env answers.now ls cg older).nodeHistory]
      exact barrier.settled cg older pending state

theorem Barrier.step {daemon : Daemon} {step : Step}
    (barrier : Barrier env daemon.ls)
    (enabled : (daemonSystem env).enabled daemon step) :
    Barrier env (daemonNext env daemon step).ls := by
  have arrived := arrival_arrived step.answers daemon.ls enabled.1
  have before := barrier.arrived arrived
  simp only [daemonNext, handle_eq step.answers daemon.ls enabled.1]
  split
  · exact before.apply step.answers
  · exact before

theorem barrier_of_run {fsRegistered : Bool} {daemon : Daemon}
    (run : (daemonSystem env).Run (fun _ _ => True)
      (Daemon.start fsRegistered) daemon) :
    Barrier env daemon.ls := by
  apply run.invariant (fun daemon => Barrier env daemon.ls)
  · exact Barrier.new env fsRegistered
  · intro daemon step enabled _ barrier
    exact barrier.step enabled

/-- In every state that a daemon reaches, a running kernel means that no change
is pending and one has been started; and an event that starts the kernel
leaves no entry of the history to be checked with fenced or with the quorum
system.  Nothing touches the history between the start of the kernel and the
end of the handler. -/
theorem recovery_barrier (env : Env) (fsRegistered : Bool) (daemon : Daemon)
    (run : (daemonSystem env).Run (fun _ _ => True)
      (Daemon.start fsRegistered) daemon) :
    (daemon.ls.kernelStopped = false →
      daemon.ls.changes = [] ∧ daemon.ls.startedChange.isSome = true) ∧
    ∀ step, (daemonSystem env).enabled daemon step →
      .setSysfsControl true ∈ daemonEffects env daemon step →
      ∀ node ∈ (daemonNext env daemon step).ls.nodeHistory,
        (env.enableFencing = true → node.checkFencing = false) ∧
          (env.enableQuorum = true → node.checkQuorum = false) := by
  have barrier := barrier_of_run run
  refine ⟨barrier.running, ?_⟩
  intro step enabled starts
  have arrived := arrival_arrived step.answers daemon.ls enabled.1
  have before := barrier.arrived arrived
  simp only [daemonEffects, daemonNext,
    handle_eq step.answers daemon.ls enabled.1] at starts ⊢
  split at starts
  · rename_i applies
    rw [if_pos applies]
    rcases List.mem_append.mp starts with early | late
    · cases arrival_effects early
    · exact before.starts late
  · cases arrival_effects starts

/-- Nodes 1 and 2 start, and node 2 fails. -/
def pairLosesTwo : List Step :=
  [⟨.confchg 0 (formed [1, 2]), calmAnswers 100⟩,
    ⟨.info 1 (infoAbout .start 0 (formed [1, 2])), calmAnswers 110⟩,
    ⟨.info 2 (infoAbout .start 0 (formed [1, 2])), calmAnswers 110⟩,
    ⟨.confchg 3 loseTwo, calmAnswers 120⟩]

def afterLoss : Daemon :=
  (daemonSystem (plainEnv 1)).follow (Daemon.start false) pairLosesTwo

/-- A poll finds node 2 fenced. -/
def afterFencing : Daemon :=
  (daemonSystem (plainEnv 1)).follow (Daemon.start false)
    (pairLosesTwo ++ [⟨.poll, fencedAnswers 130 125⟩])

/-- The start message of node 1, which is alone now. -/
def startAlone : Step :=
  ⟨.info 1 (infoFrom .start 3 loseTwo 1), fencedAnswers 140 125⟩

/-- The kernel starts again when the failed node is settled. -/
theorem kernel_starts_settled :
    (∃ node ∈ afterLoss.ls.nodeHistory, node.checkFencing = true) ∧
      .setSysfsControl true ∈ daemonEffects (plainEnv 1) afterFencing
        startAlone ∧
      AllSettled (plainEnv 1)
        (daemonNext (plainEnv 1) afterFencing startAlone).ls.nodeHistory := by
  have run : (daemonSystem (plainEnv 1)).Run (fun _ _ => True)
      (Daemon.start false) afterFencing :=
    System.run_of_follows _ .refl (by decide)
  have starts : .setSysfsControl true ∈
      daemonEffects (plainEnv 1) afterFencing startAlone := by
    decide
  refine ⟨by decide, starts, ?_⟩
  exact (recovery_barrier (plainEnv 1) false afterFencing run).2 startAlone
    (by decide) starts

end Dlm.Cpg
