import Dlm.Cpg.Steps

/-!
# The main loop and its timeout

A lockspace whose conditions are not met is looked at again once a second, as
long as one of the globals `poll_fencing`, `poll_quorum` and `poll_fs` is set.
The three are shared by all lockspaces of the daemon and written by every call
of `wait_conditions_done`.  The system of this file is the main loop with all
its lockspaces: `poll` returns, the work functions run, and the bottom of the
loop chooses the timeout of the next `poll`.
-/

namespace Dlm.Cpg

open Plock ProcessGroup

variable {env : Env} {daemon : Daemon}

/-- `poll_fencing`, `poll_quorum` and `poll_fs`. -/
structure PollFlags where
  fencing : Bool
  quorum : Bool
  fs : Bool
  deriving DecidableEq, Repr

def PollFlags.any (polls : PollFlags) : Bool :=
  polls.fencing || polls.quorum || polls.fs

/-- The flags that `wait_conditions_done` leaves. -/
def waitConditionsPolls (env : Env) (answers : Answers) (fsRegistered : Bool)
    (history : List Node) (polls : PollFlags) : PollFlags :=
  let (fencingDone, history) := checkFencingDone env answers history
  if !fencingDone then { polls with fencing := true }
  else
    let polls := { polls with fencing := false }
    let (quorumDone, history) := checkQuorumDone env answers history
    if !quorumDone then { polls with quorum := true }
    else
      let polls := { polls with quorum := false }
      { polls with fs := !(checkFsDone fsRegistered history).1 }

/-- The newest change is in `CGST_WAIT_CONDITIONS`. -/
def Lockspace.waiting (ls : Lockspace) : Bool :=
  ls.changes.head?.any (·.state == .waitConditions)

/-- The flags that `apply_changes` leaves. -/
def applyPolls (env : Env) (answers : Answers) (ls : Lockspace)
    (polls : PollFlags) : PollFlags :=
  if ls.waiting then
    waitConditionsPolls env answers ls.fsRegistered ls.nodeHistory polls
  else polls

/-- The flags that the handler of an event leaves: only `apply_changes`
changes them. -/
def handlePolls (env : Env) (answers : Answers) (event : Event)
    (ls : Lockspace) (polls : PollFlags) : PollFlags :=
  if event.applies then
    applyPolls env answers (arrival env answers event ls).1 polls
  else polls

/-- `process_lockspace_changes`, on every lockspace with what its
surroundings answer. -/
def processLockspaceChanges (env : Env) :
    List (Daemon × Answers) → PollFlags → List Daemon × PollFlags
  | [], polls => ([], polls)
  | (daemon, answers) :: later, polls =>
      if daemon.ls.changes.isEmpty then
        let (later, polls) := processLockspaceChanges env later polls
        (daemon :: later, polls)
      else
        let (later, polls) :=
          processLockspaceChanges env later
            (applyPolls env answers daemon.ls polls)
        (daemonNext env daemon ⟨.poll, answers⟩ :: later, polls)

/-- Where the main loop is: in `poll` with a timeout, or behind it. -/
inductive Phase where
  | polling (timeout : Int)
  | working
  deriving DecidableEq, Repr

/-- The lockspaces of a daemon, the one joined last in front. -/
structure Host where
  spaces : List Daemon
  polls : PollFlags
  phase : Phase

def Host.start : Host :=
  { spaces := []
    polls := { fencing := false, quorum := false, fs := false }
    phase := .polling (-1) }

/-- What happens in the main loop.  `bottom` is what follows the work
functions; its flag is `poll_ignore_plock`. -/
inductive HostStep where
  | wake
  | join (fsRegistered : Bool)
  | leave (position : Nat)
  | work (position : Nat) (step : Step)
  | bottom (answers : List Answers) (ignorePlock : Bool)

def hostEnabled (env : Env) (host : Host) : HostStep → Prop
  | .wake => host.phase ≠ .working
  | .join _ => host.phase = .working
  | .leave _ => host.phase = .working
  | .work position step =>
      host.phase = .working ∧
        match host.spaces[position]? with
        | some daemon => daemonEnabled env daemon step
        | none => False
  | .bottom answers _ =>
      host.phase = .working ∧ answers.length = host.spaces.length ∧
        ∀ pair ∈ host.spaces.zip answers, pair.1.clock ≤ pair.2.now

def hostNext (env : Env) (host : Host) : HostStep → Host
  | .wake => { host with phase := .working }
  | .join fsRegistered =>
      { host with spaces := Daemon.start fsRegistered :: host.spaces }
  | .leave position =>
      { host with spaces := host.spaces.eraseIdx position }
  | .work position step =>
      { host with
        spaces := host.spaces.modify position (daemonNext env · step)
        polls :=
          match host.spaces[position]? with
          | some daemon =>
              handlePolls env step.answers step.event daemon.ls host.polls
          | none => host.polls }
  | .bottom answers ignorePlock =>
      let timeout := if ignorePlock then 1000 else -1
      if host.polls.any then
        let (spaces, polls) :=
          processLockspaceChanges env (host.spaces.zip answers) host.polls
        { spaces := spaces, polls := polls, phase := .polling 1000 }
      else { host with phase := .polling timeout }

def hostSystem (env : Env) : System Host HostStep :=
  { enabled := hostEnabled env
    next := hostNext env }

/-- What `wait_conditions_done` returns in `apply_changes`, if it is
called. -/
def applyOutcome (env : Env) (answers : Answers) (ls : Lockspace) :
    Option Bool :=
  if ls.waiting then
    some (waitConditionsDone env answers ls.fsRegistered ls.nodeHistory).1
  else none

/-- The same in the handler of an event. -/
def handleOutcome (env : Env) (step : Step) (ls : Lockspace) : Option Bool :=
  if step.event.applies then
    applyOutcome env step.answers (arrival env step.answers step.event ls).1
  else none

/-- What the calls in `process_lockspace_changes` return. -/
def processOutcomes (env : Env) (pairs : List (Daemon × Answers)) :
    List Bool :=
  pairs.filterMap fun pair => applyOutcome env pair.2 pair.1.ls

/-- The steps that do not clear a flag on which a lockspace relies: when a work
function finds the conditions of its lockspace met, no other lockspace is
waiting, and when the last call in `process_lockspace_changes` returns 1, so
do all others. -/
def KeepsPolls (env : Env) (host : Host) : HostStep → Prop
  | .work position step =>
      host.spaces[position]?.bind (handleOutcome env step ·.ls) = some true →
        (host.spaces.eraseIdx position).any (·.ls.waiting) = false
  | .bottom answers _ =>
      host.polls.any = true →
        (processOutcomes env (host.spaces.zip answers)).getLast? =
            some true →
          ∀ done ∈ processOutcomes env (host.spaces.zip answers), done = true
  | _ => True

theorem waitConditionsPolls_any (env : Env) (answers : Answers)
    (fsRegistered : Bool) (history : List Node) (polls : PollFlags) :
    (waitConditionsPolls env answers fsRegistered history polls).any =
      !(waitConditionsDone env answers fsRegistered history).1 := by
  unfold waitConditionsPolls waitConditionsDone
  cases checkFencingDone env answers history with
  | mk fencingDone history =>
      cases fencingDone with
      | false => simp [PollFlags.any]
      | true =>
          cases shape : checkQuorumDone env answers history with
          | mk quorumDone history =>
              cases quorumDone with
              | false => simp [PollFlags.any, shape]
              | true => simp [PollFlags.any, shape]

/-- After `apply_changes` some flag is set exactly if the call returned 0 or
some flag had been set and there was no call. -/
theorem applyPolls_any (env : Env) (answers : Answers) (ls : Lockspace)
    (polls : PollFlags) :
    (applyPolls env answers ls polls).any =
      ((applyOutcome env answers ls).map (!·)).getD polls.any := by
  unfold applyPolls applyOutcome
  split
  · exact waitConditionsPolls_any ..
  · rfl

theorem handlePolls_any (env : Env) (step : Step) (ls : Lockspace)
    (polls : PollFlags) :
    (handlePolls env step.answers step.event ls polls).any =
      ((handleOutcome env step ls).map (!·)).getD polls.any := by
  unfold handlePolls handleOutcome
  split
  · exact applyPolls_any ..
  · rfl

/-- A lockspace is waiting after `apply_changes` exactly if the call returned
0. -/
theorem applyChanges_waiting (env : Env) (answers : Answers)
    (ls : Lockspace) :
    (applyChanges env answers ls).1.waiting =
      (applyOutcome env answers ls == some false) := by
  have applied := applyChanges_applied env answers ls
  generalize applyChanges env answers ls = result at applied ⊢
  cases applied with
  | idle empty => simp [applyOutcome, Lockspace.waiting, empty]
  | begin pending state done =>
      simp [applyOutcome, Lockspace.waiting, pending, state, done]
  | wait pending state unmet =>
      simp [applyOutcome, Lockspace.waiting, pending, state, unmet]
  | collect pending state missing =>
      simp [applyOutcome, Lockspace.waiting, pending, state]
  | @complete cg older pending state arrived =>
      have closed := completeChange_closed env answers.now ls cg older
      simp [applyOutcome, Lockspace.waiting, pending, state, closed.changes]

/-- A handler without `apply_changes` leaves the newest change as it is. -/
theorem arrival_waiting {answers : Answers} {event : Event} (ls : Lockspace)
    (plain : event.applies = false) :
    (arrival env answers event ls).1.waiting = ls.waiting := by
  unfold Lockspace.waiting
  cases event with
  | confchg | info | plock | poll => cases plain
  | read info =>
      simp only [arrival, handle]
      split
      · rfl
      · rfl
  | drop aged =>
      simp only [arrival, handle]
      split
      · rfl
      · rfl
  | fsRegister | fsUnregister | fsNotified => rfl

/-- A lockspace that is waiting after a handler was waiting before it or has
been found to wait by it. -/
theorem handle_waiting {step : Step}
    (possible : step.event.Possible env daemon.view)
    (waits : (daemonNext env daemon step).ls.waiting = true) :
    handleOutcome env step daemon.ls = some false ∨
      handleOutcome env step daemon.ls = none ∧
        daemon.ls.waiting = true := by
  change (handle env step.answers step.event daemon.ls).1.waiting = true
    at waits
  rw [handle_eq step.answers daemon.ls possible] at waits
  unfold handleOutcome
  cases applies : step.event.applies with
  | true =>
      left
      rw [applies, if_pos rfl] at waits
      exact beq_iff_eq.mp ((applyChanges_waiting ..).symm.trans waits)
  | false =>
      right
      rw [applies, if_neg Bool.false_ne_true] at waits
      exact ⟨rfl, (arrival_waiting daemon.ls applies).symm.trans waits⟩

theorem any_modify {spaces : List Daemon} {position : Nat}
    (here : spaces[position]? = some daemon) (change : Daemon → Daemon)
    (test : Daemon → Bool) :
    (spaces.modify position change).any test =
      (test (change daemon) || (spaces.eraseIdx position).any test) := by
  induction spaces generalizing position with
  | nil => cases here
  | cons head tail induction =>
      cases position with
      | zero =>
          cases here
          rfl
      | succ position =>
          simp only [List.modify_succ_cons, List.any_cons,
            List.eraseIdx_cons_succ]
          rw [induction here, Bool.or_left_comm]

/-- After `process_lockspace_changes` somebody is waiting exactly if some call
returned 0, and the flags are those of the last call. -/
theorem processLockspaceChanges_spec (env : Env)
    (pairs : List (Daemon × Answers)) (polls : PollFlags) :
    (processLockspaceChanges env pairs polls).1.any (·.ls.waiting) =
        (processOutcomes env pairs).any (!·) ∧
      (processLockspaceChanges env pairs polls).2.any =
        ((processOutcomes env pairs).getLast?.map (!·)).getD polls.any := by
  induction pairs generalizing polls with
  | nil => exact ⟨rfl, rfl⟩
  | cons pair later induction =>
      obtain ⟨daemon, answers⟩ := pair
      have after : (daemonNext env daemon ⟨.poll, answers⟩).ls.waiting =
          (applyOutcome env answers daemon.ls == some false) :=
        applyChanges_waiting env answers daemon.ls
      have flags := applyPolls_any env answers daemon.ls polls
      unfold processLockspaceChanges
      by_cases none_ : daemon.ls.changes.isEmpty
      · have calm : daemon.ls.waiting = false := by
          simp [Lockspace.waiting, List.isEmpty_iff.mp none_]
        have skipped : processOutcomes env ((daemon, answers) :: later) =
            processOutcomes env later := by
          simp [processOutcomes, applyOutcome, calm]
        rw [if_pos none_, skipped]
        simpa [calm] using induction polls
      · rw [if_neg none_]
        obtain ⟨waits, last⟩ :=
          induction (applyPolls env answers daemon.ls polls)
        simp only [List.any_cons, after, waits, last, flags]
        cases outcome : applyOutcome env answers daemon.ls with
        | none => simp [processOutcomes, outcome]
        | some done =>
            simp only [processOutcomes, List.filterMap_cons, outcome]
            rw [List.getLast?_cons]
            constructor
            · cases done with
              | false => rfl
              | true => rfl
            · cases (List.filterMap
                  (fun pair => applyOutcome env pair.2 pair.1.ls)
                  later).getLast? with
              | none => rfl
              | some value => rfl

/-- While somebody is waiting a flag is set, and nobody is waiting while the
loop is in `poll` without a timeout. -/
structure Watched (host : Host) : Prop where
  polled : host.spaces.any (·.ls.waiting) = true → host.polls.any = true
  blocked : host.phase = .polling (-1) →
    host.spaces.any (·.ls.waiting) = false

theorem watched_work {host : Host} {position : Nat} {step : Step}
    (here : host.spaces[position]? = some daemon)
    (possible : step.event.Possible env daemon.view)
    (keeps : KeepsPolls env host (.work position step))
    (watched : Watched host)
    (waits : (host.spaces.modify position (daemonNext env · step)).any
      (·.ls.waiting) = true) :
    (handlePolls env step.answers step.event daemon.ls host.polls).any =
      true := by
  rw [handlePolls_any]
  rw [any_modify here, Bool.or_eq_true] at waits
  have before := any_modify here id (·.ls.waiting)
  rw [List.modify_id] at before
  cases outcome : handleOutcome env step daemon.ls with
  | none =>
      apply watched.polled
      rw [before, Bool.or_eq_true]
      rcases waits with self | others
      · rcases handle_waiting possible self with found | ⟨_, waited⟩
        · cases outcome.symm.trans found
        · exact .inl waited
      · exact .inr others
  | some done =>
      cases done with
      | false => rfl
      | true =>
          have alone := keeps (by rw [here]; exact outcome)
          rcases waits with self | others
          · rcases handle_waiting possible self with found | ⟨found, _⟩
            · cases outcome.symm.trans found
            · cases outcome.symm.trans found
          · cases alone.symm.trans others

theorem watched_bottom {pairs : List (Daemon × Answers)} {polls : PollFlags}
    (set : polls.any = true)
    (keeps : (processOutcomes env pairs).getLast? = some true →
      ∀ done ∈ processOutcomes env pairs, done = true)
    (waits : (processLockspaceChanges env pairs polls).1.any
      (·.ls.waiting) = true) :
    (processLockspaceChanges env pairs polls).2.any = true := by
  obtain ⟨left, last⟩ := processLockspaceChanges_spec env pairs polls
  rw [last]
  cases final : (processOutcomes env pairs).getLast? with
  | none => exact set
  | some done =>
      cases done with
      | false => rfl
      | true =>
          rw [left] at waits
          obtain ⟨done, member, unmet⟩ := List.any_eq_true.mp waits
          rw [keeps final done member] at unmet
          cases unmet

theorem Watched.next {host : Host} {step : HostStep}
    (enabled : hostEnabled env host step) (keeps : KeepsPolls env host step)
    (watched : Watched host) : Watched (hostNext env host step) := by
  cases step with
  | wake =>
      exact ⟨watched.polled, fun working => Phase.noConfusion working⟩
  | join fsRegistered =>
      refine ⟨watched.polled, fun idle => ?_⟩
      cases Eq.trans (Eq.symm enabled) idle
  | leave position =>
      refine ⟨fun waits => watched.polled ?_, fun idle => ?_⟩
      · obtain ⟨daemon, member, waiting⟩ := List.any_eq_true.mp waits
        exact List.any_eq_true.mpr
          ⟨daemon, List.mem_of_mem_eraseIdx member, waiting⟩
      · cases Eq.trans (Eq.symm enabled) idle
  | work position step =>
      obtain ⟨working, able⟩ := enabled
      refine ⟨fun waits => ?_, fun idle => ?_⟩
      · cases here : host.spaces[position]? with
        | none =>
            rw [here] at able
            exact able.elim
        | some daemon =>
            rw [here] at able
            simp only [hostNext, here]
            exact watched_work here able.1 keeps watched waits
      · cases working.symm.trans idle
  | bottom answers ignorePlock =>
      cases set : host.polls.any with
      | true =>
          simp only [hostNext, set, if_true]
          refine ⟨watched_bottom set (keeps set), fun idle => ?_⟩
          cases idle
      | false =>
          have calm : host.spaces.any (·.ls.waiting) = false := by
            cases waits : host.spaces.any (·.ls.waiting) with
            | false => rfl
            | true => exact (watched.polled waits).symm.trans set
          simp only [hostNext, set, Bool.false_eq_true, if_false]
          exact ⟨watched.polled, fun _ => calm⟩

/-- In a run that never clears a flag on which a lockspace relies, a flag is
set while some newest change waits for its conditions, and the main loop never
blocks without a timeout then. -/
theorem waiting_change_polled (env : Env) (host : Host)
    (run : (hostSystem env).Run (KeepsPolls env) Host.start host) :
    (∀ daemon ∈ host.spaces, daemon.ls.waiting = true →
        host.polls.any = true) ∧
      (host.phase = .polling (-1) →
        ∀ daemon ∈ host.spaces, daemon.ls.waiting = false) := by
  have watched := run.invariant Watched
    ⟨fun waits => Bool.noConfusion waits, fun _ => rfl⟩
    fun _ _ enabled keeps watched => watched.next enabled keeps
  constructor
  · intro daemon member waits
    exact watched.polled (List.any_eq_true.mpr ⟨daemon, member, waits⟩)
  · intro idle daemon member
    have calm := List.any_eq_false.mp (watched.blocked idle) daemon member
    exact Bool.eq_false_iff.mpr calm

instance (env : Env) (host : Host) (step : HostStep) :
    Decidable ((hostSystem env).enabled host step) :=
  match step with
  | .wake => inferInstanceAs (Decidable (_ ≠ _))
  | .join _ => inferInstanceAs (Decidable (_ = _))
  | .leave _ => inferInstanceAs (Decidable (_ = _))
  | .work position step =>
      @instDecidableAnd _ _ inferInstance
        (match host.spaces[position]? with
        | some daemon =>
            inferInstanceAs (Decidable ((daemonSystem env).enabled daemon step))
        | none => isFalse id)
  | .bottom _ _ => inferInstanceAs (Decidable (_ ∧ _ ∧ _))

instance (env : Env) (host : Host) (step : HostStep) :
    Decidable (KeepsPolls env host step) := by
  rcases step <;> unfold KeepsPolls <;> infer_instance

/-- Node 1 shares the lockspace of a file system with node 2, which fails and
is fenced.  The lockspace waits until the file system daemon knows. -/
def untilFsWaits : List HostStep :=
  [.wake, .join true,
    .work 0 ⟨.confchg 0 (formed [1, 2]), calmAnswers 100⟩,
    .work 0 ⟨.info 1 (infoAbout .start 0 (formed [1, 2])), calmAnswers 110⟩,
    .work 0 ⟨.info 2 (infoAbout .start 0 (formed [1, 2])), calmAnswers 110⟩,
    .work 0 ⟨.confchg 3 loseTwo, fencedAnswers 120 115⟩]

/-- Then node 1 joins another lockspace, in which nothing has failed. -/
def anotherJoins : List HostStep :=
  [.join false, .work 0 ⟨.confchg 0 (formed [1]), fencedAnswers 130 115⟩,
    .bottom [calmAnswers 140, calmAnswers 140] false]

/-- The main loop after some steps. -/
def hostAfter (steps : List HostStep) : Host :=
  (hostSystem (plainEnv 1)).follow Host.start steps

/-- The lockspace of the file system is polled as long as it is alone. -/
theorem fs_waiting_polled :
    (hostAfter untilFsWaits).spaces.any (·.ls.waiting) = true ∧
      (∀ daemon ∈ (hostAfter untilFsWaits).spaces,
        daemon.ls.waiting = true →
          (hostAfter untilFsWaits).polls.any = true) ∧
      ((hostAfter untilFsWaits).phase = .polling (-1) →
        ∀ daemon ∈ (hostAfter untilFsWaits).spaces,
          daemon.ls.waiting = false) :=
  ⟨by decide,
    waiting_change_polled (plainEnv 1) (hostAfter untilFsWaits)
      (System.run_of_follows untilFsWaits .refl (by decide))⟩

/-- The start of the second lockspace clears the flag on which the first one
relies, and the main loop blocks for good. -/
theorem another_lockspace_stops_polling :
    (hostSystem (plainEnv 1)).Run (fun _ _ => True) Host.start
        (hostAfter (untilFsWaits ++ anotherJoins)) ∧
      (hostAfter (untilFsWaits ++ anotherJoins)).phase = .polling (-1) ∧
      (hostAfter (untilFsWaits ++ anotherJoins)).polls.any = false ∧
      (hostAfter (untilFsWaits ++ anotherJoins)).spaces.map
        (·.ls.waiting) = [false, true] :=
  ⟨System.run_of_follows (untilFsWaits ++ anotherJoins) .refl (by decide),
    by decide, by decide, by decide⟩

end Dlm.Cpg
