import Dlm.Cpg.History

/-!
# Acknowledgement by the file system daemon

A failure sets `check_fs` in the history entry of the node, and the start has
to wait until the file system daemon sets `fs_notified` there.  An entry that
waits keeps waiting through every event but that acknowledgement.
-/

namespace Dlm.Cpg

open Plock ProcessGroup

variable {nodeid : Int32} {change : Node → Node} {history later : List Node}
  {env : Env} {ls : Lockspace} {daemon : Daemon}

/-- An entry later on: it has the same acknowledgement, and if it waits for
one it still does. -/
structure Persists (node later : Node) : Prop where
  nodeid : later.nodeid = node.nodeid
  fsNotified : later.fsNotified = node.fsNotified
  checkFs : node.checkFs = true → node.fsNotified = false →
    later.checkFs = true

theorem Persists.refl (node : Node) : Persists node node :=
  ⟨rfl, rfl, fun waits _ => waits⟩

theorem Persists.trans {first second third : Node}
    (front : Persists first second) (back : Persists second third) :
    Persists first third :=
  ⟨back.nodeid.trans front.nodeid, back.fsNotified.trans front.fsNotified,
    fun waits unset => back.checkFs (front.checkFs waits unset)
      (front.fsNotified.trans unset)⟩

/-- The entry of a node persists in a later history. -/
def Lasts (nodeid : Int32) (history later : List Node) : Prop :=
  ∀ node, getNodeHistory history nodeid = some node →
    ∃ kept, getNodeHistory later nodeid = some kept ∧ Persists node kept

theorem Lasts.refl (nodeid : Int32) (history : List Node) :
    Lasts nodeid history history :=
  fun node found => ⟨node, found, .refl node⟩

theorem Lasts.trans {first second third : List Node}
    (front : Lasts nodeid first second) (back : Lasts nodeid second third) :
    Lasts nodeid first third := by
  intro node found
  obtain ⟨middle, middleFound, persists⟩ := front node found
  obtain ⟨last, lastFound, further⟩ := back middle middleFound
  exact ⟨last, lastFound, persists.trans further⟩

theorem getNodeHistory_updateNode
    (keeps : ∀ node, (change node).nodeid = node.nodeid) (history : List Node)
    (changed nodeid : Int32) :
    getNodeHistory (updateNode changed change history) nodeid =
      if changed = nodeid then (getNodeHistory history nodeid).map change
      else getNodeHistory history nodeid :=
  find?_modifyFirst keeps history changed nodeid

theorem Lasts.update (persists : ∀ node, Persists node (change node))
    (history : List Node) (changed : Int32) :
    Lasts nodeid history (updateNode changed change history) := by
  intro node found
  rw [getNodeHistory_updateNode (fun node => (persists node).nodeid)]
  split
  · exact ⟨change node, by rw [found]; rfl, persists node⟩
  · exact ⟨node, found, .refl node⟩

theorem failNode_persists (env : Env) (fsRegistered : Bool) (node : Node) :
    Persists node (failNode env fsRegistered node) := by
  unfold failNode
  cases fsRegistered with
  | false =>
      split
      · split
        · exact ⟨rfl, rfl, fun waits _ => waits⟩
        · exact ⟨rfl, rfl, fun waits _ => waits⟩
      · split
        · exact ⟨rfl, rfl, fun waits _ => waits⟩
        · exact ⟨rfl, rfl, fun waits _ => waits⟩
  | true =>
      split
      · split
        · exact ⟨rfl, rfl, fun _ _ => rfl⟩
        · exact ⟨rfl, rfl, fun _ _ => rfl⟩
      · split
        · exact ⟨rfl, rfl, fun _ _ => rfl⟩
        · exact ⟨rfl, rfl, fun _ _ => rfl⟩

theorem Lasts.start (history : List Node) (now : UInt64) (sender : Int32) :
    Lasts nodeid history (nodeHistoryStart now history sender) := by
  apply Lasts.update
  intro node
  exact ⟨rfl, rfl, fun waits _ => waits⟩

theorem Lasts.init (history : List Node) (new : Int32) :
    Lasts nodeid history (nodeHistoryInit history new) := by
  intro node found
  refine ⟨node, ?_, .refl node⟩
  unfold nodeHistoryInit
  split
  · exact found
  · rw [getNodeHistory, List.find?_append]
    change ((getNodeHistory history nodeid).or _) = _
    rw [found]
    rfl

theorem Lasts.inits (history : List Node) (members : List Int32) :
    Lasts nodeid history (members.foldl nodeHistoryInit history) := by
  induction members generalizing history with
  | nil => exact .refl nodeid history
  | cons new later induction =>
      exact (Lasts.init history new).trans (induction _)

theorem Lasts.gone (env : Env) (fsRegistered : Bool) (history : List Node)
    (gone : Int32 × Reason) :
    Lasts nodeid history (nodeHistoryGone env fsRegistered history gone) := by
  unfold nodeHistoryGone
  split
  · apply Lasts.update
    exact failNode_persists env fsRegistered
  · apply Lasts.update
    intro node
    exact ⟨rfl, rfl, fun waits _ => waits⟩

theorem Lasts.left (env : Env) (fsRegistered : Bool)
    (left : List (Int32 × Reason)) (history : List Node) :
    Lasts nodeid history (addLeft env fsRegistered left history) := by
  induction left generalizing history with
  | nil => exact .refl nodeid history
  | cons gone later induction =>
      exact (Lasts.gone env fsRegistered history gone).trans (induction _)

theorem Lasts.joined (env : Env) (joined : List Int32) (members : List Member)
    (history : List Node) :
    Lasts nodeid history (addJoined env joined members history).2 := by
  induction joined generalizing members history with
  | nil => exact .refl nodeid history
  | cons new later induction =>
      rw [addJoined]
      split
      · refine Lasts.trans ?_ (induction _ _)
        split
        · exact .refl nodeid history
        · exact Lasts.init history new
      · exact .refl nodeid history

theorem Lasts.confchg (env : Env) (fsRegistered : Bool)
    (change : Confchg Int32) (history : List Node) :
    Lasts nodeid (addLeft env fsRegistered change.left history)
      (confchgHistory env fsRegistered change history) := by
  have joined := @Lasts.joined nodeid env change.joined
    (change.members.map Member.new)
    (addLeft env fsRegistered change.left history)
  unfold confchgHistory
  split
  · exact joined.trans (Lasts.inits _ _)
  · exact joined

/-- A history whose entries persist one by one. -/
theorem Lasts.pointwise (pointwise : List.Forall₂ Persists history later) :
    Lasts nodeid history later := by
  induction pointwise with
  | nil => exact .refl nodeid []
  | @cons node kept rest keptRest persists _ induction =>
      intro found equation
      rw [getNodeHistory, List.find?_cons] at equation
      rw [getNodeHistory, List.find?_cons, persists.nodeid]
      split at equation
      · cases equation
        exact ⟨kept, rfl, persists⟩
      · exact induction found equation

theorem checkFencingLoop_persists (answers : Answers) (calls : Nat)
    (lastFencedTime : UInt64) (history : List Node) :
    List.Forall₂ Persists history
      (checkFencingLoop answers calls lastFencedTime history).1 := by
  induction history generalizing calls lastFencedTime with
  | nil => exact .nil
  | cons node later induction =>
      rw [checkFencingLoop]
      split
      · exact .cons (.refl node) (induction ..)
      · dsimp only
        split
        · exact .cons ⟨rfl, rfl, fun waits _ => waits⟩ (induction ..)
        · refine .cons ?_ (induction ..)
          unfold notFenced
          split
          · exact ⟨rfl, rfl, fun waits _ => waits⟩
          · exact .refl node

theorem Lasts.fencing (env : Env) (answers : Answers) (history : List Node) :
    Lasts nodeid history (checkFencingDone env answers history).2 := by
  rw [checkFencingDone_history]
  split
  · exact Lasts.pointwise (checkFencingLoop_persists ..)
  · exact .refl nodeid history

theorem Lasts.map (persists : ∀ node, Persists node (change node))
    (history : List Node) :
    Lasts nodeid history (history.map change) := by
  apply Lasts.pointwise
  induction history with
  | nil => exact .nil
  | cons node later induction => exact .cons (persists node) induction

theorem Lasts.quorum (env : Env) (answers : Answers) (history : List Node) :
    Lasts nodeid history (checkQuorumDone env answers history).2 := by
  unfold checkQuorumDone
  split
  · exact .refl nodeid history
  · apply Lasts.map
    intro node
    split
    · exact ⟨rfl, rfl, fun waits _ => waits⟩
    · exact .refl node

theorem Lasts.fs (fsRegistered : Bool) (history : List Node) :
    Lasts nodeid history (checkFsDone fsRegistered history).2 := by
  unfold checkFsDone
  split
  · exact .refl nodeid history
  · apply Lasts.map
    intro node
    split
    · rename_i cleared
      refine ⟨rfl, rfl, fun _ unset => ?_⟩
      simp [unset] at cleared
    · exact .refl node

theorem Lasts.conditions (env : Env) (answers : Answers) (fsRegistered : Bool)
    (history : List Node) :
    Lasts nodeid history
      (waitConditionsDone env answers fsRegistered history).2 := by
  have fencing := @Lasts.fencing nodeid env answers history
  obtain ⟨_, result⟩ | ⟨afterFencing, fenced, _, result⟩ |
      ⟨afterFencing, afterQuorum, fenced, quorate, result⟩ :=
    waitConditionsDone_cases env answers fsRegistered history
  · rw [result]
    exact fencing
  · rw [fenced] at fencing
    rw [result]
    exact fencing.trans (Lasts.quorum env answers afterFencing)
  · have quorum := @Lasts.quorum nodeid env answers afterFencing
    rw [fenced] at fencing
    rw [quorate] at quorum
    rw [result]
    exact (fencing.trans quorum).trans (Lasts.fs fsRegistered afterQuorum)

theorem Lasts.notified {other : Int32} (different : other ≠ nodeid)
    (history : List Node) :
    Lasts nodeid history (setFsNotified history other) := by
  intro node found
  refine ⟨node, ?_, .refl node⟩
  unfold setFsNotified
  split
  · exact found
  · split
    · exact found
    · have kept := @getNodeHistory_updateNode
        (fun node => { node with fsNotified := true }) (fun _ => rfl)
        history other nodeid
      rw [kept, if_neg different]
      exact found

/-- Only the acknowledgement itself changes that of an entry. -/
theorem Lasts.arrived {answers : Answers} {before : Lockspace} {event : Event}
    (arrived : Arrived env answers ls event before)
    (quiet : event ≠ .fsNotified nodeid) :
    Lasts nodeid ls.nodeHistory before.nodeHistory := by
  cases arrived with
  | confchg fresh opened =>
      rw [opened.nodeHistory]
      exact (Lasts.left env _ _ _).trans (Lasts.confchg env _ _ _)
  | @start sender li kind =>
      have marked := receiveStart_marked env answers.now sender li ls
      generalize receiveStart env answers.now sender li ls = after
        at marked ⊢
      cases marked with
      | unmatched => exact .refl nodeid _
      | refused => exact .refl nodeid _
      | started => exact Lasts.start _ _ sender
  | plocks same =>
      rw [same.nodeHistory]
      exact .refl nodeid _
  | registered => exact .refl nodeid _
  | notified other =>
      apply Lasts.notified
      rintro rfl
      exact quiet rfl

theorem Lasts.apply (env : Env) (answers : Answers) (ls : Lockspace) :
    Lasts nodeid ls.nodeHistory
      (applyChanges env answers ls).1.nodeHistory := by
  have applied := applyChanges_applied env answers ls
  generalize applyChanges env answers ls = result at applied ⊢
  cases applied with
  | idle => exact .refl nodeid _
  | begin => exact Lasts.conditions env answers _ _
  | wait => exact Lasts.conditions env answers _ _
  | collect => exact .refl nodeid _
  | @complete cg older =>
      rw [(completeChange_closed env answers.now ls cg older).nodeHistory]
      exact .refl nodeid _

theorem Lasts.step {step : Step}
    (enabled : (daemonSystem env).enabled daemon step)
    (quiet : step.event ≠ .fsNotified nodeid) :
    Lasts nodeid daemon.ls.nodeHistory
      (daemonNext env daemon step).ls.nodeHistory := by
  have before := Lasts.arrived
    (arrival_arrived step.answers daemon.ls enabled.1) quiet
  simp only [daemonNext, handle_eq step.answers daemon.ls enabled.1]
  split
  · exact before.trans (Lasts.apply env step.answers _)
  · exact before

/-- The history has an entry for the node. -/
def Known (nodeid : Int32) (history : List Node) : Prop :=
  ∃ node, getNodeHistory history nodeid = some node

theorem Known.lasts (known : Known nodeid history)
    (lasts : Lasts nodeid history later) :
    Known nodeid later := by
  obtain ⟨node, found⟩ := known
  obtain ⟨kept, keptFound, _⟩ := lasts node found
  exact ⟨kept, keptFound⟩

theorem Known.notified (known : Known nodeid history) (other : Int32) :
    Known nodeid (setFsNotified history other) := by
  by_cases different : other = nodeid
  · obtain ⟨node, found⟩ := known
    subst different
    unfold setFsNotified
    rw [found]
    dsimp only
    split
    · exact ⟨node, found⟩
    · have changed := @getNodeHistory_updateNode
        (fun node => { node with fsNotified := true }) (fun _ => rfl)
        history other other
      rw [if_pos rfl, found] at changed
      exact ⟨_, changed⟩
  · exact known.lasts (Lasts.notified different history)

theorem known_init (history : List Node) (nodeid : Int32) :
    Known nodeid (nodeHistoryInit history nodeid) := by
  unfold nodeHistoryInit
  cases found : getNodeHistory history nodeid with
  | some node => exact ⟨node, found⟩
  | none =>
      refine ⟨Node.new nodeid, ?_⟩
      rw [getNodeHistory, List.find?_append]
      change ((getNodeHistory history nodeid).or _) = _
      rw [found]
      simp [Node.new]

theorem known_inits {members : List Int32} (member : nodeid ∈ members)
    (history : List Node) :
    Known nodeid (members.foldl nodeHistoryInit history) := by
  induction members generalizing history with
  | nil => cases member
  | cons head later induction =>
      rcases List.mem_cons.mp member with first | rest
      · subst first
        exact (known_init history nodeid).lasts (Lasts.inits _ later)
      · exact induction rest _

theorem known_joined {joined : List Int32} {members : List Member}
    (member : nodeid ∈ joined) (other : nodeid ≠ env.plock.ourNodeid)
    (there : ∀ new ∈ joined, new ∈ members.map (·.nodeid))
    (history : List Node) :
    Known nodeid (addJoined env joined members history).2 := by
  induction joined generalizing members history with
  | nil => cases member
  | cons head later induction =>
      obtain ⟨first, rest⟩ := List.forall_mem_cons.mp there
      have found : members.any (·.nodeid == head) = true := by
        obtain ⟨memb, isMember, same⟩ := List.mem_map.mp first
        exact List.any_eq_true.mpr ⟨memb, isMember, beq_iff_eq.mpr same⟩
      have ids := @map_modifyFirst Member Int32 (·.nodeid == head)
        (fun memb => { memb with added := true }) (·.nodeid)
        (fun _ => rfl) members
      rw [addJoined, if_pos found]
      rcases List.mem_cons.mp member with same | listed
      · subst same
        rw [if_neg other]
        exact (known_init history nodeid).lasts (Lasts.joined env later _ _)
      · rw [← ids] at rest
        exact induction listed rest _

/-- After a configuration change the history knows all members. -/
theorem known_members {view : Option (List Int32)} {index : Nat}
    {change : Confchg Int32} (fsRegistered : Bool)
    (possible : (Event.confchg index change).Possible env view)
    (known : ∀ members, view = some members →
      ∀ nodeid ∈ members, Known nodeid history)
    (member : nodeid ∈ change.members) :
    Known nodeid (confchgHistory env fsRegistered change history) := by
  by_cases ours : env.plock.ourNodeid ∈ change.joined
  · unfold confchgHistory
    rw [if_pos ours]
    exact known_inits member _
  · cases view with
    | none => exact (ours possible.joins).elim
    | some members =>
        rcases possible.members_known nodeid member with joined | ⟨old, _⟩
        · have other : nodeid ≠ env.plock.ourNodeid := fun same =>
            ours (same ▸ joined)
          have ids : (change.members.map Member.new).map (·.nodeid) =
              change.members := by
            rw [List.map_map]
            exact List.map_id _
          unfold confchgHistory
          rw [if_neg ours]
          exact known_joined joined other
            (by rw [ids]; exact possible.joined_members) _
        · exact (known members rfl nodeid old).lasts
            ((Lasts.left env _ _ _).trans (Lasts.confchg env _ _ _))

/-- The history of a daemon knows the members of its group. -/
def KnowsMembers (daemon : Daemon) : Prop :=
  ∀ members, daemon.view = some members →
    ∀ nodeid ∈ members, Known nodeid daemon.ls.nodeHistory

theorem KnowsMembers.step {step : Step} (knows : KnowsMembers daemon)
    (enabled : (daemonSystem env).enabled daemon step) :
    KnowsMembers (daemonNext env daemon step) := by
  intro members view nodeid member
  obtain ⟨event, answers⟩ := step
  cases event with
  | confchg index change =>
      cases view
      have arrived := arrival_arrived answers daemon.ls enabled.1
      simp only [daemonNext, handle_eq answers daemon.ls enabled.1,
        Event.applies, if_true, thenApply]
      apply Known.lasts ?_ (Lasts.apply env answers _)
      obtain ⟨cg, _, opened⟩ :=
        @arrival_opened env index change answers daemon.ls enabled.1.known
      rw [opened.nodeHistory]
      exact known_members _ enabled.1 knows member
  | fsNotified other =>
      exact (knows members view nodeid member).notified other
  | _ =>
      exact (knows members view nodeid member).lasts
        (Lasts.step enabled (by simp))

/-- The entry of the node waits for an acknowledgement. -/
def Waits (nodeid : Int32) (history : List Node) : Prop :=
  ∃ node, getNodeHistory history nodeid = some node ∧ node.checkFs = true ∧
    node.fsNotified = false

theorem Waits.lasts (waits : Waits nodeid history)
    (lasts : Lasts nodeid history later) :
    Waits nodeid later := by
  obtain ⟨node, found, check, unset⟩ := waits
  obtain ⟨kept, keptFound, persists⟩ := lasts node found
  exact ⟨kept, keptFound, persists.checkFs check unset,
    persists.fsNotified.trans unset⟩

/-- The conditions are not met while an entry waits. -/
theorem Waits.conditions (waits : Waits nodeid history) (env : Env)
    (answers : Answers) :
    (waitConditionsDone env answers true history).1 = false := by
  obtain ⟨_, result⟩ | ⟨_, _, _, result⟩ |
      ⟨afterFencing, afterQuorum, fenced, quorate, result⟩ :=
    waitConditionsDone_cases env answers true history
  · rw [result]
  · rw [result]
  · have fencing := @Lasts.fencing nodeid env answers history
    have quorum := @Lasts.quorum nodeid env answers afterFencing
    rw [fenced] at fencing
    rw [quorate] at quorum
    obtain ⟨node, found, check, unset⟩ :=
      waits.lasts ((fencing.trans quorum).trans (Lasts.fs true afterQuorum))
    rw [result]
    have member : node ∈ (checkFsDone true afterQuorum).2 :=
      List.mem_of_find?_eq_some found
    simp only [checkFsDone, Bool.not_true, Bool.false_eq_true, if_false,
      Bool.not_eq_false'] at member ⊢
    exact List.any_eq_true.mpr ⟨node, member, check⟩

/-- A start message is sent.  `apply_changes` sends one exactly when
`wait_conditions_done` has returned 1. -/
def SendsStart (effects : List Effect) : Prop :=
  ∃ li : LsInfo, .send li ∈ effects ∧ li.type = .start

theorem Waits.apply (waits : Waits nodeid ls.nodeHistory)
    (registered : ls.fsRegistered = true) (answers : Answers) :
    (Waits nodeid (applyChanges env answers ls).1.nodeHistory ∧
      (applyChanges env answers ls).1.fsRegistered = true) ∧
    ¬ SendsStart (applyChanges env answers ls).2 := by
  have applied := applyChanges_applied env answers ls
  generalize applyChanges env answers ls = result at applied ⊢
  cases applied with
  | idle => exact ⟨⟨waits, registered⟩, by simp [SendsStart]⟩
  | begin pending state done =>
      rw [registered, waits.conditions] at done
      cases done
  | wait pending state =>
      exact ⟨⟨waits.lasts (Lasts.conditions env answers _ _), registered⟩,
        by simp [SendsStart]⟩
  | collect => exact ⟨⟨waits, registered⟩, by simp [SendsStart]⟩
  | @complete cg older pending state arrived =>
      have closed := completeChange_closed env answers.now ls cg older
      refine ⟨⟨?_, ?_⟩, ?_⟩
      · rw [closed.nodeHistory]
        exact waits
      · rw [closed.fsRegistered]
        exact registered
      · rintro ⟨li, member, kind⟩
        obtain ⟨before, rfl⟩ := completeChange_send member
        cases kind

/-- The steps of a daemon that stays registered and is not told about the
node. -/
def Unacknowledged (nodeid : Int32) (_ : Daemon) (step : Step) : Prop :=
  step.event ≠ .fsUnregister ∧ step.event ≠ .fsNotified nodeid

theorem Arrived.registered_of {answers : Answers} {before : Lockspace}
    {event : Event} (arrived : Arrived env answers ls event before)
    (registered : ls.fsRegistered = true) (stays : event ≠ .fsUnregister) :
    before.fsRegistered = true := by
  cases arrived with
  | confchg fresh opened =>
      rw [opened.fsRegistered]
      exact registered
  | @start sender li kind =>
      have marked := receiveStart_marked env answers.now sender li ls
      generalize receiveStart env answers.now sender li ls = after
        at marked ⊢
      cases marked with
      | unmatched => exact registered
      | refused => exact registered
      | started => exact registered
  | plocks same =>
      rw [same.fsRegistered]
      exact registered
  | registered value kind =>
      cases value with
      | false => exact (stays kind).elim
      | true => rfl
  | notified => exact registered

theorem Waits.step {step : Step} (waits : Waits nodeid daemon.ls.nodeHistory)
    (registered : daemon.ls.fsRegistered = true)
    (enabled : (daemonSystem env).enabled daemon step)
    (unacknowledged : Unacknowledged nodeid daemon step) :
    (Waits nodeid (daemonNext env daemon step).ls.nodeHistory ∧
      (daemonNext env daemon step).ls.fsRegistered = true) ∧
    ¬ SendsStart (daemonEffects env daemon step) := by
  have arrived := arrival_arrived step.answers daemon.ls enabled.1
  have before := waits.lasts (Lasts.arrived arrived unacknowledged.2)
  have beforeRegistered := arrived.registered_of registered unacknowledged.1
  have silent : ¬ SendsStart
      (arrival env step.answers step.event daemon.ls).2 := by
    rintro ⟨li, member, _⟩
    cases arrival_effects member
  simp only [daemonNext, daemonEffects,
    handle_eq step.answers daemon.ls enabled.1]
  split
  · obtain ⟨after, quiet⟩ := before.apply beforeRegistered step.answers
    refine ⟨after, ?_⟩
    rintro ⟨li, member, kind⟩
    rcases List.mem_append.mp member with early | late
    · exact silent ⟨li, early, kind⟩
    · exact quiet ⟨li, late, kind⟩
  · exact ⟨⟨before, beforeRegistered⟩, silent⟩

/-- A failure makes the entry of a known node wait, if it has not been
acknowledged before. -/
theorem waits_of_failure {left : List (Int32 × Reason)} {reason : Reason}
    (failure : (nodeid, reason) ∈ left) (failed : reason.failed = true)
    (known : Known nodeid history)
    (unset : ∀ node, getNodeHistory history nodeid = some node →
      node.fsNotified = false) :
    Waits nodeid (addLeft env true left history) := by
  induction left generalizing history with
  | nil => cases failure
  | cons gone later induction =>
      obtain ⟨node, found⟩ := known
      rcases List.mem_cons.mp failure with first | rest
      · subst first
        have entry := @getNodeHistory_updateNode (failNode env true)
          (fun node => (failNode_persists env true node).nodeid) history
          nodeid nodeid
        rw [if_pos rfl, found] at entry
        have waits : Waits nodeid
            (nodeHistoryGone env true history (nodeid, reason)) := by
          rw [nodeHistoryGone, if_pos failed]
          refine ⟨_, entry, ?_, ?_⟩
          · simp [failNode]
          · rw [(failNode_persists env true node).fsNotified]
            exact unset node found
        exact waits.lasts (Lasts.left env true later _)
      · have lasts := @Lasts.gone nodeid env true history gone
        apply induction rest (Known.lasts ⟨node, found⟩ lasts)
        intro after foundAfter
        obtain ⟨kept, keptFound, persists⟩ := lasts node found
        cases keptFound.symm.trans foundAfter
        exact persists.fsNotified.trans (unset node found)

/-- From a step on, no start message is sent before the file system daemon has
acknowledged the node. -/
def NeedsAcknowledgement (env : Env) (daemon : Daemon) (step : Step)
    (nodeid : Int32) : Prop :=
  ¬ SendsStart (daemonEffects env daemon step) ∧
    ∀ final, (daemonSystem env).Run (Unacknowledged nodeid)
        (daemonNext env daemon step) final →
      ∀ later, (daemonSystem env).enabled final later →
        Unacknowledged nodeid final later →
        ¬ SendsStart (daemonEffects env final later)

/-- The steps of a daemon that stays registered. -/
def Registered (_ : Daemon) (step : Step) : Prop :=
  step.event ≠ .fsUnregister

instance (daemon : Daemon) (step : Step) :
    Decidable (Registered daemon step) := by
  rcases step with ⟨_ | _, _⟩
  case fsUnregister => exact isFalse fun stays => stays rfl
  all_goals exact isTrue nofun

theorem Registered.fsRegistered {step : Step}
    (registered : daemon.ls.fsRegistered = true)
    (enabled : (daemonSystem env).enabled daemon step)
    (stays : Registered daemon step) :
    (daemonNext env daemon step).ls.fsRegistered = true := by
  have arrived := arrival_arrived step.answers daemon.ls enabled.1
  have before := arrived.registered_of registered stays
  simp only [daemonNext, handle_eq step.answers daemon.ls enabled.1]
  split
  · have applied := applyChanges_applied env step.answers
      (arrival env step.answers step.event daemon.ls).1
    simp only [thenApply]
    generalize applyChanges env step.answers
      (arrival env step.answers step.event daemon.ls).1 = result
      at applied ⊢
    cases applied with
    | idle => exact before
    | begin => exact before
    | wait => exact before
    | collect => exact before
    | @complete cg older =>
        rw [(completeChange_closed env step.answers.now _ cg older).fsRegistered]
        exact before
  · exact before

/-- While the file system stays registered, every failure that finds
`fs_notified` clear in the history entry of the failed node needs an
acknowledgement before the next start. -/
theorem failure_needs_acknowledgement (env : Env) (daemon : Daemon)
    (run : (daemonSystem env).Run Registered (Daemon.start true) daemon)
    (index : Nat) (change : Confchg Int32) (answers : Answers)
    (enabled : (daemonSystem env).enabled daemon
      ⟨.confchg index change, answers⟩)
    (nodeid : Int32) (reason : Reason)
    (failure : (nodeid, reason) ∈ change.left)
    (failed : reason.failed = true)
    (unset : ∀ node,
      getNodeHistory daemon.ls.nodeHistory nodeid = some node →
      node.fsNotified = false) :
    NeedsAcknowledgement env daemon ⟨.confchg index change, answers⟩
      nodeid := by
  obtain ⟨registered, knows⟩ :
      daemon.ls.fsRegistered = true ∧ KnowsMembers daemon := by
    apply run.invariant
      (fun daemon => daemon.ls.fsRegistered = true ∧ KnowsMembers daemon)
    · exact ⟨rfl, by intro members view; cases view⟩
    · intro before step possible stays holds
      exact ⟨stays.fsRegistered holds.1 possible, holds.2.step possible⟩
  have known : Known nodeid daemon.ls.nodeHistory := by
    cases view : daemon.view with
    | none =>
        have nobody := enabled.1
        rw [view] at nobody
        rw [nobody.left_nobody] at failure
        cases failure
    | some members =>
        have follows := enabled.1
        rw [view] at follows
        exact knows members view nodeid (follows.left_members _ failure)
  obtain ⟨cg, _, opened⟩ :=
    @arrival_opened env index change answers daemon.ls enabled.1.known
  have waits : Waits nodeid
      (arrival env answers (.confchg index change) daemon.ls).1.nodeHistory := by
    rw [opened.nodeHistory, registered]
    exact (waits_of_failure failure failed known unset).lasts
      (Lasts.confchg env true change _)
  obtain ⟨after, quiet⟩ :=
    waits.apply (opened.fsRegistered.trans registered) answers
  have silent : ¬ SendsStart
      (daemonEffects env daemon ⟨.confchg index change, answers⟩) := by
    simp only [daemonEffects, handle_eq answers daemon.ls enabled.1,
      Event.applies, if_true]
    rintro ⟨li, member, kind⟩
    rcases List.mem_append.mp member with early | late
    · cases arrival_effects early
    · exact quiet ⟨li, late, kind⟩
  refine ⟨silent, ?_⟩
  intro final later
  have holds : Waits nodeid final.ls.nodeHistory ∧
      final.ls.fsRegistered = true := by
    apply later.invariant (fun daemon =>
      Waits nodeid daemon.ls.nodeHistory ∧ daemon.ls.fsRegistered = true)
    · simp only [daemonNext, handle_eq answers daemon.ls enabled.1,
        Event.applies, if_true]
      exact after
    · intro before step possible unacknowledged holding
      exact (holding.1.step holding.2 possible unacknowledged).1
  intro step possible unacknowledged
  exact (holds.1.step holds.2 possible unacknowledged).2

/-- Two nodes start. -/
def pairStarts : List Step :=
  [⟨.confchg 0 (formed [1, 2]), calmAnswers 100⟩,
    ⟨.info 1 (infoAbout .start 0 (formed [1, 2])), calmAnswers 110⟩,
    ⟨.info 2 (infoAbout .start 0 (formed [1, 2])), calmAnswers 110⟩]

def firstFailure : Step := ⟨.confchg 3 loseTwo, fencedAnswers 120 115⟩

/-- Node 2 fails, is acknowledged, and joins again. -/
def failsAndReturns : List Step :=
  pairStarts ++
    [firstFailure,
      ⟨.fsNotified 2, fencedAnswers 130 115⟩,
      ⟨.poll, fencedAnswers 130 115⟩,
      ⟨.info 1 { infoAbout .start 3 loseTwo with startedCount := 1 },
        fencedAnswers 140 115⟩,
      ⟨.confchg 7 secondJoins, fencedAnswers 150 115⟩,
      ⟨.info 1 { infoAbout .start 7 secondJoins with startedCount := 2 },
        fencedAnswers 160 115⟩,
      ⟨.info 2 (infoAbout .start 7 secondJoins), fencedAnswers 160 115⟩]

/-- The first failure of node 2 has to be acknowledged. -/
theorem first_failure_acknowledged :
    NeedsAcknowledgement (plainEnv 1)
      ((daemonSystem (plainEnv 1)).follow (Daemon.start true) pairStarts)
      firstFailure 2 :=
  failure_needs_acknowledgement (plainEnv 1) _
    (System.run_of_follows pairStarts .refl (by decide)) 3 loseTwo
    (fencedAnswers 120 115) (by decide) 2 .nodedown (by decide) rfl
    (by decide)

/-- The second failure of node 2 is not held up: the acknowledgement of the
first is still set. -/
theorem second_failure_unacknowledged :
    ¬ ∀ daemon, (daemonSystem (plainEnv 1)).Run Registered
        (Daemon.start true) daemon →
      ∀ index change answers,
        (daemonSystem (plainEnv 1)).enabled daemon
          ⟨.confchg index change, answers⟩ →
        ∀ nodeid reason, (nodeid, reason) ∈ change.left →
          reason.failed = true →
          NeedsAcknowledgement (plainEnv 1) daemon
            ⟨.confchg index change, answers⟩ nodeid := by
  intro acknowledged
  have run : (daemonSystem (plainEnv 1)).Run Registered (Daemon.start true)
      ((daemonSystem (plainEnv 1)).follow (Daemon.start true)
        failsAndReturns) :=
    System.run_of_follows failsAndReturns .refl (by decide)
  have quiet := (acknowledged _ run 10 loseTwo (fencedAnswers 200 190)
    (by decide) 2 .nodedown (by decide) rfl).1
  apply quiet
  exact ⟨_, List.mem_cons_of_mem _ (List.mem_cons_self), rfl⟩

end Dlm.Cpg
