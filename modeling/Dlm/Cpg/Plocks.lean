import Dlm.Cpg.Steps

/-!
# The plock side of a lockspace

Which handlers touch the plock state and the two times that decide whether a
checkpoint is still up to date.
-/

namespace Dlm.Cpg

open Plock ProcessGroup

variable {env : Env} {now : UInt64} {ls : Lockspace} {sections : List Section}
  {answers : Answers} {event : Event}

/-- Two lockspaces with the same plock state and times. -/
structure SamePlocks (ls after : Lockspace) : Prop where
  plocks : after.plocks = ls.plocks
  lastPlockTime : after.lastPlockTime = ls.lastPlockTime
  lastCheckpointTime : after.lastCheckpointTime = ls.lastCheckpointTime

theorem SamePlocks.refl (ls : Lockspace) : SamePlocks ls ls :=
  ⟨rfl, rfl, rfl⟩

/-- What an event does to the plock state before `apply_changes`. -/
inductive Moved (env : Env) (answers : Answers) (ls : Lockspace) :
    Event → Lockspace → Prop where
  | quiet {event : Event} {before : Lockspace}
      (same : SamePlocks ls before) : Moved env answers ls event before
  | purged {index : Nat} {change : Confchg Int32} {stopped : Lockspace}
      (same : SamePlocks ls stopped) :
      Moved env answers ls (.confchg index change)
        (purgeRemoved env answers.now change.left stopped).1
  | received (message : Message) :
      Moved env answers ls (.plock message)
        (ls.onPlocks answers.now (receive env.plock ls.plocks message)).1
  | stored {sender : Int32} {li : LsInfo} (kind : li.type = .plocksStored)
      (accepts : acceptsPlocksStored env sender li ls = true) :
      Moved env answers ls (.info sender li)
        (ls.onPlocks answers.now
          (Plock.receivePlocksStored env.plock
            (if env.enablePlock then answers.sections else []) ls.plocks)).1
  | read (info : Info) :
      Moved env answers ls (.read info)
        (ls.onPlocks answers.now (processPlocks env.plock ls.plocks info)).1
  | dropped (aged : UInt64 → Bool) :
      Moved env answers ls (.drop aged)
        (ls.onPlocks answers.now (dropResources env.plock aged ls.plocks)).1

theorem addChange_samePlocks (env : Env) (index : Nat)
    (change : Confchg Int32) (ls : Lockspace) :
    SamePlocks ls (addChange env index change ls).2 := by
  simp only [addChange]
  split
  · exact ⟨rfl, rfl, rfl⟩
  · exact ⟨rfl, rfl, rfl⟩

/-- A configuration change purges the removed nodes. -/
theorem arrival_purged (env : Env) (answers : Answers) (index : Nat)
    (change : Confchg Int32) (ls : Lockspace) :
    ∃ stopped, SamePlocks ls stopped ∧
      (arrival env answers (.confchg index change) ls).1 =
        (purgeRemoved env answers.now change.left stopped).1 := by
  have same := addChange_samePlocks env index change ls
  refine ⟨(stopKernel (addChange env index change ls).2).1, ?_, rfl⟩
  rw [stopKernel_fst]
  exact ⟨same.plocks, same.lastPlockTime, same.lastCheckpointTime⟩

theorem arrival_moved (env : Env) (answers : Answers) (event : Event)
    (ls : Lockspace) :
    Moved env answers ls event (arrival env answers event ls).1 := by
  cases event with
  | confchg index change =>
      obtain ⟨stopped, same, purged⟩ :=
        arrival_purged env answers index change ls
      rw [purged]
      exact .purged same
  | info sender li =>
      cases kind : li.type with
      | start =>
          simp only [arrival, kind]
          have marked := receiveStart_marked env answers.now sender li ls
          generalize receiveStart env answers.now sender li ls = after
            at marked ⊢
          cases marked with
          | unmatched => exact .quiet (.refl ls)
          | refused => exact .quiet ⟨rfl, rfl, rfl⟩
          | started => exact .quiet ⟨rfl, rfl, rfl⟩
      | plocksStored =>
          simp only [arrival, kind, receivePlocksStored]
          cases accepts : acceptsPlocksStored env sender li ls with
          | false => exact .quiet (.refl ls)
          | true => exact .stored kind accepts
  | plock message => exact .received message
  | poll => exact .quiet (.refl ls)
  | read info =>
      simp only [arrival, handle]
      split
      · exact .quiet (.refl ls)
      · exact .read info
  | drop aged =>
      simp only [arrival, handle]
      split
      · exact .quiet (.refl ls)
      · exact .dropped aged
  | fsRegister => exact .quiet ⟨rfl, rfl, rfl⟩
  | fsUnregister => exact .quiet ⟨rfl, rfl, rfl⟩
  | fsNotified nodeid => exact .quiet ⟨rfl, rfl, rfl⟩

/-- What the purge of one node preserves, the loop over the removed nodes
preserves. -/
theorem purgeRemoved_invariant (inv : Lockspace → Prop)
    (purge : ∀ ls nodeid, inv ls →
      inv (ls.onPlocks now (purgePlocks env.plock ls.plocks nodeid false)).1)
    (left : List (Int32 × Reason)) (ls : Lockspace) (holds : inv ls) :
    inv (purgeRemoved env now left ls).1 := by
  induction left generalizing ls with
  | nil => exact holds
  | cons gone later induction =>
      apply induction
      cases env.enablePlock with
      | true => exact purge ls gone.1 holds
      | false => exact holds

/-- What `apply_changes` does to the plock state: nothing, unless it completes
the newest change. -/
inductive Settles (env : Env) (answers : Answers) (ls : Lockspace) :
    Lockspace × List Effect → Prop where
  | quiet {after : Lockspace} {effects : List Effect}
      (same : SamePlocks ls after)
      (silent : ∀ sections, .storeCheckpoint sections ∉ effects) :
      Settles env answers ls (after, effects)
  | complete {cg : Change} {older : List Change}
      (pending : ls.changes = cg :: older)
      (state : cg.state = .waitMessages)
      (arrived : waitMessagesDone cg = true) :
      Settles env answers ls (completeChange env answers.now ls cg older)

theorem applyChanges_settles (env : Env) (answers : Answers)
    (ls : Lockspace) :
    Settles env answers ls (applyChanges env answers ls) := by
  have applied := applyChanges_applied env answers ls
  generalize applyChanges env answers ls = result at applied ⊢
  cases applied with
  | idle => exact .quiet (.refl ls) (by simp)
  | begin => exact .quiet ⟨rfl, rfl, rfl⟩ (by simp [sendStart])
  | wait => exact .quiet ⟨rfl, rfl, rfl⟩ (by simp)
  | collect => exact .quiet (.refl ls) (by simp)
  | complete pending state arrived => exact .complete pending state arrived

theorem Prepared.resources {cg : Change} {older : List Change}
    {result : Lockspace × List Effect}
    (prepared : Prepared env now ls cg older result) :
    result.1.plocks.plockResources = ls.plocks.plockResources := by
  cases prepared with
  | disabled => rfl
  | alone => rfl
  | noState => rfl
  | needed plock several somebody need =>
      simp only [Plock.preparePlocks, need, if_true]
  | other => rfl
  | reuse => rfl
  | store => rfl

/-- `apply_changes` leaves the resources alone. -/
theorem applyChanges_resources (env : Env) (answers : Answers)
    (ls : Lockspace) :
    (applyChanges env answers ls).1.plocks.plockResources =
      ls.plocks.plockResources := by
  have settles := applyChanges_settles env answers ls
  generalize applyChanges env answers ls = result at settles ⊢
  cases settles with
  | quiet same => rw [same.plocks]
  | @complete cg older =>
      obtain ⟨result, prepared, equation⟩ :=
        completeChange_prepared env answers.now ls cg older
      rw [equation]
      exact prepared.resources

theorem startKernel_silent (ls : Lockspace) (cg : Change)
    (older : List Change) (sections : List Section) :
    .storeCheckpoint sections ∉ (startKernel ls cg older).2 := by
  unfold startKernel
  cases ls.kernelStopped with
  | false => simp
  | true =>
      cases ls.joining with
      | false => simp
      | true => simp

theorem closed_silent (env : Env) (ls : Lockspace) (cg : Change)
    (sections : List Section) :
    .storeCheckpoint sections ∉ closed env ls cg := by
  unfold closed
  split
  · simp
  · simp

theorem Prepared.stores {cg : Change} {older : List Change}
    {result : Lockspace × List Effect}
    (prepared : Prepared env now ls cg older result)
    (stored : .storeCheckpoint sections ∈ result.2) :
    sections = Plock.storePlocks env.plock ls.plocks := by
  have silent := closed_silent env ls cg sections
  cases prepared with
  | disabled => cases stored
  | alone => cases stored
  | noState => exact (silent stored).elim
  | needed => exact (silent stored).elim
  | other => exact (silent stored).elim
  | reuse => simp [silent, sendPlocksStored] at stored
  | store => simpa [silent, sendPlocksStored] using stored

/-- What `apply_changes` stores is a full checkpoint. -/
theorem applyChanges_stores
    (stored : .storeCheckpoint sections ∈ (applyChanges env answers ls).2) :
    sections = Plock.storePlocks env.plock ls.plocks := by
  have settles := applyChanges_settles env answers ls
  generalize applyChanges env answers ls = result at settles stored
  cases settles with
  | quiet same silent => exact (silent sections stored).elim
  | @complete cg older =>
      obtain ⟨result, prepared, equation⟩ :=
        completeChange_prepared env answers.now ls cg older
      rw [equation] at stored
      have silent := startKernel_silent ls cg older sections
      simp only [List.mem_append, silent, false_or, List.mem_singleton,
        reduceCtorEq, or_false] at stored
      exact prepared.stores stored

theorem arrival_silent (sections : List Section) :
    .storeCheckpoint sections ∉ (arrival env answers event ls).2 := by
  intro member
  cases arrival_effects member

theorem handle_stores {view : Option (List Int32)}
    (possible : event.Possible env view)
    (stored : .storeCheckpoint sections ∈ (handle env answers event ls).2) :
    sections = Plock.storePlocks env.plock
      (arrival env answers event ls).1.plocks := by
  rw [handle_eq answers ls possible] at stored
  split at stored
  · simp only [thenApply, List.mem_append] at stored
    rcases stored with early | late
    · exact (arrival_silent sections early).elim
    · exact applyChanges_stores late
  · exact (arrival_silent sections stored).elim

theorem handle_resources {view : Option (List Int32)} (answers : Answers)
    (ls : Lockspace) (possible : event.Possible env view) :
    (handle env answers event ls).1.plocks.plockResources =
      (arrival env answers event ls).1.plocks.plockResources := by
  rw [handle_eq answers ls possible]
  split
  · exact applyChanges_resources ..
  · rfl

end Dlm.Cpg
