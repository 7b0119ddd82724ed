import Dlm.Deadlock.Cycle
import Dlm.Lib.GroupRuns
import Mathlib.Data.List.Induction
import Mathlib.Data.Nat.Init

/-!
# Cycles in the agreed stream

The cycle that runs at a place of the log, and when a log is orderly: a
`CHECKPOINT_READY` stands only in a running cycle and once for every node, a
cycle is ended by its lowest node when every member has been ready, and nobody
is added while one is running.
-/

namespace Dlm.Deadlock

open ProcessGroup

variable {log : CycleLog} {entry : Entry Int32 Message} {n m : Int32}
  {start place index first last : Nat}

theorem cycleAt_append (log : CycleLog) (entry : Entry Int32 Message) :
    cycleAt (log ++ [entry]) = cycleNext log.length (cycleAt log) entry := by
  simp [cycleAt, List.zipIdx_append]

theorem cycleAt_take_succ (here : log[index]? = some entry) :
    cycleAt (log.take (index + 1)) =
      cycleNext index (cycleAt (log.take index)) entry := by
  rw [take_succ here, cycleAt_append, List.length_take_of_le
    (Nat.le_of_lt (lt_length_of_entry here))]

/-- A cycle that is running was running before, or begins here. -/
theorem cycleNext_eq_some {cycle : Option Nat}
    (running : cycleNext index cycle entry = some start) :
    cycle = some start ∨
      (start = index ∧ ∃ sender, entry = .message sender .cycleStart) := by
  cases entry with
  | confchg change =>
      simp only [cycleNext] at running
      split at running
      · cases running
      · exact .inl running
  | message sender body =>
      cases body with
      | cycleStart =>
          cases cycle with
          | none => exact .inr ⟨(Option.some.inj running).symm, sender, rfl⟩
          | some old => exact .inl running
      | checkpointReady => exact .inl running
      | cycleEnd => cases running
      | cancelLock toNodeid lkid => exact .inl running

/-- A cycle began with its `CYCLE_START` and has been running since. -/
theorem cycleAt_since (running : cycleAt log = some start) :
    (∃ sender, log[start]? = some (.message sender .cycleStart)) ∧
      ∀ index, start < index → index ≤ log.length →
        cycleAt (log.take index) = some start := by
  induction log using List.reverseRecOn with
  | nil => cases running
  | append_singleton log entry induction =>
      have whole : (log ++ [entry]).take (log.length + 1) =
          log ++ [entry] := List.take_of_length_le (by simp)
      have now := running
      rw [cycleAt_append] at running
      rcases cycleNext_eq_some running with before | ⟨rfl, sender, rfl⟩
      · obtain ⟨⟨sender, begun⟩, since⟩ := induction before
        refine ⟨⟨sender, getElem?_append_of_some begun⟩, ?_⟩
        intro index above below
        rw [List.length_append, List.length_singleton] at below
        rcases Nat.lt_or_ge log.length index with beyond | within
        · rw [show index = log.length + 1 by omega, whole]
          exact now
        · rw [take_append_entry within]
          exact since index above within
      · refine ⟨⟨sender, List.getElem?_concat_length⟩, ?_⟩
        intro index above below
        rw [List.length_append, List.length_singleton] at below
        rw [show index = log.length + 1 by omega, whole]
        exact now

/-- The same between two places of a log. -/
theorem cycleAt_between (within : last ≤ log.length)
    (running : cycleAt (log.take last) = some start)
    (above : start < index) (below : index ≤ last) :
    cycleAt (log.take index) = some start := by
  have before := (cycleAt_since running).2 index above
    (by rw [List.length_take_of_le within]; exact below)
  rwa [List.take_take, Nat.min_eq_left below] at before

theorem cycleAt_lt (running : cycleAt (log.take place) = some start) :
    start < place := by
  obtain ⟨⟨sender, begun⟩, _⟩ := cycleAt_since running
  have short := lt_length_of_entry begun
  rw [List.length_take] at short
  omega

/-- The node has announced its checkpoint since the cycle began. -/
def Ready (log : CycleLog) (m : Int32) (start : Nat) : Prop :=
  ∃ index, start < index ∧ log[index]? = some (.message m .checkpointReady)

theorem Ready.append (ready : Ready log m start)
    (entry : Entry Int32 Message) : Ready (log ++ [entry]) m start := by
  obtain ⟨index, above, here⟩ := ready
  exact ⟨index, above, getElem?_append_of_some here⟩

theorem ready_append :
    Ready (log ++ [entry]) m start ↔ Ready log m start ∨
      (start < log.length ∧ entry = .message m .checkpointReady) := by
  constructor
  · rintro ⟨index, above, here⟩
    rcases getElem?_append_cases here with old | ⟨rfl, same⟩
    · exact .inl ⟨index, above, old⟩
    · exact .inr ⟨above, same.symm⟩
  · rintro (ready | ⟨above, rfl⟩)
    · exact ready.append entry
    · exact ⟨log.length, above, List.getElem?_concat_length⟩

theorem Ready.of_take (ready : Ready (log.take place) m start) :
    Ready log m start := by
  obtain ⟨index, above, here⟩ := ready
  rw [List.getElem?_take] at here
  split at here
  · exact ⟨index, above, here⟩
  · cases here

theorem Ready.take_mono (ready : Ready (log.take first) m start)
    (below : first ≤ last) : Ready (log.take last) m start := by
  rw [show log.take first = (log.take last).take first by
    rw [List.take_take, Nat.min_eq_left below]] at ready
  exact ready.of_take

/-- All members have been ready in the cycle, and the node is the lowest of
them: it is the one to look for a deadlock. -/
structure Called (log : CycleLog) (n : Int32) (start : Nat) : Prop where
  ready : ∀ m ∈ view log, Ready log m start
  least : ∀ m ∈ view log, n ≤ m

/-- The order of the messages of the deadlock detection. -/
structure Orderly (log : CycleLog) : Prop where
  ready : ∀ index m, log[index]? = some (.message m .checkpointReady) →
    ∃ start, cycleAt (log.take index) = some start ∧
      ¬ Ready (log.take index) m start
  ended : ∀ index n, log[index]? = some (.message n .cycleEnd) →
    ∃ start, cycleAt (log.take index) = some start ∧
      Called (log.take index) n start
  joined : ∀ index change, log[index]? = some (.confchg change) →
    change.joined ≠ [] → cycleAt (log.take index) = none
  distinct : ∀ (index : Nat) (change : Confchg Int32),
    log[index]? = some (.confchg change) → change.joined.Nodup
  named : ∀ index, -1 ∉ view (log.take index)

/-- Nobody is added while a cycle is running. -/
theorem Orderly.view_succ (orderly : Orderly log) (lawful : Lawful log)
    (here : log[index]? = some entry)
    (running : cycleAt (log.take index) = some start)
    (member : m ∈ view (log.take (index + 1))) :
    m ∈ view (log.take index) := by
  rw [view_take_succ here] at member
  cases entry with
  | message sender body => exact member
  | confchg change =>
      rcases (lawful.follows index change here).members_known m member with
        joined | ⟨known, _⟩
      · have idle := orderly.joined index change here
          (List.ne_nil_of_mem joined)
        rw [running] at idle
        cases idle
      · exact known

theorem Orderly.view_back (orderly : Orderly log) (lawful : Lawful log)
    (within : last ≤ log.length)
    (running : cycleAt (log.take last) = some start)
    (above : start < first) (below : first ≤ last)
    (member : m ∈ view (log.take last)) : m ∈ view (log.take first) := by
  induction last, below using Nat.le_induction with
  | base => exact member
  | succ last below induction =>
      have before := cycleAt_between within running
        (Nat.lt_of_lt_of_le above below) (Nat.le_succ last)
      apply induction (Nat.le_of_succ_le within) before
      exact orderly.view_succ lawful (List.getElem?_eq_getElem within) before
        member

theorem Called.mono (called : Called (log.take first) n start)
    (orderly : Orderly log) (lawful : Lawful log) (within : last ≤ log.length)
    (running : cycleAt (log.take last) = some start)
    (above : start < first) (below : first ≤ last) :
    Called (log.take last) n start := by
  have back : ∀ m ∈ view (log.take last), m ∈ view (log.take first) :=
    fun m => orderly.view_back lawful within running above below
  exact ⟨fun m member => (called.ready m (back m member)).take_mono below,
    fun m member => called.least m (back m member)⟩

/-- While a member stays, only `CYCLE_END` ends a cycle. -/
theorem cycleAt_kept (lawful : Lawful log) (here : log[index]? = some entry)
    (running : cycleAt (log.take index) = some start)
    (before : n ∈ view (log.take index))
    (after : n ∈ view (log.take (index + 1)))
    (open_ : ∀ sender, entry ≠ .message sender .cycleEnd) :
    cycleAt (log.take (index + 1)) = some start := by
  rw [cycleAt_take_succ here, running]
  cases entry with
  | confchg change =>
      rw [view_take_succ here] at after
      have old : n ∉ change.joined := fun joined =>
        (lawful.follows index change here).joined_new n joined before
      have stays : ¬ (change.members.all (· ∈ change.joined)) = true := by
        intro every
        have joined := List.all_eq_true.mp every n after
        exact old (of_decide_eq_true joined)
      simp only [cycleNext, if_neg stays]
  | message sender body =>
      cases body with
      | cycleStart => rfl
      | checkpointReady => rfl
      | cycleEnd => exact absurd rfl (open_ sender)
      | cancelLock toNodeid lkid => rfl

section Open

variable (lawful : Lawful log)
  (running : cycleAt (log.take first) = some start) (below : first ≤ last)
  (within : last ≤ log.length)
  (stays : ∀ index, first ≤ index → index ≤ last → n ∈ view (log.take index))

include lawful running below within stays

theorem cycleAt_kept_until
    (open_ : ∀ index sender, first ≤ index → index < last →
      log[index]? = some (.message sender .cycleEnd) →
      cycleAt (log.take index) ≠ some start) :
    cycleAt (log.take last) = some start := by
  induction last, below using Nat.le_induction with
  | base => exact running
  | succ last below induction =>
      have before := induction (Nat.le_of_succ_le within)
        (fun index above under => stays index above (Nat.le_succ_of_le under))
        (fun index sender above under =>
          open_ index sender above (Nat.lt_succ_of_lt under))
      apply cycleAt_kept lawful (List.getElem?_eq_getElem within) before
        (stays last below (Nat.le_succ last))
        (stays (last + 1) (Nat.le_succ_of_le below) (Nat.le_refl _))
      intro sender ends
      apply open_ last sender below (Nat.lt_succ_self last) _ before
      rw [← ends]
      exact List.getElem?_eq_getElem within

/-- A cycle goes on while it waits for a member to be ready. -/
theorem Orderly.open_waiting (orderly : Orderly log)
    (waiting : ¬ Ready (log.take last) n start) :
    cycleAt (log.take last) = some start := by
  apply cycleAt_kept_until lawful running below within stays
  intro index sender above under ends now
  obtain ⟨other, there, called⟩ := orderly.ended index sender ends
  cases now.symm.trans there
  have ready := called.ready n (stays index above (Nat.le_of_lt under))
  exact waiting (ready.take_mono (Nat.le_of_lt under))

/-- A cycle goes on until the node that is called ends it. -/
theorem Orderly.open_called (orderly : Orderly log)
    (called : Called (log.take first) n start)
    (silent : ∀ index, first ≤ index → index < last →
      log[index]? ≠ some (.message n .cycleEnd)) :
    cycleAt (log.take last) = some start := by
  apply cycleAt_kept_until lawful running below within stays
  intro index sender above under ends now
  obtain ⟨other, there, lower⟩ := orderly.ended index sender ends
  cases now.symm.trans there
  have older : sender ∈ view (log.take first) :=
    orderly.view_back lawful (Nat.le_of_lt (Nat.lt_of_lt_of_le under within))
      now (cycleAt_lt running) above (lawful.member index sender _ ends)
  have same : sender = n := Int32.le_antisymm
    (lower.least n (stays index above (Nat.le_of_lt under)))
    (called.least sender older)
  subst same
  exact silent index above under ends

end Open

/-- The log grows in order. -/
theorem Orderly.append (orderly : Orderly log)
    (ready : ∀ m, entry = .message m .checkpointReady →
      ∃ start, cycleAt log = some start ∧ ¬ Ready log m start)
    (ended : ∀ n, entry = .message n .cycleEnd →
      ∃ start, cycleAt log = some start ∧ Called log n start)
    (joined : ∀ change, entry = .confchg change → change.joined ≠ [] →
      cycleAt log = none)
    (distinct : ∀ change, entry = .confchg change → change.joined.Nodup)
    (named : -1 ∉ advance (view log) entry) :
    Orderly (log ++ [entry]) := by
  constructor
  · intro index m here
    rcases getElem?_append_cases here with old | ⟨rfl, same⟩
    · rw [take_append_entry (Nat.le_of_lt (lt_length_of_entry old))]
      exact orderly.ready index m old
    · rw [List.take_left]
      exact ready m same.symm
  · intro index n here
    rcases getElem?_append_cases here with old | ⟨rfl, same⟩
    · rw [take_append_entry (Nat.le_of_lt (lt_length_of_entry old))]
      exact orderly.ended index n old
    · rw [List.take_left]
      exact ended n same.symm
  · intro index change here
    rcases getElem?_append_cases here with old | ⟨rfl, same⟩
    · rw [take_append_entry (Nat.le_of_lt (lt_length_of_entry old))]
      exact orderly.joined index change old
    · rw [List.take_left]
      exact joined change same.symm
  · intro index change here
    rcases getElem?_append_cases here with old | ⟨_, same⟩
    · exact orderly.distinct index change old
    · exact distinct change same.symm
  · intro index
    by_cases within : index ≤ log.length
    · rw [take_append_entry within]
      exact orderly.named index
    · rw [List.take_of_length_le (by simp; omega), view_append]
      exact named

end Dlm.Deadlock
