import Dlm.Cpg.Steps

/-!
# The history under the conditions

Two kinds of facts about `node_history`: what a start requires of all its
entries, and how the file system flags of a single entry fare.
-/

namespace Dlm.Cpg

open Plock ProcessGroup

variable {env : Env} {history : List Node} {answers : Answers}

/-- Nothing is left to be checked with fenced or with the quorum system. -/
def Settled (env : Env) (node : Node) : Prop :=
  (env.enableFencing = true → node.checkFencing = false) ∧
    (env.enableQuorum = true → node.checkQuorum = false)

def AllSettled (env : Env) (history : List Node) : Prop :=
  ∀ node ∈ history, Settled env node

theorem AllSettled.update {nodeid : Int32} {change : Node → Node}
    (settled : AllSettled env history)
    (keeps : ∀ node, Settled env node → Settled env (change node)) :
    AllSettled env (updateNode nodeid change history) := by
  intro node member
  rcases mem_modifyFirst member with old | ⟨old, oldMember, _, same⟩
  · exact settled node old
  · rw [same]
    exact keeps old (settled old oldMember)

theorem AllSettled.start (settled : AllSettled env history) (now : UInt64)
    (nodeid : Int32) :
    AllSettled env (nodeHistoryStart now history nodeid) :=
  settled.update fun _ kept => kept

theorem AllSettled.setFsNotified (settled : AllSettled env history)
    (nodeid : Int32) :
    AllSettled env (setFsNotified history nodeid) := by
  unfold Cpg.setFsNotified
  split
  · exact settled
  · split
    · exact settled
    · exact settled.update fun _ kept => kept

theorem checkFencingLoop_settles {calls : Nat} {lastFencedTime : UInt64}
    (nobody : (checkFencingLoop answers calls lastFencedTime history).2 = 0) :
    ∀ node ∈ (checkFencingLoop answers calls lastFencedTime history).1,
      node.checkFencing = false := by
  induction history generalizing calls lastFencedTime with
  | nil => simp [checkFencingLoop]
  | cons head tail induction =>
      cases asked : head.checkFencing with
      | false =>
          simp only [checkFencingLoop, asked, Bool.not_false, if_true]
            at nobody ⊢
          intro node member
          rcases List.mem_cons.mp member with first | later
          · rw [first, asked]
          · exact induction nobody node later
      | true =>
          simp only [checkFencingLoop, asked, Bool.not_true,
            Bool.false_eq_true, if_false] at nobody ⊢
          split at nobody
          · rename_i late
            rw [if_pos late]
            intro node member
            rcases List.mem_cons.mp member with first | later
            · rw [first]
              rfl
            · exact induction nobody node later
          · exact absurd nobody (Nat.succ_ne_zero _)

theorem checkFencingDone_history (env : Env) (answers : Answers)
    (history : List Node) :
    (checkFencingDone env answers history).2 =
      if env.enableFencing then
        (checkFencingLoop answers 0 answers.junk history).1
      else history := by
  unfold checkFencingDone
  cases env.enableFencing with
  | false => rfl
  | true =>
      simp only [Bool.not_true, Bool.false_eq_true, if_false, if_true]
      split
      · rfl
      · split
        · rfl
        · rfl

theorem checkFencingDone_settles
    (done : (checkFencingDone env answers history).1 = true)
    (fencing : env.enableFencing = true) :
    ∀ node ∈ (checkFencingDone env answers history).2,
      node.checkFencing = false := by
  revert done
  simp only [checkFencingDone, fencing, Bool.not_true, Bool.false_eq_true,
    if_false]
  split
  · intro impossible
    cases impossible
  · rename_i nobody
    have nobody := Decidable.not_not.mp nobody
    split
    · intro impossible
      cases impossible
    · intro _
      exact checkFencingLoop_settles nobody

/-- An evaluation of the quorum condition leaves the fencing flags alone. -/
theorem checkQuorumDone_fencing {node : Node}
    (member : node ∈ (checkQuorumDone env answers history).2) :
    ∃ old ∈ history, node.checkFencing = old.checkFencing := by
  revert member
  unfold checkQuorumDone
  split
  · intro member
    exact ⟨node, member, rfl⟩
  · intro member
    obtain ⟨old, oldMember, rfl⟩ := List.mem_map.mp member
    refine ⟨old, oldMember, ?_⟩
    split
    · rfl
    · rfl

theorem checkQuorumDone_settles
    (done : (checkQuorumDone env answers history).1 = true)
    (quorum : env.enableQuorum = true) :
    ∀ node ∈ (checkQuorumDone env answers history).2,
      node.checkQuorum = false := by
  revert done
  simp only [checkQuorumDone, quorum, Bool.not_true, Bool.false_eq_true,
    if_false, Bool.and_eq_true, Bool.not_eq_true', List.any_eq_false]
  intro ⟨nobody, _⟩ node member
  exact Bool.eq_false_iff.mpr (nobody node member)

theorem AllSettled.checkFsDone (settled : AllSettled env history)
    (fsRegistered : Bool) :
    AllSettled env (checkFsDone fsRegistered history).2 := by
  unfold Cpg.checkFsDone
  split
  · exact settled
  · intro node member
    obtain ⟨old, oldMember, rfl⟩ := List.mem_map.mp member
    have kept := settled old oldMember
    split
    · exact kept
    · exact kept

/-- The conditions are evaluated in turn, up to the first that is not
met. -/
theorem waitConditionsDone_cases (env : Env) (answers : Answers)
    (fsRegistered : Bool) (history : List Node) :
    ((checkFencingDone env answers history).1 = false ∧
      waitConditionsDone env answers fsRegistered history =
        (false, (checkFencingDone env answers history).2)) ∨
    (∃ afterFencing,
      checkFencingDone env answers history = (true, afterFencing) ∧
      (checkQuorumDone env answers afterFencing).1 = false ∧
      waitConditionsDone env answers fsRegistered history =
        (false, (checkQuorumDone env answers afterFencing).2)) ∨
    ∃ afterFencing afterQuorum,
      checkFencingDone env answers history = (true, afterFencing) ∧
      checkQuorumDone env answers afterFencing = (true, afterQuorum) ∧
      waitConditionsDone env answers fsRegistered history =
        checkFsDone fsRegistered afterQuorum := by
  unfold waitConditionsDone
  obtain ⟨fencingDone, afterFencing⟩ := checkFencingDone env answers history
  cases fencingDone with
  | false => exact .inl ⟨rfl, rfl⟩
  | true =>
      right
      cases quorum : checkQuorumDone env answers afterFencing with
      | mk quorumDone afterQuorum =>
          cases quorumDone with
          | false => exact .inl ⟨afterFencing, rfl, by rw [quorum], by simp [quorum]⟩
          | true =>
              exact .inr ⟨afterFencing, afterQuorum, rfl, quorum, by simp [quorum]⟩

/-- When the conditions are met, nothing is left to be checked. -/
theorem waitConditionsDone_settles {fsRegistered : Bool}
    (done : (waitConditionsDone env answers fsRegistered history).1 = true) :
    AllSettled env
      (waitConditionsDone env answers fsRegistered history).2 := by
  obtain ⟨_, result⟩ | ⟨_, _, _, result⟩ |
      ⟨afterFencing, afterQuorum, fenced, quorate, result⟩ :=
    waitConditionsDone_cases env answers fsRegistered history
  · rw [result] at done
    cases done
  · rw [result] at done
    cases done
  · rw [result]
    apply AllSettled.checkFsDone
    intro node member
    constructor
    · intro fencing
      have settled := checkFencingDone_settles (by rw [fenced]) fencing
      rw [fenced] at settled
      have kept := @checkQuorumDone_fencing env afterFencing answers node
      rw [quorate] at kept
      obtain ⟨old, oldMember, same⟩ := kept member
      rw [same]
      exact settled old oldMember
    · intro quorum
      have settled := checkQuorumDone_settles (by rw [quorate]) quorum
      rw [quorate] at settled
      exact settled node member

end Dlm.Cpg
