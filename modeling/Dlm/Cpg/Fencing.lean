import Dlm.Cpg.History

/-!
# What `check_fencing_done` takes for fenced

The loop over the history asks fenced about every failed node.  All queries
share the variable `last_fenced_time`, and one that fails leaves in it what an
earlier query, or nobody, has written.
-/

namespace Dlm.Cpg

open Plock ProcessGroup

/-- The number of queries that the loop makes for some entries. -/
def queries (entries : List Node) : Nat :=
  (entries.filter (·.checkFencing)).length

/-- The value of `last_fenced_time` after some entries. -/
def askedTime (answers : Answers) : Nat → UInt64 → List Node → UInt64
  | _, lastFencedTime, [] => lastFencedTime
  | calls, lastFencedTime, node :: later =>
      if !node.checkFencing then
        askedTime answers calls lastFencedTime later
      else
        askedTime answers (calls + 1)
          ((answers.fenceNodeTime calls node.nodeid).getD lastFencedTime)
          later

/-- What the loop makes of an entry. -/
def examined (answers : Answers) (calls : Nat) (lastFencedTime : UInt64)
    (node : Node) : Node :=
  if !node.checkFencing then node
  else
    let lastFencedTime :=
      (answers.fenceNodeTime calls node.nodeid).getD lastFencedTime
    if lastFencedTime > node.addTime then fenced lastFencedTime node
    else notFenced lastFencedTime node

theorem notFenced_checkFencing (lastFencedTime : UInt64) (node : Node) :
    (notFenced lastFencedTime node).checkFencing = node.checkFencing := by
  unfold notFenced
  split
  · rfl
  · rfl

/-- The loop treats every entry by the queries made before it. -/
theorem checkFencingLoop_get (answers : Answers) (calls : Nat)
    (lastFencedTime : UInt64) (history : List Node) (index : Nat) :
    (checkFencingLoop answers calls lastFencedTime history).1[index]? =
      (history[index]?).map
        (examined answers (calls + queries (history.take index))
          (askedTime answers calls lastFencedTime (history.take index))) := by
  induction history generalizing calls lastFencedTime index with
  | nil => simp [checkFencingLoop]
  | cons node later induction =>
      cases asked : node.checkFencing with
      | false =>
          cases index with
          | zero => simp [checkFencingLoop, asked, examined]
          | succ index =>
              simp [checkFencingLoop, asked, induction, queries, askedTime]
      | true =>
          cases index with
          | zero =>
              simp only [checkFencingLoop, asked, examined, queries,
                askedTime, Bool.not_true, List.take_zero, List.filter_nil,
                List.length_nil, Nat.add_zero, List.getElem?_cons_zero,
                Option.map_some, Bool.false_eq_true, if_false]
              split
              · rfl
              · rfl
          | succ index =>
              have counted : calls + 1 + queries (later.take index) =
                  calls + queries ((node :: later).take (index + 1)) := by
                simp [queries, asked]
                omega
              simp only [checkFencingLoop, asked, askedTime, Bool.not_true,
                Bool.false_eq_true, if_false, List.take_succ_cons,
                List.getElem?_cons_succ]
              rw [← List.take_succ_cons, ← counted]
              split
              · exact induction ..
              · exact induction ..

/-- An evaluation of `check_fencing_done` clears `check_fencing` only of nodes
for which its own query has returned a time after `add_time`. -/
def ClearsOnlyFenced (env : Env) (answers : Answers) (history : List Node) :
    Prop :=
  ∀ (index : Nat) (node after : Node), history[index]? = some node →
    (checkFencingDone env answers history).2[index]? = some after →
    node.checkFencing = true → after.checkFencing = false →
    ∃ time, answers.fenceNodeTime (queries (history.take index)) node.nodeid =
      some time ∧ node.addTime < time

/-- Where a query fails, the time left over from before does not pass for an
answer. -/
def NoStaleTime (answers : Answers) (history : List Node) : Prop :=
  ∀ (index : Nat) (node : Node), history[index]? = some node →
    node.checkFencing = true →
    answers.fenceNodeTime (queries (history.take index)) node.nodeid = none →
    askedTime answers 0 answers.junk (history.take index) ≤ node.addTime

/-- A query clears the flag exactly when the time it leaves is after
`add_time`. -/
theorem examined_cleared_iff {answers : Answers} {calls : Nat}
    {lastFencedTime : UInt64} {node : Node}
    (asked : node.checkFencing = true) :
    (examined answers calls lastFencedTime node).checkFencing = false ↔
      node.addTime <
        (answers.fenceNodeTime calls node.nodeid).getD lastFencedTime := by
  simp only [examined, asked, Bool.not_true, Bool.false_eq_true, if_false]
  split
  · rename_i late
    exact ⟨fun _ => late, fun _ => rfl⟩
  · rename_i early
    rw [notFenced_checkFencing, asked]
    constructor
    · intro absurd
      cases absurd
    · intro late
      exact (early late).elim

/-- An evaluation clears only fenced nodes if and only if no failed query
finds a time after the `add_time` of its node left over. -/
theorem clears_only_fenced_iff (env : Env) (answers : Answers)
    (history : List Node) :
    ClearsOnlyFenced env answers history ↔
      (env.enableFencing = true → NoStaleTime answers history) := by
  unfold ClearsOnlyFenced
  rw [checkFencingDone_history]
  constructor
  · intro clears fencing index node found asked failed
    by_contra stale
    have late : node.addTime <
        askedTime answers 0 answers.junk (history.take index) :=
      UInt64.not_le.mp stale
    rw [if_pos fencing] at clears
    have after := checkFencingLoop_get answers 0 answers.junk history index
    rw [found, Option.map_some, Nat.zero_add] at after
    obtain ⟨time, answered, _⟩ := clears index node _ found after asked
      ((examined_cleared_iff asked).mpr (by rw [failed]; exact late))
    rw [failed] at answered
    cases answered
  · intro fresh index node after found result asked cleared
    cases fencing : env.enableFencing with
    | false =>
        rw [fencing, if_neg (by decide), found] at result
        cases result
        rw [asked] at cleared
        cases cleared
    | true =>
        rw [if_pos fencing, checkFencingLoop_get, found, Option.map_some,
          Nat.zero_add] at result
        cases result
        have late := (examined_cleared_iff asked).mp cleared
        cases answer : answers.fenceNodeTime (queries (history.take index))
            node.nodeid with
        | none =>
            rw [answer] at late
            have early := fresh fencing index node found asked answer
            exact (UInt64.not_le.mpr late early).elim
        | some time =>
            rw [answer] at late
            exact ⟨time, rfl, late⟩

/-- Nodes 2 and 3 have failed.  Fenced answers the query for node 2, and the
one for node 3 fails. -/
def oneAnswer : Answers :=
  { calmAnswers 150 with
    fenceNodeTime := fun call _ => if call = 0 then some 140 else none }

/-- A join of three nodes, their start messages, and the failure of two. -/
def twoFailures : List Step :=
  [⟨.confchg 0 (formed [1, 2, 3]), calmAnswers 100⟩,
    ⟨.info 1 (infoAbout .start 0 (formed [1, 2, 3])), calmAnswers 110⟩,
    ⟨.info 2 (infoAbout .start 0 (formed [1, 2, 3])), calmAnswers 110⟩,
    ⟨.info 3 (infoAbout .start 0 (formed [1, 2, 3])), calmAnswers 110⟩,
    ⟨.confchg 4 ⟨[1], [(2, .nodedown), (3, .nodedown)], []⟩,
      calmAnswers 120⟩]

/-- Node 3 is taken for fenced because node 2 was. -/
theorem unfenced_node_cleared :
    ¬ ∀ daemon, (daemonSystem (plainEnv 1)).Run (fun _ _ => True)
        (Daemon.start false) daemon →
      ∀ answers,
        ClearsOnlyFenced (plainEnv 1) answers daemon.ls.nodeHistory := by
  intro sound
  have run : (daemonSystem (plainEnv 1)).Run (fun _ _ => True)
      (Daemon.start false)
      ((daemonSystem (plainEnv 1)).follow (Daemon.start false) twoFailures) :=
    System.run_of_follows twoFailures .refl (by decide)
  obtain ⟨time, answered, _⟩ :=
    sound _ run oneAnswer 1 _ _ rfl rfl (by decide) (by decide)
  have failed : oneAnswer.fenceNodeTime 1 3 = none := rfl
  have second : queries (((daemonSystem (plainEnv 1)).follow
      (Daemon.start false) twoFailures).ls.nodeHistory.take 1) = 1 := by
    decide
  rw [second] at answered
  exact nomatch failed.symm.trans answered

end Dlm.Cpg
