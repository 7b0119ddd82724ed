import Dlm.Deadlock.Cancel

/-!
# The transaction that is cancelled

When a deadlock is found, `find_trans_to_cancel` takes the first transaction
of the list that somebody waits for.  Such a transaction leads into a cycle,
but it need not be on one: it is if every transaction that only leads into a
cycle and has somebody waiting for it comes after one that is on a cycle.
-/

namespace Dlm.Deadlock

open Relation Elimination

/-- The xids in the order of `ls->transactions`. -/
def transOrder (resources : List Rsb) : List UInt64 :=
  (createTransList resources []).map (·.xid)

section Order

/-- What is left of a list without repetitions is given by its members. -/
theorem eq_filter_of_sublist {list left : List UInt64}
    (sublist : left.Sublist list) (distinct : list.Nodup) :
    left = list.filter (· ∈ left) := by
  induction sublist with
  | slnil => rfl
  | @cons left list head rest induction =>
      obtain ⟨absent, distinct⟩ := List.nodup_cons.mp distinct
      have gone : head ∉ left := fun present => absent (rest.subset present)
      rw [List.filter_cons_of_neg (by simpa using gone)]
      exact induction distinct
  | @cons_cons left list head rest induction =>
      obtain ⟨absent, distinct⟩ := List.nodup_cons.mp distinct
      have same : list.filter (· ∈ left) =
          list.filter (· ∈ head :: left) := by
        apply List.filter_congr
        intro xid present
        have other : xid ≠ head := fun same => absent (same ▸ present)
        simp [other]
      rw [List.filter_cons_of_pos (by simp), ← same, ← induction distinct]

theorem reduceWaitforPass_sublist (later : List UInt64)
    (transactions : List Trans) :
    ((reduceWaitforPass later transactions).1.map (·.xid)).Sublist
      (transactions.map (·.xid)) := by
  induction later generalizing transactions with
  | nil => exact List.Sublist.refl _
  | cons xid later induction =>
      unfold reduceWaitforPass
      cases findTrans xid transactions with
      | none => exact induction transactions
      | some tr =>
          simp only
          split
          · exact induction transactions
          · apply (induction _).trans
            have filtered := (List.filter_sublist
              (p := fun tr => tr.xid != xid)
              (l := removeTrans xid transactions)).map (·.xid)
            rw [removeTrans, removeTransLoop_xids] at filtered
            exact filtered

theorem reduceWaitforLoop_sublist {fuel : Nat}
    {transactions left : List Trans}
    (ends : reduceWaitforLoop fuel transactions = some left) :
    (left.map (·.xid)).Sublist (transactions.map (·.xid)) := by
  induction fuel generalizing transactions with
  | zero => cases ends
  | succ fuel induction =>
      have pass := reduceWaitforPass_sublist (transactions.map (·.xid))
        transactions
      unfold reduceWaitforLoop at ends
      simp only at ends
      split at ends
      · cases ends
        exact pass
      · exact (induction ends).trans pass

theorem deadlocked_sublist (resources : List Rsb) :
    ((deadlocked resources).transactions.map (·.xid)).Sublist
      (transOrder resources) := by
  rw [transOrder, ← waitforGraph_xids]
  exact reduceWaitforLoop_sublist (Option.some_get _).symm

end Order

section Victim

variable {resources : List Rsb}

theorem mem_deadlocked_iff (xid : UInt64) :
    xid ∈ (deadlocked resources).transactions.map (·.xid) ↔
      ReachesCycle (Waits resources) xid := by
  obtain ⟨reduced, waiting⟩ := deadlocked_reduced resources
  exact reduced.remainder.mem_iff (reduced.stuck resources waiting)
    (fun _ _ waits => (waits_known waits).1) xid

/-- The counter tells whether somebody waits for the transaction. -/
theorem deadlocked_waited_iff {tr : Trans}
    (member : tr ∈ (deadlocked resources).transactions) :
    tr.othersWaitingOnUs ≠ 0 ↔ ∃ waiter, Waits resources waiter tr.xid := by
  obtain ⟨reduced, _⟩ := deadlocked_reduced resources
  have present : tr.xid ∈ (deadlocked resources).transactions.map (·.xid) :=
    List.mem_map_of_mem member
  rw [reduced.linked.others tr member, Ne, Int.natCast_eq_zero,
    ← Ne, Nat.ne_zero_iff_zero_lt, List.countP_pos_iff]
  constructor
  · rintro ⟨other, there, slot⟩
    exact ⟨other.xid, ((reduced.linked.mem_live other there _).mp
      (of_decide_eq_true slot)).1⟩
  · rintro ⟨waiter, waits⟩
    have reaches := (mem_deadlocked_iff tr.xid).mp present
    have there := (mem_deadlocked_iff waiter).mpr
      (reaches.before (.single waits))
    obtain ⟨other, listed, rfl⟩ := exists_of_mem_xids there
    exact ⟨other, listed, decide_eq_true
      ((reduced.linked.mem_live other listed _).mpr ⟨waits, present⟩)⟩

/-- Somebody waits for the transaction and it leads into a cycle. -/
def Candidate (resources : List Rsb) (xid : UInt64) : Prop :=
  (∃ waiter, Waits resources waiter xid) ∧
    ReachesCycle (Waits resources) xid

theorem candidate_of_cycle {xid : UInt64}
    (cycle : TransGen (Waits resources) xid xid) :
    Candidate resources xid := by
  obtain ⟨waiter, _, waits⟩ := TransGen.tail'_iff.mp cycle
  exact ⟨⟨waiter, waits⟩, xid, .refl, cycle⟩

/-- The transaction to cancel is the first candidate of the list. -/
theorem findTransToCancel_first {tr : Trans}
    (chosen : findTransToCancel (deadlocked resources).transactions =
      some tr) :
    ∃ front back, transOrder resources = front ++ tr.xid :: back ∧
      Candidate resources tr.xid ∧
      ∀ xid ∈ front, ¬ Candidate resources xid := by
  have member : tr ∈ (deadlocked resources).transactions :=
    List.mem_of_find?_eq_some chosen
  obtain ⟨waited, before, after, split, early⟩ :=
    List.find?_eq_some_iff_append.mp chosen
  have present : tr.xid ∈ (deadlocked resources).transactions.map (·.xid) :=
    List.mem_map_of_mem member
  have distinct : (transOrder resources).Nodup :=
    (createTransList_collected resources).distinct
  have sublist := deadlocked_sublist resources
  obtain ⟨front, back, order⟩ :=
    List.append_of_mem (sublist.subset present)
  refine ⟨front, back, order,
    ⟨(deadlocked_waited_iff member).mp (bne_iff_ne.mp waited),
      (mem_deadlocked_iff tr.xid).mp present⟩, ?_⟩
  -- what is left of the front is what the search has passed over
  have passed : before.map (·.xid) = front.filter (· ∈
      (deadlocked resources).transactions.map (·.xid)) := by
    have left := eq_filter_of_sublist sublist distinct
    have single := sublist.nodup distinct
    have keeps : (decide (tr.xid ∈
        (deadlocked resources).transactions.map (·.xid))) = true :=
      decide_eq_true present
    rw [order, List.filter_append, List.filter_cons, keeps, if_pos rfl]
      at left
    nth_rewrite 1 [split] at left
    rw [split, List.map_append, List.map_cons] at single
    rw [List.map_append, List.map_cons] at left
    have apart := List.nodup_append.mp single
    refine ((List.append_cons_inj_of_notMem ?_ ?_).mp left).1
    · exact fun twice => apart.2.2 _ twice _ List.mem_cons_self rfl
    · exact (List.nodup_cons.mp apart.2.1).1
  rintro xid inFront ⟨waiter, reaches⟩
  have there := (mem_deadlocked_iff xid).mpr reaches
  have skipped : xid ∈ before.map (·.xid) := by
    rw [passed]
    exact List.mem_filter.mpr ⟨inFront, decide_eq_true there⟩
  obtain ⟨other, listed, rfl⟩ := exists_of_mem_xids skipped
  have known : other ∈ (deadlocked resources).transactions := by
    rw [split]
    exact List.mem_append_left _ listed
  have counted := (deadlocked_waited_iff known).mpr waiter
  have zero := early other listed
  simp [counted] at zero

/-- The waits-for relation among the transactions that are left. -/
def WaitsAmong (resources : List Rsb) (waiter holder : UInt64) : Prop :=
  Waits resources waiter holder ∧
    waiter ∈ (deadlocked resources).transactions.map (·.xid) ∧
    holder ∈ (deadlocked resources).transactions.map (·.xid)

theorem waitsAmong_cycle_iff (xid : UInt64) :
    TransGen (WaitsAmong resources) xid xid ↔
      TransGen (Waits resources) xid xid := by
  constructor
  · intro cycle
    have weaker : WaitsAmong resources ≤ Waits resources :=
      fun _ _ waits => waits.1
    exact TransGen.mono weaker _ _ cycle
  · intro cycle
    have reaches : ReachesCycle (Waits resources) xid := ⟨xid, .refl, cycle⟩
    refine TransGen.mono ?_ _ _ (reaches.path cycle)
    intro waiter holder step
    exact ⟨step.1, (mem_deadlocked_iff waiter).mpr step.2.1,
      (mem_deadlocked_iff holder).mpr step.2.2⟩

/-- When a deadlock is found, a transaction is chosen.  It is on a cycle of
those that are left if and only if every transaction that somebody waits for
and that leads into a cycle without being on one comes, in the list, after a
transaction on a cycle. -/
theorem victim_on_cycle_iff (resources : List Rsb)
    (found : (deadlocked resources).transactions ≠ []) :
    ∃ tr, findTransToCancel (deadlocked resources).transactions = some tr ∧
      (TransGen (WaitsAmong resources) tr.xid tr.xid ↔
        ∀ front xid back, transOrder resources = front ++ xid :: back →
          Candidate resources xid →
          ¬ TransGen (Waits resources) xid xid →
          ∃ other ∈ front, TransGen (Waits resources) other other) := by
  obtain ⟨tr, chosen⟩ := findTransToCancel_deadlocked found
  obtain ⟨front, back, order, candidate, early⟩ :=
    findTransToCancel_first chosen
  refine ⟨tr, chosen, ?_⟩
  rw [waitsAmong_cycle_iff]
  have distinct : (transOrder resources).Nodup :=
    (createTransList_collected resources).distinct
  constructor
  · intro cycle start xid rest split leads off
    have apart : tr.xid ≠ xid := fun same => off (same ▸ cycle)
    refine ⟨tr.xid, ?_, cycle⟩
    by_contra late
    -- otherwise the candidate comes before the first one
    have inFront : xid ∈ front := by
      rw [order] at split
      rcases List.append_eq_append_iff.mp split with
        ⟨more, rfl, same⟩ | ⟨more, rfl, same⟩
      · cases more with
        | nil => exact (apart (List.cons.inj same).1).elim
        | cons head more =>
            obtain ⟨rfl, _⟩ := List.cons.inj same
            exact (late (List.mem_append_right _ List.mem_cons_self)).elim
      · cases more with
        | nil => exact (apart (List.cons.inj same).1.symm).elim
        | cons head more =>
            obtain ⟨rfl, _⟩ := List.cons.inj same
            exact List.mem_append_right _ List.mem_cons_self
    exact early xid inFront leads
  · intro guarded
    by_contra off
    obtain ⟨other, inFront, cycle⟩ :=
      guarded front tr.xid back order candidate off
    exact early other inFront (candidate_of_cycle cycle)

/-- The only deadlock of `mutualWait` consists of its two transactions. -/
theorem mutualWait_victim :
    (∀ xid ∈ transOrder mutualWait,
        TransGen (Waits mutualWait) xid xid) ∧
      ∃ tr, findTransToCancel (deadlocked mutualWait).transactions =
          some tr ∧
        TransGen (WaitsAmong mutualWait) tr.xid tr.xid := by
  have first : Waits mutualWait 1 2 := by
    unfold Waits
    decide
  have second : Waits mutualWait 2 1 := by
    unfold Waits
    decide
  have cycles : ∀ xid ∈ transOrder mutualWait,
      TransGen (Waits mutualWait) xid xid := by
    have order : transOrder mutualWait = [2, 1] := by decide
    rw [order]
    simp only [List.forall_mem_cons]
    exact ⟨.tail (.single second) first, .tail (.single first) second,
      List.forall_mem_nil _⟩
  obtain ⟨tr, chosen, onCycle⟩ := victim_on_cycle_iff mutualWait (by decide)
  refine ⟨cycles, tr, chosen, onCycle.mpr ?_⟩
  intro front xid back order _ off
  refine (off (cycles xid ?_)).elim
  rw [order]
  exact List.mem_append_right _ List.mem_cons_self

/-- Transactions 3 and 4 wait for each other, 2 waits for 3 and 1 for 2. -/
def queueBehindCycle : List Rsb :=
  [{ name := "a", locks := [plainLkb 3 2 .ex .un, plainLkb 4 1 .un .ex] },
    { name := "b", locks := [plainLkb 4 2 .ex .un, plainLkb 3 1 .un .ex] },
    { name := "c", locks := [plainLkb 3 2 .ex .un, plainLkb 2 1 .un .ex] },
    { name := "d", locks := [plainLkb 2 2 .ex .un, plainLkb 1 1 .un .ex] }]

theorem queueBehindCycle_waits {waiter holder : UInt64}
    (waits : Waits queueBehindCycle waiter holder) :
    (waiter, holder) ∈ ([(1, 2), (2, 3), (3, 4), (4, 3)] :
      List (UInt64 × UInt64)) := by
  obtain ⟨tr, member, rfl⟩ := exists_of_mem_xids (waits_known waits).1
  have slot := ((waitforGraph_linked queueBehindCycle).mem_live tr member
    holder).mpr waits
  have slots : ∀ tr ∈ (waitforGraph queueBehindCycle).transactions,
      tr.live.map (tr.xid, ·) ⊆
        ([(1, 2), (2, 3), (3, 4), (4, 3)] : List (UInt64 × UInt64)) := by
    decide
  exact slots tr member (List.mem_map_of_mem slot)

/-- Transaction 2 is cancelled, which is not part of the deadlock. -/
theorem queueBehindCycle_victim_off_cycle :
    (deadlocked queueBehindCycle).transactions ≠ [] ∧
      ¬ ∃ tr, findTransToCancel
          (deadlocked queueBehindCycle).transactions = some tr ∧
        TransGen (WaitsAmong queueBehindCycle) tr.xid tr.xid := by
  refine ⟨by decide, ?_⟩
  rintro ⟨tr, chosen, cycle⟩
  have two : (findTransToCancel
      (deadlocked queueBehindCycle).transactions).map (·.xid) = some 2 := by
    decide
  rw [chosen] at two
  have two : tr.xid = 2 := Option.some.inj two
  rw [waitsAmong_cycle_iff, two] at cycle
  obtain ⟨waiter, path, waits⟩ := TransGen.tail'_iff.mp cycle
  have one : waiter = 1 := by
    simpa using queueBehindCycle_waits waits
  subst one
  rcases path.cases_tail with same | ⟨other, _, last⟩
  · cases same
  · simpa using queueBehindCycle_waits last

end Victim

end Dlm.Deadlock
