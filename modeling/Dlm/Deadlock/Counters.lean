import Dlm.Deadlock.Cancel

/-!
# The counters of the graph

The loops that remove a transaction from the slots of the others stop early
when a counter is zero.  They lose nothing, because the counters are exact from
the moment the graph is built, whatever passes of the reduction and whatever
cancellations follow.
-/

namespace Dlm.Deadlock

/-- What is done to the graph once it is built. -/
inductive GraphStep where
  | reduce
  | cancel
  deriving DecidableEq, Repr

def graphStep (resources : List Rsb) (graph : Graph) : GraphStep → Graph
  | .reduce =>
      { graph with transactions := (reduceWaitforGraph graph.transactions).1 }
  | .cancel => (cancelTrans resources graph).1

/-- The counters agree with the slots, and the slots with the list: a
transaction is known by its `xid`, so one that is not in the list any more has
been freed. -/
structure CountersExact (transactions : List Trans) : Prop where
  distinct : (transactions.map (·.xid)).Nodup
  others : ∀ tr ∈ transactions, tr.othersWaitingOnUs =
    transactions.countP (fun other => some tr.xid ∈ other.waitfor)
  counted : ∀ tr ∈ transactions,
    tr.waitforCount = tr.waitfor.countP (·.isSome)
  once : ∀ tr ∈ transactions, ∀ xid, tr.waitfor.count (some xid) ≤ 1
  alive : ∀ tr ∈ transactions, ∀ xid, some xid ∈ tr.waitfor →
    xid ∈ transactions.map (·.xid)

theorem length_live (tr : Trans) :
    tr.live.length = tr.waitfor.countP (·.isSome) := by
  rw [Trans.live, List.length_filterMap_eq_countP]
  rfl

variable {edge : UInt64 → UInt64 → Prop} {transactions : List Trans}

theorem Linked.countersExact (linked : Linked edge transactions) :
    CountersExact transactions where
  distinct := linked.distinct
  others := by
    intro tr member
    rw [linked.others tr member]
    simp only [mem_live_iff]
  counted := by
    intro tr member
    rw [linked.counted tr member, length_live]
  once := by
    intro tr member xid
    rw [count_slots]
    exact List.nodup_iff_count_le_one.mp (linked.single tr member) xid
  alive := by
    intro tr member xid slot
    apply linked.inside tr member
    rw [← linked.mem_live tr member, mem_live_iff]
    exact slot

/-- A pass of the reduction leaves the transactions linked. -/
theorem reduceWaitforPass_linked (later : List UInt64)
    (linked : Linked edge transactions) :
    ∃ left, Linked left (reduceWaitforPass later transactions).1 := by
  induction later generalizing transactions edge with
  | nil => exact ⟨edge, linked⟩
  | cons xid later induction =>
      unfold reduceWaitforPass
      cases found : findTrans xid transactions with
      | none => exact induction linked
      | some tr =>
          obtain ⟨member, rfl⟩ := findTrans_eq_some found
          by_cases waits : tr.waitforCount ≠ 0
          · simp only [if_pos waits]
            exact induction linked
          · simp only [if_neg waits]
            have free := (live_eq_nil_iff linked member).mpr
              (Decidable.not_not.mp waits)
            obtain ⟨same, fewer⟩ := linked.remove member free
            rw [same]
            exact induction fewer

theorem graphStep_linked {resources : List Rsb} {graph : Graph}
    (linked : Linked edge graph.transactions) (step : GraphStep) :
    ∃ left, Linked left (graphStep resources graph step).transactions := by
  cases step with
  | reduce => exact reduceWaitforPass_linked _ linked
  | cancel =>
      rw [graphStep, cancelTrans]
      cases chosen : findTransToCancel graph.transactions with
      | none => exact ⟨edge, linked⟩
      | some tr =>
          have member := List.mem_of_find?_eq_some chosen
          have cancelled := @cancelLocks_linked resources tr.xid tr.locks _
            graph linked (List.mem_map_of_mem member)
          exact reduceWaitforPass_linked _ cancelled.1

/-- When the graph has been built, and after any passes of the reduction and
any cancellations, the counters are exact. -/
theorem counters_exact (resources : List Rsb) (steps : List GraphStep) :
    CountersExact
      (steps.foldl (graphStep resources)
        (waitforGraph resources)).transactions := by
  suffices linked : ∃ left, Linked left
      (steps.foldl (graphStep resources)
        (waitforGraph resources)).transactions by
    obtain ⟨left, linked⟩ := linked
    exact linked.countersExact
  have built : ∃ edge, Linked edge (waitforGraph resources).transactions :=
    ⟨_, waitforGraph_linked resources⟩
  generalize waitforGraph resources = graph at built
  induction steps generalizing graph with
  | nil => exact built
  | cons step later induction =>
      obtain ⟨edge, linked⟩ := built
      exact induction _ (graphStep_linked linked step)

end Dlm.Deadlock
