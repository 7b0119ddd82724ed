import Dlm.Deadlock.Reduce

/-!
# The cancelled transaction

`cancel_trans` takes back what the locks of the chosen transaction have put
into its slots, by means of `waitfor_trans`.  A lock that waits for several
transactions has only the last one there.
-/

namespace Dlm.Deadlock

variable {resources : List Rsb}

/-- The transactions without some edges. -/
theorem Linked.removeWaitfor {edge : UInt64 → UInt64 → Prop}
    {transactions : List Trans} (linked : Linked edge transactions)
    {tr : Trans} (member : tr ∈ transactions) (holder : UInt64) :
    Linked (fun first second =>
        edge first second ∧ ¬(first = tr.xid ∧ second = holder))
      (removeWaitfor tr.xid holder transactions) := by
  have counted := linked.counted tr member
  rw [Deadlock.removeWaitfor, findTrans_self linked.distinct member]
  simp only [droppedWaitfor_eq counted]
  rw [updateTrans_unlink]
  have live : ∀ other ∈ transactions,
      (unlink tr.xid holder (tr.live.count holder) other).live =
        if other.xid = tr.xid then other.live.filter (· != holder)
        else other.live :=
    fun other there => (unlink_live (linked.counted other there)).1
  have xids : (transactions.map (unlink tr.xid holder
      (tr.live.count holder))).map (·.xid) = transactions.map (·.xid) := by
    rw [List.map_map]
    exact List.map_congr_left fun other _ => unlink_xid other
  refine ⟨?_, ?_, ?_, ?_, ?_, ?_, ?_⟩
  · rw [xids]
    exact linked.distinct
  · intro other there
    obtain ⟨old, known, rfl⟩ := List.mem_map.mp there
    exact (unlink_live (linked.counted old known)).2
  · intro other there
    obtain ⟨old, known, rfl⟩ := List.mem_map.mp there
    by_cases held : old.xid = holder
    · have countable : Countable holder transactions := by
        refine ⟨linked.distinct, held ▸ List.mem_map_of_mem known,
          linked.counted, linked.single, ?_⟩
        rw [othersWaiting, ← held, findTrans_self linked.distinct known]
        exact linked.others old known
      have after := (countable.unlink member).others
      rw [othersWaiting, findTrans_map unlink_xid, ← held,
        findTrans_self linked.distinct known] at after
      rw [unlink_xid]
      rw [← held]
      exact after
    · rw [unlink_xid, unlink_of_ne held]
      have same : (if old.xid = tr.xid then dropWaitfor holder old
          else old).othersWaitingOnUs = old.othersWaitingOnUs := by
        split
        · rfl
        · rfl
      rw [same, linked.others old known, List.countP_map]
      congr 1
      apply List.countP_congr
      intro other listed
      by_cases equal : other.xid = tr.xid
      · simp [live other listed, equal, held]
      · simp [live other listed, equal]
  · intro other there xid
    obtain ⟨old, known, rfl⟩ := List.mem_map.mp there
    rw [live old known, unlink_xid]
    by_cases equal : old.xid = tr.xid
    · rw [if_pos equal, List.mem_filter, linked.mem_live old known,
        bne_iff_ne]
      simp [equal]
    · rw [if_neg equal, linked.mem_live old known]
      simp [equal]
  · intro other there
    obtain ⟨old, known, rfl⟩ := List.mem_map.mp there
    rw [live old known]
    split
    · exact (linked.single old known).filter _
    · exact linked.single old known
  · rintro other there ⟨self, _⟩
    obtain ⟨old, known, rfl⟩ := List.mem_map.mp there
    rw [unlink_xid] at self
    exact linked.apart old known self
  · rintro other there xid ⟨edge, _⟩
    obtain ⟨old, known, rfl⟩ := List.mem_map.mp there
    rw [unlink_xid] at edge
    rw [xids]
    exact linked.inside old known xid edge

/-- A lock of the list that is not granted has the transaction as its
`waitfor_trans`. -/
def Recalled (resources : List Rsb) (waitforTrans : LkbPtr → Option UInt64)
    (locks : List LkbPtr) (holder : UInt64) : Prop :=
  ∃ ptr ∈ locks, ∃ lkb, lkbAt resources ptr = some lkb ∧
    lkb.lock.status ≠ DLM_LKSTS_GRANTED ∧ waitforTrans ptr = some holder

theorem recalled_cons {waitforTrans : LkbPtr → Option UInt64} {ptr : LkbPtr}
    {later : List LkbPtr} {holder : UInt64} :
    Recalled resources waitforTrans (ptr :: later) holder ↔
      (∃ lkb, lkbAt resources ptr = some lkb ∧
        lkb.lock.status ≠ DLM_LKSTS_GRANTED ∧
        waitforTrans ptr = some holder) ∨
      Recalled resources waitforTrans later holder := by
  simp [Recalled]

/-- The loop of `cancel_trans` takes away what the locks held. -/
theorem cancelLocks_linked {xid : UInt64} (locks : List LkbPtr)
    {edge : UInt64 → UInt64 → Prop} {graph : Graph}
    (linked : Linked edge graph.transactions)
    (present : xid ∈ graph.transactions.map (·.xid)) :
    Linked (fun first second => edge first second ∧ ¬(first = xid ∧
        Recalled resources graph.waitforTrans locks second))
      (cancelLocks resources xid locks graph).1.transactions ∧
    xid ∈ (cancelLocks resources xid locks graph).1.transactions.map
      (·.xid) := by
  induction locks generalizing graph edge with
  | nil =>
      refine ⟨linked.congr fun tr _ second => ?_, present⟩
      simp [Recalled]
  | cons ptr later induction =>
      unfold cancelLocks
      cases found : lkbAt resources ptr with
      | none =>
          obtain ⟨rest, kept⟩ := induction linked present
          refine ⟨rest.congr fun tr _ second => ?_, kept⟩
          simp [recalled_cons, found]
      | some lkb =>
          by_cases granted : lkb.lock.status = DLM_LKSTS_GRANTED
          · simp only [if_pos granted]
            obtain ⟨rest, kept⟩ := induction linked present
            refine ⟨rest.congr fun tr _ second => ?_, kept⟩
            simp [recalled_cons, found, granted]
          · simp only [if_neg granted]
            cases held : graph.waitforTrans ptr with
            | none =>
                obtain ⟨rest, kept⟩ := induction linked present
                refine ⟨rest.congr fun tr _ second => ?_, kept⟩
                simp [recalled_cons, found, held]
            | some holder =>
                obtain ⟨tr, member, rfl⟩ := exists_of_mem_xids present
                obtain ⟨rest, kept⟩ := @induction _
                  { graph with transactions :=
                      removeWaitfor tr.xid holder graph.transactions }
                  (linked.removeWaitfor member holder)
                  (by rw [removeWaitfor_xids]; exact present)
                refine ⟨rest.congr fun other _ second => ?_, kept⟩
                have first : (∃ lkb, lkbAt resources ptr = some lkb ∧
                    lkb.lock.status ≠ DLM_LKSTS_GRANTED ∧
                    graph.waitforTrans ptr = some second) ↔
                    second = holder := by
                  rw [found, held]
                  constructor
                  · rintro ⟨_, _, _, same⟩
                    exact (Option.some.inj same).symm
                  · rintro rfl
                    exact ⟨lkb, rfl, granted, rfl⟩
                rw [recalled_cons, first]
                tauto

theorem reduceWaitforPass_subset (later : List UInt64)
    (transactions : List Trans) :
    ∀ xid ∈ (reduceWaitforPass later transactions).1.map (·.xid),
      xid ∈ transactions.map (·.xid) := by
  induction later generalizing transactions with
  | nil => exact fun _ present => present
  | cons head later induction =>
      unfold reduceWaitforPass
      split
      · exact induction transactions
      · split
        · exact induction transactions
        · intro xid present
          have kept := induction _ xid present
          obtain ⟨tr, listed, rfl⟩ := List.mem_map.mp kept
          rw [← removeTransLoop_xids head (transactions.map (·.xid))]
          exact List.mem_map_of_mem (List.mem_of_mem_filter listed)

/-- A pass removes a transaction that waits for nobody. -/
theorem reduceWaitforPass_removes (later : List UInt64)
    {edge : UInt64 → UInt64 → Prop} {transactions : List Trans}
    (linked : Linked edge transactions) {tr : Trans}
    (member : tr ∈ transactions) (free : tr.live = [])
    (listed : tr.xid ∈ later) :
    tr.xid ∉ (reduceWaitforPass later transactions).1.map (·.xid) := by
  induction later generalizing transactions edge tr with
  | nil => cases listed
  | cons head later induction =>
      unfold reduceWaitforPass
      by_cases first : head = tr.xid
      · subst first
        have idle : tr.waitforCount = 0 :=
          (live_eq_nil_iff linked member).mp free
        rw [findTrans_self linked.distinct member]
        simp only [if_neg (Decidable.not_not.mpr idle)]
        intro present
        have kept := reduceWaitforPass_subset _ _ _ present
        obtain ⟨other, there, same⟩ := List.mem_map.mp kept
        exact bne_iff_ne.mp (List.mem_filter.mp there).2 same
      · have rest := (List.mem_cons.mp listed).resolve_left (Ne.symm first)
        cases found : findTrans head transactions with
        | none => exact induction linked member free rest
        | some other =>
            obtain ⟨there, rfl⟩ := findTrans_eq_some found
            by_cases waits : other.waitforCount ≠ 0
            · simp only [if_pos waits]
              exact induction linked member free rest
            · simp only [if_neg waits]
              obtain ⟨same, fewer⟩ := linked.remove there
                ((live_eq_nil_iff linked there).mpr
                  (Decidable.not_not.mp waits))
              rw [same]
              have kept : dropWaitfor other.xid tr ∈
                  (transactions.filter (·.xid != other.xid)).map
                    (dropWaitfor other.xid) :=
                List.mem_map_of_mem (List.mem_filter.mpr
                  ⟨member, bne_iff_ne.mpr (Ne.symm first)⟩)
              have empty : (dropWaitfor other.xid tr).live = [] := by
                rw [live_dropWaitfor (linked.counted tr member), free]
                rfl
              have gone := induction fewer kept empty rest
              exact gone

/-- What is left when the first reduction is over. -/
def deadlocked (resources : List Rsb) : Graph :=
  { waitforGraph resources with
    transactions :=
      reduceWaitforGraphLoop (waitforGraph resources).transactions }

theorem deadlocked_reduced (resources : List Rsb) :
    Reduced (Waits resources)
        ((waitforGraph resources).transactions.map (·.xid))
        (deadlocked resources).transactions ∧
      ∀ tr ∈ (deadlocked resources).transactions, tr.waitforCount ≠ 0 := by
  obtain ⟨left, ends, rest⟩ := reduceWaitforLoop_reduced
    (waitforGraph_reduced resources)
    fun _ _ waits => (waits_known waits).2
  have same : (deadlocked resources).transactions = left := by
    simp only [deadlocked, reduceWaitforGraphLoop,
      ends _ (Nat.lt_succ_self _), Option.get_some]
  rw [same]
  exact rest

/-- Somebody is waited for in a deadlock. -/
theorem findTransToCancel_deadlocked
    (found : (deadlocked resources).transactions ≠ []) :
    ∃ tr, findTransToCancel (deadlocked resources).transactions = some tr := by
  obtain ⟨reduced, waiting⟩ := deadlocked_reduced resources
  obtain ⟨first, member⟩ := List.exists_mem_of_ne_nil _ found
  obtain ⟨holder, there, waits⟩ := reduced.stuck resources waiting first.xid
    (List.mem_map_of_mem member)
  obtain ⟨tr, listed, rfl⟩ := exists_of_mem_xids there
  have slot := (reduced.linked.mem_live first member tr.xid).mpr
    ⟨waits, there⟩
  have waited : tr.othersWaitingOnUs ≠ 0 := by
    rw [reduced.linked.others tr listed]
    intro zero
    have none_ := List.countP_eq_zero.mp (Int.natCast_eq_zero.mp zero)
    exact none_ first member (decide_eq_true slot)
  cases search : findTransToCancel (deadlocked resources).transactions with
  | some tr => exact ⟨tr, rfl⟩
  | none =>
      have absent := List.find?_eq_none.mp search tr listed
      exact (absent (bne_iff_ne.mpr waited)).elim

/-- The transactions after the loop of `cancel_trans` over the locks of the
chosen one. -/
def afterCancel (resources : List Rsb) (tr : Trans) : List Trans :=
  (cancelLocks resources tr.xid tr.locks
    (deadlocked resources)).1.transactions

/-- When a deadlock is found, a transaction is chosen.  It is left without
anybody to wait for and removed by the next reduction if and only if everybody
it waits for is the `waitfor_trans` of one of its locks that are not
granted. -/
theorem cancelled_released_iff (resources : List Rsb)
    (found : (deadlocked resources).transactions ≠ []) :
    ∃ tr, findTransToCancel (deadlocked resources).transactions = some tr ∧
      (((∃ left, findTrans tr.xid (afterCancel resources tr) = some left ∧
            left.waitforCount = 0) ∧
          tr.xid ∉ (reduceWaitforGraph (afterCancel resources tr)).1.map
            (·.xid)) ↔
        ∀ holder ∈ tr.live, ∃ ptr ∈ tr.locks, ∃ lkb,
          lkbAt resources ptr = some lkb ∧
            lkb.lock.status ≠ DLM_LKSTS_GRANTED ∧
            (deadlocked resources).waitforTrans ptr = some holder) := by
  obtain ⟨reduced, _⟩ := deadlocked_reduced resources
  obtain ⟨tr, chosen⟩ := findTransToCancel_deadlocked found
  have member : tr ∈ (deadlocked resources).transactions :=
    List.mem_of_find?_eq_some chosen
  refine ⟨tr, chosen, ?_⟩
  obtain ⟨linked, present⟩ := @cancelLocks_linked resources tr.xid tr.locks
    _ (deadlocked resources) reduced.linked (List.mem_map_of_mem member)
  obtain ⟨left, there, same⟩ := exists_of_mem_xids present
  have lookup : findTrans tr.xid (afterCancel resources tr) = some left := by
    rw [← same]
    exact findTrans_self linked.distinct there
  have free : left.live = [] ↔ ∀ holder ∈ tr.live,
      Recalled resources (deadlocked resources).waitforTrans tr.locks
        holder := by
    rw [List.eq_nil_iff_forall_not_mem]
    apply forall_congr'
    intro holder
    rw [linked.mem_live left there holder, same,
      reduced.linked.mem_live tr member holder]
    constructor
    · intro none_ waits
      by_contra forgotten
      exact none_ ⟨waits, fun both => forgotten both.2⟩
    · rintro recalled ⟨waits, kept⟩
      exact kept ⟨rfl, recalled waits⟩
  constructor
  · rintro ⟨⟨other, search, zero⟩, _⟩
    rw [lookup] at search
    cases search
    exact free.mp ((live_eq_nil_iff linked there).mpr zero)
  · intro recalled
    have empty := free.mpr recalled
    refine ⟨⟨left, lookup, (live_eq_nil_iff linked there).mp empty⟩, ?_⟩
    rw [← same]
    exact reduceWaitforPass_removes _ linked there empty
      (List.mem_map_of_mem there)

/-- A lock on a resource for concrete runs. -/
def plainLkb (xid : UInt64) (status : Int8) (grmode rqmode : Mode) : Lkb :=
  { createLkb with
    lock :=
      { PackLock.cleared with
        xid := xid
        status := status
        grmode := grmode
        rqmode := rqmode } }

/-- Two transactions wait for each other. -/
def mutualWait : List Rsb :=
  [{ name := "a"
     locks := [plainLkb 1 2 .ex .un, plainLkb 2 1 .un .ex] },
    { name := "b"
      locks := [plainLkb 2 2 .ex .un, plainLkb 1 1 .un .ex] }]

/-- Transaction 3 waits for two readers, which both wait for it. -/
def writerOfTwoReaders : List Rsb :=
  [{ name := "a"
     locks :=
       [plainLkb 1 2 .pr .un, plainLkb 2 2 .pr .un, plainLkb 3 1 .un .ex] },
    { name := "b"
      locks :=
        [plainLkb 3 2 .ex .un, plainLkb 1 1 .un .ex, plainLkb 2 1 .un .ex] }]

/-- The transaction that is chosen for such a deadlock. -/
def secondWaits : Trans :=
  { xid := 2
    locks := [{ rsb := 1, place := 0 }, { rsb := 0, place := 1 }]
    othersWaitingOnUs := 1
    waitforCount := 1
    waitfor := [some 1, none, none, none] }

theorem mutualWait_released :
    findTransToCancel (deadlocked mutualWait).transactions =
        some secondWaits ∧
      (∀ holder ∈ secondWaits.live, ∃ ptr ∈ secondWaits.locks, ∃ lkb,
        lkbAt mutualWait ptr = some lkb ∧
          lkb.lock.status ≠ DLM_LKSTS_GRANTED ∧
          (deadlocked mutualWait).waitforTrans ptr = some holder) ∧
      (∃ left, findTrans 2 (afterCancel mutualWait secondWaits) = some left ∧
        left.waitforCount = 0) ∧
      2 ∉ (reduceWaitforGraph (afterCancel mutualWait secondWaits)).1.map
        (·.xid) := by
  have recalled : ∀ holder ∈ secondWaits.live, ∃ ptr ∈ secondWaits.locks,
      ∃ lkb, lkbAt mutualWait ptr = some lkb ∧
        lkb.lock.status ≠ DLM_LKSTS_GRANTED ∧
        (deadlocked mutualWait).waitforTrans ptr = some holder := by
    intro holder member
    cases List.mem_singleton.mp member
    exact ⟨{ rsb := 0, place := 1 }, by decide, plainLkb 2 1 .un .ex,
      by decide, by decide, by decide⟩
  have second : findTransToCancel (deadlocked mutualWait).transactions =
      some secondWaits := by
    decide
  obtain ⟨tr, chosen, released⟩ :=
    cancelled_released_iff mutualWait (by decide)
  cases Option.some.inj (chosen.symm.trans second)
  exact ⟨second, recalled, released.mpr recalled⟩

/-- The chosen transaction still waits for one of the readers and stays in the
graph. -/
theorem writer_not_released :
    (deadlocked writerOfTwoReaders).transactions ≠ [] ∧
      ∃ tr, findTransToCancel
          (deadlocked writerOfTwoReaders).transactions = some tr ∧
        ((findTrans tr.xid (afterCancel writerOfTwoReaders tr)).map
          (·.waitforCount)) = some 1 ∧
        tr.xid ∈ (reduceWaitforGraph (afterCancel writerOfTwoReaders
          tr)).1.map (·.xid) := by
  refine ⟨by decide, _, rfl, ?_, ?_⟩
  · decide
  · decide

end Dlm.Deadlock
