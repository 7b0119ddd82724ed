import Dlm.Deadlock.Waits
import Dlm.Lib.Elimination

/-!
# The reduction of the graph

`reduce_waitfor_graph` removes transactions that wait for nobody.  The early
exits of the loops it calls lose nothing, because the counters agree with the
slots, so a removal takes the transaction out of all slots.  The loop around it
ends, and what it leaves are the transactions from which a cycle of the
waits-for relation can be reached.
-/

namespace Dlm.Deadlock

open Elimination Relation

variable {tr : Trans} {transactions : List Trans} {list : List UInt64}

section Slots

/-- A slot when a transaction is gone. -/
def clearSlot (remove : UInt64) (slot : Option UInt64) : Option UInt64 :=
  if slot = some remove then none else slot

theorem map_clearSlot {remove : UInt64} {slots : List (Option UInt64)}
    (absent : some remove ∉ slots) :
    slots.map (clearSlot remove) = slots := by
  induction slots with
  | nil => rfl
  | cons slot later induction =>
      have differ : slot ≠ some remove := fun same =>
        absent (same ▸ List.mem_cons_self)
      have rest : some remove ∉ later := fun present =>
        absent (List.mem_cons_of_mem _ present)
      rw [List.map_cons, induction rest, clearSlot, if_neg differ]

theorem removeWaitforLoop_eq {remove : UInt64} {count : Nat}
    {slots : List (Option UInt64)}
    (enough : (slots.filterMap id).length ≤ count) :
    removeWaitforLoop remove count slots =
      (slots.map (clearSlot remove), count - slots.count (some remove),
        slots.count (some remove)) := by
  induction slots generalizing count with
  | nil => rfl
  | cons slot later induction =>
      unfold removeWaitforLoop
      by_cases exhausted : count = 0
      · have absent : some remove ∉ slot :: later := by
          intro present
          have live : remove ∈ (slot :: later).filterMap id :=
            List.mem_filterMap.mpr ⟨_, present, rfl⟩
          have := List.length_pos_of_mem live
          omega
        rw [if_pos exhausted, map_clearSlot absent,
          List.count_eq_zero.mpr absent]
        rfl
      rw [if_neg exhausted]
      by_cases found : slot = some remove
      · subst found
        have fewer : (later.filterMap id).length ≤ count - 1 := by
          have grown : (some remove :: later).filterMap id =
              remove :: later.filterMap id := rfl
          rw [grown, List.length_cons] at enough
          omega
        rw [if_pos rfl, induction fewer, List.count_cons_self]
        simp only [List.map_cons, clearSlot, if_true]
        rw [Nat.sub_sub, Nat.add_comm 1]
      · have fewer : (later.filterMap id).length ≤ count := by
          refine Nat.le_trans (List.Sublist.length_le ?_) enough
          exact (List.sublist_cons_self slot later).filterMap id
        rw [if_neg found, induction fewer, List.count_cons_of_ne found]
        simp only [List.map_cons, clearSlot, if_neg found]

theorem count_slots (remove : UInt64) (slots : List (Option UInt64)) :
    slots.count (some remove) = (slots.filterMap id).count remove := by
  induction slots with
  | nil => rfl
  | cons slot later induction =>
      cases slot with
      | none => simpa using induction
      | some xid => simp [List.count_cons, induction]

variable {remove : UInt64}

theorem dropWaitfor_eq (counted : tr.waitforCount = tr.live.length) :
    dropWaitfor remove tr =
      { tr with
        waitfor := tr.waitfor.map (clearSlot remove)
        waitforCount := tr.waitforCount - tr.live.count remove } := by
  unfold dropWaitfor
  rw [removeWaitforLoop_eq (Nat.le_of_eq counted.symm), count_slots]
  rfl

theorem droppedWaitfor_eq (counted : tr.waitforCount = tr.live.length) :
    droppedWaitfor remove tr = tr.live.count remove := by
  unfold droppedWaitfor
  rw [removeWaitforLoop_eq (Nat.le_of_eq counted.symm), count_slots]
  rfl

theorem live_dropWaitfor (counted : tr.waitforCount = tr.live.length) :
    (dropWaitfor remove tr).live = tr.live.filter (· != remove) := by
  rw [dropWaitfor_eq counted]
  simp only [Trans.live, List.filterMap_map, List.filter_filterMap]
  congr 1
  funext slot
  cases slot with
  | none => rfl
  | some xid =>
      by_cases same : xid = remove
      · simp [clearSlot, same, Option.filter]
      · simp [clearSlot, same, Option.filter]

theorem dropWaitfor_counted (counted : tr.waitforCount = tr.live.length) :
    (dropWaitfor remove tr).waitforCount =
      (dropWaitfor remove tr).live.length := by
  rw [live_dropWaitfor counted, dropWaitfor_eq counted]
  have split := @List.length_eq_countP_add_countP _ (· == remove) tr.live
  have rest : tr.live.countP (fun xid => decide ¬(xid == remove) = true) =
      (tr.live.filter (· != remove)).length := by
    rw [List.countP_eq_length_filter]
    congr 2
    funext xid
    by_cases same : xid = remove
    · simp [same]
    · simp [same]
  simp only [counted, List.count]
  omega

theorem dropWaitfor_absent (counted : tr.waitforCount = tr.live.length)
    (absent : remove ∉ tr.live) : dropWaitfor remove tr = tr := by
  rw [dropWaitfor_eq counted, List.count_eq_zero.mpr absent,
    map_clearSlot (fun present => absent ((mem_live_iff tr remove).mpr present))]
  rfl

theorem dropWaitfor_dropWaitfor
    (counted : tr.waitforCount = tr.live.length) :
    dropWaitfor remove (dropWaitfor remove tr) = dropWaitfor remove tr := by
  apply dropWaitfor_absent (dropWaitfor_counted counted)
  rw [live_dropWaitfor counted]
  simp

end Slots

section Removal

/-- A transaction when the first one no longer has the second in its
slots. -/
def unlink (waiter remove : UInt64) (dropped : Nat) (tr : Trans) : Trans :=
  { (if tr.xid = waiter then dropWaitfor remove tr else tr) with
    othersWaitingOnUs :=
      tr.othersWaitingOnUs - if tr.xid = remove then (dropped : Int) else 0 }

variable {waiter remove : UInt64} {dropped : Nat}

theorem updateTrans_unlink (transactions : List Trans) :
    updateTrans remove
        (fun tr =>
          { tr with othersWaitingOnUs := tr.othersWaitingOnUs - dropped })
        (updateTrans waiter (dropWaitfor remove) transactions) =
      transactions.map (unlink waiter remove dropped) := by
  rw [updateTrans_updateTrans (dropWaitfor remove) (· - (dropped : Int))
    waiter remove (fun _ => rfl) (fun _ => rfl)]
  apply List.map_congr_left
  intro tr _
  by_cases second : tr.xid = remove
  · rw [unlink, if_pos second, if_pos second]
  · rw [unlink, if_neg second, if_neg second, Int.sub_zero]

theorem unlink_xid (tr : Trans) :
    (unlink waiter remove dropped tr).xid = tr.xid := by
  unfold unlink
  split
  · rfl
  · rfl

theorem unlink_waitfor (tr : Trans) :
    (unlink waiter remove dropped tr).waitfor =
        (if tr.xid = waiter then dropWaitfor remove tr else tr).waitfor ∧
      (unlink waiter remove dropped tr).waitforCount =
        (if tr.xid = waiter then dropWaitfor remove tr
          else tr).waitforCount :=
  ⟨rfl, rfl⟩

theorem unlink_of_ne (apart : tr.xid ≠ remove) :
    unlink waiter remove dropped tr =
      if tr.xid = waiter then dropWaitfor remove tr else tr := by
  rw [unlink, if_neg apart, Int.sub_zero]
  by_cases same : tr.xid = waiter
  · rw [if_pos same]
    rfl
  · rw [if_neg same]

/-- What `remove_trans` relies on: the counters agree with the slots. -/
structure Countable (remove : UInt64) (transactions : List Trans) :
    Prop where
  distinct : (transactions.map (·.xid)).Nodup
  present : remove ∈ transactions.map (·.xid)
  counted : ∀ tr ∈ transactions, tr.waitforCount = tr.live.length
  single : ∀ tr ∈ transactions, tr.live.Nodup
  others : othersWaiting remove transactions =
    transactions.countP (fun other => remove ∈ other.live)

theorem unlink_live (counted : tr.waitforCount = tr.live.length) :
    (unlink waiter remove dropped tr).live =
        (if tr.xid = waiter then tr.live.filter (· != remove)
          else tr.live) ∧
      (unlink waiter remove dropped tr).waitforCount =
        (unlink waiter remove dropped tr).live.length := by
  unfold Trans.live
  rw [(unlink_waitfor tr).1, (unlink_waitfor tr).2]
  by_cases same : tr.xid = waiter
  · simp only [if_pos same]
    exact ⟨live_dropWaitfor counted, dropWaitfor_counted counted⟩
  · simp only [if_neg same, true_and]
    exact counted

/-- A count over the transactions, split at one of them. -/
theorem countP_split (distinct : (transactions.map (·.xid)).Nodup)
    (member : tr ∈ transactions) (test : Trans → Bool) :
    transactions.countP test =
      transactions.countP (fun other => test other && other.xid != tr.xid) +
        if test tr then 1 else 0 := by
  have absent : ∀ other ∈ transactions, other.xid = tr.xid →
      (test other && other.xid != tr.xid) = false := by
    intro other _ same
    simp [same]
  by_cases passes : test tr = true
  · rw [if_pos passes, ← countP_or_xid distinct
      (List.mem_map_of_mem member) absent]
    apply List.countP_congr
    intro other there
    by_cases same : other.xid = tr.xid
    · rw [eq_of_xid distinct there member same]
      simp [passes]
    · simp [same]
  · rw [if_neg passes, Nat.add_zero]
    apply List.countP_congr
    intro other there
    by_cases same : other.xid = tr.xid
    · rw [eq_of_xid distinct there member same]
      simp [passes]
    · simp [same]

theorem findTrans_map {change : Trans → Trans}
    (same : ∀ tr, (change tr).xid = tr.xid) (xid : UInt64)
    (transactions : List Trans) :
    findTrans xid (transactions.map change) =
      (findTrans xid transactions).map change := by
  unfold findTrans
  rw [List.find?_map]
  congr 2
  funext tr
  simp [same]

/-- One round of `remove_trans`. -/
theorem Countable.unlink (countable : Countable remove transactions)
    (member : tr ∈ transactions) :
    Countable remove
      (transactions.map
        (Deadlock.unlink tr.xid remove (tr.live.count remove))) := by
  have live : ∀ other ∈ transactions,
      (Deadlock.unlink tr.xid remove (tr.live.count remove) other).live =
        if other.xid = tr.xid then other.live.filter (· != remove)
        else other.live :=
    fun other there => (unlink_live (countable.counted other there)).1
  have xids : (transactions.map (Deadlock.unlink tr.xid remove
      (tr.live.count remove))).map (·.xid) = transactions.map (·.xid) := by
    rw [List.map_map]
    exact List.map_congr_left fun other _ => unlink_xid other
  refine ⟨?_, ?_, ?_, ?_, ?_⟩
  · rw [xids]
    exact countable.distinct
  · rw [xids]
    exact countable.present
  · intro other there
    obtain ⟨old, listed, rfl⟩ := List.mem_map.mp there
    exact (unlink_live (countable.counted old listed)).2
  · intro other there
    obtain ⟨old, listed, rfl⟩ := List.mem_map.mp there
    rw [live old listed]
    split
    · exact (countable.single old listed).filter _
    · exact countable.single old listed
  · obtain ⟨holder, found⟩ := findTrans_of_mem countable.present
    have before := countable.others
    have same := (findTrans_eq_some found).2
    rw [othersWaiting, found] at before
    rw [othersWaiting, findTrans_map unlink_xid, found]
    have counts := countP_split countable.distinct member
      fun other => decide (remove ∈ other.live)
    have after : (transactions.map (Deadlock.unlink tr.xid remove
        (tr.live.count remove))).countP
          (fun other => decide (remove ∈ other.live)) =
        transactions.countP (fun other =>
          decide (remove ∈ other.live) && other.xid != tr.xid) := by
      rw [List.countP_map]
      apply List.countP_congr
      intro other there
      by_cases equal : other.xid = tr.xid
      · simp [live other there, equal]
      · simp [live other there, equal]
    have once : tr.live.count remove =
        if decide (remove ∈ tr.live) = true then 1 else 0 := by
      by_cases listed : remove ∈ tr.live
      · rw [List.count_eq_one_of_mem (countable.single tr member) listed]
        simp [listed]
      · rw [List.count_eq_zero.mpr listed]
        simp [listed]
    have minus : ((some holder).map (Deadlock.unlink tr.xid remove
        (tr.live.count remove))).map (·.othersWaitingOnUs) =
          some (holder.othersWaitingOnUs - tr.live.count remove) := by
      simp [Deadlock.unlink, same]
    rw [minus, after]
    simp only [Option.map_some, Option.getD_some] at before ⊢
    omega

theorem map_dropWaitfor_absent
    (counted : ∀ tr ∈ transactions, tr.waitforCount = tr.live.length)
    (absent : ∀ tr ∈ transactions, remove ∉ tr.live) :
    transactions.map (dropWaitfor remove) = transactions := by
  rw [List.map_congr_left (g := id), List.map_id]
  intro tr member
  exact dropWaitfor_absent (counted tr member) (absent tr member)

/-- The loop of `remove_trans` clears the slots of all other transactions, if
those that have the removed one in their slots are still to come. -/
theorem removeTransLoop_rest {later : List UInt64}
    (countable : Countable remove transactions)
    (listed : ∀ tr ∈ transactions, remove ∈ tr.live → tr.xid ∈ later)
    (self : ∀ tr ∈ transactions, tr.xid = remove → remove ∉ tr.live) :
    (removeTransLoop remove later transactions).filter (·.xid != remove) =
      (transactions.filter (·.xid != remove)).map (dropWaitfor remove) := by
  induction later generalizing transactions with
  | nil =>
      symm
      apply map_dropWaitfor_absent
      · intro tr member
        exact countable.counted tr (List.mem_of_mem_filter member)
      · intro tr member live
        cases listed tr (List.mem_of_mem_filter member) live
  | cons xid later induction =>
      unfold removeTransLoop
      by_cases same : xid = remove
      · rw [if_pos same]
        apply induction countable _ self
        intro tr member live
        apply (List.mem_cons.mp (listed tr member live)).resolve_left
        intro equal
        exact self tr member (equal.trans same) live
      rw [if_neg same]
      by_cases zero : othersWaiting remove transactions = 0
      · rw [if_pos zero]
        rw [countable.others] at zero
        have none_ := List.countP_eq_zero.mp (Int.natCast_eq_zero.mp zero)
        symm
        apply map_dropWaitfor_absent
        · intro tr member
          exact countable.counted tr (List.mem_of_mem_filter member)
        · intro tr member live
          exact none_ tr (List.mem_of_mem_filter member)
            (decide_eq_true live)
      rw [if_neg zero]
      unfold removeWaitfor
      cases found : findTrans xid transactions with
      | none =>
          apply induction countable _ self
          intro tr member live
          apply (List.mem_cons.mp (listed tr member live)).resolve_left
          intro equal
          have absent := List.find?_eq_none.mp found tr member
          exact absent (beq_iff_eq.mpr equal)
      | some tr =>
          obtain ⟨member, rfl⟩ := findTrans_eq_some found
          simp only [droppedWaitfor_eq (countable.counted tr member)]
          rw [updateTrans_unlink]
          have live : ∀ other ∈ transactions, remove ∈ (unlink tr.xid remove
              (tr.live.count remove) other).live →
              remove ∈ other.live ∧ other.xid ≠ tr.xid := by
            intro other there present
            rw [(unlink_live (countable.counted other there)).1] at present
            split at present
            · simp at present
            · exact ⟨present, by assumption⟩
          rw [induction (countable.unlink member)]
          · rw [List.filter_map, List.map_map]
            simp only [Function.comp_def, unlink_xid]
            apply List.map_congr_left
            intro other kept
            obtain ⟨there, apart⟩ := List.mem_filter.mp kept
            rw [unlink_of_ne (bne_iff_ne.mp apart)]
            split
            · exact dropWaitfor_dropWaitfor (countable.counted other there)
            · rfl
          · intro other there present
            obtain ⟨old, known, rfl⟩ := List.mem_map.mp there
            obtain ⟨slot, apart⟩ := live old known present
            rw [unlink_xid]
            exact (List.mem_cons.mp
              (listed old known slot)).resolve_left apart
          · intro other there equal present
            obtain ⟨old, known, rfl⟩ := List.mem_map.mp there
            rw [unlink_xid] at equal
            exact self old known equal (live old known present).1

end Removal

section Reduction

variable {points : UInt64 → UInt64 → Prop}

/-- The transactions when one that waits for nobody has been removed. -/
theorem Linked.remove {edge : UInt64 → UInt64 → Prop}
    (linked : Linked edge transactions) (member : tr ∈ transactions)
    (free : tr.live = []) :
    (removeTrans tr.xid transactions).filter (·.xid != tr.xid) =
        (transactions.filter (·.xid != tr.xid)).map (dropWaitfor tr.xid) ∧
      Linked (fun first second => edge first second ∧ second ≠ tr.xid)
        ((transactions.filter (·.xid != tr.xid)).map
          (dropWaitfor tr.xid)) := by
  have countable : Countable tr.xid transactions := by
    refine ⟨linked.distinct, List.mem_map_of_mem member, linked.counted,
      linked.single, ?_⟩
    rw [othersWaiting, findTrans_self linked.distinct member]
    exact linked.others tr member
  have xids : ((transactions.filter (·.xid != tr.xid)).map
      (dropWaitfor tr.xid)).map (·.xid) =
      (transactions.filter (·.xid != tr.xid)).map (·.xid) := by
    rw [List.map_map]
    rfl
  constructor
  · apply removeTransLoop_rest countable
    · intro other there _
      exact List.mem_map_of_mem there
    · intro other there same
      rw [eq_of_xid linked.distinct there member same, free]
      exact List.not_mem_nil
  refine ⟨?_, ?_, ?_, ?_, ?_, ?_, ?_⟩
  · rw [xids]
    exact linked.distinct.sublist (List.filter_sublist.map _)
  · intro other there
    obtain ⟨old, kept, rfl⟩ := List.mem_map.mp there
    exact dropWaitfor_counted
      (linked.counted old (List.mem_of_mem_filter kept))
  · intro other there
    obtain ⟨old, kept, rfl⟩ := List.mem_map.mp there
    obtain ⟨known, apart⟩ := List.mem_filter.mp kept
    have others := linked.others old known
    rw [countP_split linked.distinct member, free] at others
    rw [List.countP_map, List.countP_filter]
    simp only [List.not_mem_nil, decide_false, Bool.false_eq_true, if_false,
      Nat.add_zero] at others
    refine others.trans ?_
    congr 1
    apply List.countP_congr
    intro third listed
    have differ : old.xid ≠ tr.xid := bne_iff_ne.mp apart
    have same : (dropWaitfor tr.xid old).xid = old.xid := rfl
    simp [live_dropWaitfor (linked.counted third listed), differ, same]
  · intro other there xid
    obtain ⟨old, kept, rfl⟩ := List.mem_map.mp there
    have known := List.mem_of_mem_filter kept
    rw [live_dropWaitfor (linked.counted old known), List.mem_filter,
      linked.mem_live old known, bne_iff_ne]
    rfl
  · intro other there
    obtain ⟨old, kept, rfl⟩ := List.mem_map.mp there
    have known := List.mem_of_mem_filter kept
    rw [live_dropWaitfor (linked.counted old known)]
    exact (linked.single old known).filter _
  · rintro other there ⟨self, _⟩
    obtain ⟨old, kept, rfl⟩ := List.mem_map.mp there
    exact linked.apart old (List.mem_of_mem_filter kept) self
  · rintro other there xid ⟨edge, apart⟩
    obtain ⟨old, kept, rfl⟩ := List.mem_map.mp there
    rw [xids]
    obtain ⟨third, known, same⟩ := exists_of_mem_xids
      (linked.inside old (List.mem_of_mem_filter kept) xid edge)
    exact List.mem_map.mpr ⟨third,
      List.mem_filter.mpr ⟨known, bne_iff_ne.mpr (same ▸ apart)⟩, same⟩

/-- The transactions in the course of the reduction: they are linked by what
is left of the relation. -/
structure Reduced (points : UInt64 → UInt64 → Prop) (list : List UInt64)
    (transactions : List Trans) : Prop where
  linked : Linked (fun first second =>
    points first second ∧ second ∈ transactions.map (·.xid)) transactions
  remainder : Remainder points list (transactions.map (·.xid))

theorem live_eq_nil_iff {edge : UInt64 → UInt64 → Prop}
    (linked : Linked edge transactions) (member : tr ∈ transactions) :
    tr.live = [] ↔ tr.waitforCount = 0 := by
  rw [linked.counted tr member, List.length_eq_zero_iff]

theorem Reduced.remove (reduced : Reduced points list transactions)
    (closed : ∀ first second, points first second → second ∈ list)
    (member : tr ∈ transactions) (free : tr.waitforCount = 0) :
    Reduced points list
        ((removeTrans tr.xid transactions).filter (·.xid != tr.xid)) ∧
      ((removeTrans tr.xid transactions).filter
        (·.xid != tr.xid)).length + 1 = transactions.length := by
  have empty := (live_eq_nil_iff reduced.linked member).mpr free
  obtain ⟨same, linked⟩ := reduced.linked.remove member empty
  rw [same]
  have xids : ∀ xid, xid ∈ ((transactions.filter (·.xid != tr.xid)).map
      (dropWaitfor tr.xid)).map (·.xid) ↔
      xid ∈ transactions.map (·.xid) ∧ xid ≠ tr.xid := by
    intro xid
    rw [List.map_map]
    constructor
    · intro present
      obtain ⟨other, kept, rfl⟩ := List.mem_map.mp present
      obtain ⟨known, apart⟩ := List.mem_filter.mp kept
      exact ⟨List.mem_map.mpr ⟨other, known, rfl⟩, bne_iff_ne.mp apart⟩
    · rintro ⟨present, apart⟩
      obtain ⟨other, known, rfl⟩ := List.mem_map.mp present
      exact List.mem_map.mpr
        ⟨other, List.mem_filter.mpr ⟨known, bne_iff_ne.mpr apart⟩, rfl⟩
  refine ⟨⟨linked.congr ?_, reduced.remainder.remove closed xids ?_⟩, ?_⟩
  · intro other _ xid
    rw [xids, and_assoc]
  · intro xid present pointed
    have slot := (reduced.linked.mem_live tr member xid).mpr
      ⟨pointed, present⟩
    rw [empty] at slot
    cases slot
  · rw [List.length_map, ← List.countP_eq_length_filter]
    have split := countP_split reduced.linked.distinct member
      (fun _ => true)
    simp only [Bool.true_and, if_true, List.countP_true] at split
    exact split.symm

/-- A pass keeps the invariant, and a pass that removes nothing has found
everybody waiting. -/
theorem reduceWaitforPass_reduced (later : List UInt64)
    (reduced : Reduced points list transactions)
    (closed : ∀ first second, points first second → second ∈ list) :
    Reduced points list (reduceWaitforPass later transactions).1 ∧
      (reduceWaitforPass later transactions).1.length +
          (reduceWaitforPass later transactions).2 = transactions.length ∧
      ((reduceWaitforPass later transactions).2 = 0 →
        (reduceWaitforPass later transactions).1 = transactions ∧
          ∀ tr ∈ transactions, tr.xid ∈ later → tr.waitforCount ≠ 0) := by
  induction later generalizing transactions with
  | nil =>
      refine ⟨reduced, rfl, fun _ => ⟨rfl, fun tr _ none_ => ?_⟩⟩
      cases none_
  | cons xid later induction =>
      unfold reduceWaitforPass
      cases found : findTrans xid transactions with
      | none =>
          obtain ⟨kept, length, idle⟩ := induction reduced
          refine ⟨kept, length, fun zero => ?_⟩
          obtain ⟨same, waiting⟩ := idle zero
          refine ⟨same, fun tr member listed => ?_⟩
          rcases List.mem_cons.mp listed with equal | rest
          · have absent := List.find?_eq_none.mp found tr member
            exact (absent (beq_iff_eq.mpr equal)).elim
          · exact waiting tr member rest
      | some tr =>
          obtain ⟨member, rfl⟩ := findTrans_eq_some found
          by_cases waits : tr.waitforCount ≠ 0
          · simp only [if_pos waits]
            obtain ⟨kept, length, idle⟩ := induction reduced
            refine ⟨kept, length, fun zero => ?_⟩
            obtain ⟨same, waiting⟩ := idle zero
            refine ⟨same, fun other there listed => ?_⟩
            rcases List.mem_cons.mp listed with equal | rest
            · rw [eq_of_xid reduced.linked.distinct there member equal]
              exact waits
            · exact waiting other there rest
          · simp only [if_neg waits]
            obtain ⟨fewer, shorter⟩ := reduced.remove closed member
              (Decidable.not_not.mp waits)
            obtain ⟨kept, length, _⟩ := induction fewer
            refine ⟨kept, ?_, fun zero => ?_⟩
            · omega
            · cases zero

/-- The loop ends, with everybody left waiting. -/
theorem reduceWaitforLoop_reduced (reduced : Reduced points list transactions)
    (closed : ∀ first second, points first second → second ∈ list) :
    ∃ left, (∀ fuel, transactions.length < fuel →
        reduceWaitforLoop fuel transactions = some left) ∧
      Reduced points list left ∧ ∀ tr ∈ left, tr.waitforCount ≠ 0 := by
  induction size : transactions.length using Nat.strong_induction_on
    generalizing transactions with
  | _ length induction =>
      obtain ⟨kept, shorter, idle⟩ := reduceWaitforPass_reduced
        (transactions.map (·.xid)) reduced closed
      by_cases zero : (reduceWaitforGraph transactions).2 = 0
      · obtain ⟨same, waiting⟩ := idle zero
        refine ⟨transactions, fun fuel enough => ?_, reduced,
          fun tr member => waiting tr member (List.mem_map_of_mem member)⟩
        obtain ⟨fuel, rfl⟩ := Nat.exists_eq_add_one_of_ne_zero
          (Nat.ne_of_gt (Nat.lt_of_le_of_lt (Nat.zero_le _) enough))
        simp only [reduceWaitforLoop, if_pos zero]
        exact congrArg some same
      · have fewer : (reduceWaitforGraph transactions).1.length < length := by
          rw [← size]
          unfold reduceWaitforGraph at zero ⊢
          omega
        obtain ⟨left, ends, rest⟩ := induction _ fewer kept rfl
        refine ⟨left, fun fuel enough => ?_, rest⟩
        obtain ⟨fuel, rfl⟩ := Nat.exists_eq_add_one_of_ne_zero
          (Nat.ne_of_gt (Nat.lt_of_le_of_lt (Nat.zero_le _) enough))
        simp only [reduceWaitforLoop, if_neg zero]
        exact ends fuel (by omega)

end Reduction

section Detection

variable (resources : List Rsb)

theorem waitforGraph_reduced :
    Reduced (Waits resources)
      ((waitforGraph resources).transactions.map (·.xid))
      (waitforGraph resources).transactions := by
  refine ⟨(waitforGraph_linked resources).congr ?_, .refl _⟩
  intro tr _ xid
  constructor
  · intro waits
    exact ⟨waits, (waits_known waits).2⟩
  · exact fun waits => waits.1

/-- Everybody left by the loop waits for somebody left. -/
theorem Reduced.stuck {left : List Trans}
    (reduced : Reduced (Waits resources) list left)
    (waiting : ∀ tr ∈ left, tr.waitforCount ≠ 0) :
    ∀ xid ∈ left.map (·.xid), ∃ other ∈ left.map (·.xid),
      Waits resources xid other := by
  intro xid present
  obtain ⟨tr, member, rfl⟩ := exists_of_mem_xids present
  have some_ : tr.live ≠ [] := fun empty =>
    waiting tr member ((live_eq_nil_iff reduced.linked member).mp empty)
  obtain ⟨other, slot⟩ := List.exists_mem_of_ne_nil _ some_
  obtain ⟨waits, there⟩ := (reduced.linked.mem_live tr member other).mp slot
  exact ⟨other, there, waits⟩

/-- The reduction ends, and it leaves exactly the transactions from which a
cycle of the waits-for relation can be reached; in particular none if and only
if there is no cycle. -/
theorem deadlock_detection_exact :
    ∃ left,
      (∀ fuel, (waitforGraph resources).transactions.length < fuel →
        reduceWaitforLoop fuel (waitforGraph resources).transactions =
          some left) ∧
      (∀ xid, xid ∈ left.map (·.xid) ↔
        ∃ other, ReflTransGen (Waits resources) xid other ∧
          TransGen (Waits resources) other other) ∧
      (left = [] ↔ ¬ ∃ xid, TransGen (Waits resources) xid xid) := by
  obtain ⟨left, ends, reduced, waiting⟩ := reduceWaitforLoop_reduced
    (waitforGraph_reduced resources)
    fun _ _ waits => (waits_known waits).2
  have exact_ : ∀ xid, xid ∈ left.map (·.xid) ↔
      ReachesCycle (Waits resources) xid :=
    reduced.remainder.mem_iff (reduced.stuck resources waiting)
      fun _ _ waits => (waits_known waits).1
  refine ⟨left, ends, exact_, ?_⟩
  constructor
  · rintro rfl ⟨xid, cycle⟩
    cases (exact_ xid).mpr ⟨xid, .refl, cycle⟩
  · intro acyclic
    cases left with
    | nil => rfl
    | cons tr others =>
        obtain ⟨xid, _, cycle⟩ := (exact_ tr.xid).mp List.mem_cons_self
        exact (acyclic ⟨xid, cycle⟩).elim

end Detection

end Dlm.Deadlock
