import Dlm.Deadlock.Graph
import Mathlib.Data.List.Nodup

/-!
# The graph that is built

A transaction waits for another one when a lock of the first that is not
granted is on the same resource as a lock of the second that is not waiting,
with modes that do not go together.  `create_trans_list` and
`create_waitfor_graph` put exactly this relation into the `waitfor` slots, and
the two counters agree with the slots.
-/

namespace Dlm.Deadlock

variable {transactions : List Trans} {xid : UInt64} {tr : Trans}
  {seen : List (LkbPtr × Lkb)} {entry : LkbPtr × Lkb} {resources : List Rsb}
  {ptr : LkbPtr}

/-- The transactions in the slots that are in use. -/
def Trans.live (tr : Trans) : List UInt64 :=
  tr.waitfor.filterMap id

/-- A transaction waits for another one. -/
def Waits (resources : List Rsb) (waiter holder : UInt64) : Prop :=
  waiter ≠ holder ∧
    ∃ r ∈ resources, ∃ waiting ∈ r.locks, ∃ granted ∈ r.locks,
      waiting.lock.xid = waiter ∧
        waiting.lock.status ≠ DLM_LKSTS_GRANTED ∧
        granted.lock.xid = holder ∧
        granted.lock.status ≠ DLM_LKSTS_WAITING ∧
        dlmModesCompat granted.lock.grmode waiting.lock.rqmode = false

/-- The transactions are linked by a relation: it is in the slots, and the
counters agree with them. -/
structure Linked (edge : UInt64 → UInt64 → Prop)
    (transactions : List Trans) : Prop where
  distinct : (transactions.map (·.xid)).Nodup
  counted : ∀ tr ∈ transactions, tr.waitforCount = tr.live.length
  others : ∀ tr ∈ transactions, tr.othersWaitingOnUs =
    transactions.countP (fun other => tr.xid ∈ other.live)
  mem_live : ∀ tr ∈ transactions, ∀ xid, xid ∈ tr.live ↔ edge tr.xid xid
  single : ∀ tr ∈ transactions, tr.live.Nodup
  apart : ∀ tr ∈ transactions, ¬ edge tr.xid tr.xid
  inside : ∀ tr ∈ transactions, ∀ xid, edge tr.xid xid →
    xid ∈ transactions.map (·.xid)

theorem mem_live_iff (tr : Trans) (xid : UInt64) :
    xid ∈ tr.live ↔ some xid ∈ tr.waitfor := by
  simp [Trans.live]

theorem exists_of_mem_xids (member : xid ∈ transactions.map (·.xid)) :
    ∃ tr ∈ transactions, tr.xid = xid :=
  List.mem_map.mp member

theorem findTrans_eq_some (found : findTrans xid transactions = some tr) :
    tr ∈ transactions ∧ tr.xid = xid :=
  ⟨List.mem_of_find?_eq_some found,
    by simpa using List.find?_some found⟩

theorem findTrans_of_mem (member : xid ∈ transactions.map (·.xid)) :
    ∃ tr, findTrans xid transactions = some tr := by
  obtain ⟨tr, there, same⟩ := exists_of_mem_xids member
  cases found : findTrans xid transactions with
  | some tr => exact ⟨tr, rfl⟩
  | none =>
      have absent := List.find?_eq_none.mp found tr there
      exact (absent (beq_iff_eq.mpr same)).elim

theorem eq_of_xid (distinct : (transactions.map (·.xid)).Nodup)
    {first second : Trans} (one : first ∈ transactions)
    (two : second ∈ transactions) (same : first.xid = second.xid) :
    first = second :=
  List.inj_on_of_nodup_map distinct one two same

theorem findTrans_self (distinct : (transactions.map (·.xid)).Nodup)
    (member : tr ∈ transactions) :
    findTrans tr.xid transactions = some tr := by
  obtain ⟨other, found⟩ := findTrans_of_mem (List.mem_map_of_mem member)
  obtain ⟨there, same⟩ := findTrans_eq_some found
  rw [found, eq_of_xid distinct there member same]

section Collecting

/-- The transactions of the locks collected so far. -/
structure Collected (seen : List (LkbPtr × Lkb))
    (transactions : List Trans) : Prop where
  distinct : (transactions.map (·.xid)).Nodup
  unlinked : ∀ tr ∈ transactions,
    tr.othersWaitingOnUs = 0 ∧ tr.waitforCount = 0 ∧ tr.waitfor = []
  locks : ∀ tr ∈ transactions, ∀ ptr, ptr ∈ tr.locks ↔
    ∃ lkb, (ptr, lkb) ∈ seen ∧ lkb.lock.xid = tr.xid
  known : ∀ entry ∈ seen, entry.2.lock.xid ∈ transactions.map (·.xid)

theorem Collected.getTrans (collected : Collected seen transactions)
    (xid : UInt64) :
    Collected seen (getTrans xid transactions) ∧
      xid ∈ (getTrans xid transactions).map (·.xid) := by
  unfold Deadlock.getTrans
  split
  · rename_i found
    obtain ⟨tr, member, same⟩ := List.any_eq_true.mp found
    exact ⟨collected, List.mem_map.mpr ⟨tr, member, beq_iff_eq.mp same⟩⟩
  · rename_i absent
    have fresh : ∀ tr ∈ transactions, tr.xid ≠ xid := by
      simpa using absent
    refine ⟨⟨?_, ?_, ?_, ?_⟩, List.mem_cons_self⟩
    · refine List.nodup_cons.mpr ⟨?_, collected.distinct⟩
      intro present
      obtain ⟨tr, member, same⟩ := List.mem_map.mp present
      exact fresh tr member same
    · intro tr member
      rcases List.mem_cons.mp member with rfl | old
      · exact ⟨rfl, rfl, rfl⟩
      · exact collected.unlinked tr old
    · intro tr member ptr
      rcases List.mem_cons.mp member with rfl | old
      · constructor
        · intro impossible
          cases impossible
        · rintro ⟨lkb, listed, same⟩
          obtain ⟨tr, there, equal⟩ :=
            exists_of_mem_xids (collected.known _ listed)
          exact (fresh tr there (equal.trans same)).elim
      · exact collected.locks tr old ptr
    · intro entry listed
      exact List.mem_cons_of_mem _ (collected.known entry listed)

theorem Collected.addLkbTrans (collected : Collected seen transactions)
    (present : entry.2.lock.xid ∈ transactions.map (·.xid)) :
    Collected (seen ++ [entry])
      (addLkbTrans entry.2.lock.xid entry.1 transactions) := by
  have sameXids := @map_updateTrans UInt64 (·.xid) entry.2.lock.xid
    (fun tr => { tr with locks := entry.1 :: tr.locks }) (fun _ => rfl)
    transactions
  refine ⟨?_, ?_, ?_, ?_⟩
  · rw [Deadlock.addLkbTrans, sameXids]
    exact collected.distinct
  · intro tr member
    obtain ⟨old, there, rfl⟩ := List.mem_map.mp member
    split
    · exact collected.unlinked old there
    · exact collected.unlinked old there
  · intro tr member ptr
    obtain ⟨old, there, rfl⟩ := List.mem_map.mp member
    have before := collected.locks old there ptr
    by_cases same : old.xid = entry.2.lock.xid
    · simp only [if_pos same, List.mem_cons, before, List.mem_append,
        List.not_mem_nil, or_false]
      constructor
      · rintro (rfl | ⟨lkb, listed, xid⟩)
        · exact ⟨entry.2, .inr rfl, same.symm⟩
        · exact ⟨lkb, .inl listed, xid⟩
      · rintro ⟨lkb, listed | rfl, xid⟩
        · exact .inr ⟨lkb, listed, xid⟩
        · exact .inl rfl
    · simp only [if_neg same, before, List.mem_append, List.mem_singleton]
      constructor
      · rintro ⟨lkb, listed, xid⟩
        exact ⟨lkb, .inl listed, xid⟩
      · rintro ⟨lkb, listed | rfl, xid⟩
        · exact ⟨lkb, listed, xid⟩
        · exact (same xid.symm).elim
  · intro other listed
    rw [Deadlock.addLkbTrans, sameXids]
    rcases List.mem_append.mp listed with old | new
    · exact collected.known other old
    · rw [List.mem_singleton.mp new]
      exact present

theorem collected_foldl (entries : List (LkbPtr × Lkb))
    (collected : Collected seen transactions) :
    Collected (seen ++ entries)
      (entries.foldl
        (fun transactions entry =>
          addLkbTrans entry.2.lock.xid entry.1
            (getTrans entry.2.lock.xid transactions))
        transactions) := by
  induction entries generalizing seen transactions with
  | nil => simpa using collected
  | cons entry later induction =>
      obtain ⟨more, present⟩ := collected.getTrans entry.2.lock.xid
      have rest := induction (more.addLkbTrans present)
      rw [List.append_assoc] at rest
      exact rest

theorem createTransList_collected (resources : List Rsb) :
    Collected (allLocks resources) (createTransList resources []) := by
  have empty : Collected [] [] :=
    ⟨List.nodup_nil, List.forall_mem_nil _,
      List.forall_mem_nil _,
      List.forall_mem_nil _⟩
  exact collected_foldl (allLocks resources) empty

end Collecting

theorem mem_rsbLocks {rsb : Nat} :
    entry ∈ rsbLocks resources rsb ↔
      entry.1.rsb = rsb ∧ lkbAt resources entry.1 = some entry.2 := by
  obtain ⟨⟨place₁, place₂⟩, lkb⟩ := entry
  unfold rsbLocks lkbAt
  cases found : resources[rsb]? with
  | none =>
      constructor
      · intro impossible
        cases impossible
      · rintro ⟨rfl, at_⟩
        rw [found] at at_
        cases at_
  | some r =>
      constructor
      · intro member
        obtain ⟨pair, listed, same⟩ := List.mem_map.mp member
        cases same
        refine ⟨rfl, ?_⟩
        simp only [found, Option.bind_some]
        exact List.mem_zipIdx_iff_getElem?.mp listed
      · rintro ⟨rfl, at_⟩
        rw [found] at at_
        exact List.mem_map.mpr
          ⟨(lkb, place₂), List.mem_zipIdx_iff_getElem?.mpr at_, rfl⟩

theorem mem_allLocks :
    entry ∈ allLocks resources ↔
      lkbAt resources entry.1 = some entry.2 := by
  constructor
  · intro member
    obtain ⟨rsb, _, listed⟩ := List.mem_flatMap.mp member
    exact (mem_rsbLocks.mp listed).2
  · intro at_
    have within : entry.1.rsb < resources.length := by
      by_contra outside
      rw [lkbAt, List.getElem?_eq_none (Nat.le_of_not_lt outside)] at at_
      cases at_
    exact List.mem_flatMap.mpr
      ⟨entry.1.rsb, List.mem_range.mpr within, mem_rsbLocks.mpr ⟨rfl, at_⟩⟩

section Linking

/-- The slots in use come first. -/
def Packed (tr : Trans) : Prop :=
  ∃ spare, tr.waitfor = tr.live.map some ++ List.replicate spare none

theorem live_of_packed {list : List UInt64} {spare : Nat} :
    (list.map some ++ List.replicate spare none).filterMap id = list := by
  simp [List.filterMap_append, List.filterMap_map]

/-- A free slot follows those in use. -/
theorem roomyWaitfor_packed (packed : Packed tr)
    (counted : tr.waitforCount = tr.live.length) :
    ∃ spare, roomyWaitfor tr =
      tr.live.map some ++ none :: List.replicate spare none := by
  obtain ⟨spare, slots⟩ := packed
  have length : tr.waitfor.length = tr.waitforCount + spare := by
    rw [slots, counted]
    simp
  unfold roomyWaitfor
  cases spare with
  | zero =>
      refine ⟨3, ?_⟩
      rw [if_pos (by omega), length, List.take_of_length_le (by omega)]
      rw [show tr.waitforCount + 0 + 4 - tr.waitforCount = 3 + 1 by omega]
      rw [List.replicate_succ]
      simp [slots]
  | succ spare =>
      refine ⟨spare, ?_⟩
      rw [if_neg (by omega)]
      exact slots

theorem pushWaitfor_packed (packed : Packed tr)
    (counted : tr.waitforCount = tr.live.length) (xid : UInt64) :
    (pushWaitfor xid tr).live = tr.live ++ [xid] ∧
      Packed (pushWaitfor xid tr) := by
  obtain ⟨spare, room⟩ := roomyWaitfor_packed packed counted
  have slots : (pushWaitfor xid tr).waitfor =
      (tr.live ++ [xid]).map some ++ List.replicate spare none := by
    simp only [pushWaitfor, room, counted]
    rw [List.set_append_right _ _ (by simp)]
    simp
  have live : (pushWaitfor xid tr).live = tr.live ++ [xid] := by
    rw [Trans.live, slots]
    exact live_of_packed
  exact ⟨live, spare, by rw [slots, live]⟩

/-- A transaction when the first one has got the second into its slots. -/
def link (waiter holder : UInt64) (tr : Trans) : Trans :=
  { (if tr.xid = waiter then pushWaitfor holder tr else tr) with
    othersWaitingOnUs :=
      tr.othersWaitingOnUs + if tr.xid = holder then 1 else 0 }

/-- One transaction is altered and the count of another one is moved. -/
theorem updateTrans_updateTrans (alter : Trans → Trans) (count : Int → Int)
    (first second : UInt64) (sameXid : ∀ tr, (alter tr).xid = tr.xid)
    (sameOthers : ∀ tr,
      (alter tr).othersWaitingOnUs = tr.othersWaitingOnUs)
    (transactions : List Trans) :
    updateTrans second
        (fun tr =>
          { tr with othersWaitingOnUs := count tr.othersWaitingOnUs })
        (updateTrans first alter transactions) =
      transactions.map fun tr =>
        { (if tr.xid = first then alter tr else tr) with
          othersWaitingOnUs :=
            if tr.xid = second then count tr.othersWaitingOnUs
            else tr.othersWaitingOnUs } := by
  rw [updateTrans, updateTrans, List.map_map]
  apply List.map_congr_left
  intro tr _
  have xid : (if tr.xid = first then alter tr else tr).xid = tr.xid := by
    split
    · exact sameXid tr
    · rfl
  have others : (if tr.xid = first then alter tr
      else tr).othersWaitingOnUs = tr.othersWaitingOnUs := by
    split
    · exact sameOthers tr
    · rfl
  simp only [Function.comp_apply]
  generalize (if tr.xid = first then alter tr else tr) = inner at xid others
  rw [xid, others]
  by_cases same : tr.xid = second
  · rw [if_pos same, if_pos same]
  · rw [if_neg same, if_neg same, ← others, ← xid]

theorem updateTrans_link (waiter holder : UInt64)
    (transactions : List Trans) :
    updateTrans holder
        (fun tr => { tr with othersWaitingOnUs := tr.othersWaitingOnUs + 1 })
        (updateTrans waiter (pushWaitfor holder) transactions) =
      transactions.map (link waiter holder) := by
  rw [updateTrans_updateTrans (pushWaitfor holder) (· + 1) waiter holder
    (fun _ => rfl) (fun _ => rfl)]
  apply List.map_congr_left
  intro tr _
  by_cases second : tr.xid = holder
  · rw [link, if_pos second, if_pos second]
  · rw [link, if_neg second, if_neg second, Int.add_zero]

variable {waiter holder : UInt64}

theorem link_xid (tr : Trans) : (link waiter holder tr).xid = tr.xid := by
  unfold link
  split
  · rfl
  · rfl

theorem link_locks (tr : Trans) :
    (link waiter holder tr).locks = tr.locks := by
  unfold link
  split
  · rfl
  · rfl

theorem link_others (tr : Trans) :
    (link waiter holder tr).othersWaitingOnUs =
      tr.othersWaitingOnUs + if tr.xid = holder then 1 else 0 :=
  rfl

theorem link_waiter (same : tr.xid = waiter) :
    (link waiter holder tr).waitfor = (pushWaitfor holder tr).waitfor ∧
      (link waiter holder tr).waitforCount = tr.waitforCount + 1 := by
  rw [link, if_pos same]
  exact ⟨rfl, rfl⟩

theorem link_other (other : tr.xid ≠ waiter) :
    (link waiter holder tr).waitfor = tr.waitfor ∧
      (link waiter holder tr).waitforCount = tr.waitforCount := by
  rw [link, if_neg other]
  exact ⟨rfl, rfl⟩

theorem link_live (packed : Packed tr)
    (counted : tr.waitforCount = tr.live.length) :
    (link waiter holder tr).live =
        (if tr.xid = waiter then tr.live ++ [holder] else tr.live) ∧
      Packed (link waiter holder tr) := by
  unfold Packed Trans.live
  by_cases same : tr.xid = waiter
  · rw [(link_waiter same).1, if_pos same]
    exact pushWaitfor_packed packed counted holder
  · rw [(link_other same).1, if_neg same]
    exact ⟨rfl, packed⟩

theorem countP_or_xid (distinct : (transactions.map (·.xid)).Nodup)
    (member : waiter ∈ transactions.map (·.xid)) {test : Trans → Bool}
    (absent : ∀ tr ∈ transactions, tr.xid = waiter → test tr = false) :
    transactions.countP (fun tr => test tr || tr.xid == waiter) =
      transactions.countP test + 1 := by
  induction transactions with
  | nil => cases member
  | cons head tail induction =>
      obtain ⟨fresh, rest⟩ := List.nodup_cons.mp distinct
      rw [List.countP_cons, List.countP_cons]
      by_cases same : head.xid = waiter
      · have others : ∀ tr ∈ tail,
            (test tr || tr.xid == waiter) = test tr := by
          intro tr there
          have other : tr.xid ≠ waiter := fun equal =>
            fresh (List.mem_map.mpr ⟨tr, there, equal.trans same.symm⟩)
          simp [other]
        have first := absent head List.mem_cons_self same
        rw [List.countP_congr fun tr there => by rw [others tr there]]
        simp [first, same]
      · have there : waiter ∈ tail.map (·.xid) :=
          (List.mem_cons.mp member).resolve_left (Ne.symm same)
        have more := induction rest there fun tr listed =>
          absent tr (List.mem_cons_of_mem _ listed)
        rw [more]
        simp only [beq_eq_false_iff_ne.mpr same, Bool.or_false]
        omega

/-- A new edge. -/
theorem Linked.link {edge : UInt64 → UInt64 → Prop}
    (linked : Linked edge transactions)
    (packed : ∀ tr ∈ transactions, Packed tr)
    (waits : waiter ∈ transactions.map (·.xid))
    (holds : holder ∈ transactions.map (·.xid)) (apart : waiter ≠ holder)
    (fresh : ¬ edge waiter holder) :
    Linked (fun first second =>
        edge first second ∨ first = waiter ∧ second = holder)
        (transactions.map (Deadlock.link waiter holder)) ∧
      ∀ tr ∈ transactions.map (Deadlock.link waiter holder), Packed tr := by
  have xids : (transactions.map (Deadlock.link waiter holder)).map (·.xid) =
      transactions.map (·.xid) := by
    rw [List.map_map]
    exact List.map_congr_left fun tr _ => link_xid tr
  have live : ∀ tr ∈ transactions,
      (Deadlock.link waiter holder tr).live =
        if tr.xid = waiter then tr.live ++ [holder] else tr.live :=
    fun tr member =>
      (link_live (packed tr member) (linked.counted tr member)).1
  have slots : ∀ tr ∈ transactions, ∀ xid,
      xid ∈ (Deadlock.link waiter holder tr).live ↔
        xid ∈ tr.live ∨ tr.xid = waiter ∧ xid = holder := by
    intro tr member xid
    rw [live tr member]
    by_cases same : tr.xid = waiter
    · simp [same]
    · simp [same]
  refine ⟨⟨?_, ?_, ?_, ?_, ?_, ?_, ?_⟩, ?_⟩
  · rw [xids]
    exact linked.distinct
  · intro tr member
    obtain ⟨old, there, rfl⟩ := List.mem_map.mp member
    rw [live old there]
    by_cases same : old.xid = waiter
    · rw [(link_waiter same).2, if_pos same, List.length_append]
      exact congrArg (· + 1) (linked.counted old there)
    · rw [if_neg same, (link_other same).2]
      exact linked.counted old there
  · intro tr member
    obtain ⟨old, there, rfl⟩ := List.mem_map.mp member
    rw [link_others, link_xid, linked.others old there, List.countP_map]
    by_cases second : old.xid = holder
    · rw [if_pos second]
      have same : transactions.countP
          ((fun other => decide (old.xid ∈ other.live)) ∘
            Deadlock.link waiter holder) =
          transactions.countP
            (fun other => decide (old.xid ∈ other.live) ||
              other.xid == waiter) := by
        apply List.countP_congr
        intro other listed
        simp [slots other listed, second]
      rw [same, countP_or_xid linked.distinct waits ?_]
      · exact (Int.natCast_succ _).symm
      · intro other listed equal
        rw [decide_eq_false_iff_not, linked.mem_live other listed, equal,
          second]
        exact fresh
    · rw [if_neg second, Int.add_zero]
      congr 1
      apply List.countP_congr
      intro other listed
      simp [slots other listed, second]
  · intro tr member xid
    obtain ⟨old, there, rfl⟩ := List.mem_map.mp member
    rw [slots old there, link_xid, linked.mem_live old there]
  · intro tr member
    obtain ⟨old, there, rfl⟩ := List.mem_map.mp member
    rw [live old there]
    by_cases same : old.xid = waiter
    · rw [if_pos same]
      refine List.Nodup.append (linked.single old there)
        (List.nodup_singleton _) ?_
      intro xid present new
      rw [List.mem_singleton.mp new, linked.mem_live old there, same]
        at present
      exact fresh present
    · rw [if_neg same]
      exact linked.single old there
  · intro tr member
    obtain ⟨old, there, rfl⟩ := List.mem_map.mp member
    rw [link_xid]
    rintro (self | ⟨first, second⟩)
    · exact linked.apart old there self
    · exact apart (first.symm.trans second)
  · intro tr member xid edge
    obtain ⟨old, there, rfl⟩ := List.mem_map.mp member
    rw [xids]
    rw [link_xid] at edge
    rcases edge with known | ⟨_, rfl⟩
    · exact linked.inside old there xid known
    · exact holds
  · intro tr member
    obtain ⟨old, there, rfl⟩ := List.mem_map.mp member
    exact (link_live (packed old there) (linked.counted old there)).2

/-- The first lock has to wait for the second. -/
def Blocks (waiting granted : LkbPtr × Lkb) : Prop :=
  waiting.2.lock.xid ≠ granted.2.lock.xid ∧
    dlmModesCompat granted.2.lock.grmode waiting.2.lock.rqmode = false

/-- The transactions when some pairs of locks have been looked at. -/
structure Built (outline : List (UInt64 × List LkbPtr))
    (pairs : List ((LkbPtr × Lkb) × (LkbPtr × Lkb))) (graph : Graph) :
    Prop where
  outline : graph.transactions.map (fun tr => (tr.xid, tr.locks)) = outline
  packed : ∀ tr ∈ graph.transactions, Packed tr
  linked : Linked (fun first second => ∃ pair ∈ pairs,
    Blocks pair.1 pair.2 ∧ pair.1.2.lock.xid = first ∧
      pair.2.2.lock.xid = second) graph.transactions

theorem Linked.congr {edge other : UInt64 → UInt64 → Prop}
    (linked : Linked edge transactions) (same : ∀ tr ∈ transactions, ∀ xid,
      edge tr.xid xid ↔ other tr.xid xid) :
    Linked other transactions where
  distinct := linked.distinct
  counted := linked.counted
  others := linked.others
  mem_live := fun tr member xid =>
    (linked.mem_live tr member xid).trans (same tr member xid)
  single := linked.single
  apart := fun tr member self =>
    linked.apart tr member ((same tr member tr.xid).mpr self)
  inside := fun tr member xid edge =>
    linked.inside tr member xid ((same tr member xid).mpr edge)

theorem Built.addWaitfor {outline : List (UInt64 × List LkbPtr)}
    {pairs : List ((LkbPtr × Lkb) × (LkbPtr × Lkb))} {graph : Graph}
    (built : Built outline pairs graph) {waiting granted : LkbPtr × Lkb}
    (waits : waiting.2.lock.xid ∈ graph.transactions.map (·.xid))
    (holds : granted.2.lock.xid ∈ graph.transactions.map (·.xid))
    (same : waiting.1 = granted.1 → waiting.2 = granted.2) :
    Built outline (pairs ++ [(waiting, granted)])
      (addWaitfor waiting granted graph) := by
  obtain ⟨tr, found⟩ := findTrans_of_mem waits
  obtain ⟨member, xid⟩ := findTrans_eq_some found
  have idle : (Blocks waiting granted → ∃ pair ∈ pairs,
      Blocks pair.1 pair.2 ∧ pair.1.2.lock.xid = waiting.2.lock.xid ∧
        pair.2.2.lock.xid = granted.2.lock.xid) →
      Built outline (pairs ++ [(waiting, granted)]) graph := by
    intro known
    refine ⟨built.outline, built.packed, built.linked.congr ?_⟩
    intro other _ second
    constructor
    · rintro ⟨pair, listed, rest⟩
      exact ⟨pair, List.mem_append_left _ listed, rest⟩
    · rintro ⟨pair, listed, blocks, first, last⟩
      rcases List.mem_append.mp listed with old | new
      · exact ⟨pair, old, blocks, first, last⟩
      · obtain rfl := List.mem_singleton.mp new
        obtain ⟨pair, old, blocks, one, two⟩ := known blocks
        exact ⟨pair, old, blocks, one.trans first, two.trans last⟩
  unfold Deadlock.addWaitfor
  rw [found]
  by_cases compatible : locksCompat waiting granted = true
  · simp only [if_pos compatible]
    apply idle
    rintro ⟨differ, clash⟩
    have apart : waiting.1 ≠ granted.1 := fun equal =>
      differ (by rw [same equal])
    simp [locksCompat, apart, differ, clash] at compatible
  simp only [if_neg compatible]
  by_cases self : tr.xid = granted.2.lock.xid
  · rw [if_pos self]
    apply idle
    rintro ⟨differ, _⟩
    exact (differ (xid.symm.trans self)).elim
  rw [if_neg self]
  have differ : waiting.2.lock.xid ≠ granted.2.lock.xid := by
    rw [← xid]
    exact self
  have apart : waiting.1 ≠ granted.1 := fun equal =>
    differ (by rw [same equal])
  have clash : dlmModesCompat granted.2.lock.grmode
      waiting.2.lock.rqmode = false := by
    simpa [locksCompat, apart, differ] using compatible
  have present : inWaitfor tr granted.2.lock.xid = true ↔
      ∃ pair ∈ pairs, Blocks pair.1 pair.2 ∧
        pair.1.2.lock.xid = waiting.2.lock.xid ∧
        pair.2.2.lock.xid = granted.2.lock.xid := by
    rw [inWaitfor, List.contains_iff_mem, ← mem_live_iff,
      built.linked.mem_live tr member, xid]
  by_cases already : tr.waitforCount ≠ 0 ∧
      inWaitfor tr granted.2.lock.xid = true
  · rw [if_pos already]
    exact idle fun _ => present.mp already.2
  rw [if_neg already]
  have fresh : ¬ ∃ pair ∈ pairs, Blocks pair.1 pair.2 ∧
      pair.1.2.lock.xid = waiting.2.lock.xid ∧
      pair.2.2.lock.xid = granted.2.lock.xid := by
    intro known
    have slot := present.mpr known
    refine already ⟨?_, slot⟩
    rw [built.linked.counted tr member]
    rw [inWaitfor, List.contains_iff_mem, ← mem_live_iff] at slot
    exact Nat.ne_of_gt (List.length_pos_of_mem slot)
  rw [xid, updateTrans_link]
  obtain ⟨linked, packed⟩ :=
    built.linked.link built.packed waits holds differ fresh
  refine ⟨?_, packed, linked.congr ?_⟩
  · rw [List.map_map, ← built.outline]
    apply List.map_congr_left
    intro other _
    simp [link_xid, link_locks]
  · intro other _ second
    constructor
    · rintro (⟨pair, listed, rest⟩ | ⟨first, last⟩)
      · exact ⟨pair, List.mem_append_left _ listed, rest⟩
      · exact ⟨(waiting, granted),
          List.mem_append_right _ (List.mem_singleton.mpr rfl),
          ⟨differ, clash⟩, first.symm, last.symm⟩
    · rintro ⟨pair, listed, blocks, first, last⟩
      rcases List.mem_append.mp listed with old | new
      · exact .inl ⟨pair, old, blocks, first, last⟩
      · obtain rfl := List.mem_singleton.mp new
        exact .inr ⟨first.symm, last.symm⟩

/-- The pairs that `create_waitfor_graph` looks at for one lock. -/
def waitingPairs (resources : List Rsb) (ptr : LkbPtr) :
    List ((LkbPtr × Lkb) × (LkbPtr × Lkb)) :=
  match lkbAt resources ptr with
  | none => []
  | some lkb =>
      if lkb.lock.status = DLM_LKSTS_GRANTED then []
      else
        ((rsbLocks resources ptr.rsb).filter
          (·.2.lock.status != DLM_LKSTS_WAITING)).map
            fun granted => ((ptr, lkb), granted)

theorem addWaitfors_eq (resources : List Rsb) (graph : Graph)
    (ptr : LkbPtr) :
    addWaitfors resources graph ptr =
      (waitingPairs resources ptr).foldl
        (fun graph pair => addWaitfor pair.1 pair.2 graph) graph := by
  unfold addWaitfors waitingPairs
  cases lkbAt resources ptr with
  | none => rfl
  | some lkb =>
      by_cases granted : lkb.lock.status = DLM_LKSTS_GRANTED
      · simp only [if_pos granted]
        rfl
      · simp only [if_neg granted, List.foldl_map]

theorem mem_waitingPairs {pair : (LkbPtr × Lkb) × (LkbPtr × Lkb)} :
    pair ∈ waitingPairs resources ptr ↔
      pair.1.1 = ptr ∧ lkbAt resources ptr = some pair.1.2 ∧
        pair.1.2.lock.status ≠ DLM_LKSTS_GRANTED ∧
        pair.2.1.rsb = ptr.rsb ∧
        lkbAt resources pair.2.1 = some pair.2.2 ∧
        pair.2.2.lock.status ≠ DLM_LKSTS_WAITING := by
  unfold waitingPairs
  cases found : lkbAt resources ptr with
  | none => simp
  | some lkb =>
      by_cases granted : lkb.lock.status = DLM_LKSTS_GRANTED
      · simp only [if_pos granted]
        constructor
        · intro impossible
          cases impossible
        · rintro ⟨_, same, waiting, _⟩
          cases same
          exact (waiting granted).elim
      · simp only [if_neg granted]
        constructor
        · intro member
          obtain ⟨other, listed, rfl⟩ := List.mem_map.mp member
          obtain ⟨there, status⟩ := List.mem_filter.mp listed
          obtain ⟨rsb, at_⟩ := mem_rsbLocks.mp there
          exact ⟨rfl, rfl, granted, rsb, at_, by simpa using status⟩
        · rintro ⟨place, same, _, rsb, at_, status⟩
          obtain ⟨⟨first, lkb⟩, other⟩ := pair
          cases place
          cases same
          exact List.mem_map.mpr ⟨other,
            List.mem_filter.mpr ⟨mem_rsbLocks.mpr ⟨rsb, at_⟩,
              by simpa using status⟩, rfl⟩

theorem built_foldl {outline : List (UInt64 × List LkbPtr)}
    (more : List ((LkbPtr × Lkb) × (LkbPtr × Lkb)))
    {pairs : List ((LkbPtr × Lkb) × (LkbPtr × Lkb))} {graph : Graph}
    (built : Built outline pairs graph)
    (known : ∀ pair ∈ more,
      pair.1.2.lock.xid ∈ outline.map (·.1) ∧
        pair.2.2.lock.xid ∈ outline.map (·.1) ∧
        (pair.1.1 = pair.2.1 → pair.1.2 = pair.2.2)) :
    Built outline (pairs ++ more)
      (more.foldl (fun graph pair => addWaitfor pair.1 pair.2 graph)
        graph) := by
  induction more generalizing pairs graph with
  | nil => simpa using built
  | cons pair later induction =>
      obtain ⟨⟨waits, holds, same⟩, rest⟩ := List.forall_mem_cons.mp known
      have xids : outline.map (·.1) = graph.transactions.map (·.xid) := by
        rw [← built.outline, List.map_map]
        rfl
      rw [xids] at waits holds
      have next := induction (built.addWaitfor waits holds same) rest
      rw [List.append_assoc] at next
      exact next

theorem exists_lkbAt {r : Rsb} (listed : r ∈ resources) :
    ∃ rsb, resources[rsb]? = some r ∧
      ∀ lkb ∈ r.locks, ∃ place, lkbAt resources ⟨rsb, place⟩ = some lkb := by
  obtain ⟨rsb, here⟩ := List.getElem?_of_mem listed
  refine ⟨rsb, here, fun lkb member => ?_⟩
  obtain ⟨place, there⟩ := List.getElem?_of_mem member
  exact ⟨place, by rw [lkbAt, here]; exact there⟩

theorem rsb_of_lkbAt {lkb : Lkb} (at_ : lkbAt resources ptr = some lkb) :
    ∃ r, resources[ptr.rsb]? = some r ∧ lkb ∈ r.locks := by
  obtain ⟨r, here, there⟩ := Option.bind_eq_some_iff.mp at_
  exact ⟨r, here, List.mem_of_getElem? there⟩

/-- Every lock is on the list of its transaction. -/
theorem createTransList_lkb {lkb : Lkb} (at_ : lkbAt resources ptr = some lkb) :
    ∃ tr ∈ createTransList resources [], tr.xid = lkb.lock.xid ∧
      ptr ∈ tr.locks := by
  have collected := createTransList_collected resources
  have listed : (ptr, lkb) ∈ allLocks resources := mem_allLocks.mpr at_
  obtain ⟨tr, member, same⟩ := exists_of_mem_xids (collected.known _ listed)
  exact ⟨tr, member, same,
    (collected.locks tr member ptr).mpr ⟨lkb, listed, same.symm⟩⟩

/-- The outline of the transactions of some resources. -/
def transOutline (resources : List Rsb) : List (UInt64 × List LkbPtr) :=
  (createTransList resources []).map fun tr => (tr.xid, tr.locks)

/-- The pairs that `create_waitfor_graph` looks at. -/
def allPairs (resources : List Rsb) :
    List ((LkbPtr × Lkb) × (LkbPtr × Lkb)) :=
  ((createTransList resources []).flatMap (·.locks)).flatMap
    (waitingPairs resources)

theorem createTransList_built (resources : List Rsb) :
    Built (transOutline resources) []
      { transactions := createTransList resources []
        waitforTrans := fun _ => none } := by
  have collected := createTransList_collected resources
  have live : ∀ tr ∈ createTransList resources [], tr.live = [] := by
    intro tr member
    rw [Trans.live, (collected.unlinked tr member).2.2]
    rfl
  refine ⟨rfl, ?_, collected.distinct, ?_, ?_, ?_, ?_, ?_, ?_⟩
  · intro tr member
    refine ⟨0, ?_⟩
    rw [live tr member, (collected.unlinked tr member).2.2]
    rfl
  · intro tr member
    rw [live tr member, (collected.unlinked tr member).2.1]
    rfl
  · intro tr member
    rw [(collected.unlinked tr member).1, List.countP_eq_zero.mpr]
    · rfl
    · intro other there
      simp [live other there]
  · intro tr member xid
    simp [live tr member]
  · intro tr member
    rw [live tr member]
    exact List.nodup_nil
  · rintro tr member ⟨pair, none_, _⟩
    cases none_
  · rintro tr member xid ⟨pair, none_, _⟩
    cases none_

theorem waitforGraph_built (resources : List Rsb) :
    Built (transOutline resources) (allPairs resources)
      (waitforGraph resources) := by
  have graph : waitforGraph resources =
      (allPairs resources).foldl
        (fun graph pair => addWaitfor pair.1 pair.2 graph)
        { transactions := createTransList resources []
          waitforTrans := fun _ => none } := by
    rw [allPairs, List.foldl_flatMap, waitforGraph, createWaitforGraph]
    congr 1
    funext graph ptr
    exact addWaitfors_eq resources graph ptr
  rw [graph]
  apply built_foldl (allPairs resources) (createTransList_built resources)
  intro pair member
  obtain ⟨ptr, _, listed⟩ := List.mem_flatMap.mp member
  obtain ⟨rfl, first, _, _, second, _⟩ := mem_waitingPairs.mp listed
  simp only [transOutline, List.map_map, Function.comp_def]
  obtain ⟨one, oneMember, oneXid, _⟩ := createTransList_lkb first
  obtain ⟨two, twoMember, twoXid, _⟩ := createTransList_lkb second
  refine ⟨List.mem_map.mpr ⟨one, oneMember, oneXid⟩,
    List.mem_map.mpr ⟨two, twoMember, twoXid⟩, fun same => ?_⟩
  rw [same, second] at first
  exact (Option.some.inj first).symm

theorem waits_iff_pair (resources : List Rsb) (waiter holder : UInt64) :
    (∃ pair ∈ allPairs resources, Blocks pair.1 pair.2 ∧
        pair.1.2.lock.xid = waiter ∧ pair.2.2.lock.xid = holder) ↔
      Waits resources waiter holder := by
  constructor
  · rintro ⟨pair, member, ⟨differ, clash⟩, rfl, rfl⟩
    obtain ⟨ptr, _, listed⟩ := List.mem_flatMap.mp member
    obtain ⟨rfl, first, waiting, rsb, second, granted⟩ :=
      mem_waitingPairs.mp listed
    obtain ⟨r, here, oneMember⟩ := rsb_of_lkbAt first
    obtain ⟨other, there, twoMember⟩ := rsb_of_lkbAt second
    rw [rsb, here] at there
    cases there
    exact ⟨differ, r, List.mem_of_getElem? here, pair.1.2, oneMember,
      pair.2.2, twoMember, rfl, waiting, rfl, granted, clash⟩
  · rintro ⟨differ, r, listed, waiting, oneMember, granted, twoMember, rfl,
      waits, rfl, holds, clash⟩
    obtain ⟨rsb, _, places⟩ := exists_lkbAt listed
    obtain ⟨first, oneAt⟩ := places waiting oneMember
    obtain ⟨second, twoAt⟩ := places granted twoMember
    obtain ⟨tr, member, _, lock⟩ := createTransList_lkb oneAt
    refine ⟨((⟨rsb, first⟩, waiting), (⟨rsb, second⟩, granted)), ?_,
      ⟨differ, clash⟩, rfl, rfl⟩
    refine List.mem_flatMap.mpr
      ⟨⟨rsb, first⟩, List.mem_flatMap.mpr ⟨tr, member, lock⟩, ?_⟩
    exact mem_waitingPairs.mpr ⟨rfl, oneAt, waits, rfl, twoAt, holds⟩

/-- The slots hold the waits-for relation. -/
theorem waitforGraph_linked (resources : List Rsb) :
    Linked (Waits resources) (waitforGraph resources).transactions :=
  (waitforGraph_built resources).linked.congr fun tr _ holder =>
    waits_iff_pair resources tr.xid holder

theorem waitforGraph_xids (resources : List Rsb) :
    (waitforGraph resources).transactions.map (·.xid) =
      (createTransList resources []).map (·.xid) := by
  have outlines :=
    congrArg (List.map (·.1)) (waitforGraph_built resources).outline
  simpa [transOutline, List.map_map, Function.comp_def] using outlines

/-- Who waits or is waited for is among the transactions. -/
theorem waits_known {waiter holder : UInt64}
    (waits : Waits resources waiter holder) :
    waiter ∈ (waitforGraph resources).transactions.map (·.xid) ∧
      holder ∈ (waitforGraph resources).transactions.map (·.xid) := by
  rw [waitforGraph_xids]
  obtain ⟨_, r, listed, waiting, oneMember, granted, twoMember, rfl, _, rfl,
    _⟩ := waits
  obtain ⟨rsb, _, places⟩ := exists_lkbAt listed
  obtain ⟨_, oneAt⟩ := places waiting oneMember
  obtain ⟨_, twoAt⟩ := places granted twoMember
  obtain ⟨one, first, oneXid, _⟩ := createTransList_lkb oneAt
  obtain ⟨two, second, twoXid, _⟩ := createTransList_lkb twoAt
  exact ⟨List.mem_map.mpr ⟨one, first, oneXid⟩,
    List.mem_map.mpr ⟨two, second, twoXid⟩⟩

end Linking

end Dlm.Deadlock
