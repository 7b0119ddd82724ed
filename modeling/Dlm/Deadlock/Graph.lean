import Dlm.Deadlock.Types

/-!
# The waits-for graph

`find_deadlock` and what it calls: the transactions are collected from the
locks, every transaction gets the transactions that it waits for into its
`waitfor` slots, and those that wait for nobody are removed again and again.
If some are left, one of them is cancelled.

No list of resources or locks changes meanwhile.  The loops over
`ls->transactions` either leave the list alone or delete only the element they
are at, so they run over the transactions that were there when they began.
-/

namespace Dlm.Deadlock

/-- `ls->transactions`, and `waitfor_trans` of every lock. -/
structure Graph where
  transactions : List Trans
  waitforTrans : LkbPtr → Option UInt64

/-- Rewrite the transaction that a pointer points to. -/
def updateTrans (xid : UInt64) (change : Trans → Trans)
    (transactions : List Trans) : List Trans :=
  transactions.map fun tr => if tr.xid = xid then change tr else tr

/-- The transaction that a pointer points to. -/
def findTrans (xid : UInt64) (transactions : List Trans) : Option Trans :=
  transactions.find? (·.xid == xid)

/-- The locks of a resource with their addresses. -/
def rsbLocks (resources : List Rsb) (rsb : Nat) : List (LkbPtr × Lkb) :=
  match resources[rsb]? with
  | none => []
  | some r => r.locks.zipIdx.map fun entry => (⟨rsb, entry.2⟩, entry.1)

/-- All locks, resource by resource. -/
def allLocks (resources : List Rsb) : List (LkbPtr × Lkb) :=
  (List.range resources.length).flatMap (rsbLocks resources)

def lkbAt (resources : List Rsb) (ptr : LkbPtr) : Option Lkb :=
  (resources[ptr.rsb]?).bind (·.locks[ptr.place]?)

/-- `get_trans`, on the list of transactions. -/
def getTrans (xid : UInt64) (transactions : List Trans) : List Trans :=
  if transactions.any (·.xid == xid) then transactions
  else Trans.new xid :: transactions

def addLkbTrans (xid : UInt64) (ptr : LkbPtr) (transactions : List Trans) :
    List Trans :=
  updateTrans xid (fun tr => { tr with locks := ptr :: tr.locks })
    transactions

def createTransList (resources : List Rsb) (transactions : List Trans) :
    List Trans :=
  (allLocks resources).foldl
    (fun transactions entry =>
      addLkbTrans entry.2.lock.xid entry.1
        (getTrans entry.2.lock.xid transactions))
    transactions

/-- `locks_compat`. -/
def locksCompat (waiting granted : LkbPtr × Lkb) : Bool :=
  if waiting.1 = granted.1 then false
  else if waiting.2.lock.xid = granted.2.lock.xid then false
  else dlmModesCompat granted.2.lock.grmode waiting.2.lock.rqmode

def inWaitfor (tr : Trans) (xid : UInt64) : Bool :=
  tr.waitfor.contains (some xid)

/-- The slots with room for one more transaction. -/
def roomyWaitfor (tr : Trans) : List (Option UInt64) :=
  if tr.waitforCount = tr.waitfor.length then
    tr.waitfor.take tr.waitforCount ++
      List.replicate (tr.waitfor.length + 4 - tr.waitforCount) none
  else tr.waitfor

/-- The end of `add_waitfor`, on the waiting transaction. -/
def pushWaitfor (xid : UInt64) (tr : Trans) : Trans :=
  { tr with
    waitfor := (roomyWaitfor tr).set tr.waitforCount (some xid)
    waitforCount := tr.waitforCount + 1 }

/-- `add_waitfor`, when its allocation succeeds. -/
def addWaitfor (waiting granted : LkbPtr × Lkb) (graph : Graph) : Graph :=
  match findTrans waiting.2.lock.xid graph.transactions with
  | none => graph
  | some tr =>
      if locksCompat waiting granted then graph
      else if tr.xid = granted.2.lock.xid then graph
      else if tr.waitforCount ≠ 0 ∧ inWaitfor tr granted.2.lock.xid then graph
      else
        { transactions :=
            updateTrans granted.2.lock.xid
              (fun tr =>
                { tr with othersWaitingOnUs := tr.othersWaitingOnUs + 1 })
              (updateTrans tr.xid (pushWaitfor granted.2.lock.xid)
                graph.transactions)
          waitforTrans := fun ptr =>
            if ptr = waiting.1 then some granted.2.lock.xid
            else graph.waitforTrans ptr }

/-- The body of `create_waitfor_graph` for one lock of a transaction. -/
def addWaitfors (resources : List Rsb) (graph : Graph) (ptr : LkbPtr) :
    Graph :=
  match lkbAt resources ptr with
  | none => graph
  | some lkb =>
      if lkb.lock.status = DLM_LKSTS_GRANTED then graph
      else
        ((rsbLocks resources ptr.rsb).filter
            (·.2.lock.status != DLM_LKSTS_WAITING)).foldl
          (fun graph granted => addWaitfor (ptr, lkb) granted graph) graph

def createWaitforGraph (resources : List Rsb) (graph : Graph) : Graph :=
  (graph.transactions.flatMap (·.locks)).foldl (addWaitfors resources) graph

/-- The loop of `remove_waitfor` over the slots, from the value of
`waitfor_count`: the slots and the count it leaves, and how many it has
cleared. -/
def removeWaitforLoop (remove : UInt64) :
    Nat → List (Option UInt64) → List (Option UInt64) × Nat × Nat
  | count, [] => ([], count, 0)
  | count, slot :: later =>
      if count = 0 then (slot :: later, count, 0)
      else if slot = some remove then
        let (later, count, cleared) :=
          removeWaitforLoop remove (count - 1) later
        (none :: later, count, cleared + 1)
      else
        let (later, count, cleared) := removeWaitforLoop remove count later
        (slot :: later, count, cleared)

/-- `remove_waitfor` on the transaction that waits. -/
def dropWaitfor (remove : UInt64) (tr : Trans) : Trans :=
  let (waitfor, count, _) :=
    removeWaitforLoop remove tr.waitforCount tr.waitfor
  { tr with waitfor := waitfor, waitforCount := count }

/-- How often `remove_waitfor` decrements `others_waiting_on_us`. -/
def droppedWaitfor (remove : UInt64) (tr : Trans) : Nat :=
  (removeWaitforLoop remove tr.waitforCount tr.waitfor).2.2

/-- `remove_waitfor`. -/
def removeWaitfor (xid remove : UInt64) (transactions : List Trans) :
    List Trans :=
  match findTrans xid transactions with
  | none => transactions
  | some tr =>
      updateTrans remove
        (fun other =>
          { other with
            othersWaitingOnUs :=
              other.othersWaitingOnUs - droppedWaitfor remove tr })
        (updateTrans xid (dropWaitfor remove) transactions)

/-- `tr->others_waiting_on_us`. -/
def othersWaiting (xid : UInt64) (transactions : List Trans) : Int :=
  ((findTrans xid transactions).map (·.othersWaitingOnUs)).getD 0

/-- The loop of `remove_trans` over the transactions. -/
def removeTransLoop (remove : UInt64) :
    List UInt64 → List Trans → List Trans
  | [], transactions => transactions
  | xid :: later, transactions =>
      if xid = remove then removeTransLoop remove later transactions
      else if othersWaiting remove transactions = 0 then transactions
      else
        removeTransLoop remove later (removeWaitfor xid remove transactions)

/-- `remove_trans`. -/
def removeTrans (remove : UInt64) (transactions : List Trans) : List Trans :=
  removeTransLoop remove (transactions.map (·.xid)) transactions

/-- The loop of `reduce_waitfor_graph`: the transactions left and how many have
been removed. -/
def reduceWaitforPass : List UInt64 → List Trans → List Trans × Nat
  | [], transactions => (transactions, 0)
  | xid :: later, transactions =>
      match findTrans xid transactions with
      | none => reduceWaitforPass later transactions
      | some tr =>
          if tr.waitforCount ≠ 0 then reduceWaitforPass later transactions
          else
            let (left, removed) :=
              reduceWaitforPass later
                ((removeTrans xid transactions).filter (·.xid != xid))
            (left, removed + 1)

def reduceWaitforGraph (transactions : List Trans) : List Trans × Nat :=
  reduceWaitforPass (transactions.map (·.xid)) transactions

/-- The loop of `reduce_waitfor_graph_loop`, at most as often as the fuel
allows; `none` means that it is not finished. -/
def reduceWaitforLoop : Nat → List Trans → Option (List Trans)
  | 0, _ => none
  | fuel + 1, transactions =>
      let (left, removed) := reduceWaitforGraph transactions
      if removed = 0 then some left else reduceWaitforLoop fuel left

theorem map_updateTrans {β : Type} {project : Trans → β} {xid : UInt64}
    {change : Trans → Trans}
    (same : ∀ tr, project (change tr) = project tr)
    (transactions : List Trans) :
    (updateTrans xid change transactions).map project =
      transactions.map project := by
  rw [updateTrans, List.map_map]
  apply List.map_congr_left
  intro tr _
  simp only [Function.comp_apply]
  split
  · exact same tr
  · rfl

theorem removeWaitfor_xids (xid remove : UInt64)
    (transactions : List Trans) :
    (removeWaitfor xid remove transactions).map (·.xid) =
      transactions.map (·.xid) := by
  unfold removeWaitfor
  split
  · rfl
  · rw [map_updateTrans, map_updateTrans]
    · intro _
      rfl
    · intro _
      rfl

theorem removeTransLoop_xids (remove : UInt64) (later : List UInt64)
    (transactions : List Trans) :
    (removeTransLoop remove later transactions).map (·.xid) =
      transactions.map (·.xid) := by
  induction later generalizing transactions with
  | nil => rfl
  | cons xid later induction =>
      unfold removeTransLoop
      split
      · exact induction transactions
      · split
        · rfl
        · rw [induction, removeWaitfor_xids]

/-- A pass makes the list shorter by what it removes at least. -/
theorem reduceWaitforPass_length (later : List UInt64)
    (transactions : List Trans) :
    (reduceWaitforPass later transactions).1.length +
        (reduceWaitforPass later transactions).2 ≤ transactions.length := by
  induction later generalizing transactions with
  | nil => exact Nat.le_refl _
  | cons xid later induction =>
      unfold reduceWaitforPass
      cases found : findTrans xid transactions with
      | none => exact induction transactions
      | some tr =>
          by_cases waits : tr.waitforCount ≠ 0
          · simp only [if_pos waits]
            exact induction transactions
          · simp only [if_neg waits]
            have rest := induction
              ((removeTrans xid transactions).filter (·.xid != xid))
            have present : xid ∈ transactions.map (·.xid) :=
              List.mem_map.mpr ⟨tr, List.mem_of_find?_eq_some found,
                by simpa using List.find?_some found⟩
            rw [← removeTransLoop_xids xid (transactions.map (·.xid))]
              at present
            obtain ⟨old, there, same⟩ := List.mem_map.mp present
            have shorter : ((removeTrans xid transactions).filter
                (·.xid != xid)).length <
                (removeTrans xid transactions).length := by
              apply List.length_filter_lt_length_iff_exists.mpr
              exact ⟨old, there, by simp [same]⟩
            have length : (removeTrans xid transactions).length =
                transactions.length := by
              have xids := congrArg List.length (removeTransLoop_xids xid
                (transactions.map (·.xid)) transactions)
              simpa [removeTrans] using xids
            omega

/-- The loop is finished after as many rounds as there are transactions, and
one more. -/
theorem reduceWaitforLoop_isSome {fuel : Nat} {transactions : List Trans}
    (enough : transactions.length < fuel) :
    (reduceWaitforLoop fuel transactions).isSome = true := by
  induction fuel generalizing transactions with
  | zero => exact (Nat.not_lt_zero _ enough).elim
  | succ fuel induction =>
      unfold reduceWaitforLoop
      have length := reduceWaitforPass_length (transactions.map (·.xid))
        transactions
      by_cases zero : (reduceWaitforGraph transactions).2 = 0
      · simp only [if_pos zero]
        rfl
      · simp only [if_neg zero]
        apply induction
        unfold reduceWaitforGraph at zero ⊢
        omega

def reduceWaitforGraphLoop (transactions : List Trans) : List Trans :=
  (reduceWaitforLoop (transactions.length + 1) transactions).get
    (reduceWaitforLoop_isSome (Nat.lt_succ_self _))

def findTransToCancel (transactions : List Trans) : Option Trans :=
  transactions.find? (·.othersWaitingOnUs != 0)

/-- The message of `send_cancel_lock`. -/
def sendCancelLock (lkb : Lkb) : Message :=
  .cancelLock lkb.home
    (if lkb.lock.nodeid = 0 then lkb.lock.id else lkb.lock.remid)

/-- The loop of `cancel_trans` over the locks of the transaction, and the
messages it sends. -/
def cancelLocks (resources : List Rsb) (xid : UInt64) :
    List LkbPtr → Graph → Graph × List Message
  | [], graph => (graph, [])
  | ptr :: later, graph =>
      match lkbAt resources ptr with
      | none => cancelLocks resources xid later graph
      | some lkb =>
          if lkb.lock.status = DLM_LKSTS_GRANTED then
            cancelLocks resources xid later graph
          else
            let transactions :=
              match graph.waitforTrans ptr with
              | none => graph.transactions
              | some holder => removeWaitfor xid holder graph.transactions
            let (graph, sent) :=
              cancelLocks resources xid later
                { graph with transactions := transactions }
            (graph, sendCancelLock lkb :: sent)

def cancelTrans (resources : List Rsb) (graph : Graph) :
    Graph × List Message :=
  match findTransToCancel graph.transactions with
  | none => (graph, [])
  | some tr =>
      let (graph, sent) := cancelLocks resources tr.xid tr.locks graph
      ({ graph with
          transactions := (reduceWaitforGraph graph.transactions).1 }, sent)

/-- The graph that `find_deadlock` builds. -/
def waitforGraph (resources : List Rsb) : Graph :=
  createWaitforGraph resources
    { transactions := createTransList resources []
      waitforTrans := fun _ => none }

/-- `find_deadlock`: the transactions it leaves and the messages it sends. -/
def findDeadlock (resources : List Rsb) (transactions : List Trans) :
    List Trans × List Message :=
  if resources.isEmpty then (transactions, [.cycleEnd])
  else if !transactions.isEmpty then (transactions, [.cycleEnd])
  else
    let graph := waitforGraph resources
    let transactions := reduceWaitforGraphLoop graph.transactions
    if transactions.isEmpty then (transactions, [.cycleEnd])
    else
      let (graph, sent) :=
        cancelTrans resources { graph with transactions := transactions }
      (reduceWaitforGraphLoop graph.transactions, sent ++ [.cycleEnd])

end Dlm.Deadlock
