import Dlm.Plock.TableSpec

/-!
# The range arithmetic of the lock table

The operations on a table compute the byte before a range as `start - 1` and
the byte behind it as `end + 1`, in 64 bits.  Here they are run with checked
arithmetic, which has no result where the 64-bit operation would wrap around:
they always have a result, and it is the one of the unchecked operations.
-/

namespace Dlm.Plock

/-- `x - 1`, unless it wraps around. -/
def checkedPred (x : UInt64) : Option UInt64 :=
  if x.toNat = 0 then none else some (x - 1)

/-- `x + 1`, unless it wraps around. -/
def checkedSucc (x : UInt64) : Option UInt64 :=
  if x.toNat + 1 = 2 ^ 64 then none else some (x + 1)

def shrinkRange2Checked (start2 stop2 start stop : UInt64) :
    Option (Int × UInt64 × UInt64) := do
  if start2 < start then
    let stop2 ← checkedPred start
    return (0, start2, stop2)
  else if stop2 > stop then
    let start2 ← checkedSucc stop
    return (0, start2, stop2)
  else
    return (-1, start2, stop2)

def shrinkRangeChecked (po : PosixLock) (start stop : UInt64) :
    Option (Int × PosixLock) := do
  let (error, start2, stop2) ←
    shrinkRange2Checked po.start po.stop start stop
  return (error, { po with start := start2, stop := stop2 })

def lockCase1Checked (mallocs : Mallocs) (before : List PosixLock)
    (po : PosixLock) (after : List PosixLock) (info : Info) :
    Option (Int × List PosixLock) := do
  let (rv, start2, stop2) ←
    shrinkRange2Checked po.start po.stop info.start info.stop
  if rv ≠ 0 then
    return (rv, before ++ po :: after)
  let converted :=
    { po with start := info.start, stop := info.stop, ex := info.ex }
  let (rv, after, _) :=
    addLock mallocs after info.nodeid info.owner info.pid
      (notEx info.ex) start2 stop2
  return (rv, before ++ converted :: after)

def lockCase2Checked (mallocs : Mallocs) (before : List PosixLock)
    (po : PosixLock) (after : List PosixLock) (info : Info) :
    Option (Int × List PosixLock) := do
  let frontStop ← checkedPred info.start
  let (rv, after, mallocs) :=
    addLock mallocs after info.nodeid info.owner info.pid
      (notEx info.ex) po.start frontStop
  if rv ≠ 0 then
    return (rv, before ++ po :: after)
  let backStart ← checkedSucc info.stop
  let (rv, after, _) :=
    addLock mallocs after info.nodeid info.owner info.pid
      (notEx info.ex) backStart po.stop
  if rv ≠ 0 then
    return (rv, before ++ po :: after)
  let converted :=
    { po with start := info.start, stop := info.stop, ex := info.ex }
  return (rv, before ++ converted :: after)

/-- What case 4 of `lock_internal` leaves of a lock. -/
def cutChecked (po : PosixLock) (info : Info) : Option PosixLock := do
  if po.start < info.start then
    let stop ← checkedPred info.start
    return { po with stop := stop }
  else
    let start ← checkedSucc info.stop
    return { po with start := start }

def lockLoopChecked (mallocs : Mallocs) (info : Info) :
    List PosixLock → List PosixLock → Option (Int × List PosixLock)
  | before, [] =>
      let (rv, locks, _) :=
        addLock mallocs before info.nodeid info.owner info.pid info.ex
          info.start info.stop
      some (rv, locks)
  | before, po :: after =>
      if po.nodeid ≠ info.nodeid ∨ po.owner ≠ info.owner then
        lockLoopChecked mallocs info (before ++ [po]) after
      else if !rangesOverlap po.start po.stop info.start info.stop then
        lockLoopChecked mallocs info (before ++ [po]) after
      else
        match overlapType info.start info.stop po.start po.stop with
        | .case0 =>
            if po.ex = info.ex then some (0, before ++ po :: after)
            else some (0, before ++ { po with ex := info.ex } :: after)
        | .case1 =>
            if po.ex = info.ex then some (0, before ++ po :: after)
            else lockCase1Checked mallocs before po after info
        | .case2 =>
            if po.ex = info.ex then some (0, before ++ po :: after)
            else lockCase2Checked mallocs before po after info
        | .case3 => lockLoopChecked mallocs info before after
        | .case4 => do
            let shrunk ← cutChecked po info
            lockLoopChecked mallocs info (before ++ [shrunk]) after
        | .invalid => some (-1, before ++ po :: after)

def lockInternalChecked (mallocs : Mallocs) (locks : List PosixLock)
    (info : Info) : Option (Int × List PosixLock) :=
  lockLoopChecked mallocs info [] locks

def unlockLoopChecked (mallocs : Mallocs) (info : Info) :
    Int → List PosixLock → List PosixLock → Option (Int × List PosixLock)
  | rv, before, [] => some (rv, before)
  | rv, before, po :: after =>
      if po.nodeid ≠ info.nodeid ∨ po.owner ≠ info.owner then
        unlockLoopChecked mallocs info rv (before ++ [po]) after
      else if !rangesOverlap po.start po.stop info.start info.stop then
        unlockLoopChecked mallocs info rv (before ++ [po]) after
      else
        match overlapType info.start info.stop po.start po.stop with
        | .case0 => some (rv, before ++ after)
        | .case1 => do
            let (rv, shrunk) ← shrinkRangeChecked po info.start info.stop
            return (rv, before ++ shrunk :: after)
        | .case2 => do
            let backStart ← checkedSucc info.stop
            let (rv, after, _) :=
              addLock mallocs after info.nodeid info.owner info.pid po.ex
                backStart po.stop
            let frontStop ← checkedPred info.start
            return (rv, before ++ { po with stop := frontStop } :: after)
        | .case3 => unlockLoopChecked mallocs info rv before after
        | .case4 => do
            let (rv, shrunk) ← shrinkRangeChecked po info.start info.stop
            unlockLoopChecked mallocs info rv (before ++ [shrunk]) after
        | .invalid => some (-1, before ++ po :: after)

def unlockInternalChecked (mallocs : Mallocs) (locks : List PosixLock)
    (info : Info) : Option (Int × List PosixLock) :=
  unlockLoopChecked mallocs info 0 [] locks

/-- A byte that lies behind another one has a byte before it. -/
theorem checkedPred_of_lt {lower x : UInt64} (less : lower < x) :
    checkedPred x = some (x - 1) := by
  have bound := UInt64.lt_iff_toNat_lt.mp less
  rw [checkedPred, if_neg (by omega)]

/-- A byte that lies before another one has a byte behind it. -/
theorem checkedSucc_of_lt {x upper : UInt64} (less : x < upper) :
    checkedSucc x = some (x + 1) := by
  have bound := UInt64.lt_iff_toNat_lt.mp less
  have limit := upper.toNat_lt
  rw [checkedSucc, if_neg (by omega)]

theorem shrinkRange2Checked_eq (start2 stop2 start stop : UInt64) :
    shrinkRange2Checked start2 stop2 start stop =
      some (shrinkRange2 start2 stop2 start stop) := by
  unfold shrinkRange2Checked shrinkRange2
  split
  · rename_i front
    simp [checkedPred_of_lt front]
  · split
    · rename_i back
      simp [checkedSucc_of_lt back]
    · rfl

theorem shrinkRangeChecked_eq (po : PosixLock) (start stop : UInt64) :
    shrinkRangeChecked po start stop = some (shrinkRange po start stop) := by
  simp [shrinkRangeChecked, shrinkRange2Checked_eq, shrinkRange]

section Loops

variable (mallocs : Mallocs) {info : Info}
variable {before after : List PosixLock} {po : PosixLock}

theorem lockCase1Checked_eq :
    lockCase1Checked mallocs before po after info =
      some (lockCase1 mallocs before po after info) := by
  simp only [lockCase1Checked, shrinkRange2Checked_eq, lockCase1,
    Option.bind_eq_bind, Option.bind_some]
  split
  · rfl
  · rfl

theorem lockCase2Checked_eq (front : po.start < info.start)
    (back : info.stop < po.stop) :
    lockCase2Checked mallocs before po after info =
      some (lockCase2 mallocs before po after info) := by
  simp only [lockCase2Checked, checkedPred_of_lt front,
    checkedSucc_of_lt back, lockCase2, Option.bind_eq_bind, Option.bind_some]
  split
  · rfl
  · split
    · rfl
    · rfl

theorem cutChecked_eq
    (position : (po.start < info.start ∧ po.stop < info.stop) ∨
      (info.start < po.start ∧ info.stop < po.stop)) :
    cutChecked po info =
      some (if po.start < info.start then
        { po with stop := info.start - 1 }
      else { po with start := info.stop + 1 }) := by
  unfold cutChecked
  split
  · rename_i front
    simp [checkedPred_of_lt front]
  · rename_i behind
    have back : info.stop < po.stop := by grind
    simp [checkedSucc_of_lt back]

theorem lockLoopChecked_eq (before after : List PosixLock) :
    lockLoopChecked mallocs info before after =
      some (lockLoop mallocs info before after) := by
  induction after generalizing before with
  | nil => rfl
  | cons po later induction =>
      rw [lockLoopChecked, lockLoop]
      have position := overlapType_spec info.start info.stop po.start po.stop
      split
      · exact induction _
      · split
        · exact induction _
        · generalize overlapType info.start info.stop po.start po.stop = kind
            at position ⊢
          cases kind with
          | case0 =>
              simp only
              split
              · rfl
              · rfl
          | case1 =>
              simp only
              split
              · rfl
              · exact lockCase1Checked_eq mallocs
          | case2 =>
              simp only
              split
              · rfl
              · exact lockCase2Checked_eq mallocs position.1 position.2
          | case3 => exact induction _
          | case4 =>
              simp only [cutChecked_eq position]
              exact induction _
          | invalid => rfl

theorem unlockLoopChecked_eq (rv : Int) (before after : List PosixLock) :
    unlockLoopChecked mallocs info rv before after =
      some (unlockLoop mallocs info rv before after) := by
  induction after generalizing before rv with
  | nil => rfl
  | cons po later induction =>
      rw [unlockLoopChecked, unlockLoop]
      have position := overlapType_spec info.start info.stop po.start po.stop
      split
      · exact induction _ _
      · split
        · exact induction _ _
        · generalize overlapType info.start info.stop po.start po.stop = kind
            at position ⊢
          cases kind with
          | case0 => rfl
          | case1 =>
              simp only [shrinkRangeChecked_eq]
              rfl
          | case2 =>
              simp only [checkedSucc_of_lt position.2,
                checkedPred_of_lt position.1]
              rfl
          | case3 => exact induction _ _
          | case4 =>
              simp only [shrinkRangeChecked_eq]
              exact induction _ _
          | invalid => rfl

end Loops

/-- On a well-formed table `lock_internal` and `unlock_internal` return 0, keep
the table well formed, change the map from bytes to modes exactly on the bytes
of the requester, and compute no byte that wraps around. -/
theorem lock_table_byte_exact (locks : List PosixLock) (info : Info)
    (wellFormed : WellFormed locks) (valid : info.Valid) :
    Performs info (some info.ex) locks (lockInternal [] locks info) ∧
      lockInternalChecked [] locks info =
        some (lockInternal [] locks info) ∧
      Performs info none locks (unlockInternal [] locks info) ∧
      unlockInternalChecked [] locks info =
        some (unlockInternal [] locks info) := by
  refine ⟨lockInternal_performs wellFormed valid, ?_,
    unlockInternal_performs wellFormed valid.ordered, ?_⟩
  · exact lockLoopChecked_eq [] [] locks
  · exact unlockLoopChecked_eq [] 0 [] locks

/-- A lock of node 1 on every byte. -/
def wholeFile : PosixLock :=
  { pid := 7
    owner := 1
    start := 0
    stop := -1
    ex := 1
    nodeid := 1
    syncing := false }

/-- A request of the same holder for bytes in the middle. -/
def middleBytes : Info :=
  { Info.cleared with
    pid := 7
    nodeid := 1
    owner := 1
    start := 10
    stop := 20 }

theorem wholeFile_wellFormed : WellFormed [wholeFile] :=
  ⟨Segments.View.Tidy.singleton (by decide), by simp [wholeFile]⟩

theorem middleBytes_valid : middleBytes.Valid :=
  ⟨by decide, .inl rfl⟩

theorem whole_file_lock_split :
    Performs middleBytes (some 0) [wholeFile]
        (lockInternal [] [wholeFile] middleBytes) ∧
      lockInternalChecked [] [wholeFile] middleBytes =
        some (lockInternal [] [wholeFile] middleBytes) ∧
      Performs middleBytes none [wholeFile]
        (unlockInternal [] [wholeFile] middleBytes) ∧
      unlockInternalChecked [] [wholeFile] middleBytes =
        some (unlockInternal [] [wholeFile] middleBytes) :=
  lock_table_byte_exact [wholeFile] middleBytes wholeFile_wellFormed
    middleBytes_valid

end Dlm.Plock
