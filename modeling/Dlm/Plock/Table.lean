import Dlm.Plock.Types

/-!
# The lock table of a resource

`r->locks` and the functions that rewrite it: the range arithmetic,
`is_conflict`, `add_lock`, `lock_internal` and `unlock_internal`.  A loop with
`list_for_each_entry_safe` walks a list that it edits in place, so it is
modelled by a zipper: the entries already passed, and those still to come.
`list_add_tail` appends to the latter.
-/

namespace Dlm.Plock

/-- The results of the coming calls of `malloc`.  An exhausted list stands for
calls that succeed. -/
abbrev Mallocs := List Bool

def malloc : Mallocs → Bool × Mallocs
  | [] => (true, [])
  | success :: later => (success, later)

/-- The C operator `!` on a lock mode. -/
def notEx (ex : UInt8) : UInt8 := if ex = 0 then 1 else 0

def rangesOverlap (start1 stop1 start2 stop2 : UInt64) : Bool :=
  !(stop1 < start2 || start1 > stop2)

/-- The return values 0 to 4 and -1 of `overlap_type`. -/
inductive OverlapType where
  | case0
  | case1
  | case2
  | case3
  | case4
  | invalid
  deriving DecidableEq, Repr

/-- `overlap_type`: `s1:e1` is the new range, `s2:e2` the existing one. -/
def overlapType (s1 e1 s2 e2 : UInt64) : OverlapType :=
  if s1 = s2 ∧ e1 = e2 then .case0
  else if s1 = s2 ∧ e1 < e2 then .case1
  else if s1 > s2 ∧ e1 = e2 then .case1
  else if s1 > s2 ∧ e1 < e2 then .case2
  else if s1 ≤ s2 ∧ e1 ≥ e2 then .case3
  else if s1 > s2 ∧ e1 > e2 then .case4
  else if s1 < s2 ∧ e1 < e2 then .case4
  else .invalid

/-- `shrink_range2`: the error code and the new `start2:stop2`. -/
def shrinkRange2 (start2 stop2 start stop : UInt64) :
    Int × UInt64 × UInt64 :=
  if start2 < start then (0, start2, start - 1)
  else if stop2 > stop then (0, stop + 1, stop2)
  else (-1, start2, stop2)

def shrinkRange (po : PosixLock) (start stop : UInt64) : Int × PosixLock :=
  let (error, start2, stop2) := shrinkRange2 po.start po.stop start stop
  (error, { po with start := start2, stop := stop2 })

/-- One round of the loop of `is_conflict`. -/
def conflicts (po : PosixLock) (info : Info) : Bool :=
  !(po.nodeid == info.nodeid && po.owner == info.owner) &&
    rangesOverlap po.start po.stop info.start info.stop &&
    (info.ex != 0 || po.ex != 0)

/-- `is_conflict`: whether some lock conflicts and, with `get`, the info
overwritten with the first one that does. -/
def isConflict (locks : List PosixLock) (info : Info) (get : Bool) :
    Bool × Info :=
  match locks.find? (conflicts · info) with
  | some po =>
      if get then
        (true, { info with
          ex := po.ex
          pid := po.pid
          start := po.start
          stop := po.stop })
      else (true, info)
  | none => (false, info)

def addLock (mallocs : Mallocs) (locks : List PosixLock) (nodeid : Int32)
    (owner : UInt64) (pid : UInt32) (ex : UInt8) (start stop : UInt64) :
    Int × List PosixLock × Mallocs :=
  match malloc mallocs with
  | (false, later) => (-ENOMEM, locks, later)
  | (true, later) =>
      (0, locks ++
        [{ pid := pid
           owner := owner
           start := start
           stop := stop
           ex := ex
           nodeid := nodeid
           syncing := false }], later)

/-- `lock_case1` on the lock `po` between `before` and `after`. -/
def lockCase1 (mallocs : Mallocs) (before : List PosixLock) (po : PosixLock)
    (after : List PosixLock) (info : Info) : Int × List PosixLock :=
  let (rv, start2, stop2) :=
    shrinkRange2 po.start po.stop info.start info.stop
  if rv ≠ 0 then (rv, before ++ po :: after)
  else
    let converted :=
      { po with start := info.start, stop := info.stop, ex := info.ex }
    let (rv, after, _) :=
      addLock mallocs after info.nodeid info.owner info.pid
        (notEx info.ex) start2 stop2
    (rv, before ++ converted :: after)

/-- `lock_case2` on the lock `po` between `before` and `after`. -/
def lockCase2 (mallocs : Mallocs) (before : List PosixLock) (po : PosixLock)
    (after : List PosixLock) (info : Info) : Int × List PosixLock :=
  let (rv, after, mallocs) :=
    addLock mallocs after info.nodeid info.owner info.pid
      (notEx info.ex) po.start (info.start - 1)
  if rv ≠ 0 then (rv, before ++ po :: after)
  else
    let (rv, after, _) :=
      addLock mallocs after info.nodeid info.owner info.pid
        (notEx info.ex) (info.stop + 1) po.stop
    if rv ≠ 0 then (rv, before ++ po :: after)
    else
      let converted :=
        { po with start := info.start, stop := info.stop, ex := info.ex }
      (rv, before ++ converted :: after)

/-- The loop of `lock_internal` and the `add_lock` that follows it. -/
def lockLoop (mallocs : Mallocs) (info : Info) :
    List PosixLock → List PosixLock → Int × List PosixLock
  | before, [] =>
      let (rv, locks, _) :=
        addLock mallocs before info.nodeid info.owner info.pid info.ex
          info.start info.stop
      (rv, locks)
  | before, po :: after =>
      if po.nodeid ≠ info.nodeid ∨ po.owner ≠ info.owner then
        lockLoop mallocs info (before ++ [po]) after
      else if !rangesOverlap po.start po.stop info.start info.stop then
        lockLoop mallocs info (before ++ [po]) after
      else
        match overlapType info.start info.stop po.start po.stop with
        | .case0 =>
            if po.ex = info.ex then (0, before ++ po :: after)
            else (0, before ++ { po with ex := info.ex } :: after)
        | .case1 =>
            if po.ex = info.ex then (0, before ++ po :: after)
            else lockCase1 mallocs before po after info
        | .case2 =>
            if po.ex = info.ex then (0, before ++ po :: after)
            else lockCase2 mallocs before po after info
        | .case3 => lockLoop mallocs info before after
        | .case4 =>
            let shrunk :=
              if po.start < info.start then { po with stop := info.start - 1 }
              else { po with start := info.stop + 1 }
            lockLoop mallocs info (before ++ [shrunk]) after
        | .invalid => (-1, before ++ po :: after)

/-- `lock_internal`: the return value and the new `r->locks`. -/
def lockInternal (mallocs : Mallocs) (locks : List PosixLock) (info : Info) :
    Int × List PosixLock :=
  lockLoop mallocs info [] locks

/-- The loop of `unlock_internal`; `rv` is the value left by the last
`shrink_range`. -/
def unlockLoop (mallocs : Mallocs) (info : Info) :
    Int → List PosixLock → List PosixLock → Int × List PosixLock
  | rv, before, [] => (rv, before)
  | rv, before, po :: after =>
      if po.nodeid ≠ info.nodeid ∨ po.owner ≠ info.owner then
        unlockLoop mallocs info rv (before ++ [po]) after
      else if !rangesOverlap po.start po.stop info.start info.stop then
        unlockLoop mallocs info rv (before ++ [po]) after
      else
        match overlapType info.start info.stop po.start po.stop with
        | .case0 => (rv, before ++ after)
        | .case1 =>
            let (rv, shrunk) := shrinkRange po info.start info.stop
            (rv, before ++ shrunk :: after)
        | .case2 =>
            let (rv, after, _) :=
              addLock mallocs after info.nodeid info.owner info.pid po.ex
                (info.stop + 1) po.stop
            (rv, before ++ { po with stop := info.start - 1 } :: after)
        | .case3 => unlockLoop mallocs info rv before after
        | .case4 =>
            let (rv, shrunk) := shrinkRange po info.start info.stop
            unlockLoop mallocs info rv (before ++ [shrunk]) after
        | .invalid => (-1, before ++ po :: after)

/-- `unlock_internal`: the return value and the new `r->locks`. -/
def unlockInternal (mallocs : Mallocs) (locks : List PosixLock) (info : Info) :
    Int × List PosixLock :=
  unlockLoop mallocs info 0 [] locks

end Dlm.Plock
