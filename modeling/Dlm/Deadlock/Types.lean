import Mathlib.Data.List.Basic

/-!
# Data model of the deadlock detection

The records of `deadlock.c`: the locks that a daemon reads from the debugfs file
of its node and from the checkpoints of the others, the resources they are on,
and the transactions that own them.  A process or transaction is known by its
`xid`.  `free` and the lists that only serve it are left out.
-/

namespace Dlm.Deadlock

/-- The lock modes -1 to 6, under the names of the compatibility matrix. -/
inductive Mode where
  | un
  | nl
  | cr
  | cw
  | pr
  | pw
  | ex
  | pd
  deriving DecidableEq, Repr

/-- The row of a mode in the matrix: the mode plus one. -/
def Mode.row : Mode → Nat
  | .un => 0
  | .nl => 1
  | .cr => 2
  | .cw => 3
  | .pr => 4
  | .pw => 5
  | .ex => 6
  | .pd => 7

/-- `__dlm_compat_matrix`. -/
def dlmCompatMatrix : List (List Nat) :=
  [[1, 1, 1, 1, 1, 1, 1, 0],
    [1, 1, 1, 1, 1, 1, 1, 0],
    [1, 1, 1, 1, 1, 1, 0, 0],
    [1, 1, 1, 1, 0, 0, 0, 0],
    [1, 1, 1, 0, 1, 0, 0, 0],
    [1, 1, 1, 0, 0, 0, 0, 0],
    [1, 1, 0, 0, 0, 0, 0, 0],
    [0, 0, 0, 0, 0, 0, 0, 0]]

def dlmModesCompat (mode1 mode2 : Mode) : Bool :=
  (dlmCompatMatrix.getD mode1.row []).getD mode2.row 0 != 0

/-- The lock status `DLM_LKSTS_WAITING`. -/
def DLM_LKSTS_WAITING : Int8 := 1

/-- The lock status `DLM_LKSTS_GRANTED`. -/
def DLM_LKSTS_GRANTED : Int8 := 2

/-- `LOCAL_COPY` and `MASTER_COPY`; `unset` is the zero of `memset`. -/
inductive Copy where
  | unset
  | localCopy
  | masterCopy
  deriving DecidableEq, Repr

/-- `struct pack_lock`.  `origin` is not in the source: for a lock in a
checkpoint it is the place, in the stream of deliveries, of the `CYCLE_START`
for which the checkpoint was written.  No function looks at it. -/
structure PackLock where
  xid : UInt64
  id : UInt32
  nodeid : Int32
  remid : UInt32
  ownpid : Int32
  exflags : UInt32
  flags : UInt32
  status : Int8
  grmode : Mode
  rqmode : Mode
  copy : Copy
  origin : Option Nat
  deriving DecidableEq, Repr

/-- The lock of an entry that `create_lkb` has cleared. -/
def PackLock.cleared : PackLock :=
  { xid := 0
    id := 0
    nodeid := 0
    remid := 0
    ownpid := 0
    exflags := 0
    flags := 0
    status := 0
    grmode := .nl
    rqmode := .nl
    copy := .unset
    origin := none }

/-- `struct dlm_lkb`.  `origins` is not in the source: it collects the
`origin` of everything that `add_lock` has put into the entry. -/
structure Lkb where
  lock : PackLock
  home : Int32
  origins : List Nat
  deriving DecidableEq, Repr

def createLkb : Lkb :=
  { lock := PackLock.cleared, home := 0, origins := [] }

/-- `struct dlm_rsb`. -/
structure Rsb where
  name : String
  locks : List Lkb
  deriving DecidableEq, Repr

/-- A pointer to an lkb: the place of its resource in `ls->resources` and its
place in `r->locks`. -/
structure LkbPtr where
  rsb : Nat
  place : Nat
  deriving DecidableEq, Repr

/-- `struct trans`.  A pointer to a transaction is its `xid`; `waitfor` has
`waitfor_alloc` slots. -/
structure Trans where
  xid : UInt64
  locks : List LkbPtr
  othersWaitingOnUs : Int
  waitforCount : Nat
  waitfor : List (Option UInt64)
  deriving DecidableEq, Repr

/-- The transaction that `get_trans` allocates. -/
def Trans.new (xid : UInt64) : Trans :=
  { xid := xid
    locks := []
    othersWaitingOnUs := 0
    waitforCount := 0
    waitfor := [] }

/-- The four `DLM_MSG_DEADLK` messages of `send_message`; a cancel carries
`to_nodeid` and, as `msgdata`, a lock id. -/
inductive Message where
  | cycleStart
  | checkpointReady
  | cycleEnd
  | cancelLock (toNodeid : Int32) (lkid : UInt32)
  deriving DecidableEq, Repr

end Dlm.Deadlock
