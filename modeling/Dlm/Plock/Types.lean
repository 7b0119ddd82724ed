import Mathlib.Algebra.Ring.Nat
import Mathlib.Data.List.Basic

/-!
# Data model of the plock daemon

The records of `plock.c` and of the kernel's `dlm_plock_info`, with the fields
that the modelled functions read.  The kernel structure's `version`, `flags`
and `fsid` and the debugging counters are left out: no modelled function looks
at them.  Fixed-width integers keep the widths of the source.
-/

namespace Dlm.Plock

/-- `optype` of a `dlm_plock_info`.  Every other code falls into the `default`
branch of `__receive_plock`. -/
inductive Optype where
  | lock
  | unlock
  | get
  | unknown (code : UInt8)
  deriving DecidableEq, Repr

/-- `struct dlm_plock_info`.  `stop` is the source's `end`, the last byte of
the range.  `tag` is not in the source: it numbers the operations a node has
read from the kernel, so that two equal requests can be told apart in a
history.  No function looks at it. -/
structure Info where
  optype : Optype
  ex : UInt8
  wait : Bool
  pid : UInt32
  nodeid : Int32
  number : UInt64
  start : UInt64
  stop : UInt64
  owner : UInt64
  tag : Nat
  deriving DecidableEq, Repr

/-- An info cleared by `memset`. -/
def Info.cleared : Info :=
  { optype := .unknown 0
    ex := 0
    wait := false
    pid := 0
    nodeid := 0
    number := 0
    start := 0
    stop := 0
    owner := 0
    tag := 0 }

/-- `struct posix_lock`.  `syncing` is the `P_SYNCING` bit of `flags`, the
only bit the source uses. -/
structure PosixLock where
  pid : UInt32
  owner : UInt64
  start : UInt64
  stop : UInt64
  ex : UInt8
  nodeid : Int32
  syncing : Bool
  deriving DecidableEq, Repr

/-- `struct lock_waiter`. -/
structure LockWaiter where
  syncing : Bool
  info : Info
  deriving DecidableEq, Repr

/-- `struct resource`.  `gotUnown` is the `R_GOT_UNOWN` bit of `flags`.  The
entries of `pending` are the infos of its `lock_waiter`s, whose flags are never
read. -/
structure Resource where
  number : UInt64
  owner : Int32
  gotUnown : Bool
  locks : List PosixLock
  waiters : List LockWaiter
  pending : List Info
  deriving DecidableEq, Repr

/-- The message types that carry a `dlm_plock_info`. -/
inductive MsgType where
  | plock
  | own
  | drop
  | syncLock
  | syncWaiter
  deriving DecidableEq, Repr

/-- A plock message: the type and the sender of its `dlm_header`, and the
info that follows the header. -/
structure Message where
  type : MsgType
  nodeid : Int32
  info : Info
  deriving DecidableEq, Repr

/-- What a handler does outside the plock table, in the order in which it does
it: replies written to the plock device, messages handed to
`dlm_send_message`, which fills in the sender, and updates of
`last_plock_time`. -/
inductive Effect where
  | writeResult (info : Info) (rv : Int)
  | send (type : MsgType) (info : Info)
  | plockTime
  deriving DecidableEq, Repr

/-- `struct pack_plock`, a record of a checkpoint section, without its padding.
The conversions to and from little endian cancel and are left out. -/
structure PackPlock where
  start : UInt64
  stop : UInt64
  owner : UInt64
  pid : UInt32
  nodeid : UInt32
  ex : UInt8
  waiter : UInt8
  deriving DecidableEq, Repr

/-- The globals the handlers read.  `waiterJunk` and `lockJunk` are the
`P_SYNCING` bits, and `infoJunk` the info, found in memory that `malloc`
returned and the code did not clear. -/
structure Env where
  ourNodeid : Int32
  plockOwnership : Bool
  dropResourcesCount : Nat
  waiterJunk : Info → Bool
  lockJunk : PosixLock → Bool
  infoJunk : PackPlock → Info

def EAGAIN : Int := 11
def ENOMEM : Int := 12
def EINVAL : Int := 22

end Dlm.Plock
