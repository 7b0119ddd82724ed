import Dlm.Lib.Scan
import Dlm.Plock.Lockspace

/-!
# The checkpoint of the plock state

`store_plocks` writes one section per resource: the resource number and its
owner are in the text of the section id, the locks and waiters are packed in
the data.  `retrieve_plocks` builds a fresh resource from every section.  The
checkpoint service is taken to return the sections as they were created, in
any order.
-/

namespace Dlm.Plock

open Scan

def SECTION_NAME_LEN : Nat := 34

/-- A section of the checkpoint. -/
structure Section where
  id : List Char
  data : List PackPlock
  deriving DecidableEq, Repr

def packLock (po : PosixLock) : PackPlock :=
  { start := po.start
    stop := po.stop
    owner := po.owner
    pid := po.pid
    nodeid := po.nodeid.toUInt32
    ex := po.ex
    waiter := 0 }

def packWaiter (w : LockWaiter) : PackPlock :=
  { start := w.info.start
    stop := w.info.stop
    owner := w.info.owner
    pid := w.info.pid
    nodeid := w.info.nodeid.toUInt32
    ex := w.info.ex
    waiter := 1 }

def packSectionBuf (env : Env) (r : Resource) : List PackPlock :=
  if r.owner = env.ourNodeid then []
  else
    (r.locks.filter (!·.syncing)).map packLock ++
      (r.waiters.filter (!·.syncing)).map packWaiter

/-- The owner that `store_plocks` writes; `none` for a resource it skips. -/
def sectionOwner (env : Env) (r : Resource) : Option Int32 :=
  if r.owner = -1 then none
  else if r.owner = env.ourNodeid then some env.ourNodeid
  else if r.owner ≠ 0 then some r.owner
  else if !r.gotUnown then some env.ourNodeid
  else some 0

/-- The text that `snprintf` leaves in a buffer of `SECTION_NAME_LEN` bytes. -/
def sectionId (number : UInt64) (owner : Int32) : List Char :=
  ('r' :: printNat number.toNat ++ '.' :: printInt owner.toInt).take
    (SECTION_NAME_LEN - 1)

/-- The section that `store_plocks` creates for a resource. -/
def storeResource (env : Env) (r : Resource) : Option Section :=
  (sectionOwner env r).map fun owner =>
    { id := sectionId r.number owner
      data := packSectionBuf env r }

/-- `store_plocks`, when the last checkpoint is not up to date. -/
def storePlocks (env : Env) (ls : Lockspace) : List Section :=
  ls.plockResources.filterMap (storeResource env)

/-- `sscanf` with the format `r%llu.%d`.  The owner is 0 and the number is not
set until they are read. -/
def scanSectionId : List Char → Option UInt64 × Int32
  | 'r' :: text =>
      match scanInt text with
      | none => (none, 0)
      | some (number, rest) =>
          match rest with
          | '.' :: ownerText =>
              match scanInt ownerText with
              | none => (some (UInt64.ofInt number), 0)
              | some (owner, _) =>
                  (some (UInt64.ofInt number), Int32.ofInt owner)
          | _ => (some (UInt64.ofInt number), 0)
  | _ => (none, 0)

/-- A lock that `unpack_section_buf` allocates; its flags are not cleared. -/
def unpackLock (env : Env) (pp : PackPlock) : PosixLock :=
  let po : PosixLock :=
    { pid := pp.pid
      owner := pp.owner
      start := pp.start
      stop := pp.stop
      ex := pp.ex
      nodeid := pp.nodeid.toInt32
      syncing := false }
  { po with syncing := env.lockJunk po }

/-- A waiter that `unpack_section_buf` allocates; only these fields of its info
are set. -/
def unpackWaiter (env : Env) (pp : PackPlock) : LockWaiter :=
  let info :=
    { env.infoJunk pp with
      start := pp.start
      stop := pp.stop
      owner := pp.owner
      pid := pp.pid
      nodeid := pp.nodeid.toInt32
      ex := pp.ex }
  { syncing := env.waiterJunk info, info := info }

/-- `unpack_section_buf`.  A number that the id does not give is left at 0;
`store_plocks` writes no such id. -/
def unpackSectionBuf (env : Env) (section_ : Section) : Resource :=
  let (number, owner) := scanSectionId section_.id
  { number := number.getD 0
    owner := owner
    gotUnown := false
    locks := (section_.data.filter (·.waiter == 0)).map (unpackLock env)
    waiters := (section_.data.filter (·.waiter != 0)).map (unpackWaiter env)
    pending := [] }

def retrievePlocks (env : Env) (sections : List Section) (ls : Lockspace) :
    Lockspace :=
  { ls with
    plockResources :=
      ls.plockResources ++ sections.map (unpackSectionBuf env) }

/-- The part of `receive_plocks_stored` behind its tests. -/
def receivePlocksStored (env : Env) (sections : List Section)
    (ls : Lockspace) : Lockspace × List Effect :=
  let (ls, effects) := processSavedPlocks env (retrievePlocks env sections ls)
  ({ ls with needPlocks := false, savePlocks := false }, effects)

/-- The ways through `prepare_plocks`: the node is alone, no node has plock
state, the node has to read a checkpoint, or it already has the state. -/
inductive PrepareCase where
  | alone
  | noState
  | needed
  | ready
  deriving DecidableEq, Repr

/-- The effect of `prepare_plocks` on the lockspace.  The store done by the
checkpoint node does not change it. -/
def preparePlocks (how : PrepareCase) (ls : Lockspace) : Lockspace :=
  match how with
  | .alone => { ls with needPlocks := false }
  | .noState => { ls with needPlocks := false, savePlocks := false }
  | .needed => if ls.needPlocks then { ls with savePlocks := true } else ls
  | .ready => ls

theorem length_printInt_le (owner : Int32) :
    (printInt owner.toInt).length ≤ 11 := by
  have below := owner.toInt_lt
  have above := owner.le_toInt
  cases shape : owner.toInt with
  | ofNat value =>
      rw [shape, Int.ofNat_eq_natCast] at below
      have short := length_printNat_le value 10 (by decide) (by omega)
      simp only [printInt]
      omega
  | negSucc value =>
      have short := length_printNat_le (value + 1) 10 (by decide) (by omega)
      simp only [printInt, List.length_cons]
      omega

/-- The buffer holds the whole text of every section id. -/
theorem sectionId_eq (number : UInt64) (owner : Int32) :
    sectionId number owner =
      'r' :: (printNat number.toNat ++ '.' :: printInt owner.toInt) := by
  have numberLength := length_printNat_le number.toNat 20 (by decide)
    (Nat.lt_trans number.toNat_lt (by decide))
  have ownerLength := length_printInt_le owner
  apply List.take_of_length_le
  simp only [SECTION_NAME_LEN, List.cons_append, List.length_cons,
    List.length_append]
  omega

/-- The number and the owner are read back from the section id. -/
theorem scanSectionId_sectionId (number : UInt64) (owner : Int32) :
    scanSectionId (sectionId number owner) = (some number, owner) := by
  have numberScan := scanInt_printInt (number.toNat : Int)
    ('.' :: printInt owner.toInt) (by simp [NoDigit])
  have ownerScan := scanInt_printInt owner.toInt [] (by simp [NoDigit])
  rw [List.append_nil] at ownerScan
  have printed : printInt (number.toNat : Int) = printNat number.toNat := rfl
  rw [printed] at numberScan
  have restored : UInt64.ofInt (number.toNat : Int) = number := by
    have bound : (number.toNat : Int) % 2 ^ 64 = number.toNat :=
      Int.emod_eq_of_lt (by omega) (by exact_mod_cast number.toNat_lt)
    rw [UInt64.ofInt, bound]
    simp
  simp [sectionId_eq, scanSectionId, numberScan, ownerScan, restored]

end Dlm.Plock
