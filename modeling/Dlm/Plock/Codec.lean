import Dlm.Lib.Bytes
import Dlm.Plock.Marks
import Dlm.Plock.Restore

/-!
# The bytes of a checkpoint section

`pack_section_buf` writes the locks and waiters of a resource as an array of
`struct pack_plock`, each number converted to little endian, and
`unpack_section_buf` reads the array back, possibly on a machine of the other
byte order.  The number and the owner of the resource travel in the text of the
section id.
-/

namespace Dlm.Plock

open Scan

/-- `sizeof(struct pack_plock)`. -/
def PACK_PLOCK_SIZE : Nat := 40

/-- The memory of a `struct pack_plock`.  The section buffer has been cleared,
so that the padding is zero. -/
def writePackPlock (host : Endian) (pp : PackPlock) : List UInt8 :=
  storeLe host 8 pp.start.toNat ++ (storeLe host 8 pp.stop.toNat ++
    (storeLe host 8 pp.owner.toNat ++ (storeLe host 4 pp.pid.toNat ++
      (storeLe host 4 pp.nodeid.toNat ++
        [pp.ex, pp.waiter, 0, 0, 0, 0, 0, 0]))))

/-- The `struct pack_plock` at the front of a buffer. -/
def readPackPlock (host : Endian) (bytes : List UInt8) : PackPlock :=
  { start := UInt64.ofNat (loadLe host (bytes.take 8))
    stop := UInt64.ofNat (loadLe host ((bytes.drop 8).take 8))
    owner := UInt64.ofNat (loadLe host ((bytes.drop 16).take 8))
    pid := UInt32.ofNat (loadLe host ((bytes.drop 24).take 4))
    nodeid := UInt32.ofNat (loadLe host ((bytes.drop 28).take 4))
    ex := (bytes.drop 32).headD 0
    waiter := (bytes.drop 33).headD 0 }

/-- `section_buf` up to `section_len` after `pack_section_buf`. -/
def packSectionBytes (host : Endian) (env : Env) (r : Resource) :
    List UInt8 :=
  (packSectionBuf env r).flatMap (writePackPlock host)

/-- The loop of `unpack_section_buf` over the records. -/
def readPackPlocks (host : Endian) : Nat → List UInt8 → List PackPlock
  | 0, _ => []
  | count + 1, bytes =>
      readPackPlock host bytes ::
        readPackPlocks host count (bytes.drop PACK_PLOCK_SIZE)

/-- `unpack_section_buf` on a section with the given id and data. -/
def unpackSectionBytes (host : Endian) (env : Env) (id : List Char)
    (bytes : List UInt8) : Resource :=
  unpackSectionBuf env
    { id := id
      data := readPackPlocks host (bytes.length / PACK_PLOCK_SIZE) bytes }

/-- The text that `store_plocks` prints for a section id. -/
def sectionText (number : UInt64) (owner : Int32) : List Char :=
  'r' :: printNat number.toNat ++ '.' :: printInt owner.toInt

section Records

variable {writer reader : Endian}

theorem length_writePackPlock (host : Endian) (pp : PackPlock) :
    (writePackPlock host pp).length = PACK_PLOCK_SIZE := by
  simp [writePackPlock, PACK_PLOCK_SIZE]

/-- Every field is read from the bytes that hold it. -/
theorem readPackPlock_write (pp : PackPlock) (later : List UInt8) :
    readPackPlock reader (writePackPlock writer pp ++ later) = pp := by
  let flags := [pp.ex, pp.waiter, 0, 0, 0, 0, 0, 0] ++ later
  let nodeid := storeLe writer 4 pp.nodeid.toNat ++ flags
  let pid := storeLe writer 4 pp.pid.toNat ++ nodeid
  let owner := storeLe writer 8 pp.owner.toNat ++ pid
  let stop := storeLe writer 8 pp.stop.toNat ++ owner
  have bytes : writePackPlock writer pp ++ later =
      storeLe writer 8 pp.start.toNat ++ stop := by
    simp [writePackPlock, stop, owner, pid, nodeid, flags]
  have dropStart : (writePackPlock writer pp ++ later).drop 8 = stop := by
    rw [bytes]
    exact List.drop_left' (length_storeLe ..)
  have dropStop : (writePackPlock writer pp ++ later).drop 16 = owner := by
    rw [← List.drop_drop (i := 8) (j := 8), dropStart]
    exact List.drop_left' (length_storeLe ..)
  have dropOwner : (writePackPlock writer pp ++ later).drop 24 = pid := by
    rw [← List.drop_drop (i := 8) (j := 16), dropStop]
    exact List.drop_left' (length_storeLe ..)
  have dropPid : (writePackPlock writer pp ++ later).drop 28 = nodeid := by
    rw [← List.drop_drop (i := 4) (j := 24), dropOwner]
    exact List.drop_left' (length_storeLe ..)
  have dropNodeid : (writePackPlock writer pp ++ later).drop 32 = flags := by
    rw [← List.drop_drop (i := 4) (j := 28), dropPid]
    exact List.drop_left' (length_storeLe ..)
  have dropEx : (writePackPlock writer pp ++ later).drop 33 =
      flags.drop 1 := by
    rw [← List.drop_drop (i := 1) (j := 32), dropNodeid]
  have wide (value : UInt64) (rest : List UInt8) :
      UInt64.ofNat (loadLe reader
        ((storeLe writer 8 value.toNat ++ rest).take 8)) = value := by
    rw [List.take_left' (length_storeLe ..), loadLe_storeLe value.toNat_lt,
      UInt64.ofNat_toNat]
  have narrow (value : UInt32) (rest : List UInt8) :
      UInt32.ofNat (loadLe reader
        ((storeLe writer 4 value.toNat ++ rest).take 4)) = value := by
    rw [List.take_left' (length_storeLe ..), loadLe_storeLe value.toNat_lt,
      UInt32.ofNat_toNat]
  rw [readPackPlock, dropStart, dropStop, dropOwner, dropPid, dropNodeid,
    dropEx, bytes, wide pp.start, wide pp.stop, wide pp.owner, narrow pp.pid,
    narrow pp.nodeid]
  rfl

theorem readPackPlocks_write (records : List PackPlock) :
    readPackPlocks reader records.length
      (records.flatMap (writePackPlock writer)) = records := by
  induction records with
  | nil => rfl
  | cons pp later induction =>
      rw [List.length_cons, readPackPlocks, List.flatMap_cons,
        readPackPlock_write, List.drop_left' (length_writePackPlock ..),
        induction]

theorem length_write (records : List PackPlock) :
    (records.flatMap (writePackPlock writer)).length =
      records.length * PACK_PLOCK_SIZE := by
  induction records with
  | nil => simp
  | cons pp later induction =>
      rw [List.flatMap_cons, List.length_append, length_writePackPlock,
        induction, List.length_cons, Nat.succ_mul, Nat.add_comm]

/-- The bytes stand for the records. -/
theorem unpackSectionBytes_pack (env joiner : Env) (id : List Char)
    (r : Resource) :
    unpackSectionBytes reader joiner id (packSectionBytes writer env r) =
      unpackSectionBuf joiner { id := id, data := packSectionBuf env r } := by
  rw [unpackSectionBytes, packSectionBytes, length_write,
    Nat.mul_div_cancel _ (by decide), readPackPlocks_write]

end Records

theorem length_sectionText (number : UInt64) (owner : Int32) :
    (sectionText number owner).length + 1 ≤ SECTION_NAME_LEN := by
  have numberLength := length_printNat_le number.toNat 20 (by decide)
    (Nat.lt_trans number.toNat_lt (by decide))
  have ownerLength := length_printInt_le owner
  simp only [sectionText, SECTION_NAME_LEN, List.cons_append,
    List.length_cons, List.length_append]
  omega

/-- A resource whose entries are not marked survives the way through a
checkpoint between any two machines: the number, the owner and the fields of
the locks and of the waiters, in their order.  The text of the section id fits
in its buffer with the terminator. -/
theorem section_roundtrip (writer reader : Endian) (env joiner : Env)
    (r : Resource) (owner : Int32) (other : r.owner ≠ env.ourNodeid)
    (unmarked : (∀ po ∈ r.locks, po.syncing = false) ∧
      ∀ w ∈ r.waiters, w.syncing = false) :
    let restored := unpackSectionBytes reader joiner
      (sectionId r.number owner) (packSectionBytes writer env r)
    restored.number = r.number ∧ restored.owner = owner ∧
      restored.locks.map PosixLock.syncKey = r.locks.map PosixLock.syncKey ∧
      restored.waiters.map LockWaiter.syncKey =
        r.waiters.map LockWaiter.syncKey ∧
      sectionId r.number owner = sectionText r.number owner ∧
      (sectionText r.number owner).length + 1 ≤ SECTION_NAME_LEN := by
  have scanned := scanSectionId_sectionId r.number owner
  have packed := packSectionBuf_of_unmarked other
    (marks_eq_nil_iff.mpr unmarked)
  have table := @unpackSectionBuf_table joiner (sectionId r.number owner)
    r.locks r.waiters
  dsimp only
  rw [unpackSectionBytes_pack, packed]
  refine ⟨?_, ?_, ?_, ?_, sectionId_eq r.number owner,
    length_sectionText r.number owner⟩
  · simp [unpackSectionBuf, scanned]
  · simp [unpackSectionBuf, scanned]
  · have locks := congrArg (fun table => table.locks.map PosixLock.syncKey)
      table
    simp only [Resource.table, List.map_map] at locks
    exact locks
  · have waiters := congrArg
      (fun table => table.waiters.map LockWaiter.syncKey) table
    simp only [Resource.table, List.map_map] at waiters
    exact waiters

/-- A read lock, a write lock and a waiter of a resource without an owner. -/
def sharedResource : Resource :=
  { number := 18446744073709551615
    owner := 0
    gotUnown := true
    locks :=
      [{ pid := 10, owner := 1, start := 0, stop := 9, ex := 0, nodeid := 2,
         syncing := false },
       { pid := 11, owner := 2, start := 20, stop := 18446744073709551615,
         ex := 1, nodeid := 3, syncing := false }]
    waiters := [{ syncing := false, info := requestOf .lock 1 4 0 9 }]
    pending := [] }

theorem sharedResource_roundtrip :
    let restored := unpackSectionBytes .little (memberEnv 2)
      (sectionId sharedResource.number (-2147483648))
      (packSectionBytes .big (memberEnv 1) sharedResource)
    restored.number = sharedResource.number ∧
      restored.locks.map PosixLock.syncKey =
        sharedResource.locks.map PosixLock.syncKey := by
  obtain ⟨number, _, locks, _⟩ := section_roundtrip .big .little (memberEnv 1)
    (memberEnv 2) sharedResource (-2147483648) (by decide)
    ⟨by decide, by decide⟩
  exact ⟨number, locks⟩

end Dlm.Plock
