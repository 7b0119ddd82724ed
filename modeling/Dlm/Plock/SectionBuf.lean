import Dlm.Plock.Codec
import Dlm.Plock.ResourceRun

/-!
# The buffer of a checkpoint section

`pack_section_buf` writes one record after the other into `section_buf` and
does not look at the size of the buffer.  It stays inside as long as at most
26214 entries are to be packed, and the number of locks on one file is not
bounded.
-/

namespace Dlm.Plock

/-- `sizeof(section_buf)`. -/
def SECTION_BUF_SIZE : Nat := 1024 * 1024

/-- The cursor `pp` as an offset into `section_buf`, `count`, and the records
written so far with their offsets. -/
structure PackCursor where
  pp : Nat
  count : Nat
  writes : List (Nat × PackPlock)

def PackCursor.begin : PackCursor :=
  { pp := 0, count := 0, writes := [] }

def PackCursor.write (cursor : PackCursor) (record : PackPlock) :
    PackCursor :=
  { pp := cursor.pp + PACK_PLOCK_SIZE
    count := cursor.count + 1
    writes := cursor.writes ++ [(cursor.pp, record)] }

/-- A loop of `pack_section_buf`: entries with `P_SYNCING` are skipped. -/
def packLoop {α : Type} (syncing : α → Bool) (pack : α → PackPlock) :
    List α → PackCursor → PackCursor
  | [], cursor => cursor
  | entry :: later, cursor =>
      if syncing entry then packLoop syncing pack later cursor
      else packLoop syncing pack later (cursor.write (pack entry))

/-- What has been written to `section_buf`, and `section_len`. -/
structure PackedSection where
  writes : List (Nat × PackPlock)
  sectionLen : UInt32

/-- `pack_section_buf` as `store_plocks` calls it, with `section_len` 0. -/
def packSection (env : Env) (r : Resource) : PackedSection :=
  if r.owner = env.ourNodeid then { writes := [], sectionLen := 0 }
  else
    let cursor := packLoop PosixLock.syncing packLock r.locks .begin
    let cursor := packLoop LockWaiter.syncing packWaiter r.waiters cursor
    { writes := cursor.writes
      sectionLen := UInt32.ofNat (cursor.count * PACK_PLOCK_SIZE) }

/-- The number of locks and waiters without `P_SYNCING`. -/
def unflagged (r : Resource) : Nat :=
  r.locks.countP (!·.syncing) + r.waiters.countP (!·.syncing)

/-- Every record is inside the buffer, and the length is that of all entries
without the flag. -/
structure PackedSection.Fits (packed : PackedSection) (r : Resource) :
    Prop where
  inside : ∀ write ∈ packed.writes,
    write.1 + PACK_PLOCK_SIZE ≤ SECTION_BUF_SIZE
  length : packed.sectionLen.toNat = unflagged r * PACK_PLOCK_SIZE

section Cursor

/-- The cursor after some records have been written one after the other. -/
structure Packing (records : List PackPlock) (cursor : PackCursor) :
    Prop where
  pp : cursor.pp = records.length * PACK_PLOCK_SIZE
  count : cursor.count = records.length
  writes : cursor.writes =
    records.zipIdx.map fun entry => (entry.2 * PACK_PLOCK_SIZE, entry.1)

theorem Packing.begin : Packing [] .begin :=
  ⟨rfl, rfl, rfl⟩

theorem Packing.write {records : List PackPlock} {cursor : PackCursor}
    (packed : Packing records cursor) (record : PackPlock) :
    Packing (records ++ [record]) (cursor.write record) := by
  refine ⟨?_, ?_, ?_⟩
  · rw [PackCursor.write, packed.pp, List.length_append, List.length_singleton,
      Nat.add_mul, Nat.one_mul]
  · rw [PackCursor.write, packed.count, List.length_append,
      List.length_singleton]
  · rw [PackCursor.write, packed.pp, packed.writes, List.zipIdx_append,
      List.map_append]
    simp

theorem Packing.loop {α : Type} {records : List PackPlock}
    {cursor : PackCursor} (packed : Packing records cursor)
    (syncing : α → Bool) (pack : α → PackPlock) (entries : List α) :
    Packing (records ++ (entries.filter (!syncing ·)).map pack)
      (packLoop syncing pack entries cursor) := by
  induction entries generalizing records cursor with
  | nil => simpa [packLoop] using packed
  | cons entry later induction =>
      rw [packLoop]
      cases flagged : syncing entry with
      | true => simpa [flagged] using induction packed
      | false => simpa [flagged] using induction (packed.write (pack entry))

end Cursor

theorem length_packSectionBuf {env : Env} {r : Resource}
    (foreign : r.owner ≠ env.ourNodeid) :
    (packSectionBuf env r).length = unflagged r := by
  rw [packSectionBuf, if_neg foreign, List.length_append, List.length_map,
    List.length_map, ← List.countP_eq_length_filter,
    ← List.countP_eq_length_filter]
  rfl

/-- The records are written one after the other. -/
theorem packSection_foreign {env : Env} {r : Resource}
    (foreign : r.owner ≠ env.ourNodeid) :
    packSection env r =
      { writes := (packSectionBuf env r).zipIdx.map fun entry =>
          (entry.2 * PACK_PLOCK_SIZE, entry.1)
        sectionLen := UInt32.ofNat (unflagged r * PACK_PLOCK_SIZE) } := by
  have locks := Packing.begin.loop PosixLock.syncing packLock r.locks
  have packed := locks.loop LockWaiter.syncing packWaiter r.waiters
  have records : [] ++ (r.locks.filter (!·.syncing)).map packLock ++
      (r.waiters.filter (!·.syncing)).map packWaiter =
      packSectionBuf env r := by
    rw [packSectionBuf, if_neg foreign, List.nil_append]
  rw [records] at packed
  have count := packed.count
  rw [length_packSectionBuf foreign] at count
  simp only [packSection, if_neg foreign, packed.writes, count]

/-- The records are in the buffer exactly if there are at most 26214. -/
theorem writes_inside_iff (records : List PackPlock) :
    (∀ write ∈ records.zipIdx.map fun entry =>
        (entry.2 * PACK_PLOCK_SIZE, entry.1),
      write.1 + PACK_PLOCK_SIZE ≤ SECTION_BUF_SIZE) ↔
      records.length ≤ 26214 := by
  constructor
  · intro inside
    by_contra more
    have last : 26214 < records.length := Nat.lt_of_not_le more
    have written := inside (26214 * PACK_PLOCK_SIZE, records[26214]) <|
      List.mem_map.mpr ⟨(records[26214], 26214),
        List.mem_zipIdx_iff_getElem?.mpr (List.getElem?_eq_getElem last), rfl⟩
    have small : ¬(26214 * PACK_PLOCK_SIZE + PACK_PLOCK_SIZE ≤
        SECTION_BUF_SIZE) := by decide
    exact small written
  · intro few write member
    obtain ⟨entry, listed, rfl⟩ := List.mem_map.mp member
    have below := List.snd_lt_of_mem_zipIdx listed
    simp only [PACK_PLOCK_SIZE, SECTION_BUF_SIZE]
    omega

theorem PackedSection.Fits.few {env : Env} {r : Resource}
    (foreign : r.owner ≠ env.ourNodeid) (fits : (packSection env r).Fits r) :
    unflagged r ≤ 26214 := by
  rw [packSection_foreign foreign] at fits
  rw [← length_packSectionBuf foreign]
  exact (writes_inside_iff _).mp fits.inside

/-- The packer stays in its buffer and leaves the right length exactly if the
resource has at most 26214 entries without the flag, and none of them if the
node owns it. -/
theorem packSection_fits_iff (env : Env) (r : Resource) :
    (packSection env r).Fits r ↔
      unflagged r ≤ 26214 ∧ (r.owner = env.ourNodeid → unflagged r = 0) := by
  by_cases ours : r.owner = env.ourNodeid
  · have skipped : packSection env r = { writes := [], sectionLen := 0 } := by
      rw [packSection, if_pos ours]
    rw [skipped]
    constructor
    · intro fits
      have length : 0 = unflagged r * PACK_PLOCK_SIZE := fits.length
      rw [PACK_PLOCK_SIZE] at length
      exact ⟨by omega, fun _ => by omega⟩
    · rintro ⟨_, none_⟩
      refine ⟨?_, ?_⟩
      · intro write member
        cases member
      · rw [none_ ours]
        rfl
  · constructor
    · intro fits
      exact ⟨fits.few ours, fun owned => (ours owned).elim⟩
    · rintro ⟨few, _⟩
      rw [packSection_foreign ours]
      refine ⟨?_, ?_⟩
      · apply (writes_inside_iff _).mpr
        rw [length_packSectionBuf ours]
        exact few
      apply UInt32.toNat_ofNat_of_lt'
      rw [PACK_PLOCK_SIZE, UInt32.size]
      omega

section Readers

/-- A request to read byte 0 of resource 7. -/
def readerRequest (reader : Nat) : Info :=
  requestOf .lock 0 (UInt64.ofNat reader) 0 0

def readerLock (reader : Nat) : PosixLock :=
  { pid := 0
    owner := UInt64.ofNat reader
    start := 0
    stop := 0
    ex := 0
    nodeid := 1
    syncing := false }

/-- The resource when some lock owners read the byte. -/
def manyReaders (count : Nat) : Resource :=
  { newResource soleEnv 7 with locks := (List.range count).map readerLock }

/-- A lock is appended if all others are of other lock owners. -/
theorem lockLoop_strangers {info : Info} (before after : List PosixLock)
    (strangers : ∀ po ∈ after, po.owner ≠ info.owner) :
    lockLoop [] info before after =
      (0, before ++ after ++
        [{ pid := info.pid
           owner := info.owner
           start := info.start
           stop := info.stop
           ex := info.ex
           nodeid := info.nodeid
           syncing := false }]) := by
  induction after generalizing before with
  | nil => simp [lockLoop, addLock, malloc]
  | cons po later induction =>
      obtain ⟨first, rest⟩ := List.forall_mem_cons.mp strangers
      rw [lockLoop, if_pos (.inr first), induction _ rest]
      simp

theorem doLock_reader {count : Nat} (few : count < 2 ^ 64) :
    (doLock soleEnv (readerRequest count) (manyReaders count)).1 =
      some (manyReaders (count + 1)) := by
  have free : (isConflict (manyReaders count).locks (readerRequest count)
      false).1 = false := by
    have nobody : (manyReaders count).locks.find?
        (conflicts · (readerRequest count)) = none := by
      rw [List.find?_eq_none]
      intro po member
      obtain ⟨reader, _, rfl⟩ := List.mem_map.mp member
      simp [conflicts, readerLock, readerRequest, requestOf]
    rw [isConflict, nobody]
  have granted : lockInternal [] (manyReaders count).locks
      (readerRequest count) = (0, (manyReaders (count + 1)).locks) := by
    rw [lockInternal, lockLoop_strangers]
    · simp [manyReaders, List.range_succ, readerLock, readerRequest,
        requestOf, Info.cleared]
    · intro po member same
      obtain ⟨reader, listed, rfl⟩ := List.mem_map.mp member
      have below := List.mem_range.mp listed
      have equal : UInt64.ofNat reader = UInt64.ofNat count := same
      have numbers := congrArg UInt64.toNat equal
      rw [UInt64.toNat_ofNat_of_lt' (Nat.lt_trans below few),
        UInt64.toNat_ofNat_of_lt' few] at numbers
      omega
  have request : (lockRequest soleEnv (readerRequest count)
      (manyReaders count)).1 = manyReaders (count + 1) := by
    rw [lockRequest, free, if_neg Bool.false_ne_true, granted]
    rfl
  have woken : (doWaiters soleEnv (manyReaders (count + 1))).1 =
      manyReaders (count + 1) := rfl
  have kept : putResource soleEnv (manyReaders (count + 1)) =
      some (manyReaders (count + 1)) := by
    have some_ : (manyReaders (count + 1)).locks.isEmpty = false := by
      simp [manyReaders, List.range_succ]
    rw [putResource, some_]
    rfl
  simp only [doLock, request, woken, kept]

/-- Any number of owners can read the byte. -/
theorem manyReaders_run {count : Nat} (few : count < 2 ^ 64) :
    (resourceSystem soleEnv 7).Run (fun _ op => op.Valid) none
      (some (manyReaders (count + 1))) := by
  have valid (reader : Nat) :
      (ResourceOp.lock (readerRequest reader)).Valid :=
    ⟨UInt64.le_refl 0, .inl rfl⟩
  induction count with
  | zero =>
      have first : (resourceSystem soleEnv 7).next none
          (.lock (readerRequest 0)) = some (manyReaders 1) :=
        @doLock_reader 0 (by decide)
      rw [← first]
      exact .step _ .refl trivial (valid 0)
  | succ count induction =>
      have next : (resourceSystem soleEnv 7).next
          (some (manyReaders (count + 1)))
          (.lock (readerRequest (count + 1))) =
          some (manyReaders (count + 1 + 1)) :=
        doLock_reader few
      rw [← next]
      exact .step _ (induction (Nat.lt_of_succ_lt few)) trivial
        (valid (count + 1))

theorem unflagged_manyReaders (count : Nat) :
    unflagged (manyReaders count) = count := by
  have locks : (manyReaders count).locks.countP (!·.syncing) = count := by
    have all : ∀ po ∈ (manyReaders count).locks, (!po.syncing) = true := by
      intro po member
      obtain ⟨reader, _, rfl⟩ := List.mem_map.mp member
      rfl
    rw [List.countP_eq_length.mpr all, manyReaders, List.length_map,
      List.length_range]
  rw [unflagged, locks]
  rfl

end Readers

/-- With 26215 readers of one byte the last record ends behind the buffer. -/
theorem manyReaders_overflow :
    (resourceSystem soleEnv 7).Run (fun _ op => op.Valid) none
        (some (manyReaders 26215)) ∧
      (manyReaders 26215).owner ≠ soleEnv.ourNodeid ∧
      ¬ (packSection soleEnv (manyReaders 26215)).Fits
        (manyReaders 26215) := by
  refine ⟨manyReaders_run (by decide), by decide, ?_⟩
  intro fits
  have few := fits.few (by decide)
  rw [unflagged_manyReaders] at few
  omega

end Dlm.Plock
