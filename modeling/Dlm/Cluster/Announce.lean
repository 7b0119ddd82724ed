import Dlm.Cluster.Follow

/-!
# Announcements

The `PLOCK_SYNC` messages of an owner that releases its resource.  The owner
clears the `P_SYNCING` flag of each entry when the announcement comes back,
the other nodes append the entry to their tables.
-/

namespace Dlm.Cluster

open Plock Broadcast

variable {locks waiters : Nat}

section Sync

variable {c : Config} {mode : Mode} {n : Nodeid} {r : Resource}
variable {slot : Option Resource} {out : List Body} {g : Agreed}
variable {info : Info} {body : Body}

/-- The flags are not part of what is announced or of the table. -/
theorem clearSyncingFlag_plain (r : Resource) (info : Info) :
    (clearSyncingFlag r info).locks.map plainLock =
        r.locks.map plainLock ∧
      (clearSyncingFlag r info).waiters.map LockWaiter.info =
        r.waiters.map LockWaiter.info := by
  unfold clearSyncingFlag
  split
  · refine ⟨?_, rfl⟩
    apply map_modifyFirst
    exact fun _ => rfl
  · refine ⟨rfl, ?_⟩
    apply map_modifyFirst
    exact fun _ => rfl

theorem clearSyncingFlag_frame (r : Resource) (info : Info) :
    clearSyncingFlag r info =
      { r with
        locks := (clearSyncingFlag r info).locks
        waiters := (clearSyncingFlag r info).waiters } := by
  unfold clearSyncingFlag
  split <;> rfl

theorem clearSyncingFlag_table (r : Resource) (info : Info) :
    (clearSyncingFlag r info).table = r.table := by
  obtain ⟨locks, infos⟩ := clearSyncingFlag_plain r info
  have waiters (s : Resource) : s.waiters.map plainWaiter =
      (s.waiters.map LockWaiter.info).map
        fun info => { syncing := false, info := plainInfo info } := by
    simp [plainWaiter]
  rw [Resource.table, Resource.table, locks, waiters, infos, ← waiters]

theorem clearSyncingFlag_announcements (r : Resource) (info : Info)
    (locks waiters : Nat) :
    announcements (clearSyncingFlag r info) locks waiters =
      announcements r locks waiters := by
  obtain ⟨plain, infos⟩ := clearSyncingFlag_plain r info
  have number : (clearSyncingFlag r info).number = r.number := by
    rw [clearSyncingFlag_frame]
  have fromPlain (s : Resource) : s.locks.map (lockBody r.number) =
      (s.locks.map plainLock).map (lockBody r.number) := by
    simp [lockBody, syncLockInfo, plainLock]
  have fromInfos (s : Resource) : s.waiters.map waiterBody =
      (s.waiters.map LockWaiter.info).map
        fun info => { type := .syncWaiter, info := info } := by
    simp [waiterBody]
  rw [announcements, announcements, number, fromPlain, plain, ← fromPlain,
    fromInfos, infos, ← fromInfos]

theorem Config.Holding.clearSyncingFlag (holding : c.Holding mode n r) :
    c.Holding mode n (clearSyncingFlag r info) := by
  obtain ⟨plain, infos⟩ := clearSyncingFlag_plain r info
  have waiter {w : LockWaiter}
      (member : w ∈ (Plock.clearSyncingFlag r info).waiters) :
      ∃ old ∈ r.waiters, old.info = w.info := by
    apply List.mem_map.mp
    rw [← infos]
    exact List.mem_map_of_mem member
  refine ⟨?_, ?_, ?_⟩
  · intro w member
    obtain ⟨old, found, same⟩ := waiter member
    rw [← same]
    exact holding.number old found
  · intro confined po member
    have listed : plainLock po ∈ r.locks.map plainLock := by
      rw [← plain]
      exact List.mem_map_of_mem member
    obtain ⟨old, found, same⟩ := List.mem_map.mp listed
    have nodeid := congrArg PosixLock.nodeid same
    rw [plainLock_nodeid, plainLock_nodeid] at nodeid
    rw [← nodeid]
    exact holding.locks confined old found
  · intro confined w member
    obtain ⟨old, found, same⟩ := waiter member
    rw [← same]
    exact holding.waiters confined old found

/-- The next announcement is that of the first lock, or else of the first
waiter, that has not been announced. -/
theorem announcements_cons {later : List Body}
    (next : announcements r locks waiters = body :: later) :
    (∃ bound : locks < r.locks.length,
        body = lockBody r.number r.locks[locks] ∧
          later = announcements r (locks + 1) waiters) ∨
      (r.locks.length ≤ locks ∧ ∃ bound : waiters < r.waiters.length,
        body = waiterBody r.waiters[waiters] ∧
          later = announcements r locks (waiters + 1)) := by
  unfold announcements at next ⊢
  rcases Nat.lt_or_ge locks r.locks.length with inside | beyond
  · rw [List.drop_eq_getElem_cons (by simpa using inside),
      List.cons_append] at next
    obtain ⟨same, rest⟩ := List.cons.inj next
    exact .inl ⟨inside, by rw [← same, List.getElem_map], rest.symm⟩
  · have noLocks (count : Nat) (large : r.locks.length ≤ count) :
        (r.locks.map (lockBody r.number)).drop count = [] := by
      simpa using large
    rw [noLocks locks beyond, List.nil_append] at next ⊢
    rcases Nat.lt_or_ge waiters r.waiters.length with within | past
    · rw [List.drop_eq_getElem_cons (by simpa using within)] at next
      obtain ⟨same, rest⟩ := List.cons.inj next
      exact .inr ⟨beyond, within, by rw [← same, List.getElem_map],
        rest.symm⟩
    · rw [List.drop_eq_nil_of_le (by simpa using past)] at next
      cases next

/-- Clearing the first set flag moves the border between the entries whose
flag is clear and those whose flag is set. -/
theorem flags_modifyFirst {α : Type} {flag test : α → Bool}
    {change : α → α} {entries : List α} {index : Nat}
    (bound : index < entries.length)
    (clear : ∀ entry ∈ entries.take index, flag entry = false)
    (set : ∀ entry ∈ entries.drop index, flag entry = true)
    (needs : ∀ entry, test entry = true → flag entry = true)
    (found : test entries[index] = true)
    (clears : ∀ entry, flag (change entry) = false) :
    (∀ entry ∈ (modifyFirst test change entries).take (index + 1),
        flag entry = false) ∧
      ∀ entry ∈ (modifyFirst test change entries).drop (index + 1),
        flag entry = true := by
  have border := List.drop_eq_getElem_cons bound
  have passed : ∀ entry ∈ entries.take index, test entry = false := by
    intro entry member
    cases matched : test entry with
    | false => rfl
    | true =>
        have set := needs entry matched
        rw [clear entry member] at set
        exact set.symm
  have changed : modifyFirst test change entries =
      (entries.take index ++ [change entries[index]]) ++
        entries.drop (index + 1) := by
    have split := @modifyFirst_split α test change (entries.take index)
      (entries.drop (index + 1)) entries[index] passed found
    rw [← border, List.take_append_drop] at split
    simpa using split
  have size : (entries.take index ++ [change entries[index]]).length =
      index + 1 := by
    simp
    omega
  rw [changed, List.take_left' size, List.drop_left' size]
  refine ⟨List.forall_mem_append.mpr ⟨clear, ?_⟩, ?_⟩
  · exact List.forall_mem_singleton.mpr (clears _)
  · rw [border, List.forall_mem_cons] at set
    exact set.2

/-- The announcement of a lock that comes back clears the flag of that lock. -/
theorem Mode.FlaggedFrom.lock {number : UInt64}
    (flagged : mode.FlaggedFrom n locks waiters r)
    (bound : locks < r.locks.length) :
    mode.FlaggedFrom n (locks + 1) waiters
      (clearSyncingFlag r (syncLockInfo number r.locks[locks])) := by
  intro stores
  obtain ⟨⟨clear, set⟩, waitersFlags⟩ := flagged stores
  have found : syncMatchesLock (syncLockInfo number r.locks[locks])
      r.locks[locks] = true := by
    have flag := set r.locks[locks] (by
      rw [List.drop_eq_getElem_cons bound]
      exact List.mem_cons_self)
    simp [syncMatchesLock, syncLockInfo, flag]
  have some : r.locks.any
      (syncMatchesLock (syncLockInfo number r.locks[locks])) = true :=
    List.any_eq_true.mpr ⟨_, List.getElem_mem bound, found⟩
  rw [clearSyncingFlag, if_pos some]
  refine ⟨?_, waitersFlags⟩
  apply flags_modifyFirst bound clear set _ found (fun _ => rfl)
  intro po matched
  simp only [syncMatchesLock, Bool.and_eq_true] at matched
  exact matched.1.1.1.1.1.1

/-- The announcement of a waiter that comes back clears the flag of that
waiter. -/
theorem Mode.FlaggedFrom.waiter (flagged : mode.FlaggedFrom n locks waiters r)
    (announced : r.locks.length ≤ locks) (bound : waiters < r.waiters.length) :
    mode.FlaggedFrom n locks (waiters + 1)
      (clearSyncingFlag r r.waiters[waiters].info) := by
  intro stores
  obtain ⟨⟨locksClear, locksSet⟩, clear, set⟩ := flagged stores
  have found : syncMatchesWaiter r.waiters[waiters].info
      r.waiters[waiters] = true := by
    have flag := set r.waiters[waiters] (by
      rw [List.drop_eq_getElem_cons bound]
      exact List.mem_cons_self)
    simp [syncMatchesWaiter, flag]
  have none : ¬r.locks.any
      (syncMatchesLock r.waiters[waiters].info) = true := by
    intro some
    obtain ⟨po, member, matched⟩ := List.any_eq_true.mp some
    rw [List.take_of_length_le announced] at locksClear
    simp [syncMatchesLock, locksClear po member] at matched
  rw [clearSyncingFlag, if_neg none]
  refine ⟨⟨locksClear, locksSet⟩, ?_⟩
  apply flags_modifyFirst bound clear set _ found (fun _ => rfl)
  intro w matched
  simp only [syncMatchesWaiter, Bool.and_eq_true] at matched
  exact matched.1.1.1.1.1.1

theorem cut_lock {number : UInt64} (bound : locks < r.locks.length) :
    r.table.cut (locks + 1) waiters =
      (r.table.cut locks waiters).syncLock
        (syncLockInfo number r.locks[locks]) := by
  have next : r.table.locks[locks]? = some (plainLock r.locks[locks]) := by
    simp [Resource.table, bound]
  simp only [Table.cut, Table.syncLock, List.take_add_one, next]
  rfl

theorem cut_waiter (bound : waiters < r.waiters.length) :
    r.table.cut locks (waiters + 1) =
      (r.table.cut locks waiters).syncWaiter r.waiters[waiters].info := by
  have next : r.table.waiters[waiters]? =
      some (plainWaiter r.waiters[waiters]) := by
    simp [Resource.table, bound]
  simp only [Table.cut, Table.syncWaiter, List.take_add_one, next]
  rfl

theorem receiveSync1_us (sync : body.type = .syncLock ∨
      body.type = .syncWaiter) :
    receiveSlot (c.env n) (body.message n) (some r) =
      (some (clearSyncingFlag r body.info), []) := by
  rcases sync with type | type
  · simp [receiveSlot, receiveSync1, Body.message, type, c.ourNodeid]
  · simp [receiveSlot, receiveSync1, Body.message, type, c.ourNodeid]

/-- An announcement of the node's own comes back. -/
theorem Config.Follows.sync_us (sync : body.type = .syncLock ∨
      body.type = .syncWaiter)
    (follows : c.Follows mode n slot (body :: out) g) :
    c.Follows mode n (receiveSlot (c.env n) (body.message n) slot).1
      (out ++ bodies (receiveSlot (c.env n) (body.message n) slot).2)
      (g.receive n body) := by
  have notEarly : ¬c.Early mode n body := by
    rcases sync with type | type <;> simp [Config.Early, type]
  have notLate : ¬c.Late mode n body := by
    rcases sync with type | type <;> simp [Config.Late, type]
  cases follows with
  | absent early => exact absurd (early body List.mem_cons_self) notEarly
  | unclaimed _ _ _ _ _ _ early =>
      exact absurd (early body List.mem_cons_self) notEarly
  | follower _ _ _ _ _ _ _ early =>
      exact absurd (early body List.mem_cons_self) notEarly
  | owner _ _ _ _ _ early =>
      exact absurd (early body List.mem_cons_self) notEarly
  | shared _ _ _ _ _ late =>
      exact absurd (late body List.mem_cons_self) notLate
  | @releasing r _ asked table locks waiters before after number owner got
      pending holding order flagged early late split same =>
      rw [receiveSync1_us sync, bodies_nil, List.append_nil]
      have held := @Config.Holding.clearSyncingFlag c mode n r body.info
        holding
      have length : (clearSyncingFlag r body.info).locks.length =
          r.locks.length := by
        simpa using congrArg List.length (clearSyncingFlag_plain r _).1
      have resume {next : Table} (sentLocks sentWaiters : Nat)
          (ordered : sentLocks < r.locks.length → sentWaiters = 0)
          (flags : mode.FlaggedFrom n sentLocks sentWaiters
            (clearSyncingFlag r body.info))
          (left : out = announcements r sentLocks sentWaiters ++
            releaseBody c.number :: after)
          (cut : r.table.cut sentLocks sentWaiters = next) :
          c.Follows mode n (some (clearSyncingFlag r body.info)) out
            (.owned n asked next) := by
        refine .releasing sentLocks sentWaiters [] after ?_ ?_ ?_ ?_ held ?_
          flags (by simp) late ?_ ?_
        · rw [clearSyncingFlag_frame]
          exact number
        · rw [clearSyncingFlag_frame]
          exact owner
        · rw [clearSyncingFlag_frame]
          exact got
        · rw [clearSyncingFlag_frame]
          exact pending
        · rw [length]
          exact ordered
        · rw [clearSyncingFlag_announcements]
          exact left
        · rw [clearSyncingFlag_table]
          exact cut
      rcases releasing_head split with ⟨later, rfl, _⟩ | ⟨_, later, listed,
        rest⟩ | ⟨_, _, release, _⟩
      · exact absurd (early body List.mem_cons_self) notEarly
      · rcases announcements_cons listed with ⟨bound, rfl, rfl⟩ |
          ⟨beyond, bound, rfl, rfl⟩
        · simp only [Agreed.receive, lockBody, Agreed.sync, if_true, ← same]
          exact resume (locks + 1) waiters (fun _ => order bound)
            (flagged.lock bound) rest (cut_lock bound)
        · simp only [Agreed.receive, waiterBody, Agreed.sync, if_true, ← same]
          exact resume locks (waiters + 1) (fun inside => by omega)
            (flagged.waiter beyond bound) rest (cut_waiter bound)
      · rw [release] at sync
        simp [releaseBody] at sync

/-- An announcement of the owner. -/
theorem Config.Follows.sync_other {p : Nodeid} (other : p ≠ n)
    (tidy : c.Tidy mode)
    (sync : body.type = .syncLock ∨ body.type = .syncWaiter)
    (owned : g.OwnedBy p) (follows : c.Follows mode n slot out g) :
    c.Follows mode n (receiveSlot (c.env n) (body.message p) slot).1
      (out ++ bodies (receiveSlot (c.env n) (body.message p) slot).2)
      (g.receive p body) := by
  obtain ⟨asked, table, rfl⟩ := owned
  cases follows with
  | owner => exact absurd rfl other
  | releasing => exact absurd rfl other
  | @follower r _ _ _ _ _ number owner got same unflagged waits early =>
      have foreign : p.val ≠ n.val := fun equal => other (Subtype.ext equal)
      rcases sync with type | type
      · simp only [receiveSlot, receiveSync1, Body.message, type, c.ourNodeid,
          foreign, if_false, if_true, addLock, malloc, bodies_nil,
          List.append_nil, Agreed.receive, Agreed.sync, ← same]
        refine .follower other number owner got ?_ ?_ waits early
        · simp [Resource.table, Table.syncLock, plainLock]
        · intro stores
          obtain ⟨locks, waiters⟩ := unflagged stores
          refine ⟨List.forall_mem_append.mpr ⟨locks, ?_⟩, waiters⟩
          exact List.forall_mem_singleton.mpr rfl
      · simp only [receiveSlot, receiveSync1, Body.message, type, c.ourNodeid,
          foreign, if_false, if_true, reduceCtorEq, addWaiter, bodies_nil,
          List.append_nil, Agreed.receive, Agreed.sync, ← same]
        refine .follower other number owner got ?_ ?_ waits early
        · simp [Resource.table, Table.syncWaiter, plainWaiter]
        · intro stores
          obtain ⟨locks, waiters⟩ := unflagged stores
          refine ⟨locks, List.forall_mem_append.mpr ⟨waiters, ?_⟩⟩
          exact List.forall_mem_singleton.mpr (tidy n stores body.info)

end Sync

section Deliver

variable {c : Config} {mode : Mode} {n : Nodeid}
variable {slot : Option Resource} {out : List Body} {g : Agreed}
variable {body : Body}
variable (tidy : c.Tidy mode)

include tidy

/-- A message of another node. -/
theorem Config.Follows.message_other {p : Nodeid} (other : p ≠ n)
    (follows : c.Follows mode n slot out g)
    (admissible : c.Admissible mode g p body)
    (calm : c.Calm mode slot out body) :
    c.Follows mode n (receiveSlot (c.env n) (body.message p) slot).1
      (out ++ bodies (receiveSlot (c.env n) (body.message p) slot).2)
      (g.receive p body) := by
  have admissibleMessage := admissible
  obtain ⟨named, admitted⟩ := admissible
  have type : (body.message p).type = body.type := rfl
  cases kind : body.type with
  | plock =>
      simp only [receiveSlot, Agreed.receive, type, kind]
      exact follows.plock tidy kind admissibleMessage calm
  | own =>
      simp only [kind] at admitted
      simp only [receiveSlot, Agreed.receive, type, kind]
      rcases admitted with claim | ⟨release, owned⟩
      · exact follows.own_claim_other other claim named
      · exact follows.own_release_other other release owned
  | drop =>
      simp only [kind] at admitted
      simp only [receiveSlot, Agreed.receive, type, kind, bodies_nil,
        List.append_nil]
      exact follows.drop kind admitted calm
  | syncLock =>
      simp only [kind] at admitted
      exact follows.sync_other other tidy (.inl kind) admitted.1
  | syncWaiter =>
      simp only [kind] at admitted
      exact follows.sync_other other tidy (.inr kind) admitted.1

/-- A message of the node's own. -/
theorem Config.Follows.message_us
    (follows : c.Follows mode n slot (body :: out) g)
    (calm : c.Calm mode slot (body :: out) body) :
    c.Follows mode n (receiveSlot (c.env n) (body.message n) slot).1
      (out ++ bodies (receiveSlot (c.env n) (body.message n) slot).2)
      (g.receive n body) := by
  have admissible := follows.promises.head
  have type : (body.message n).type = body.type := rfl
  have calmLater : c.Calm mode slot out body :=
    fun drops r found waiting =>
      calm drops r found (List.mem_cons_of_mem body waiting)
  cases kind : body.type with
  | plock =>
      have rest := follows.tail (by simp [Config.Announces, kind])
        (by rintro rfl; simp [releaseBody] at kind)
      simp only [receiveSlot, Agreed.receive, type, kind]
      exact rest.plock tidy kind admissible calmLater
  | own =>
      obtain ⟨named, admitted⟩ := admissible
      simp only [kind] at admitted
      simp only [receiveSlot, Agreed.receive, type, kind]
      rcases admitted with claim | ⟨release, _⟩
      · have rest := follows.tail (by simp [Config.Announces, kind]) (by
          rintro rfl
          exact n.ne_zero claim.symm)
        exact rest.own_claim_us claim named
      · exact follows.own_release_us kind release
  | drop =>
      obtain ⟨_, admitted⟩ := admissible
      simp only [kind] at admitted
      have rest := follows.tail (by simp [Config.Announces, kind])
        (by rintro rfl; simp [releaseBody] at kind)
      simp only [receiveSlot, Agreed.receive, type, kind, bodies_nil,
        List.append_nil]
      exact rest.drop kind admitted calmLater
  | syncLock => exact follows.sync_us (.inl kind)
  | syncWaiter => exact follows.sync_us (.inr kind)

end Deliver

end Dlm.Cluster
