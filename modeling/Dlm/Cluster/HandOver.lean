import Dlm.Cluster.Runs

/-!
# The table that an owner hands over

An owner that gives up the resource announces its table and then sends
`OWN 0`.  Whatever is ordered in between, the agreed table right after the
`OWN 0` is the one that the owner had.
-/

namespace Dlm.Cluster

open Plock Broadcast

theorem foldl_lockBody (number : UInt64) (locks : List PosixLock)
    (table : Table) :
    (locks.map (lockBody number)).foldl announce table =
      { table with locks := table.locks ++ locks.map plainLock } := by
  induction locks generalizing table with
  | nil => simp
  | cons po later induction =>
      rw [List.map_cons, List.foldl_cons, induction]
      simp [announce, lockBody, Table.syncLock, syncLockInfo, plainLock]

theorem foldl_waiterBody (waiters : List LockWaiter) (table : Table) :
    (waiters.map waiterBody).foldl announce table =
      { table with waiters := table.waiters ++ waiters.map plainWaiter } := by
  induction waiters generalizing table with
  | nil => simp
  | cons w later induction =>
      rw [List.map_cons, List.foldl_cons, induction]
      simp [announce, waiterBody, Table.syncWaiter, plainWaiter]

/-- The announcements that are left complete the announced part of the
table. -/
theorem foldl_announcements (r : Resource) (locks waiters : Nat) :
    (announcements r locks waiters).foldl announce
      (r.table.cut locks waiters) = r.table := by
  rw [announcements, List.foldl_append, ← List.map_drop, ← List.map_drop,
    foldl_lockBody, foldl_waiterBody]
  simp [Table.cut, Resource.table]

/-- The node has given up the resource, and the table that it still announces
is a good one. -/
def Config.HandsOver (c : Config) (mode : Mode) (n : Nodeid)
    (Good : Table → Prop) (out : List Body) (g : Agreed) : Prop :=
  ∃ before announced after asked table,
    out = before ++ (announced ++ releaseBody c.number :: after) ∧
    (∀ body ∈ before, c.Early mode n body) ∧
    (∀ body ∈ announced, c.Announces mode n body) ∧
    (∀ body ∈ after, c.Late mode n body) ∧
    g = .owned n asked table ∧ Good (announced.foldl announce table)

section HandOver

variable {c : Config} {mode : Mode} {n : Nodeid} {r : Resource}
variable {slot : Option Resource} {out : List Body} {g : Agreed}
variable {body : Body} {Good : Table → Prop}

theorem Config.Announces.not_release (announces : c.Announces mode n body) :
    ¬body.Releases := by
  rintro ⟨type, _⟩
  rcases announces.2.1 with lock | waiter
  · exact absurd (type.symm.trans lock) (by decide)
  · exact absurd (type.symm.trans waiter) (by decide)

theorem Config.Early.announce (early : c.Early mode n body) (table : Table) :
    announce table body = table := by
  obtain ⟨_, ⟨type, _⟩ | ⟨_, ⟨type, _⟩ | type⟩⟩ := early
  · simp [Cluster.announce, type]
  · simp [Cluster.announce, type]
  · simp [Cluster.announce, type]

/-- A node that waits for its release hands over its table. -/
theorem Config.Follows.handsOver (follows : c.Follows mode n slot out g)
    (sent : body ∈ out) (release : body.Releases)
    (good : ∀ r, slot = some r → g.OwnedBy n → Good r.table) :
    c.HandsOver mode n Good out g := by
  cases follows with
  | absent early => exact absurd release (early _ sent).not_release
  | unclaimed _ _ _ _ _ _ early =>
      exact absurd release (early _ sent).not_release
  | follower _ _ _ _ _ _ _ early =>
      exact absurd release (early _ sent).not_release
  | owner _ _ _ _ _ early => exact absurd release (early _ sent).not_release
  | @releasing r _ _ _ locks waiters before after number _ _ _ holding _ _
      early late split same =>
      refine ⟨before, announcements r locks waiters, after, _, _, split,
        early, announcements_announce holding number locks waiters, late,
        rfl, ?_⟩
      rw [← same, foldl_announcements]
      exact good r rfl ⟨_, _, rfl⟩
  | shared _ _ _ _ _ late => exact absurd release (late _ sent).not_release

/-- A message of another node does not change what is handed over. -/
theorem Config.HandsOver.message_other {p : Nodeid} (other : p ≠ n)
    (hands : c.HandsOver mode n Good out g)
    (admissible : c.Admissible mode g p body) :
    c.HandsOver mode n Good out (g.receive p body) := by
  obtain ⟨before, announced, after, asked, table, split, early, announces,
    late, rfl, good⟩ := hands
  obtain ⟨⟨asked', reached⟩, same⟩ := Agreed.owned_receive admissible
    fun equal => absurd equal other
  rw [reached, same other]
  exact ⟨before, announced, after, asked', table, split, early, announces,
    late, rfl, good⟩

/-- The node is delivered its next message: an earlier one, an announcement or
the release. -/
theorem Config.HandsOver.message_us
    (hands : c.HandsOver mode n Good (body :: out) g)
    (admissible : c.Admissible mode g n body) :
    c.HandsOver mode n Good out (g.receive n body) ∨
      ∃ table, g.receive n body = .unowned table ∧ Good table ∧
        ∀ body ∈ out, c.Late mode n body := by
  obtain ⟨before, announced, after, asked, table, split, early, announces,
    late, rfl, good⟩ := hands
  rcases releasing_head split with ⟨later, rfl, rest⟩ |
    ⟨rfl, later, rfl, rest⟩ | ⟨rfl, rfl, rfl, rfl⟩
  · obtain ⟨first, laterEarly⟩ := List.forall_mem_cons.mp early
    obtain ⟨⟨asked', reached⟩, _⟩ := Agreed.owned_receive admissible
      fun _ => first.not_release
    left
    rw [reached, first.announce]
    exact ⟨later, announced, after, asked', table, rest, laterEarly,
      announces, late, rfl, good⟩
  · obtain ⟨first, laterAnnounces⟩ := List.forall_mem_cons.mp announces
    obtain ⟨⟨asked', reached⟩, _⟩ := Agreed.owned_receive admissible
      fun _ => first.not_release
    left
    rw [reached]
    exact ⟨[], later, after, asked', _, rest, by simp, laterAnnounces, late,
      rfl, good⟩
  · right
    refine ⟨table, ?_, good, late⟩
    simp [Agreed.receive, releaseBody, Agreed.own, ownInfo]

/-- What is handed over along the log. -/
theorem Config.HandsOver.step {p : Nodeid}
    (hands : c.HandsOver mode n Good (own n [.message p body] ++ out) g)
    (admissible : c.Admissible mode g p body) :
    c.HandsOver mode n Good out (g.receive p body) ∨
      ∃ table, g.receive p body = .unowned table ∧ Good table ∧
        ∀ body ∈ out, c.Late mode n body := by
  by_cases same : p = n
  · subst same
    rw [own_message_self] at hands
    exact hands.message_us admissible
  · rw [own_message_other same] at hands
    exact .inl (hands.message_other same admissible)

end HandOver

end Dlm.Cluster
