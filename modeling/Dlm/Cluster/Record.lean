import Dlm.Cluster.HandOver
import Dlm.Cluster.Upheld

/-!
# The histories of the members

In an orderly run every operation that a member has read is answered, waits in
its resource or is on its way, once.  The tables that are handed over are safe,
and what stands on a member is in its own table.
-/

namespace Dlm.Cluster

open Plock Broadcast

/-- The table of a shared resource is safe. -/
def Agreed.Sane (g : Agreed) : Prop :=
  ∀ table, g = .unowned table → TableSafe table

/-- Operations are as the kernel sent them, and an owner releases a safe
table. -/
def Proper (g : Agreed) (n : Nodeid) (body : Body) : Prop :=
  (body.type = .plock → body.info.Valid) ∧
    (body.Releases → ∀ asked table, g = .owned n asked table →
      TableSafe table)

/-- What a node still has to be delivered is proper when its turn comes. -/
def Config.Vows (c : Config) (n : Nodeid) (out : List Body) (g : Agreed) :
    Prop :=
  (∀ body ∈ out, body.type = .plock → body.info.Valid) ∧
    ∀ body ∈ out, body.Releases → c.HandsOver dropping n TableSafe out g

/-- The body is the operation with the tag. -/
def sends (env : Env) (tag : Nat) (body : Body) : Bool :=
  body.type == .plock && isOp env tag body.info

/-- What is known of the history of a member. -/
structure Config.Keeps (c : Config) (n : Nodeid) (daemon : Daemon)
    (slot : Option Resource) (out : List Body) (g : Agreed) : Prop where
  valid : ∀ info ∈ daemon.reads, info.Valid
  once : ∀ tag,
    daemon.answers.countP (fun answer => isOp (c.env n) tag answer.1) +
        out.countP (sends (c.env n) tag) + slotCount (c.env n) tag slot =
      (decide (tag < daemon.reads.length)).toNat
  sent : ∀ body ∈ out, body.type = .plock → body.info ∈ daemon.reads
  sane : g.Sane
  upholds : SlotUpholds (c.env n) daemon.reads daemon.answers slot

section Agree

variable {c : Config} {mode : Mode} {n : Nodeid} {out : List Body}
variable {g : Agreed} {body : Body}

theorem Agreed.Sane.receive {p : Nodeid} (sane : g.Sane)
    (proper : Proper g p body) : (g.receive p body).Sane := by
  intro table reached
  cases g with
  | none => exact absurd reached Agreed.none_receive_unowned
  | owned owner asked announced =>
      obtain ⟨rfl, releases, rfl⟩ := Agreed.owned_receive_unowned reached
      exact proper.2 releases asked announced rfl
  | unowned shared =>
      have safe := sane shared rfl
      rcases Agreed.unowned_receive p body shared with kept |
        ⟨plock, _, executed⟩ | ⟨_, dropped⟩
      · rw [kept] at reached
        rw [← Agreed.unowned.inj reached]
        exact safe
      · rw [executed] at reached
        rw [← Agreed.unowned.inj reached]
        exact safe.exec (proper.1 plock)
      · rw [dropped] at reached
        cases reached

/-- What is kept of a node's messages when one is delivered. -/
theorem Config.Vows.step {p : Nodeid}
    (vows : c.Vows n (own n [.message p body] ++ out) g)
    (admissible : c.Admissible dropping g p body) :
    c.Vows n out (g.receive p body) := by
  obtain ⟨valid, hands⟩ := vows
  constructor
  · intro later member
    exact valid later (List.mem_append_right _ member)
  · intro later member releases
    have before := hands later (List.mem_append_right _ member) releases
    rcases before.step admissible with still | ⟨_, _, _, late⟩
    · exact still
    · exact absurd releases (late later member).not_release

/-- The next message is proper. -/
theorem Config.Vows.head (vows : c.Vows n (body :: out) g) :
    Proper g n body := by
  obtain ⟨valid, hands⟩ := vows
  constructor
  · exact valid body List.mem_cons_self
  · intro releases asked table owned
    obtain ⟨before, announced, after, _, _, split, early, announces, _, same,
      safe⟩ := hands body List.mem_cons_self releases
    rcases releasing_head split with ⟨later, rfl, _⟩ | ⟨_, later, rfl, _⟩ |
      ⟨_, rfl, _, _⟩
    · exact absurd releases (early body List.mem_cons_self).not_release
    · exact absurd releases (announces body List.mem_cons_self).not_release
    · rw [same] at owned
      rw [← (Agreed.owned.inj owned).2.2]
      exact safe

end Agree

section Counting

variable {c : Config} {n : Nodeid} {daemon : Daemon} {slot : Option Resource}
variable {out : List Body} {g : Agreed} {body : Body} {r : Resource}

/-- A daemon broadcasts the bodies under its own number. -/
theorem sentBy_eq_map_bodies (env : Env) (effects : List Effect) :
    sentBy env effects =
      (bodies effects).map fun body =>
        ⟨body.type, env.ourNodeid, body.info⟩ := by
  rw [sentBy, bodies, List.map_filterMap]
  apply List.filterMap_congr
  intro effect _
  cases effect <;> rfl

theorem effectCount_bodies (env : Env) (tag : Nat) (effects : List Effect) :
    effectCount env tag effects =
      (writtenBy effects).countP (fun answer => isOp env tag answer.1) +
        (bodies effects).countP (sends env tag) := by
  rw [effectCount_eq, sentBy_eq_map_bodies, List.countP_map]
  congr 2
  funext body
  simp [carries, sends]

/-- The message that comes back is the only one that is taken from what is
outstanding. -/
theorem countP_own_message (tag : Nat) (p : Nodeid) (body : Body) :
    (own n [.message p body]).countP (sends (c.env n) tag) =
      (carries (c.env n) tag (body.message p)).toNat := by
  by_cases same : p = n
  · subst same
    rw [own_message_self, countP_cons_toNat, List.countP_nil]
    simp [sends, carries, Body.message, c.ourNodeid]
  · rw [own_message_other same, carries_foreign tag]
    · rfl
    · rw [c.ourNodeid]
      exact fun equal => same (Subtype.ext equal)

/-- A handler that conserves the operations and upholds what stands. -/
theorem Config.Keeps.commit {result : Option Resource × List Effect}
    {input : Nat → Nat} {ls : Lockspace}
    (valid : ∀ info ∈ daemon.reads, info.Valid)
    (once : ∀ tag,
      daemon.answers.countP (fun answer => isOp (c.env n) tag answer.1) +
          out.countP (sends (c.env n) tag) +
          (input tag + slotCount (c.env n) tag slot) =
        (decide (tag < daemon.reads.length)).toNat)
    (conserves : ∀ tag, Conserves (c.env n) tag (input tag) slot result)
    (sent : ∀ body ∈ out, body.type = .plock → body.info ∈ daemon.reads)
    (upheld : Upheld (c.env n) daemon.reads daemon.answers result)
    (sane : g.Sane) :
    c.Keeps n (daemon.commit (ls, result.2)).1 result.1
      (out ++ (daemon.commit (ls, result.2)).2) g := by
  constructor
  · exact valid
  · intro tag
    have before := once tag
    have moved := conserves tag
    rw [Conserves, effectCount_bodies] at moved
    change _ = (decide (tag < daemon.reads.length)).toNat
    simp only [Daemon.commit, List.countP_append]
    omega
  · intro body member
    rcases List.mem_append.mp member with old | new
    · exact sent body old
    · exact upheld.sent body new
  · exact sane
  · exact upheld.slot

theorem Config.Keeps.fresh {infos : List Info}
    (keeps : c.Keeps n daemon slot out g)
    (counted : ∀ tag, infos.countP (isOp (c.env n) tag) ≤
      out.countP (sends (c.env n) tag) + slotCount (c.env n) tag slot) :
    Fresh (c.env n) daemon.answers infos := by
  intro tag
  have total := keeps.once tag
  have part := counted tag
  have one := Bool.toNat_le (decide (tag < daemon.reads.length))
  omega

theorem Config.Keeps.fresh_pending
    (keeps : c.Keeps n daemon slot out g) (number : UInt64) :
    Fresh (c.env n) daemon.answers
      (slot.getD (newResource (c.env n) number)).pending := by
  apply keeps.fresh
  intro tag
  cases slot with
  | none => exact Nat.zero_le _
  | some r =>
      rw [slotCount_some, pendingCount]
      dsimp only [Option.getD_some]
      omega

end Counting

section Handlers

variable {c : Config} {n : Nodeid} {daemon : Daemon} {slot : Option Resource}
variable {out : List Body} {g : Agreed} {body : Body} {r : Resource}

theorem not_active_unclaimed (nobody : r.owner = -1) :
    ¬Active (c.env n) r := by
  rintro (unowned | ours)
  · rw [nobody] at unowned
    exact absurd unowned (by decide)
  · rw [nobody, c.ourNodeid] at ours
    exact n.ne_minus_one ours.symm

/-- The locks of an owner count for it. -/
theorem Config.Follows.active_of_owned {mode : Mode}
    (follows : c.Follows mode n (some r) out g) (owned : g.OwnedBy n) :
    Active (c.env n) r := by
  obtain ⟨asked, table, same⟩ := owned
  cases follows with
  | unclaimed => cases same
  | follower other => exact absurd (Agreed.owned.inj same).1 other
  | owner _ owner =>
      right
      rw [owner, c.ourNodeid]
  | releasing _ _ _ _ _ owner => exact .inl owner
  | shared => cases same

/-- While another node owns the resource, no lock counts. -/
theorem Config.Follows.not_active_of_other {mode : Mode} {p : Nodeid}
    (follows : c.Follows mode n (some r) out g) (owned : g.OwnedBy p)
    (other : p ≠ n) : ¬Active (c.env n) r ∧
      ∀ asked table, g = .owned p asked table → r.table = table := by
  obtain ⟨asked, table, same⟩ := owned
  cases follows with
  | unclaimed => cases same
  | @follower _ _ owner _ _ _ _ named _ table =>
      refine ⟨?_, ?_⟩
      · rintro (unowned | ours)
        · rw [named] at unowned
          exact owner.ne_zero unowned
        · rw [named, c.ourNodeid, (Agreed.owned.inj same).1] at ours
          exact other (Subtype.ext ours)
      · intro _ _ known
        rw [table, (Agreed.owned.inj known).2.2]
  | owner => exact absurd (Agreed.owned.inj same).1.symm other
  | releasing => exact absurd (Agreed.owned.inj same).1.symm other
  | shared => cases same

/-- A resource without an owner is empty. -/
theorem Config.Follows.unclaimed_empty {mode : Mode} {number : UInt64}
    (follows : c.Follows mode n slot out g)
    (nobody : (slot.getD (newResource (c.env n) number)).owner = -1) :
    (slot.getD (newResource (c.env n) number)).locks = [] ∧
      (slot.getD (newResource (c.env n) number)).waiters = [] := by
  cases follows with
  | absent => exact ⟨rfl, rfl⟩
  | unclaimed _ _ _ locks waiters => exact ⟨locks, waiters⟩
  | @follower _ _ owner _ _ _ _ named =>
      exact absurd (named.symm.trans nobody) owner.ne_minus_one
  | owner _ named => exact absurd (named.symm.trans nobody) n.ne_minus_one
  | releasing _ _ _ _ _ named =>
      exact absurd (named.symm.trans nobody) (by decide)
  | shared _ named => exact absurd (named.symm.trans nobody) (by decide)

variable {p : Nodeid}

theorem receivePlock1_keeps (isPlock : body.type = .plock)
    (honest : body.info.nodeid = p.val)
    (keeps : c.Keeps n daemon slot (own n [.message p body] ++ out) g)
    (proper : Proper g p body) :
    Upheld (c.env n) daemon.reads daemon.answers
      (receivePlock1 (c.env n) (body.message p) slot) := by
  apply receivePlock1_upheld (c.ownership n) keeps.upholds
    (proper.1 isPlock)
  · intro ours
    have same : p = n :=
      Subtype.ext (honest.symm.trans (ours.trans (c.ourNodeid n)))
    subst same
    apply keeps.sent body _ isPlock
    rw [own_message_self]
    simp
  · rintro r rfl
    apply keeps.fresh
    intro tag
    rw [List.countP_append, countP_own_message, countP_cons_toNat,
      slotCount_some, waitingCount_eq]
    have carried : isOp (c.env n) tag body.info =
        carries (c.env n) tag (body.message p) := by
      simp [carries, isOp, Body.message, isPlock, honest]
    rw [← carried]
    dsimp only [Body.message]
    omega

theorem Config.Admissible.sync_nodeid
    (admissible : c.Admissible dropping g p body)
    (synced : (body.message p).isSync = true) :
    body.info.nodeid = p.val := by
  have admitted := admissible.2
  simp only [Message.isSync, Body.message, Bool.or_eq_true, beq_iff_eq]
    at synced
  rcases synced with kind | kind
  · rw [kind] at admitted
    exact admitted.2 rfl
  · rw [kind] at admitted
    exact admitted.2 rfl

section Message

variable
  (follows : c.Follows dropping n slot (own n [.message p body] ++ out) g)
  (keeps : c.Keeps n daemon slot (own n [.message p body] ++ out) g)

include follows keeps

theorem receiveOwn1_keeps (isOwn : body.type = .own)
    (admissible : c.Admissible dropping g p body) (proper : Proper g p body) :
    Upheld (c.env n) daemon.reads daemon.answers
      (receiveOwn1 (c.env n) (body.message p) slot) := by
  have found := keeps.upholds.getD body.info.number
  by_cases same : p = n
  · subst same
    rw [receiveOwn1_us]
    apply receiveOwnFromUs_upheld (c.ownership p) found keeps.valid
    · intro nobody
      exact ⟨not_active_unclaimed nobody, follows.unclaimed_empty nobody⟩
    · exact keeps.fresh_pending _
  · rw [receiveOwn1_other same]
    apply receiveOwnFromOther_upheld found
    · rw [c.ourNodeid]
      exact fun equal => same (Subtype.ext equal)
    · exact p.ne_zero
    · exact not_active_unclaimed
    · intro released inactive claimed
      have owned : g.OwnedBy p := by
        obtain ⟨_, admitted⟩ := admissible
        rw [isOwn] at admitted
        rcases admitted with claim | ⟨_, owned⟩
        · exact absurd (claim.symm.trans released) p.ne_zero
        · exact owned
      cases slot with
      | none =>
          refine absurd ?_ claimed
          simp [newResource, c.ownership]
      | some r =>
          obtain ⟨asked, table, owner⟩ := id owned
          obtain ⟨_, shown⟩ := follows.not_active_of_other owned same
          dsimp only [Option.getD_some]
          rw [← tableSafe_iff, shown asked table owner]
          exact proper.2 ⟨isOwn, released⟩ asked table owner

theorem receiveSync1_keeps (owned : g.OwnedBy p)
    (honest : body.info.nodeid = p.val) :
    Upheld (c.env n) daemon.reads daemon.answers
      (receiveSync1 (c.env n) (body.message p) slot) := by
  apply receiveSync1_upheld keeps.upholds
  intro other
  rw [c.ourNodeid] at other ⊢
  dsimp only [Body.message] at other ⊢
  constructor
  · rw [honest]
    exact other
  · rintro r rfl
    exact (follows.not_active_of_other owned
      fun same => other (congrArg _ same)).1

/-- Every message leaves what stands. -/
theorem receiveSlot_keeps (admissible : c.Admissible dropping g p body)
    (proper : Proper g p body) :
    Upheld (c.env n) daemon.reads daemon.answers
      (receiveSlot (c.env n) (body.message p) slot) := by
  have admitted := admissible.2
  unfold receiveSlot
  cases kind : (body.message p).type with
  | plock =>
      rw [show body.type = .plock from kind] at admitted
      exact receivePlock1_keeps kind admitted.1 keeps proper
  | own => exact receiveOwn1_keeps follows keeps kind admissible proper
  | drop => exact receiveDrop1_upheld keeps.upholds
  | syncLock =>
      rw [show body.type = .syncLock from kind] at admitted
      exact receiveSync1_keeps follows keeps admitted.1 (admitted.2 rfl)
  | syncWaiter =>
      rw [show body.type = .syncWaiter from kind] at admitted
      exact receiveSync1_keeps follows keeps admitted.1 (admitted.2 rfl)

theorem Config.Keeps.message (admissible : c.Admissible dropping g p body)
    (proper : Proper g p body) (ls : Lockspace) :
    c.Keeps n
      (daemon.commit
        (ls, (receiveSlot (c.env n) (body.message p) slot).2)).1
      (receiveSlot (c.env n) (body.message p) slot).1
      (out ++ (daemon.commit
        (ls, (receiveSlot (c.env n) (body.message p) slot).2)).2)
      (g.receive p body) := by
  have accounts (tag : Nat) : Accounts (c.env n) tag
      (carries (c.env n) tag (body.message p)).toNat slot
      (receiveSlot (c.env n) (body.message p) slot) := by
    apply receiveSlot_accounts tag fun _ _ => .inl (c.ownership n)
    intro synced other
    have honest := admissible.sync_nodeid synced
    dsimp only [Body.message] at other ⊢
    rw [honest]
    exact other
  apply Config.Keeps.commit keeps.valid _ fun tag => (accounts tag).conserves
  · intro later member
    exact keeps.sent later (List.mem_append_right _ member)
  · exact receiveSlot_keeps follows keeps admissible proper
  · exact keeps.sane.receive proper
  · intro tag
    have total := keeps.once tag
    rw [List.countP_append, countP_own_message] at total
    omega

end Message

/-- An operation is read from the kernel. -/
theorem Config.Keeps.read {info : Info}
    (keeps : c.Keeps n daemon slot out g)
    (valid : info.Valid) (ls : Lockspace) :
    c.Keeps n
      ({ daemon with
          reads := daemon.reads ++ [c.operation n daemon info] }.commit
        (ls, (processPlock (c.env n) (c.operation n daemon info) slot).2)).1
      (processPlock (c.env n) (c.operation n daemon info) slot).1
      (out ++ ({ daemon with
          reads := daemon.reads ++ [c.operation n daemon info] }.commit
        (ls, (processPlock (c.env n) (c.operation n daemon info) slot).2)).2)
      g := by
  have accounts (tag : Nat) : Accounts (c.env n) tag
      (isOp (c.env n) tag (c.operation n daemon info)).toNat slot
      (processPlock (c.env n) (c.operation n daemon info) slot) :=
    processPlock_accounts tag fun _ _ => .inl (c.ownership n)
  have operation : isOp (c.env n) daemon.reads.length
      (c.operation n daemon info) = true := by
    simp [isOp, Config.operation, c.ourNodeid]
  have other {tag : Nat} (different : tag ≠ daemon.reads.length) :
      isOp (c.env n) tag (c.operation n daemon info) = false := by
    simp [isOp, Config.operation, Ne.symm different]
  have validOperation : (c.operation n daemon info).Valid :=
    ⟨valid.ordered, valid.mode⟩
  have unused : ∀ tag, daemon.answers.countP
        (fun answer => isOp (c.env n) tag answer.1) +
        out.countP (sends (c.env n) tag) +
        ((isOp (c.env n) tag (c.operation n daemon info)).toNat +
          slotCount (c.env n) tag slot) =
      (decide (tag < (daemon.reads ++
        [c.operation n daemon info]).length)).toNat := by
    intro tag
    have total := keeps.once tag
    rw [List.length_append, List.length_singleton]
    by_cases same : tag = daemon.reads.length
    · subst same
      rw [decide_eq_false (Nat.lt_irrefl _), Bool.toNat_false] at total
      rw [operation, decide_eq_true (Nat.lt_succ_self _), Bool.toNat_true]
      omega
    · rw [other same]
      have still : decide (tag < daemon.reads.length + 1) =
          decide (tag < daemon.reads.length) := by
        apply decide_eq_decide.mpr
        omega
      rw [still]
      simpa using total
  have fresh {infos : List Info}
      (counted : ∀ tag, infos.countP (isOp (c.env n) tag) ≤
        (isOp (c.env n) tag (c.operation n daemon info)).toNat +
          slotCount (c.env n) tag slot) :
      Fresh (c.env n) daemon.answers infos := by
    intro tag
    have total := unused tag
    have part := counted tag
    have one := Bool.toNat_le (decide (tag < (daemon.reads ++
      [c.operation n daemon info]).length))
    omega
  apply Config.Keeps.commit _ unused fun tag => (accounts tag).conserves
  · intro later member plock
    exact List.mem_append_left _ (keeps.sent later member plock)
  · apply processPlock_upheld (c.ownership n) keeps.upholds validOperation
    · rintro r rfl
      apply fresh
      intro tag
      rw [countP_cons_toNat, slotCount_some, waitingCount_eq]
      omega
    · apply fresh
      intro tag
      rw [countP_cons_toNat, List.countP_nil]
      omega
  · exact keeps.sane
  · intro other member
    rcases List.mem_append.mp member with old | new
    · exact keeps.valid other old
    · rw [List.mem_singleton.mp new]
      exact validOperation

theorem Config.Keeps.drop (keeps : c.Keeps n daemon (some r) out g)
    (ls : Lockspace) :
    c.Keeps n (daemon.commit (ls, (dropResource (c.env n) r).2)).1
      (some (dropResource (c.env n) r).1)
      (out ++ (daemon.commit (ls, (dropResource (c.env n) r).2)).2) g := by
  have accounts (tag : Nat) : Accounts (c.env n) tag 0 (some r)
      (some (dropResource (c.env n) r).1, (dropResource (c.env n) r).2) :=
    dropResource_accounts tag (.inl (c.ownership n)) (c.ownership n)
  apply Config.Keeps.commit keeps.valid _
    (fun tag => (accounts tag).conserves) keeps.sent
    (dropResource_upheld keeps.upholds) keeps.sane
  intro tag
  have total := keeps.once tag
  omega

end Handlers

/-- What is known of the history of a member, whatever its resource is. -/
def Config.Recorded (c : Config) (n : Nodeid) (daemon : Daemon)
    (out : List Body) (g : Agreed) : Prop :=
  ∀ slot, daemon.ls = hosting false slot → c.Keeps n daemon slot out g

/-- The kernel reads valid operations. -/
def validRead : Action → Prop
  | .read info => info.Valid
  | .drop _ => True

section Record

variable {c : Config} {n : Nodeid} {daemon : Daemon} {out : List Body}
variable {g : Agreed} {entry : Entry Nodeid Body}

theorem Config.Recorded.vows (recorded : c.Recorded n daemon out g)
    (member : c.Member dropping n daemon out g) : c.Vows n out g := by
  obtain ⟨slot, ls, follows⟩ := member
  have keeps := recorded slot ls
  constructor
  · intro body sent plock
    exact keeps.valid _ (keeps.sent body sent plock)
  · intro body sent releases
    apply follows.handsOver sent releases
    rintro r rfl owned
    rw [tableSafe_iff]
    exact (keeps.upholds.active (follows.active_of_owned owned)).2

theorem Config.Recorded.act {action : Action}
    (recorded : c.Recorded n daemon out g)
    (member : c.Member dropping n daemon out g)
    (valid : validRead action) :
    c.Recorded n (c.act n action daemon).1
      (out ++ (c.act n action daemon).2) g := by
  obtain ⟨slot, ls, follows⟩ := member
  have keeps := recorded slot ls
  intro next found
  cases action with
  | read info =>
      rw [act_read info ls follows.numbered] at found ⊢
      rw [← hosting_injective found]
      exact keeps.read valid _
  | drop aged =>
      rcases act_drop aged ls with kept | ⟨r, rfl, _, dropped⟩
      · have same : daemon.commit (hosting false slot, []) =
            (daemon, []) := by
          rw [← ls]
          simp [Daemon.commit]
        rw [kept, same] at found ⊢
        rw [List.append_nil]
        exact recorded next found
      · rw [dropped] at found ⊢
        rw [← hosting_injective found]
        exact keeps.drop _

theorem Config.Recorded.deliver {start : Agreed}
    (recorded : c.Recorded n daemon (own n [entry] ++ out) g)
    (member : c.Member dropping n daemon (own n [entry] ++ out) g)
    (admitted : ((c.agreement dropping start).narrow Proper).Admits g
      entry) :
    c.Recorded n (c.algorithm.handle n entry daemon).1
      (out ++ (c.algorithm.handle n entry daemon).2) (g.advance entry) := by
  obtain ⟨slot, ls, follows⟩ := member
  have keeps := recorded slot ls
  intro next found
  cases entry with
  | down node => exact admitted.elim
  | message p body =>
      obtain ⟨admissible, proper⟩ := admitted
      rw [handle_message p ls follows.numbered admissible.1] at found ⊢
      rw [← hosting_injective found]
      exact keeps.message follows admissible proper _

/-- The history of the members is kept along the runs in which the kernel
reads valid operations. -/
def Config.recording (c : Config) :
    Addition (c.simulation .none dropping_tidy) :=
  { Also := Proper
    Extra := c.Recorded
    Vow := c.Vows
    okAct := fun _ action _ => validRead action
    okDeliver := fun _ _ _ => True
    vow := fun member recorded => recorded.vows member
    vow_head := fun vows => vows.head
    vow_step := fun {_ entry _ _} vows admitted _ =>
      match entry, admitted with
      | .message _ _, admitted => vows.step admitted.1
    act := fun member recorded valid => recorded.act member valid
    deliver := fun member recorded admitted _ _ _ =>
      recorded.deliver member admitted }

end Record

end Dlm.Cluster
