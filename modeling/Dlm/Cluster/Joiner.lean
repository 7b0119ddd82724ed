import Dlm.Cluster.Runs
import Dlm.Lib.Residents

/-!
# A join during a hand-over

The owner of a resource, with any locks and waiters, gives it up while a node
joins.  The checkpoint is stored by one of the first members, at any point
before, between or after the announcements.  The members that have been there
from the start know of a released resource that it was released
(`R_GOT_UNOWN`), so that what they store names the agreed owner.
-/

namespace Dlm.Cluster

open Plock Broadcast

/-- A node that has a shared resource has seen its release. -/
def Informed (slot : Option Resource) (g : Agreed) : Prop :=
  ∀ r, slot = some r → g.Shared → r.gotUnown = true

section Handlers

variable {c : Config} {mode : Mode} {n p : Nodeid} {slot : Option Resource}
variable {r s : Resource} {out : List Body} {g : Agreed} {body : Body}
variable {asked : Bool} {table : Table}

/-- An operation on a shared resource keeps the flag. -/
theorem receivePlock1_informed (shared : r.owner = 0)
    (got : r.gotUnown = true)
    (reached : (receivePlock1 (c.env n) (body.message p) (some r)).1 =
      some s) : s.gotUnown = true := by
  unfold receivePlock1 at reached
  dsimp only [Body.message, findResource] at reached
  split at reached
  · rw [← Option.some.inj reached]
    exact got
  · split at reached
    · rw [← Option.some.inj reached]
      exact got
    · rw [receivePlockFound_shared p shared,
        receivePlock2_owned (c.ownership n)] at reached
      rw [← Option.some.inj reached, afterPlock_gotUnown]
      exact got

/-- A claim of a shared resource keeps the flag, as does another release. -/
theorem receiveOwn1_informed (shared : r.owner = 0)
    (got : r.gotUnown = true)
    (reached : (receiveOwn1 (c.env n) (body.message p) (some r)).1 =
      some s) : s.gotUnown = true := by
  have notOurs : r.owner ≠ (c.env n).ourNodeid := by
    rw [shared, c.ourNodeid]
    exact n.ne_zero.symm
  have claimed : r.owner ≠ -1 := by
    rw [shared]
    decide
  by_cases same : p = n
  · subst same
    rw [receiveOwn1_us] at reached
    unfold receiveOwnFromUs at reached
    dsimp only [Option.getD_some] at reached
    rw [if_neg notOurs, if_pos shared, if_neg claimed, if_neg notOurs,
      if_pos shared] at reached
    split at reached
    · rw [← Option.some.inj reached]
    · split at reached
      · rw [← Option.some.inj reached]
        exact got
      · rw [← Option.some.inj reached]
        exact got
  · rw [receiveOwn1_other same] at reached
    unfold receiveOwnFromOther at reached
    dsimp only [Option.getD_some] at reached
    rw [if_neg claimed, if_neg notOurs, if_pos shared, if_neg claimed,
      if_neg notOurs, ite_self, ite_self] at reached
    rw [← Option.some.inj reached]
    exact got

theorem receiveDrop1_informed (got : r.gotUnown = true)
    (reached : receiveDrop1 (some r) = some s) : s.gotUnown = true := by
  rcases receiveDrop1_cases (some r) with freed | kept
  · rw [freed] at reached
    cases reached
  · rw [kept] at reached
    rw [← Option.some.inj reached]
    exact got

/-- The release of the owner sets the flag. -/
theorem release_informs (follows : c.Follows mode n slot
      (own n [.message p body] ++ out) (.owned p asked table))
    (release : body.Releases)
    (reached : (receiveSlot (c.env n) (body.message p) slot).1 = some s) :
    s.gotUnown = true := by
  obtain ⟨isOwn, nobody⟩ := release
  have handler : receiveSlot (c.env n) (body.message p) slot =
      receiveOwn1 (c.env n) (body.message p) slot := by
    simp only [receiveSlot, Body.message, isOwn]
  rw [handler] at reached
  cases follows with
  | @follower r _ _ _ _ other number owner =>
      rw [receiveOwn1_other other] at reached
      unfold receiveOwnFromOther at reached
      dsimp only [Option.getD_some] at reached
      have notOurs : r.owner ≠ (c.env n).ourNodeid := by
        rw [owner, c.ourNodeid]
        exact fun equal => other (Subtype.ext equal)
      rw [if_pos nobody, if_neg (by rw [owner]; exact p.ne_minus_one),
        if_neg notOurs, if_neg (by rw [owner]; exact p.ne_zero)] at reached
      rw [← Option.some.inj reached]
      rfl
  | owner _ _ _ _ _ early =>
      rw [own_message_self] at early
      exact absurd ⟨isOwn, nobody⟩
        (early body List.mem_cons_self).not_release
  | @releasing r _ _ _ _ _ _ _ number owner =>
      rw [receiveOwn1_us] at reached
      unfold receiveOwnFromUs at reached
      dsimp only [Option.getD_some] at reached
      have notOurs : r.owner ≠ (c.env n).ourNodeid := by
        rw [owner, c.ourNodeid]
        exact n.ne_zero.symm
      rw [if_pos nobody, if_neg notOurs, if_pos owner] at reached
      rw [← Option.some.inj reached]

/-- A message leaves a node informed, or informs it. -/
theorem Informed.message (informed : Informed slot g)
    (follows : c.Follows mode n slot (own n [.message p body] ++ out) g)
    (admissible : c.Admissible mode g p body) :
    Informed (receiveSlot (c.env n) (body.message p) slot).1
      (g.receive p body) := by
  rintro s reached ⟨table, shared⟩
  cases g with
  | none => exact absurd shared Agreed.none_receive_unowned
  | owned owner asked announced =>
      obtain ⟨rfl, release, _⟩ := Agreed.owned_receive_unowned shared
      exact release_informs follows release reached
  | unowned before =>
      cases follows with
      | @shared r _ _ number owner =>
          have got := informed r rfl ⟨before, rfl⟩
          have admitted := admissible.2
          unfold receiveSlot at reached
          cases kind : (body.message p).type with
          | plock =>
              rw [kind] at reached
              exact receivePlock1_informed owner got reached
          | own =>
              rw [kind] at reached
              exact receiveOwn1_informed owner got reached
          | drop =>
              rw [kind] at reached
              exact receiveDrop1_informed got reached
          | syncLock =>
              rw [show body.type = .syncLock from kind] at admitted
              obtain ⟨⟨_, _, owned⟩, _⟩ := admitted
              cases owned
          | syncWaiter =>
              rw [show body.type = .syncWaiter from kind] at admitted
              obtain ⟨⟨_, _, owned⟩, _⟩ := admitted
              cases owned

end Handlers

/-- Nothing is dropped, and only the first members store checkpoints. -/
def joining (members : Nodeid → Bool) : Mode :=
  { drops := false, stores := members, foreign := true }

section Residents

variable {c : Config} {members : Nodeid → Bool} {n : Nodeid}
variable {daemon : Daemon} {out : List Body} {g : Agreed}

/-- A member has seen the release of a shared resource. -/
def InformedMember (daemon : Daemon) (g : Agreed) : Prop :=
  ∀ slot, daemon.ls = hosting false slot → Informed slot g

theorem InformedMember.act {action : Action}
    (informed : InformedMember daemon g)
    (member : c.Member (joining members) n daemon out g) :
    InformedMember (c.act n action daemon).1 g := by
  obtain ⟨slot, ls, follows⟩ := member
  rintro next found s same ⟨table, rfl⟩
  obtain ⟨r, rfl, shared, _⟩ := follows.of_unowned
  have got := informed (some r) ls r rfl ⟨table, rfl⟩
  cases action with
  | read info =>
      rw [act_read info ls follows.numbered] at found
      have reached := (hosting_injective found).trans same
      simp only [processPlock, Option.getD_some, shared, if_true]
        at reached
      rw [← Option.some.inj reached]
      exact got
  | drop aged =>
      rcases act_drop aged ls with kept | ⟨_, ours, _, dropped⟩
      · rw [kept] at found
        have reached := (hosting_injective found).trans same
        rw [← Option.some.inj reached]
        exact got
      · rw [dropped, ← Option.some.inj ours] at found
        have reached := (hosting_injective found).trans same
        simp only [dropResource, c.ourNodeid, shared, n.ne_zero.symm, got,
          if_false, if_true, and_self] at reached
        rw [← Option.some.inj reached]
        exact got

theorem InformedMember.deliver {start : Agreed}
    {entry : Entry Nodeid Body} (informed : InformedMember daemon g)
    (member : c.Member (joining members) n daemon (own n [entry] ++ out) g)
    (admitted : (c.agreement (joining members) start).Admits g entry)
    (ok : c.OkDeliver (joining members) entry daemon
      (own n [entry] ++ out)) :
    InformedMember (c.algorithm.handle n entry daemon).1
      (g.advance entry) := by
  obtain ⟨slot, ls, follows⟩ := member
  intro next found
  cases entry with
  | down node => cases ok.1
  | message p body =>
      rw [handle_message p ls follows.numbered admitted.1] at found
      rw [← hosting_injective found]
      exact (informed slot ls).message follows admitted

/-- What is kept of the first members. -/
def Config.informing (start : Agreed) (tidy : c.Tidy (joining members)) :
    Residency (c.simulation start tidy) :=
  { resident := fun n => members n = true
    Extra := fun _ => InformedMember
    act := fun member informed _ => informed.act member
    deliver := fun member informed admitted _ ok =>
      informed.deliver member admitted ok }

end Residents

/-- Not a message with which a node claims or releases the resource. -/
def unclaiming : Option (Entry Nodeid Body) → Prop
  | some (.message _ body) => body.type ≠ .own
  | _ => True

/-- The steps of a join during a hand-over.  The members alone read operations,
nothing is dropped and nobody fails.  The joining node has no resource when it
begins to save messages, which it does where the checkpoint is stored that it
reads. -/
def Config.calmJoin (c : Config) (members : Nodeid → Bool)
    (joiner : Nodeid) (s : State) : Label → Prop
  | .act n action => (s.site n).status = .member ∧
      ∀ body ∈ (c.act n action (s.site n).node).2, body.type ≠ .drop
  | .order _ => True
  | .deliver n => (s.site n).status = .waiting → unclaiming (s.coming n)
  | .crash _ => False
  | .snapshot n => members n = true
  | .join n _ => n = joiner
  | .save _ => True
  | .restore n index => ∀ taken ∈ s.snapshots[index]?,
      (s.site n).status = .saving taken.1

/-- A resource that the owner has with its locks and waiters. -/
def Config.ownedBy (c : Config) (owner : Nodeid) (locks : List PosixLock)
    (waiters : List LockWaiter) : Resource :=
  { number := c.number
    owner := owner.val
    gotUnown := false
    locks := locks
    waiters := waiters
    pending := [] }

/-- The members know the owner of the resource. -/
def Config.owned (c : Config) (members : Nodeid → Bool) (owner : Nodeid)
    (locks : List PosixLock) (waiters : List LockWaiter) : State :=
  { log := []
    site := fun n =>
      { status := if members n then .member else .absent
        node :=
          { Daemon.idle with
            ls := hosting false (some
              (if n = owner then c.ownedBy owner locks waiters
               else c.ownedBy owner [] [])) }
        position := 0
        queue := [] }
    snapshots := [] }

section Runs

variable {c : Config} {members : Nodeid → Bool} {owner joiner : Nodeid}
variable {locks : List PosixLock} {waiters : List LockWaiter}
variable {s : State} {label : Label}

/-- What holds in every state of such a run. -/
structure Config.Joins (c : Config) (members : Nodeid → Bool)
    (owner : Nodeid) (tidy : c.Tidy (joining members)) (s : State) :
    Prop where
  sound : (c.simulation (.owned owner false Table.empty) tidy).Sound s
  held : (Config.informing (.owned owner false Table.empty) tidy).Held s
  unbroken : Unbroken s

theorem Config.Joins.start (tidy : c.Tidy (joining members))
    (present : members owner = true)
    (named : ∀ w ∈ waiters, w.info.number = c.number) :
    c.Joins members owner tidy (c.owned members owner locks waiters) := by
  constructor
  · refine ⟨trivial, ?_, ?_⟩
    · intro n
      cases status : members n with
      | false =>
          simp only [Simulation.Placed, Config.owned, status]
          rintro position _ _ ⟨asked, table, same⟩
          rw [Agreement.upTo, List.take_nil] at same
          have ours : owner = n := (Agreed.owned.inj same).1
          rw [ours, status] at present
          cases present
      | true =>
          simp only [Simulation.Placed, Config.owned, status, if_true]
          refine ⟨Nat.le_refl _, by simp, _, rfl, ?_⟩
          by_cases same : n = owner
          · subst same
            rw [if_pos rfl]
            apply Config.Follows.owner rfl rfl rfl rfl
            · constructor
              · exact named
              · intro confined
                cases confined
              · intro confined
                cases confined
            · intro body sent
              cases sent
          · rw [if_neg same]
            apply Config.Follows.follower (Ne.symm same) rfl rfl rfl rfl
            · intro _
              constructor
              · intro po member
                cases member
              · intro w member
                cases member
            · intro info member
              cases member
            · intro body sent
              cases sent
    · intro taken member
      cases member
  · intro n resident
    have member : members n = true := resident
    refine ⟨by simp [Config.owned, member], ?_⟩
    rintro slot _ r _ ⟨table, shared⟩
    cases shared
  · intro node member
    cases member

/-- A first member that has the resource with owner 0 knows of its release or
waits for its own. -/
theorem Config.Joins.okSnapshot {tidy : c.Tidy (joining members)}
    {n : Nodeid} (joins : c.Joins members owner tidy s)
    (resident : members n = true) :
    c.OkSnapshot (joining members) n (s.site n).node (s.outstanding n) := by
  obtain ⟨member, informed⟩ := joins.held n resident
  obtain ⟨_, ls, follows⟩ := Simulation.Sound.member joins.sound member
  refine ⟨resident, ?_⟩
  intro r found unowned
  have ours : c.resource s n = some r := found
  have got := informed _ ls r ours
  rw [ours] at follows
  generalize (c.agreement (joining members) (.owned owner false
    Table.empty)).upTo s.log (s.site n).position = g at follows got
  cases follows with
  | unclaimed _ nobody => exact absurd (nobody.symm.trans unowned) (by decide)
  | @follower _ _ holder _ _ _ _ named =>
      exact absurd (named.symm.trans unowned) holder.ne_zero
  | owner _ named => exact absurd (named.symm.trans unowned) n.ne_zero
  | releasing _ _ _ _ _ _ _ _ _ _ _ _ _ split =>
      right
      rw [split]
      simp
  | shared => exact .inl (got ⟨_, rfl⟩)

theorem Config.Joins.allowed {tidy : c.Tidy (joining members)}
    (joins : c.Joins members owner tidy s) (absent : members joiner = false)
    (calm : c.calmJoin members joiner s label) :
    (c.simulation (.owned owner false Table.empty) tidy).Allowed s label := by
  cases label with
  | act n action => exact ⟨.inr calm.1, fun _ => calm.2⟩
  | order n => trivial
  | deliver n =>
      intro entry coming
      have unbroken (node : Nodeid) : entry ≠ .down node := by
        rintro rfl
        exact joins.unbroken node (List.mem_of_getElem? coming)
      cases status : (s.site n).status with
      | absent => trivial
      | waiting =>
          have quiet := calm status
          rintro sender body rfl
          rw [coming] at quiet
          exact quiet
      | saving since => exact unbroken
      | member =>
          cases entry with
          | message p body =>
              intro dropped
              cases dropped
          | down node => exact absurd rfl (unbroken node)
  | crash n => cases calm
  | snapshot n => exact joins.okSnapshot calm
  | join n position =>
      intro stores
      have same : n = joiner := calm
      rw [same] at stores
      exact absurd (absent.symm.trans stores) (by decide)
  | save n => trivial
  | restore n index => exact calm

theorem Config.Joins.step {tidy : c.Tidy (joining members)}
    (joins : c.Joins members owner tidy s) (absent : members joiner = false)
    (enabled : c.system.enabled s label)
    (calm : c.calmJoin members joiner s label) :
    c.Joins members owner tidy (c.system.next s label) := by
  have allowed := joins.allowed absent calm
  constructor
  · exact joins.sound.step label enabled allowed
  · apply joins.held.step joins.sound label enabled allowed
    cases label with
    | crash n => cases calm
    | _ => trivial
  · apply joins.unbroken.next
    cases label with
    | crash n => cases calm
    | _ => rfl

/-- Behind the release of the owner the resource stays shared. -/
theorem Config.Joins.shared {tidy : c.Tidy (joining members)}
    {position i : Nat} {body : Body}
    (joins : c.Joins members owner tidy s)
    (released : s.log[i]? = some (.message owner body))
    (release : body.Releases) (later : i < position) :
    ((c.agreement (joining members)
      (.owned owner false Table.empty)).upTo s.log position).Shared := by
  have admissible := (joins.sound.chain.drop i)
  rw [drop_of_coming released] at admissible
  obtain ⟨isOwn, nobody⟩ := release
  have owned := admissible.1.2
  rw [isOwn] at owned
  rcases owned with claim | ⟨_, asked, table, owned⟩
  · exact absurd (claim.symm.trans nobody) owner.ne_zero
  · have shared : ((c.agreement (joining members)
        (.owned owner false Table.empty)).upTo s.log (i + 1)).Shared := by
      rw [Agreement.upTo_of_coming released, owned]
      refine ⟨table, ?_⟩
      simp [Config.agreement, Agreed.advance, Agreed.receive, isOwn, nobody,
        Agreed.own]
    apply Agreement.Chain.from _ joins.sound.chain later shared
    intro g entry shared admitted
    cases entry with
    | message p body =>
        apply shared.receive
        intro dropped
        have impossible := admitted.2
        rw [dropped] at impossible
        cases impossible
    | down node =>
        obtain ⟨table, rfl⟩ := shared
        exact ⟨_, rfl⟩

/-- A member that is behind the release has the shared table. -/
theorem Config.Joins.table {tidy : c.Tidy (joining members)} {n : Nodeid}
    {table : Table} (joins : c.Joins members owner tidy s)
    (member : (s.site n).status = .member)
    (shared : (c.agreement (joining members) (.owned owner false
      Table.empty)).upTo s.log (s.site n).position = .unowned table) :
    ∃ r, (s.site n).node.ls.plockResources = [r] ∧ r.owner = 0 ∧
      r.table = table := by
  obtain ⟨_, ls, follows⟩ := Simulation.Sound.member joins.sound member
  rw [shared] at follows
  obtain ⟨r, found, unowned, same⟩ := follows.of_unowned
  refine ⟨r, ?_, unowned, same⟩
  rw [ls, found]
  rfl

end Runs

instance (coming : Option (Entry Nodeid Body)) :
    Decidable (unclaiming coming) := by
  rcases coming with _ | _ | _ <;> unfold unclaiming <;> infer_instance

instance (c : Config) (members : Nodeid → Bool) (joiner : Nodeid)
    (s : State) (label : Label) :
    Decidable (c.calmJoin members joiner s label) := by
  rcases label <;> unfold Config.calmJoin <;> infer_instance

def firstTwo : Nodeid → Bool := fun n => n = node1 ∨ n = node2

end Dlm.Cluster
