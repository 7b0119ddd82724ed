import Dlm.Cluster.Joiner
import Dlm.Cluster.Owners
import Mathlib.Data.List.Induction

/-!
# The owner in a checkpoint

Whatever happens, hand-overs, drops, failures and joins, the section that a
node writes for the resource names the agreed owner, provided that the node
knows that a resource without an owner has been released.  The nodes do not
know it when the owner has failed, and when they have read from a checkpoint
that the resource has no owner.
-/

namespace Dlm.Cluster

open Plock Broadcast

/-- The entry ends the ownership of the node: its `OWN 0`, or its removal. -/
def Ends (owner : Nodeid) : Entry Nodeid Body → Prop
  | .message sender body => sender = owner ∧ body.Releases
  | .down node => node = owner

/-- The agreed state after a part of the log. -/
def agreedAfter (entries : List (Entry Nodeid Body)) : Agreed :=
  entries.foldl Agreed.advance .none

/-- The last claim that made a node the owner: nobody owned the resource before
it, and in no state behind it is the resource unclaimed. -/
structure LastClaim (entries front back : List (Entry Nodeid Body))
    (owner : Nodeid) (body : Body) : Prop where
  split : entries = front ++ .message owner body :: back
  claim : body.type = .own ∧ body.info.nodeid = owner.val
  unclaimed : agreedAfter front = .none
  last : ∀ between, between <+: back →
    agreedAfter (front ++ .message owner body :: between) ≠ .none

section History

variable {entries front back : List (Entry Nodeid Body)} {owner : Nodeid}
variable {body : Body} {g : Agreed} {entry : Entry Nodeid Body}

theorem agreedAfter_snoc (entries : List (Entry Nodeid Body))
    (entry : Entry Nodeid Body) :
    agreedAfter (entries ++ [entry]) = (agreedAfter entries).advance entry :=
  List.foldl_concat _ _ _ _

/-- One more entry that leaves the resource claimed. -/
theorem LastClaim.snoc (last : LastClaim entries front back owner body)
    (still : agreedAfter (entries ++ [entry]) ≠ .none) :
    LastClaim (entries ++ [entry]) front (back ++ [entry]) owner body := by
  obtain ⟨split, claim, unclaimed, later⟩ := last
  constructor
  · rw [split]
    simp
  · exact claim
  · exact unclaimed
  · intro between shorter
    rcases List.prefix_concat_iff.mp shorter with whole | part
    · rw [whole]
      rw [split] at still
      simpa using still
    · exact later between part

/-- Only a claim makes an owner. -/
theorem Agreed.none_advance (claimed : Agreed.none.advance entry ≠ .none) :
    ∃ owner body, entry = .message owner body ∧ body.type = .own ∧
      body.info.nodeid = owner.val ∧
      Agreed.none.advance entry = .owned owner false Table.empty := by
  cases entry with
  | down node => exact absurd rfl claimed
  | message sender body =>
      simp only [Agreed.advance, Agreed.receive] at claimed ⊢
      cases kind : body.type with
      | own =>
          simp only [kind, Agreed.own] at claimed ⊢
          split at claimed
          · exact absurd rfl claimed
          · rename_i someone
            split at claimed
            · rename_i honest
              refine ⟨sender, body, rfl, kind, honest, ?_⟩
              rw [if_neg someone, if_pos honest]
            · exact absurd rfl claimed
      | plock => simp [kind, Agreed.plock] at claimed
      | drop => simp [kind, Agreed.drop] at claimed
      | syncLock => simp [kind, Agreed.sync] at claimed
      | syncWaiter => simp [kind, Agreed.sync] at claimed

/-- An owner stays the owner up to the entry that ends its ownership. -/
theorem Agreed.owned_advance (owner : Nodeid) (asked : Bool) (table : Table)
    (entry : Entry Nodeid Body) :
    (Ends owner entry ∧
        ((Agreed.owned owner asked table).advance entry).Shared) ∨
      ¬Ends owner entry ∧
        ((Agreed.owned owner asked table).advance entry).OwnedBy owner := by
  cases entry with
  | down node =>
      simp only [Agreed.advance, Agreed.remove]
      by_cases same : owner = node
      · rw [if_pos same]
        exact .inl ⟨same.symm, _, rfl⟩
      · rw [if_neg same]
        exact .inr ⟨fun ends => same ends.symm, _, _, rfl⟩
  | message sender body =>
      rcases Agreed.owned_receive_cases sender owner asked table body with
        ⟨same, releases, shared⟩ | ⟨kept, owned⟩
      · exact .inl ⟨⟨same.symm, releases⟩, table, shared⟩
      · exact .inr ⟨fun ends => kept ⟨ends.1.symm, ends.2⟩, owned⟩

/-- A shared resource stays shared until it is dropped. -/
theorem Agreed.unowned_advance (table : Table)
    (entry : Entry Nodeid Body) :
    ((Agreed.unowned table).advance entry).Shared ∨
      (Agreed.unowned table).advance entry = .none := by
  cases entry with
  | down node => exact .inl ⟨_, rfl⟩
  | message sender body =>
      rcases Agreed.unowned_receive sender body table with kept |
        ⟨_, _, executed⟩ | ⟨_, dropped⟩
      · exact .inl ⟨_, kept⟩
      · exact .inl ⟨_, executed⟩
      · exact .inr dropped

/-- What the agreed owner says about the log. -/
def Explained (entries : List (Entry Nodeid Body)) : Agreed → Prop
  | .none => True
  | .owned owner _ _ =>
      ∃ front back body, LastClaim entries front back owner body ∧
        ∀ entry ∈ back, ¬Ends owner entry
  | .unowned _ =>
      ∃ owner front back body, LastClaim entries front back owner body ∧
        ∃ entry ∈ back, Ends owner entry

theorem Explained.snoc (explained : Explained entries (agreedAfter entries))
    (entry : Entry Nodeid Body) :
    Explained (entries ++ [entry]) (agreedAfter (entries ++ [entry])) := by
  have next := agreedAfter_snoc entries entry
  by_cases unclaimed : agreedAfter (entries ++ [entry]) = .none
  · rw [unclaimed]
    trivial
  · cases before : agreedAfter entries with
    | none =>
        rw [before] at next
        rw [next] at unclaimed
        obtain ⟨owner, body, rfl, isOwn, honest, owned⟩ :=
          Agreed.none_advance unclaimed
        rw [next, owned]
        refine ⟨entries, [], body, ⟨rfl, ⟨isOwn, honest⟩, before, ?_⟩, ?_⟩
        · intro between nothing
          rw [List.prefix_nil.mp nothing, next, owned]
          exact Agreed.noConfusion
        · intro later member
          cases member
    | owned owner asked table =>
        rw [before] at explained next
        obtain ⟨front, back, body, last, kept⟩ := explained
        have longer := last.snoc unclaimed
        rcases Agreed.owned_advance owner asked table entry with
          ⟨ends, shown, shared⟩ | ⟨still, asked', table', owned⟩
        · rw [next, shared]
          exact ⟨owner, front, back ++ [entry], body, longer, entry, by simp,
            ends⟩
        · rw [next, owned]
          refine ⟨front, back ++ [entry], body, longer, ?_⟩
          intro later member
          rcases List.mem_append.mp member with old | new
          · exact kept later old
          · rw [List.mem_singleton.mp new]
            exact still
    | unowned table =>
        rw [before] at explained next
        obtain ⟨owner, front, back, body, last, ended, member, ends⟩ :=
          explained
        have longer := last.snoc unclaimed
        rcases Agreed.unowned_advance table entry with ⟨shown, shared⟩ |
          dropped
        · rw [next, shared]
          exact ⟨owner, front, back ++ [entry], body, longer, ended,
            List.mem_append_left _ member, ends⟩
        · exact absurd (next.trans dropped) unclaimed

theorem explained (entries : List (Entry Nodeid Body)) :
    Explained entries (agreedAfter entries) := by
  induction entries using List.reverseRecOn with
  | nil => trivial
  | append_singleton entries entry induction => exact induction.snoc entry

end History

/-- The section names the last owner, or 0 after the end of its ownership. -/
def Config.NamesOwner (c : Config) (entries : List (Entry Nodeid Body))
    (section_ : Section) : Prop :=
  ∃ owner front back body, LastClaim entries front back owner body ∧
    ((∃ entry ∈ back, Ends owner entry) ∧
        section_.id = sectionId c.number 0 ∨
      (∀ entry ∈ back, ¬Ends owner entry) ∧
        section_.id = sectionId c.number owner.val)

/-- Drops, failures and checkpoints of any node. -/
def unrestricted : Mode :=
  { drops := true, stores := fun _ => true, foreign := false }

/-- What comes is not a failure. -/
def unfailing : Option (Entry Nodeid Body) → Prop
  | some (.down _) => False
  | _ => True

/-- A node that has the resource with owner 0 has seen its release or waits for
its own. -/
def Config.knowsRelease (c : Config) (s : State) (n : Nodeid) : Prop :=
  ∀ r ∈ c.resource s n, r.owner = 0 →
    r.gotUnown = true ∨ releaseBody c.number ∈ s.outstanding n

/-- The deliveries that leave the nodes following the agreed state. -/
def Config.tracedDelivery (c : Config) (s : State) (n : Nodeid) :
    Status → Prop
  | .absent => True
  | .waiting => unclaiming (s.coming n)
  | .saving _ => unfailing (s.coming n)
  | .member =>
      c.spares (s.outstanding n) (s.coming n) (c.resource s n) ∧
        c.sparesWaiters (s.outstanding n) (s.coming n) (c.resource s n)

/-- The steps of a run in which nodes hand over, drop, fail and join, and every
checkpoint is stored by a node that knows of the release of a resource without
an owner. -/
def Config.traced (c : Config) (s : State) : Label → Prop
  | .act n _ => (s.site n).status = .member
  | .order _ => True
  | .deliver n => c.tracedDelivery s n (s.site n).status
  | .crash _ => True
  | .snapshot n => c.knowsRelease s n
  | .join _ _ => True
  | .save _ => True
  | .restore n index => ∀ taken ∈ s.snapshots[index]?,
      (s.site n).status = .saving taken.1

section Runs

variable {c : Config} {s : State} {label : Label} {members : Nodeid → Bool}
variable {n : Nodeid} {tidy : c.Tidy unrestricted}

theorem Config.traced.allowed (cleared : ∀ n, Cleared (c.env n))
    (traced : c.traced s label) :
    (c.simulation .none tidy).Allowed s label := by
  cases label with
  | act n action =>
      refine ⟨.inr traced, ?_⟩
      intro kept
      cases kept
  | order n => trivial
  | deliver n =>
      intro entry coming
      simp only [Config.traced] at traced
      cases status : (s.site n).status with
      | absent => trivial
      | waiting =>
          simp only [status, Config.tracedDelivery, coming] at traced
          rintro sender body rfl
          exact traced
      | saving since =>
          simp only [status, Config.tracedDelivery, coming] at traced
          rintro node rfl
          exact traced
      | member =>
          simp only [status, Config.tracedDelivery] at traced
          obtain ⟨spared, blocked⟩ := traced
          cases entry with
          | message p body => exact Config.undisturbed.calm spared coming
          | down node =>
              exact ⟨rfl, Config.waitersBlocked.blocked blocked coming⟩
  | crash n => trivial
  | snapshot n => exact ⟨rfl, traced⟩
  | join n position => exact fun _ => cleared n
  | save n => trivial
  | restore n index => exact traced

/-- The sections of a member that knows of the release of a resource without an
owner name the agreed owner, in every run whose steps meet the conditions. -/
theorem sections_name_agreed_owner (cleared : ∀ n, Cleared (c.env n))
    (run : c.system.Run c.traced (initial members) s)
    (member : (s.site n).status = .member) (knows : c.knowsRelease s n) :
    ∀ section_ ∈ storePlocks (c.env n) (s.site n).node.ls,
      c.NamesOwner (s.log.take (s.site n).position) section_ := by
  have tidy : c.Tidy unrestricted := fun n _ => (cleared n).1
  have sound : (c.simulation .none tidy).Sound s :=
    Simulation.sound_of_run run (initial_sound tidy)
      fun _ _ traced => traced.allowed cleared
  obtain ⟨_, ls, follows⟩ := Simulation.Sound.member sound member
  intro section_ stored
  rw [storePlocks, ls] at stored
  obtain ⟨r, found, written⟩ := List.mem_filterMap.mp stored
  have ours : c.resource s n = some r := by
    simpa [hosting] using found
  have number := follows.numbered r ours
  rw [ours] at follows
  have agreed := follows.sectionOwner (knows r ours)
  obtain ⟨owner, named, rfl⟩ := Option.map_eq_some_iff.mp written
  rw [agreed] at named
  rw [number]
  have history := explained (s.log.take (s.site n).position)
  have same : (c.agreement unrestricted .none).upTo s.log
      (s.site n).position = agreedAfter (s.log.take (s.site n).position) :=
    rfl
  rw [same] at named
  cases state : agreedAfter (s.log.take (s.site n).position) with
  | none =>
      rw [state] at named
      cases named
  | owned holder asked table =>
      rw [state] at named history
      obtain ⟨front, back, body, last, kept⟩ := history
      refine ⟨holder, front, back, body, last, .inr ⟨kept, ?_⟩⟩
      rw [← Option.some.inj named]
  | unowned table =>
      rw [state] at named history
      obtain ⟨holder, front, back, body, last, ended⟩ := history
      refine ⟨holder, front, back, body, last, .inl ⟨ended, ?_⟩⟩
      rw [← Option.some.inj named]

end Runs

instance (coming : Option (Entry Nodeid Body)) :
    Decidable (unfailing coming) := by
  rcases coming with _ | _ | _ <;> unfold unfailing <;> infer_instance

instance (c : Config) (s : State) (n : Nodeid) (status : Status) :
    Decidable (c.tracedDelivery s n status) := by
  rcases status <;> unfold Config.tracedDelivery <;> infer_instance

instance (c : Config) (s : State) (n : Nodeid) :
    Decidable (c.knowsRelease s n) :=
  inferInstanceAs (Decidable (∀ _ ∈ c.resource s n, _))

instance (c : Config) (s : State) (label : Label) :
    Decidable (c.traced s label) := by
  rcases label <;> unfold Config.traced <;> infer_instance

/-- Node 1 claims the resource, node 2 asks for it and stores a checkpoint that
names node 1, with which node 3 joins.  The hand-over goes on, and node 3 is
delivered the release. -/
def chainRun : List Label :=
  [.act node1 (.read (kernelOp .lock 1 1 0 5)), .order node1,
    .deliver node1, .deliver node2,
    .act node2 (.read (kernelOp .lock 1 1 0 5)), .order node2,
    .snapshot node2, .join node3 1, .save node3, .deliver node3,
    .restore node3 0, .deliver node1, .order node1, .order node1,
    .deliver node3, .deliver node3]

theorem joined_node_names_owner :
    ∃ s, tidy.system.Run tidy.traced (initial firstTwo) s ∧
      storePlocks (tidy.env node3) (s.site node3).node.ls ≠ [] ∧
      ∀ section_ ∈ storePlocks (tidy.env node3) (s.site node3).node.ls,
        tidy.NamesOwner (s.log.take (s.site node3).position) section_ := by
  let s := tidy.system.follow (initial firstTwo) chainRun
  have run : tidy.system.Run tidy.traced (initial firstTwo) s :=
    System.run_of_follows _ .refl (by decide)
  exact ⟨s, run, by decide, sections_name_agreed_owner
    (fun _ => ⟨fun _ => rfl, fun _ => rfl⟩) run (by decide) (by decide)⟩

/-- Node 1 owns the resource and fails. -/
def ownerFailure : List Label :=
  [.act node1 (.read (kernelOp .lock 1 1 0 5)), .order node1,
    .deliver node1, .deliver node2, .deliver node3, .crash node1,
    .deliver node2]

/-- Node 2 then stores itself as the owner, not 0. -/
theorem survivor_stores_itself :
    ∃ s, tidy.system.Run (fun _ _ => True) trio s ∧
      (s.site node2).status = .member ∧
      ∃ section_ ∈ storePlocks (tidy.env node2) (s.site node2).node.ls,
        ¬tidy.NamesOwner (s.log.take (s.site node2).position) section_ := by
  let s := tidy.system.follow trio ownerFailure
  let claim : Body := { type := .own, info := ownInfo 7 1 }
  have run : tidy.system.Run (fun _ _ => True) trio s :=
    System.run_of_follows _ .refl (by decide)
  have log : s.log.take (s.site node2).position =
      [.message node1 claim, .down node1] := by decide
  have stored : storePlocks (tidy.env node2) (s.site node2).node.ls =
      [{ id := sectionId 7 2, data := [] }] := by decide
  refine ⟨s, run, by decide, { id := sectionId 7 2, data := [] }, ?_, ?_⟩
  · rw [stored]
    exact List.mem_singleton_self _
  · rw [log]
    rintro ⟨owner, front, back, body, last, named⟩
    have split := last.split
    cases front with
    | nil =>
        obtain ⟨first, rest⟩ := List.cons.inj split
        obtain ⟨same, _⟩ := Entry.message.inj first
        rcases named with ⟨_, zero⟩ | ⟨kept, _⟩
        · exact absurd zero (by decide)
        · apply kept (.down node1)
          · rw [← rest]
            exact List.mem_singleton_self _
          · exact same
    | cons head tail =>
        obtain ⟨_, rest⟩ := List.cons.inj split
        cases tail with
        | nil =>
            have impossible := (List.cons.inj rest).1
            cases impossible
        | cons second others =>
            have shorter := (List.cons.inj rest).2
            simp at shorter

end Dlm.Cluster
