import Dlm.Cluster.Runs
import Mathlib.Tactic.MkIffOfInductiveProp

/-!
# Agreement on drops

In an orderly run a `PLOCK_DROP` message frees the resource on all nodes that
have it or on none: `_receive_drop` decides by the agreed state.  Without the
condition a second drop, sent before the first was delivered, finds a node that
has released the recreated resource already while the others have not seen its
`OWN 0`.
-/

namespace Dlm.Cluster

open Plock Broadcast

/-- The node is about to be delivered an entry at a position of the log. -/
@[mk_iff]
structure Delivers (s : State) (n : Nodeid) (position : Nat)
    (entry : Entry Nodeid Body) : Prop where
  present : (s.site n).status ≠ .absent
  position : (s.site n).position = position
  coming : s.coming n = some entry

instance (s : State) (n : Nodeid) (position : Nat)
    (entry : Entry Nodeid Body) : Decidable (Delivers s n position entry) :=
  decidable_of_iff _ (delivers_iff s n position entry).symm

/-- The node has no resource after the delivery. -/
def Config.frees (c : Config) (s : State) (n : Nodeid) : Prop :=
  c.resource (c.system.next s (.deliver n)) n = none

/-- The agreed state lets a drop free the resource. -/
def Agreed.Droppable (g : Agreed) : Prop :=
  ∃ table, g = .unowned table ∧ table.isEmpty = true

section Drops

variable {c : Config} {mode : Mode} {n : Nodeid} {r : Resource}
variable {out : List Body} {g : Agreed} {body : Body} {s : State}

/-- Whether a node frees its resource is decided by the agreed state. -/
theorem Config.Follows.frees_iff (follows : c.Follows mode n (some r) out g)
    (isDrop : body.type = .drop) (drops : mode.drops = true)
    (calm : c.Calm mode (some r) out body) :
    receiveDrop1 (some r) = none ↔ g.Droppable := by
  have next := follows.drop isDrop drops calm
  constructor
  · intro freed
    rw [freed] at next
    cases g with
    | none =>
        cases follows with
        | unclaimed _ owner =>
            rw [receiveDrop1_owned (by rw [owner]; decide)] at freed
            cases freed
    | owned owner asked table =>
        simp only [Agreed.drop] at next
        cases next
    | unowned table =>
        by_cases empty : table.isEmpty = true
        · exact ⟨table, rfl, empty⟩
        · rw [Agreed.drop, if_neg empty] at next
          cases next
  · rintro ⟨table, rfl, empty⟩
    cases follows with
    | shared number owner pending same =>
        rw [← same, Table.isEmpty, Resource.table] at empty
        simp only [List.isEmpty_map] at empty
        simp [receiveDrop1, owner, pending, empty]

/-- What a delivery of a drop leaves of the node's resource. -/
theorem resource_after_drop {slot : Option Resource} {p : Nodeid}
    (ls : (s.site n).node.ls = hosting false slot)
    (numbered : ∀ r, slot = some r → r.number = c.number)
    (coming : s.coming n = some (.message p body))
    (isDrop : body.type = .drop) (named : body.info.number = c.number) :
    c.resource (c.system.next s (.deliver n)) n = receiveDrop1 slot := by
  have kind : (body.message p).type = .drop := isDrop
  have handled := handle_message (n := n) p ls numbered named
  simp only [receiveSlot, kind] at handled
  have kept : ∀ r, receiveDrop1 slot = some r → r.number = c.number := by
    intro r left
    rcases receiveDrop1_cases slot with freed | kept
    · rw [freed] at left
      cases left
    · exact numbered r (kept.symm.trans left)
  simp only [Config.resource, Config.system, Algorithm.system, Algorithm.next,
    coming, State.put, Function.update_self, Site.commit, handled,
    Daemon.commit]
  exact searchResource_toList kept

/-- A node that is delivered a drop. -/
theorem frees_of_orderly {members : Nodeid → Bool} {position : Nat}
    {p : Nodeid} (run : c.system.Run c.orderly (initial members) s)
    (delivers : Delivers s n position (.message p body))
    (isDrop : body.type = .drop) (ok : c.orderly s (.deliver n))
    (has : (c.resource s n).isSome) :
    c.frees s n ↔ (c.agreedAt s position).Droppable := by
  obtain ⟨present, rfl, coming⟩ := delivers
  obtain ⟨_, ls, follows⟩ := follows_of_orderly run present
  have chain := (sound_of_orderly run).chain.drop (s.site n).position
  rw [drop_of_coming coming] at chain
  have named : body.info.number = c.number := chain.1.1
  rw [Config.frees,
    resource_after_drop ls follows.numbered coming isDrop named]
  obtain ⟨r, found⟩ := Option.isSome_iff_exists.mp has
  have calm : c.Calm dropping _ _ body := ok.2.calm coming
  rw [found] at follows calm ⊢
  exact follows.frees_iff isDrop rfl calm

/-- In an orderly run, two nodes that have the resource when they are
delivered the same drop both free it or both keep it. -/
theorem drop_agreement {members : Nodeid → Bool} {s₁ s₂ : State}
    {n₁ n₂ p : Nodeid} {position : Nat}
    (run₁ : c.system.Run c.orderly (initial members) s₁)
    (run₂ : c.system.Run c.orderly s₁ s₂)
    (isDrop : body.type = .drop)
    (delivers₁ : Delivers s₁ n₁ position (.message p body))
    (delivers₂ : Delivers s₂ n₂ position (.message p body))
    (ok₁ : c.orderly s₁ (.deliver n₁)) (ok₂ : c.orderly s₂ (.deliver n₂))
    (has₁ : (c.resource s₁ n₁).isSome) (has₂ : (c.resource s₂ n₂).isSome) :
    c.frees s₁ n₁ ↔ c.frees s₂ n₂ := by
  have bound : position ≤ s₁.log.length := by
    have inside := List.getElem?_eq_some_iff.mp delivers₁.coming
    rw [delivers₁.position] at inside
    exact Nat.le_of_lt inside.1
  have same : c.agreedAt s₂ position = c.agreedAt s₁ position := by
    obtain ⟨more, grown⟩ := log_of_run run₂
    rw [Config.agreedAt, ← grown, Agreement.upTo_append bound]
  rw [frees_of_orderly run₁ delivers₁ isDrop ok₁ has₁,
    frees_of_orderly (run₁.trans run₂) delivers₂ isDrop ok₂ has₂, same]

end Drops

instance (c : Config) (s : State) (n : Nodeid) : Decidable (c.frees s n) :=
  inferInstanceAs (Decidable (_ = _))

/-- The body of a `PLOCK_DROP` message of the concrete runs. -/
def dropBody : Body :=
  { type := .drop, info := { Info.cleared with number := 7 } }

/-- Node 1 takes a lock, releases it and gives the resource up; all nodes have
seen this. -/
def releaseRun : List Label :=
  [.act node1 (.read (kernelOp .lock 1 1 0 5)), .order node1,
    .deliver node1, .deliver node2, .deliver node3,
    .act node1 (.read (kernelOp .unlock 1 1 0 5)),
    .act node1 (.drop true), .order node1,
    .deliver node1, .deliver node2, .deliver node3]

def dropRun : List Label :=
  releaseRun ++ [.act node1 (.drop true), .order node1]

/-- After a release a single drop frees the resource everywhere. -/
theorem single_drop_frees_everywhere :
    tidy.frees (tidy.system.follow trio dropRun) node1 ∧
      tidy.frees (tidy.system.follow (tidy.system.follow trio dropRun)
        [.deliver node1]) node2 := by
  have run₁ : tidy.system.Run tidy.orderly trio
      (tidy.system.follow trio dropRun) :=
    System.run_of_follows _ .refl (by decide)
  have run₂ : tidy.system.Run tidy.orderly
      (tidy.system.follow trio dropRun)
      (tidy.system.follow (tidy.system.follow trio dropRun)
        [.deliver node1]) :=
    System.run_of_follows _ .refl (by decide)
  have freed : tidy.frees (tidy.system.follow trio dropRun) node1 := by
    decide
  refine ⟨freed, (drop_agreement run₁ run₂ (show dropBody.type = .drop from
    rfl) (show Delivers _ node1 2 (.message node1 dropBody) by decide)
    (by decide) (by decide) (by decide) (by decide) (by decide)).mp freed⟩

/-- Nodes 1 and 2 both send a drop.  Before the second is delivered, node 1
creates the resource again and releases it to node 3: it frees the resource,
which node 2 still takes for owned by node 1. -/
theorem second_drop_divides_nodes :
    ∃ s₁ s₂,
      tidy.system.Run (fun _ => fixedMembership) trio s₁ ∧
      tidy.system.Run (fun _ => fixedMembership) s₁ s₂ ∧
      Delivers s₁ node1 5 (.message node2 dropBody) ∧
      Delivers s₂ node2 5 (.message node2 dropBody) ∧
      (tidy.resource s₁ node1).isSome ∧ (tidy.resource s₂ node2).isSome ∧
      tidy.frees s₁ node1 ∧ ¬tidy.frees s₂ node2 := by
  let s₁ := tidy.system.follow trio (releaseRun ++
    [.act node1 (.drop true), .act node2 (.drop true), .order node1,
      .deliver node1, .deliver node3,
      .act node1 (.read (kernelOp .lock 1 1 0 5)), .order node1,
      .act node3 (.read (kernelOp .lock 1 1 0 5)), .order node3, .order node2,
      .deliver node1, .act node1 (.read (kernelOp .unlock 1 1 0 5)),
      .deliver node1])
  let s₂ := tidy.system.follow s₁
    [.deliver node2, .deliver node2, .deliver node2]
  have run₁ : tidy.system.Run (fun _ => fixedMembership) trio s₁ :=
    System.run_of_follows _ .refl (by decide)
  have run₂ : tidy.system.Run (fun _ => fixedMembership) s₁ s₂ :=
    System.run_of_follows _ .refl (by decide)
  exact ⟨s₁, s₂, run₁, run₂, by decide, by decide, by decide, by decide,
    by decide, by decide⟩

end Dlm.Cluster
