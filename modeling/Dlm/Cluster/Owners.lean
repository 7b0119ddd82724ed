import Dlm.Cluster.Runs

/-!
# One owner, equal tables

Nodes may fail, nothing is dropped and nobody joins.  At most one live node
takes itself for the owner of the resource, and nodes that are at the same
position of the log and take the resource for unowned have the same table,
provided that no failure is delivered to a releasing owner with a waiter that
`do_waiters` would grant.
-/

namespace Dlm.Cluster

open Plock Broadcast

instance (r : Resource) : Decidable (AllBlocked r) :=
  inferInstanceAs (Decidable (∀ w ∈ r.waiters, _))

/-- Nobody joins and no `PLOCK_DROP` message is sent. -/
def Config.dropless (c : Config) (s : State) : Label → Prop
  | .act n action =>
      ∀ body ∈ (c.act n action (s.site n).node).2, body.type ≠ .drop
  | .order _ => True
  | .deliver _ => True
  | .crash _ => True
  | _ => False

instance (c : Config) (s : State) (label : Label) :
    Decidable (c.dropless s label) := by
  rcases label <;> unfold Config.dropless <;> infer_instance

/-- A failure does not reach a releasing owner that has a waiter which nothing
blocks. -/
def Config.sparesWaiters (c : Config) (out : List Body) :
    Option (Entry Nodeid Body) → Option Resource → Prop
  | some (.down _), some r => releaseBody c.number ∈ out → AllBlocked r
  | _, _ => True

instance (c : Config) (out : List Body)
    (coming : Option (Entry Nodeid Body)) (slot : Option Resource) :
    Decidable (c.sparesWaiters out coming slot) := by
  rcases coming with _ | _ | _ <;> rcases slot <;> unfold Config.sparesWaiters <;>
    infer_instance

def Config.waitersBlocked (c : Config) (s : State) : Label → Prop
  | .deliver n =>
      c.sparesWaiters (s.outstanding n) (s.coming n) (c.resource s n)
  | _ => True

instance (c : Config) (s : State) (label : Label) :
    Decidable (c.waitersBlocked s label) := by
  rcases label <;> unfold Config.waitersBlocked <;> infer_instance

def Config.steadyStep (c : Config) (s : State) (label : Label) : Prop :=
  c.dropless s label ∧ c.waitersBlocked s label

instance (c : Config) (s : State) (label : Label) :
    Decidable (c.steadyStep s label) :=
  inferInstanceAs (Decidable (_ ∧ _))

/-- Nothing is dropped, nobody joins. -/
def steady : Mode :=
  { drops := false, stores := fun _ => false, foreign := false }

section Runs

variable {c : Config} {s : State} {label : Label} {members : Nodeid → Bool}
variable {n : Nodeid}

theorem steady_tidy : c.Tidy steady := by
  intro n stores
  cases stores

theorem Config.dropless.joining (dropless : c.dropless s label) :
    label.joining = false := by
  cases label <;> first | rfl | cases dropless

theorem Config.waitersBlocked.blocked {node : Nodeid}
    (blocked : c.waitersBlocked s (.deliver n))
    (coming : s.coming n = some (.down node)) :
    ∀ r, c.resource s n = some r →
      releaseBody c.number ∈ s.outstanding n → AllBlocked r := by
  intro r found
  simp only [Config.waitersBlocked, coming, found] at blocked
  exact blocked

theorem Config.steadyStep.allowed (step : c.steadyStep s label)
    (settled : Settled s) :
    (c.simulation .none steady_tidy).Allowed s label := by
  obtain ⟨dropless, blocked⟩ := step
  cases label with
  | act n action => exact ⟨settled n, fun _ => dropless⟩
  | order n => trivial
  | deliver n =>
      intro entry coming
      rcases settled n with absent | member
      · rw [absent]
        trivial
      · rw [member]
        cases entry with
        | message p body =>
            intro drops
            cases drops
        | down node => exact ⟨rfl, blocked.blocked coming⟩
  | crash n => trivial
  | snapshot n => cases dropless
  | join n position => cases dropless
  | save n => cases dropless
  | restore n index => cases dropless

theorem sound_of_steady
    (run : c.system.Run c.steadyStep (initial members) s) :
    (c.simulation .none steady_tidy).Sound s := by
  have settled := run_settled run initial_settled
    fun _ _ permitted => permitted.1.joining
  exact Simulation.sound_of_run settled (initial_sound steady_tidy)
    fun _ _ permitted => permitted.1.allowed permitted.2

theorem settled_of_steady
    (run : c.system.Run c.steadyStep (initial members) s) : Settled s :=
  run.invariant Settled initial_settled
    fun _ _ _ permitted settled => settled.next permitted.1.joining

end Runs

section Agree

variable {c : Config} {mode : Mode} {s : State} {g : Agreed}
variable {n m : Nodeid} {r q : Resource} {out more : List Body}

/-- A node that takes itself for the owner is the agreed owner. -/
theorem Config.Follows.self_owner (follows : c.Follows mode n (some r) out g)
    (ours : r.owner = n.val) :
    g.OwnedBy n ∧ ∀ body ∈ out, c.Early mode n body := by
  cases follows with
  | unclaimed _ owner =>
      exact absurd (ours.symm.trans owner) n.ne_minus_one
  | follower other _ owner =>
      exact absurd (Subtype.ext (owner.symm.trans ours)) other
  | owner _ _ _ _ _ early => exact ⟨⟨_, _, rfl⟩, early⟩
  | releasing _ _ _ _ _ owner =>
      exact absurd (ours.symm.trans owner) n.ne_zero
  | shared _ owner => exact absurd (ours.symm.trans owner) n.ne_zero

/-- Two nodes that take the resource for unowned in the same agreed state have
the same table. -/
theorem Config.Follows.unowned_table (different : n ≠ m)
    (follows : c.Follows mode n (some r) out g)
    (others : c.Follows mode m (some q) more g)
    (unowned : r.owner = 0) (alsoUnowned : q.owner = 0) :
    r.table = q.table := by
  cases follows with
  | unclaimed _ owner => exact absurd (owner.symm.trans unowned) (by decide)
  | @follower _ _ holder _ _ _ _ owner =>
      exact absurd (owner.symm.trans unowned) holder.ne_zero
  | owner _ owner => exact absurd (owner.symm.trans unowned) n.ne_zero
  | releasing =>
      cases others with
      | follower _ _ owner =>
          exact absurd (owner.symm.trans alsoUnowned) n.ne_zero
      | owner => exact absurd rfl different
      | releasing => exact absurd rfl different
  | shared _ _ _ same =>
      cases others with
      | shared _ _ _ alsoSame => rw [same, alsoSame]

/-- An owner that has sent no release is still the owner wherever the log has
got to. -/
theorem Config.Follows.owner_later {start : Agreed} {queue : List Body}
    {log : List (Entry Nodeid Body)} {first last : Nat}
    (chain : (c.agreement mode start).Chain start log)
    (alive : .down n ∉ log.drop first) (ordered : first ≤ last)
    (follows : c.Follows mode n (some r) (own n (log.drop first) ++ queue)
      ((c.agreement mode start).upTo log first))
    (ours : r.owner = n.val) :
    ((c.agreement mode start).upTo log last).OwnedBy n := by
  have kept := Agreement.walk_to
    (P := fun g out => g.OwnedBy n ∧ ∀ body ∈ out, c.Early mode n body)
    ?_ chain alive ordered (follows.self_owner ours)
  · exact kept.1
  · rintro entry out g ⟨owned, early⟩ admitted survives
    cases entry with
    | message p body =>
        refine ⟨owned.receive admitted ?_, fun found member =>
          early found (List.mem_append_right _ member)⟩
        intro same
        subst same
        have sent : c.Early mode p body :=
          early body (by simp [own_message_self])
        exact sent.not_release
    | down node =>
        have other : node ≠ n := by
          rintro rfl
          exact survives rfl
        exact ⟨(Agreed.owned_remove_iff other).mpr owned, early⟩

end Agree

/-- The node is alive and has the resource. -/
structure Config.Has (c : Config) (s : State) (n : Nodeid) (r : Resource) :
    Prop where
  present : (s.site n).status ≠ .absent
  found : c.resource s n = some r

section Steady

variable {c : Config} {s : State} {members : Nodeid → Bool}
variable {n m : Nodeid} {r q : Resource}

theorem Config.Has.follows (has : c.Has s n r)
    (run : c.system.Run c.steadyStep (initial members) s) :
    .down n ∉ s.log.drop (s.site n).position ∧
      c.Follows steady n (some r) (s.outstanding n)
        ((c.agreement steady .none).upTo s.log (s.site n).position) := by
  have member := (settled_of_steady run n).resolve_left has.present
  have sound := sound_of_steady run
  have placed := sound.placed n
  simp only [Simulation.Placed, member] at placed
  obtain ⟨_, _, follows⟩ := Simulation.Sound.member sound member
  rw [has.found] at follows
  exact ⟨placed.2.1, follows⟩

/-- The owner that lags behind is the owner that is ahead. -/
theorem Config.Has.same_owner (has : c.Has s n r) (alsoHas : c.Has s m q)
    (run : c.system.Run c.steadyStep (initial members) s)
    (behind : (s.site n).position ≤ (s.site m).position)
    (ours : r.owner = n.val) (theirs : q.owner = m.val) : n = m := by
  obtain ⟨alive, follows⟩ := has.follows run
  obtain ⟨_, alsoFollows⟩ := alsoHas.follows run
  obtain ⟨_, _, owned⟩ := follows.owner_later (sound_of_steady run).chain
    alive behind ours
  obtain ⟨_, _, alsoOwned⟩ := (alsoFollows.self_owner theirs).1
  rw [owned] at alsoOwned
  exact (Agreed.owned.inj alsoOwned).1

/-- In a run without drops and joins in which no failure is delivered to a
releasing owner with an unblocked waiter, at most one live node takes itself
for the owner, and live nodes at the same position of the log that take the
resource for unowned have the same locks and waiters. -/
theorem one_owner_and_equal_tables
    (run : c.system.Run c.steadyStep (initial members) s) :
    (∀ n₁ n₂ r₁ r₂, c.Has s n₁ r₁ → c.Has s n₂ r₂ →
      r₁.owner = n₁.val → r₂.owner = n₂.val → n₁ = n₂) ∧
    ∀ n₁ n₂ r₁ r₂, c.Has s n₁ r₁ → c.Has s n₂ r₂ →
      (s.site n₁).position = (s.site n₂).position →
      r₁.owner = 0 → r₂.owner = 0 → r₁.table = r₂.table := by
  refine ⟨?_, ?_⟩
  · intro n₁ n₂ r₁ r₂ has₁ has₂ ours₁ ours₂
    rcases Nat.le_total (s.site n₁).position (s.site n₂).position with
      behind | ahead
    · exact has₁.same_owner has₂ run behind ours₁ ours₂
    · exact (has₂.same_owner has₁ run ahead ours₂ ours₁).symm
  · intro n₁ n₂ r₁ r₂ has₁ has₂ position unowned₁ unowned₂
    by_cases same : n₁ = n₂
    · subst same
      rw [Option.some.inj (has₁.found.symm.trans has₂.found)]
    · have follows₁ := (has₁.follows run).2
      rw [position] at follows₁
      exact follows₁.unowned_table same (has₂.follows run).2 unowned₁
        unowned₂

end Steady

/-- Node 1 owns the resource and has carried out some operations, node 2 asks
for it, and node 3 fails before the answer of node 1 is ordered.  Nodes 1 and
2 are then delivered everything, an answer of `announced` messages and the
`OWN 0`. -/
def handOverRun (operations : List Info) (announced : Nat) : List Label :=
  [.act node1 (.read (kernelOp .lock 1 1 0 10)), .order node1,
    .deliver node1] ++
  operations.map (fun info => .act node1 (.read info)) ++
  [.deliver node2, .act node2 (.read (kernelOp .lock 1 1 40 50)), .order node2,
    .deliver node1, .crash node3, .deliver node1] ++
  List.replicate (announced + 1) (.order node1) ++
  List.replicate (announced + 1) (.deliver node1) ++
  List.replicate (announced + 3) (.deliver node2)

/-- A holder waits for a lock of another during the hand-over. -/
def blockedRun : List Label :=
  handOverRun [kernelOp .lock 0 3 0 5] 2

theorem equal_tables_after_failure :
    ∃ s r₁ r₂, tidy.system.Run tidy.steadyStep trio s ∧
      tidy.Has s node1 r₁ ∧ tidy.Has s node2 r₂ ∧
      (s.site node1).position = 6 ∧ (s.site node2).position = 6 ∧
      r₁.owner = 0 ∧ r₂.owner = 0 ∧ r₁.locks ≠ [] ∧ r₁.waiters ≠ [] ∧
      r₁.table = r₂.table := by
  let s := tidy.system.follow trio blockedRun
  have run : tidy.system.Run tidy.steadyStep trio s :=
    System.run_of_follows _ .refl (by decide)
  have has₁ : tidy.Has s node1 ((tidy.resource s node1).get (by decide)) :=
    ⟨by decide, (Option.some_get _).symm⟩
  have has₂ : tidy.Has s node2 ((tidy.resource s node2).get (by decide)) :=
    ⟨by decide, (Option.some_get _).symm⟩
  refine ⟨s, _, _, run, has₁, has₂, by decide, by decide, by decide,
    by decide, by decide, by decide, ?_⟩
  exact (one_owner_and_equal_tables run).2 node1 node2 _ _ has₁ has₂
    (by decide) (by decide) (by decide)

/-- The operations of one node leave a waiter that nothing blocks: the shared
request of holder 1 is granted in the pass that has skipped holder 3. -/
def strandingOperations : List Info :=
  [kernelOp .lock 1 2 20 30, kernelOp .lock 0 3 0 5,
    kernelOp .lock 0 1 0 30, kernelOp .unlock 0 2 20 30]

/-- The failure of node 3 makes the releasing node 1 grant a waiter that it has
announced as waiting. -/
theorem failure_divides_tables :
    ∃ s r₁ r₂, tidy.system.Run tidy.dropless trio s ∧
      tidy.Has s node1 r₁ ∧ tidy.Has s node2 r₂ ∧
      (s.site node1).position = (s.site node2).position ∧
      r₁.owner = 0 ∧ r₂.owner = 0 ∧ r₁.table ≠ r₂.table := by
  let s := tidy.system.follow trio (handOverRun strandingOperations 2)
  have run : tidy.system.Run tidy.dropless trio s :=
    System.run_of_follows _ .refl (by decide)
  have has₁ : tidy.Has s node1 ((tidy.resource s node1).get (by decide)) :=
    ⟨by decide, (Option.some_get _).symm⟩
  have has₂ : tidy.Has s node2 ((tidy.resource s node2).get (by decide)) :=
    ⟨by decide, (Option.some_get _).symm⟩
  exact ⟨s, _, _, run, has₁, has₂, by decide, by decide, by decide,
    by decide⟩

end Dlm.Cluster
