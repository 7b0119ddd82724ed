import Dlm.Cluster.Drop

/-!
# No operation stays pending

Operations are pending while the node waits for an owner of the resource, and
then the node has claimed the resource or another node has been asked for it.
The exception is a `PLOCK` message of the node itself that comes back after the
resource was dropped and claimed by another node: `_receive_plock` makes it
pending and claims nothing.
-/

namespace Dlm.Cluster

open Plock Broadcast

/-- The message with which a node claims the resource. -/
def claimBody (number : UInt64) (n : Nodeid) : Body :=
  { type := .own, info := ownInfo number n.val }

/-- The owner has been asked for the resource. -/
def Agreed.Asked (g : Agreed) : Prop :=
  ∃ owner table, g = .owned owner true table

/-- Operations of the node wait for an owner. -/
def Parked (slot : Option Resource) : Prop :=
  ∃ r, slot = some r ∧ r.pending ≠ []

/-- An operation of the node comes back to it while another node owns the
resource, or nobody, and no operation is pending yet. -/
def Config.strays (n : Nodeid) :
    Option (Entry Nodeid Body) → Option Resource → Prop
  | some (.message p body), some r =>
      p = n ∧ body.type = .plock ∧ r.owner ≠ 0 ∧ r.owner ≠ n.val ∧
        r.pending = []
  | _, _ => False

instance (n : Nodeid) (coming : Option (Entry Nodeid Body))
    (slot : Option Resource) : Decidable (Config.strays n coming slot) := by
  rcases coming with _ | _ | _ <;> rcases slot <;> unfold Config.strays <;>
    infer_instance

section Handlers

variable {c : Config} {mode : Mode} {n : Nodeid} {slot : Option Resource}
variable {r : Resource} {body : Body}

theorem claim_of_sendOwn (number : r.number = c.number)
    (empty : r.pending = []) :
    claimBody c.number n ∈ bodies (sendOwn r n.val) := by
  simp [sendOwn, empty, sendStructInfo, claimBody, number]

@[simp] theorem parked_none : ¬Parked none := by
  rintro ⟨r, found, _⟩
  cases found

@[simp] theorem parked_some : Parked (some r) ↔ r.pending ≠ [] := by
  simp [Parked]

theorem parked_receivePlock2 {info : Info} {sender : Int32} :
    Parked (receivePlock2 (c.env n) info sender r).1 ↔ Parked (some r) := by
  rw [receivePlock2_owned (c.ownership n)]
  simp

/-- An operation read from the kernel becomes pending only with a claim. -/
theorem processPlock_parked {info : Info} (named : info.number = c.number)
    (numbered : ∀ r, slot = some r → r.number = c.number)
    (parked : Parked (processPlock (c.env n) info slot).1) :
    Parked slot ∨
      claimBody c.number n ∈ bodies (processPlock (c.env n) info slot).2 := by
  have before : (slot.getD (newResource (c.env n) info.number)).pending ≠
      [] → Parked slot := by
    cases slot with
    | none => exact fun queued => absurd rfl queued
    | some r => exact parked_some.mpr
  have number : (slot.getD (newResource (c.env n) info.number)).number =
      c.number := by
    cases slot with
    | none => exact named
    | some r => exact numbered r rfl
  unfold processPlock at parked ⊢
  generalize slot.getD (newResource (c.env n) info.number) = r at *
  dsimp only at parked ⊢
  rw [c.ourNodeid] at parked ⊢
  split at parked
  · exact .inl (before (parked_some.mp parked))
  · split at parked
    · exact .inl (before (parked_some.mp (parked_receivePlock2.mp parked)))
    · rename_i unshared notOurs
      rw [if_neg unshared, if_neg notOurs]
      by_cases empty : r.pending = []
      · exact .inr (claim_of_sendOwn number empty)
      · exact .inl (before empty)

/-- The operation that becomes pending on a resource strays, or others are
pending already. -/
theorem receivePlockFound_parked {p : Nodeid} (isPlock : body.type = .plock)
    (tracked : ¬Config.strays n (some (.message p body)) (some r))
    (parked : Parked (receivePlockFound (c.env n) body.info p.val r).1) :
    Parked (some r) := by
  have saved (same : p.val = n.val) (unshared : r.owner ≠ 0)
      (notOurs : r.owner ≠ n.val) : Parked (some r) := by
    rw [parked_some]
    intro empty
    exact tracked
      ⟨Subtype.ext same, isPlock, unshared, notOurs, empty⟩
  by_cases shared : r.owner = 0
  · rw [receivePlockFound_shared p shared] at parked
    exact parked_receivePlock2.mp parked
  · by_cases ours : r.owner = n.val
    · rw [receivePlockFound_ours p ours] at parked
      split at parked
      · exact parked_receivePlock2.mp parked
      · exact parked
    · rw [receivePlockFound_waiting p shared ours] at parked
      by_cases same : p = n
      · exact saved (congrArg _ same) shared ours
      · rw [if_neg same] at parked
        exact parked

/-- An operation that is delivered becomes pending only with a claim, unless it
strays. -/
theorem receivePlock1_parked {p : Nodeid}
    (named : body.info.number = c.number) (isPlock : body.type = .plock)
    (tracked : ¬Config.strays n (some (.message p body)) slot)
    (parked : Parked (receivePlock1 (c.env n) (body.message p) slot).1) :
    Parked slot ∨ claimBody c.number n ∈
      bodies (receivePlock1 (c.env n) (body.message p) slot).2 := by
  have owned : (!(c.env n).plockOwnership) = false := by
    rw [c.ownership]
    rfl
  unfold receivePlock1 at parked ⊢
  dsimp only [Body.message] at parked ⊢
  rw [owned, c.ourNodeid] at parked ⊢
  split at parked
  · exact .inl parked
  · split at parked
    · exact .inl parked
    · rename_i heard honest
      rw [if_neg heard, if_neg honest]
      cases slot with
      | none =>
          dsimp only [findResource] at parked ⊢
          rw [if_neg (by decide)] at parked ⊢
          dsimp only at parked ⊢
          split at parked
          · exact absurd parked parked_none
          · rename_i ours
            rw [if_neg ours]
            have claim := @claim_of_sendOwn c n
              (newResource (c.env n) body.info.number) named rfl
            exact .inr claim
      | some r =>
          left
          exact receivePlockFound_parked isPlock tracked parked

theorem addPendingLoop_parked {env : Env}
    (ownership : env.plockOwnership = true) (infos : List Info)
    (parked : Parked (addPendingLoop env infos r).1) : r.pending ≠ [] := by
  induction infos generalizing r with
  | nil => exact parked_some.mp parked
  | cons info later induction =>
      rw [addPendingLoop_cons ownership] at parked
      have rest := induction parked
      rwa [afterPlock_pending] at rest

/-- Nothing becomes pending by an ownership message. -/
theorem receiveOwn1_parked {p : Nodeid}
    (parked : Parked (receiveOwn1 (c.env n) (body.message p) slot).1) :
    Parked slot := by
  have before : (slot.getD (newResource (c.env n)
      body.info.number)).pending ≠ [] → Parked slot := by
    cases slot with
    | none => exact fun queued => absurd rfl queued
    | some r => exact parked_some.mpr
  apply before
  clear before
  by_cases same : p = n
  · subst same
    rw [receiveOwn1_us] at parked
    generalize slot.getD (newResource (c.env p) body.info.number) = r at *
    unfold receiveOwnFromUs at parked
    split at parked
    · split at parked
      · exact parked_some.mp parked
      · split at parked
        · have queued := parked_some.mp parked
          exact queued
        · exact parked_some.mp parked
    · split at parked
      · split at parked
        · exact absurd rfl (addPendingLoop_parked (c.ownership p) _ parked)
        · split at parked
          · exact parked_some.mp parked
          · split at parked
            · exact absurd rfl (parked_some.mp parked)
            · exact parked_some.mp parked
      · exact parked_some.mp parked
  · rw [receiveOwn1_other same] at parked
    generalize slot.getD (newResource (c.env n) body.info.number) = r at *
    unfold receiveOwnFromOther at parked
    split at parked
    · split at parked
      · exact parked_some.mp parked
      · split at parked
        · exact parked_some.mp parked
        · split at parked
          · exact parked_some.mp parked
          · exact absurd rfl (parked_some.mp parked)
    · split at parked
      · split at parked
        · have queued := parked_some.mp parked
          exact queued
        · split at parked
          · have queued := @parked_some { (sendSyncs r).1 with owner := 0 }
            exact queued.mp parked
          · exact parked_some.mp parked
      · exact parked_some.mp parked

theorem receiveSync1_parked {p : Nodeid}
    (parked : Parked (receiveSync1 (c.env n) (body.message p) slot).1) :
    Parked slot := by
  cases slot with
  | none => exact parked
  | some r =>
      apply parked_some.mpr
      unfold receiveSync1 at parked
      dsimp only at parked
      split at parked
      · have queued := parked_some.mp parked
        unfold clearSyncingFlag at queued
        split at queued
        · exact queued
        · exact queued
      · split at parked
        · have queued := parked_some.mp parked
          exact queued
        · split at parked
          · have queued := parked_some.mp parked
            exact queued
          · exact parked_some.mp parked

/-- A message makes an operation pending only with a claim, unless it
strays. -/
theorem receiveSlot_parked {p : Nodeid}
    (named : body.info.number = c.number)
    (tracked : ¬Config.strays n (some (.message p body)) slot)
    (parked : Parked (receiveSlot (c.env n) (body.message p) slot).1) :
    Parked slot ∨ claimBody c.number n ∈
      bodies (receiveSlot (c.env n) (body.message p) slot).2 := by
  unfold receiveSlot at parked ⊢
  cases kind : (body.message p).type with
  | plock =>
      rw [kind] at parked
      exact receivePlock1_parked named kind tracked parked
  | own =>
      rw [kind] at parked
      exact .inl (receiveOwn1_parked parked)
  | drop =>
      rw [kind] at parked
      rcases receiveDrop1_cases slot with freed | kept
      · simp [freed] at parked
      · simp only [kept] at parked
        exact .inl parked
  | syncLock =>
      rw [kind] at parked
      exact .inl (receiveSync1_parked parked)
  | syncWaiter =>
      rw [kind] at parked
      exact .inl (receiveSync1_parked parked)

end Handlers

/-- A node with pending operations has claimed the resource, or its owner has
been asked for it. -/
def Config.Claims (c : Config) (n : Nodeid) (daemon : Daemon)
    (out : List Body) (g : Agreed) : Prop :=
  ∀ slot, daemon.ls = hosting false slot → Parked slot →
    claimBody c.number n ∈ out ∨ g.Asked

section Claims

variable {c : Config} {mode : Mode} {n : Nodeid} {slot : Option Resource}
variable {daemon : Daemon} {out : List Body} {g : Agreed}
variable {entry : Entry Nodeid Body}

/-- Pending operations wait for another node or for the first claim. -/
theorem Config.Follows.unowned_of_parked
    (follows : c.Follows mode n slot out g) (parked : Parked slot) :
    g = .none ∨ ∃ owner asked table, owner ≠ n ∧
      g = .owned owner asked table := by
  cases follows with
  | absent => exact .inl rfl
  | unclaimed => exact .inl rfl
  | follower other => exact .inr ⟨_, _, _, other, rfl⟩
  | owner _ _ _ empty => exact absurd empty (parked_some.mp parked)
  | releasing _ _ _ _ _ _ _ empty =>
      exact absurd empty (parked_some.mp parked)
  | shared _ _ empty => exact absurd empty (parked_some.mp parked)

/-- A request to the owner is forgotten only with the ownership. -/
theorem Agreed.Asked.advance (asked : g.Asked) :
    (g.advance entry).Asked ∨ (g.advance entry).Shared := by
  obtain ⟨owner, table, rfl⟩ := asked
  cases entry with
  | message p body =>
      simp only [Agreed.advance, Agreed.receive]
      cases body.type with
      | plock => exact .inl ⟨owner, table, rfl⟩
      | own =>
          simp only [Agreed.own]
          split
          · split
            · exact .inr ⟨table, rfl⟩
            · exact .inl ⟨owner, table, rfl⟩
          · split
            · exact .inl ⟨owner, table, rfl⟩
            · exact .inl ⟨owner, table, rfl⟩
      | drop => exact .inl ⟨owner, table, rfl⟩
      | syncLock =>
          simp only [Agreed.sync]
          split
          · exact .inl ⟨owner, _, rfl⟩
          · exact .inl ⟨owner, table, rfl⟩
      | syncWaiter =>
          simp only [Agreed.sync]
          split
          · exact .inl ⟨owner, _, rfl⟩
          · exact .inl ⟨owner, table, rfl⟩
  | down node =>
      simp only [Agreed.advance, Agreed.remove]
      split
      · exact .inr ⟨_, rfl⟩
      · exact .inl ⟨owner, _, rfl⟩

/-- The claim of a node that still waits has asked the owner. -/
theorem Config.Follows.asked_of_claim
    (follows : c.Follows mode n slot out
      (g.receive n (claimBody c.number n)))
    (parked : Parked slot) : (g.receive n (claimBody c.number n)).Asked := by
  have waiting := follows.unowned_of_parked parked
  cases g with
  | none =>
      simp only [Agreed.receive, claimBody, ownInfo, Agreed.own, n.ne_zero,
        if_false, if_true] at waiting
      rcases waiting with nobody | ⟨owner, asked, table, other, owned⟩
      · cases nobody
      · exact absurd (Agreed.owned.inj owned).1.symm other
  | owned holder before announced =>
      simp only [Agreed.receive, claimBody, ownInfo, Agreed.own, n.ne_zero,
        if_false, if_true] at waiting ⊢
      rcases waiting with nobody | ⟨owner, asked, table, other, owned⟩
      · cases nobody
      · have same := (Agreed.owned.inj owned).1
        rw [← same] at other
        exact ⟨holder, announced, by simp [other]⟩
  | unowned table =>
      simp only [Agreed.receive, claimBody, ownInfo, Agreed.own, n.ne_zero,
        if_false, if_true] at waiting
      rcases waiting with nobody | ⟨owner, asked, announced, other, owned⟩
      · cases nobody
      · cases owned

theorem dropResource_pending (env : Env) (r : Resource) :
    (dropResource env r).1.pending = r.pending := by
  unfold dropResource
  split
  · rfl
  · split
    · rfl
    · rfl

/-- What the node had to wait for remains, or it claims the resource. -/
theorem Config.Claims.extend {sent : List Body}
    (claims : c.Claims n daemon out g)
    (ls : daemon.ls = hosting false slot)
    (either : Parked slot ∨ claimBody c.number n ∈ sent) :
    claimBody c.number n ∈ out ++ sent ∨ g.Asked := by
  rcases either with parked | claim
  · rcases claims slot ls parked with claimed | asked
    · exact .inl (List.mem_append_left _ claimed)
    · exact .inr asked
  · exact .inl (List.mem_append_right _ claim)

theorem Config.Claims.act {action : Action}
    (claims : c.Claims n daemon out g)
    (member : c.Member mode n daemon out g) :
    c.Claims n (c.act n action daemon).1
      (out ++ (c.act n action daemon).2) g := by
  obtain ⟨slot, ls, follows⟩ := member
  intro next found parked
  cases action with
  | read info =>
      rw [act_read info ls follows.numbered] at found ⊢
      rw [← hosting_injective found] at parked
      apply claims.extend ls
      exact processPlock_parked rfl follows.numbered parked
  | drop aged =>
      rcases act_drop aged ls with kept | ⟨r, rfl, _, dropped⟩
      · rw [kept] at found ⊢
        rw [← hosting_injective found] at parked
        exact claims.extend ls (.inl parked)
      · rw [dropped] at found ⊢
        rw [← hosting_injective found, parked_some,
          dropResource_pending] at parked
        exact claims.extend ls (.inl (parked_some.mpr parked))

theorem Config.Claims.deliver {start : Agreed}
    (claims : c.Claims n daemon (own n [entry] ++ out) g)
    (member : c.Member mode n daemon (own n [entry] ++ out) g)
    (admitted : ((c.agreement mode start).narrow
      fun _ _ _ => True).Admits g entry)
    (tracked : ¬Config.strays n (some entry)
      (searchResource daemon.ls.plockResources c.number))
    (after : c.Member mode n (c.algorithm.handle n entry daemon).1
      (out ++ (c.algorithm.handle n entry daemon).2) (g.advance entry)) :
    c.Claims n (c.algorithm.handle n entry daemon).1
      (out ++ (c.algorithm.handle n entry daemon).2) (g.advance entry) := by
  obtain ⟨slot, ls, follows⟩ := member
  obtain ⟨_, reached, nextFollows⟩ := after
  have ours : searchResource daemon.ls.plockResources c.number = slot := by
    rw [ls]
    exact searchResource_toList follows.numbered
  rw [ours] at tracked
  intro next found parked
  rw [hosting_injective (reached.symm.trans found)] at nextFollows
  cases entry with
  | down node => exact admitted.elim
  | message p body =>
      have named : body.info.number = c.number := admitted.1.1
      rw [handle_message p ls follows.numbered named] at found ⊢
      have same := hosting_injective found
      subst same
      rcases receiveSlot_parked named tracked parked with
        before | claim
      · rcases claims slot ls before with claimed | asked
        · rcases List.mem_append.mp claimed with first | later
          · by_cases ours : p = n
            · subst ours
              rw [own_message_self] at first
              have claim := List.mem_singleton.mp first
              subst claim
              exact .inr (nextFollows.asked_of_claim parked)
            · rw [own_message_other ours] at first
              cases first
          · exact .inl (List.mem_append_left _ later)
        · rcases asked.advance with still | ⟨table, shared⟩
          · exact .inr still
          · rw [shared] at nextFollows
            rcases nextFollows.unowned_of_parked parked with nobody |
              ⟨_, _, _, _, owned⟩
            · cases nobody
            · cases owned
      · exact .inl (List.mem_append_right _ claim)

end Claims

/-- The steps with a fixed membership, without disturbances and without
operations that stray. -/
def Config.attended (c : Config) (s : State) (label : Label) : Prop :=
  c.orderly s label ∧
    match label with
    | .deliver n => ¬Config.strays n (s.coming n) (c.resource s n)
    | _ => True

instance (c : Config) (s : State) (label : Label) :
    Decidable (c.attended s label) := by
  rcases label <;> unfold Config.attended <;> infer_instance

/-- Every message has been delivered to every node. -/
def Quiescent (s : State) : Prop :=
  ∀ n, (s.site n).status ≠ .absent →
    (s.site n).queue = [] ∧ (s.site n).position = s.log.length

section Runs

variable {c : Config} {s : State} {members : Nodeid → Bool} {n : Nodeid}

/-- What is kept about pending operations. -/
def Config.claiming (c : Config) :
    Addition (c.simulation .none dropping_tidy) :=
  { Also := fun _ _ _ => True
    Extra := c.Claims
    Vow := fun _ _ _ => True
    okAct := fun _ _ _ => True
    okDeliver := fun n entry daemon =>
      ¬Config.strays n (some entry)
        (searchResource daemon.ls.plockResources c.number)
    vow := fun _ _ => trivial
    vow_head := fun _ => trivial
    vow_step := fun _ _ _ => trivial
    act := fun member claims _ => claims.act member
    deliver := fun member claims admitted alive ok tracked =>
      claims.deliver member admitted tracked
        (member.deliver dropping_tidy admitted.widen alive ok) }

theorem Config.attended.allowed {label : Label}
    (attended : c.attended s label) : c.claiming.Allowed s label := by
  obtain ⟨⟨fixed, _⟩, tracked⟩ := attended
  cases label with
  | act n action => trivial
  | order n => trivial
  | deliver n =>
      intro entry coming
      dsimp only at tracked
      rw [coming] at tracked
      exact tracked
  | crash n => cases fixed
  | snapshot n => cases fixed
  | join n position => trivial
  | save n => trivial
  | restore n index => trivial

theorem sound_of_attended
    (run : c.system.Run c.attended (initial members) s) :
    c.claiming.simulation.Sound s := by
  apply sound_of_addition run (fun _ _ attended => attended.1) c.claiming
  · intro n slot ls parked
    have none : Option.none = slot := hosting_injective ls
    rw [← none] at parked
    exact absurd parked parked_none
  · intro state label attended
    exact attended.allowed

/-- Where everything has been delivered, an owner that has been asked for the
resource has given it up. -/
theorem Config.Follows.not_asked {mode : Mode} {slot : Option Resource}
    {asked : Bool} {table : Table}
    (follows : c.Follows mode n slot [] (.owned n asked table)) :
    asked = false := by
  cases follows with
  | follower other => exact absurd rfl other
  | owner => rfl
  | releasing _ _ _ _ _ _ _ _ _ _ _ _ _ split =>
      simp at split

/-- In a run with a fixed membership, without disturbances and without
operations that stray, no operation is pending once every message has been
delivered to every node. -/
theorem no_operation_pending
    (run : c.system.Run c.attended (initial members) s)
    (quiescent : Quiescent s) (present : (s.site n).status ≠ .absent) :
    ∀ r ∈ (s.site n).node.ls.plockResources, r.pending = [] := by
  have sound := sound_of_attended run
  have settled : Settled s := settled_of_orderly
    (run.mono fun _ _ attended => attended.1)
  have drained {m : Nodeid} (here : (s.site m).status ≠ .absent) :
      s.outstanding m = [] := by
    obtain ⟨queue, position⟩ := quiescent m here
    rw [State.outstanding, queue, position, List.drop_length]
    rfl
  obtain ⟨_, ⟨slot, ls, follows⟩, claims⟩ :=
    Addition.member sound ((settled n).resolve_left present)
  intro r member
  by_contra queued
  have held : slot = some r := by
    rw [ls] at member
    simpa [hosting] using member
  rcases claims slot ls ⟨r, held, queued⟩ with claimed |
    ⟨owner, table, owned⟩
  · rw [drained present] at claimed
    cases claimed
  · rw [(quiescent n present).2] at owned
    rcases settled owner with absent | joined
    · have placed := sound.placed owner
      simp only [Simulation.Placed, absent] at placed
      apply placed s.log.length (Nat.le_refl _)
      · simp [Silent]
      · exact ⟨true, table, owned⟩
    · have here : (s.site owner).status ≠ .absent := by simp [joined]
      obtain ⟨_, ⟨_, _, ownerFollows⟩, _⟩ := Addition.member sound joined
      rw [drained here, (quiescent owner here).2, owned] at ownerFollows
      exact absurd ownerFollows.not_asked (by decide)

end Runs

/-- Three members have got everything. -/
theorem quiescent_of_trio {c : Config} {s : State}
    (run : c.system.Run (fun _ => fixedMembership) trio s)
    (drained : [node1, node2, node3].all (fun n =>
      (s.site n).queue.isEmpty && (s.site n).position == s.log.length) =
        true) :
    Quiescent s := by
  intro n present
  rw [status_of_run run n] at present
  suffices listed : n ∈ [node1, node2, node3] by
    have done := List.all_eq_true.mp drained n listed
    simpa using done
  by_contra other
  apply present
  simp only [List.mem_cons, List.not_mem_nil, or_false] at other
  simp [trio, initial, other]

/-- Nodes 1 and 2 claim the resource, and node 1 hands it over. -/
def contendedRun : List Label :=
  [.act node1 (.read (kernelOp .lock 1 1 0 5)),
    .act node2 (.read (kernelOp .lock 1 1 0 5)), .order node1, .order node2,
    .deliver node1, .deliver node1, .order node1, .order node1,
    .deliver node1, .deliver node1, .deliver node2, .deliver node2,
    .deliver node2, .deliver node2, .order node2, .deliver node1,
    .deliver node2, .deliver node3, .deliver node3, .deliver node3,
    .deliver node3, .deliver node3]

theorem no_operation_pending_after_contention :
    ∃ s, tidy.system.Run tidy.attended trio s ∧ Quiescent s ∧
      (tidy.resource s node2).isSome ∧
      ∀ r ∈ (s.site node2).node.ls.plockResources, r.pending = [] := by
  let s := tidy.system.follow trio contendedRun
  have run : tidy.system.Run tidy.attended trio s :=
    System.run_of_follows _ .refl (by decide)
  have quiescent : Quiescent s :=
    quiescent_of_trio (run.mono fun _ _ attended => attended.1.1) (by decide)
  exact ⟨s, run, quiescent, by decide,
    no_operation_pending run quiescent (by decide)⟩

/-- Node 2 sends an operation while the resource is shared; before it comes
back the resource is dropped and claimed by node 3.  Node 2 makes the operation
pending and asks nobody for the resource. -/
theorem stray_operation_stays_pending :
    ∃ s, tidy.system.Run (fun _ => fixedMembership) trio s ∧ Quiescent s ∧
      (s.site node2).status ≠ .absent ∧
      ∃ r ∈ (s.site node2).node.ls.plockResources, r.pending ≠ [] := by
  let s := tidy.system.follow trio (releaseRun ++
    [.act node1 (.drop true), .order node1,
      .act node2 (.read (kernelOp .lock 1 1 0 5)), .deliver node3,
      .act node3 (.read (kernelOp .lock 1 1 0 5)), .order node3, .order node2,
      .deliver node1, .deliver node1, .deliver node1, .deliver node2,
      .deliver node2, .deliver node2, .deliver node3, .deliver node3])
  have run : tidy.system.Run (fun _ => fixedMembership) trio s :=
    System.run_of_follows _ .refl (by decide)
  exact ⟨s, run, quiescent_of_trio run (by decide), by decide, by decide⟩

end Dlm.Cluster
