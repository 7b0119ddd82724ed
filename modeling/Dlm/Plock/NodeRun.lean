import Dlm.Plock.Accounting
import Dlm.Plock.ResourceRun

/-!
# Exactly one answer per operation

The counts of `Accounting` over a whole node.  In every run of a node, each
operation that `process_plocks` has accepted is answered once, or is once in a
message not yet received, on the list of saved messages, on a pending list or
on a waiters list.
-/

namespace Dlm.Plock

/-- The places where an accepted operation can be. -/
inductive Place where
  | answered
  | undelivered
  | saved
  | pending
  | waiting
  deriving DecidableEq, Repr

/-- How often the operation with the tag is in the place. -/
def occurrences (env : Env) (tag : Nat) (state : NodeState) : Place → Nat
  | .answered => state.answers.countP fun answer => isOp env tag answer.1
  | .undelivered => state.sent.countP (carries env tag)
  | .saved => state.ls.savedMessages.countP (carries env tag)
  | .pending => (state.ls.plockResources.map (pendingCount env tag)).sum
  | .waiting => (state.ls.plockResources.map (waitingCount env tag)).sum

section Counting

variable (env : Env) (tag : Nat)

/-- The operations on the pending and waiters lists. -/
def tableCount (resources : List Resource) : Nat :=
  (resources.map fun r => slotCount env tag (some r)).sum

def lockspaceCount (ls : Lockspace) : Nat :=
  ls.savedMessages.countP (carries env tag) +
    tableCount env tag ls.plockResources

/-- All occurrences of the operation. -/
def totalCount (state : NodeState) : Nat :=
  state.answers.countP (fun answer => isOp env tag answer.1) +
    state.sent.countP (carries env tag) + lockspaceCount env tag state.ls

theorem totalCount_eq (state : NodeState) :
    totalCount env tag state =
      occurrences env tag state .answered +
        occurrences env tag state .undelivered +
        occurrences env tag state .saved +
        occurrences env tag state .pending +
        occurrences env tag state .waiting := by
  have table : ∀ resources : List Resource,
      tableCount env tag resources =
        (resources.map (pendingCount env tag)).sum +
          (resources.map (waitingCount env tag)).sum := by
    intro resources
    induction resources with
    | nil => rfl
    | cons r later induction =>
        simp only [tableCount, List.map_cons, List.sum_cons,
          slotCount_some] at induction ⊢
        omega
  have here := table state.ls.plockResources
  simp only [totalCount, lockspaceCount, occurrences]
  omega

theorem effectCount_eq (effects : List Effect) :
    effectCount env tag effects =
      (writtenBy effects).countP (fun answer => isOp env tag answer.1) +
        (sentBy env effects).countP (carries env tag) := by
  induction effects with
  | nil => rfl
  | cons effect later induction =>
      simp only [effectCount, writtenBy, sentBy] at induction ⊢
      cases effect with
      | writeResult info rv =>
          simp only [List.filterMap_cons, countP_cons_toNat, concerns]
          omega
      | send type info =>
          have carried : carries env tag ⟨type, env.ourNodeid, info⟩ =
              (type == .plock && isOp env tag info) := by
            simp [carries]
          simp only [List.filterMap_cons, countP_cons_toNat, concerns,
            carried]
          omega
      | plockTime =>
          simp only [List.filterMap_cons, countP_cons_toNat, concerns,
            Bool.toNat_false]
          omega

theorem tableCount_append (first second : List Resource) :
    tableCount env tag (first ++ second) =
      tableCount env tag first + tableCount env tag second := by
  simp [tableCount]

/-- Replacing what `search_resource` finds. -/
theorem tableCount_putSlot (number : UInt64) (slot : Option Resource)
    (resources : List Resource) :
    tableCount env tag (putSlot number slot resources) +
        slotCount env tag (searchResource resources number) =
      tableCount env tag resources + slotCount env tag slot := by
  have single : tableCount env tag slot.toList = slotCount env tag slot := by
    cases slot <;> simp [tableCount]
  induction resources with
  | nil =>
      simp only [putSlot, searchResource, List.find?_nil, slotCount_none,
        single]
      simp [tableCount]
  | cons r later induction =>
      simp only [putSlot, searchResource, List.find?_cons] at induction ⊢
      cases same : r.number == number with
      | true =>
          simp only [if_true, tableCount_append, single]
          simp only [tableCount, List.map_cons, List.sum_cons]
          omega
      | false =>
          simp only [Bool.false_eq_true, if_false]
          simp only [tableCount, List.map_cons, List.sum_cons] at induction ⊢
          omega

end Counting

/-- A message of another node that syncs an entry does not sync one of ours. -/
def Permitted (env : Env) (message : Message) : Prop :=
  message.isSync = true → message.nodeid ≠ env.ourNodeid →
    message.info.nodeid ≠ env.ourNodeid

/-- The lockspace loses no operation in what comes. -/
structure LockspaceSound (env : Env) (ls : Lockspace) : Prop where
  accountable : ∀ r ∈ ls.plockResources, Accountable env r
  saved : ∀ message ∈ ls.savedMessages, Permitted env message

/-- The step of the lockspace takes in the operation `input` times and passes
on what it does not keep. -/
structure LockspaceAccounts (env : Env) (tag input : Nat) (before : Lockspace)
    (result : Lockspace × List Effect) : Prop where
  conserves : input + lockspaceCount env tag before =
    lockspaceCount env tag result.1 + effectCount env tag result.2
  sound : LockspaceSound env result.1

section Steps

variable {env : Env} {ls : Lockspace} (tag : Nat)

theorem LockspaceSound.search (sound : LockspaceSound env ls)
    (number : UInt64) :
    ∀ r ∈ searchResource ls.plockResources number, Accountable env r :=
  fun r found => sound.accountable r (List.mem_of_find?_eq_some found)

/-- Running an accounted handler on the resource with the number. -/
theorem onSlot_accounts {number : UInt64} {input : Nat}
    {handler : Option Resource → Option Resource × List Effect}
    (sound : LockspaceSound env ls)
    (handled : Accounts env tag input
      (searchResource ls.plockResources number)
      (handler (searchResource ls.plockResources number))) :
    LockspaceAccounts env tag input ls (ls.onSlot number handler) := by
  have conserves := handled.conserves
  have replaced := tableCount_putSlot env tag number
    (handler (searchResource ls.plockResources number)).1 ls.plockResources
  refine ⟨?_, ?_, sound.saved⟩
  · simp only [Conserves, Lockspace.onSlot, lockspaceCount]
      at conserves replaced ⊢
    omega
  · intro r member
    rcases mem_putSlot member with new | old
    · exact handled.accountable r new
    · exact sound.accountable r old

theorem receiveNow_accounts {message : Message}
    (sound : LockspaceSound env ls) (permitted : Permitted env message) :
    LockspaceAccounts env tag (carries env tag message).toNat ls
      (receiveNow env ls message) :=
  onSlot_accounts tag sound
    (receiveSlot_accounts tag (sound.search message.info.number) permitted)

theorem receive_accounts {message : Message}
    (sound : LockspaceSound env ls) (permitted : Permitted env message) :
    LockspaceAccounts env tag (carries env tag message).toNat ls
      (receive env ls message) := by
  unfold receive
  split
  · refine ⟨?_, sound.accountable, ?_⟩
    · simp only [saveMessage, lockspaceCount, List.countP_append,
        countP_cons_toNat, List.countP_nil, effectCount_nil]
      omega
    · intro saved member
      rcases List.mem_append.mp member with old | new
      · exact sound.saved saved old
      · rw [List.mem_singleton.mp new]
        exact permitted
  · exact receiveNow_accounts tag sound permitted

theorem processSavedLoop_accounts (saved : List Message)
    (sound : LockspaceSound env ls)
    (permitted : ∀ message ∈ saved, Permitted env message) :
    LockspaceAccounts env tag (saved.countP (carries env tag)) ls
      (processSavedLoop env saved ls) := by
  induction saved generalizing ls with
  | nil => exact ⟨by simp [processSavedLoop], sound⟩
  | cons message later induction =>
      have first := receiveNow_accounts tag sound
        (permitted message List.mem_cons_self)
      have rest := induction first.sound
        fun other member => permitted other (List.mem_cons_of_mem _ member)
      have firstCount := first.conserves
      have restCount := rest.conserves
      refine ⟨?_, rest.sound⟩
      simp only [processSavedLoop, effectCount_append, countP_cons_toNat]
      omega

theorem processSavedPlocks_accounts (sound : LockspaceSound env ls) :
    LockspaceAccounts env tag 0 ls (processSavedPlocks env ls) := by
  have emptied : LockspaceSound env { ls with savedMessages := [] } :=
    ⟨sound.accountable, by simp⟩
  have processed := processSavedLoop_accounts tag ls.savedMessages emptied
    sound.saved
  have conserves := processed.conserves
  refine ⟨?_, processed.sound⟩
  simp only [processSavedPlocks, lockspaceCount, List.countP_nil]
    at conserves ⊢
  omega

theorem processPlocks_accounts (info : Info)
    (sound : LockspaceSound env ls) :
    LockspaceAccounts env tag
      (isOp env tag { info with nodeid := env.ourNodeid }).toNat ls
      (processPlocks env ls info) :=
  onSlot_accounts tag sound
    (processPlock_accounts tag (sound.search info.number))

/-- A walk over the resources that changes each of them by an accounted step. -/
theorem table_accounts
    {step : Resource → Option Resource × List Effect}
    (resources : List Resource)
    (stepped : ∀ r ∈ resources, Accounts env tag 0 (some r) (step r)) :
    tableCount env tag resources =
      tableCount env tag (resources.filterMap fun r => (step r).1) +
        effectCount env tag (resources.flatMap fun r => (step r).2) := by
  induction resources with
  | nil => rfl
  | cons r later induction =>
      have first := (stepped r List.mem_cons_self).conserves
      have rest := induction fun s member =>
        stepped s (List.mem_cons_of_mem r member)
      simp only [List.flatMap_cons, effectCount_append, List.filterMap_cons]
      cases kept : (step r).1 with
      | none =>
          simp only [Conserves, kept, slotCount_none] at first
          simp only [tableCount, List.map_cons, List.sum_cons] at rest ⊢
          omega
      | some s =>
          simp only [Conserves, kept] at first
          simp only [tableCount, List.map_cons, List.sum_cons] at rest ⊢
          omega

theorem purgePlocks_accounts {nodeid : Int32}
    (foreign : nodeid ≠ env.ourNodeid) (sound : LockspaceSound env ls) :
    LockspaceAccounts env tag 0 ls (purgePlocks env ls nodeid false) := by
  have stepped : ∀ r ∈ ls.plockResources, Accounts env tag 0 (some r)
      (purgeResource env nodeid false r) := fun r member =>
    purgeResource_accounts tag foreign (sound.accountable r member)
  have table := table_accounts tag ls.plockResources stepped
  refine ⟨?_, ?_, sound.saved⟩
  · simp only [purgePlocks, lockspaceCount, effectCount_append,
      List.filterMap_map, List.flatMap_map, Function.comp_def]
    split <;> simp only [effectCount_plockTime, effectCount_nil] <;> omega
  · intro s member
    simp only [purgePlocks, List.filterMap_map, List.mem_filterMap,
      Function.comp_apply] at member
    obtain ⟨r, old, kept⟩ := member
    exact (stepped r old).accountable s kept

theorem dropResourcesLoop_count (ownership : env.plockOwnership = true)
    (aged : UInt64 → Bool) (budget : Nat) (resources : List Resource) :
    tableCount env tag resources =
      tableCount env tag (dropResourcesLoop env aged budget resources).1 +
        effectCount env tag
          (dropResourcesLoop env aged budget resources).2 := by
  induction resources generalizing budget with
  | nil => simp [dropResourcesLoop]
  | cons r later induction =>
      cases budget with
      | zero => simp [dropResourcesLoop]
      | succ budget =>
          rw [dropResourcesLoop]
          split
          · have rest := induction (budget + 1)
            simp only [tableCount, List.map_cons, List.sum_cons] at rest ⊢
            omega
          · have rest := induction budget
            have here := (dropResource_accounts tag
              (.inl ownership : Accountable env r) ownership).conserves
            simp only [Conserves, effectCount_append] at here ⊢
            simp only [tableCount, List.map_cons, List.sum_cons] at rest ⊢
            omega

theorem dropResources_accounts (aged : UInt64 → Bool)
    (ownership : env.plockOwnership = true)
    (sound : LockspaceSound env ls) :
    LockspaceAccounts env tag 0 ls (dropResources env aged ls) := by
  have backwards (resources : List Resource) :
      tableCount env tag resources.reverse = tableCount env tag resources := by
    simp [tableCount, List.sum_reverse]
  have dropped := dropResourcesLoop_count tag ownership aged
    env.dropResourcesCount ls.plockResources.reverse
  refine ⟨?_, fun _ _ => .inl ownership, sound.saved⟩
  simp only [dropResources, lockspaceCount, backwards] at dropped ⊢
  omega

/-- A section without a record of ours brings no operation of ours. -/
theorem unpackSectionBuf_count {section_ : Section}
    (foreign : ∀ pp ∈ section_.data, pp.nodeid.toInt32 ≠ env.ourNodeid) :
    slotCount env tag (some (unpackSectionBuf env section_)) = 0 := by
  simp only [slotCount_some, pendingCount, waitingCount, unpackSectionBuf,
    List.countP_nil, Nat.zero_add, List.countP_eq_zero, List.mem_map,
    List.mem_filter]
  rintro w ⟨pp, ⟨member, _⟩, rfl⟩
  simp [unpackWaiter, isOp, foreign pp member]

theorem receivePlocksStored_accounts {sections : List Section}
    (ownership : env.plockOwnership = true)
    (foreign : ∀ section_ ∈ sections, ∀ pp ∈ section_.data,
      pp.nodeid.toInt32 ≠ env.ourNodeid)
    (sound : LockspaceSound env ls) :
    LockspaceAccounts env tag 0 ls (receivePlocksStored env sections ls) := by
  have retrieved : LockspaceSound env (retrievePlocks env sections ls) :=
    ⟨fun _ _ => .inl ownership, sound.saved⟩
  have unpacked : tableCount env tag
      (sections.map (unpackSectionBuf env)) = 0 := by
    rw [tableCount, List.map_map, List.sum_eq_zero_iff_forall_eq_nat]
    intro count counted
    obtain ⟨section_, member, rfl⟩ := List.mem_map.mp counted
    exact unpackSectionBuf_count tag (foreign section_ member)
  have processed := processSavedPlocks_accounts tag retrieved
  have conserves := processed.conserves
  refine ⟨?_, processed.sound.accountable, processed.sound.saved⟩
  simp only [lockspaceCount, retrievePlocks, tableCount_append]
    at conserves
  simp only [receivePlocksStored, lockspaceCount]
  simp only [retrievePlocks]
  omega

theorem preparePlocks_accounts (how : PrepareCase)
    (sound : LockspaceSound env ls) :
    LockspaceAccounts env tag 0 ls (preparePlocks how ls, []) := by
  have same : (preparePlocks how ls).plockResources = ls.plockResources ∧
      (preparePlocks how ls).savedMessages = ls.savedMessages := by
    unfold preparePlocks
    split
    · exact ⟨rfl, rfl⟩
    · exact ⟨rfl, rfl⟩
    · split <;> exact ⟨rfl, rfl⟩
    · exact ⟨rfl, rfl⟩
  refine ⟨?_, ?_, ?_⟩
  · simp [lockspaceCount, same]
  · simpa [same] using sound.accountable
  · simpa [same] using sound.saved

end Steps

/-- What holds between the events at a node. -/
structure NodeSound (env : Env) (state : NodeState) : Prop where
  lockspace : LockspaceSound env state.ls
  sender : ∀ message ∈ state.sent, message.nodeid = env.ourNodeid
  once : ∀ tag, totalCount env tag state =
    if tag < state.accepted then 1 else 0

/-- An accounted step of the lockspace, with what it takes in. -/
theorem NodeSound.commit {env : Env} (state : NodeState)
    {result : Lockspace × List Effect} {input : Nat → Nat}
    (sender : ∀ message ∈ state.sent, message.nodeid = env.ourNodeid)
    (accounts : ∀ tag,
      LockspaceAccounts env tag (input tag) state.ls result)
    (once : ∀ tag, input tag + totalCount env tag state =
      if tag < state.accepted then 1 else 0) :
    NodeSound env (state.commit env result) :=
  { lockspace := (accounts 0).sound
    sender := by
      intro message member
      rcases List.mem_append.mp member with old | new
      · exact sender message old
      · simp only [sentBy, List.mem_filterMap] at new
        obtain ⟨effect, _, sent⟩ := new
        cases effect with
        | send type info =>
            cases sent
            rfl
        | writeResult info rv => cases sent
        | plockTime => cases sent
    once := by
      intro tag
      have conserves := (accounts tag).conserves
      have split := effectCount_eq env tag result.2
      have accepted : (state.commit env result).accepted = state.accepted :=
        rfl
      rw [accepted, ← once tag]
      simp only [totalCount, NodeState.commit, List.countP_append]
      omega }

theorem NodeSound.start (env : Env) : NodeSound env NodeState.start :=
  { lockspace := ⟨by simp [NodeState.start], by simp [NodeState.start]⟩
    sender := by simp [NodeState.start]
    once := by
      simp [NodeState.start, totalCount, lockspaceCount, tableCount] }

theorem permitted_of_ours {env : Env} {message : Message}
    (ours : message.nodeid = env.ourNodeid) : Permitted env message :=
  fun _ foreign => absurd ours foreign

/-- Every event at the node keeps each accepted operation in one place. -/
theorem nodeNext_sound {env : Env} {state : NodeState} {event : NodeEvent}
    (enabled : nodeEnabled env state event) (sound : NodeSound env state) :
    NodeSound env (nodeNext env state event) := by
  have lockspace := sound.lockspace
  have unchanged : ∀ tag, 0 + totalCount env tag state =
      if tag < state.accepted then 1 else 0 := by
    intro tag
    rw [Nat.zero_add]
    exact sound.once tag
  cases event with
  | read info =>
      refine .commit { state with accepted := state.accepted + 1 }
        sound.sender
        (fun tag => processPlocks_accounts tag
          { info with tag := state.accepted } lockspace) ?_
      intro tag
      have before := sound.once tag
      simp only [totalCount, isOp, beq_self_eq_true, Bool.true_and]
        at before ⊢
      by_cases this : state.accepted = tag
      · subst this
        simp at before ⊢
        omega
      · simp only [beq_eq_false_iff_ne.mpr this, Bool.toNat_false]
        split at before
        · rw [if_pos (by omega)]
          omega
        · rw [if_neg (by omega)]
          omega
  | deliverOwn =>
      simp only [nodeNext]
      cases pending : state.sent with
      | nil => exact sound
      | cons message later =>
          have ours : ∀ other ∈ message :: later,
              other.nodeid = env.ourNodeid := by
            rw [← pending]
            exact sound.sender
          have permitted := permitted_of_ours (ours message List.mem_cons_self)
          refine .commit { state with sent := later }
            (fun other member => ours other (List.mem_cons_of_mem _ member))
            (fun tag => receive_accounts tag lockspace permitted) ?_
          intro tag
          rw [← sound.once tag]
          simp only [totalCount, pending, countP_cons_toNat]
          omega
  | deliverOther message =>
      have permitted : Permitted env message := fun sync _ => enabled.2 sync
      refine .commit state sound.sender
        (fun tag => receive_accounts tag lockspace permitted) ?_
      intro tag
      rw [carries_foreign tag enabled.1]
      exact unchanged tag
  | purge nodeid =>
      exact .commit state sound.sender
        (fun tag => purgePlocks_accounts tag enabled lockspace) unchanged
  | drop aged =>
      exact .commit state sound.sender
        (fun tag => dropResources_accounts tag aged enabled lockspace)
        unchanged
  | prepare how =>
      have prepared := NodeSound.commit state sound.sender
        (fun tag => preparePlocks_accounts tag how lockspace) unchanged
      simpa [nodeNext, NodeState.commit, sentBy, writtenBy] using prepared
  | stored sections =>
      exact .commit state sound.sender
        (fun tag => receivePlocksStored_accounts tag enabled.1 enabled.2.2
          lockspace)
        unchanged

/-- In every run of a node each accepted operation is in exactly one place,
and there once. -/
theorem operation_in_one_place {env : Env} {state : NodeState} {tag : Nat}
    (run : (nodeSystem env).Run (fun _ _ => True) NodeState.start state)
    (accepted : tag < state.accepted) :
    ∃ place, occurrences env tag state place = 1 ∧
      ∀ other, other ≠ place → occurrences env tag state other = 0 := by
  have sound : NodeSound env state :=
    run.invariant (NodeSound env) (.start env)
      fun _ _ enabled _ before => nodeNext_sound enabled before
  have once := sound.once tag
  rw [if_pos accepted, totalCount_eq] at once
  obtain ⟨place, found⟩ : ∃ place, occurrences env tag state place ≠ 0 := by
    by_contra nowhere
    simp only [not_exists, not_not] at nowhere
    simp [nowhere] at once
  refine ⟨place, ?_, ?_⟩
  · cases place <;> omega
  · intro other different
    cases place <;> cases other <;>
      first
      | exact absurd rfl different
      | omega

/-- A node of a cluster with ownership. -/
def memberEnv (nodeid : Int32) : Env :=
  { ourNodeid := nodeid
    plockOwnership := true
    dropResourcesCount := 10
    waiterJunk := fun _ => false
    lockJunk := fun _ => false
    infoJunk := fun _ => Info.cleared }

instance (env : Env) (state : NodeState) (event : NodeEvent) :
    Decidable ((nodeSystem env).enabled state event) := by
  rcases event <;> unfold nodeSystem nodeEnabled <;> infer_instance

/-- Two conflicting requests become pending; the node then becomes the owner,
answers the first and lets the second wait. -/
def becomeOwner : List NodeEvent :=
  [.prepare .alone, .read (requestOf .lock 1 1 0 10),
    .read (requestOf .lock 1 2 5 5), .deliverOwn]

theorem operation_in_one_place_waiting :
    ∃ state, (nodeSystem (memberEnv 1)).Run (fun _ _ => True)
        NodeState.start state ∧
      occurrences (memberEnv 1) 1 state .waiting = 1 ∧
      ∃ place, occurrences (memberEnv 1) 1 state place = 1 ∧
        ∀ other, other ≠ place →
          occurrences (memberEnv 1) 1 state other = 0 := by
  have follows : (nodeSystem (memberEnv 1)).Follows (fun _ _ => True)
      NodeState.start becomeOwner := by decide
  have run := System.run_of_follows becomeOwner .refl follows
  exact ⟨_, run, by decide, operation_in_one_place run (by decide)⟩

end Dlm.Plock
