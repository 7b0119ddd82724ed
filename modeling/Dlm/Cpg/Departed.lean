import Dlm.Cpg.Group
import Dlm.Plock.Names

/-!
# Departed nodes

A configuration change purges the removed nodes from the plock state of every
member, so that a node names members only, as long as it does not take in the
names of departed nodes from a checkpoint, from messages that it has saved, or
from synchronisation messages.
-/

namespace Dlm.Cpg

open Plock ProcessGroup

variable {env : Env} {index : Nat}

/-- The members after an event. -/
def Event.members (before : List Int32) : Event → List Int32
  | .confchg _ change => change.members
  | _ => before

/-- The nodes that a node may name: the members and itself. -/
def Familiar (us : Int32) (members : List Int32) (n : Int32) : Prop :=
  n ∈ members ∨ n = us

/-- What the condition asks of an event: the message names a member if it is
about a synchronised entry and is not saved; what an accepted `PLOCKS_STORED`
message brings in, from the checkpoint and from the saved messages, names
members; and where plocks are disabled the removed nodes are not named. -/
def NamesMembers (env : Env) (members : List Int32)
    (sections : List Section) (ls : Lockspace) : Event → Prop
  | .confchg _ change =>
      env.enablePlock = true ∨ ∀ r ∈ ls.plocks.plockResources,
        ∀ gone ∈ change.left, gone.1 ∉ r.names
  | .plock message =>
      ls.plocks.savePlocks = true ∨ message.synced ⊆ members
  | .info sender li =>
      (Event.info sender li).accepted env ls = true →
        (env.enablePlock = true → ∀ section_ ∈ sections,
          (unpackSectionBuf env.plock section_).names ⊆ members) ∧
        ∀ message ∈ ls.plocks.savedMessages,
          message.nodeid ∈ members ∧ message.synced ⊆ members
  | _ => True

instance (env : Env) (members : List Int32) (sections : List Section)
    (ls : Lockspace) (event : Event) :
    Decidable (NamesMembers env members sections ls event) := by
  rcases event <;> unfold NamesMembers <;> infer_instance

theorem purgeRemoved_named {now : UInt64} {known : Int32 → Prop}
    (plock : env.enablePlock = true) (left : List (Int32 × Reason))
    (ls : Lockspace)
    (named : Everywhere (Named env.plock.ourNodeid known) ls.plocks) :
    Everywhere (Named env.plock.ourNodeid
        fun n => known n ∧ ∀ gone ∈ left, n ≠ gone.1)
      (purgeRemoved env now left ls).1.plocks := by
  induction left generalizing ls known with
  | nil =>
      intro r member
      exact (named r member).mono fun n here =>
        ⟨here, List.forall_mem_nil _⟩
  | cons gone later induction =>
      have first : Everywhere (Named env.plock.ourNodeid
          fun n => known n ∧ n ≠ gone.1)
          (purgePlocks env.plock ls.plocks gone.1 false).1 :=
        Named.purgePlocks named
      have rest := induction
        (ls.onPlocks now (if env.enablePlock then
          purgePlocks env.plock ls.plocks gone.1 false
        else (ls.plocks, []))).1 (by rw [plock]; exact first)
      intro r member
      apply (rest r member).mono
      intro n here
      exact ⟨here.1.1, List.forall_mem_cons.mpr ⟨here.1.2, here.2⟩⟩

theorem purgeRemoved_off {now : UInt64} (off : env.enablePlock = false)
    (left : List (Int32 × Reason)) (ls : Lockspace) :
    (purgeRemoved env now left ls).1.plocks = ls.plocks := by
  induction left generalizing ls with
  | nil => rfl
  | cons gone later induction =>
      rw [purgeRemoved]
      refine (induction _).trans ?_
      rw [off]
      rfl

section Arrival

variable {answers : Answers} {members : List Int32} {ls : Lockspace}

theorem Named.confchg {change : Confchg Int32}
    (follows : change.Follows members)
    (present : NamesMembers env members answers.sections ls
      (.confchg index change)) (named : Everywhere (Named env.plock.ourNodeid
      (Familiar env.plock.ourNodeid members)) ls.plocks) :
    Everywhere (Named env.plock.ourNodeid
        (Familiar env.plock.ourNodeid change.members))
      (arrival env answers (.confchg index change) ls).1.plocks := by
  obtain ⟨stopped, same, purged⟩ :=
    arrival_purged env answers index change ls
  have stays (n : Int32) (familiar : Familiar env.plock.ourNodeid members n)
      (kept : ∀ gone ∈ change.left, n ≠ gone.1) :
      Familiar env.plock.ourNodeid change.members n := by
    rcases familiar with member | us
    · rcases follows.view_kept n member with ⟨gone, listed, left⟩ | still
      · exact (kept gone listed left.symm).elim
      · exact .inl still
    · exact .inr us
  rw [← same.plocks] at named
  rw [purged]
  cases plock : env.enablePlock with
  | true =>
      have left := @purgeRemoved_named env answers.now _ plock change.left
        stopped named
      intro r member
      exact (left r member).mono fun n here => stays n here.1 here.2
  | false =>
      rw [purgeRemoved_off plock]
      rcases present with on | unnamed
      · exact (Bool.false_ne_true (plock.symm.trans on)).elim
      · rw [← same.plocks] at unnamed
        intro r member
        refine Named.of_names ?_ (named r member).pending
        intro n named_
        apply stays n ((named r member).names n named_)
        intro gone listed left
        rw [left] at named_
        exact unnamed r member gone listed named_

/-- The messages that name members only. -/
theorem Named.message {message : Message} {us : Int32}
    (ours : us = env.plock.ourNodeid) (sender : message.nodeid ∈ members)
    (synced : message.synced ⊆ members) :
    Survives env.plock message (fun info => Familiar us members info.nodeid)
      (Named env.plock.ourNodeid (Familiar us members)) :=
  Named.survives (.inr ours.symm) (.inl sender)
    fun _ member => .inl (synced member)

theorem arrival_named {event : Event}
    (possible : event.Possible env (some members))
    (sent : ∀ message ∈ event.plocks, message.nodeid ∈ members)
    (present : NamesMembers env members answers.sections ls event)
    (named : Everywhere (Named env.plock.ourNodeid
      (Familiar env.plock.ourNodeid members)) ls.plocks) :
    Everywhere (Named env.plock.ourNodeid
        (Familiar env.plock.ourNodeid (event.members members)))
      (arrival env answers event ls).1.plocks := by
  have moved := arrival_moved env answers event ls
  cases event with
  | confchg index change => exact Named.confchg possible present named
  | info sender li =>
      generalize (arrival env answers (.info sender li) ls).1 = before
        at moved ⊢
      cases moved with
      | quiet same =>
          rw [same.plocks]
          exact named
      | stored kind accepts =>
          obtain ⟨restored, saved⟩ :=
            present (by simp [Event.accepted, kind, accepts])
          apply Everywhere.receivePlocksStored named
          · intro section_ listed
            cases plock : env.enablePlock with
            | false =>
                rw [plock] at listed
                cases listed
            | true =>
                rw [plock] at listed
                apply Named.of_names
                · intro n member
                  exact .inl (restored plock section_ listed member)
                · intro info member
                  cases member
          · intro message listed
            obtain ⟨from_, synced⟩ := saved message listed
            exact Named.message rfl from_ synced
  | plock message =>
      apply Everywhere.receive named
      intro processing
      rcases present with saving | synced
      · exact (Bool.false_ne_true (processing.symm.trans saving)).elim
      · exact Named.message rfl
          (sent message List.mem_cons_self) synced
  | poll => exact named
  | read info =>
      generalize (arrival env answers (.read info) ls).1 = before
        at moved ⊢
      cases moved with
      | quiet same =>
          rw [same.plocks]
          exact named
      | read =>
          exact named.onSlot
            (Named.processPlock (.inr rfl) rfl (named.search _))
  | drop aged =>
      generalize (arrival env answers (.drop aged) ls).1 = before
        at moved ⊢
      cases moved with
      | quiet same =>
          rw [same.plocks]
          exact named
      | dropped => exact Named.dropResources named
  | fsRegister => exact named
  | fsUnregister => exact named
  | fsNotified nodeid => exact named

end Arrival

/-- A process that has not read its first change has no change to complete and
needs a checkpoint. -/
def Newborn (site : Site Payload Peer) : Prop :=
  site.position = site.born →
    site.state.ls.changes = [] ∧ site.state.ls.plocks.needPlocks = true

theorem Local.members_eq (action : Local) (members : List Int32) :
    action.event.members members = members := by
  cases action with
  | poll => rfl
  | read info => rfl
  | drop aged => rfl
  | fsRegister => rfl
  | fsUnregister => rfl
  | fsNotified nodeid => rfl

theorem Local.namesMembers (action : Local) (env : Env)
    (members : List Int32) (sections : List Section) (ls : Lockspace) :
    NamesMembers env members sections ls action.event := by
  cases action with
  | poll => trivial
  | read info => trivial
  | drop aged => trivial
  | fsRegister => trivial
  | fsUnregister => trivial
  | fsNotified nodeid => trivial

theorem Local.newborn {ls : Lockspace} (action : Local) (answers : Answers)
    (newborn : ls.changes = [] ∧ ls.plocks.needPlocks = true) :
    (handle env answers action.event ls).1.changes = [] ∧
      (handle env answers action.event ls).1.plocks.needPlocks = true := by
  cases action with
  | poll => simpa [Local.event, handle, applyChanges, newborn.1] using newborn
  | read info =>
      simp only [Local.event, handle]
      split
      · exact newborn
      · exact newborn
  | drop aged =>
      simp only [Local.event, handle]
      split
      · exact newborn
      · exact newborn
  | fsRegister => exact newborn
  | fsUnregister => exact newborn
  | fsNotified nodeid => exact newborn

/-- What a process may name, as far as it has read. -/
structure NamesKnown (settings : Settings) (log : Log) (n : Int32)
    (site : Site Payload Peer) : Prop where
  named : Everywhere (Named (settings.env n).plock.ourNodeid
    (Familiar (settings.env n).plock.ourNodeid
      (view (log.take site.position)))) site.state.ls.plocks
  newborn : Newborn site

theorem NamesKnown.grow {settings : Settings} {log : Log} {n : Int32}
    {site : Site Payload Peer} (names : NamesKnown settings log n site)
    (within : site.position ≤ log.length) (entry : Entry Int32 Payload) :
    NamesKnown settings (log ++ [entry]) n site := by
  refine ⟨?_, names.newborn⟩
  rw [take_append_entry within]
  exact names.named

/-- The condition on the steps of a run. -/
def OnlyMembers (settings : Settings) (s : Group) : GroupLabel → Prop
  | .deliver n _ =>
      ∀ site ∈ s.site n, ∀ entry ∈ s.log[site.position]?,
        NamesMembers (settings.env n) (view (s.log.take site.position))
          s.shared.sections site.state.ls
          (entryEvent site.position entry)
  | _ => True

instance (settings : Settings) (s : Group) (label : GroupLabel) :
    Decidable (OnlyMembers settings s label) := by
  rcases label <;> unfold OnlyMembers <;> infer_instance

theorem NamesMembers.perm {members : List Int32}
    {sections others : List Section} {ls : Lockspace} {event : Event}
    (present : NamesMembers env members sections ls event)
    (same : others.Perm sections) :
    NamesMembers env members others ls event := by
  cases event with
  | info sender li =>
      intro accepted
      obtain ⟨restored, saved⟩ := present accepted
      exact ⟨fun plock section_ listed =>
        restored plock section_ (same.mem_iff.mp listed), saved⟩
  | _ => exact present

theorem members_of_entry {log : Log} {entry : Entry Int32 Payload}
    (here : log[index]? = some entry) :
    (entryEvent index entry).members (view (log.take index)) =
      view (log.take (index + 1)) := by
  rw [view_take_succ here]
  cases entry with
  | confchg change => rfl
  | message sender body =>
      cases body with
      | info li => rfl
      | plock type info => rfl

theorem sender_of_entry {log : Log} (lawful : Lawful log)
    {entry : Entry Int32 Payload} (here : log[index]? = some entry) :
    ∀ message ∈ (entryEvent index entry).plocks,
      message.nodeid ∈ view (log.take index) := by
  intro message member
  cases entry with
  | confchg change => cases member
  | message sender body =>
      cases body with
      | info li => cases member
      | plock type info =>
          rw [List.mem_singleton.mp member]
          exact lawful.member index sender _ here

theorem names_upkeep (settings : Settings) :
    Upkeep (daemons settings) (OnlyMembers settings) (fun _ _ => True)
      (NamesKnown settings) where
  born := fun _ _ _ _ _ _ _ =>
    ⟨List.forall_mem_nil _,
      fun _ => ⟨rfl, rfl⟩⟩
  changed := fun _ _ _ _ _ => trivial
  told := fun _ _ n site upheld _ _ here =>
    (upheld.each n site here).grow (upheld.placed n site here).within _
  ordered := fun _ n site body _ upheld _ _ here _ =>
    have names := (upheld.each n site here).grow
      (upheld.placed n site here).within (.message n body)
    ⟨trivial, names.named, names.newborn⟩
  heard := fun _ _ _ _ _ m other upheld _ _ _ _ here _ =>
    (upheld.each m other here).grow (upheld.placed m other here).within _
  delivered := by
    intro s n answers site entry upheld ready permitted found here _
    have possible :=
      possible_of_entry upheld.lawful (settings.env n) here
    have present := (permitted site found entry here).perm
      (List.isPerm_iff.mp ready)
    have named := arrival_named possible
      (sender_of_entry upheld.lawful here) present
      (upheld.each n site found).named
    rw [members_of_entry here] at named
    refine ⟨trivial, ?_, ?_⟩
    · intro r member
      apply named r
      simpa [daemons, handled, Site.commit,
        handle_resources answers site.state.ls possible] using member
    · intro newborn
      have after := (upheld.placed n site found).after
      simp only [Site.commit, Site.advance] at newborn
      omega
  acted := by
    intro s n action site upheld _ found
    have possible := action.1.possible (settings.env n)
      (some (view (s.log.take site.position)))
    have names := upheld.each n site found
    have named := @arrival_named (settings.env n) action.2 _
      site.state.ls action.1.event possible
      (by
        rw [action.1.plocks_nil]
        exact List.forall_mem_nil _)
      (action.1.namesMembers ..) names.named
    rw [action.1.members_eq] at named
    refine ⟨trivial, ?_, ?_⟩
    · intro r member
      apply named r
      simpa [daemons, handled, Site.commit,
        handle_resources action.2 site.state.ls possible] using member
    · intro newborn
      exact action.1.newborn action.2 (names.newborn newborn)

/-- If what a node takes in from checkpoints, saved messages and
synchronisation messages names members, then a node that does not need a
checkpoint names members only. -/
theorem departed_not_named (settings : Settings) (s : Group)
    (run : (daemons settings).system.Run (OnlyMembers settings)
      Group.start s)
    (n : Int32) (site : Site Payload Peer) (here : s.site n = some site)
    (ready : site.state.ls.plocks.needPlocks = false) :
    ∀ r ∈ site.state.ls.plocks.plockResources,
      r.names ⊆ view (s.log.take site.position) := by
  have upheld := (names_upkeep settings).run run trivial
  have names := upheld.each n site here
  have placed := upheld.placed n site here
  have grown : site.born < site.position := by
    apply Nat.lt_of_le_of_ne placed.after
    intro same
    exact Bool.false_ne_true
      (ready.symm.trans (names.newborn same.symm).2)
  intro r member named listed
  rcases (names.named r member).names named listed with known | us
  · exact known
  · rw [us, settings.ourNodeid]
    exact placed.member site.position grown (Nat.le_refl _)

/-- Nodes 1 and 2 join together and node 2 claims resource 7. -/
def secondOwns : List GroupLabel :=
  [.confchg { members := [1, 2], left := [], joined := [1, 2] },
    .deliver 1 (calmAnswers 1),
    .deliver 2 (calmAnswers 1),
    .order 1,
    .order 2,
    .deliver 1 (calmAnswers 2),
    .deliver 1 (calmAnswers 2),
    .deliver 2 (calmAnswers 2),
    .deliver 2 (calmAnswers 2),
    .act 2 (.read lockSeven, calmAnswers 3),
    .order 2,
    .deliver 1 (calmAnswers 3),
    .deliver 2 (calmAnswers 3)]

/-- Then node 2 fails. -/
def ownerFails : List GroupLabel :=
  secondOwns ++
    [.confchg { members := [1], left := [(2, .nodedown)], joined := [] },
      .deliver 1 (fencedAnswers 5 4)]

/-- The section for a resource of node 2. -/
def ghostSection : Section :=
  { id := sectionId 7 2, data := [] }

def ghostAnswers (now : UInt64) : Answers :=
  { fencedAnswers now 29 with sections := [ghostSection] }

/-- Or node 3 joins, and node 2 fails between the store and the announcement
of the checkpoint. -/
def ownerFailsBehindStore : List GroupLabel :=
  secondOwns ++
    [.confchg thirdJoins,
      .deliver 1 (calmAnswers 5),
      .deliver 2 (calmAnswers 5),
      .deliver 3 (calmAnswers 5),
      .order 1,
      .order 2,
      .order 3,
      .deliver 1 (calmAnswers 10),
      .deliver 1 (calmAnswers 10),
      .deliver 1 (calmAnswers 10),
      .deliver 3 (ghostAnswers 10),
      .deliver 3 (ghostAnswers 10),
      .deliver 3 (ghostAnswers 10),
      .confchg
        { members := [1, 3], left := [(2, .nodedown)], joined := [] },
      .order 1,
      .deliver 1 (ghostAnswers 30),
      .deliver 1 (ghostAnswers 30),
      .deliver 3 (ghostAnswers 30),
      .deliver 3 (ghostAnswers 30),
      .order 1,
      .order 3,
      .deliver 1 (ghostAnswers 31),
      .deliver 1 (ghostAnswers 31),
      .deliver 3 (ghostAnswers 31),
      .deliver 3 (ghostAnswers 31),
      .order 1,
      .deliver 3 (ghostAnswers 32)]

theorem failed_owner_purged :
    ∃ site ∈ (Group.after ownerFails).site 1,
      site.state.ls.plocks.plockResources ≠ [] ∧
        ∀ r ∈ site.state.ls.plocks.plockResources,
          r.names ⊆
            view ((Group.after ownerFails).log.take site.position) := by
  have run : (daemons plainSettings).system.Run (OnlyMembers plainSettings)
      Group.start (Group.after ownerFails) :=
    System.run_of_follows ownerFails .refl (by decide)
  have state : ((Group.after ownerFails).site 1).any (fun site =>
      !site.state.ls.plocks.plockResources.isEmpty &&
        !site.state.ls.plocks.needPlocks) = true := by
    decide
  obtain ⟨site, here, facts⟩ := (Option.any_eq_true _ _).mp state
  simp only [Bool.and_eq_true, Bool.not_eq_true'] at facts
  obtain ⟨resources, ready⟩ := facts
  exact ⟨site, here, by simpa using resources,
    departed_not_named plainSettings _ run 1 site here ready⟩

/-- Node 3 takes over from the checkpoint that the failed node 2 owns
resource 7. -/
theorem failed_owner_retrieved :
    ¬ ∀ s, (daemons plainSettings).system.Run (fun _ _ => True)
        Group.start s →
      ∀ n site, s.site n = some site →
        site.state.ls.plocks.needPlocks = false →
        ∀ r ∈ site.state.ls.plocks.plockResources,
          r.names ⊆ view (s.log.take site.position) := by
  intro present
  have run : (daemons plainSettings).system.Run (fun _ _ => True)
      Group.start (Group.after ownerFailsBehindStore) :=
    System.run_of_follows ownerFailsBehindStore .refl (by decide)
  have state : ((Group.after ownerFailsBehindStore).site 3).any
      (fun site => !site.state.ls.plocks.needPlocks &&
        site.state.ls.plocks.plockResources.any fun r =>
          !decide (r.names ⊆ view ((Group.after
            ownerFailsBehindStore).log.take site.position))) = true := by
    decide
  obtain ⟨site, here, facts⟩ := (Option.any_eq_true _ _).mp state
  simp only [Bool.and_eq_true, Bool.not_eq_true', List.any_eq_true,
    decide_eq_false_iff_not] at facts
  obtain ⟨ready, r, member, ghost⟩ := facts
  exact ghost (present _ run 3 site here ready r member)

end Dlm.Cpg
