import Dlm.Cpg.Daemon

/-!
# What the handlers can do

`apply_changes` and `prepare_plocks` have several exits.  Each is a case of a
relation that says when it is taken, what it leaves and what it does, so that
later proofs go by cases and do not unfold the functions.
-/

namespace Dlm.Cpg

open Plock ProcessGroup

variable {env : Env} {now : UInt64} {ls : Lockspace} {cg : Change}
  {older : List Change} {effect : Effect} {index : Nat}
  {change : Confchg Int32} {view : Option (List Int32)} {event : Event}
  {answers : Answers}

/-- The exits of `prepare_plocks`. -/
inductive Prepared (env : Env) (now : UInt64) (ls : Lockspace) (cg : Change)
    (older : List Change) : Lockspace × List Effect → Prop where
  | disabled (off : env.enablePlock = false) :
      Prepared env now ls cg older (ls, [])
  | alone (plock : env.enablePlock = true) (single : cg.memberCount = 1) :
      Prepared env now ls cg older
        ({ ls with
            plockCkptNode := env.plock.ourNodeid
            plocks := Plock.preparePlocks .alone ls.plocks }, [])
  | noState (plock : env.enablePlock = true) (several : cg.memberCount ≠ 1)
      (nobody : lowPlockNode cg = 0) :
      Prepared env now ls cg older
        ({ ls with
            plockCkptNode := 0
            plocks := Plock.preparePlocks .noState ls.plocks },
          closed env ls cg)
  | needed (plock : env.enablePlock = true) (several : cg.memberCount ≠ 1)
      (somebody : lowPlockNode cg ≠ 0) (need : ls.plocks.needPlocks = true) :
      Prepared env now ls cg older
        ({ ls with
            plockCkptNode := lowPlockNode cg
            plocks := Plock.preparePlocks .needed ls.plocks },
          closed env ls cg)
  | other (plock : env.enablePlock = true) (several : cg.memberCount ≠ 1)
      (somebody : lowPlockNode cg ≠ 0) (ready : ls.plocks.needPlocks = false)
      (notUs : lowPlockNode cg ≠ env.plock.ourNodeid) :
      Prepared env now ls cg older
        ({ ls with plockCkptNode := lowPlockNode cg }, closed env ls cg)
  | reuse (plock : env.enablePlock = true) (several : cg.memberCount ≠ 1)
      (somebody : lowPlockNode cg ≠ 0) (ready : ls.plocks.needPlocks = false)
      (us : lowPlockNode cg = env.plock.ourNodeid)
      (skips : nodesAdded (cg :: older) = true →
        ls.lastPlockTime < ls.lastCheckpointTime) :
      Prepared env now ls cg older
        ({ ls with plockCkptNode := lowPlockNode cg },
          closed env ls cg ++
            [sendPlocksStored
              { ls with plockCkptNode := lowPlockNode cg } cg])
  | store (plock : env.enablePlock = true) (several : cg.memberCount ≠ 1)
      (somebody : lowPlockNode cg ≠ 0) (ready : ls.plocks.needPlocks = false)
      (us : lowPlockNode cg = env.plock.ourNodeid)
      (added : nodesAdded (cg :: older) = true)
      (stale : ls.lastCheckpointTime ≤ ls.lastPlockTime) :
      Prepared env now ls cg older
        ({ ls with
            plockCkptNode := lowPlockNode cg
            lastCheckpointTime := now },
          closed env ls cg ++
            [.storeCheckpoint (Plock.storePlocks env.plock ls.plocks)] ++
            [sendPlocksStored
              { ls with
                plockCkptNode := lowPlockNode cg
                lastCheckpointTime := now } cg])

theorem preparePlocks_prepared (env : Env) (now : UInt64) (ls : Lockspace)
    (cg : Change) (older : List Change) :
    Prepared env now ls cg older (preparePlocks env now ls cg older) := by
  simp only [preparePlocks, setPlockCkptNode]
  cases plock : env.enablePlock with
  | false => exact .disabled plock
  | true =>
      simp only [Bool.not_true, Bool.false_eq_true, if_false]
      by_cases single : cg.memberCount = 1
      · rw [if_pos single]
        exact .alone plock single
      rw [if_neg single]
      by_cases nobody : lowPlockNode cg = 0
      · rw [if_pos nobody]
        have exit := @Prepared.noState env now ls cg older plock single nobody
        rw [← nobody] at exit
        exact exit
      rw [if_neg nobody]
      cases need : ls.plocks.needPlocks with
      | true => exact .needed plock single nobody need
      | false =>
          rw [if_neg Bool.false_ne_true]
          by_cases us : lowPlockNode cg = env.plock.ourNodeid
          · rw [if_neg (Decidable.not_not.mpr us)]
            cases added : nodesAdded (cg :: older) with
            | false =>
                simpa using Prepared.reuse plock single nobody need us
                  fun impossible => nomatch added.symm.trans impossible
            | true =>
                simp only [if_true, storePlocks, plock, Bool.not_true,
                  Bool.false_eq_true, if_false]
                by_cases fresh : ls.lastPlockTime < ls.lastCheckpointTime
                · simpa [fresh] using Prepared.reuse plock single nobody need
                    us (fun _ => fresh)
                · simpa [fresh] using Prepared.store plock single nobody need
                    us added (UInt64.not_lt.mp fresh)
          · rw [if_pos us]
            exact .other plock single nobody need us

theorem Prepared.mem_effects {result : Lockspace × List Effect}
    (prepared : Prepared env now ls cg older result)
    (member : effect ∈ result.2) :
    effect = .closeCheckpoint ∨
      (∃ sections, effect = .storeCheckpoint sections) ∨
      ∃ before, effect = sendPlocksStored before cg := by
  have closing : effect ∈ closed env ls cg → effect = .closeCheckpoint := by
    unfold closed
    split
    · exact List.mem_singleton.mp
    · intro impossible
      cases impossible
  cases prepared with
  | disabled => cases member
  | alone => cases member
  | noState => exact .inl (closing member)
  | needed => exact .inl (closing member)
  | other => exact .inl (closing member)
  | reuse =>
      rcases List.mem_append.mp member with first | last
      · exact .inl (closing first)
      · exact .inr (.inr ⟨_, List.mem_singleton.mp last⟩)
  | store =>
      rcases List.mem_append.mp member with front | last
      · rcases List.mem_append.mp front with first | stored
        · exact .inl (closing first)
        · exact .inr (.inl ⟨_, List.mem_singleton.mp stored⟩)
      · exact .inr (.inr ⟨_, List.mem_singleton.mp last⟩)

/-- Two lockspaces that differ in their plock state only. -/
structure SameControl (ls after : Lockspace) : Prop where
  joining : after.joining = ls.joining
  kernelStopped : after.kernelStopped = ls.kernelStopped
  fsRegistered : after.fsRegistered = ls.fsRegistered
  startedCount : after.startedCount = ls.startedCount
  startedChange : after.startedChange = ls.startedChange
  changes : after.changes = ls.changes
  nodeHistory : after.nodeHistory = ls.nodeHistory

theorem SameControl.refl (ls : Lockspace) : SameControl ls ls :=
  ⟨rfl, rfl, rfl, rfl, rfl, rfl, rfl⟩

theorem SameControl.trans {first second third : Lockspace}
    (front : SameControl first second) (back : SameControl second third) :
    SameControl first third :=
  ⟨back.joining.trans front.joining,
    back.kernelStopped.trans front.kernelStopped,
    back.fsRegistered.trans front.fsRegistered,
    back.startedCount.trans front.startedCount,
    back.startedChange.trans front.startedChange,
    back.changes.trans front.changes,
    back.nodeHistory.trans front.nodeHistory⟩

theorem Prepared.sameControl {result : Lockspace × List Effect}
    (prepared : Prepared env now ls cg older result) :
    SameControl ls result.1 := by
  cases prepared with
  | disabled => exact .refl ls
  | alone => exact ⟨rfl, rfl, rfl, rfl, rfl, rfl, rfl⟩
  | noState => exact ⟨rfl, rfl, rfl, rfl, rfl, rfl, rfl⟩
  | needed => exact ⟨rfl, rfl, rfl, rfl, rfl, rfl, rfl⟩
  | other => exact ⟨rfl, rfl, rfl, rfl, rfl, rfl, rfl⟩
  | reuse => exact ⟨rfl, rfl, rfl, rfl, rfl, rfl, rfl⟩
  | store => exact ⟨rfl, rfl, rfl, rfl, rfl, rfl, rfl⟩

theorem onPlocks_sameControl (ls : Lockspace) (now : UInt64)
    (result : Plock.Lockspace × List Plock.Effect) :
    SameControl ls (ls.onPlocks now result).1 :=
  ⟨rfl, rfl, rfl, rfl, rfl, rfl, rfl⟩

theorem receivePlocksStored_sameControl (env : Env) (answers : Answers)
    (sender : Int32) (li : LsInfo) (ls : Lockspace) :
    SameControl ls (receivePlocksStored env answers sender li ls).1 := by
  unfold receivePlocksStored
  split
  · exact .refl ls
  · exact onPlocks_sameControl ..

theorem purgeRemoved_sameControl (env : Env) (now : UInt64)
    (left : List (Int32 × Reason)) (ls : Lockspace) :
    SameControl ls (purgeRemoved env now left ls).1 := by
  induction left generalizing ls with
  | nil => exact .refl ls
  | cons gone later induction =>
      exact (onPlocks_sameControl ..).trans (induction _)

/-- The lockspace that `start_kernel` leaves. -/
theorem startKernel_fst (ls : Lockspace) (cg : Change)
    (older : List Change) :
    (startKernel ls cg older).1 =
      { ls with
        kernelStopped := false
        joining := ls.joining && !ls.kernelStopped } := by
  unfold startKernel
  cases stopped : ls.kernelStopped with
  | false =>
      cases ls
      simp_all
  | true => simp

/-- The exits of `apply_changes`. -/
inductive Applied (env : Env) (answers : Answers) (ls : Lockspace) :
    Lockspace × List Effect → Prop where
  | idle (empty : ls.changes = []) : Applied env answers ls (ls, [])
  | begin {cg : Change} {older : List Change}
      (pending : ls.changes = cg :: older)
      (state : cg.state = .waitConditions)
      (done : (waitConditionsDone env answers ls.fsRegistered
        ls.nodeHistory).1 = true) :
      Applied env answers ls
        ({ ls with
            nodeHistory := (waitConditionsDone env answers ls.fsRegistered
              ls.nodeHistory).2
            changes := { cg with state := .waitMessages } :: older },
          [sendStart ls cg])
  | wait {cg : Change} {older : List Change}
      (pending : ls.changes = cg :: older)
      (state : cg.state = .waitConditions)
      (unmet : (waitConditionsDone env answers ls.fsRegistered
        ls.nodeHistory).1 = false) :
      Applied env answers ls
        ({ ls with
            nodeHistory := (waitConditionsDone env answers ls.fsRegistered
              ls.nodeHistory).2 }, [])
  | collect {cg : Change} {older : List Change}
      (pending : ls.changes = cg :: older)
      (state : cg.state = .waitMessages)
      (missing : waitMessagesDone cg = false) :
      Applied env answers ls (ls, [])
  | complete {cg : Change} {older : List Change}
      (pending : ls.changes = cg :: older)
      (state : cg.state = .waitMessages)
      (arrived : waitMessagesDone cg = true) :
      Applied env answers ls (completeChange env answers.now ls cg older)

theorem applyChanges_applied (env : Env) (answers : Answers)
    (ls : Lockspace) :
    Applied env answers ls (applyChanges env answers ls) := by
  unfold applyChanges
  split
  · rename_i empty
    exact .idle empty
  · rename_i cg older pending
    split
    · rename_i state
      cases done : (waitConditionsDone env answers ls.fsRegistered
          ls.nodeHistory).1 with
      | false =>
          simpa [done] using Applied.wait pending state done
      | true =>
          simpa [done] using Applied.begin pending state done
    · rename_i state
      cases arrived : waitMessagesDone cg with
      | false => exact .collect pending state arrived
      | true => exact .complete pending state arrived

/-- The change is completed by one of the exits of `prepare_plocks`, after the
kernel has been started. -/
theorem completeChange_prepared (env : Env) (now : UInt64) (ls : Lockspace)
    (cg : Change) (older : List Change) :
    ∃ result,
      Prepared env now
        { ls with
          kernelStopped := false
          joining := ls.joining && !ls.kernelStopped } cg older result ∧
      completeChange env now ls cg older =
        (cleanupChanges result.1 cg,
          (startKernel ls cg older).2 ++ result.2 ++
            [.complete cg.index result.1.plockCkptNode]) := by
  refine ⟨preparePlocks env now (startKernel ls cg older).1 cg older, ?_, rfl⟩
  rw [startKernel_fst]
  exact preparePlocks_prepared ..

/-- The lockspace that a complete change leaves, apart from its plock
state. -/
structure Closed (ls : Lockspace) (cg : Change) (after : Lockspace) :
    Prop where
  kernelStopped : after.kernelStopped = false
  fsRegistered : after.fsRegistered = ls.fsRegistered
  startedChange : after.startedChange = some cg
  changes : after.changes = []
  nodeHistory : after.nodeHistory = ls.nodeHistory

theorem completeChange_closed (env : Env) (now : UInt64) (ls : Lockspace)
    (cg : Change) (older : List Change) :
    Closed ls cg (completeChange env now ls cg older).1 := by
  obtain ⟨result, prepared, equation⟩ :=
    completeChange_prepared env now ls cg older
  have same := prepared.sameControl
  rw [equation]
  exact ⟨same.kernelStopped, same.fsRegistered, rfl, rfl, same.nodeHistory⟩

theorem startKernel_send (ls : Lockspace) (cg : Change)
    (older : List Change) (li : LsInfo) :
    .send li ∉ (startKernel ls cg older).2 := by
  unfold startKernel
  cases ls.kernelStopped with
  | false => simp
  | true =>
      cases ls.joining with
      | false => simp
      | true => simp

/-- A complete change sends at most a `PLOCKS_STORED` message. -/
theorem completeChange_send {li : LsInfo}
    (member : .send li ∈ (completeChange env now ls cg older).2) :
    ∃ before, li = sendInfo .plocksStored before cg := by
  obtain ⟨result, prepared, equation⟩ :=
    completeChange_prepared env now ls cg older
  rw [equation] at member
  rcases List.mem_append.mp member with front | last
  · rcases List.mem_append.mp front with started | sent
    · exact (startKernel_send ls cg older li started).elim
    · rcases prepared.mem_effects sent with close | ⟨_, store⟩ | ⟨before, same⟩
      · cases close
      · cases store
      · cases same
        exact ⟨before, rfl⟩
  · cases List.mem_singleton.mp last

/-- What only `apply_changes` does. -/
def Effect.fromApply : Effect → Bool
  | .send _ => true
  | .storeCheckpoint _ => true
  | .setSysfsControl value => value
  | .complete _ _ => true
  | _ => false

/-- The members `add_change` marks are there when the joined nodes are
members. -/
theorem addJoined_members {joined : List Int32} {members : List Member}
    {history : List Node}
    (known : ∀ nodeid ∈ joined, nodeid ∈ members.map (·.nodeid)) :
    ∃ marked, (addJoined env joined members history).1 = some marked ∧
      marked.map (·.nodeid) = members.map (·.nodeid) ∧
      marked.map (·.start) = members.map (·.start) := by
  induction joined generalizing members history with
  | nil => exact ⟨members, rfl, rfl, rfl⟩
  | cons nodeid later induction =>
      obtain ⟨first, rest⟩ := List.forall_mem_cons.mp known
      have found : members.any (·.nodeid == nodeid) = true := by
        obtain ⟨memb, member, same⟩ := List.mem_map.mp first
        exact List.any_eq_true.mpr ⟨memb, member, beq_iff_eq.mpr same⟩
      rw [addJoined, if_pos found]
      have ids := @map_modifyFirst Member Int32 (·.nodeid == nodeid)
        (fun memb => { memb with added := true }) (·.nodeid)
        (fun _ => rfl) members
      have starts := @map_modifyFirst Member Bool (·.nodeid == nodeid)
        (fun memb => { memb with added := true }) (·.start)
        (fun _ => rfl) members
      rw [← ids] at rest
      obtain ⟨marked, result, sameIds, sameStarts⟩ := induction rest
      exact ⟨marked, result, sameIds.trans ids, sameStarts.trans starts⟩

/-- The history that `add_change` leaves. -/
def confchgHistory (env : Env) (fsRegistered : Bool)
    (change : Confchg Int32) (history : List Node) : List Node :=
  let history :=
    (addJoined env change.joined (change.members.map Member.new)
      (addLeft env fsRegistered change.left history)).2
  if env.plock.ourNodeid ∈ change.joined then
    change.members.foldl nodeHistoryInit history
  else history

/-- The change that `add_change` puts in front. -/
structure Fresh (index : Nat) (change : Confchg Int32) (cg : Change) :
    Prop where
  index : cg.index = index
  ids : cg.members.map (·.nodeid) = change.members
  unstarted : ∀ memb ∈ cg.members, memb.start = false
  memberCount : cg.memberCount = change.members.length
  joinedCount : cg.joinedCount = change.joined.length
  removeCount : cg.removeCount = change.left.length
  failedCount : cg.failedCount = (change.left.filter (·.2.failed)).length
  state : cg.state = .waitConditions

theorem addChange_eq (ls : Lockspace)
    (known : ∀ n ∈ change.joined, n ∈ change.members) :
    ∃ cg, Fresh index change cg ∧
      addChange env index change ls =
        (some cg,
          { ls with
            changeSeq := nextSeq ls.changeSeq
            changes := cg :: ls.changes
            nodeHistory := confchgHistory env ls.fsRegistered change
              ls.nodeHistory }) := by
  have ids : (change.members.map Member.new).map (·.nodeid) =
      change.members := by
    rw [List.map_map]
    exact List.map_id _
  obtain ⟨marked, result, sameIds, sameStarts⟩ :=
    @addJoined_members env change.joined (change.members.map Member.new)
      (addLeft env ls.fsRegistered change.left ls.nodeHistory)
      (by rw [ids]; exact known)
  refine ⟨newChange index change (nextSeq ls.changeSeq) marked,
    ⟨rfl, sameIds.trans ids, ?_, rfl, rfl, rfl, rfl, rfl⟩, ?_⟩
  · intro memb member
    have started : memb.start ∈ marked.map (·.start) :=
      List.mem_map_of_mem member
    rw [sameStarts, List.map_map] at started
    obtain ⟨_, _, same⟩ := List.mem_map.mp started
    exact same.symm
  · unfold addChange
    simp only [confchgHistory]
    cases shape : addJoined env change.joined (change.members.map Member.new)
        (addLeft env ls.fsRegistered change.left ls.nodeHistory) with
    | mk found history =>
        rw [shape] at result
        cases result
        rfl

/-- What a handler does before it calls `apply_changes`, if it does. -/
def arrival (env : Env) (answers : Answers) (event : Event)
    (ls : Lockspace) : Lockspace × List Effect :=
  match event with
  | .confchg index change =>
      let (ls, stopped) := stopKernel (addChange env index change ls).2
      let (ls, purged) := purgeRemoved env answers.now change.left ls
      (ls, kicked change.left ++ stopped ++ purged)
  | .info sender li =>
      match li.type with
      | .start => (receiveStart env answers.now sender li ls, [])
      | .plocksStored => receivePlocksStored env answers sender li ls
  | .plock message =>
      ls.onPlocks answers.now (receive env.plock ls.plocks message)
  | .poll => (ls, [])
  | _ => handle env answers event ls

/-- The events whose handler calls `apply_changes`. -/
def Event.applies : Event → Bool
  | .confchg _ _ => true
  | .info _ _ => true
  | .plock _ => true
  | .poll => true
  | _ => false

theorem Event.Possible.known
    (possible : (Event.confchg index change).Possible env view) :
    ∀ n ∈ change.joined, n ∈ change.members := by
  cases view with
  | none => exact possible.joined_members
  | some members => exact possible.joined_members

theorem handle_eq (answers : Answers) (ls : Lockspace)
    (possible : event.Possible env view) :
    handle env answers event ls =
      if event.applies then thenApply env answers (arrival env answers event ls)
      else arrival env answers event ls := by
  cases event with
  | confchg index change =>
      obtain ⟨cg, _, added⟩ :=
        @addChange_eq env index change ls possible.known
      simp [handle, confchgCb, Event.applies, thenApply, arrival, added]
  | info sender li => rfl
  | plock message => rfl
  | poll => rfl
  | read info => rfl
  | drop aged => rfl
  | fsRegister => rfl
  | fsUnregister => rfl
  | fsNotified nodeid => rfl

theorem map_updateOldest {β : Type} {test : Change → Bool}
    {change : Change → Change} {project : Change → β}
    (same : ∀ cg, project (change cg) = project cg) (changes : List Change) :
    (updateOldest test change changes).map project = changes.map project := by
  rw [updateOldest, List.map_reverse, map_modifyFirst same,
    List.map_reverse, List.reverse_reverse]

section Oldest

variable {test : Change → Bool} {change : Change → Change}

theorem exists_oldest {changes : List Change}
    (found : changes.any test = true) :
    ∃ front cg back, changes = front ++ cg :: back ∧ test cg = true ∧
      ∀ older ∈ back, test older = false := by
  induction changes with
  | nil => cases found
  | cons head tail induction =>
      by_cases later : tail.any test = true
      · obtain ⟨front, cg, back, rfl, matched, rest⟩ := induction later
        exact ⟨head :: front, cg, back, rfl, matched, rest⟩
      · have none_ : ∀ older ∈ tail, test older = false := by
          simpa using later
        have first : test head = true := by
          simpa [later] using found
        exact ⟨[], head, tail, rfl, first, none_⟩

/-- `find_change` finds the oldest match. -/
theorem updateOldest_split {front back : List Change}
    (matched : test cg = true) (rest : ∀ older ∈ back, test older = false) :
    updateOldest test change (front ++ cg :: back) =
      front ++ change cg :: back := by
  have reversed : (front ++ cg :: back).reverse =
      back.reverse ++ cg :: front.reverse := by
    simp
  rw [updateOldest, reversed, modifyFirst_split (by simpa using rest) matched]
  simp

/-- Rewriting the oldest change that passes the test leaves the newest one or
rewrites it. -/
theorem updateOldest_head {P : Change → Prop}
    (found : (cg :: older).any test = true) (kept : P cg → P (change cg))
    (has : P cg) :
    ∃ newest rest, updateOldest test change (cg :: older) = newest :: rest ∧
      P newest := by
  obtain ⟨front, oldest, back, same, matched, rest⟩ := exists_oldest found
  rw [same, updateOldest_split matched rest]
  cases front with
  | nil =>
      cases same
      exact ⟨_, _, rfl, kept has⟩
  | cons head tail =>
      cases same
      exact ⟨_, _, rfl, has⟩

end Oldest

/-- The exits of `receive_start`. -/
inductive Marked (env : Env) (now : UInt64) (sender : Int32) (li : LsInfo)
    (ls : Lockspace) : Lockspace → Prop where
  | unmatched
      (alien : ls.changes.any (matchChange env sender li) = false) :
      Marked env now sender li ls ls
  | refused (found : ls.changes.any (matchChange env sender li) = true)
      (refuses : refusesStart ls.changes sender li = true) :
      Marked env now sender li ls
        { ls with
          changes := updateOldest (matchChange env sender li)
            (updateMemb sender fun memb =>
              { memb with startFlags := li.flags, disallowed := true })
            ls.changes }
  | started (found : ls.changes.any (matchChange env sender li) = true)
      (accepts : refusesStart ls.changes sender li = false) :
      Marked env now sender li ls
        { ls with
          nodeHistory := nodeHistoryStart now ls.nodeHistory sender
          changes := updateOldest (matchChange env sender li)
            (updateMemb sender fun memb =>
              { memb with startFlags := li.flags, start := true })
            ls.changes }

theorem receiveStart_marked (env : Env) (now : UInt64) (sender : Int32)
    (li : LsInfo) (ls : Lockspace) :
    Marked env now sender li ls (receiveStart env now sender li ls) := by
  unfold receiveStart
  cases found : ls.changes.any (matchChange env sender li) with
  | false => exact .unmatched found
  | true =>
      cases refuses : refusesStart ls.changes sender li with
      | false => exact .started found refuses
      | true => exact .refused found refuses

/-- The lockspace before `apply_changes` sees a new change, apart from its
plock state. -/
structure Opened (ls : Lockspace) (cg : Change) (history : List Node)
    (before : Lockspace) : Prop where
  joining : before.joining = ls.joining
  kernelStopped : before.kernelStopped = true
  fsRegistered : before.fsRegistered = ls.fsRegistered
  startedCount : before.startedCount = ls.startedCount
  startedChange : before.startedChange = ls.startedChange
  changes : before.changes = cg :: ls.changes
  nodeHistory : before.nodeHistory = history

/-- What an event leaves of the lockspace, apart from its plock state, before
`apply_changes`. -/
inductive Arrived (env : Env) (answers : Answers) (ls : Lockspace) :
    Event → Lockspace → Prop where
  | confchg {index : Nat} {change : Confchg Int32} {cg : Change}
      {before : Lockspace} (fresh : Fresh index change cg)
      (opened : Opened ls cg
        (confchgHistory env ls.fsRegistered change ls.nodeHistory) before) :
      Arrived env answers ls (.confchg index change) before
  | start {sender : Int32} {li : LsInfo} (kind : li.type = .start) :
      Arrived env answers ls (.info sender li)
        (receiveStart env answers.now sender li ls)
  | plocks {event : Event} {before : Lockspace}
      (same : SameControl ls before) :
      Arrived env answers ls event before
  | registered (value : Bool) {event : Event}
      (kind : event = if value then .fsRegister else .fsUnregister) :
      Arrived env answers ls event { ls with fsRegistered := value }
  | notified (nodeid : Int32) :
      Arrived env answers ls (.fsNotified nodeid)
        { ls with nodeHistory := setFsNotified ls.nodeHistory nodeid }

theorem stopKernel_fst (ls : Lockspace) :
    (stopKernel ls).1 = { ls with kernelStopped := true } := by
  unfold stopKernel
  cases stopped : ls.kernelStopped with
  | false => simp
  | true =>
      cases ls
      simp_all

theorem arrival_opened (answers : Answers) (ls : Lockspace)
    (known : ∀ n ∈ change.joined, n ∈ change.members) :
    ∃ cg, Fresh index change cg ∧
      Opened ls cg
        (confchgHistory env ls.fsRegistered change ls.nodeHistory)
        (arrival env answers (.confchg index change) ls).1 := by
  obtain ⟨cg, fresh, added⟩ := @addChange_eq env index change ls known
  have same := purgeRemoved_sameControl env answers.now change.left
    (stopKernel (addChange env index change ls).2).1
  rw [stopKernel_fst, added] at same
  refine ⟨cg, fresh, ?_⟩
  simp only [arrival, stopKernel_fst, added]
  exact ⟨same.joining, same.kernelStopped, same.fsRegistered,
    same.startedCount, same.startedChange, same.changes, same.nodeHistory⟩

/-- The new change has the members that `add_change` has marked. -/
theorem arrival_newChange (answers : Answers) (ls : Lockspace)
    (known : ∀ n ∈ change.joined, n ∈ change.members) :
    ∃ marked history,
      (addJoined env change.joined (change.members.map Member.new)
        history).1 = some marked ∧
      marked.map (·.nodeid) = change.members ∧
      (arrival env answers (.confchg index change) ls).1.changes =
        newChange index change (nextSeq ls.changeSeq) marked ::
          ls.changes := by
  obtain ⟨marked, result, sameIds, _⟩ :=
    @addJoined_members env change.joined (change.members.map Member.new)
      (addLeft env ls.fsRegistered change.left ls.nodeHistory)
      (by simpa [Member.new, Function.comp_def] using known)
  refine ⟨marked, _, result,
    by simpa [Member.new, Function.comp_def] using sameIds, ?_⟩
  calc
    (arrival env answers (.confchg index change) ls).1.changes =
        (stopKernel (addChange env index change ls).2).1.changes :=
      (purgeRemoved_sameControl env answers.now change.left _).changes
    _ = (addChange env index change ls).2.changes := by
      rw [stopKernel_fst]
    _ = newChange index change (nextSeq ls.changeSeq) marked ::
        ls.changes := by
      simp only [addChange]
      cases shape : addJoined env change.joined
          (change.members.map Member.new)
          (addLeft env ls.fsRegistered change.left ls.nodeHistory) with
      | mk found history =>
          rw [shape] at result
          cases result
          rfl

theorem arrival_arrived (answers : Answers) (ls : Lockspace)
    (possible : event.Possible env view) :
    Arrived env answers ls event (arrival env answers event ls).1 := by
  cases event with
  | confchg index change =>
      obtain ⟨cg, fresh, opened⟩ :=
        @arrival_opened env index change answers ls possible.known
      exact .confchg fresh opened
  | info sender li =>
      cases kind : li.type with
      | start =>
          simp only [arrival, kind]
          exact .start kind
      | plocksStored =>
          simp only [arrival, kind]
          exact .plocks (receivePlocksStored_sameControl ..)
  | plock message => exact .plocks (onPlocks_sameControl ..)
  | poll => exact .plocks (.refl ls)
  | read info =>
      simp only [arrival, handle]
      split
      · exact .plocks (.refl ls)
      · exact .plocks (onPlocks_sameControl ..)
  | drop aged =>
      simp only [arrival, handle]
      split
      · exact .plocks (.refl ls)
      · exact .plocks (onPlocks_sameControl ..)
  | fsRegister => exact .registered true rfl
  | fsUnregister => exact .registered false rfl
  | fsNotified nodeid => exact .notified nodeid

/-- The configuration change that an event delivers, if it does. -/
def Event.confchgs : Event → List (Confchg Int32)
  | .confchg _ change => [change]
  | _ => []

/-- What `receive_start` does not change. -/
def StartStable {β : Type} (project : Change → β) : Prop :=
  ∀ sender flags cg,
    project (updateMemb sender (fun memb =>
      { memb with startFlags := flags, disallowed := true }) cg) =
        project cg ∧
    project (updateMemb sender (fun memb =>
      { memb with startFlags := flags, start := true }) cg) = project cg

theorem StartStable.receiveStart {β : Type} {project : Change → β}
    (stable : StartStable project) (env : Env) (now : UInt64)
    (sender : Int32) (li : LsInfo) (ls : Lockspace) :
    (receiveStart env now sender li ls).changes.map project =
      ls.changes.map project := by
  have marked := receiveStart_marked env now sender li ls
  generalize Cpg.receiveStart env now sender li ls = after at marked ⊢
  cases marked with
  | unmatched => rfl
  | refused =>
      exact map_updateOldest (fun cg => (stable sender li.flags cg).1) _
  | started =>
      exact map_updateOldest (fun cg => (stable sender li.flags cg).2) _

theorem StartStable.arrival {β : Type} {project : Change → β}
    (stable : StartStable project) (possible : event.Possible env view)
    (quiet : event.confchgs = []) :
    (arrival env answers event ls).1.changes.map project =
      ls.changes.map project := by
  have arrived := arrival_arrived answers ls possible
  generalize (Cpg.arrival env answers event ls).1 = before at arrived ⊢
  cases arrived with
  | confchg => cases quiet
  | start => exact stable.receiveStart ..
  | plocks same => rw [same.changes]
  | registered => rfl
  | notified => rfl

/-- What a handler does before it calls `apply_changes`. -/
def Effect.atArrival : Effect → Bool
  | .plock _ => true
  | .setSysfsControl value => !value
  | .kickNodeFromCluster _ => true
  | _ => false

theorem onPlocks_effects {effects : List Plock.Effect}
    (member : effect ∈ effects.map Effect.plock) :
    effect.atArrival = true := by
  obtain ⟨_, _, rfl⟩ := List.mem_map.mp member
  rfl

theorem purgeRemoved_effects {left : List (Int32 × Reason)}
    (member : effect ∈ (purgeRemoved env now left ls).2) :
    effect.atArrival = true := by
  induction left generalizing ls with
  | nil => cases member
  | cons gone later induction =>
      rcases List.mem_append.mp member with first | more
      · exact onPlocks_effects first
      · exact induction more

theorem kicked_effects {left : List (Int32 × Reason)}
    (member : effect ∈ kicked left) : effect.atArrival = true := by
  obtain ⟨_, _, rfl⟩ := List.mem_map.mp member
  rfl

theorem stopKernel_effects (member : effect ∈ (stopKernel ls).2) :
    effect.atArrival = true := by
  revert member
  unfold stopKernel
  split
  · intro member
    rw [List.mem_singleton.mp member]
    rfl
  · intro impossible
    cases impossible

theorem arrival_atArrival (member : effect ∈ (arrival env answers event ls).2) :
    effect.atArrival = true := by
  cases event with
  | confchg index change =>
      rcases List.mem_append.mp member with front | purged
      · rcases List.mem_append.mp front with out | stopped
        · exact kicked_effects out
        · exact stopKernel_effects stopped
      · exact purgeRemoved_effects purged
  | info sender li =>
      revert member
      cases kind : li.type with
      | start =>
          simp only [arrival, kind]
          intro impossible
          cases impossible
      | plocksStored =>
          simp only [arrival, kind, receivePlocksStored]
          split
          · intro impossible
            cases impossible
          · exact onPlocks_effects
  | plock message => exact onPlocks_effects member
  | poll => cases member
  | read info =>
      revert member
      simp only [arrival, handle]
      split
      · intro impossible
        cases impossible
      · exact onPlocks_effects
  | drop aged =>
      revert member
      simp only [arrival, handle]
      split
      · intro impossible
        cases impossible
      · exact onPlocks_effects
  | fsRegister => cases member
  | fsUnregister => cases member
  | fsNotified nodeid => cases member

theorem arrival_effects (member : effect ∈ (arrival env answers event ls).2) :
    effect.fromApply = false := by
  have kind := arrival_atArrival member
  cases effect with
  | setSysfsControl value =>
      cases value with
      | false => rfl
      | true => cases kind
  | plock | kickNodeFromCluster => rfl
  | send | storeCheckpoint | closeCheckpoint | setSysfsId
  | setConfigfsMembers | setSysfsEventDone | complete => cases kind

end Dlm.Cpg
