import Dlm.Cpg.Matched

/-!
# What the stream says about the changes

Which delivery completes a change can be read off the stream: it is the one
with which the last member of the newest change has sent its `START` for it.
A daemon whose changes are marked as the stream has it completes what the
stream says when it calls `apply_changes`.
-/

namespace Dlm.Cpg

open Plock ProcessGroup

variable {cg : Change} {older : List Change}

/-- The flags of the `START` that a node has sent for a change. -/
def startOf (stream : Log) (index : Nat) (m : Int32) : Option Flags :=
  stream.findSome? fun entry =>
    match entry with
    | .message sender (.info li) =>
        if sender = m ∧ li.type = .start ∧ li.about = index then
          some li.flags
        else none
    | _ => none

def allStarted (stream : Log) (index : Nat) (members : List Int32) : Bool :=
  members.all fun m => (startOf stream index m).isSome

/-- The lowest of the members that had plock state in their `START`, or 0. -/
def lowStarted (stream : Log) (index : Nat) (members : List Int32) : Int32 :=
  members.foldl
    (fun low m =>
      if !(startOf stream index m).any (·.havePlock) then low
      else if low = 0 ∨ m < low then m
      else low) 0

/-- The checkpoint node of a change that all members have started. -/
def ckptNodeOf (enabled : Bool) (stream : Log) (index : Nat)
    (members : List Int32) : Int32 :=
  if !enabled then 0
  else if members.length = 1 then members.headD 0
  else lowStarted stream index members

/-- The newest configuration change of a stream and its index. -/
def newest (stream : Log) : Option (Nat × Confchg Int32) :=
  (stream.zipIdx.filterMap fun entry =>
    match entry.1 with
    | .confchg change => some (entry.2, change)
    | .message _ _ => none).getLast?

/-- The change that a delivery completes, and its checkpoint node. -/
def verdict (enabled : Bool) (log : Log) (delivery : Nat) :
    Option (Nat × Int32) :=
  (newest (log.take (delivery + 1))).bind fun found =>
    if allStarted (log.take (delivery + 1)) found.1 found.2.members &&
        !allStarted (log.take delivery) found.1 found.2.members then
      some (found.1, ckptNodeOf enabled (log.take (delivery + 1)) found.1
        found.2.members)
    else none

section Stream

variable {stream : Log} {index : Nat} {m sender : Int32} {flags : Flags}

theorem startOf_append (front back : Log) (index : Nat) (m : Int32) :
    startOf (front ++ back) index m =
      (startOf front index m).or (startOf back index m) :=
  List.findSome?_append

theorem startOf_start {li : LsInfo} (kind : li.type = .start) :
    startOf [.message sender (.info li)] index m =
      if sender = m ∧ li.about = index then some li.flags else none := by
  by_cases ours : sender = m ∧ li.about = index
  · simp [startOf, kind, ours]
  · have other : ¬(sender = m ∧ li.type = .start ∧ li.about = index) :=
      fun all => ours ⟨all.1, all.2.2⟩
    simp [startOf, ours, other]

theorem startOf_stored {li : LsInfo} (kind : li.type = .plocksStored) :
    startOf [.message sender (.info li)] index m = none := by
  simp [startOf, kind]

/-- The message that a start is from. -/
theorem exists_of_startOf (found : startOf stream index m = some flags) :
    ∃ (place : Nat) (li : LsInfo),
      stream[place]? = some (.message m (.info li)) ∧
        li.type = .start ∧ li.about = index := by
  obtain ⟨entry, member, shape⟩ := List.exists_of_findSome?_eq_some found
  obtain ⟨place, here⟩ := List.mem_iff_getElem?.mp member
  cases entry with
  | confchg change => cases shape
  | message sender body =>
      cases body with
      | plock type info => cases shape
      | info li =>
          dsimp only at shape
          split at shape
          · rename_i ours
            obtain ⟨rfl, kind, about⟩ := ours
            exact ⟨place, li, here, kind, about⟩
          · cases shape

theorem allStarted_append {members : List Int32}
    (before : allStarted stream index members = true) (later : Log) :
    allStarted (stream ++ later) index members = true := by
  apply List.all_eq_true.mpr
  intro m member
  have started := List.all_eq_true.mp before m member
  rw [startOf_append]
  cases found : startOf stream index m with
  | none =>
      rw [found] at started
      cases started
  | some flags => rfl

theorem allStarted_later {log : Log} {first last : Nat}
    {members : List Int32} (order : first ≤ last)
    (before : allStarted (log.take first) index members = true) :
    allStarted (log.take last) index members = true := by
  have parts := List.take_append_drop first (log.take last)
  rw [List.take_take, Nat.min_eq_left order] at parts
  rw [← parts]
  exact allStarted_append before _

/-- The newest change is an entry of the stream. -/
theorem entry_of_newest {change : Confchg Int32}
    (found : newest stream = some (index, change)) :
    stream[index]? = some (.confchg change) := by
  obtain ⟨entry, member, shape⟩ :=
    List.mem_filterMap.mp (List.mem_of_getLast? found)
  have here := List.mem_zipIdx_iff_getElem?.mp member
  cases kind : entry.1 with
  | confchg other =>
      rw [kind] at here
      simp only [kind, Option.some.injEq, Prod.mk.injEq] at shape
      obtain ⟨rfl, rfl⟩ := shape
      exact here
  | message sender body =>
      simp only [kind] at shape
      cases shape

theorem newest_confchg (stream : Log) (change : Confchg Int32) :
    newest (stream ++ [.confchg change]) = some (stream.length, change) := by
  simp [newest, List.zipIdx_append]

theorem newest_message (stream : Log) (sender : Int32) (body : Payload) :
    newest (stream ++ [.message sender body]) = newest stream := by
  simp [newest, List.zipIdx_append]

end Stream

/-- The members of the change are marked as the stream has it. -/
def Tally (stream : Log) (cg : Change) : Prop :=
  ∀ memb ∈ cg.members, startOf stream cg.index memb.nodeid =
    if memb.start then some memb.startFlags else none

section Tally

variable {stream : Log} {sender : Int32} {li : LsInfo}

theorem Tally.done (tally : Tally stream cg) :
    allStarted stream cg.index (cg.members.map (·.nodeid)) =
      waitMessagesDone cg := by
  rw [allStarted, List.all_map, waitMessagesDone, Bool.eq_iff_iff,
    List.all_eq_true, List.all_eq_true]
  apply forall₂_congr
  intro memb member
  rw [Function.comp_apply, tally memb member]
  cases memb.start with
  | false => simp
  | true => simp

theorem Tally.low (tally : Tally stream cg)
    (done : waitMessagesDone cg = true) :
    lowPlockNode cg =
      lowStarted stream cg.index (cg.members.map (·.nodeid)) := by
  rw [lowPlockNode, lowStarted, List.foldl_map]
  apply List.foldl_ext
  intro low memb member
  have started := List.all_eq_true.mp done memb member
  rw [tally memb member, started]
  rfl

/-- An entry that starts nothing here. -/
theorem Tally.quiet (tally : Tally stream cg) {entry : Entry Int32 Payload}
    (silent : ∀ m, startOf [entry] cg.index m = none) :
    Tally (stream ++ [entry]) cg := by
  intro memb member
  rw [startOf_append, silent, Option.or_none]
  exact tally memb member

/-- The `START` is marked in the change that it was sent for. -/
theorem Tally.mark (tally : Tally stream cg)
    (different : (cg.members.map (·.nodeid)).Nodup)
    (kind : li.type = .start) (about : cg.index = li.about)
    (first : startOf stream li.about sender = none) :
    Tally (stream ++ [.message sender (.info li)])
      (updateMemb sender (fun memb =>
        { memb with startFlags := li.flags, start := true }) cg) := by
  intro memb member
  rw [updateMemb, modifyFirst_eq_map different] at member
  obtain ⟨old, known, rfl⟩ := List.mem_map.mp member
  have before := tally old known
  simp only [updateMemb]
  rw [startOf_append, startOf_start kind]
  by_cases ours : old.nodeid = sender
  · simp [ours, about, first]
  · simp [ours, Ne.symm ours, before]

/-- `receive_start` marks the `START` where it belongs. -/
theorem tally_receiveStart {env : Env} {now : UInt64} {ls : Lockspace}
    (tally : ∀ cg ∈ ls.changes, Tally stream cg)
    (falling : ls.changes.Pairwise fun newer older =>
      older.index < newer.index)
    (different : ∀ cg ∈ ls.changes, (cg.members.map (·.nodeid)).Nodup)
    (kind : li.type = .start)
    (first : startOf stream li.about sender = none)
    (found : ∀ cg ∈ ls.changes, cg.index = li.about →
      matchChange env sender li cg = true)
    (attributed : ∀ cg ∈ ls.changes, matchChange env sender li cg = true →
      cg.index = li.about)
    (accepted : ls.changes.any (matchChange env sender li) = true →
      refusesStart ls.changes sender li = false) :
    ∀ cg ∈ (receiveStart env now sender li ls).changes,
      Tally (stream ++ [.message sender (.info li)]) cg := by
  have elsewhere : ∀ cg ∈ ls.changes, cg.index ≠ li.about →
      Tally (stream ++ [.message sender (.info li)]) cg := by
    intro cg member other
    apply (tally cg member).quiet
    intro m
    rw [startOf_start kind, if_neg]
    exact fun ours => other ours.2.symm
  have marked := receiveStart_marked env now sender li ls
  generalize receiveStart env now sender li ls = after at marked ⊢
  cases marked with
  | unmatched alien =>
      intro cg member
      apply elsewhere cg member
      intro same
      rw [List.any_eq_false] at alien
      exact alien cg member (found cg member same)
  | refused matched refuses =>
      rw [accepted matched] at refuses
      cases refuses
  | started matched accepts =>
      obtain ⟨front, oldest, back, shape, passes, rest⟩ :=
        exists_oldest matched
      have known : oldest ∈ ls.changes := by
        rw [shape]
        exact List.mem_append_right _ List.mem_cons_self
      have about := attributed oldest known passes
      rw [shape] at falling
      obtain ⟨-, behind, before⟩ := List.pairwise_append.mp falling
      simp only [shape, updateOldest_split passes rest]
      intro cg member
      rcases List.mem_append.mp member with newer | member
      · apply elsewhere cg
        · rw [shape]
          exact List.mem_append_left _ newer
        · have order := before cg newer oldest List.mem_cons_self
          omega
      · rcases List.mem_cons.mp member with rfl | older
        · exact (tally oldest known).mark (different oldest known) kind about
            first
        · apply elsewhere cg
          · rw [shape]
            exact List.mem_append_right _ (List.mem_cons_of_mem _ older)
          · have order := (List.pairwise_cons.mp behind).1 cg older
            omega

end Tally

/-- What holds of a daemon before `apply_changes`: the marks, the newest change
in front, which waits for messages if it has all of them, and nothing pending
only if the newest change is complete. -/
structure Gathered (enabled : Bool) (born : Nat) (stream : Log)
    (ls : Lockspace) : Prop where
  tally : ∀ cg ∈ ls.changes, Tally stream cg
  front : ∀ cg older, ls.changes = cg :: older →
    ∃ change, newest stream = some (cg.index, change) ∧ Copies change cg
  waits : ∀ cg older, ls.changes = cg :: older →
    waitMessagesDone cg = true → cg.state = .waitMessages
  closed : born < stream.length → ls.changes = [] → ∀ index change,
    newest stream = some (index, change) →
    allStarted stream index change.members = true
  unset : enabled = false → ls.plockCkptNode = 0

/-- What holds of a daemon between two events. -/
structure Tallied (enabled : Bool) (born : Nat) (stream : Log)
    (ls : Lockspace) : Prop extends Gathered enabled born stream ls where
  missing : ∀ cg older, ls.changes = cg :: older →
    waitMessagesDone cg = false

/-- The change that `apply_changes` is to complete. -/
def due (enabled : Bool) (stream : Log) (ls : Lockspace) :
    Option (Nat × Int32) :=
  ls.changes.head?.bind fun cg =>
    if waitMessagesDone cg then
      some (cg.index, ckptNodeOf enabled stream cg.index
        (cg.members.map (·.nodeid)))
    else none

section Apply

variable {enabled : Bool} {born : Nat} {stream : Log} {ls : Lockspace}
  {n : Int32} {env : Env}

theorem completeChange_plockCkptNode (env : Env) (now : UInt64)
    (ls : Lockspace) (cg : Change) (older : List Change) :
    (completeChange env now ls cg older).1.plockCkptNode =
      if !env.enablePlock then ls.plockCkptNode
      else if cg.memberCount = 1 then env.plock.ourNodeid
      else lowPlockNode cg := by
  obtain ⟨result, prepared, equation⟩ :=
    completeChange_prepared env now ls cg older
  rw [equation]
  cases prepared with
  | disabled off => simp [cleanupChanges, off]
  | alone on single => simp [cleanupChanges, on, single]
  | noState on more nobody => simp [cleanupChanges, on, more, nobody]
  | needed on more => simp [cleanupChanges, on, more]
  | other on more => simp [cleanupChanges, on, more]
  | reuse on more => simp [cleanupChanges, on, more]
  | store on more => simp [cleanupChanges, on, more]

theorem completeChange_ckptNodeOf {change : Confchg Int32} (now : UInt64)
    (gathered : Gathered enabled born stream ls)
    (plock : env.enablePlock = enabled) (us : env.plock.ourNodeid = n)
    (member : n ∈ change.members) (copies : Copies change cg)
    (tally : Tally stream cg) (done : waitMessagesDone cg = true) :
    (completeChange env now ls cg older).1.plockCkptNode =
      ckptNodeOf enabled stream cg.index (cg.members.map (·.nodeid)) := by
  rw [completeChange_plockCkptNode, plock, ckptNodeOf, copies.ids,
    copies.memberCount]
  cases enabled with
  | false => exact gathered.unset rfl
  | true =>
      simp only [Bool.not_true, Bool.false_eq_true, if_false]
      split
      · rename_i single
        obtain ⟨only, shape⟩ := List.length_eq_one_iff.mp single
        rw [shape] at member ⊢
        rw [us]
        exact List.mem_singleton.mp member
      · rw [← copies.ids]
        exact tally.low done

theorem Gathered.missing_of_conditions
    (gathered : Gathered enabled born stream ls)
    (pending : ls.changes = cg :: older) (state : cg.state = .waitConditions) :
    waitMessagesDone cg = false := by
  cases done : waitMessagesDone cg with
  | false => rfl
  | true =>
      have waits := gathered.waits cg older pending done
      rw [state] at waits
      cases waits

theorem due_of_missing (pending : ls.changes = cg :: older)
    (missing : waitMessagesDone cg = false) : due enabled stream ls = none := by
  simp [due, pending, missing]

/-- A lockspace whose newest change is not complete and is not closed. -/
theorem Gathered.unfinished (gathered : Gathered enabled born stream ls)
    (pending : ls.changes = cg :: older)
    (missing : waitMessagesDone cg = false) :
    Tallied enabled born stream ls := by
  refine ⟨gathered, ?_⟩
  intro other rest shape
  rw [pending] at shape
  cases shape
  exact missing

/-- A lockspace without pending changes. -/
theorem Tallied.of_empty (empty : ls.changes = [])
    (closed : born < stream.length → ∀ index change,
      newest stream = some (index, change) →
      allStarted stream index change.members = true)
    (unset : enabled = false → ls.plockCkptNode = 0) :
    Tallied enabled born stream ls := by
  have nothing : ∀ cg older, ls.changes ≠ cg :: older := by
    intro cg older pending
    rw [empty] at pending
    cases pending
  refine ⟨⟨?_, ?_, ?_, fun begun _ => closed begun, unset⟩, ?_⟩
  · rw [empty]
    exact List.forall_mem_nil _
  · exact fun cg older pending => (nothing cg older pending).elim
  · exact fun cg older pending => (nothing cg older pending).elim
  · exact fun cg older pending => (nothing cg older pending).elim

/-- `apply_changes` completes what is due. -/
theorem Gathered.apply (gathered : Gathered enabled born stream ls)
    (plock : env.enablePlock = enabled) (us : env.plock.ourNodeid = n)
    (member : ∀ cg ∈ ls.changes, n ∈ cg.members.map (·.nodeid))
    (answers : Answers) :
    completedBy (applyChanges env answers ls).2 = due enabled stream ls ∧
      Tallied enabled born stream (applyChanges env answers ls).1 := by
  have applied := applyChanges_applied env answers ls
  generalize applyChanges env answers ls = result at applied ⊢
  cases applied with
  | idle empty =>
      refine ⟨by simp [due, empty, completedBy], .of_empty empty ?_
        gathered.unset⟩
      exact fun begun => gathered.closed begun empty
  | @begin cg older pending state done =>
      have missing := gathered.missing_of_conditions pending state
      obtain ⟨change, newest, copies⟩ := gathered.front cg older pending
      refine ⟨(due_of_missing pending missing).symm,
        ⟨?_, ?_, ?_, ?_, gathered.unset⟩, ?_⟩
      · intro other listed
        rcases List.mem_cons.mp listed with rfl | old
        · exact gathered.tally cg (mem_of_front pending)
        · exact gathered.tally other
            (by rw [pending]; exact List.mem_cons_of_mem _ old)
      · intro other rest shape
        cases shape
        exact ⟨change, newest, copies.ids, copies.memberCount,
          copies.joinedCount, copies.removeCount, copies.failedCount⟩
      · intro other rest shape _
        cases shape
        rfl
      · intro _ impossible
        cases impossible
      · intro other rest shape
        cases shape
        exact missing
  | wait pending state =>
      have missing := gathered.missing_of_conditions pending state
      refine ⟨(due_of_missing pending missing).symm, ?_⟩
      obtain ⟨same, missing⟩ := gathered.unfinished pending missing
      exact ⟨⟨same.tally, same.front, same.waits, same.closed, same.unset⟩,
        missing⟩
  | collect pending state missing =>
      exact ⟨(due_of_missing pending missing).symm,
        gathered.unfinished pending missing⟩
  | @complete cg older pending state arrived =>
      have listed := mem_of_front pending
      have tally := gathered.tally cg listed
      obtain ⟨change, shape, copies⟩ := gathered.front cg older pending
      have known := member cg listed
      rw [copies.ids] at known
      have closed := completeChange_closed env answers.now ls cg older
      constructor
      · rw [completeChange_completedBy,
          completeChange_ckptNodeOf answers.now gathered plock us known
            copies tally arrived]
        simp [due, pending, arrived]
      · apply Tallied.of_empty closed.changes
        · intro _ index other found
          rw [shape] at found
          cases found
          rw [← copies.ids, tally.done]
          exact arrived
        · intro off
          rw [completeChange_plockCkptNode, plock, off]
          exact gathered.unset off

end Apply

end Dlm.Cpg
