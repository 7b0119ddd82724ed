import Dlm.Cpg.Group

/-!
# Changes and messages in the stream

A pending change is a copy of a configuration change of the stream, and a
`START` or `PLOCKS_STORED` message describes the one that it was sent for.  The
two are compared by counts and members only, but the history that both carry
says which entry they stand for.
-/

namespace Dlm.Cpg

open Plock ProcessGroup

variable {sender : Int32} {change : Confchg Int32} {cg : Change} {log : Log}
  {env : Env}

section Changes

/-- The entry at the index is a configuration change. -/
def IsChange (log : Log) (index : Nat) : Prop :=
  ∃ change, log[index]? = some (.confchg change)

/-- The last configuration change in front of a position. -/
structure LastChange (log : Log) (position index : Nat) : Prop where
  before : index < position
  isChange : IsChange log index
  last : ∀ other, index < other → other < position → ¬ IsChange log other

variable {position index other : Nat}

theorem IsChange.grow (isChange : IsChange log index)
    (entry : Entry Int32 Payload) : IsChange (log ++ [entry]) index := by
  obtain ⟨change, here⟩ := isChange
  exact ⟨change, getElem?_append_of_some here⟩

theorem IsChange.of_grow {entry : Entry Int32 Payload}
    (isChange : IsChange (log ++ [entry]) index)
    (within : index < log.length) : IsChange log index := by
  obtain ⟨change, here⟩ := isChange
  rw [List.getElem?_append_left within] at here
  exact ⟨change, here⟩

theorem not_isChange_of_message {body : Payload}
    (here : log[index]? = some (.message sender body)) :
    ¬ IsChange log index := by
  intro isChange
  obtain ⟨change, same⟩ := isChange
  rw [here] at same
  cases same

theorem LastChange.grow (last : LastChange log position index)
    (within : position ≤ log.length) (entry : Entry Int32 Payload) :
    LastChange (log ++ [entry]) position index := by
  refine ⟨last.before, last.isChange.grow entry, ?_⟩
  intro other above below isChange
  exact last.last other above below
    (isChange.of_grow (Nat.lt_of_lt_of_le below within))

theorem LastChange.message (last : LastChange log position index)
    {body : Payload} (here : log[position]? = some (.message sender body)) :
    LastChange log (position + 1) index := by
  refine ⟨Nat.lt_succ_of_lt last.before, last.isChange, ?_⟩
  intro other above below isChange
  rcases Nat.lt_succ_iff_lt_or_eq.mp below with earlier | rfl
  · exact last.last other above earlier isChange
  · exact not_isChange_of_message here isChange

theorem LastChange.confchg (here : log[position]? = some (.confchg change)) :
    LastChange log (position + 1) position := by
  refine ⟨Nat.lt_succ_self position, ⟨change, here⟩, ?_⟩
  intro other above below
  omega

theorem LastChange.le (last : LastChange log position index)
    (isChange : IsChange log other) (before : other < position) :
    other ≤ index := by
  by_contra later
  exact last.last other (Nat.lt_of_not_le later) before isChange

end Changes

/-- The change is a copy of the configuration change. -/
structure Copies (change : Confchg Int32) (cg : Change) : Prop where
  ids : cg.members.map (·.nodeid) = change.members
  memberCount : cg.memberCount = change.members.length
  joinedCount : cg.joinedCount = change.joined.length
  removeCount : cg.removeCount = change.left.length
  failedCount : cg.failedCount = (change.left.filter (·.2.failed)).length

theorem Fresh.copies {index : Nat} (fresh : Fresh index change cg) :
    Copies change cg :=
  ⟨fresh.ids, fresh.memberCount, fresh.joinedCount, fresh.removeCount,
    fresh.failedCount⟩

/-- The change is a copy of the entry that it stands for. -/
def Recalls (log : Log) (cg : Change) : Prop :=
  ∃ change, log[cg.index]? = some (.confchg change) ∧ Copies change cg

/-- The message describes the entry that it was sent for. -/
def Describes (log : Log) (li : LsInfo) : Prop :=
  ∃ change, log[li.about]? = some (.confchg change) ∧
    li.ids = change.members ∧
    li.memberCount = change.members.length ∧
    li.joinedCount = change.joined.length ∧
    li.removeCount = change.left.length ∧
    li.failedCount = (change.left.filter (·.2.failed)).length

theorem Recalls.grow (recalls : Recalls log cg) (entry : Entry Int32 Payload) :
    Recalls (log ++ [entry]) cg := by
  obtain ⟨change, here, copies⟩ := recalls
  exact ⟨change, getElem?_append_of_some here, copies⟩

theorem Describes.grow {li : LsInfo} (describes : Describes log li)
    (entry : Entry Int32 Payload) :
    Describes (log ++ [entry]) li := by
  obtain ⟨change, here, fields⟩ := describes
  exact ⟨change, getElem?_append_of_some here, fields⟩

theorem Describes.isChange {li : LsInfo} (describes : Describes log li) :
    IsChange log li.about := by
  obtain ⟨change, here, _⟩ := describes
  exact ⟨change, here⟩

theorem Recalls.describes (recalls : Recalls log cg) (type : InfoType)
    (ls : Lockspace) :
    Describes log (sendInfo type ls cg) := by
  obtain ⟨change, here, copies⟩ := recalls
  exact ⟨change, here, copies.ids, copies.memberCount, copies.joinedCount,
    copies.removeCount, copies.failedCount⟩

theorem findMemb_isSome {nodeid : Int32} :
    (findMemb cg nodeid).isSome = true ↔
      nodeid ∈ cg.members.map (·.nodeid) := by
  simp [findMemb]

/-- A message matches the change that it was sent for, when its sender and its
receiver are members. -/
theorem matchChange_same {li : LsInfo} (recalls : Recalls log cg)
    (describes : Describes log li) (same : cg.index = li.about)
    (here : log[cg.index]? = some (.confchg change))
    (us : env.plock.ourNodeid ∈ change.members)
    (member : sender ∈ change.members) :
    matchChange env sender li cg = true := by
  obtain ⟨copied, found, copies⟩ := recalls
  obtain ⟨described, about, ids, members, joined, removed, failed⟩ :=
    describes
  rw [here] at found
  rw [← same, here] at about
  cases found
  cases about
  have all : ∀ nodeid ∈ li.ids, (findMemb cg nodeid).isSome = true := by
    intro nodeid listed
    rw [findMemb_isSome, copies.ids, ← ids]
    exact listed
  simp only [matchChange, Bool.and_eq_true, List.contains_iff_mem,
    beq_iff_eq, List.all_eq_true]
  refine ⟨⟨⟨?_, ?_⟩, ⟨⟨?_, ?_⟩, ?_⟩, ?_⟩, all⟩
  · rw [ids]
    exact us
  · rw [findMemb_isSome, copies.ids]
    exact member
  · rw [members, copies.memberCount]
  · rw [joined, copies.joinedCount]
  · rw [removed, copies.removeCount]
  · rw [failed, copies.failedCount]

/-- The sender of a matching message is a member of the change. -/
theorem matchChange_sender {li : LsInfo}
    (matched : matchChange env sender li cg = true) :
    sender ∈ cg.members.map (·.nodeid) := by
  simp only [matchChange, Bool.and_eq_true] at matched
  exact findMemb_isSome.mp matched.1.1.2

section Messages

/-- The message that a payload is. -/
def Payload.li : Payload → Option LsInfo
  | .info li => some li
  | .plock _ _ => none

/-- The messages of `send_info` by a node in a stream. -/
def infosBy (n : Int32) (log : Log) : List LsInfo :=
  log.filterMap fun entry =>
    match entry with
    | .message sender body => if sender = n then body.li else none
    | .confchg _ => none

variable {n : Int32}

theorem infosBy_append (n : Int32) (front back : Log) :
    infosBy n (front ++ back) = infosBy n front ++ infosBy n back :=
  List.filterMap_append

theorem infosBy_confchg (n : Int32) (change : Confchg Int32) :
    infosBy n [.confchg change] = [] :=
  rfl

theorem infosBy_own (n : Int32) (body : Payload) :
    infosBy n [.message n body] = body.li.toList := by
  cases shape : body.li with
  | none => simp [infosBy, shape]
  | some li => simp [infosBy, shape]

theorem infosBy_other (other : sender ≠ n) (body : Payload) :
    infosBy n [.message sender body] = [] := by
  simp [infosBy, other]

theorem mem_infosBy_drop {start : Nat} {li : LsInfo} :
    li ∈ infosBy n (log.drop start) ↔
      ∃ index, start ≤ index ∧
        log[index]? = some (.message n (.info li)) := by
  simp only [infosBy, List.mem_filterMap]
  constructor
  · intro found
    obtain ⟨entry, member, shape⟩ := found
    obtain ⟨offset, here⟩ := List.mem_iff_getElem?.mp member
    rw [List.getElem?_drop] at here
    refine ⟨start + offset, Nat.le_add_right _ _, ?_⟩
    rw [here]
    cases entry with
    | confchg change => cases shape
    | message sender body =>
        dsimp only at shape
        split at shape
        · rename_i same
          cases body with
          | info other =>
              cases shape
              rw [same]
          | plock type info => cases shape
        · cases shape
  · intro found
    obtain ⟨index, above, here⟩ := found
    refine ⟨.message n (.info li), ?_, by simp [Payload.li]⟩
    apply List.mem_iff_getElem?.mpr
    refine ⟨index - start, ?_⟩
    rw [List.getElem?_drop, Nat.add_sub_cancel' above]
    exact here

theorem drop_append_entry {start : Nat} (within : start ≤ log.length)
    (entry : Entry Int32 Payload) :
    (log ++ [entry]).drop start = log.drop start ++ [entry] :=
  List.drop_append_of_le_length within

/-- Messages about later changes come later, and `START` comes before
`PLOCKS_STORED`. -/
def LsInfo.key (li : LsInfo) : Nat :=
  match li.type with
  | .start => 2 * li.about
  | .plocksStored => 2 * li.about + 1

theorem LsInfo.key_start {li : LsInfo} (kind : li.type = .start) :
    li.key = 2 * li.about := by
  simp [LsInfo.key, kind]

theorem LsInfo.key_stored {li : LsInfo} (kind : li.type = .plocksStored) :
    li.key = 2 * li.about + 1 := by
  simp [LsInfo.key, kind]

theorem LsInfo.about_le (li : LsInfo) : 2 * li.about ≤ li.key := by
  cases kind : li.type with
  | start => rw [key_start kind]
  | plocksStored =>
      rw [key_stored kind]
      exact Nat.le_succ _

end Messages

section Sent

/-- The messages of `send_info` among the effects of a handler. -/
def sentInfos (effects : List Effect) : List LsInfo :=
  effects.filterMap fun effect =>
    match effect with
    | .send li => some li
    | _ => none

theorem sentInfos_payload (effects : List Effect) :
    (effects.filterMap Effect.payload).filterMap Payload.li =
      sentInfos effects := by
  rw [List.filterMap_filterMap]
  apply List.filterMap_congr
  intro effect _
  cases effect with
  | plock effect =>
      cases effect with
      | writeResult info rv => rfl
      | send type info => rfl
      | plockTime => rfl
  | _ => rfl

theorem sentInfos_append (front back : List Effect) :
    sentInfos (front ++ back) = sentInfos front ++ sentInfos back :=
  List.filterMap_append

theorem sentInfos_nil {effects : List Effect}
    (silent : ∀ li, .send li ∉ effects) : sentInfos effects = [] := by
  rw [sentInfos, List.filterMap_eq_nil_iff]
  intro effect member
  cases effect with
  | send li => exact (silent li member).elim
  | _ => rfl

theorem arrival_sentInfos (env : Env) (answers : Answers) (event : Event)
    (ls : Lockspace) : sentInfos (arrival env answers event ls).2 = [] := by
  apply sentInfos_nil
  intro li member
  cases arrival_effects member

theorem closed_sentInfos (env : Env) (ls : Lockspace) (cg : Change) :
    sentInfos (closed env ls cg) = [] := by
  unfold closed
  split
  · rfl
  · rfl

theorem Prepared.sentInfos {now : UInt64} {ls : Lockspace}
    {older : List Change} {result : Lockspace × List Effect}
    (prepared : Prepared env now ls cg older result) :
    Cpg.sentInfos result.2 = [] ∨
      ∃ before, Cpg.sentInfos result.2 =
        [sendInfo .plocksStored before cg] := by
  have quiet := closed_sentInfos env ls cg
  cases prepared with
  | disabled => exact .inl rfl
  | alone => exact .inl rfl
  | noState => exact .inl quiet
  | needed => exact .inl quiet
  | other => exact .inl quiet
  | reuse =>
      rw [sentInfos_append, quiet]
      exact .inr ⟨_, rfl⟩
  | store =>
      rw [sentInfos_append, sentInfos_append, quiet]
      exact .inr ⟨_, rfl⟩

/-- A complete change sends a `PLOCKS_STORED` message or nothing. -/
theorem completeChange_sentInfos (env : Env) (now : UInt64) (ls : Lockspace)
    (cg : Change) (older : List Change) :
    sentInfos (completeChange env now ls cg older).2 = [] ∨
      ∃ before, sentInfos (completeChange env now ls cg older).2 =
        [sendInfo .plocksStored before cg] := by
  obtain ⟨result, prepared, equation⟩ :=
    completeChange_prepared env now ls cg older
  have started := sentInfos_nil (startKernel_send ls cg older)
  rw [equation, sentInfos_append, sentInfos_append, started]
  simpa [sentInfos] using prepared.sentInfos

end Sent

section Completed

theorem completedBy_append {front : List Effect}
    (nothing : completedBy front = none) (back : List Effect) :
    completedBy (front ++ back) = completedBy back := by
  unfold completedBy at nothing ⊢
  rw [List.findSome?_append, nothing, Option.none_or]

theorem arrival_completedBy (env : Env) (answers : Answers) (event : Event)
    (ls : Lockspace) : completedBy (arrival env answers event ls).2 = none := by
  apply List.findSome?_eq_none_iff.mpr
  intro effect member
  have kind := arrival_effects member
  cases effect with
  | complete index ckptNode => cases kind
  | _ => rfl

theorem startKernel_completedBy (ls : Lockspace) (cg : Change)
    (older : List Change) :
    completedBy (startKernel ls cg older).2 = none := by
  unfold startKernel
  cases ls.kernelStopped with
  | false => rfl
  | true =>
      cases ls.joining with
      | false => rfl
      | true => rfl

theorem Prepared.completedBy {now : UInt64} {ls : Lockspace}
    {older : List Change} {result : Lockspace × List Effect}
    (prepared : Prepared env now ls cg older result) :
    Cpg.completedBy result.2 = none := by
  apply List.findSome?_eq_none_iff.mpr
  intro effect member
  rcases prepared.mem_effects member with rfl | ⟨_, rfl⟩ | ⟨_, rfl⟩
  · rfl
  · rfl
  · rfl

/-- A complete change is recorded with the node that the daemon has chosen. -/
theorem completeChange_completedBy (env : Env) (now : UInt64)
    (ls : Lockspace) (cg : Change) (older : List Change) :
    completedBy (completeChange env now ls cg older).2 =
      some (cg.index,
        (completeChange env now ls cg older).1.plockCkptNode) := by
  obtain ⟨result, prepared, equation⟩ :=
    completeChange_prepared env now ls cg older
  rw [equation, List.append_assoc,
    completedBy_append (startKernel_completedBy ls cg older),
    completedBy_append prepared.completedBy]
  rfl

end Completed

end Dlm.Cpg
