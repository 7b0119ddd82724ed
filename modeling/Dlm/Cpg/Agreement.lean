import Dlm.Cpg.Verdict

/-!
# Agreement on the completed changes

A daemon attributes every `START` to a pending change by counts and members.
As long as it attributes none to another change than the one that the message
was sent for, its changes are marked as the stream has it, and all daemons
complete a change with the same delivery.
-/

namespace Dlm.Cpg

open Plock ProcessGroup

variable {entry : Entry Int32 Payload} {sender : Int32} {ls : Lockspace}
  {stream : Log} {body : Payload} {answers : Answers}

section Place

variable {log : Log} {n : Int32} {born position index : Nat}
  {queued : List LsInfo}

theorem entry_of_take {place : Nat}
    (here : (log.take position)[place]? = some entry) :
    place < position ∧ log[place]? = some entry := by
  rw [List.getElem?_take] at here
  split at here
  · exact ⟨by assumption, here⟩
  · cases here

theorem newest_of_last {change : Confchg Int32}
    (within : position ≤ log.length) (last : LastChange log position index)
    (here : log[index]? = some (.confchg change)) :
    newest (log.take position) = some (index, change) := by
  induction position with
  | zero => exact absurd last.before (Nat.not_lt_zero index)
  | succ position induction =>
      obtain ⟨entry, there⟩ : ∃ entry, log[position]? = some entry :=
        ⟨_, List.getElem?_eq_getElem within⟩
      have length : (log.take position).length = position :=
        List.length_take_of_le (Nat.le_of_succ_le within)
      rw [take_succ there]
      cases entry with
      | confchg other =>
          have same : index = position := by
            have above := last.le ⟨other, there⟩ (Nat.lt_succ_self position)
            have below := last.before
            omega
          rw [newest_confchg, length]
          rw [same, there] at here
          cases here
          rw [same]
      | message sender body =>
          rw [newest_message]
          apply induction (Nat.le_of_succ_le within)
          refine ⟨?_, last.isChange, ?_⟩
          · apply Nat.lt_of_le_of_ne (Nat.le_of_lt_succ last.before)
            intro same
            rw [same, there] at here
            cases here
          · intro other above below
            exact last.last other above (Nat.lt_succ_of_lt below)

theorem Control.front (control : Control log n born position ls queued)
    (within : position ≤ log.length) :
    ∀ cg older, ls.changes = cg :: older →
      ∃ change, Cpg.newest (log.take position) = some (cg.index, change) ∧
        Copies change cg := by
  intro cg older shape
  obtain ⟨change, here, copies⟩ :=
    (control.pending cg (mem_of_front shape)).recalls
  exact ⟨change, newest_of_last within (control.newest cg older shape) here,
    copies⟩

/-- A daemon that has heard its own `START` waits for messages. -/
theorem Control.waits (control : Control log n born position ls queued)
    (streamed : Streamed log) (member : Together log n born position)
    (tally : ∀ cg ∈ ls.changes, Tally (log.take position) cg) :
    ∀ cg older, ls.changes = cg :: older →
      waitMessagesDone cg = true → cg.state = .waitMessages := by
  intro cg older shape done
  have listed := mem_of_front shape
  have pending := control.pending cg listed
  obtain ⟨memb, known, us⟩ := List.mem_map.mp (pending.us member)
  have started := List.all_eq_true.mp done memb known
  have found := tally cg listed memb known
  rw [started, us, if_pos rfl] at found
  obtain ⟨place, li, here, kind, about⟩ := exists_of_startOf found
  obtain ⟨_, here⟩ := entry_of_take here
  have after := streamed.described place n li here
  have above := pending.above
  obtain ⟨_, _, below⟩ := control.own li (List.mem_append_left _
    (mem_infosBy_drop.mpr ⟨place, by omega, here⟩))
  rw [LsInfo.key_start kind, shape] at below
  cases state : cg.state with
  | waitMessages => rfl
  | waitConditions =>
      simp only [horizon, state] at below
      omega

end Place

/-- Of every message of `send_info` it is known what change it describes and
that its sender is a member of it. -/
def Introduced (log : Log) : Prop :=
  ∀ (place : Nat) (sender : Int32) (li : LsInfo),
    log[place]? = some (.message sender (.info li)) →
    Describes log li ∧ sender ∈ view (log.take (li.about + 1))

/-- The delivery of a `START` that is refused. -/
def Event.refused (env : Env) (ls : Lockspace) : Event → Bool
  | .info sender li =>
      li.type == .start && ls.changes.any (matchChange env sender li) &&
        refusesStart ls.changes sender li
  | _ => false

/-- The delivery of a `START` that matches another pending change than the one
that it was sent for. -/
def Event.mistaken (env : Env) (ls : Lockspace) : Event → Bool
  | .info sender li =>
      li.type == .start && ls.changes.any fun cg =>
        matchChange env sender li cg && cg.index != li.about
  | _ => false

section Arrive

variable {log : Log} {n : Int32} {site : Site Payload Peer}
  {enabled : Bool} {settings : Settings}

theorem purgeRemoved_plockCkptNode (env : Env) (now : UInt64)
    (left : List (Int32 × Reason)) (ls : Lockspace) :
    (purgeRemoved env now left ls).1.plockCkptNode = ls.plockCkptNode := by
  induction left generalizing ls with
  | nil => rfl
  | cons gone later induction => exact induction _

/-- Only `apply_changes` chooses a checkpoint node. -/
theorem arrival_plockCkptNode {env : Env} {view : Option (List Int32)}
    {event : Event} (answers : Answers) (ls : Lockspace)
    (possible : event.Possible env view) :
    (arrival env answers event ls).1.plockCkptNode = ls.plockCkptNode := by
  cases event with
  | confchg index change =>
      obtain ⟨cg, _, added⟩ :=
        @addChange_eq env index change ls possible.known
      simp only [arrival, stopKernel_fst, added, purgeRemoved_plockCkptNode]
  | info sender li =>
      cases kind : li.type with
      | start =>
          simp only [arrival, kind, receiveStart]
          split
          · rfl
          · split
            · rfl
            · rfl
      | plocksStored =>
          simp only [arrival, kind, receivePlocksStored]
          split
          · rfl
          · rfl
  | plock message => rfl
  | poll => rfl
  | read info =>
      simp only [arrival, handle]
      split
      · rfl
      · rfl
  | drop aged =>
      simp only [arrival, handle]
      split
      · rfl
      · rfl
  | fsRegister => rfl
  | fsUnregister => rfl
  | fsNotified nodeid => rfl

/-- The marks after a `START`. -/
theorem tally_arrive {li : LsInfo} (lawful : Lawful log)
    (streamed : Streamed log) (introduced : Introduced log)
    (placed : Placed log n site) (controlled : Controlled log n site)
    (tally : ∀ cg ∈ site.state.ls.changes,
      Tally (log.take site.position) cg)
    (here : log[site.position]? = some (.message sender (.info li)))
    (kind : li.type = .start)
    (accepted : (Event.info sender li).refused (settings.env n)
      site.state.ls = false)
    (attributed : (Event.info sender li).mistaken (settings.env n)
      site.state.ls = false) (now : UInt64) :
    ∀ cg ∈ (receiveStart (settings.env n) now sender li
        site.state.ls).changes,
      Tally (log.take (site.position + 1)) cg := by
  rw [take_succ here]
  apply tally_receiveStart tally controlled.falling _ kind
  · cases found : startOf (log.take site.position) li.about sender with
    | none => rfl
    | some flags =>
        obtain ⟨place, other, there, same, about⟩ := exists_of_startOf found
        obtain ⟨before, there⟩ := entry_of_take there
        have order := streamed.ordered place site.position sender other li
          before there here
        rw [LsInfo.key_start same, LsInfo.key_start kind, about] at order
        exact absurd order (Nat.lt_irrefl _)
  · intro cg member same
    have pending := controlled.pending cg member
    obtain ⟨change, there, copies⟩ := pending.recalls
    obtain ⟨describes, known⟩ := introduced _ sender li here
    have us := pending.us placed.member
    rw [copies.ids] at us
    rw [← same, view_take_succ there] at known
    apply matchChange_same pending.recalls describes same there
    · rw [settings.ourNodeid]
      exact us
    · exact known
  · intro cg member matched
    by_contra other
    have found : (Event.info sender li).mistaken (settings.env n)
        site.state.ls = true := by
      simp only [Event.mistaken, kind, beq_self_eq_true, Bool.true_and,
        List.any_eq_true]
      exact ⟨cg, member, by simp [matched, other]⟩
    rw [attributed] at found
    cases found
  · intro matched
    simpa [Event.refused, kind, matched] using accepted
  · intro cg member
    obtain ⟨change, there, copies⟩ := (controlled.pending cg member).recalls
    rw [copies.ids]
    exact (lawful.follows _ change there).nodup

/-- The marks after a message, when the changes before `apply_changes` are
those of before. -/
theorem tally_same {after : Lockspace}
    (tally : ∀ cg ∈ ls.changes, Tally stream cg)
    (changes : after.changes = ls.changes)
    (silent : ∀ index m, startOf [entry] index m = none) :
    ∀ cg ∈ after.changes, Tally (stream ++ [entry]) cg := by
  rw [changes]
  intro cg member
  exact (tally cg member).quiet (silent cg.index)

/-- The marks before `apply_changes`. -/
theorem arrival_tally (lawful : Lawful log) (streamed : Streamed log)
    (introduced : Introduced log) (placed : Placed log n site)
    (controlled : Controlled log n site)
    (tally : ∀ cg ∈ site.state.ls.changes,
      Tally (log.take site.position) cg)
    (here : log[site.position]? = some entry)
    (accepted : (entryEvent site.position entry).refused (settings.env n)
      site.state.ls = false)
    (attributed : (entryEvent site.position entry).mistaken
      (settings.env n) site.state.ls = false) :
    ∀ cg ∈ (arrival (settings.env n) answers
        (entryEvent site.position entry) site.state.ls).1.changes,
      Tally (log.take (site.position + 1)) cg := by
  cases entry with
  | confchg change =>
      obtain ⟨cg, fresh, opened⟩ :=
        @arrival_opened (settings.env n) site.position change answers
          site.state.ls (lawful.follows _ change here).joined_members
      rw [take_succ here]
      simp only [entryEvent, opened.changes]
      intro other member
      rcases List.mem_cons.mp member with rfl | old
      · intro memb known
        rw [fresh.unstarted memb known, if_neg Bool.false_ne_true,
          ← take_succ here]
        cases found : startOf (log.take (site.position + 1)) other.index
            memb.nodeid with
        | none => rfl
        | some flags =>
            obtain ⟨place, li, there, _, about⟩ := exists_of_startOf found
            obtain ⟨before, there⟩ := entry_of_take there
            have after := streamed.described place _ li there
            rw [about, fresh.index] at after
            omega
      · exact (tally other old).quiet fun _ => rfl
  | message sender body =>
      cases body with
      | plock type info =>
          rw [take_succ here]
          exact tally_same tally rfl fun _ _ => rfl
      | info li =>
          cases kind : li.type with
          | plocksStored =>
              rw [take_succ here]
              apply tally_same tally _ fun _ _ => startOf_stored kind
              simp only [entryEvent, arrival, kind]
              exact (receivePlocksStored_sameControl ..).changes
          | start =>
              simp only [entryEvent, arrival, kind]
              exact tally_arrive lawful streamed introduced placed controlled
                tally here kind accepted attributed answers.now

/-- A message leaves the changes in their places. -/
theorem arrival_keys (lawful : Lawful log)
    (here : log[site.position]? = some (.message sender body)) :
    (arrival (settings.env n) answers
        (entryEvent site.position (.message sender body))
        site.state.ls).1.changes.map (fun cg => (cg.index, cg.state)) =
      site.state.ls.changes.map fun cg => (cg.index, cg.state) := by
  apply startStable_key.arrival
    (possible_of_entry lawful (settings.env n) here)
  cases body with
  | info li => rfl
  | plock type info => rfl

/-- What holds before `apply_changes`. -/
theorem Tallied.arrive
    (tallied : Tallied enabled site.born (log.take site.position)
      site.state.ls)
    (lawful : Lawful log) (streamed : Streamed log)
    (introduced : Introduced log) (placed : Placed log n site)
    (controlled : Controlled log n site)
    (here : log[site.position]? = some entry) (kept : ¬ entry.Removes n)
    (accepted : (entryEvent site.position entry).refused (settings.env n)
      site.state.ls = false)
    (attributed : (entryEvent site.position entry).mistaken
      (settings.env n) site.state.ls = false) :
    Gathered enabled site.born (log.take (site.position + 1))
      (arrival (settings.env n) answers (entryEvent site.position entry)
        site.state.ls).1 := by
  have within : site.position + 1 ≤ log.length := lt_length_of_entry here
  have control : Control log n site.born (site.position + 1)
      (arrival (settings.env n) answers (entryEvent site.position entry)
        site.state.ls).1 (Site.infos site) :=
    Control.arrive controlled placed lawful here
  have tally := @arrival_tally entry answers log n site settings lawful
    streamed introduced placed controlled tallied.tally here accepted
    attributed
  refine ⟨tally, control.front within,
    control.waits streamed (placed.read lawful here kept).member tally, ?_,
    ?_⟩
  · intro _ empty index change found
    rw [take_succ here] at found ⊢
    cases entry with
    | confchg other =>
        obtain ⟨cg, _, opened⟩ :=
          @arrival_opened (settings.env n) site.position other answers
            site.state.ls (lawful.follows _ other here).joined_members
        rw [entryEvent, opened.changes] at empty
        cases empty
    | message sender body =>
        have keys := @arrival_keys sender body answers log n site settings
          lawful here
        rw [empty] at keys
        rw [newest_message] at found
        apply allStarted_append
        apply tallied.closed _ (List.map_eq_nil_iff.mp keys.symm) index change
          found
        rw [List.length_take_of_le placed.within]
        exact placed.begun here
  · intro off
    rw [arrival_plockCkptNode answers site.state.ls
      (possible_of_entry lawful (settings.env n) here)]
    exact tallied.unset off

/-- What is due after a delivery is what the stream says. -/
theorem due_eq_verdict
    (tallied : Tallied enabled site.born (log.take site.position)
      site.state.ls)
    (lawful : Lawful log) (placed : Placed log n site)
    (here : log[site.position]? = some entry)
    (gathered : Gathered enabled site.born (log.take (site.position + 1))
      (arrival (settings.env n) answers (entryEvent site.position entry)
        site.state.ls).1)
    (member : ∀ cg ∈ (arrival (settings.env n) answers
        (entryEvent site.position entry) site.state.ls).1.changes,
      n ∈ cg.members.map (·.nodeid)) :
    due enabled (log.take (site.position + 1))
        (arrival (settings.env n) answers (entryEvent site.position entry)
          site.state.ls).1 =
      verdict enabled log site.position := by
  cases entry with
  | confchg other =>
      obtain ⟨cg, fresh, opened⟩ :=
        @arrival_opened (settings.env n) site.position other answers
          site.state.ls (lawful.follows _ other here).joined_members
      have pending : (arrival (settings.env n) answers
          (entryEvent site.position (.confchg other))
          site.state.ls).1.changes = cg :: site.state.ls.changes :=
        opened.changes
      have listed := mem_of_front pending
      obtain ⟨change, found, copies⟩ := gathered.front cg _ pending
      obtain ⟨memb, known, _⟩ := List.mem_map.mp (member cg listed)
      have missing : waitMessagesDone cg = false := by
        apply List.all_eq_false.mpr
        exact ⟨memb, known, by simp [fresh.unstarted memb known]⟩
      have tally := gathered.tally cg listed
      rw [due_of_missing pending missing, verdict, found]
      simp only [Option.bind_some]
      rw [← copies.ids, tally.done, missing]
      rfl
  | message sender body =>
      have keys := @arrival_keys sender body answers log n site settings
        lawful here
      have begun := placed.begun here
      cases before : site.state.ls.changes with
      | nil =>
          rw [before] at keys
          have empty := List.map_eq_nil_iff.mp keys
          rw [due, empty, verdict]
          cases found : newest (log.take (site.position + 1)) with
          | none => rfl
          | some newest_ =>
              have same := found
              rw [take_succ here, newest_message] at same
              have closed := tallied.closed
                (by rw [List.length_take_of_le placed.within]; exact begun)
                before newest_.1 newest_.2 same
              simp [closed]
      | cons cg older =>
          rw [before] at keys
          obtain ⟨after, rest, pending, key⟩ :=
            List.map_eq_cons_iff.mp keys
          obtain ⟨key, _⟩ := key
          have index : after.index = cg.index := congrArg Prod.fst key
          obtain ⟨change, found, copies⟩ :=
            gathered.front after rest pending
          obtain ⟨old, was, same⟩ := tallied.front cg older before
          have tally := gathered.tally after (mem_of_front pending)
          have tallyBefore := tallied.tally cg (mem_of_front before)
          have known : old = change := by
            rw [take_succ here, newest_message, was, index] at found
            cases found
            rfl
          have missing : allStarted (log.take site.position) after.index
              change.members = false := by
            rw [← known, ← same.ids, index, tallyBefore.done]
            exact tallied.missing cg older before
          rw [due, pending, verdict, found]
          simp only [List.head?_cons, Option.bind_some, missing,
            Bool.not_false, Bool.and_true]
          rw [← copies.ids, tally.done]

end Arrive

/-- The record of a handled event says what the stream says; without a delivery
nothing is completed. -/
def Recorded (enabled : Bool) (log : Log) (record : Record) : Prop :=
  match record.delivery with
  | none => record.completed = none
  | some delivery =>
      delivery < log.length ∧
        record.completed = verdict enabled log delivery

/-- The step is not a delivery for which the test holds. -/
def Spares (settings : Settings) (test : Env → Lockspace → Event → Bool)
    (s : Group) : GroupLabel → Prop
  | .deliver n _ =>
      (s.site n).all (fun site =>
        (s.log[site.position]?).all fun entry =>
          !test (settings.env n) site.state.ls
            (entryEvent site.position entry)) = true
  | _ => True

instance (settings : Settings) (test : Env → Lockspace → Event → Bool)
    (s : Group) (label : GroupLabel) :
    Decidable (Spares settings test s label) := by
  rcases label <;> unfold Spares <;> infer_instance

/-- No node is disallowed. -/
def NoneRefused (settings : Settings) : Group → GroupLabel → Prop :=
  Spares settings fun env ls event => event.refused env ls

/-- No `START` matches a pending change that it was not sent for. -/
def Attributed (settings : Settings) : Group → GroupLabel → Prop :=
  Spares settings fun env ls event => event.mistaken env ls

instance (settings : Settings) (s : Group) (label : GroupLabel) :
    Decidable (NoneRefused settings s label) :=
  inferInstanceAs (Decidable (Spares settings _ s label))

instance (settings : Settings) (s : Group) (label : GroupLabel) :
    Decidable (Attributed settings s label) :=
  inferInstanceAs (Decidable (Spares settings _ s label))

section Runs

variable {settings : Settings} {enabled : Bool} {log : Log} {n : Int32}
  {site : Site Payload Peer}

theorem Spares.deliver {test : Env → Lockspace → Event → Bool} {s : Group}
    (spares : Spares settings test s (.deliver n answers))
    (found : s.site n = some site) (here : s.log[site.position]? = some entry) :
    test (settings.env n) site.state.ls (entryEvent site.position entry) =
      false := by
  simpa [Spares, found, here] using spares

theorem verdict_append {delivery : Nat} (within : delivery < log.length)
    (entry : Entry Int32 Payload) :
    verdict enabled (log ++ [entry]) delivery =
      verdict enabled log delivery := by
  rw [verdict, take_append_entry within,
    take_append_entry (Nat.le_of_lt within)]
  rfl

theorem Recorded.grow {record : Record}
    (recorded : Recorded enabled log record) (entry : Entry Int32 Payload) :
    Recorded enabled (log ++ [entry]) record := by
  unfold Recorded at recorded ⊢
  cases delivery : record.delivery with
  | none =>
      rw [delivery] at recorded
      exact recorded
  | some index =>
      rw [delivery] at recorded
      refine ⟨?_, ?_⟩
      · rw [List.length_append]
        exact Nat.lt_add_right _ recorded.1
      · rw [verdict_append recorded.1]
        exact recorded.2

theorem Introduced.nil : Introduced [] := by
  intro _ _ _ impossible
  cases impossible

/-- What is known of a message remains known. -/
theorem introduced_grow {li : LsInfo}
    (known : Describes log li ∧ sender ∈ view (log.take (li.about + 1)))
    (entry : Entry Int32 Payload) :
    Describes (log ++ [entry]) li ∧
      sender ∈ view ((log ++ [entry]).take (li.about + 1)) := by
  obtain ⟨describes, member⟩ := known
  refine ⟨describes.grow entry, ?_⟩
  obtain ⟨change, here, _⟩ := describes
  rw [take_append_entry (lt_length_of_entry here)]
  exact member

theorem Introduced.confchg (introduced : Introduced log)
    (change : Confchg Int32) : Introduced (log ++ [.confchg change]) := by
  intro place sender li here
  rcases getElem?_append_cases here with old | ⟨_, same⟩
  · exact introduced_grow (introduced place sender li old) _
  · cases same

theorem Introduced.order {rest : List Payload} (introduced : Introduced log)
    (placed : Placed log n site) (controlled : Controlled log n site)
    (waiting : site.queue = body :: rest) :
    Introduced (log ++ [.message n body]) := by
  intro place sender li here
  rcases getElem?_append_cases here with old | ⟨_, same⟩
  · exact introduced_grow (introduced place sender li old) _
  · cases same
    apply introduced_grow
    have queued : li ∈ Site.infos site := by
      unfold Site.infos
      rw [waiting]
      exact List.mem_cons_self
    obtain ⟨describes, above, below⟩ :=
      controlled.own li (List.mem_append_right _ queued)
    refine ⟨describes, ?_⟩
    have bound := controlled.horizon_le
    have key := li.about_le
    exact placed.member (li.about + 1) (Nat.lt_succ_of_le above) (by omega)

/-- The daemon has read and marked what the stream says. -/
def Marking (enabled : Bool) (log : Log) (_ : Int32)
    (site : Site Payload Peer) : Prop :=
  Tallied enabled site.born (log.take site.position) site.state.ls

theorem Marking.grow (marking : Marking enabled log n site)
    (placed : Placed log n site) (entry : Entry Int32 Payload) :
    Marking enabled (log ++ [entry]) n site := by
  unfold Marking
  rw [take_append_entry placed.within]
  exact marking

/-- A delivery completes what is due. -/
theorem Gathered.deliver {born position : Nat} {view : Option (List Int32)}
    (gathered : Gathered enabled born stream
      (arrival (settings.env n) answers (entryEvent position entry) ls).1)
    (uniform : (settings.env n).enablePlock = enabled)
    (possible : (entryEvent position entry).Possible (settings.env n) view)
    (member : ∀ cg ∈ (arrival (settings.env n) answers
        (entryEvent position entry) ls).1.changes,
      n ∈ cg.members.map (·.nodeid)) :
    completedBy (handle (settings.env n) answers
        (entryEvent position entry) ls).2 =
      due enabled stream (arrival (settings.env n) answers
        (entryEvent position entry) ls).1 ∧
      Tallied enabled born stream (handle (settings.env n) answers
        (entryEvent position entry) ls).1 := by
  have applies : (entryEvent position entry).applies = true := by
    cases entry with
    | confchg change => rfl
    | message sender body =>
        cases body with
        | info li => rfl
        | plock type info => rfl
  rw [handle_eq answers ls possible, if_pos applies]
  simp only [thenApply]
  rw [completedBy_append (arrival_completedBy ..)]
  exact gathered.apply uniform (settings.ourNodeid n) member answers

/-- Other events complete nothing. -/
theorem Tallied.act {action : Local} {born : Nat}
    (tallied : Tallied enabled born stream ls)
    (uniform : (settings.env n).enablePlock = enabled)
    (member : ∀ cg ∈ ls.changes, n ∈ cg.members.map (·.nodeid)) :
    completedBy (handle (settings.env n) answers action.event ls).2 =
        none ∧
      Tallied enabled born stream
        (handle (settings.env n) answers action.event ls).1 := by
  have possible := action.possible (settings.env n) none
  have changes := (@Local.sameChanges answers action (settings.env n) ls).1
  have node := arrival_plockCkptNode answers ls possible
  have unfinished :=
    arrival_completedBy (settings.env n) answers action.event ls
  rw [handle_eq answers ls possible]
  generalize arrival (settings.env n) answers action.event ls = arrived
    at changes node unfinished ⊢
  have before : Tallied enabled born stream arrived.1 := by
    refine ⟨⟨?_, ?_, ?_, ?_, ?_⟩, ?_⟩
    · rw [changes]
      exact tallied.tally
    · rw [changes]
      exact tallied.front
    · rw [changes]
      exact tallied.waits
    · rw [changes]
      exact tallied.closed
    · rw [node]
      exact tallied.unset
    · rw [changes]
      exact tallied.missing
  split
  · have nothing : due enabled stream arrived.1 = none := by
      cases shape : arrived.1.changes with
      | nil => simp [due, shape]
      | cons cg older =>
          exact due_of_missing shape (before.missing cg older shape)
    obtain ⟨completed, after⟩ := before.toGathered.apply uniform
      (settings.ourNodeid n) (by rw [changes]; exact member) answers
    rw [nothing] at completed
    simp only [thenApply]
    rw [completedBy_append unfinished]
    exact ⟨completed, after⟩
  · exact ⟨unfinished, before⟩

theorem marking_upkeep (uniform : ∀ n,
    (settings.env n).enablePlock = enabled) :
    Upkeep (daemons settings)
      (fun s label =>
        (NoneRefused settings s label ∧ Attributed settings s label) ∧
          Upheld (fun log _ => Streamed log) Controlled s)
      (fun log common => Introduced log ∧
        ∀ record ∈ common.trace, Recorded enabled log record)
      (Marking enabled) := by
  constructor
  · -- a daemon joins
    intro s change n upheld enabled_ _ joined
    have stream : (s.log ++ [Entry.confchg change]).take s.log.length =
        s.log := by
      rw [take_append_entry (Nat.le_refl _), List.take_length]
    refine .of_empty rfl ?_ fun _ => rfl
    intro later
    simp only [Process.site, stream] at later
    exact absurd later (Nat.lt_irrefl _)
  · intro s change upheld _ _
    exact ⟨upheld.global.1.confchg change,
      fun record listed => (upheld.global.2 record listed).grow _⟩
  · intro s change n site upheld _ _ found
    exact (upheld.each n site found).grow (upheld.placed n site found) _
  · -- a message is ordered
    intro s n site body rest upheld _ permitted found waiting
    have placed := upheld.placed n site found
    refine ⟨⟨upheld.global.1.order placed (permitted.2.each n site found)
      waiting, fun record listed => (upheld.global.2 record listed).grow _⟩,
      ?_⟩
    exact (upheld.each n site found).grow placed _
  · intro s n site body rest m other upheld _ _ _ _ found _
    exact (upheld.each m other found).grow (upheld.placed m other found) _
  · -- an entry is delivered
    intro s n answers site entry upheld _ permitted found here kept
    obtain ⟨⟨accepted, attributed⟩, known⟩ := permitted
    have lawful := upheld.lawful
    have placed := upheld.placed n site found
    have controlled := known.each n site found
    have tallied : Tallied enabled site.born (s.log.take site.position)
        site.state.ls := upheld.each n site found
    have control := @Control.arrive s.log n site entry settings answers
      controlled placed lawful here
    have member : ∀ cg ∈ (arrival (settings.env n) answers
        (entryEvent site.position entry) site.state.ls).1.changes,
        n ∈ cg.members.map (·.nodeid) :=
      fun cg listed => (control.pending cg listed).us
        (placed.read lawful here kept).member
    have gathered := @Tallied.arrive entry answers s.log n site enabled
      settings tallied lawful known.global upheld.global.1 placed controlled
      here kept (accepted.deliver found here) (attributed.deliver found here)
    obtain ⟨completed, after⟩ := gathered.deliver (uniform n)
      (possible_of_entry lawful (settings.env n) here) member
    rw [due_eq_verdict tallied lawful placed here gathered member] at completed
    refine ⟨⟨upheld.global.1, ?_⟩, after⟩
    intro record listed
    rcases List.mem_append.mp listed with old | new
    · exact upheld.global.2 record old
    · cases List.mem_singleton.mp new
      exact ⟨lt_length_of_entry here, completed⟩
  · -- something else happens to a daemon
    intro s n action site upheld permitted found
    have placed := upheld.placed n site found
    have controlled := permitted.2.each n site found
    have tallied : Tallied enabled site.born (s.log.take site.position)
        site.state.ls := upheld.each n site found
    obtain ⟨completed, after⟩ := @Tallied.act _ _ action.2 settings enabled
      n action.1 _ tallied (uniform n)
      fun cg listed => (controlled.pending cg listed).us placed.member
    refine ⟨⟨upheld.global.1, ?_⟩, after⟩
    intro record listed
    rcases List.mem_append.mp listed with old | new
    · exact upheld.global.2 record old
    · cases List.mem_singleton.mp new
      exact completed

/-- A change is completed by one delivery only. -/
theorem verdict_unique {first last index : Nat} {one other : Int32}
    (early : verdict enabled log first = some (index, one))
    (late : verdict enabled log last = some (index, other)) :
    last ≤ first := by
  have parts {delivery : Nat} {node : Int32}
      (said : verdict enabled log delivery = some (index, node)) :
      ∃ change, log[index]? = some (.confchg change) ∧
        allStarted (log.take (delivery + 1)) index change.members = true ∧
        allStarted (log.take delivery) index change.members = false := by
    obtain ⟨found, here, shape⟩ := Option.bind_eq_some_iff.mp said
    split at shape
    · rename_i due
      rw [Bool.and_eq_true, Bool.not_eq_true'] at due
      cases shape
      exact ⟨found.2, (entry_of_take (entry_of_newest here)).2, due⟩
    · cases shape
  obtain ⟨change, here, done, -⟩ := parts early
  obtain ⟨same, there, -, missing⟩ := parts late
  rw [here] at there
  cases there
  by_contra order
  rw [allStarted_later (Nat.lt_of_not_le order) done] at missing
  cases missing

end Runs

/-- Whoever completes a change does so with a delivery; everybody who handles
that delivery completes the change with it, choosing the same checkpoint node,
and nobody completes the change with another. -/
def Common.Agreed (common : Common) : Prop :=
  ∀ first ∈ common.trace, ∀ index ckptNode,
    first.completed = some (index, ckptNode) →
    ∃ delivery, first.delivery = some delivery ∧
      ∀ second ∈ common.trace,
        (second.delivery = some delivery →
          second.completed = some (index, ckptNode)) ∧
        ∀ other, second.completed = some (index, other) →
          second.delivery = some delivery

/-- In every run without refused nodes in which no `START` matches a pending
change that it was not sent for, all daemons agree on the completed changes. -/
theorem completion_agreed (settings : Settings)
    (uniform : ∀ n m,
      (settings.env n).enablePlock = (settings.env m).enablePlock)
    (s : Group)
    (run : (daemons settings).system.Run
      (fun s label =>
        NoneRefused settings s label ∧ Attributed settings s label)
      Group.start s) :
    s.shared.Agreed := by
  have strong := run.strengthen
    (Upheld.empty Streamed.nil : Upheld (fun log _ => Streamed log)
      Controlled Group.start)
    (fun state label enabled _ upheld =>
      (controlled_upkeep settings).next state label enabled trivial upheld)
    fun _ _ _ permitted upheld => And.intro permitted upheld
  have upheld := (marking_upkeep fun n => uniform n 0).run strong
    ⟨.nil, List.forall_mem_nil _⟩
  have recorded := upheld.global.2
  have said {record : Record} (listed : record ∈ s.shared.trace)
      {index : Nat} {ckptNode : Int32}
      (completed : record.completed = some (index, ckptNode)) :
      ∃ delivery, record.delivery = some delivery ∧
        verdict (settings.env 0).enablePlock s.log delivery =
          some (index, ckptNode) := by
    have known := recorded record listed
    unfold Recorded at known
    cases shape : record.delivery with
    | none =>
        rw [shape, completed] at known
        cases known
    | some delivery =>
        rw [shape, completed] at known
        exact ⟨delivery, rfl, known.2.symm⟩
  intro first listed index ckptNode completed
  obtain ⟨delivery, reads, verdict⟩ := said listed completed
  refine ⟨delivery, reads, ?_⟩
  intro second member
  constructor
  · intro same
    have known := recorded second member
    unfold Recorded at known
    rw [same] at known
    exact known.2.trans verdict
  · intro other finished
    obtain ⟨place, handled, also⟩ := said member finished
    rw [handled, Nat.le_antisymm (verdict_unique verdict also)
      (verdict_unique also verdict)]

/-- Node 2 joins node 1, and both start. -/
def joinTogether : List GroupLabel :=
  firstAlone ++
    [.confchg secondJoins, .deliver 1 (calmAnswers 2),
      .deliver 2 (calmAnswers 2), .order 1, .order 2,
      .deliver 1 (calmAnswers 3), .deliver 1 (calmAnswers 3),
      .deliver 2 (calmAnswers 3), .deliver 2 (calmAnswers 3)]

theorem joinTogether_agreed :
    (Group.after joinTogether).shared.Agreed ∧
      ((Group.after joinTogether).shared.trace.filter fun record =>
        record.completed == some (2, 1)).map (·.node) = [1, 2] := by
  constructor
  · apply completion_agreed plainSettings (fun _ _ => rfl)
    exact System.run_of_follows joinTogether .refl (by decide)
  · decide

/-- Node 2 fails while it joins and joins again; the messages for the first
join are still on their way. -/
def joinFailJoin : List GroupLabel :=
  firstAlone ++
    [.confchg secondJoins, .deliver 1 (calmAnswers 2),
      .confchg loseTwo, .deliver 1 (fencedAnswers 4 3),
      .confchg secondJoins, .deliver 1 (fencedAnswers 5 3),
      .deliver 2 (calmAnswers 5), .order 2, .order 1,
      .deliver 2 (calmAnswers 6), .deliver 2 (calmAnswers 6),
      .deliver 1 (calmAnswers 6), .deliver 1 (calmAnswers 6)]

/-- Node 2 completes the second join and node 1 does not. -/
theorem joinFailJoin_disagrees :
    ¬∀ (settings : Settings) (s : Group),
      (∀ n m, (settings.env n).enablePlock = (settings.env m).enablePlock) →
      (daemons settings).system.Run (NoneRefused settings) Group.start s →
      s.shared.Agreed := by
  intro always
  have agreed := always plainSettings (Group.after joinFailJoin)
    (fun _ _ => rfl) (System.run_of_follows joinFailJoin .refl (by decide))
  have second : (⟨2, some 6, some (4, 1)⟩ : Record) ∈
      (Group.after joinFailJoin).shared.trace := by
    decide
  have first : (⟨1, some 6, none⟩ : Record) ∈
      (Group.after joinFailJoin).shared.trace := by
    decide
  obtain ⟨delivery, reads, others⟩ := agreed _ second 4 1 rfl
  cases reads
  cases (others _ first).1 rfl

end Dlm.Cpg
