import Dlm.Cpg.Control
import Dlm.Cpg.Unique

/-!
# The announcement of a checkpoint

A `PLOCKS_STORED` message names its change only by counts and members, which
another change may have too.  The receiver has no pending change, and the
sender has sent `START` after the receiver's last change but nothing of that
kind between its own `START` and the announcement; so the announcement is about
the change that the receiver has started last.
-/

namespace Dlm.Cpg

open Plock ProcessGroup

variable {position : Nat} {event : Event} {view : Option (List Int32)}

/-- The messages of `send_info` in the log: those of a node are in the order of
the changes that they describe, and an announcement follows a `START`. -/
structure Streamed (log : Log) : Prop where
  ordered : ∀ (first last : Nat) (sender : Int32) (earlier later : LsInfo),
    first < last →
    log[first]? = some (.message sender (.info earlier)) →
    log[last]? = some (.message sender (.info later)) →
    earlier.key < later.key
  described : ∀ (index : Nat) (sender : Int32) (li : LsInfo),
    log[index]? = some (.message sender (.info li)) → li.about < index
  isChange : ∀ (index : Nat) (sender : Int32) (li : LsInfo),
    log[index]? = some (.message sender (.info li)) → IsChange log li.about
  backed : ∀ (index : Nat) (sender : Int32) (li : LsInfo),
    log[index]? = some (.message sender (.info li)) →
    li.type = .plocksStored → Backed log sender li

/-- The messages of `send_info` that a daemon has to send. -/
def Site.infos (site : Site Payload Peer) : List LsInfo :=
  site.queue.filterMap Payload.li

/-- What holds of a running daemon. -/
def Controlled (log : Log) (n : Int32) (site : Site Payload Peer) : Prop :=
  Control log n site.born site.position site.state.ls (Site.infos site)

variable {log : Log} {n : Int32} {site : Site Payload Peer}

theorem Streamed.nil : Streamed [] := by
  refine ⟨?_, ?_, ?_, ?_⟩
  · intro _ _ _ _ _ _ impossible
    cases impossible
  · intro _ _ _ impossible
    cases impossible
  · intro _ _ _ impossible
    cases impossible
  · intro _ _ _ impossible
    cases impossible

theorem Streamed.confchg (streamed : Streamed log)
    (change : Confchg Int32) : Streamed (log ++ [.confchg change]) := by
  have old : ∀ {index : Nat} {sender : Int32} {li : LsInfo},
      (log ++ [Entry.confchg change])[index]? =
        some (.message sender (.info li)) →
      log[index]? = some (.message sender (.info li)) := by
    intro index sender li here
    rcases getElem?_append_cases here with before | ⟨_, same⟩
    · exact before
    · cases same
  refine ⟨?_, ?_, ?_, ?_⟩
  · intro first last sender earlier later order one other
    exact streamed.ordered first last sender earlier later order (old one)
      (old other)
  · exact fun index sender li here =>
      streamed.described index sender li (old here)
  · exact fun index sender li here =>
      (streamed.isChange index sender li (old here)).grow _
  · exact fun index sender li here kind =>
      (streamed.backed index sender li (old here) kind).grow _

/-- A daemon gets its next message into the log. -/
theorem Streamed.order {body : Payload} {rest : List Payload}
    (streamed : Streamed log) (placed : Placed log n site)
    (controlled : Controlled log n site)
    (waiting : site.queue = body :: rest) :
    Streamed (log ++ [.message n body]) := by
  have next : ∀ {sender : Int32} {li : LsInfo}, Entry.message sender (Payload.info li) =
      .message n body → sender = n ∧ li ∈ Site.infos site ∧
        ∀ other ∈ infosBy n (log.drop (site.born + 1)),
          other.key < li.key := by
    intro sender li same
    cases same
    have queued : Site.infos site = li :: rest.filterMap Payload.li := by
      unfold Site.infos
      rw [waiting]
      rfl
    refine ⟨rfl, by rw [queued]; exact List.mem_cons_self, ?_⟩
    intro other listed
    exact (List.pairwise_append.mp controlled.sorted).2.2 other listed li
      (by rw [queued]; exact List.mem_cons_self)
  have own : ∀ {li : LsInfo}, li ∈ Site.infos site → Describes log li ∧
      site.born ≤ li.about ∧ li.about < log.length := by
    intro li listed
    obtain ⟨describes, above, below⟩ :=
      controlled.own li (List.mem_append_right _ listed)
    have bound := controlled.horizon_le
    have key := li.about_le
    have within := placed.within
    exact ⟨describes, above, by omega⟩
  refine ⟨?_, ?_, ?_, ?_⟩
  · intro first last sender earlier later order one other
    rcases getElem?_append_cases other with old | ⟨rfl, same⟩
    · rcases getElem?_append_cases one with before | ⟨rfl, _⟩
      · exact streamed.ordered first last sender earlier later order before
          old
      · exact absurd (lt_length_of_entry old) (by omega)
    · obtain ⟨rfl, listed, sorted⟩ := next same
      have before := (getElem?_append_cases one).resolve_right
        (fun ⟨last, _⟩ => by omega)
      rcases Nat.lt_trichotomy first site.born with early | rfl | late
      · -- the message is from an earlier life of the node
        have about := streamed.described first sender earlier before
        have above := (own listed).2.1
        have key := later.about_le
        have small : earlier.key ≤ 2 * earlier.about + 1 := by
          cases kind : earlier.type with
          | start => rw [LsInfo.key_start kind]; omega
          | plocksStored => rw [LsInfo.key_stored kind]
        omega
      · obtain ⟨change, joined, _⟩ := placed.joins
        rw [before] at joined
        cases joined
      · exact sorted earlier (mem_infosBy_drop.mpr ⟨first, late, before⟩)
  · intro index sender li here
    rcases getElem?_append_cases here with old | ⟨rfl, same⟩
    · exact streamed.described index sender li old
    · obtain ⟨_, listed, _⟩ := next same
      exact (own listed).2.2
  · intro index sender li here
    rcases getElem?_append_cases here with old | ⟨rfl, same⟩
    · exact (streamed.isChange index sender li old).grow _
    · obtain ⟨_, listed, _⟩ := next same
      exact (own listed).1.isChange.grow _
  · intro index sender li here kind
    rcases getElem?_append_cases here with old | ⟨rfl, same⟩
    · exact (streamed.backed index sender li old kind).grow _
    · obtain ⟨rfl, listed, _⟩ := next same
      exact (controlled.backed li listed kind).grow _

section Handle

variable {entry : Entry Int32 Payload} {settings : Settings}
  {answers : Answers}

/-- A daemon is a member of its pending changes. -/
theorem Pending.us {born : Nat} {cg : Change}
    (pending : Pending log n born position cg)
    (member : Together log n born position) :
    n ∈ cg.members.map (·.nodeid) := by
  obtain ⟨change, here, copies⟩ := pending.recalls
  have listed := member (cg.index + 1) (Nat.lt_succ_of_le pending.above)
    pending.below
  rw [view_take_succ here] at listed
  rw [copies.ids]
  exact listed

/-- What a delivery leaves before `apply_changes`. -/
theorem Control.arrive (controlled : Controlled log n site)
    (placed : Placed log n site) (lawful : Lawful log)
    (here : log[site.position]? = some entry) :
    Control log n site.born (site.position + 1)
      (arrival (settings.env n) answers (entryEvent site.position entry)
        site.state.ls).1 (Site.infos site) := by
  cases entry with
  | confchg change =>
      obtain ⟨cg, fresh, opened⟩ :=
        @arrival_opened (settings.env n) site.position change answers
          site.state.ls (lawful.follows _ change here).joined_members
      exact Control.confchg controlled here placed.after fresh opened.changes
        opened.startedChange
  | message sender body =>
      cases body with
      | plock type info =>
          exact (Control.read controlled here).same rfl rfl
      | info li =>
          cases kind : li.type with
          | plocksStored =>
              have same := receivePlocksStored_sameControl (settings.env n)
                answers sender li site.state.ls
              simp only [arrival, entryEvent, kind]
              exact (Control.read controlled here).same same.changes
                same.startedChange
          | start =>
              simp only [arrival, entryEvent, kind]
              apply Control.receiveStart controlled here kind
              intro own cg member same
              have pending := controlled.pending cg member
              have us := pending.us placed.member
              obtain ⟨change, there, copies⟩ := pending.recalls
              rw [copies.ids] at us
              have flying : li ∈ infosBy n (log.drop site.position) ++
                  Site.infos site := by
                apply List.mem_append_left
                apply mem_infosBy_drop.mpr
                refine ⟨site.position, Nat.le_refl _, ?_⟩
                rw [← own]
                exact here
              have told : Describes log li := by
                apply (controlled.own li _).1
                rcases List.mem_append.mp flying with listed | queued
                · apply List.mem_append_left
                  obtain ⟨index, above, found⟩ := mem_infosBy_drop.mp listed
                  refine mem_infosBy_drop.mpr ⟨index, ?_, found⟩
                  have begun := pending.above
                  have below := pending.below
                  omega
                · exact List.mem_append_right _ queued
              apply matchChange_same pending.recalls told same there
              · rw [settings.ourNodeid]
                exact us
              · rw [own]
                exact us

/-- A handler that calls `apply_changes` at the end. -/
theorem Control.handled {born : Nat} {ls : Lockspace} {queue : List Payload}
    (possible : event.Possible (settings.env n) view)
    (before : Control log n born position
      (arrival (settings.env n) answers event ls).1
      (queue.filterMap Payload.li)) (member : Together log n born position) :
    Control log n born position
      (handle (settings.env n) answers event ls).1
      ((queue ++ (handle (settings.env n) answers event ls).2.filterMap
        Effect.payload).filterMap Payload.li) := by
  have quiet := arrival_sentInfos (settings.env n) answers event ls
  rw [List.filterMap_append, sentInfos_payload,
    handle_eq answers ls possible]
  split
  · have after := before.apply
      (fun cg listed => (before.pending cg listed).us member)
      (settings.env n) answers
    simp only [thenApply]
    rw [sentInfos_append, quiet, List.nil_append]
    exact after
  · rw [quiet, List.append_nil]
    exact before

/-- A local event leaves the changes alone before `apply_changes`. -/
theorem Local.sameChanges (action : Local) (env : Env) (ls : Lockspace) :
    (arrival env answers action.event ls).1.changes = ls.changes ∧
      (arrival env answers action.event ls).1.startedChange =
        ls.startedChange := by
  cases action with
  | poll => exact ⟨rfl, rfl⟩
  | read info =>
      simp only [Local.event, arrival, handle]
      split
      · exact ⟨rfl, rfl⟩
      · exact ⟨rfl, rfl⟩
  | drop aged =>
      simp only [Local.event, arrival, handle]
      split
      · exact ⟨rfl, rfl⟩
      · exact ⟨rfl, rfl⟩
  | fsRegister => exact ⟨rfl, rfl⟩
  | fsUnregister => exact ⟨rfl, rfl⟩
  | fsNotified nodeid => exact ⟨rfl, rfl⟩

end Handle

theorem controlled_upkeep (settings : Settings) :
    Upkeep (daemons settings) (fun _ _ => True) (fun log _ => Streamed log)
      Controlled := by
  constructor
  · -- a daemon joins
    intro s change n upheld enabled _ joined
    have nothing : infosBy n ((s.log ++ [Entry.confchg change]).drop
        (s.log.length + 1)) = [] := by
      rw [List.drop_of_length_le (by simp)]
      rfl
    have here : infosBy n ((s.log ++ [Entry.confchg change]).drop
        s.log.length) = [] := by
      rw [drop_append_entry (Nat.le_refl _), List.drop_length]
      rfl
    refine ⟨List.forall_mem_nil _, List.Pairwise.nil,
      ?_, ?_, ?_, ?_, ?_, ?_, List.forall_mem_nil _⟩
    · intro cg older impossible
      cases impossible
    · intro _ cg impossible
      cases impossible
    · intro cg impossible
      cases impossible
    · simp only [Process.site, nothing]
      exact List.forall_mem_nil _
    · simp only [Process.site, nothing]
      exact List.Pairwise.nil
    · simp only [Process.site, here]
      exact List.forall_mem_nil _
  · exact fun s change upheld _ _ => upheld.global.confchg change
  · intro s change n site upheld _ _ found
    have placed := upheld.placed n site found
    apply Control.append _ placed.within placed.born_lt
    rw [infosBy_confchg, List.nil_append]
    exact upheld.each n site found
  · -- a message is ordered
    intro s n site body rest upheld _ _ found waiting
    have placed := upheld.placed n site found
    have controlled := upheld.each n site found
    refine ⟨upheld.global.order placed controlled waiting, ?_⟩
    apply Control.append _ placed.within placed.born_lt
    have queued : Site.infos site =
        infosBy n [.message n body] ++ rest.filterMap Payload.li := by
      unfold Site.infos
      rw [waiting, infosBy_own, List.filterMap_cons]
      cases body.li with
      | none => rfl
      | some li => rfl
    unfold Controlled at controlled
    rw [queued] at controlled
    exact controlled
  · intro s n site body rest m other upheld _ _ _ _ found apart
    have placed := upheld.placed m other found
    apply Control.append _ placed.within placed.born_lt
    rw [infosBy_other (Ne.symm apart), List.nil_append]
    exact upheld.each m other found
  · -- an entry is delivered
    intro s n answers site entry upheld _ _ found here kept
    have placed := upheld.placed n site found
    refine ⟨upheld.global, ?_⟩
    exact Control.handled
      (possible_of_entry upheld.lawful (settings.env n) here)
      (Control.arrive (upheld.each n site found) placed upheld.lawful here)
      (placed.read upheld.lawful here kept).member
  · -- something else happens to a daemon
    intro s n action site upheld _ found
    have placed := upheld.placed n site found
    obtain ⟨changes, startedChange⟩ := @Local.sameChanges action.2 action.1
      (settings.env n) site.state.ls
    refine ⟨upheld.global, ?_⟩
    exact Control.handled
      (action.1.possible (settings.env n) none)
      (Control.same (upheld.each n site found) changes startedChange)
      placed.member

/-- The node has completed the change. -/
def Common.Completed (common : Common) (n : Int32) (index : Nat) : Prop :=
  ∃ record ∈ common.trace, record.node = n ∧
    ∃ ckptNode, record.completed = some (index, ckptNode)

/-- An announcement is about a change that its sender has completed. -/
def Announced (common : Common) (sender : Int32) (body : Payload) : Prop :=
  ∀ li, body = .info li → li.type = .plocksStored →
    common.Completed sender li.about

/-- A handler that announces a checkpoint completes the change. -/
theorem handle_announces {env : Env} {answers : Answers} {ls : Lockspace}
    {li : LsInfo} (possible : event.Possible env view)
    (sent : li ∈ sentInfos (handle env answers event ls).2)
    (kind : li.type = .plocksStored) :
    ∃ ckptNode, completedBy (handle env answers event ls).2 =
      some (li.about, ckptNode) := by
  have quiet := arrival_sentInfos env answers event ls
  have unfinished := arrival_completedBy env answers event ls
  rw [handle_eq answers ls possible] at sent ⊢
  split at sent
  · rename_i applies
    rw [if_pos applies]
    simp only [thenApply] at sent ⊢
    rw [sentInfos_append, quiet, List.nil_append] at sent
    rw [completedBy_append unfinished]
    generalize (arrival env answers event ls).1 = arrived at sent ⊢
    generalize outcome : applyChanges env answers arrived = result
      at sent ⊢
    have exits := applyChanges_applied env answers arrived
    rw [outcome] at exits
    cases exits with
    | idle | wait | collect => exact (List.not_mem_nil sent).elim
    | begin =>
        rw [List.mem_singleton.mp sent] at kind
        cases kind
    | @complete cg older =>
        have about : li.about = cg.index := by
          rcases completeChange_sentInfos env answers.now arrived cg older
            with nothing | ⟨before, one⟩
          · rw [nothing] at sent
            exact (List.not_mem_nil sent).elim
          · rw [one] at sent
            rw [List.mem_singleton.mp sent]
            rfl
        rw [about]
        exact ⟨_, completeChange_completedBy env answers.now arrived cg older⟩
  · rw [quiet] at sent
    exact (List.not_mem_nil sent).elim

theorem handled_vouches {settings : Settings} {n : Int32}
    {delivery : Option Nat} {answers : Answers} {common : Common} {peer : Peer}
    (possible : event.Possible (settings.env n) view) :
    (handled settings n position delivery event answers common
      peer).Vouches Announced common n := by
  constructor
  · intro m body announced li same kind
    obtain ⟨record, listed, rest⟩ := announced li same kind
    exact ⟨record, List.mem_append_left _ listed, rest⟩
  · intro body sent li same kind
    subst same
    have listed : li ∈ sentInfos
        (handle (settings.env n) answers event peer.ls).2 := by
      rw [← sentInfos_payload]
      exact List.mem_filterMap.mpr ⟨_, sent, rfl⟩
    exact ⟨_, List.mem_append_right _ (List.mem_singleton_self _), rfl,
      handle_announces possible listed kind⟩

/-- Whenever a daemon gets past the tests of `receive_plocks_stored`, its
sender has sent the message on completing the change that the daemon started
last. -/
theorem accepted_about_started (settings : Settings) (s : Group)
    (run : (daemons settings).system.Run (fun _ _ => True) Group.start s)
    (n : Int32) (site : Site Payload Peer) (found : s.site n = some site)
    (sender : Int32) (li : LsInfo)
    (here : s.log[site.position]? = some (.message sender (.info li)))
    (accepted : (Event.info sender li).accepted (settings.env n)
      site.state.ls = true) :
    ∃ cg, site.state.ls.startedChange = some cg ∧ li.about = cg.index ∧
      s.shared.Completed sender cg.index := by
  have upkeep := controlled_upkeep settings
  have upheld := upkeep.run run .nil
  have vouched : Vouched Announced s := by
    apply Vouched.run (upkeep.strengthen run .nil)
    · intro state m _ other _ permitted _ there
      exact handled_vouches
        (possible_of_entry permitted.2.lawful (settings.env m) there)
    · intro state m action other _ _
      exact handled_vouches (action.1.possible (settings.env m) none)
  have controlled := upheld.each n site found
  have streamed := upheld.global
  simp only [Event.accepted, acceptsPlocksStored, Bool.and_eq_true,
    beq_iff_eq] at accepted
  obtain ⟨kind, ⟨_, empty⟩, matched⟩ := accepted
  obtain ⟨cg, started, matches_⟩ := (Option.any_eq_true _ _).mp matched
  have last := controlled.closed (List.isEmpty_iff.mp empty) cg started
  have early := last.le (streamed.isChange _ sender li here)
    (streamed.described _ sender li here)
  have same : li.about = cg.index := by
    by_contra other
    -- the sender has started after the last change of the receiver
    obtain ⟨memb, member, rfl⟩ :=
      List.mem_map.mp (matchChange_sender matches_)
    obtain ⟨place, start, above, below, told, isStart, _⟩ :=
      controlled.started cg started memb member
    -- but its own START for the announced change came before
    obtain ⟨first, own, ownHere, ownStart, about, clear⟩ :=
      streamed.backed _ memb.nodeid li here kind
    have before := clear cg.index last.isChange (by omega)
    have one := streamed.ordered first place memb.nodeid own start (by omega)
      ownHere told
    have two := streamed.ordered place site.position memb.nodeid start li
      below told here
    rw [LsInfo.key_start ownStart, LsInfo.key_start isStart] at one
    rw [LsInfo.key_start isStart, LsInfo.key_stored kind] at two
    omega
  refine ⟨cg, started, same, ?_⟩
  rw [← same]
  exact vouched.log _ sender _ here li rfl kind

/-- Node 2 joins node 1, which announces a checkpoint. -/
theorem joined_accepts_announcement :
    ∃ site sender li cg,
      (Group.after claimThenJoin.dropLast).site 2 = some site ∧
      (Group.after claimThenJoin.dropLast).log[site.position]? =
        some (.message sender (.info li)) ∧
      (Event.info sender li).accepted (plainEnv 2) site.state.ls = true ∧
      site.state.ls.startedChange = some cg ∧ li.about = cg.index ∧
      (Group.after claimThenJoin.dropLast).shared.Completed sender
        cg.index := by
  have run : (daemons plainSettings).system.Run (fun _ _ => True)
      Group.start (Group.after claimThenJoin.dropLast) :=
    System.run_of_follows claimThenJoin.dropLast .refl (by decide)
  have announced : ((Group.after claimThenJoin.dropLast).site 2).any
      (retrieving plainSettings (Group.after claimThenJoin.dropLast) 2) =
      true := by
    decide
  obtain ⟨site, found, retrieved⟩ := (Option.any_eq_true _ _).mp announced
  obtain ⟨entry, here, reads⟩ := (Option.any_eq_true _ _).mp retrieved
  have accepted := (Bool.and_eq_true_iff.mp reads).2
  cases entry with
  | confchg change => cases accepted
  | message sender body =>
      cases body with
      | plock type info => cases accepted
      | info li =>
          obtain ⟨cg, rest⟩ := accepted_about_started plainSettings _ run 2
            site found sender li here accepted
          exact ⟨site, sender, li, cg, found, here, accepted, rest⟩

/-- In every run a node sends one `START` and one `PLOCKS_STORED` at most for
a change, in this order, and the messages for later changes behind them. -/
theorem infos_in_order (settings : Settings) (s : Group)
    (run : (daemons settings).system.Run (fun _ _ => True) Group.start s)
    {first last : Nat} {sender : Int32} {earlier later : LsInfo}
    (before : first < last)
    (here : s.log[first]? = some (.message sender (.info earlier)))
    (there : s.log[last]? = some (.message sender (.info later))) :
    earlier.about < later.about ∨ earlier.about = later.about ∧
      earlier.type = .start ∧ later.type = .plocksStored := by
  have keys := ((controlled_upkeep settings).run run .nil).global.ordered
    first last sender earlier later before here there
  cases one : earlier.type <;> cases two : later.type <;>
    simp only [LsInfo.key, one, two] at keys <;> grind

theorem joined_infos_in_order :
    ∃ earlier later : LsInfo,
      (Group.after claimThenJoin).log[4]? =
        some (.message 1 (.info earlier)) ∧
      (Group.after claimThenJoin).log[6]? =
        some (.message 1 (.info later)) ∧
      (earlier.about < later.about ∨ earlier.about = later.about ∧
        earlier.type = .start ∧ later.type = .plocksStored) :=
  ⟨_, _, rfl, rfl, infos_in_order plainSettings (Group.after claimThenJoin)
    (System.run_of_follows claimThenJoin .refl (by decide))
    (show 4 < 6 by decide) rfl rfl⟩

/-- In every run a node sends `PLOCKS_STORED` for a change only if its `START`
for the same change has been ordered before the next change. -/
theorem stored_after_start (settings : Settings) (s : Group)
    (run : (daemons settings).system.Run (fun _ _ => True) Group.start s)
    {place : Nat} {sender : Int32} {li : LsInfo}
    (here : s.log[place]? = some (.message sender (.info li)))
    (stored : li.type = .plocksStored) :
    ∃ earlier start, li.about < earlier ∧ earlier < place ∧
      s.log[earlier]? = some (.message sender (.info start)) ∧
      start.type = .start ∧ start.about = li.about ∧
      ∀ change, IsChange s.log change → li.about < change →
        earlier < change := by
  have streamed := ((controlled_upkeep settings).run run .nil).global
  obtain ⟨earlier, start, there, kind, about, clear⟩ :=
    streamed.backed place sender li here stored
  have behind := streamed.described earlier sender start there
  have same : start.about = li.about := by
    by_contra other
    have late := clear start.about (streamed.isChange _ _ _ there) (by omega)
    omega
  have before : earlier < place := by
    rcases Nat.lt_trichotomy earlier place with before | rfl | after
    · exact before
    · grind
    · have keys := streamed.ordered _ _ _ _ _ after here there
      simp only [LsInfo.key, kind, stored] at keys
      omega
  exact ⟨earlier, start, same ▸ behind, before, there, kind, same, clear⟩

theorem joined_stored_after_start :
    ∃ li earlier start, (Group.after claimThenJoin).log[6]? =
        some (.message 1 (.info li)) ∧
      earlier < 6 ∧ (Group.after claimThenJoin).log[earlier]? =
        some (.message 1 (.info start)) ∧ start.about = li.about := by
  obtain ⟨earlier, start, -, before, there, -, about, -⟩ :=
    stored_after_start plainSettings (Group.after claimThenJoin)
      (System.run_of_follows claimThenJoin .refl (by decide))
      (show (Group.after claimThenJoin).log[6]? = _ from rfl) rfl
  exact ⟨_, earlier, start, rfl, before, there, about⟩

/-- In every run a daemon that has started a change has been delivered, behind
the change, a `START` of every member; while no other change is pending, it is
the last one that the daemon has been delivered. -/
theorem started_by_all (settings : Settings) (s : Group)
    (run : (daemons settings).system.Run (fun _ _ => True) Group.start s)
    {n : Int32} {site : Site Payload Peer} {cg : Change}
    (found : s.site n = some site)
    (started : site.state.ls.startedChange = some cg) :
    (∀ memb ∈ cg.members, ∃ place li, cg.index < place ∧
      place < site.position ∧
      s.log[place]? = some (.message memb.nodeid (.info li)) ∧
      li.type = .start) ∧
    (site.state.ls.changes = [] →
      LastChange s.log site.position cg.index) := by
  have controlled := ((controlled_upkeep settings).run run .nil).each n site
    found
  refine ⟨?_, fun closed => controlled.closed closed cg started⟩
  intro memb member
  obtain ⟨place, li, above, below, told, kind, _⟩ :=
    controlled.started cg started memb member
  exact ⟨place, li, above, below, told, kind⟩

theorem joined_started_by_all :
    ∃ site cg, (Group.after claimThenJoin).site 2 = some site ∧
      site.state.ls.startedChange = some cg ∧
      LastChange (Group.after claimThenJoin).log site.position cg.index :=
  ⟨_, _, rfl, rfl, (started_by_all plainSettings (Group.after claimThenJoin)
    (System.run_of_follows claimThenJoin .refl (by decide)) (n := 2) rfl
    rfl).2 rfl⟩

end Dlm.Cpg
