import Dlm.Cpg.Stream

/-!
# The changes and messages of a daemon

What holds of the pending changes of a daemon and of the messages that it has
sent: a change is a copy of an entry that the daemon has read, a member that
has started has sent a `START` since, and the messages of the daemon describe
its changes in their order.  A `START` that has not been read yet belongs to a
pending change.
-/

namespace Dlm.Cpg

open Plock ProcessGroup

variable {log : Log} {n m : Int32} {born position index : Nat}

variable {cg : Change} {li : LsInfo}

/-- The member has sent a `START` that was delivered after the change; if it is
our own, it was not sent for an earlier one. -/
def Heard (log : Log) (n : Int32) (index position : Nat) (m : Int32) :
    Prop :=
  ∃ place li, index < place ∧ place < position ∧
    log[place]? = some (.message m (.info li)) ∧ li.type = .start ∧
    (m = n → index ≤ li.about)

theorem Heard.grow (heard : Heard log n index position m)
    (entry : Entry Int32 Payload) :
    Heard (log ++ [entry]) n index position m := by
  obtain ⟨place, li, above, below, here, rest⟩ := heard
  exact ⟨place, li, above, below, getElem?_append_of_some here, rest⟩

theorem Heard.later {after : Nat} (heard : Heard log n index position m)
    (below : position ≤ after) : Heard log n index after m := by
  obtain ⟨place, li, above, before, rest⟩ := heard
  exact ⟨place, li, above, Nat.lt_of_lt_of_le before below, rest⟩

theorem mem_of_front {changes older : List Change}
    (shape : changes = cg :: older) : cg ∈ changes := by
  rw [shape]
  exact List.mem_cons_self

/-- A pending change. -/
structure Pending (log : Log) (n : Int32) (born position : Nat)
    (cg : Change) : Prop where
  recalls : Recalls log cg
  above : born ≤ cg.index
  below : cg.index < position
  heard : ∀ memb ∈ cg.members, memb.start = true →
    Heard log n cg.index position memb.nodeid

theorem Pending.grow (pending : Pending log n born position cg)
    (entry : Entry Int32 Payload) :
    Pending (log ++ [entry]) n born position cg :=
  ⟨pending.recalls.grow entry, pending.above, pending.below,
    fun memb member started => (pending.heard memb member started).grow entry⟩

theorem Pending.later (pending : Pending log n born position cg) {after : Nat}
    (below : position ≤ after) :
    Pending log n born after cg :=
  ⟨pending.recalls, pending.above, Nat.lt_of_lt_of_le pending.below below,
    fun memb member started =>
      (pending.heard memb member started).later below⟩

/-- What the daemon has announced is below its horizon: nothing about a change
whose conditions are not met, and no `PLOCKS_STORED` about one whose messages
have not arrived. -/
def horizon (position : Nat) : List Change → Nat
  | [] => 2 * position
  | cg :: _ =>
      match cg.state with
      | .waitConditions => 2 * cg.index
      | .waitMessages => 2 * cg.index + 1

/-- A `PLOCKS_STORED` follows an own `START` that is not about an earlier
change, and no change has come between. -/
def Backed (log : Log) (n : Int32) (li : LsInfo) : Prop :=
  ∃ place start, log[place]? = some (.message n (.info start)) ∧
    start.type = .start ∧ li.about ≤ start.about ∧
    ∀ change, IsChange log change → li.about < change → place < change

theorem Backed.grow (backed : Backed log n li) (entry : Entry Int32 Payload) :
    Backed (log ++ [entry]) n li := by
  obtain ⟨place, start, here, kind, about, clear⟩ := backed
  refine ⟨place, start, getElem?_append_of_some here, kind, about, ?_⟩
  intro change isChange above
  by_cases within : change < log.length
  · exact clear change (isChange.of_grow within) above
  · exact Nat.lt_of_lt_of_le (lt_length_of_entry here) (Nat.not_lt.mp within)

/-- What holds of the changes of a daemon and the messages that it has in the
log and in its queue. -/
structure Control (log : Log) (n : Int32) (born position : Nat)
    (ls : Lockspace) (queued : List LsInfo) : Prop where
  pending : ∀ cg ∈ ls.changes, Pending log n born position cg
  falling : ls.changes.Pairwise fun newer older => older.index < newer.index
  newest : ∀ cg older, ls.changes = cg :: older →
    LastChange log position cg.index
  closed : ls.changes = [] → ∀ cg, ls.startedChange = some cg →
    LastChange log position cg.index
  started : ∀ cg, ls.startedChange = some cg → ∀ memb ∈ cg.members,
    Heard log n cg.index position memb.nodeid
  own : ∀ li ∈ infosBy n (log.drop (born + 1)) ++ queued,
    Describes log li ∧ born ≤ li.about ∧
      li.key < horizon position ls.changes
  sorted : (infosBy n (log.drop (born + 1)) ++ queued).Pairwise
    fun earlier later => earlier.key < later.key
  inflight : ∀ li ∈ infosBy n (log.drop position) ++ queued,
    li.type = .start → ∃ cg ∈ ls.changes, cg.index = li.about
  backed : ∀ li ∈ queued, li.type = .plocksStored → Backed log n li

variable {ls after : Lockspace} {queued later : List LsInfo}
  {entry : Entry Int32 Payload}

/-- The log grows.  If the entry is from the daemon, it was the next in its
queue. -/
theorem Control.append
    (control : Control log n born position ls (infosBy n [entry] ++ later))
    (within : position ≤ log.length) (begun : born < log.length) :
    Control (log ++ [entry]) n born position ls later := by
  have moved : ∀ start, start ≤ log.length →
      infosBy n ((log ++ [entry]).drop start) ++ later =
        infosBy n (log.drop start) ++ (infosBy n [entry] ++ later) := by
    intro start inside
    rw [drop_append_entry inside, infosBy_append, List.append_assoc]
  refine ⟨?_, control.falling, ?_, ?_, ?_, ?_, ?_, ?_, ?_⟩
  · exact fun cg member => (control.pending cg member).grow entry
  · exact fun cg older shape => (control.newest cg older shape).grow within _
  · exact fun empty cg started =>
      (control.closed empty cg started).grow within _
  · exact fun cg started memb member =>
      (control.started cg started memb member).grow entry
  · rw [moved _ begun]
    intro li listed
    obtain ⟨describes, rest⟩ := control.own li listed
    exact ⟨describes.grow entry, rest⟩
  · rw [moved _ begun]
    exact control.sorted
  · rw [moved _ within]
    exact control.inflight
  · intro li listed kind
    exact (control.backed li (List.mem_append_right _ listed) kind).grow entry

/-- Only the changes and the change started last matter. -/
theorem Control.same (control : Control log n born position ls queued)
    (changes : after.changes = ls.changes)
    (startedChange : after.startedChange = ls.startedChange) :
    Control log n born position after queued := by
  refine ⟨?_, ?_, ?_, ?_, ?_, ?_, control.sorted, ?_, control.backed⟩
  · rw [changes]
    exact control.pending
  · rw [changes]
    exact control.falling
  · rw [changes]
    exact control.newest
  · rw [changes, startedChange]
    exact control.closed
  · rw [startedChange]
    exact control.started
  · rw [changes]
    exact control.own
  · rw [changes]
    exact control.inflight

theorem horizon_succ_le (position : Nat) (changes : List Change) :
    horizon position changes ≤ horizon (position + 1) changes := by
  cases changes with
  | nil =>
      simp only [horizon]
      omega
  | cons cg older => exact Nat.le_refl _

/-- What is below the horizon is below the next change. -/
theorem Control.horizon_le (control : Control log n born position ls queued) :
    horizon position ls.changes ≤ 2 * position := by
  cases shape : ls.changes with
  | nil => exact Nat.le_refl _
  | cons cg older =>
      have below := (control.pending cg (mem_of_front shape)).below
      cases state : cg.state with
      | waitConditions =>
          simp only [horizon, state]
          omega
      | waitMessages =>
          simp only [horizon, state]
          omega

theorem mem_infosBy_read
    (listed : li ∈ infosBy n (log.drop (position + 1)) ++ queued) :
    li ∈ infosBy n (log.drop position) ++ queued := by
  rcases List.mem_append.mp listed with old | new
  · obtain ⟨index, above, here⟩ := mem_infosBy_drop.mp old
    exact List.mem_append_left _
      (mem_infosBy_drop.mpr ⟨index, Nat.le_of_succ_le above, here⟩)
  · exact List.mem_append_right _ new

/-- The daemon reads a message that changes nothing here. -/
theorem Control.read {sender : Int32} {body : Payload}
    (control : Control log n born position ls queued)
    (here : log[position]? = some (.message sender body)) :
    Control log n born (position + 1) ls queued := by
  refine ⟨?_, control.falling, ?_, ?_, ?_, ?_, control.sorted, ?_,
    control.backed⟩
  · exact fun cg member => (control.pending cg member).later (Nat.le_succ _)
  · exact fun cg older shape => (control.newest cg older shape).message here
  · exact fun empty cg started =>
      (control.closed empty cg started).message here
  · exact fun cg started memb member =>
      (control.started cg started memb member).later (Nat.le_succ _)
  · intro li listed
    obtain ⟨describes, above, below⟩ := control.own li listed
    exact ⟨describes, above,
      Nat.lt_of_lt_of_le below (horizon_succ_le position ls.changes)⟩
  · exact fun li listed => control.inflight li (mem_infosBy_read listed)

/-- The daemon reads a configuration change. -/
theorem Control.confchg {change : Confchg Int32}
    (control : Control log n born position ls queued)
    (here : log[position]? = some (.confchg change)) (begun : born ≤ position)
    (fresh : Fresh position change cg)
    (changes : after.changes = cg :: ls.changes)
    (startedChange : after.startedChange = ls.startedChange) :
    Control log n born (position + 1) after queued := by
  have last := LastChange.confchg here
  refine ⟨?_, ?_, ?_, ?_, ?_, ?_, control.sorted, ?_, control.backed⟩
  · rw [changes]
    intro other member
    rcases List.mem_cons.mp member with rfl | old
    · refine ⟨⟨change, ?_, fresh.copies⟩, ?_, ?_, ?_⟩
      · rw [fresh.index]
        exact here
      · rw [fresh.index]
        exact begun
      · rw [fresh.index]
        exact Nat.lt_succ_self position
      · intro memb listed started
        rw [fresh.unstarted memb listed] at started
        exact (Bool.false_ne_true started).elim
    · exact (control.pending other old).later (Nat.le_succ _)
  · rw [changes]
    refine List.pairwise_cons.mpr ⟨fun other old => ?_, control.falling⟩
    rw [fresh.index]
    exact (control.pending other old).below
  · rw [changes]
    intro other older shape
    cases shape
    rw [fresh.index]
    exact last
  · rw [changes]
    intro empty
    cases empty
  · rw [startedChange]
    exact fun cg started memb member =>
      (control.started cg started memb member).later (Nat.le_succ _)
  · rw [changes]
    intro li listed
    obtain ⟨describes, above, below⟩ := control.own li listed
    refine ⟨describes, above, ?_⟩
    simp only [horizon, fresh.state, fresh.index]
    exact Nat.lt_of_lt_of_le below control.horizon_le
  · rw [changes]
    intro li listed kind
    obtain ⟨old, member, same⟩ :=
      control.inflight li (mem_infosBy_read listed) kind
    exact ⟨old, List.mem_cons_of_mem cg member, same⟩

/-- Changes that are rewritten in place. -/
theorem Control.rewrite (control : Control log n born position ls queued)
    (keys : after.changes.map (fun cg => (cg.index, cg.state)) =
      ls.changes.map fun cg => (cg.index, cg.state))
    (startedChange : after.startedChange = ls.startedChange)
    (pending : ∀ cg ∈ after.changes, Pending log n born position cg) :
    Control log n born position after queued := by
  have indexes : after.changes.map (·.index) = ls.changes.map (·.index) := by
    have both := congrArg (List.map Prod.fst) keys
    rw [List.map_map, List.map_map] at both
    exact both
  have head : ∀ cg older, after.changes = cg :: older →
      ∃ old rest, ls.changes = old :: rest ∧ old.index = cg.index ∧
        old.state = cg.state := by
    intro cg older shape
    rw [shape] at keys
    cases before : ls.changes with
    | nil =>
        rw [before] at keys
        cases keys
    | cons old rest =>
        rw [before, List.map_cons, List.map_cons, List.cons.injEq,
          Prod.mk.injEq] at keys
        exact ⟨old, rest, rfl, keys.1.1.symm, keys.1.2.symm⟩
  have empty : after.changes = [] → ls.changes = [] := by
    intro nothing
    rw [nothing] at keys
    exact List.map_eq_nil_iff.mp keys.symm
  have same : horizon position after.changes =
      horizon position ls.changes := by
    cases shape : after.changes with
    | nil => rw [empty shape]
    | cons cg older =>
        obtain ⟨old, rest, before, sameIndex, sameState⟩ :=
          head cg older shape
        rw [before]
        simp only [horizon, sameIndex, sameState]
  refine ⟨pending, ?_, ?_, ?_, ?_, ?_, control.sorted, ?_, control.backed⟩
  · have falling : (ls.changes.map (·.index)).Pairwise
        fun newer older => older < newer :=
      List.pairwise_map.mpr control.falling
    rw [← indexes] at falling
    exact List.pairwise_map.mp falling
  · intro cg older shape
    obtain ⟨old, rest, before, sameIndex, _⟩ := head cg older shape
    rw [← sameIndex]
    exact control.newest old rest before
  · rw [startedChange]
    exact fun nothing => control.closed (empty nothing)
  · rw [startedChange]
    exact control.started
  · rw [same]
    exact control.own
  · intro li listed kind
    obtain ⟨old, member, sameIndex⟩ := control.inflight li listed kind
    have known : old.index ∈ after.changes.map (·.index) := by
      rw [indexes]
      exact List.mem_map_of_mem member
    obtain ⟨cg, present, equal⟩ := List.mem_map.mp known
    exact ⟨cg, present, equal.trans sameIndex⟩

section Start

variable {sender : Int32}

/-- Rewriting a member leaves what the change is a copy of. -/
theorem Recalls.updateMemb {change : Member → Member}
    (recalls : Recalls log cg)
    (keeps : ∀ memb, (change memb).nodeid = memb.nodeid) :
    Recalls log (updateMemb sender change cg) := by
  obtain ⟨confchg, here, copies⟩ := recalls
  refine ⟨confchg, here, ?_, copies.memberCount, copies.joinedCount,
    copies.removeCount, copies.failedCount⟩
  exact (map_modifyFirst keeps cg.members).trans copies.ids

theorem Recalls.inState (recalls : Recalls log cg) (state : CgState) :
    Recalls log { cg with state := state } := by
  obtain ⟨confchg, here, copies⟩ := recalls
  exact ⟨confchg, here, copies.ids, copies.memberCount, copies.joinedCount,
    copies.removeCount, copies.failedCount⟩

/-- A pending change in which a member is rewritten. -/
theorem Pending.updateMemb {change : Member → Member}
    (pending : Pending log n born position cg)
    (keeps : ∀ memb, (change memb).nodeid = memb.nodeid)
    (started : ∀ memb, (change memb).start = true → memb.start = true ∨
      Heard log n cg.index position sender) :
    Pending log n born position (updateMemb sender change cg) := by
  refine ⟨pending.recalls.updateMemb keeps, pending.above, pending.below, ?_⟩
  intro memb member set
  rcases mem_modifyFirst member with old | ⟨old, known, passes, rfl⟩
  · exact pending.heard memb old set
  · rw [keeps]
    rcases started old set with before | new
    · exact pending.heard old known before
    · rw [beq_iff_eq.mp passes]
      exact new

theorem mem_updateOldest {test : Change → Bool} {change : Change → Change}
    {changes : List Change} {other : Change}
    (found : changes.any test = true)
    (member : other ∈ updateOldest test change changes) :
    other ∈ changes ∨ ∃ oldest ∈ changes, test oldest = true ∧
      other = change oldest ∧
      ∀ cg ∈ changes, test cg = true →
        changes.Pairwise (fun newer older => older.index < newer.index) →
        oldest.index ≤ cg.index := by
  obtain ⟨front, oldest, back, rfl, matched, rest⟩ := exists_oldest found
  rw [updateOldest_split matched rest] at member
  rcases List.mem_append.mp member with before | behind
  · exact .inl (List.mem_append_left _ before)
  · rcases List.mem_cons.mp behind with rfl | after
    · refine .inr ⟨oldest, by simp, matched, rfl, ?_⟩
      intro cg listed passes falling
      rcases List.mem_append.mp listed with newer | same
      · have order := (List.pairwise_append.mp falling).2.2 cg newer oldest
          List.mem_cons_self
        exact Nat.le_of_lt order
      · rcases List.mem_cons.mp same with rfl | older
        · exact Nat.le_refl _
        · rw [rest cg older] at passes
          exact (Bool.false_ne_true passes).elim
    · exact .inl (List.mem_append_right _ (List.mem_cons_of_mem _ after))

theorem startStable_key :
    StartStable fun cg => (cg.index, cg.state) :=
  fun _ _ _ => ⟨rfl, rfl⟩

/-- The daemon reads a `START`. -/
theorem Control.receiveStart {env : Env} {now : UInt64}
    (control : Control log n born position ls queued)
    (here : log[position]? = some (.message sender (.info li)))
    (kind : li.type = .start)
    (matches_ : sender = n → ∀ cg ∈ ls.changes, cg.index = li.about →
      matchChange env sender li cg = true) :
    Control log n born (position + 1) (receiveStart env now sender li ls)
      queued := by
  have unread : ∀ cg ∈ ls.changes, Pending log n born (position + 1) cg :=
    fun cg member => (control.pending cg member).later (Nat.le_succ _)
  apply (control.read here).rewrite
  · exact startStable_key.receiveStart env now sender li ls
  · unfold Cpg.receiveStart
    split
    · rfl
    · split
      · rfl
      · rfl
  · have marked := receiveStart_marked env now sender li ls
    generalize Cpg.receiveStart env now sender li ls = after at marked ⊢
    cases marked with
    | unmatched => exact unread
    | refused found refuses =>
        intro cg member
        rcases mem_updateOldest found member with old |
          ⟨oldest, known, _, rfl, _⟩
        · exact unread cg old
        · exact (unread oldest known).updateMemb (fun _ => rfl)
            fun _ set => .inl set
    | started found accepts =>
        intro cg member
        rcases mem_updateOldest found member with old |
          ⟨oldest, known, _, rfl, least⟩
        · exact unread cg old
        · refine Pending.updateMemb (unread oldest known) (fun _ => rfl) ?_
          intro _ _
          refine .inr ⟨position, li, (control.pending oldest known).below,
            Nat.lt_succ_self position, here, kind, ?_⟩
          intro own
          have flying : li ∈ infosBy n (log.drop position) ++ queued := by
            apply List.mem_append_left
            apply mem_infosBy_drop.mpr
            refine ⟨position, Nat.le_refl _, ?_⟩
            rw [← own]
            exact here
          obtain ⟨meant, listed, same⟩ := control.inflight li flying kind
          rw [← same]
          exact least meant listed (matches_ own meant listed same)
            control.falling

end Start

section Apply

/-- A new message of the daemon, with a key beyond all it has sent. -/
theorem Control.send {bound : Nat}
    (control : Control log n born position ls queued)
    (beyond : horizon position ls.changes ≤ li.key) (low : li.key < bound)
    (describes : Describes log li) (above : born ≤ li.about) :
    (∀ other ∈ infosBy n (log.drop (born + 1)) ++ (queued ++ [li]),
      Describes log other ∧ born ≤ other.about ∧ other.key < bound) ∧
      (infosBy n (log.drop (born + 1)) ++ (queued ++ [li])).Pairwise
        fun earlier later => earlier.key < later.key := by
  have under : ∀ other ∈ infosBy n (log.drop (born + 1)) ++ queued,
      other.key < li.key := fun other listed =>
    Nat.lt_of_lt_of_le (control.own other listed).2.2 beyond
  rw [← List.append_assoc]
  constructor
  · intro other listed
    rcases List.mem_append.mp listed with old | new
    · obtain ⟨told, since, _⟩ := control.own other old
      exact ⟨told, since, Nat.lt_trans (under other old) low⟩
    · cases List.mem_singleton.mp new
      exact ⟨describes, above, low⟩
  · apply List.pairwise_append.mpr
    refine ⟨control.sorted, List.pairwise_singleton _ _, ?_⟩
    intro other old new last
    cases List.mem_singleton.mp last
    exact under other old

variable {older : List Change}

/-- The conditions of the newest change are met. -/
theorem Control.begin (control : Control log n born position ls queued)
    (shape : ls.changes = cg :: older) (state : cg.state = .waitConditions)
    (changes : after.changes = { cg with state := .waitMessages } :: older)
    (startedChange : after.startedChange = ls.startedChange) :
    Control log n born position after (queued ++ [sendInfo .start ls cg]) := by
  have pending := control.pending cg (mem_of_front shape)
  have falling := control.falling
  rw [shape] at falling
  obtain ⟨newer, rest⟩ := List.pairwise_cons.mp falling
  have bound : horizon position after.changes = 2 * cg.index + 1 := by
    rw [changes]
    rfl
  have key : (sendInfo .start ls cg).key = 2 * cg.index := rfl
  have beyond : horizon position ls.changes ≤
      (sendInfo .start ls cg).key := by
    rw [shape, key]
    simp only [horizon, state]
    exact Nat.le_refl _
  have low : (sendInfo .start ls cg).key <
      horizon position after.changes := by
    rw [key, bound]
    exact Nat.lt_succ_self _
  obtain ⟨own, sorted⟩ := control.send beyond low
    (pending.recalls.describes .start ls) pending.above
  refine ⟨?_, ?_, ?_, ?_, ?_, own, sorted, ?_, ?_⟩
  · rw [changes]
    intro other listed
    rcases List.mem_cons.mp listed with rfl | old
    · exact ⟨pending.recalls.inState .waitMessages, pending.above,
        pending.below, pending.heard⟩
    · exact control.pending other
        (by rw [shape]; exact List.mem_cons_of_mem cg old)
  · rw [changes]
    exact List.pairwise_cons.mpr ⟨newer, rest⟩
  · rw [changes]
    intro other old equal
    cases equal
    exact control.newest cg older shape
  · rw [changes]
    intro empty
    cases empty
  · rw [startedChange]
    exact control.started
  · rw [changes]
    intro li listed kind
    rw [← List.append_assoc] at listed
    rcases List.mem_append.mp listed with old | new
    · obtain ⟨meant, known, same⟩ := control.inflight li old kind
      rw [shape] at known
      rcases List.mem_cons.mp known with rfl | behind
      · exact ⟨_, List.mem_cons_self, same⟩
      · exact ⟨meant, List.mem_cons_of_mem _ behind, same⟩
    · cases List.mem_singleton.mp new
      exact ⟨_, List.mem_cons_self, rfl⟩
  · intro li listed kind
    rcases List.mem_append.mp listed with old | new
    · exact control.backed li old kind
    · cases List.mem_singleton.mp new
      cases kind

/-- The own `START` that a complete change has heard. -/
theorem Control.ownStart (control : Control log n born position ls queued)
    (shape : ls.changes = cg :: older)
    (us : n ∈ cg.members.map (·.nodeid))
    (arrived : waitMessagesDone cg = true) :
    Heard log n cg.index position n := by
  obtain ⟨memb, listed, rfl⟩ := List.mem_map.mp us
  have pending := control.pending cg (mem_of_front shape)
  exact pending.heard memb listed
    (List.all_eq_true.mp arrived memb listed)

/-- No own `START` is on its way when the newest change is complete. -/
theorem Control.nothingInflight
    (control : Control log n born position ls queued)
    (shape : ls.changes = cg :: older)
    (heard : Heard log n cg.index position n) :
    ∀ li ∈ infosBy n (log.drop position) ++ queued, li.type ≠ .start := by
  intro li listed kind
  obtain ⟨place, start, above, below, here, isStart, about⟩ := heard
  obtain ⟨meant, known, same⟩ := control.inflight li listed kind
  have old : meant.index ≤ cg.index := by
    have falling := control.falling
    rw [shape] at falling known
    rcases List.mem_cons.mp known with rfl | behind
    · exact Nat.le_refl _
    · exact Nat.le_of_lt ((List.pairwise_cons.mp falling).1 meant behind)
  have born_le := (control.pending cg (mem_of_front shape)).above
  have front : start ∈ infosBy n ((log.drop (born + 1)).take
      (position - (born + 1))) := by
    have sub := (@mem_infosBy_drop (log.take position) n (born + 1)
      start).mpr ⟨place, by omega, by
        rw [List.getElem?_take_of_lt below]
        exact here⟩
    rwa [List.drop_take] at sub
  have split_ : infosBy n (log.drop (born + 1)) =
      infosBy n ((log.drop (born + 1)).take (position - (born + 1))) ++
        infosBy n (log.drop position) := by
    rw [← infosBy_append]
    congr 1
    have back : (log.drop (born + 1)).drop (position - (born + 1)) =
        log.drop position := by
      rw [List.drop_drop]
      congr 1
      omega
    rw [← back, List.take_append_drop]
  have sorted := control.sorted
  rw [split_, List.append_assoc] at sorted
  have order := (List.pairwise_append.mp sorted).2.2 start front li listed
  rw [LsInfo.key_start isStart, LsInfo.key_start kind] at order
  have := about rfl
  omega

/-- The newest change is complete. -/
theorem Control.complete {sent : List LsInfo}
    (control : Control log n born position ls queued)
    (shape : ls.changes = cg :: older)
    (state : cg.state = .waitMessages)
    (us : n ∈ cg.members.map (·.nodeid))
    (arrived : waitMessagesDone cg = true) (changes : after.changes = [])
    (startedChange : after.startedChange = some cg)
    (sends : sent = [] ∨
      ∃ before, sent = [sendInfo .plocksStored before cg]) :
    Control log n born position after (queued ++ sent) := by
  have pending := control.pending cg (mem_of_front shape)
  have last := control.newest cg older shape
  have heard := control.ownStart shape us arrived
  have silent := control.nothingInflight shape heard
  have bound : horizon position after.changes = 2 * position := by
    rw [changes]
    rfl
  have horizon_eq : horizon position ls.changes = 2 * cg.index + 1 := by
    rw [shape]
    simp only [horizon, state]
  have below := pending.below
  have sentOk : (∀ li ∈ infosBy n (log.drop (born + 1)) ++ (queued ++ sent),
      Describes log li ∧ born ≤ li.about ∧
        li.key < horizon position after.changes) ∧
      (infosBy n (log.drop (born + 1)) ++ (queued ++ sent)).Pairwise
        fun earlier later => earlier.key < later.key := by
    rcases sends with rfl | ⟨before, rfl⟩
    · rw [List.append_nil]
      refine ⟨fun li listed => ?_, control.sorted⟩
      obtain ⟨describes, above, under⟩ := control.own li listed
      refine ⟨describes, above, ?_⟩
      rw [bound]
      omega
    · have key : (sendInfo .plocksStored before cg).key =
          2 * cg.index + 1 := rfl
      apply control.send
      · rw [horizon_eq, key]
      · rw [bound, key]
        omega
      · exact pending.recalls.describes .plocksStored before
      · exact pending.above
  obtain ⟨own, sorted⟩ := sentOk
  refine ⟨?_, ?_, ?_, ?_, ?_, own, sorted, ?_, ?_⟩
  · rw [changes]
    exact List.forall_mem_nil _
  · rw [changes]
    exact List.Pairwise.nil
  · rw [changes]
    intro other rest impossible
    cases impossible
  · rw [startedChange]
    intro _ other equal
    cases equal
    exact last
  · rw [startedChange]
    intro other equal memb listed
    cases equal
    exact pending.heard memb listed
      (List.all_eq_true.mp arrived memb listed)
  · intro li listed kind
    rw [← List.append_assoc] at listed
    rcases List.mem_append.mp listed with old | new
    · exact (silent li old kind).elim
    · rcases sends with rfl | ⟨before, rfl⟩
      · exact (List.not_mem_nil new).elim
      · cases List.mem_singleton.mp new
        cases kind
  · intro li listed kind
    rcases List.mem_append.mp listed with old | new
    · exact control.backed li old kind
    · rcases sends with rfl | ⟨before, rfl⟩
      · exact (List.not_mem_nil new).elim
      · cases List.mem_singleton.mp new
        obtain ⟨place, start, _, soon, here, isStart, about⟩ := heard
        refine ⟨place, start, here, isStart, about rfl, ?_⟩
        intro change isChange beyond
        by_contra early
        exact last.last change beyond (by omega) isChange

/-- `apply_changes` keeps the changes and the messages in step. -/
theorem Control.apply (control : Control log n born position ls queued)
    (us : ∀ cg ∈ ls.changes, n ∈ cg.members.map (·.nodeid)) (env : Env)
    (answers : Answers) :
    Control log n born position (applyChanges env answers ls).1
      (queued ++ sentInfos (applyChanges env answers ls).2) := by
  have applied := applyChanges_applied env answers ls
  generalize applyChanges env answers ls = result at applied ⊢
  cases applied with
  | idle empty =>
      simpa [sentInfos] using control
  | begin shape state done => exact control.begin shape state rfl rfl
  | wait shape state unmet =>
      have same : sentInfos ([] : List Effect) = [] := rfl
      rw [same, List.append_nil]
      exact control.same rfl rfl
  | collect shape state missing =>
      simpa [sentInfos] using control
  | @complete cg older shape state arrived =>
      have closed := completeChange_closed env answers.now ls cg older
      exact control.complete shape state
        (us cg (mem_of_front shape)) arrived
        closed.changes closed.startedChange
        (completeChange_sentInfos env answers.now ls cg older)

end Apply

end Dlm.Cpg
