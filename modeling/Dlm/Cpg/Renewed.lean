import Dlm.Cpg.Configfs

/-!
# The members that are renewed

`format_renew_ids` writes into an array of `MAX_NODES` entries, once for every
entry of a removed list that names a member of the newest change.  Each member
is stored at most once exactly if none of them has left twice since the last
start.  Changes pile up while a condition is not met, so a node that leaves and
joins again and again runs over the end of the array.
-/

namespace Dlm.Cpg

open ProcessGroup

def MAX_NODES : Nat := 128

/-- How often a node is in the removed lists of some changes. -/
def timesRemoved (changes : List Change) (id : Int32) : Nat :=
  (changes.flatMap (·.removed)).countP (·.nodeid == id)

/-- How often a node has left in some configuration changes. -/
def timesLeft (confchgs : List (Confchg Int32)) (id : Int32) : Nat :=
  (confchgs.flatMap (·.left)).countP (·.1 == id)

/-- What `renew_ids` is meant to hold: each member of the newest change at most
once, within the array, and exactly those that an older change has removed. -/
structure RenewFits (cg : Change) (older : List Change) : Prop where
  once : ∀ memb ∈ cg.members,
    (formatRenewIds cg older).count memb.nodeid ≤ 1
  fits : (formatRenewIds cg older).length ≤ MAX_NODES
  stored : ∀ memb ∈ cg.members,
    memb.nodeid ∈ formatRenewIds cg older ↔
      ∃ old ∈ older, ∃ gone ∈ old.removed, gone.nodeid = memb.nodeid

section Counting

variable {cg : Change} {older : List Change}

/-- The loop of `format_renew_ids` stores a member as often as it has been
removed. -/
theorem formatRenewIds_eq (cg : Change) (older : List Change) :
    formatRenewIds cg older =
      (formatMemberIds cg).flatMap fun id =>
        List.replicate (timesRemoved older id) id := by
  have stores (id : Int32) :
      (older.flatMap fun cg =>
        (cg.removed.filter (·.nodeid == id)).map fun _ => id) =
      List.replicate (timesRemoved older id) id := by
    induction older with
    | nil => rfl
    | cons first later induction =>
        rw [List.flatMap_cons, induction, timesRemoved, timesRemoved,
          List.flatMap_cons, List.countP_append, List.map_const',
          ← List.countP_eq_length_filter, List.replicate_append_replicate]
  rw [formatRenewIds, formatMemberIds, List.flatMap_map]
  apply List.flatMap_congr
  intro memb _
  exact stores memb.nodeid

theorem count_flatMap_replicate {ids : List Int32} (distinct : ids.Nodup)
    (times : Int32 → Nat) {id : Int32} (member : id ∈ ids) :
    (ids.flatMap fun id => List.replicate (times id) id).count id =
      times id := by
  induction ids with
  | nil => cases member
  | cons first later induction =>
      obtain ⟨apart, rest⟩ := List.nodup_cons.mp distinct
      rw [List.flatMap_cons, List.count_append, List.count_replicate]
      by_cases same : first = id
      · subst same
        have absent : first ∉
            later.flatMap fun id => List.replicate (times id) id := by
          intro present
          obtain ⟨other, there, equal⟩ := List.mem_flatMap.mp present
          rw [List.eq_of_mem_replicate equal] at apart
          exact apart there
        rw [List.count_eq_zero.mpr absent, beq_self_eq_true, if_pos rfl,
          Nat.add_zero]
      · have there := (List.mem_cons.mp member).resolve_left (Ne.symm same)
        rw [induction rest there, if_neg (by simpa using same), Nat.zero_add]

theorem length_flatMap_replicate {ids : List Int32} {times : Int32 → Nat}
    (once : ∀ id ∈ ids, times id ≤ 1) :
    (ids.flatMap fun id => List.replicate (times id) id).length ≤
      ids.length := by
  induction ids with
  | nil => exact Nat.le_refl 0
  | cons first later induction =>
      have here := once first List.mem_cons_self
      have rest := induction fun id member =>
        once id (List.mem_cons_of_mem first member)
      rw [List.flatMap_cons, List.length_append, List.length_replicate,
        List.length_cons]
      omega

theorem timesRemoved_pos (older : List Change) (id : Int32) :
    0 < timesRemoved older id ↔
      ∃ old ∈ older, ∃ gone ∈ old.removed, gone.nodeid = id := by
  rw [timesRemoved, List.countP_pos_iff]
  constructor
  · rintro ⟨gone, listed, same⟩
    obtain ⟨old, inside, removed⟩ := List.mem_flatMap.mp listed
    exact ⟨old, inside, gone, removed, beq_iff_eq.mp same⟩
  · rintro ⟨old, inside, gone, removed, same⟩
    exact ⟨gone, List.mem_flatMap.mpr ⟨old, inside, removed⟩,
      beq_iff_eq.mpr same⟩

/-- The table is right for distinct members exactly if none of them has been
removed twice. -/
theorem RenewFits.iff_once (distinct : (formatMemberIds cg).Nodup)
    (small : cg.members.length ≤ MAX_NODES) :
    RenewFits cg older ↔
      ∀ id ∈ formatMemberIds cg, timesRemoved older id ≤ 1 := by
  have count (id : Int32) (member : id ∈ formatMemberIds cg) :
      (formatRenewIds cg older).count id = timesRemoved older id := by
    rw [formatRenewIds_eq]
    exact count_flatMap_replicate distinct (timesRemoved older) member
  constructor
  · intro right id member
    obtain ⟨memb, listed, rfl⟩ := List.mem_map.mp member
    rw [← count memb.nodeid member]
    exact right.once memb listed
  · intro once
    refine ⟨?_, ?_, ?_⟩
    · intro memb listed
      have member : memb.nodeid ∈ formatMemberIds cg :=
        List.mem_map_of_mem listed
      rw [count memb.nodeid member]
      exact once memb.nodeid member
    · rw [formatRenewIds_eq]
      refine Nat.le_trans (length_flatMap_replicate once) ?_
      rw [formatMemberIds, List.length_map]
      exact small
    · intro memb listed
      rw [← timesRemoved_pos,
        ← count memb.nodeid (List.mem_map_of_mem listed)]
      exact List.count_pos_iff.symm

end Counting

/-- The removed lists of the pending changes are those of the configuration
changes. -/
theorem timesRemoved_eq_timesLeft {older : List Change}
    {earlier : List (Confchg Int32)}
    (same : older.map Change.outline = earlier.map confchgOutline)
    (id : Int32) : timesRemoved older id = timesLeft earlier id := by
  have removed : (older.flatMap (·.removed)).map (·.nodeid) =
      (older.map Change.outline).flatMap (·.2) := by
    rw [List.map_flatMap, List.flatMap_map]
    rfl
  have left : (earlier.flatMap (·.left)).map (·.1) =
      (earlier.map confchgOutline).flatMap (·.2) := by
    rw [List.map_flatMap, List.flatMap_map]
    rfl
  have ids := removed.trans (same ▸ left.symm)
  have counts := congrArg (List.countP (· == id)) ids
  rw [List.countP_map, List.countP_map] at counts
  exact counts

/-- A daemon has started a change and since then been told of some further
configuration changes.  The table of renewed members is right exactly if no
newest member has left more than once since then. -/
theorem renewFits_iff (env : Env) (start daemon : Daemon)
    (newest : Confchg Int32) (earlier : List (Confchg Int32))
    (settled : start.ls.changes = [])
    (since : (sinceSystem env).Run (noStart env) (start, [])
      (daemon, newest :: earlier))
    (small : ∀ change ∈ newest :: earlier,
      change.members.length ≤ MAX_NODES) :
    ∃ cg older, daemon.ls.changes = cg :: older ∧
      (RenewFits cg older ↔
        ∀ id ∈ newest.members, timesLeft earlier id ≤ 1) := by
  obtain ⟨outlines, distinct⟩ := outline_since settled since
  cases pending : daemon.ls.changes with
  | nil =>
      simp only [pending] at outlines
      cases outlines
  | cons cg older =>
      simp only [pending, List.map_cons] at outlines
      obtain ⟨first, rest⟩ := List.cons.inj outlines
      have ids : formatMemberIds cg = newest.members :=
        congrArg Prod.fst first
      have length : cg.members.length = newest.members.length := by
        rw [← ids, formatMemberIds, List.length_map]
      refine ⟨cg, older, rfl, ?_⟩
      rw [RenewFits.iff_once]
      · rw [ids]
        simp only [timesRemoved_eq_timesLeft rest]
      · rw [ids]
        exact distinct newest List.mem_cons_self
      · rw [length]
        exact small newest List.mem_cons_self

/-- Node 2 leaves and joins again, and no message arrives. -/
def leaveAndJoin : List Step :=
  [⟨.confchg 1 secondLeaves, calmAnswers 120⟩,
    ⟨.confchg 2 secondJoins, calmAnswers 120⟩]

/-- The changes since the start. -/
def afterLeaveAndJoin : Daemon × List (Confchg Int32) :=
  (sinceSystem (plainEnv 1)).follow (startedWith [1, 2], []) leaveAndJoin

theorem leaveAndJoin_renewed :
    (∀ id ∈ secondJoins.members, timesLeft [secondLeaves] id ≤ 1) ∧
      ∃ cg older, afterLeaveAndJoin.1.ls.changes = cg :: older ∧
        RenewFits cg older := by
  have once : ∀ id ∈ secondJoins.members, timesLeft [secondLeaves] id ≤ 1 := by
    refine List.forall_mem_cons.mpr ⟨?_, List.forall_mem_singleton.mpr ?_⟩ <;>
      decide
  obtain ⟨cg, older, pending, fits⟩ :=
    renewFits_iff (plainEnv 1) (startedWith [1, 2]) afterLeaveAndJoin.1
      secondJoins [secondLeaves] (by decide)
      (System.run_of_follows leaveAndJoin .refl (by decide)) (by decide)
  exact ⟨once, cg, older, pending, fits.mpr once⟩

/-- Node 2 leaves and joins again 129 times, then node 3 joins, and nodes 1
and 2 have sent their start messages for the last change. -/
def flapping : List Step :=
  (List.replicate 129 leaveAndJoin).flatten ++
    [⟨.confchg 3 thirdJoins, calmAnswers 120⟩,
      ⟨.info 1 (infoFrom .start 3 thirdJoins 1), calmAnswers 130⟩,
      ⟨.info 2 (infoAbout .start 3 thirdJoins), calmAnswers 130⟩]

/-- The daemon and the configuration changes since the start. -/
def flapped : Daemon × List (Confchg Int32) :=
  (sinceSystem (plainEnv 1)).follow (startedWith [1, 2], []) flapping

/-- The start message of node 3 completes the last change.  Node 2 is stored
129 times, once more than the array has room for. -/
theorem flapping_overflows :
    (daemonSystem (plainEnv 1)).Run (fun _ _ => True) (Daemon.start false)
        (startedWith [1, 2]) ∧
      (startedWith [1, 2]).ls.changes = [] ∧
      (sinceSystem (plainEnv 1)).Run (noStart (plainEnv 1))
        (startedWith [1, 2], []) flapped ∧
      (∀ change ∈ flapped.2, change.members.length ≤ MAX_NODES) ∧
      .setConfigfsMembers [1, 2, 3] (List.replicate 129 2) ∈
        daemonEffects (plainEnv 1) flapped.1
          ⟨.info 3 (infoAbout .start 3 thirdJoins), calmAnswers 140⟩ ∧
      MAX_NODES < (List.replicate 129 (2 : Int32)).length :=
  ⟨System.run_of_follows _ .refl (by decide), by decide,
    System.run_of_follows flapping .refl (by decide +kernel),
    by decide +kernel, by decide +kernel, by decide +kernel⟩

end Dlm.Cpg
