import Dlm.Deadlock.Locks
import Mathlib.Data.List.Nodup
import Mathlib.Data.List.Pairwise

/-!
# The order in which locks are read

Every daemon reads the locks of its own node first and those of the others in
the order of their messages.  `add_lock` makes a new entry for a local copy and
puts the two master copies of a lock into one entry, each with the fields that
it knows.  So the entries of a resource do not depend on the order.
-/

namespace Dlm.Deadlock

/-- What `set_copy` makes of a lock: a local copy has no node, a master copy
has one. -/
def PackLock.Homed (lock : PackLock) : Prop :=
  lock.copy = .localCopy ∧ lock.nodeid = 0 ∨
    lock.copy = .masterCopy ∧ lock.nodeid ≠ 0

def PackLock.key (lock : PackLock) : Int32 × UInt32 :=
  (lock.nodeid, lock.id)

/-- A lock as it is read: the name of its resource and the node it is from. -/
structure Report where
  name : String
  fromNodeid : Int32
  lock : PackLock
  homed : lock.Homed

variable {report : Report}

section Origin

theorem setCopy_homed {ourNodeid : Int32} (apart : ourNodeid ≠ 0)
    (lock : PackLock) : (setCopy ourNodeid lock).Homed := by
  unfold setCopy
  split
  · rename_i here
    exact .inl ⟨rfl, here⟩
  · rename_i remote
    split
    · exact .inr ⟨rfl, remote⟩
    · exact .inr ⟨rfl, apart⟩

theorem fillLkb_homed {fromNodeid : Int32} {lock : PackLock}
    (homed : lock.Homed) (lkb : Lkb) :
    (fillLkb fromNodeid lock lkb).lock.Homed := by
  rcases homed with ⟨copy, nodeid⟩ | ⟨copy, nodeid⟩
  · simp only [fillLkb, copy]
    exact .inl ⟨copy, nodeid⟩
  · simp only [fillLkb, copy]
    split
    · exact .inr ⟨rfl, nodeid⟩
    · exact .inr ⟨rfl, nodeid⟩

/-- Every lock in the checkpoint of a node makes a `Report`. -/
theorem packSections_homed {ourNodeid : Int32} (apart : ourNodeid ≠ 0)
    (lines : List Line) (place : Nat) :
    ∀ part ∈ packSections place (readDebugfsLocks ourNodeid lines []),
      ∀ lock ∈ part.2, lock.Homed := by
  have homed : Everywhere (fun _ lkb => lkb.lock.Homed)
      (readDebugfsLocks ourNodeid lines []) := by
    apply Everywhere.readDebugfsLocks
    · intro r none_
      cases none_
    · intro line _
      have fine := setCopy_homed apart line.2
      exact ⟨fillLkb_homed fine _, fun lkb _ _ _ _ => fillLkb_homed fine lkb⟩
  intro part member lock listed
  obtain ⟨r, known, rfl⟩ := List.mem_map.mp member
  obtain ⟨lkb, there, rfl⟩ := List.mem_map.mp listed
  exact homed r known lkb there

end Origin

section Entry

/-- The entry without its history. -/
def Lkb.bare (lkb : Lkb) : Lkb :=
  { lkb with origins := [] }

/-- A report put into an entry. -/
def put (lkb : Lkb) (report : Report) : Lkb :=
  (fillLkb report.fromNodeid report.lock lkb).bare

theorem put_bare (lkb : Lkb) (report : Report) :
    put lkb.bare report = put lkb report := by
  rcases report.homed with ⟨copy, _⟩ | ⟨copy, _⟩
  · simp only [put, fillLkb, copy, Lkb.bare]
  · simp only [put, fillLkb, copy, Lkb.bare]
    split
    · rfl
    · rfl

theorem fillLkb_key (lkb : Lkb) :
    (fillLkb report.fromNodeid report.lock lkb).lock.key =
      report.lock.key := by
  rcases report.homed with ⟨copy, _⟩ | ⟨copy, _⟩
  · simp only [fillLkb, copy]
  · simp only [fillLkb, copy]
    split
    · rfl
    · rfl

/-- Of two master copies of a lock one is partial and the other is not, and
they agree on the other id. -/
def Agree (first second : Report) : Prop :=
  first.name = second.name → first.lock.copy = .masterCopy →
    second.lock.copy = .masterCopy → first.lock.key = second.lock.key →
    partialMasterCopy first.lock ≠ partialMasterCopy second.lock ∧
      first.lock.remid = second.lock.remid

theorem Agree.symm {first second : Report} (agree : Agree first second) :
    Agree second first := by
  intro name one two key
  obtain ⟨kinds, remid⟩ := agree name.symm two one key.symm
  exact ⟨kinds.symm, remid.symm⟩

instance : Std.Symm Agree :=
  ⟨fun _ _ => Agree.symm⟩

theorem put_half (master : report.lock.copy = .masterCopy)
    (part : partialMasterCopy report.lock = true) (lkb : Lkb) :
    put lkb report =
      { lock :=
          { lkb.lock with
            xid := report.lock.xid
            nodeid := report.lock.nodeid
            id := report.lock.id
            remid := report.lock.remid
            copy := .masterCopy }
        home := report.lock.nodeid
        origins := [] } := by
  simp [put, fillLkb, master, part, Lkb.bare]

theorem put_real (master : report.lock.copy = .masterCopy)
    (real : partialMasterCopy report.lock = false) (lkb : Lkb) :
    put lkb report =
      { lock := { report.lock with xid := lkb.lock.xid }
        home := report.lock.nodeid
        origins := [] } := by
  simp [put, fillLkb, master, real, Lkb.bare]

/-- The two master copies of a lock can be put into an entry in either
order. -/
theorem put_comm {first second : Report} (agree : Agree first second)
    (name : first.name = second.name)
    (one : first.lock.copy = .masterCopy)
    (two : second.lock.copy = .masterCopy)
    (key : first.lock.key = second.lock.key) (lkb : Lkb) :
    put (put lkb first) second = put (put lkb second) first := by
  obtain ⟨kinds, remid⟩ := agree name one two key
  obtain ⟨nodeid, id⟩ := Prod.mk.inj key
  cases part : partialMasterCopy first.lock with
  | true =>
      have real : partialMasterCopy second.lock = false := by
        rw [part] at kinds
        exact Bool.eq_false_iff.mpr (Ne.symm kinds)
      rw [put_half one part, put_real two real, put_real two real,
        put_half one part]
      simp only [nodeid, id, remid, ← two]
  | false =>
      have real : partialMasterCopy second.lock = true := by
        rw [part] at kinds
        exact Bool.of_not_eq_false (Ne.symm kinds)
      rw [put_real one part, put_half two real, put_half two real,
        put_real one part]
      simp only [← nodeid, ← id, ← remid, ← one]

end Entry

section Resource

/-- Reports added to a resource. -/
def gather (reports : List Report) (r : Rsb) : Rsb :=
  reports.foldl
    (fun r report => addLock report.fromNodeid report.lock r) r

/-- The reports about one lock. -/
def about (key : Int32 × UInt32) (reports : List Report) : List Report :=
  reports.filter (·.lock.key == key)

/-- The entry that the reports about a lock make. -/
def merged (key : Int32 × UInt32) (reports : List Report) : Lkb :=
  (about key reports).foldl put createLkb

variable {key : Int32 × UInt32} {reports others : List Report} {r : Rsb}

theorem merged_append_self (reports : List Report) (report : Report) :
    merged report.lock.key (reports ++ [report]) =
      put (merged report.lock.key reports) report := by
  simp [merged, about, List.filter_append]

theorem merged_append_other (reports : List Report)
    (other : report.lock.key ≠ key) :
    merged key (reports ++ [report]) = merged key reports := by
  have apart : (report.lock.key == key) = false := beq_false_of_ne other
  simp [merged, about, List.filter_append, apart]

/-- `add_lock` makes a new entry or rewrites the one with the same key. -/
theorem addLock_cases (report : Report) (r : Rsb) :
    ((report.lock.nodeid ≠ 0 →
          ∀ lkb ∈ r.locks, lkb.lock.key ≠ report.lock.key) ∧
        (addLock report.fromNodeid report.lock r).locks =
          fillLkb report.fromNodeid report.lock createLkb :: r.locks) ∨
      ∃ before lkb after, report.lock.nodeid ≠ 0 ∧
        r.locks = before ++ lkb :: after ∧
        lkb.lock.key = report.lock.key ∧
        (addLock report.fromNodeid report.lock r).locks =
          before ++ fillLkb report.fromNodeid report.lock lkb :: after := by
  unfold addLock
  rcases report.homed with ⟨copy, nodeid⟩ | ⟨copy, nodeid⟩
  · have fresh : getLkb r report.lock = none := by
      simp [getLkb, copy]
    rw [fresh]
    exact .inl ⟨fun apart => (apart nodeid).elim, rfl⟩
  · cases found : getLkb r report.lock with
    | none =>
        refine .inl ⟨fun _ lkb member same => ?_, rfl⟩
        obtain ⟨first, second⟩ := Prod.mk.inj same
        simp only [getLkb, copy, ne_eq, not_true_eq_false, if_false,
          List.findIdx?_eq_none_iff] at found
        have differs := found lkb member
        simp [first, second] at differs
    | some place =>
        simp only [getLkb, copy, ne_eq, not_true_eq_false, if_false] at found
        obtain ⟨within, passes, _⟩ :=
          List.findIdx?_eq_some_iff_getElem.mp found
        obtain ⟨first, second⟩ := Bool.and_eq_true_iff.mp passes
        refine .inr ⟨r.locks.take place, r.locks[place],
          r.locks.drop (place + 1), nodeid, ?_, ?_, ?_⟩
        · rw [← List.drop_eq_getElem_cons within, List.take_append_drop]
        · exact Prod.ext (beq_iff_eq.mp first) (beq_iff_eq.mp second)
        · exact List.modify_eq_take_cons_drop within

/-- The entries of a resource after some reports. -/
structure Collects (reports : List Report) (locks : List Lkb) : Prop where
  locals : ((locks.filter (·.lock.nodeid == 0)).map Lkb.bare).Perm
    ((reports.filter (·.lock.nodeid == 0)).map (put createLkb))
  keys : ((locks.filter (·.lock.nodeid != 0)).map (·.lock.key)).Nodup
  masters : ∀ lkb ∈ locks, lkb.lock.nodeid ≠ 0 →
    lkb.lock.key ∈ reports.map (·.lock.key) ∧
      lkb.bare = merged lkb.lock.key reports
  covered : ∀ report ∈ reports, report.lock.nodeid ≠ 0 →
    report.lock.key ∈ locks.map (·.lock.key)

/-- A local copy gets an entry of its own. -/
theorem Collects.addLocal (collects : Collects reports r.locks)
    (here : report.lock.nodeid = 0) :
    Collects (reports ++ [report])
      (fillLkb report.fromNodeid report.lock createLkb :: r.locks) := by
  have nodeid : (fillLkb report.fromNodeid report.lock
      createLkb).lock.nodeid = 0 :=
    (Prod.mk.inj (fillLkb_key createLkb)).1.trans here
  refine ⟨?_, ?_, ?_, ?_⟩
  · rw [List.filter_cons_of_pos (by simp [nodeid]), List.filter_append,
      List.filter_cons_of_pos (by simp [here]), List.map_append]
    exact (collects.locals.cons _).trans (List.perm_append_singleton _ _).symm
  · rw [List.filter_cons_of_neg (by simp [nodeid])]
    exact collects.keys
  · intro lkb member remote
    rcases List.mem_cons.mp member with rfl | old
    · exact (remote nodeid).elim
    · obtain ⟨known, same⟩ := collects.masters lkb old remote
      have other : report.lock.key ≠ lkb.lock.key := by
        intro equal
        exact remote ((Prod.mk.inj equal).1.symm.trans here)
      rw [merged_append_other reports other, List.map_append]
      exact ⟨List.mem_append_left _ known, same⟩
  · intro other member remote
    rcases List.mem_append.mp member with old | new
    · exact List.mem_cons_of_mem _ (collects.covered other old remote)
    · rw [List.mem_singleton.mp new] at remote
      exact (remote here).elim

/-- The first master copy of a lock gets an entry. -/
theorem Collects.addMaster (collects : Collects reports r.locks)
    (remote : report.lock.nodeid ≠ 0)
    (fresh : ∀ lkb ∈ r.locks, lkb.lock.key ≠ report.lock.key) :
    Collects (reports ++ [report])
      (fillLkb report.fromNodeid report.lock createLkb :: r.locks) := by
  have key := @fillLkb_key report createLkb
  have nodeid : (fillLkb report.fromNodeid report.lock
      createLkb).lock.nodeid ≠ 0 := by
    rw [(Prod.mk.inj key).1]
    exact remote
  have unheard : about report.lock.key reports = [] := by
    apply List.filter_eq_nil_iff.mpr
    intro other member same
    have equal := beq_iff_eq.mp same
    have away : other.lock.nodeid ≠ 0 := by
      rw [(Prod.mk.inj equal).1]
      exact remote
    obtain ⟨lkb, there, matches_⟩ :=
      List.mem_map.mp (collects.covered other member away)
    exact fresh lkb there (matches_.trans equal)
  refine ⟨?_, ?_, ?_, ?_⟩
  · rw [List.filter_cons_of_neg (by simp [nodeid]), List.filter_append,
      List.filter_cons_of_neg (by simp [remote]), List.filter_nil,
      List.append_nil]
    exact collects.locals
  · rw [List.filter_cons_of_pos (by simp [nodeid]), List.map_cons, key]
    refine List.nodup_cons.mpr ⟨fun listed => ?_, collects.keys⟩
    obtain ⟨lkb, kept, same⟩ := List.mem_map.mp listed
    exact fresh lkb (List.mem_of_mem_filter kept) same
  · intro lkb member away
    rcases List.mem_cons.mp member with rfl | old
    · rw [key, merged_append_self, merged, unheard, List.map_append]
      exact ⟨List.mem_append_right _ (List.mem_singleton_self _), rfl⟩
    · obtain ⟨known, same⟩ := collects.masters lkb old away
      rw [merged_append_other reports (Ne.symm (fresh lkb old)),
        List.map_append]
      exact ⟨List.mem_append_left _ known, same⟩
  · intro other member away
    rcases List.mem_append.mp member with old | new
    · exact List.mem_cons_of_mem _ (collects.covered other old away)
    · rw [List.mem_singleton.mp new, List.map_cons, key]
      exact List.mem_cons_self

/-- The second master copy of a lock goes into its entry. -/
theorem Collects.merge {before after : List Lkb} {lkb : Lkb}
    (collects : Collects reports (before ++ lkb :: after))
    (remote : report.lock.nodeid ≠ 0)
    (same : lkb.lock.key = report.lock.key) :
    Collects (reports ++ [report])
      (before ++ fillLkb report.fromNodeid report.lock lkb :: after) := by
  have key := (@fillLkb_key report lkb).trans same.symm
  have away : lkb.lock.nodeid ≠ 0 := by
    rw [(Prod.mk.inj same).1]
    exact remote
  have nodeid : (fillLkb report.fromNodeid report.lock
      lkb).lock.nodeid ≠ 0 := by
    rw [(Prod.mk.inj key).1]
    exact away
  have keys := collects.keys
  rw [List.filter_append, List.filter_cons_of_pos (by simp [away]),
    List.map_append, List.map_cons] at keys
  refine ⟨?_, ?_, ?_, ?_⟩
  · have locals := collects.locals
    rw [List.filter_append, List.filter_cons_of_neg (by simp [away])]
      at locals
    rw [List.filter_append, List.filter_cons_of_neg (by simp [nodeid]),
      List.filter_append, List.filter_cons_of_neg (by simp [remote]),
      List.filter_nil, List.append_nil]
    exact locals
  · rw [List.filter_append, List.filter_cons_of_pos (by simp [nodeid]),
      List.map_append, List.map_cons, key]
    exact keys
  · intro other member distant
    have untouched : other ∈ before ++ after →
        other.lock.key ∈ (reports ++ [report]).map (·.lock.key) ∧
          other.bare = merged other.lock.key (reports ++ [report]) := by
      intro old
      have listed : other ∈ before ++ lkb :: after := by
        rcases List.mem_append.mp old with front | back
        · exact List.mem_append_left _ front
        · exact List.mem_append_right _ (List.mem_cons_of_mem _ back)
      obtain ⟨known, equal⟩ := collects.masters other listed distant
      have apart : report.lock.key ≠ other.lock.key := by
        intro clash
        have pairwise := List.nodup_append.mp keys
        have clash := same.trans clash
        rcases List.mem_append.mp old with front | back
        · have inFront : other.lock.key ∈
              (before.filter (·.lock.nodeid != 0)).map (·.lock.key) :=
            List.mem_map_of_mem
              (List.mem_filter.mpr ⟨front, by simp [distant]⟩)
          exact pairwise.2.2 _ inFront _ List.mem_cons_self clash.symm
        · have inBack : other.lock.key ∈
              (after.filter (·.lock.nodeid != 0)).map (·.lock.key) :=
            List.mem_map_of_mem
              (List.mem_filter.mpr ⟨back, by simp [distant]⟩)
          rw [← clash] at inBack
          exact (List.nodup_cons.mp pairwise.2.1).1 inBack
      rw [merged_append_other reports apart, List.map_append]
      exact ⟨List.mem_append_left _ known, equal⟩
    rcases List.mem_append.mp member with front | rest
    · exact untouched (List.mem_append_left _ front)
    · rcases List.mem_cons.mp rest with rfl | back
      · obtain ⟨_, equal⟩ := collects.masters lkb
          (List.mem_append_right _ List.mem_cons_self) away
        rw [same] at equal
        rw [fillLkb_key, merged_append_self, ← equal, put_bare,
          List.map_append]
        exact ⟨List.mem_append_right _ (List.mem_singleton_self _), rfl⟩
      · exact untouched (List.mem_append_right _ back)
  · intro other member distant
    have covered : other.lock.key ∈
        (before ++ lkb :: after).map (·.lock.key) := by
      rcases List.mem_append.mp member with old | new
      · exact collects.covered other old distant
      · rw [List.mem_singleton.mp new, ← same]
        exact List.mem_map_of_mem
          (List.mem_append_right _ List.mem_cons_self)
    rw [List.map_append, List.map_cons] at covered
    rw [List.map_append, List.map_cons, key]
    exact covered

theorem Collects.addLock (collects : Collects reports r.locks)
    (report : Report) :
    Collects (reports ++ [report])
      (addLock report.fromNodeid report.lock r).locks := by
  rcases addLock_cases report r with
    ⟨fresh, equation⟩ | ⟨before, lkb, after, remote, split, same, equation⟩
  · rw [equation]
    by_cases here : report.lock.nodeid = 0
    · exact collects.addLocal here
    · exact collects.addMaster here (fresh here)
  · rw [equation]
    rw [split] at collects
    exact collects.merge remote same

theorem Collects.gather {seen : List Report} (reports : List Report)
    (collects : Collects seen r.locks) :
    Collects (seen ++ reports) (gather reports r).locks := by
  induction reports generalizing seen r with
  | nil => simpa [Deadlock.gather] using collects
  | cons report later induction =>
      have rest := induction (collects.addLock report)
      rw [List.append_assoc] at rest
      exact rest

theorem collects_nil : Collects [] [] := by
  refine ⟨.nil, List.nodup_nil, ?_, ?_⟩
  · intro lkb none_
    cases none_
  · intro report none_
    cases none_

end Resource

section Order

variable {key : Int32 × UInt32} {reports others : List Report}
  {name : String}

theorem master_of_remote (remote : report.lock.nodeid ≠ 0) :
    report.lock.copy = .masterCopy := by
  rcases report.homed with ⟨_, here⟩ | ⟨copy, _⟩
  · exact (remote here).elim
  · exact copy

/-- The reports about one lock of a resource can be put together in any
order. -/
theorem foldl_put_perm {first second : List Report} (remote : key.1 ≠ 0)
    (agree : first.Pairwise Agree)
    (same : ∀ report ∈ first, report.name = name ∧ report.lock.key = key)
    (perm : first.Perm second) :
    first.foldl put createLkb = second.foldl put createLkb := by
  apply perm.foldl_eq'
  intro one oneMember two twoMember lkb
  obtain ⟨oneName, oneKey⟩ := same one oneMember
  obtain ⟨twoName, twoKey⟩ := same two twoMember
  by_cases equal : one = two
  · rw [equal]
  · have master : ∀ report ∈ first, report.lock.copy = .masterCopy := by
      intro report member
      apply master_of_remote
      rw [(Prod.mk.inj (same report member).2).1]
      exact remote
    exact put_comm (agree.forall oneMember twoMember equal)
      (oneName.trans twoName.symm) (master one oneMember)
      (master two twoMember) (oneKey.trans twoKey.symm) lkb

theorem merged_perm (agree : reports.Pairwise Agree)
    (named : ∀ report ∈ reports, report.name = name) (remote : key.1 ≠ 0)
    (perm : reports.Perm others) :
    merged key reports = merged key others := by
  refine @foldl_put_perm key name _ _ remote (agree.filter _) ?_
    (perm.filter _)
  intro report member
  obtain ⟨listed, matches_⟩ := List.mem_filter.mp member
  exact ⟨named report listed, beq_iff_eq.mp matches_⟩

/-- Any report about a lock can be put into its entry last. -/
theorem merged_last (agree : reports.Pairwise Agree)
    (named : ∀ report ∈ reports, report.name = name)
    (member : report ∈ reports) (remote : report.lock.nodeid ≠ 0) :
    ∃ before, merged report.lock.key reports = put before report := by
  have listed : report ∈ about report.lock.key reports :=
    List.mem_filter.mpr ⟨member, beq_self_eq_true _⟩
  obtain ⟨front, back, split⟩ := List.append_of_mem listed
  have last : (about report.lock.key reports).Perm
      ((front ++ back) ++ [report]) := by
    rw [split]
    exact List.perm_middle.trans (List.perm_append_singleton _ _).symm
  have same : ∀ other ∈ about report.lock.key reports,
      other.name = name ∧ other.lock.key = report.lock.key := by
    intro other heard
    obtain ⟨known, matches_⟩ := List.mem_filter.mp heard
    exact ⟨named other known, beq_iff_eq.mp matches_⟩
  have moved := foldl_put_perm remote (agree.filter _) same last
  rw [List.foldl_append] at moved
  exact ⟨(front ++ back).foldl put createLkb, moved⟩

/-- The entries are given by the reports. -/
theorem Collects.perm {locks entries : List Lkb}
    (first : Collects reports locks) (second : Collects others entries)
    (agree : reports.Pairwise Agree)
    (named : ∀ report ∈ reports, report.name = name)
    (perm : reports.Perm others) :
    (locks.map Lkb.bare).Perm (entries.map Lkb.bare) := by
  have parts : ∀ list : List Lkb, (list.map Lkb.bare).Perm
      ((list.filter (·.lock.nodeid == 0)).map Lkb.bare ++
        (list.filter (·.lock.nodeid != 0)).map Lkb.bare) := by
    intro list
    rw [← List.map_append]
    exact (List.filter_append_perm _ list).symm.map _
  have distinct : ∀ list : List Lkb,
      ((list.filter (·.lock.nodeid != 0)).map (·.lock.key)).Nodup →
      ((list.filter (·.lock.nodeid != 0)).map Lkb.bare).Nodup := by
    intro list keys
    apply List.Nodup.of_map (·.lock.key)
    rw [List.map_map]
    exact keys
  have inside : ∀ {seen told : List Report} {list rest : List Lkb},
      Collects seen list → Collects told rest →
      (∀ report, report ∈ seen → report ∈ told) →
      (∀ key : Int32 × UInt32, key.1 ≠ 0 →
        merged key seen = merged key told) →
      ∀ lkb ∈ (list.filter (·.lock.nodeid != 0)).map Lkb.bare,
        lkb ∈ (rest.filter (·.lock.nodeid != 0)).map Lkb.bare := by
    intro seen told list rest one two known equal lkb member
    obtain ⟨entry, kept, rfl⟩ := List.mem_map.mp member
    obtain ⟨listed, remote⟩ := List.mem_filter.mp kept
    have remote : entry.lock.nodeid ≠ 0 := bne_iff_ne.mp remote
    obtain ⟨heard, same⟩ := one.masters entry listed remote
    obtain ⟨report, told, key⟩ := List.mem_map.mp heard
    have nodeid := (Prod.mk.inj key).1
    obtain ⟨other, there, matches_⟩ := List.mem_map.mp
      (two.covered report (known report told) (by rw [nodeid]; exact remote))
    have matches_ := matches_.trans key
    have distant : other.lock.nodeid ≠ 0 := by
      rw [(Prod.mk.inj matches_).1]
      exact remote
    refine List.mem_map.mpr ⟨other,
      List.mem_filter.mpr ⟨there, bne_iff_ne.mpr distant⟩, ?_⟩
    rw [(two.masters other there distant).2, matches_, same,
      equal _ remote]
  have locals := first.locals.trans
    (((perm.filter _).map _).trans second.locals.symm)
  have masters : ((locks.filter (·.lock.nodeid != 0)).map Lkb.bare).Perm
      ((entries.filter (·.lock.nodeid != 0)).map Lkb.bare) := by
    apply (List.perm_ext_iff_of_nodup (distinct locks first.keys)
      (distinct entries second.keys)).mpr
    intro lkb
    constructor
    · exact inside first second (fun report => perm.mem_iff.mp)
        (fun _ remote => merged_perm agree named remote perm) lkb
    · exact inside second first (fun report => perm.mem_iff.mpr)
        (fun _ remote => (merged_perm agree named remote perm).symm) lkb
  exact (parts locks).trans ((locals.append masters).trans
    (parts entries).symm)

/-- A master copy is in the one entry with its key: a partial copy gives the
xid, a real one the rest. -/
theorem Collects.single {locks : List Lkb} (collects : Collects reports locks)
    (agree : reports.Pairwise Agree)
    (named : ∀ report ∈ reports, report.name = name)
    (member : report ∈ reports) (master : report.lock.copy = .masterCopy) :
    ∃ lkb, locks.filter (·.lock.key == report.lock.key) = [lkb] ∧
      (partialMasterCopy report.lock = true →
        lkb.lock.xid = report.lock.xid) ∧
      (partialMasterCopy report.lock = false →
        lkb.lock = { report.lock with xid := lkb.lock.xid }) := by
  have remote : report.lock.nodeid ≠ 0 := by
    rcases report.homed with ⟨copy, _⟩ | ⟨_, nodeid⟩
    · rw [copy] at master
      cases master
    · exact nodeid
  have key : ∀ lkb : Lkb, lkb.lock.key = report.lock.key →
      lkb.lock.nodeid ≠ 0 := by
    intro lkb same
    rw [(Prod.mk.inj same).1]
    exact remote
  -- the keys of the master copies are distinct
  have once : (locks.filter (·.lock.key == report.lock.key)).length = 1 := by
    obtain ⟨lkb, there, same⟩ :=
      List.mem_map.mp (collects.covered report member remote)
    have listed : report.lock.key ∈
        (locks.filter (·.lock.nodeid != 0)).map (·.lock.key) :=
      List.mem_map.mpr ⟨lkb, List.mem_filter.mpr
        ⟨there, bne_iff_ne.mpr (key lkb same)⟩, same⟩
    have count := List.count_eq_one_of_mem collects.keys listed
    rw [List.count, List.countP_map, List.countP_filter] at count
    rw [← List.countP_eq_length_filter, ← count]
    apply List.countP_congr
    intro other _
    simp only [Function.comp_apply, Bool.and_eq_true, beq_iff_eq,
      bne_iff_ne]
    constructor
    · exact fun same => ⟨same, key other same⟩
    · exact fun both => both.1
  obtain ⟨lkb, only⟩ := List.length_eq_one_iff.mp once
  obtain ⟨there, same⟩ := List.mem_filter.mp
    (by rw [only]; exact List.mem_singleton_self lkb)
  have same : lkb.lock.key = report.lock.key := beq_iff_eq.mp same
  have entry := (collects.masters lkb there (key lkb same)).2
  obtain ⟨before, whole⟩ := merged_last agree named member remote
  rw [same, whole] at entry
  have lock : lkb.bare.lock = (put before report).lock :=
    congrArg Lkb.lock entry
  refine ⟨lkb, only, fun part => ?_, fun real => ?_⟩
  · have xid : lkb.lock.xid = (put before report).lock.xid :=
      congrArg (·.xid) lock
    rw [xid, put_half master part]
  · rw [put_real master real] at lock
    exact lock.trans (congrArg (fun xid => { report.lock with xid := xid })
      (congrArg PackLock.xid lock).symm)

/-- Everything that is read, in some order. -/
def feed (reports : List Report) (resources : List Rsb) : List Rsb :=
  reports.foldl
    (fun resources report =>
      updateRsb report.name (addLock report.fromNodeid report.lock)
        (getResource report.name resources)) resources

/-- The entries of a resource. -/
def locksOn (name : String) (resources : List Rsb) : List Lkb :=
  ((resources.find? (·.name == name)).map (·.locks)).getD []

theorem locksOn_getResource (name other : String) (resources : List Rsb) :
    locksOn name (getResource other resources) = locksOn name resources := by
  unfold locksOn getResource
  split
  · rfl
  · rename_i absent
    by_cases same : other = name
    · subst same
      have missing : resources.find? (·.name == other) = none := by
        simpa using absent
      rw [missing, List.find?_cons_of_pos (by simp)]
      rfl
    · rw [List.find?_cons_of_neg (by simpa using same)]

theorem addLock_name (fromNodeid : Int32) (lock : PackLock) (r : Rsb) :
    (addLock fromNodeid lock r).name = r.name := by
  unfold addLock
  split
  · rfl
  · rfl

/-- A report concerns the entries of its own resource. -/
theorem locksOn_report (name : String) (report : Report)
    (resources : List Rsb) :
    locksOn name (updateRsb report.name
        (addLock report.fromNodeid report.lock)
        (getResource report.name resources)) =
      if report.name = name then
        (addLock report.fromNodeid report.lock
          { name := name, locks := locksOn name resources }).locks
      else locksOn name resources := by
  have known : (getResource report.name resources).any
      (·.name == report.name) = true := by
    unfold getResource
    split
    · assumption
    · simp
  have before := locksOn_getResource name report.name resources
  generalize getResource report.name resources = found at known before ⊢
  have search : (updateRsb report.name (addLock report.fromNodeid
      report.lock) found).find? (·.name == name) =
      (found.find? (·.name == name)).map fun r =>
        if r.name = report.name then
          addLock report.fromNodeid report.lock r
        else r := by
    rw [updateRsb, List.find?_map]
    congr 2
    funext r
    simp only [Function.comp_apply]
    split
    · rw [addLock_name]
    · rfl
  rw [← before]
  unfold locksOn
  rw [search]
  cases here : found.find? (·.name == name) with
  | none =>
      split
      · rename_i same
        subst same
        obtain ⟨r, member, equal⟩ := List.any_eq_true.mp known
        exact (List.find?_eq_none.mp here r member equal).elim
      · rfl
  | some r =>
      have rsb : r.name = name := by
        simpa using List.find?_some here
      by_cases same : report.name = name
      · rw [if_pos same, Option.map_some, Option.map_some,
          if_pos (rsb.trans same.symm)]
        subst rsb
        rfl
      · have apart : r.name ≠ report.name :=
          fun equal => same (equal.symm.trans rsb)
        rw [if_neg same, Option.map_some, if_neg apart]

theorem locksOn_feed (name : String) (reports : List Report)
    (resources : List Rsb) :
    locksOn name (feed reports resources) =
      (gather (reports.filter (·.name == name))
        { name := name, locks := locksOn name resources }).locks := by
  induction reports generalizing resources with
  | nil => rfl
  | cons report later induction =>
      have rest := induction (updateRsb report.name
        (addLock report.fromNodeid report.lock)
        (getResource report.name resources))
      rw [locksOn_report] at rest
      by_cases here : report.name = name
      · rw [List.filter_cons_of_pos (by simpa using here)]
        rw [if_pos here] at rest
        have whole : ({ name := name
                        locks := (addLock report.fromNodeid report.lock
                          { name := name
                            locks := locksOn name resources }).locks } :
              Rsb) =
            addLock report.fromNodeid report.lock
              { name := name, locks := locksOn name resources } := by
          unfold addLock
          split
          · rfl
          · rfl
        rw [whole] at rest
        exact rest
      · rw [List.filter_cons_of_neg (by simpa using here)]
        rw [if_neg here] at rest
        exact rest

/-- The order in which locks are read does not matter, and the two master
copies of a lock are in one entry. -/
theorem reading_order_irrelevant (reports others : List Report)
    (agree : reports.Pairwise Agree) (perm : reports.Perm others)
    (name : String) :
    ((locksOn name (feed reports [])).map Lkb.bare).Perm
        ((locksOn name (feed others [])).map Lkb.bare) ∧
      ∀ report ∈ reports, report.name = name →
        report.lock.copy = .masterCopy →
        ∃ lkb, (locksOn name (feed reports [])).filter
            (·.lock.key == report.lock.key) = [lkb] ∧
          (partialMasterCopy report.lock = true →
            lkb.lock.xid = report.lock.xid) ∧
          (partialMasterCopy report.lock = false →
            lkb.lock = { report.lock with xid := lkb.lock.xid }) := by
  have collects : ∀ list : List Report,
      Collects (list.filter (·.name == name))
        (locksOn name (feed list [])) := by
    intro list
    rw [locksOn_feed]
    exact @Collects.gather { name := name, locks := [] } []
      (list.filter (·.name == name)) collects_nil
  have named : ∀ report ∈ reports.filter (·.name == name),
      report.name = name := by
    intro report member
    exact beq_iff_eq.mp (List.mem_filter.mp member).2
  constructor
  · exact (collects reports).perm (collects others) (agree.filter _) named
      (perm.filter _)
  · intro report member here master
    exact (collects reports).single (agree.filter _) named
      (List.mem_filter.mpr ⟨member, beq_iff_eq.mpr here⟩) master

/-- What the owner on node 2 tells of a lock. -/
def ownerReport : Report :=
  { name := "a"
    fromNodeid := 2
    lock :=
      { PackLock.cleared with
        xid := 7, id := 5, nodeid := 2, remid := 9, copy := .masterCopy }
    homed := .inr ⟨rfl, by decide⟩ }

/-- What the master on node 1 tells of it. -/
def masterReport : Report :=
  { name := "a"
    fromNodeid := 1
    lock :=
      { PackLock.cleared with
        id := 5, nodeid := 2, remid := 9, status := 1, rqmode := .ex
        copy := .masterCopy }
    homed := .inr ⟨rfl, by decide⟩ }

theorem owner_and_master_merge :
    ((locksOn "a" (feed [ownerReport, masterReport] [])).map Lkb.bare).Perm
        ((locksOn "a" (feed [masterReport, ownerReport] [])).map
          Lkb.bare) ∧
      ∀ report ∈ [ownerReport, masterReport], report.name = "a" →
        report.lock.copy = .masterCopy →
        ∃ lkb, (locksOn "a" (feed [ownerReport, masterReport] [])).filter
            (·.lock.key == report.lock.key) = [lkb] ∧
          (partialMasterCopy report.lock = true →
            lkb.lock.xid = report.lock.xid) ∧
          (partialMasterCopy report.lock = false →
            lkb.lock = { report.lock with xid := lkb.lock.xid }) :=
  reading_order_irrelevant [ownerReport, masterReport]
    [masterReport, ownerReport]
    (List.pairwise_pair.mpr fun _ _ _ _ => ⟨by decide, rfl⟩)
    (.swap masterReport ownerReport []) "a"

end Order

end Dlm.Deadlock
