import Dlm.Cluster.Drop
import Dlm.Cluster.Record

/-!
# Conflicting locks are not both granted

In an orderly run the requests that stand on any two nodes are compatible.
What a node has granted is in its own table and, at every later position of the
log, in the agreed table: only a later operation of the same holder could take
it out, and the node would have read that operation.
-/

namespace Dlm.Cluster

open Plock Broadcast

/-- A request that stands on the node is not lost along the log: the node owns
the resource, hands over a table with the request, or the resource is shared
with the request in its table. -/
structure Config.Preserves (c : Config) (n : Nodeid) (q : Info) (g : Agreed)
    (out : List Body) : Prop where
  sane : g.Sane
  quiet : ∀ body ∈ out, body.type = .plock → body.info.Changes →
    ¬Meets body.info q
  held : (g.OwnedBy n ∧ ∀ body ∈ out, c.Early dropping n body) ∨
    c.HandsOver dropping n (fun table => table.Guards q) out g ∨
    ∃ table, g = .unowned table ∧ table.Guards q

section Preserves

variable {c : Config} {n p : Nodeid} {q : Info} {g : Agreed}
variable {out : List Body} {body : Body} {daemon : Daemon}
variable {slot : Option Resource} {r : Resource}

/-- Shared tables keep the request. -/
theorem Agreed.guards_receive {table : Table} (ours : q.nodeid = n.val)
    (valid : q.Valid) (safe : TableSafe table) (guards : table.Guards q)
    (quiet : p = n → body.type = .plock → body.info.Changes →
      ¬Meets body.info q)
    (proper : Proper (.unowned table) p body) :
    ∃ next, (Agreed.unowned table).receive p body = .unowned next ∧
      next.Guards q := by
  rcases Agreed.unowned_receive p body table with kept |
    ⟨plock, honest, executed⟩ | ⟨empty, _⟩
  · exact ⟨table, kept, guards⟩
  · refine ⟨_, executed, guards.exec safe (proper.1 plock) ?_⟩
    intro changes meets
    have nodeid : p.val = n.val :=
      honest.symm.trans ((congrArg Prod.fst meets.1).trans ours)
    exact quiet (Subtype.ext nodeid) plock changes meets
  · simp only [Table.isEmpty, Bool.and_eq_true, List.isEmpty_iff] at empty
    have granted := guards.granted
    rw [empty.1] at granted
    exact absurd granted (not_granted_nil valid)

theorem Config.Preserves.step (ours : q.nodeid = n.val) (valid : q.Valid)
    (preserves : c.Preserves n q g (own n [.message p body] ++ out))
    (admissible : c.Admissible dropping g p body)
    (proper : Proper g p body) :
    c.Preserves n q (g.receive p body) out := by
  obtain ⟨sane, quiet, held⟩ := preserves
  constructor
  · exact sane.receive proper
  · intro later member
    exact quiet later (List.mem_append_right _ member)
  · rcases held with ⟨⟨asked, table, rfl⟩, early⟩ | hands |
      ⟨table, rfl, guards⟩
    · left
      have unreleased : n = p → ¬body.Releases := by
        rintro rfl
        rw [own_message_self] at early
        exact (early body List.mem_cons_self).not_release
      obtain ⟨⟨asked', reached⟩, _⟩ :=
        Agreed.owned_receive admissible fun same => unreleased same.symm
      exact ⟨⟨asked', _, reached⟩, fun later member =>
        early later (List.mem_append_right _ member)⟩
    · rcases hands.step admissible with still | ⟨table, shared, guards, _⟩
      · exact .inr (.inl still)
      · exact .inr (.inr ⟨table, shared, guards⟩)
    · have sent : p = n → body ∈ own n [.message p body] ++ out := by
        rintro rfl
        rw [own_message_self]
        exact List.mem_cons_self
      obtain ⟨next, reached, kept⟩ := Agreed.guards_receive ours valid
        (sane table rfl) guards (fun same => quiet body (sent same)) proper
      exact .inr (.inr ⟨next, reached, kept⟩)

/-- Other operations on the bytes of a request that stands have been
answered. -/
theorem answered_of_standing {reads : List Info}
    {answers : List (Info × Int)} {other : Info}
    (standing : Standing reads answers q) (listed : other ∈ reads)
    (changes : other.Changes) (meets : Meets other q) :
    ∃ rv, (other, rv) ∈ answers := by
  obtain ⟨front, back, split, _, followed⟩ := standing
  by_cases same : other = q
  · subst same
    exact ⟨0, by simp [split]⟩
  · obtain ⟨rv, member⟩ := followed other listed changes meets same
    refine ⟨rv, ?_⟩
    rw [split]
    exact List.mem_append_left _ member

/-- An operation that waits or is on its way has not been answered. -/
theorem Config.Keeps.unanswered {info : Info} {rv : Int}
    (keeps : c.Keeps n daemon slot out g)
    (ours : info.nodeid = n.val)
    (unsettled : 0 < out.countP (sends (c.env n) info.tag) +
      slotCount (c.env n) info.tag slot) : (info, rv) ∉ daemon.answers := by
  intro member
  have total := keeps.once info.tag
  have one := Bool.toNat_le (decide (info.tag < daemon.reads.length))
  have counted : 0 < daemon.answers.countP
      fun answer => isOp (c.env n) info.tag answer.1 := by
    apply List.countP_pos_iff.mpr
    exact ⟨(info, rv), member, by simp [isOp, ours, c.ourNodeid]⟩
  omega

/-- No operation that waits or is on its way is on the bytes of a request that
stands. -/
theorem Config.Keeps.quiet {info : Info}
    (keeps : c.Keeps n daemon slot out g)
    (standing : Standing daemon.reads daemon.answers q)
    (listed : info ∈ daemon.reads) (changes : info.Changes)
    (ours : info.nodeid = n.val)
    (unsettled : 0 < out.countP (sends (c.env n) info.tag) +
      slotCount (c.env n) info.tag slot) : ¬Meets info q := by
  intro meets
  obtain ⟨rv, answered⟩ :=
    answered_of_standing standing listed changes meets
  exact keeps.unanswered ours unsettled answered

/-- A request that stands is in the table of its node. -/
theorem Config.Keeps.standing (keeps : c.Keeps n daemon slot out g)
    (standing : Standing daemon.reads daemon.answers q) :
    ∃ r, slot = some r ∧ Active (c.env n) r ∧ ResourceSafe r ∧
      q.nodeid = n.val ∧ q.Valid ∧ Granted r.locks q := by
  have upholds := keeps.upholds
  cases slot with
  | none =>
      obtain ⟨_, valid, granted⟩ := upholds q standing
      exact absurd granted (not_granted_nil valid)
  | some r =>
      by_cases active : Active (c.env n) r
      · obtain ⟨kept, safe⟩ := upholds.active active
        obtain ⟨ours, valid, granted⟩ := kept q standing
        rw [c.ourNodeid] at ours
        exact ⟨r, rfl, active, safe, ours, valid, granted⟩
      · obtain ⟨_, valid, granted⟩ := upholds.idle active q standing
        exact absurd granted (not_granted_nil valid)

theorem Config.Keeps.guards (keeps : c.Keeps n daemon (some r) out g)
    (standing : Standing daemon.reads daemon.answers q)
    (ours : q.nodeid = n.val) (granted : Granted r.locks q) :
    r.table.Guards q := by
  constructor
  · exact granted_plain.mpr granted
  · intro plain member meets
    obtain ⟨w, waiting, rfl⟩ := List.mem_map.mp member
    have nodeid : w.info.nodeid = n.val :=
      (congrArg Prod.fst meets.1).trans ours
    obtain ⟨listed, lock⟩ := keeps.upholds.queued w waiting
      (nodeid.trans (c.ourNodeid n).symm)
    refine keeps.quiet standing listed (.inl lock) nodeid ?_ meets
    have counted : 0 < waitingCount (c.env n) w.info.tag r := by
      apply List.countP_pos_iff.mpr
      exact ⟨w, waiting, by simp [isOp, nodeid, c.ourNodeid]⟩
    rw [slotCount_some]
    omega

/-- Where a request stands, it is not lost from there on. -/
theorem Config.Keeps.preserves (keeps : c.Keeps n daemon slot out g)
    (follows : c.Follows dropping n slot out g)
    (standing : Standing daemon.reads daemon.answers q) :
    c.Preserves n q g out := by
  obtain ⟨r, rfl, active, _, ours, _, granted⟩ := keeps.standing standing
  have guards := keeps.guards standing ours granted
  constructor
  · exact keeps.sane
  · intro body sent plock changes meets
    have nodeid : body.info.nodeid = n.val :=
      (congrArg Prod.fst meets.1).trans ours
    refine keeps.quiet standing (keeps.sent body sent plock) changes nodeid
      ?_ meets
    have counted : 0 < out.countP (sends (c.env n) body.info.tag) := by
      apply List.countP_pos_iff.mpr
      exact ⟨body, sent, by simp [sends, isOp, plock, nodeid, c.ourNodeid]⟩
    omega
  · have known := follows
    cases follows with
    | unclaimed _ nobody => exact absurd active (not_active_unclaimed nobody)
    | follower other =>
        exact absurd active (known.not_active_of_other ⟨_, _, rfl⟩ other).1
    | owner _ _ _ _ _ early => exact .inl ⟨⟨_, _, rfl⟩, early⟩
    | releasing _ _ _ _ _ _ _ _ _ _ _ _ _ split =>
        right
        left
        have sent : releaseBody c.number ∈ out := by
          rw [split]
          simp
        apply known.handsOver sent (releaseBody_releases _)
        intro found same _
        rw [← Option.some.inj same]
        exact guards
    | shared _ _ _ same =>
        rw [← same]
        exact .inr (.inr ⟨_, rfl, guards⟩)

end Preserves

/-- The steps with a fixed membership and without disturbances, in which the
kernel sends valid operations. -/
def Config.lawful (c : Config) (s : State) (label : Label) : Prop :=
  c.orderly s label ∧
    match label with
    | .act _ action => validRead action
    | _ => True

instance (action : Action) : Decidable (validRead action) := by
  rcases action <;> unfold validRead <;> infer_instance

instance (c : Config) (s : State) (label : Label) :
    Decidable (c.lawful s label) := by
  rcases label <;> unfold Config.lawful <;> infer_instance

section Runs

variable {c : Config} {s : State} {members : Nodeid → Bool}

theorem Config.lawful.allowed {label : Label} (lawful : c.lawful s label) :
    c.recording.Allowed s label := by
  obtain ⟨⟨fixed, _⟩, valid⟩ := lawful
  cases label with
  | act n action => exact valid
  | order n => trivial
  | deliver n => exact fun _ _ => trivial
  | crash n => cases fixed
  | snapshot n => cases fixed
  | join n position => trivial
  | save n => trivial
  | restore n index => trivial

theorem Config.Keeps.start (n : Nodeid) :
    c.Keeps n Daemon.idle none [] .none := by
  constructor
  · intro info member
    cases member
  · intro tag
    rfl
  · intro body member
    cases member
  · intro table shared
    cases shared
  · rintro q ⟨front, back, split, _⟩
    simp [Daemon.idle, Daemon.fresh] at split

theorem sound_of_lawful (run : c.system.Run c.lawful (initial members) s) :
    c.recording.simulation.Sound s := by
  apply sound_of_addition run (fun _ _ lawful => lawful.1) c.recording
  · intro n slot ls
    have none : Option.none = slot := hosting_injective ls
    rw [← none]
    exact .start n
  · intro state label lawful
    exact lawful.allowed

/-- A member in a lawful run. -/
theorem keeps_of_lawful {n : Nodeid}
    (run : c.system.Run c.lawful (initial members) s)
    (present : (s.site n).status ≠ .absent) :
    .down n ∉ s.log.drop (s.site n).position ∧
      ∃ slot, c.Follows dropping n slot (s.outstanding n)
          (c.agreedAt s (s.site n).position) ∧
        c.Keeps n (s.site n).node slot (s.outstanding n)
          (c.agreedAt s (s.site n).position) := by
  have settled : Settled s := settled_of_orderly
    (run.mono fun _ _ lawful => lawful.1)
  obtain ⟨alive, ⟨slot, ls, follows⟩, recorded⟩ :=
    Addition.member (sound_of_lawful run) ((settled n).resolve_left present)
  exact ⟨alive, slot, follows, recorded slot ls⟩

/-- A request that stands on a node is not lost up to the position of a node
that is further. -/
theorem preserved_of_lawful {n : Nodeid} {q : Info} {position : Nat}
    (run : c.system.Run c.lawful (initial members) s)
    (present : (s.site n).status ≠ .absent)
    (standing : Standing (s.site n).node.reads (s.site n).node.answers q)
    (later : (s.site n).position ≤ position) :
    c.Preserves n q (c.agreedAt s position)
      (own n (s.log.drop position) ++ (s.site n).queue) := by
  obtain ⟨alive, slot, follows, keeps⟩ := keeps_of_lawful run present
  obtain ⟨_, _, _, _, ours, valid, _⟩ := keeps.standing standing
  apply Agreement.walk_to (P := c.Preserves n q) _
    (sound_of_lawful run).chain alive later
  · exact keeps.preserves follows standing
  · intro entry out g preserves admitted _
    cases entry with
    | down node => exact admitted.elim
    | message p body =>
        exact preserves.step ours valid admitted.1 admitted.2

/-- Compatible, when the first node is not further than the second. -/
theorem compatible_of_lawful {first second : Nodeid} {p q : Info}
    (run : c.system.Run c.lawful (initial members) s)
    (firstPresent : (s.site first).status ≠ .absent)
    (secondPresent : (s.site second).status ≠ .absent)
    (firstStanding : Standing (s.site first).node.reads
      (s.site first).node.answers p)
    (secondStanding : Standing (s.site second).node.reads
      (s.site second).node.answers q)
    (later : (s.site first).position ≤ (s.site second).position)
    (different : p.holder ≠ q.holder)
    (overlap : p.start ≤ q.stop ∧ q.start ≤ p.stop) :
    p.ex = 0 ∧ q.ex = 0 := by
  obtain ⟨_, firstSlot, _, firstKeeps⟩ := keeps_of_lawful run firstPresent
  obtain ⟨_, slot, follows, keeps⟩ := keeps_of_lawful run secondPresent
  obtain ⟨r, rfl, active, safe, ours, valid, granted⟩ :=
    keeps.standing secondStanding
  obtain ⟨_, _, _, _, _, firstValid, _⟩ := firstKeeps.standing firstStanding
  by_cases same : first = second
  · subst same
    obtain ⟨_, found, _, _, _, _, firstGranted⟩ :=
      keeps.standing firstStanding
    rw [← Option.some.inj found] at firstGranted
    exact safe.locks.not_both_granted firstGranted granted firstValid valid
      different overlap
  · have preserves := preserved_of_lawful run firstPresent firstStanding
      later
    have elsewhere :
        ¬(c.agreedAt s (s.site second).position).OwnedBy first :=
      fun owned => (follows.not_active_of_other owned same).1 active
    rcases preserves.held with ⟨owned, _⟩ |
      ⟨_, _, _, asked, table, _, _, _, _, owned, _⟩ | ⟨table, shared, guards⟩
    · exact absurd owned elsewhere
    · exact absurd ⟨asked, table, owned⟩ elsewhere
    · rw [shared] at follows
      obtain ⟨_, found, _, here⟩ := follows.of_unowned
      rw [← Option.some.inj found] at here
      have held := guards.granted
      rw [← here] at held
      exact safe.locks.not_both_granted (granted_plain.mp held) granted
        firstValid valid different overlap

/-- In a run with a fixed membership, without disturbances and with valid
operations, two requests of different holders on overlapping ranges that both
stand are both shared. -/
theorem no_conflicting_grants {first second : Nodeid} {p q : Info}
    (run : c.system.Run c.lawful (initial members) s)
    (firstPresent : (s.site first).status ≠ .absent)
    (secondPresent : (s.site second).status ≠ .absent)
    (firstStanding : Standing (s.site first).node.reads
      (s.site first).node.answers p)
    (secondStanding : Standing (s.site second).node.reads
      (s.site second).node.answers q)
    (different : p.holder ≠ q.holder)
    (overlap : p.start ≤ q.stop ∧ q.start ≤ p.stop) :
    p.ex = 0 ∧ q.ex = 0 := by
  rcases Nat.le_total (s.site first).position (s.site second).position with
    later | later
  · exact compatible_of_lawful run firstPresent secondPresent firstStanding
      secondStanding later different overlap
  · exact (compatible_of_lawful run secondPresent firstPresent secondStanding
      firstStanding later different.symm overlap.symm).symm

end Runs

section Examples

instance (info : Info) : Decidable info.Changes :=
  inferInstanceAs (Decidable (_ ∨ _))

instance (first second : Info) : Decidable (Meets first second) :=
  inferInstanceAs (Decidable (_ ∧ _ ∧ _))

/-- A lock that was granted and is the only operation of its holder on its
bytes. -/
theorem standing_of_alone {reads : List Info} {answers : List (Info × Int)}
    {q : Info} (answered : (q, 0) ∈ answers) (lock : q.optype = .lock)
    (alone : ∀ other ∈ reads, other.Changes → Meets other q → other = q) :
    Standing reads answers q := by
  obtain ⟨front, back, split⟩ := List.append_of_mem answered
  refine ⟨front, back, split, lock, ?_⟩
  intro other member changes meets different
  exact absurd (alone other member changes meets) different

/-- A lock of a node as its daemon has read it. -/
def readLock (n : Nodeid) (tag : Nat) (info : Info) : Info :=
  { info with nodeid := n.val, number := 7, tag := tag }

/-- Node 1 has a shared lock when node 2 asks for the resource, and node 2 gets
a shared lock on the same bytes. -/
def sharedRun : List Label :=
  [.act node1 (.read (kernelOp .lock 0 1 0 5)),
    .act node2 (.read (kernelOp .lock 0 1 0 5)), .order node1, .order node2,
    .deliver node1, .deliver node1, .order node1, .order node1,
    .deliver node2, .deliver node2, .deliver node2, .deliver node2,
    .order node2, .deliver node2]

theorem both_shared_after_contention :
    ∃ s, tidy.system.Run tidy.lawful trio s ∧
      Standing (s.site node1).node.reads (s.site node1).node.answers
        (readLock node1 0 (kernelOp .lock 0 1 0 5)) ∧
      Standing (s.site node2).node.reads (s.site node2).node.answers
        (readLock node2 0 (kernelOp .lock 0 1 0 5)) ∧
      (readLock node1 0 (kernelOp .lock 0 1 0 5)).ex = 0 ∧
      (readLock node2 0 (kernelOp .lock 0 1 0 5)).ex = 0 := by
  let s := tidy.system.follow trio sharedRun
  have run : tidy.system.Run tidy.lawful trio s :=
    System.run_of_follows _ .refl (by decide)
  have first : Standing (s.site node1).node.reads
      (s.site node1).node.answers
      (readLock node1 0 (kernelOp .lock 0 1 0 5)) :=
    standing_of_alone (by decide) rfl (by decide)
  have second : Standing (s.site node2).node.reads
      (s.site node2).node.answers
      (readLock node2 0 (kernelOp .lock 0 1 0 5)) :=
    standing_of_alone (by decide) rfl (by decide)
  exact ⟨s, run, first, second, no_conflicting_grants run (by decide)
    (by decide) first second (by decide) (by decide)⟩

/-- Node 2 sends an operation for a shared resource that is dropped and claimed
again by node 1.  Node 1 has released the resource when it is delivered the
operation, so that it alone carries it out.  The lock in its way, it refuses the
try-lock of node 3, which node 3 grants, and then grants its own. -/
def phantomRun : List Label :=
  releaseRun ++
    [.act node1 (.drop true), .order node1,
      .act node2 (.read (kernelOp .lock 1 1 0 5)),
      .deliver node1, .act node1 (.read (kernelOp .lock 1 1 30 40)),
      .order node1, .deliver node3,
      .act node3 (.read { kernelOp .lock 1 1 0 20 with wait := false }),
      .order node3, .order node2,
      .deliver node1, .deliver node1, .deliver node1, .order node1,
      .order node1, .deliver node3, .deliver node3, .deliver node3,
      .deliver node3, .deliver node3, .order node3, .deliver node3,
      .deliver node1, .deliver node1, .deliver node1,
      .act node1 (.read (kernelOp .lock 1 1 10 20)), .order node1,
      .deliver node1]

theorem phantom_admits_conflict :
    ∃ s p q, tidy.system.Run (fun _ => fixedMembership) trio s ∧
      Standing (s.site node1).node.reads (s.site node1).node.answers p ∧
      Standing (s.site node3).node.reads (s.site node3).node.answers q ∧
      p.holder ≠ q.holder ∧ (p.start ≤ q.stop ∧ q.start ≤ p.stop) ∧
      p.ex = 1 := by
  let s := tidy.system.follow trio phantomRun
  have run : tidy.system.Run (fun _ => fixedMembership) trio s :=
    System.run_of_follows _ .refl (by decide)
  exact ⟨s, readLock node1 3 (kernelOp .lock 1 1 10 20),
    readLock node3 0 { kernelOp .lock 1 1 0 20 with wait := false }, run,
    standing_of_alone (by decide) rfl (by decide),
    standing_of_alone (by decide) rfl (by decide), by decide, by decide, rfl⟩

end Examples

end Dlm.Cluster
