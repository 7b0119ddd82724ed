import Dlm.Cpg.Protocol
import Dlm.Lib.GroupRuns
import Mathlib.Data.Nat.Init

/-!
# Agreement on the protocol versions

The log tells at every place which members have been given versions, and
which.  A daemon that runs versions runs those.  While some members have been
given versions and others have not, nobody can send other ones: a member of the
first kind repeats what it has adopted, and one of the second kind cannot
propose, because it hears no plain announcement from the first.
-/

namespace Dlm.Cpg

open ProcessGroup

variable {log : ProtocolLog} {entry : Entry Int32 Protocol} {n m : Int32}
  {first last position index : Nat}

variable {sender : Int32} {p : Protocol}

theorem ruleAt_append (log : ProtocolLog) (entry : Entry Int32 Protocol) :
    ruleAt (log ++ [entry]) = (ruleAt log).next entry := by
  simp [ruleAt]

theorem ruleAt_take_succ (here : log[index]? = some entry) :
    ruleAt (log.take (index + 1)) = (ruleAt (log.take index)).next entry := by
  rw [take_succ here, ruleAt_append]

theorem Rule.next_other (other : p.adoptable = false) (rule : Rule) :
    rule.next (.message sender p) = rule := by
  simp only [Rule.next, other, Bool.not_false, if_true]

theorem Rule.next_adopted (adoptable : p.adoptable = true) (rule : Rule) :
    rule.next (.message sender p) =
      { rule with
        given := rule.members
        version := if rule.given.isEmpty then p.run else rule.version } := by
  simp only [Rule.next, adoptable, Bool.not_true, Bool.false_eq_true,
    if_false]

theorem Rule.next_members (rule : Rule) (entry : Entry Int32 Protocol) :
    (rule.next entry).members = advance rule.members entry := by
  cases entry with
  | confchg change => rfl
  | message sender p =>
      cases adoptable : p.adoptable with
      | false =>
          rw [Rule.next_other adoptable]
          rfl
      | true =>
          rw [Rule.next_adopted adoptable]
          rfl

theorem ruleAt_members (log : ProtocolLog) :
    (ruleAt log).members = view log := by
  suffices both : ∀ (rule : Rule),
      (log.foldl Rule.next rule).members =
        log.foldl advance rule.members from both _
  induction log with
  | nil => exact fun _ => rfl
  | cons entry later induction =>
      intro rule
      rw [List.foldl_cons, induction, Rule.next_members, List.foldl_cons]

/-- Who is given versions by an entry has been given them, or is a member when
they come. -/
theorem Rule.mem_next {rule : Rule} (member : n ∈ (rule.next entry).given) :
    n ∈ rule.given ∨ ∃ sender p, entry = .message sender p ∧
      p.adoptable = true ∧ n ∈ rule.members := by
  cases entry with
  | confchg change => exact .inl (List.mem_filter.mp member).1
  | message sender p =>
      cases adoptable : p.adoptable with
      | false =>
          rw [Rule.next_other adoptable] at member
          exact .inl member
      | true =>
          rw [Rule.next_adopted adoptable] at member
          exact .inr ⟨sender, p, rfl, adoptable, member⟩

/-- Versions stay with a member that has been given them. -/
theorem Rule.next_keeps {rule : Rule} (given : n ∈ rule.given)
    (before : n ∈ rule.members) (after : n ∈ (rule.next entry).members) :
    n ∈ (rule.next entry).given ∧
      (rule.next entry).version = rule.version := by
  cases entry with
  | confchg change =>
      exact ⟨List.mem_filter.mpr ⟨given, decide_eq_true after⟩, rfl⟩
  | message sender p =>
      cases adoptable : p.adoptable with
      | false =>
          rw [Rule.next_other adoptable]
          exact ⟨given, rfl⟩
      | true =>
          have some_ : ¬ rule.given.isEmpty = true := by
            intro empty
            rw [List.isEmpty_iff.mp empty] at given
            exact List.not_mem_nil given
          rw [Rule.next_adopted adoptable]
          exact ⟨before, if_neg some_⟩

theorem ruleAt_keeps (given : n ∈ (ruleAt (log.take first)).given)
    (below : first ≤ last) (within : last ≤ log.length)
    (stays : ∀ index, first ≤ index → index ≤ last →
      n ∈ view (log.take index)) :
    n ∈ (ruleAt (log.take last)).given ∧
      (ruleAt (log.take last)).version =
        (ruleAt (log.take first)).version := by
  induction last, below using Nat.le_induction with
  | base => exact ⟨given, rfl⟩
  | succ last below induction =>
      obtain ⟨kept, same⟩ := induction (Nat.le_of_succ_le within)
        fun index above under => stays index above (Nat.le_succ_of_le under)
      have here := List.getElem?_eq_getElem within
      have before := stays last below (Nat.le_succ last)
      have after := stays (last + 1) (Nat.le_succ_of_le below) (Nat.le_refl _)
      rw [← ruleAt_members] at before after
      rw [ruleAt_take_succ here] at after ⊢
      obtain ⟨still, version⟩ := Rule.next_keeps kept before after
      exact ⟨still, version.trans same⟩

/-- Only members have been given versions. -/
theorem ruleAt_given_members (member : n ∈ (ruleAt log).given) :
    n ∈ view log := by
  rw [← ruleAt_members]
  suffices every : ∀ rule : Rule, (∀ m ∈ rule.given, m ∈ rule.members) →
      ∀ m ∈ (log.foldl Rule.next rule).given,
        m ∈ (log.foldl Rule.next rule).members from
    every _ (List.forall_mem_nil _) n member
  clear member
  induction log with
  | nil => exact fun _ every => every
  | cons entry later induction =>
      intro rule every
      apply induction
      intro m given
      cases entry with
      | confchg change =>
          exact of_decide_eq_true (List.mem_filter.mp given).2
      | message sender p =>
          rw [Rule.next_members]
          rcases Rule.mem_next given with old | ⟨_, _, _, _, member⟩
          · exact every m old
          · exact member

/-- Some members have been given versions and others have not. -/
def Mixed (log : ProtocolLog) : Prop :=
  ∃ m ∈ view log, m ∉ (ruleAt log).given

/-- A message that gives versions while some members already have them gives
the same. -/
def Consistent (log : ProtocolLog) : Prop :=
  ∀ index sender p, log[index]? = some (.message sender p) →
    p.adoptable = true → (ruleAt (log.take index)).given ≠ [] →
    Mixed (log.take index) → p.run = (ruleAt (log.take index)).version

/-- What a member sends.  While some members have been given versions and
others have not, the former repeat them and the latter have no versions to
send; and those that have been given none have heard only versions from the
others. -/
structure Sends (log : ProtocolLog) (n : Int32)
    (site : Site Protocol ProtocolDaemon) : Prop where
  firm : n ∈ (ruleAt log).given → Mixed log →
    site.state.ourProtocol.daemonRun.major ≠ 0 ∧
      ∀ p ∈ site.queue, p.run = site.state.ourProtocol.run
  mute : n ∉ (ruleAt log).given → (ruleAt log).given ≠ [] →
    ∀ p ∈ site.queue, p.daemonRun.major = 0
  apart : n ∉ (ruleAt log).given → ∀ m ∈ (ruleAt log).given,
    Together log m site.born log.length ∧
      ∀ index p, site.born < index →
        log[index]? = some (.message m p) → p.daemonRun.major ≠ 0

/-- What a daemon has of the log that it has read. -/
structure Informed (log : ProtocolLog) (n : Int32)
    (site : Site Protocol ProtocolDaemon) : Prop where
  fresh : site.position = site.born → site.state = .new
  started : site.born < site.position → site.state.started = true
  runs : site.state.ourProtocol.daemonRun.major ≠ 0 →
    n ∈ (ruleAt (log.take site.position)).given ∧
      site.state.ourProtocol.run =
        (ruleAt (log.take site.position)).version
  adopts : site.state.result ≠ some (-1) →
    n ∈ (ruleAt (log.take site.position)).given →
    site.state.ourProtocol.daemonRun.major ≠ 0
  members : site.born < site.position → site.state.result ≠ some (-1) →
    site.state.daemonMember = view (log.take site.position)
  saved : ∀ node ∈ site.state.daemonNodes, node.proto.daemonMax.major ≠ 0 →
    ∃ index p, site.born < index ∧
      log[index]? = some (.message node.nodeid p) ∧ p.daemonRun.major = 0
  sends : n ∈ view log → Sends log n site

variable {site : Site Protocol ProtocolDaemon}

/-- A daemon that has read of its versions has them to the end of the log. -/
theorem Placed.keeps (placed : Placed log n site) (member : n ∈ view log)
    (begun : site.born < site.position)
    (given : n ∈ (ruleAt (log.take site.position)).given) :
    n ∈ (ruleAt log).given ∧ (ruleAt log).version =
      (ruleAt (log.take site.position)).version := by
  have kept := ruleAt_keeps given placed.within (Nat.le_refl _)
    fun index above below => placed.stays member index
      (Nat.lt_of_lt_of_le begun above) below
  rwa [List.take_length] at kept

theorem Informed.begun (informed : Informed log n site)
    (placed : Placed log n site)
    (runs : site.state.ourProtocol.daemonRun.major ≠ 0) :
    site.born < site.position := by
  apply Nat.lt_of_le_of_ne placed.after
  intro same
  rw [informed.fresh same.symm] at runs
  exact runs rfl

/-- A daemon that sends what it has adopted sends the version that rules. -/
theorem Informed.version (informed : Informed log n site)
    (placed : Placed log n site) (member : n ∈ view log)
    (runs : site.state.ourProtocol.daemonRun.major ≠ 0) :
    n ∈ (ruleAt log).given ∧
      site.state.ourProtocol.run = (ruleAt log).version := by
  obtain ⟨given, same⟩ := informed.runs runs
  obtain ⟨kept, version⟩ :=
    Placed.keeps placed member (informed.begun placed runs) given
  exact ⟨kept, same.trans version.symm⟩

theorem major_of_run {q : Protocol} (same : p.run = q.run) :
    p.daemonRun.major = q.daemonRun.major := by
  rw [show p.daemonRun = q.daemonRun from congrArg Prod.fst same]

theorem major_of_adoptable (adoptable : p.adoptable = true) :
    p.daemonRun.major ≠ 0 := by
  simp only [Protocol.adoptable, Bool.and_eq_true, decide_eq_true_eq]
    at adoptable
  exact adoptable.1.2

section Grow

/-- A change gets into the log. -/
theorem Sends.confchg {change : Confchg Int32} (sends : Sends log n site)
    (follows : change.Follows (view log)) (member : n ∈ change.members)
    (caught : change.joined ≠ [] → n ∈ (ruleAt log).given →
      site.state.ourProtocol.daemonRun.major ≠ 0 ∧
        ∀ p ∈ site.queue, p.run = site.state.ourProtocol.run) :
    Sends (log ++ [.confchg change]) n site := by
  have viewed : view (log ++ [Entry.confchg change]) = change.members :=
    view_append log _
  have given : ∀ m, m ∈ (ruleAt (log ++ [Entry.confchg change])).given ↔
      m ∈ (ruleAt log).given ∧ m ∈ change.members := by
    intro m
    rw [ruleAt_append, Rule.next, List.mem_filter, decide_eq_true_iff]
  refine ⟨?_, ?_, ?_⟩
  · intro mine mixed
    by_cases nobody : change.joined = []
    · obtain ⟨other, listed, without⟩ := mixed
      rw [viewed] at listed
      have old := (follows.members_known other listed).resolve_left
        (by rw [nobody]; exact List.not_mem_nil)
      exact sends.firm ((given n).mp mine).1
        ⟨other, old.1, fun has => without ((given other).mpr ⟨has, listed⟩)⟩
    · exact caught nobody ((given n).mp mine).1
  · intro without some_
    apply sends.mute fun has => without ((given n).mpr ⟨has, member⟩)
    intro none_
    obtain ⟨other, has⟩ := List.exists_mem_of_ne_nil _ some_
    have old := ((given other).mp has).1
    rw [none_] at old
    exact List.not_mem_nil old
  · intro without other has
    obtain ⟨old, listed⟩ := (given other).mp has
    obtain ⟨together, carry⟩ := sends.apart
      (fun mine => without ((given n).mpr ⟨mine, member⟩)) other old
    refine ⟨?_, ?_⟩
    · intro index above below
      rw [List.length_append, List.length_singleton] at below
      rcases Nat.lt_or_ge log.length index with beyond | within
      · rw [List.take_of_length_le (by simp; omega), viewed]
        exact listed
      · rw [take_append_entry within]
        exact together index above within
    · intro index p above here
      rcases getElem?_append_cases here with before | ⟨_, same⟩
      · exact carry index p above before
      · cases same

/-- A message gets into the log; `queue` is what the daemon still has to
send. -/
theorem Sends.message {queue : List Protocol} (sends : Sends log n site)
    (member : n ∈ view log) (fewer : ∀ p ∈ queue, p ∈ site.queue)
    (carried : sender ∈ (ruleAt log).given → Mixed log →
      p.daemonRun.major ≠ 0) :
    Sends (log ++ [.message sender p]) n { site with queue := queue } := by
  have viewed : view (log ++ [Entry.message sender p]) = view log :=
    view_append log _
  cases adoptable : p.adoptable with
  | true =>
      have given : (ruleAt (log ++ [Entry.message sender p])).given =
          view log := by
        rw [ruleAt_append, Rule.next_adopted adoptable]
        exact ruleAt_members log
      refine ⟨?_, fun without => ?_, fun without => ?_⟩
      · rintro _ ⟨other, listed, without⟩
        rw [viewed] at listed
        rw [given] at without
        exact (without listed).elim
      · rw [given] at without
        exact (without member).elim
      · rw [given] at without
        exact (without member).elim
  | false =>
      have same : ruleAt (log ++ [Entry.message sender p]) =
          ruleAt log := by
        rw [ruleAt_append, Rule.next_other adoptable]
      refine ⟨?_, ?_, ?_⟩
      · unfold Mixed
        rw [viewed, same]
        intro given mixed
        obtain ⟨runs, queued⟩ := sends.firm given mixed
        exact ⟨runs, fun p sent => queued p (fewer p sent)⟩
      · rw [same]
        intro without some_ p sent
        exact sends.mute without some_ p (fewer p sent)
      · rw [same]
        intro without other has
        obtain ⟨together, carry⟩ := sends.apart without other has
        refine ⟨?_, ?_⟩
        · intro index above below
          rw [List.length_append, List.length_singleton] at below
          rcases Nat.lt_or_ge log.length index with beyond | within
          · rw [List.take_of_length_le (by simp; omega), viewed]
            exact ruleAt_given_members has
          · rw [take_append_entry within]
            exact together index above within
        · intro index p above here
          rcases getElem?_append_cases here with before | ⟨_, same⟩
          · exact carry index p above before
          · cases same
            exact carried has ⟨n, member, without⟩

/-- What a daemon has read does not change when the log grows. -/
theorem Informed.append {other : Site Protocol ProtocolDaemon}
    (informed : Informed log n site) (placed : Placed log n site)
    (born : other.born = site.born) (position : other.position =
      site.position) (state : other.state = site.state)
    (sends : n ∈ view (log ++ [entry]) → Sends (log ++ [entry]) n other) :
    Informed (log ++ [entry]) n other := by
  refine ⟨?_, ?_, ?_, ?_, ?_, ?_, sends⟩
  · rw [born, position, state]
    exact informed.fresh
  · rw [born, position, state]
    exact informed.started
  · rw [position, state, take_append_entry placed.within]
    exact informed.runs
  · rw [position, state, take_append_entry placed.within]
    exact informed.adopts
  · rw [born, position, state, take_append_entry placed.within]
    exact informed.members
  · rw [born, state]
    intro node listed set
    obtain ⟨index, p, above, here, zero⟩ := informed.saved node listed set
    exact ⟨index, p, above, getElem?_append_of_some here, zero⟩

/-- What a daemon sends when versions have been given. -/
theorem Informed.carried (informed : Informed log n site)
    (placed : Placed log n site) (member : n ∈ view log)
    (sent : p ∈ site.queue) (given : n ∈ (ruleAt log).given)
    (mixed : Mixed log) :
    p.daemonRun.major ≠ 0 ∧ p.run = (ruleAt log).version := by
  obtain ⟨runs, queued⟩ := (informed.sends member).firm given mixed
  have same := queued p sent
  refine ⟨?_, same.trans (informed.version placed member runs).2⟩
  rw [major_of_run same]
  exact runs

/-- A message that gets into the log is consistent with it. -/
theorem Consistent.order (consistent : Consistent log)
    (informed : Informed log n site) (placed : Placed log n site)
    (member : n ∈ view log) (sent : p ∈ site.queue) :
    Consistent (log ++ [.message n p]) := by
  intro index sender other here adoptable some_ mixed
  rcases getElem?_append_cases here with old | ⟨rfl, same⟩
  · rw [take_append_entry (Nat.le_of_lt (lt_length_of_entry old))]
      at some_ mixed ⊢
    exact consistent index sender other old adoptable some_ mixed
  · cases same
    rw [List.take_left] at some_ mixed ⊢
    by_cases given : n ∈ (ruleAt log).given
    · exact (informed.carried placed member sent given mixed).2
    · have zero := (informed.sends member).mute given some_ p sent
      exact (major_of_adoptable adoptable zero).elim

end Grow

section Handlers

variable {daemon : ProtocolDaemon}

theorem setupCpg_run (versions : MaxVersions)
    (known : daemon.started = true ∨ daemon = .new) :
    (setupCpg versions daemon).ourProtocol.run = daemon.ourProtocol.run := by
  unfold setupCpg
  rcases known with started | rfl
  · rw [if_pos started]
  · rfl

theorem setupCpg_started (versions : MaxVersions)
    (daemon : ProtocolDaemon) :
    (setupCpg versions daemon).started = true ∧
      (setupCpg versions daemon).daemonNodes = daemon.daemonNodes ∧
      (setupCpg versions daemon).result = daemon.result := by
  unfold setupCpg
  split
  · rename_i started
    exact ⟨started, rfl, rfl⟩
  · exact ⟨rfl, rfl, rfl⟩

theorem mem_addNodeDaemon {members : List Int32} {nodes : List DaemonNode}
    {node : DaemonNode}
    (member : node ∈ members.foldl addNodeDaemon nodes) :
    node ∈ nodes ∨ node.proto = .zero := by
  induction members generalizing nodes with
  | nil => exact .inl member
  | cons nodeid later induction =>
      rcases induction member with added | zero
      · unfold addNodeDaemon at added
        split at added
        · exact .inl added
        · rcases List.mem_append.mp added with old | new
          · exact .inl old
          · cases List.mem_singleton.mp new
            exact .inr rfl
      · exact .inr zero

theorem mem_saveProto {nodeid : Int32} {proto : Protocol}
    {nodes : List DaemonNode} {node : DaemonNode}
    (member : node ∈ saveProto nodeid proto nodes) :
    node ∈ nodes ∨ (node.nodeid = nodeid ∧ node.proto = proto) := by
  induction nodes with
  | nil => exact .inl member
  | cons old later induction =>
      unfold saveProto at member
      split at member
      · rename_i same
        rcases List.mem_cons.mp member with rfl | rest
        · exact .inr ⟨same, rfl⟩
        · exact .inl (List.mem_cons_of_mem old rest)
      · rcases List.mem_cons.mp member with rfl | rest
        · exact .inl List.mem_cons_self
        · exact (induction rest).imp (List.mem_cons_of_mem old) id

/-- `receive_protocol` does nothing, adopts the versions, or saves the
message. -/
theorem receiveProtocol_cases (sender : Int32) (p : Protocol)
    (daemon : ProtocolDaemon) :
    ((p.adoptable = true → daemon.ourProtocol.daemonRun.major ≠ 0) ∧
        receiveProtocol sender p daemon = daemon) ∨
      (p.adoptable = true ∧ daemon.ourProtocol.daemonRun.major = 0 ∧
        receiveProtocol sender p daemon =
          { daemon with
            ourProtocol :=
              { daemon.ourProtocol with
                daemonRun := p.daemonRun
                kernelRun := p.kernelRun } }) ∨
      (p.daemonRun.major = 0 ∧
        receiveProtocol sender p daemon =
          { daemon with
            daemonNodes := saveProto sender p daemon.daemonNodes }) := by
  unfold receiveProtocol
  split
  · rename_i invalid
    refine .inl ⟨fun adoptable => ?_, rfl⟩
    simp only [Protocol.adoptable, invalid, Bool.not_true, Bool.false_and]
      at adoptable
    exact (Bool.false_ne_true adoptable).elim
  · rename_i valid
    split
    · rename_i broken
      refine .inl ⟨fun adoptable => ?_, rfl⟩
      have bad := (Bool.and_eq_true_iff.mp broken).2
      simp only [Protocol.adoptable, bad, Bool.not_true, Bool.and_false]
        at adoptable
      exact (Bool.false_ne_true adoptable).elim
    · rename_i sound
      split
      · rename_i runs
        exact .inl ⟨fun _ => runs, rfl⟩
      · rename_i stopped
        split
        · rename_i versions
          refine .inr (.inl ⟨?_, Decidable.not_not.mp stopped, rfl⟩)
          simp only [Bool.and_eq_true, decide_eq_true_eq, not_and,
            Bool.not_eq_true] at sound
          simp only [Bool.not_eq_true] at valid
          simp [Protocol.adoptable, valid, versions, sound versions]
        · rename_i zero
          exact .inr (.inr ⟨Decidable.not_not.mp zero, rfl⟩)

/-- A round of `set_protocol` does not change what a daemon knows. -/
theorem setProtocol_keeps (daemon : ProtocolDaemon) :
    (setProtocol daemon).1.started = daemon.started ∧
      (setProtocol daemon).1.ourProtocol = daemon.ourProtocol ∧
      (setProtocol daemon).1.daemonMember = daemon.daemonMember ∧
      (setProtocol daemon).1.daemonNodes = daemon.daemonNodes ∧
      ((setProtocol daemon).1.result ≠ some (-1) →
        daemon.result ≠ some (-1)) := by
  unfold setProtocol
  split
  · exact ⟨rfl, rfl, rfl, rfl, id⟩
  · rename_i unfinished
    have alive : daemon.result ≠ some (-1) := by
      intro ended
      rw [ended] at unfinished
      exact unfinished rfl
    split
    · split
      · exact ⟨rfl, rfl, rfl, rfl, fun _ => alive⟩
      · exact ⟨rfl, rfl, rfl, rfl, fun _ => alive⟩
    · split
      · simp only
        split
        · exact ⟨rfl, rfl, rfl, rfl, fun _ => alive⟩
        · exact ⟨rfl, rfl, rfl, rfl, fun _ => alive⟩
      · exact ⟨rfl, rfl, rfl, rfl, id⟩

/-- A daemon proposes only without versions, when it has heard from all
members. -/
theorem setProtocol_sent (daemon : ProtocolDaemon) :
    (setProtocol daemon).2 = [] ∨
      (daemon.ourProtocol.daemonRun.major = 0 ∧
        allProtocolMessages daemon = true ∧
        daemon.result ≠ some (-1)) := by
  unfold setProtocol
  split
  · exact .inl rfl
  · rename_i unfinished
    split
    · split
      · exact .inl rfl
      · exact .inl rfl
    · rename_i stopped
      split
      · rename_i ready
        refine .inr ⟨Decidable.not_not.mp stopped,
          (Bool.and_eq_true_iff.mp ready).2, ?_⟩
        intro ended
        rw [ended] at unfinished
        exact unfinished rfl
      · exact .inl rfl

end Handlers

/-- A handler keeps the versions of a daemon that has some, and sends them. -/
theorem Sends.handle {daemon : ProtocolDaemon} {sent : List Protocol}
    (sends : Sends log n site) (position : Nat)
    (keeps : site.state.ourProtocol.daemonRun.major ≠ 0 →
      daemon.ourProtocol.run = site.state.ourProtocol.run ∧
        ∀ p ∈ sent, p.run = daemon.ourProtocol.run)
    (mute : n ∉ (ruleAt log).given → (ruleAt log).given ≠ [] →
      ∀ p ∈ sent, p.daemonRun.major = 0) :
    Sends log n
      { site with
        position := position
        state := daemon
        queue := site.queue ++ sent } := by
  refine ⟨?_, ?_, sends.apart⟩
  · intro given mixed
    obtain ⟨runs, queued⟩ := sends.firm given mixed
    obtain ⟨same, repeated⟩ := keeps runs
    refine ⟨?_, ?_⟩
    · simp only
      rw [major_of_run same]
      exact runs
    · intro p listed
      rcases List.mem_append.mp listed with old | new
      · exact (queued p old).trans same.symm
      · exact repeated p new
  · intro without some_ p listed
    rcases List.mem_append.mp listed with old | new
    · exact sends.mute without some_ p old
    · exact mute without some_ p new

/-- A daemon that has not been given versions runs none. -/
theorem Informed.zero (informed : Informed log n site)
    (placed : Placed log n site) (member : n ∈ view log)
    (without : n ∉ (ruleAt log).given) :
    site.state.ourProtocol.daemonRun.major = 0 := by
  by_contra runs
  exact without (informed.version placed member runs).1

/-- What is run stays the version that rules when an entry is read. -/
theorem Informed.runs_succ (informed : Informed log n site)
    (placed : Placed log n site) (lawful : Lawful log)
    (here : log[site.position]? = some entry) (kept : ¬ entry.Removes n)
    (runs : site.state.ourProtocol.daemonRun.major ≠ 0) :
    n ∈ (ruleAt (log.take (site.position + 1))).given ∧
      site.state.ourProtocol.run =
        (ruleAt (log.take (site.position + 1))).version := by
  have begun := informed.begun placed runs
  obtain ⟨given, same⟩ := informed.runs runs
  have before := placed.member site.position begun (Nat.le_refl _)
  have after := lawful.mem_advance here kept before
  rw [← ruleAt_members] at before after
  rw [ruleAt_take_succ here] at after ⊢
  obtain ⟨still, version⟩ := Rule.next_keeps given before after
  exact ⟨still, same.trans version.symm⟩

/-- A daemon after its handler has read an entry. -/
def afterEntry (site : Site Protocol ProtocolDaemon)
    (result : ProtocolDaemon × List Protocol) :
    Site Protocol ProtocolDaemon :=
  { site with
    position := site.position + 1
    state := result.1
    queue := site.queue ++ result.2 }

/-- A daemon reads a change. -/
theorem Informed.confchg {change : Confchg Int32}
    (informed : Informed log n site) (placed : Placed log n site)
    (lawful : Lawful log)
    (here : log[site.position]? = some (.confchg change))
    (kept : ¬ change.Removes n) (versions : MaxVersions)
    (alive : site.state.result ≠ some (-1)) :
    Informed log n (afterEntry site
      (confchgCbDaemon change (setupCpg versions site.state))) := by
  have known : site.state.started = true ∨ site.state = .new := by
    rcases Nat.eq_or_lt_of_le placed.after with same | begun
    · exact .inr (informed.fresh same.symm)
    · exact .inl (informed.started begun)
  have run := setupCpg_run versions known
  obtain ⟨started, nodes, result⟩ := setupCpg_started versions site.state
  have viewed : view (log.take (site.position + 1)) = change.members := by
    rw [view_take_succ here]
    rfl
  refine ⟨?_, fun _ => started, ?_, ?_, fun _ _ => viewed.symm, ?_, ?_⟩
  · intro same
    have after := placed.after
    simp only [afterEntry] at same
    omega
  · intro runs
    have old : site.state.ourProtocol.daemonRun.major ≠ 0 := by
      rw [← major_of_run run]
      exact runs
    have kept := informed.runs_succ placed lawful here kept old
    rw [← run] at kept
    exact kept
  · intro _ given
    simp only [afterEntry] at given
    rw [ruleAt_take_succ here] at given
    have before : n ∈ (ruleAt (log.take site.position)).given :=
      (List.mem_filter.mp given).1
    have runs := informed.adopts alive before
    rw [← major_of_run run] at runs
    exact runs
  · intro node listed set
    simp only [afterEntry, confchgCbDaemon] at listed
    rw [nodes] at listed
    rcases mem_addNodeDaemon listed with old | zero
    · exact informed.saved node old set
    · rw [zero] at set
      exact (set rfl).elim
  · intro member
    apply (informed.sends member).handle
    · intro _
      refine ⟨run, ?_⟩
      intro p sent
      simp only [confchgCbDaemon] at sent ⊢
      split at sent
      · exact (List.not_mem_nil sent).elim
      · cases List.mem_singleton.mp sent
        rfl
    · intro without _ p sent
      have zero := informed.zero placed member without
      rw [← major_of_run run] at zero
      simp only [confchgCbDaemon] at sent
      split at sent
      · exact (List.not_mem_nil sent).elim
      · cases List.mem_singleton.mp sent
        exact zero

/-- A daemon reads a message. -/
theorem Informed.receive (informed : Informed log n site)
    (placed : Placed log n site) (lawful : Lawful log)
    (consistent : Consistent log)
    (here : log[site.position]? = some (.message sender p))
    (alive : site.state.result ≠ some (-1)) :
    Informed log n (afterEntry site
      (receiveProtocol sender p site.state, [])) := by
  have begun := placed.begun here
  have kept : ¬ (Entry.message sender p).Removes n := id
  have later : ¬ site.position + 1 = site.born := by omega
  have member := placed.member site.position begun (Nat.le_refl _)
  have viewed : view (log.take (site.position + 1)) =
      view (log.take site.position) := view_take_succ here
  have listed := informed.members begun alive
  have without : site.state.ourProtocol.daemonRun.major = 0 →
      n ∉ (ruleAt (log.take site.position)).given :=
    fun zero given => informed.adopts alive given zero
  have quiet : ∀ daemon : ProtocolDaemon,
      (site.state.ourProtocol.daemonRun.major ≠ 0 →
        daemon.ourProtocol.run = site.state.ourProtocol.run) →
      n ∈ view log → Sends log n (afterEntry site (daemon, [])) := by
    intro daemon same present
    apply (informed.sends present).handle
    · exact fun runs => ⟨same runs, List.forall_mem_nil _⟩
    · exact fun _ _ _ none_ => (List.not_mem_nil none_).elim
  have unread : p.adoptable = false →
      ruleAt (log.take (site.position + 1)) =
        ruleAt (log.take site.position) := by
    intro other
    rw [ruleAt_take_succ here, Rule.next_other other]
  rcases receiveProtocol_cases sender p site.state with
    ⟨already, same⟩ | ⟨adoptable, zero, same⟩ | ⟨plain, same⟩
  · rw [same]
    refine ⟨fun equal => (later equal).elim, fun _ =>
      informed.started begun, ?_, ?_, fun _ _ => listed.trans viewed.symm,
      informed.saved, quiet site.state fun _ => rfl⟩
    · exact informed.runs_succ placed lawful here kept
    · intro _ given
      cases adoptable : p.adoptable with
      | true => exact already adoptable
      | false =>
          simp only [afterEntry] at given
          rw [unread adoptable] at given
          exact informed.adopts alive given
  · rw [same]
    have rule := ruleAt_take_succ here
    rw [Rule.next_adopted adoptable] at rule
    refine ⟨fun equal => (later equal).elim, fun _ =>
      informed.started begun, fun _ => ?_, fun _ _ => ?_,
      fun _ _ => listed.trans viewed.symm, informed.saved,
      quiet _ fun runs => (runs zero).elim⟩
    · simp only [afterEntry]
      rw [rule]
      refine ⟨?_, ?_⟩
      · rw [ruleAt_members]
        exact member
      · by_cases nobody : (ruleAt (log.take site.position)).given = []
        · rw [nobody]
          rfl
        · have some_ : ¬ (ruleAt (log.take
              site.position)).given.isEmpty = true :=
            fun empty => nobody (List.isEmpty_iff.mp empty)
          rw [if_neg some_]
          exact consistent site.position sender p here adoptable nobody
            ⟨n, member, without zero⟩
    · have given := major_of_adoptable adoptable
      exact given
  · have other : p.adoptable = false := by
      cases adoptable : p.adoptable with
      | false => rfl
      | true => exact (major_of_adoptable adoptable plain).elim
    rw [same]
    refine ⟨fun equal => (later equal).elim, fun _ =>
      informed.started begun, ?_, ?_, fun _ _ => listed.trans viewed.symm,
      ?_, quiet _ fun _ => rfl⟩
    · simp only [afterEntry]
      rw [unread other]
      exact informed.runs
    · simp only [afterEntry]
      rw [unread other]
      exact informed.adopts
    · intro node saved set
      rcases mem_saveProto saved with old | ⟨id, proto⟩
      · exact informed.saved node old set
      · rw [id]
        exact ⟨site.position, p, begun, here, plain⟩

/-- A delivery to a daemon. -/
theorem Informed.deliver (informed : Informed log n site)
    (placed : Placed log n site) (lawful : Lawful log)
    (consistent : Consistent log)
    (here : log[site.position]? = some entry) (kept : ¬ entry.Removes n)
    (versions : MaxVersions) :
    Informed log n (afterEntry site
      (deliverProtocol entry versions site.state)) := by
  unfold deliverProtocol
  by_cases ended : site.state.result = some (-1)
  · rw [if_pos ended]
    have begun : site.born < site.position := by
      apply Nat.lt_of_le_of_ne placed.after
      intro same
      rw [informed.fresh same.symm] at ended
      cases ended
    refine ⟨?_, fun _ => informed.started begun,
      informed.runs_succ placed lawful here kept,
      fun alive => (alive ended).elim, fun _ alive => (alive ended).elim,
      informed.saved, ?_⟩
    · intro same
      simp only [afterEntry] at same
      omega
    · intro member
      apply (informed.sends member).handle
      · exact fun _ => ⟨rfl, List.forall_mem_nil _⟩
      · exact fun _ _ _ none_ => (List.not_mem_nil none_).elim
  · rw [if_neg ended]
    cases entry with
    | confchg change =>
        exact informed.confchg placed lawful here kept versions ended
    | message sender p =>
        have begun := placed.begun here
        have same : setupCpg versions site.state = site.state := by
          unfold setupCpg
          rw [if_pos (informed.started begun)]
        simp only [same]
        exact informed.receive placed lawful consistent here ended

/-- A member that has been given no versions does not propose any while others
have been given some. -/
theorem Informed.silent (informed : Informed log n site)
    (placed : Placed log n site) (member : n ∈ view log)
    (without : n ∉ (ruleAt log).given) (some_ : (ruleAt log).given ≠ [])
    (alive : site.state.result ≠ some (-1)) :
    allProtocolMessages site.state = false := by
  rw [Bool.eq_false_iff]
  intro all
  obtain ⟨nonempty, every⟩ := Bool.and_eq_true_iff.mp all
  have begun : site.born < site.position := by
    apply Nat.lt_of_le_of_ne placed.after
    intro same
    rw [informed.fresh same.symm] at nonempty
    exact Bool.false_ne_true nonempty
  obtain ⟨other, given⟩ := List.exists_mem_of_ne_nil _ some_
  obtain ⟨together, carry⟩ :=
    (informed.sends member).apart without other given
  have listed : other ∈ site.state.daemonMember := by
    rw [informed.members begun alive]
    exact together site.position begun placed.within
  have heard := List.all_eq_true.mp every other listed
  cases found : getNodeDaemon site.state.daemonNodes other with
  | none =>
      rw [found] at heard
      exact Bool.false_ne_true heard
  | some node =>
      rw [found] at heard
      obtain ⟨index, p, above, here, zero⟩ := informed.saved node
        (List.mem_of_find?_eq_some found) (bne_iff_ne.mp heard)
      have same : node.nodeid = other := by
        simpa using List.find?_some found
      rw [same] at here
      exact carry index p above here zero

/-- A round of `set_protocol`. -/
theorem Informed.act (informed : Informed log n site)
    (placed : Placed log n site) :
    Informed log n
      { site with
        state := (setProtocol site.state).1
        queue := site.queue ++ (setProtocol site.state).2 } := by
  obtain ⟨started, protocol, members, nodes, alive⟩ :=
    setProtocol_keeps site.state
  refine ⟨?_, ?_, ?_, ?_, ?_, ?_, ?_⟩
  · intro first
    have new := informed.fresh first
    simp only [new]
    rfl
  · simp only [started]
    exact informed.started
  · simp only [protocol]
    exact informed.runs
  · simp only [protocol]
    exact fun running => informed.adopts (alive running)
  · simp only [members]
    exact fun begun running => informed.members begun (alive running)
  · simp only [nodes]
    exact informed.saved
  · intro member
    apply (informed.sends member).handle
    · intro runs
      rw [protocol]
      refine ⟨rfl, fun p sent => ?_⟩
      rcases setProtocol_sent site.state with nothing | ⟨stopped, _⟩
      · rw [nothing] at sent
        exact (List.not_mem_nil sent).elim
      · exact (runs stopped).elim
    · intro without some_ p sent
      rcases setProtocol_sent site.state with nothing | ⟨_, all, running⟩
      · rw [nothing] at sent
        exact (List.not_mem_nil sent).elim
      · have silent := informed.silent placed member without some_ running
        rw [all] at silent
        cases silent

theorem informed_upkeep :
    Upkeep controlds Caught (fun log _ => Consistent log) Informed := by
  constructor
  · -- a daemon joins
    intro s change n upheld enabled _ joined
    have new : n ∉ (ruleAt (s.log ++ [Entry.confchg change])).given := by
      rw [ruleAt_append]
      intro given
      exact enabled.1.joined_new n joined
        (ruleAt_given_members (List.mem_filter.mp given).1)
    have before : n ∉ (ruleAt ((s.log ++ [Entry.confchg change]).take
        s.log.length)).given := by
      rw [List.take_left]
      exact fun given => enabled.1.joined_new n joined
        (ruleAt_given_members given)
    refine ⟨fun _ => rfl, fun begun => (Nat.lt_irrefl _ begun).elim,
      fun runs => (runs rfl).elim, fun _ given => (before given).elim,
      fun begun => (Nat.lt_irrefl _ begun).elim,
      List.forall_mem_nil _, fun _ => ?_⟩
    refine ⟨fun given => (new given).elim,
      fun _ _ _ queued => (List.not_mem_nil queued).elim, fun _ m given => ?_⟩
    refine ⟨?_, ?_⟩
    · intro index above below
      simp only [Process.site] at above
      rw [List.length_append, List.length_singleton] at below
      rw [List.take_of_length_le (by simp; omega)]
      exact ruleAt_given_members given
    · intro index p above here
      simp only [Process.site] at above
      rcases getElem?_append_cases here with old | ⟨_, same⟩
      · exact absurd (lt_length_of_entry old)
          (Nat.not_lt.mpr (Nat.le_of_lt above))
      · cases same
  · -- the log grows by a change
    intro s change upheld _ _ index sender p here adoptable some_ mixed
    rcases getElem?_append_cases here with old | ⟨_, same⟩
    · rw [take_append_entry (Nat.le_of_lt (lt_length_of_entry old))]
        at some_ mixed ⊢
      exact upheld.global index sender p old adoptable some_ mixed
    · cases same
  · intro s change n site upheld enabled caught found
    have informed := upheld.each n site found
    apply informed.append (upheld.placed n site found) rfl rfl rfl
    intro member
    rw [view_append] at member
    have absent : n ∉ change.joined := by
      intro joined
      have none_ := enabled.2 n joined
      rw [found] at none_
      exact Bool.false_ne_true none_
    obtain ⟨known, _⟩ :=
      (enabled.1.members_known n member).resolve_left absent
    exact (informed.sends known).confchg enabled.1 member
      fun some_ given => caught some_ n given site found
  · -- a message is ordered
    intro s n site p later upheld member _ found waiting
    have informed := upheld.each n site found
    have placed := upheld.placed n site found
    have sent : p ∈ site.queue := by
      rw [waiting]
      exact List.mem_cons_self
    refine ⟨upheld.global.order informed placed member sent, ?_⟩
    refine @Informed.append _ _ _ _ { site with queue := later } informed
      placed rfl rfl rfl fun _ => ?_
    apply (informed.sends member).message member
    · intro other listed
      rw [waiting]
      exact List.mem_cons_of_mem p listed
    · exact fun given mixed =>
        (informed.carried placed member sent given mixed).1
  · intro s n site p later m other upheld member _ found waiting there _
    have informed := upheld.each n site found
    have placed := upheld.placed n site found
    have hearer := upheld.each m other there
    have sent : p ∈ site.queue := by
      rw [waiting]
      exact List.mem_cons_self
    apply hearer.append (upheld.placed m other there) rfl rfl rfl
    intro present
    rw [view_append] at present
    exact (hearer.sends present).message present (fun _ listed => listed)
      fun given mixed => (informed.carried placed member sent given mixed).1
  · -- an entry is delivered
    intro s n versions site entry upheld _ _ found here kept
    exact ⟨upheld.global, (upheld.each n site found).deliver
      (upheld.placed n site found) upheld.lawful upheld.global here kept
      versions⟩
  · -- a round of set_protocol
    intro s n action site upheld _ found
    exact ⟨upheld.global, (upheld.each n site found).act
      (upheld.placed n site found)⟩

/-- In every run in which, whenever a daemon joins, those that have been given
versions have adopted them and send nothing else, the members that run versions
run the same. -/
theorem members_run_same_protocol {s : Controlds}
    (run : controlds.system.Run Caught (State.empty ()) s) :
    ∀ n m site other, n ∈ view s.log → m ∈ view s.log →
      s.site n = some site → s.site m = some other →
      site.state.ourProtocol.daemonRun.major ≠ 0 →
      other.state.ourProtocol.daemonRun.major ≠ 0 →
      site.state.ourProtocol.daemonRun = other.state.ourProtocol.daemonRun ∧
        site.state.ourProtocol.kernelRun =
          other.state.ourProtocol.kernelRun := by
  have upheld := informed_upkeep.run run (fun _ _ _ here => by cases here)
  intro n m site other present there found foundOther runs runsOther
  have mine := (upheld.each n site found).version
    (upheld.placed n site found) present runs
  have yours := (upheld.each m other foundOther).version
    (upheld.placed m other foundOther) there runsOther
  have same := mine.2.trans yours.2.symm
  exact ⟨congrArg Prod.fst same, congrArg Prod.snd same⟩

section Runs

/-- A daemon that can run the daemon protocol up to 1.2.1. -/
def newVersions : MaxVersions :=
  { daemonMax := { major := 1, minor := 2, patch := 1, flags := 0 }
    kernelMax := { major := 1, minor := 1, patch := 1, flags := 0 } }

/-- A daemon that can run the daemon protocol up to 1.1.1. -/
def oldVersions : MaxVersions :=
  { newVersions with
    daemonMax := { major := 1, minor := 1, patch := 1, flags := 0 } }

/-- What the daemon of a node runs. -/
def daemonRunOf (s : Controlds) (n : Int32) : Option ProtocolVersion :=
  (s.site n).map (·.state.ourProtocol.daemonRun)

def deliveries (count : Nat) (n : Int32) (versions : MaxVersions) :
    List (Label Int32 MaxVersions Unit) :=
  List.replicate count (.deliver n versions)

/-- Daemons 1 and 2 agree before daemon 3 joins, which is told by daemon 1. -/
def orderlyJoin : List (Label Int32 MaxVersions Unit) :=
  [.confchg { members := [1], left := [], joined := [1] },
    .confchg { members := [1, 2], left := [], joined := [2] }] ++
  deliveries 2 1 newVersions ++ deliveries 1 2 newVersions ++
  [.order 1, .order 2, .order 1] ++
  deliveries 3 1 newVersions ++ deliveries 3 2 newVersions ++
  [.act 1 (), .order 1] ++
  deliveries 1 1 newVersions ++ deliveries 1 2 newVersions ++
  [.confchg { members := [1, 2, 3], left := [], joined := [3] }] ++
  deliveries 1 1 newVersions ++ [.order 1] ++ deliveries 2 3 newVersions

theorem orderlyJoin_same_protocol :
    daemonRunOf (controlds.system.follow (State.empty ()) orderlyJoin) 1 =
        some newVersions.daemonMax ∧
      daemonRunOf (controlds.system.follow (State.empty ()) orderlyJoin) 3 =
        some newVersions.daemonMax ∧
      ∀ n m site other,
        n ∈ view (controlds.system.follow (State.empty ())
          orderlyJoin).log →
        m ∈ view (controlds.system.follow (State.empty ())
          orderlyJoin).log →
        (controlds.system.follow (State.empty ()) orderlyJoin).site n =
          some site →
        (controlds.system.follow (State.empty ()) orderlyJoin).site m =
          some other →
        site.state.ourProtocol.daemonRun.major ≠ 0 →
        other.state.ourProtocol.daemonRun.major ≠ 0 →
        site.state.ourProtocol.daemonRun =
            other.state.ourProtocol.daemonRun ∧
          site.state.ourProtocol.kernelRun =
            other.state.ourProtocol.kernelRun :=
  ⟨by decide, by decide, members_run_same_protocol
    (System.run_of_follows orderlyJoin .refl (by decide))⟩

/-- Daemon 1 proposes while daemon 4, which is old, is a member; daemon 2 after
daemon 4 has left.  Daemon 3 joins between the two proposals. -/
def lateJoin : List (Label Int32 MaxVersions Unit) :=
  [.confchg { members := [1], left := [], joined := [1] },
    .confchg { members := [1, 2], left := [], joined := [2] },
    .confchg { members := [1, 2, 4], left := [], joined := [4] }] ++
  deliveries 3 1 newVersions ++ deliveries 2 2 newVersions ++
  deliveries 1 4 oldVersions ++ [.order 1, .order 2, .order 4] ++
  deliveries 3 1 newVersions ++ [.act 1 ()] ++ deliveries 3 2 newVersions ++
  [.confchg { members := [1, 2], left := [(4, .leave)], joined := [] }] ++
  deliveries 1 2 newVersions ++ [.act 2 ()] ++
  [.order 1, .order 1, .order 1] ++
  deliveries 4 1 newVersions ++ deliveries 3 2 newVersions ++ [.order 2] ++
  [.confchg { members := [1, 2, 3], left := [], joined := [3] }] ++
  [.order 2] ++ deliveries 2 3 newVersions

theorem late_joiner_runs_other_protocol :
    controlds.system.Run (fun _ _ => True) (State.empty ())
        (controlds.system.follow (State.empty ()) lateJoin) ∧
      1 ∈ view (controlds.system.follow (State.empty ()) lateJoin).log ∧
      3 ∈ view (controlds.system.follow (State.empty ()) lateJoin).log ∧
      daemonRunOf (controlds.system.follow (State.empty ()) lateJoin) 1 =
        some { major := 1, minor := 1, patch := 1, flags := 0 } ∧
      daemonRunOf (controlds.system.follow (State.empty ()) lateJoin) 3 =
        some { major := 1, minor := 2, patch := 1, flags := 0 } :=
  ⟨System.run_of_follows lateJoin .refl (by decide), by decide, by decide,
    by decide, by decide⟩

end Runs

end Dlm.Cpg
