import Dlm.Deadlock.CycleLog

/-!
# A node in the cycles

What a node keeps of the stream that it has read, and what every handler does
to that and sends.  A node that has read an orderly stream since nobody was in
a cycle knows the members, the running cycle, which of the members are ready
and, when all of them are, the lowest.
-/

namespace Dlm.Deadlock

open ProcessGroup

section Nodes

variable {nodes : List CycleNode}

theorem nodeJoined_foldl (joined : List Int32) (nodes : List CycleNode) :
    joined.foldl nodeJoined nodes = nodes ++ joined.map fun nodeid =>
      { nodeid := nodeid, checkpointReady := false, inCycle := false } := by
  induction joined generalizing nodes with
  | nil => simp
  | cons nodeid later induction =>
      rw [List.foldl_cons, induction, nodeJoined, List.map_cons,
        List.append_assoc]
      rfl

theorem nodeLeft_foldl (left : List Int32) (nodes : List CycleNode) :
    left.foldl nodeLeft nodes =
      nodes.filter fun node => node.nodeid ∉ left := by
  induction left generalizing nodes with
  | nil => simp
  | cons nodeid later induction =>
      rw [List.foldl_cons, induction, nodeLeft, List.filter_filter]
      apply List.filter_congr
      intro node _
      by_cases same : node.nodeid = nodeid
      · simp [same]
      · simp [same, bne, beq_eq_false_iff_ne.mpr same]

theorem markReady_eq (nodeid : Int32)
    (distinct : (nodes.map (·.nodeid)).Nodup) :
    markReady nodeid nodes = nodes.map fun node =>
      if node.nodeid = nodeid then { node with checkpointReady := true }
      else node := by
  induction nodes with
  | nil => rfl
  | cons node later induction =>
      obtain ⟨apart, distinct⟩ := List.nodup_cons.mp distinct
      have rest := induction distinct
      by_cases same : node.nodeid = nodeid
      · have others : later.map (fun node =>
            if node.nodeid = nodeid then { node with checkpointReady := true }
            else node) = later := by
          conv_rhs => rw [← List.map_id later]
          apply List.map_congr_left
          intro other listed
          rw [if_neg, id]
          intro equal
          apply apart
          exact List.mem_map.mpr ⟨other, listed, equal.trans same.symm⟩
        rw [List.map_cons, others, if_pos same]
        simp [markReady, List.findIdx?_cons, same]
      · rw [List.map_cons, if_neg same, ← rest]
        simp only [markReady, List.findIdx?_cons, beq_iff_eq, same,
          if_false]
        cases List.findIdx? (·.nodeid == nodeid) later with
        | none => rfl
        | some place => rfl

theorem lowerNode_foldl {low : Int32}
    (inCycle : ∀ node ∈ nodes, node.inCycle = true)
    (named : ∀ node ∈ nodes, node.nodeid ≠ -1) (known : low ≠ -1) :
    (nodes.foldl lowerNode low = low ∨
        ∃ node ∈ nodes, node.nodeid = nodes.foldl lowerNode low) ∧
      nodes.foldl lowerNode low ≤ low ∧
      ∀ node ∈ nodes, nodes.foldl lowerNode low ≤ node.nodeid := by
  induction nodes generalizing low with
  | nil =>
      exact ⟨.inl rfl, Int32.le_refl low, List.forall_mem_nil _⟩
  | cons node later induction =>
      obtain ⟨takesPart, inCycle⟩ := List.forall_mem_cons.mp inCycle
      obtain ⟨isNamed, named⟩ := List.forall_mem_cons.mp named
      rw [List.foldl_cons]
      by_cases lower : node.nodeid < low
      · have step : lowerNode low node = node.nodeid := by
          simp [lowerNode, takesPart, lower]
        obtain ⟨found, below, least⟩ := induction inCycle named isNamed
        rw [step]
        refine ⟨.inr ?_, Int32.le_trans below (Int32.le_of_lt lower), ?_⟩
        · rcases found with same | ⟨other, listed, same⟩
          · exact ⟨node, List.mem_cons_self, same.symm⟩
          · exact ⟨other, List.mem_cons_of_mem node listed, same⟩
        · exact List.forall_mem_cons.mpr ⟨below, least⟩
      · have step : lowerNode low node = low := by
          simp [lowerNode, takesPart, lower, known]
        obtain ⟨found, below, least⟩ := induction inCycle named known
        rw [step]
        refine ⟨?_, below, List.forall_mem_cons.mpr
          ⟨Int32.le_trans below (Int32.not_lt.mp lower), least⟩⟩
        exact found.imp id fun ⟨other, listed, same⟩ =>
          ⟨other, List.mem_cons_of_mem node listed, same⟩

/-- The lowest node of the cycle is one of its nodes and the least. -/
theorem lowNode_least (some_ : nodes ≠ [])
    (inCycle : ∀ node ∈ nodes, node.inCycle = true)
    (named : ∀ node ∈ nodes, node.nodeid ≠ -1) :
    (∃ node ∈ nodes, node.nodeid = lowNode nodes) ∧
      ∀ node ∈ nodes, lowNode nodes ≤ node.nodeid := by
  cases nodes with
  | nil => exact absurd rfl some_
  | cons node later =>
      obtain ⟨takesPart, inCycle⟩ := List.forall_mem_cons.mp inCycle
      obtain ⟨isNamed, named⟩ := List.forall_mem_cons.mp named
      have step : lowerNode (-1) node = node.nodeid := by
        simp [lowerNode, takesPart]
      obtain ⟨found, below, least⟩ := lowerNode_foldl inCycle named isNamed
      rw [lowNode, List.foldl_cons, step]
      refine ⟨?_, List.forall_mem_cons.mpr ⟨below, least⟩⟩
      rcases found with same | ⟨other, listed, same⟩
      · exact ⟨node, List.mem_cons_self, same.symm⟩
      · exact ⟨other, List.mem_cons_of_mem node listed, same⟩

end Nodes

theorem cancelLocks_sent (resources : List Rsb) (xid : UInt64)
    (locks : List LkbPtr) (graph : Graph) :
    ∀ message ∈ (cancelLocks resources xid locks graph).2,
      ∃ toNodeid lkid, message = .cancelLock toNodeid lkid := by
  induction locks generalizing graph with
  | nil => exact List.forall_mem_nil _
  | cons ptr later induction =>
      unfold cancelLocks
      split
      · exact induction graph
      · split
        · exact induction graph
        · intro message member
          rcases List.mem_cons.mp member with rfl | rest
          · exact ⟨_, _, rfl⟩
          · exact induction _ message rest

/-- `find_deadlock` sends cancellations and then `CYCLE_END`. -/
theorem findDeadlock_sent (resources : List Rsb)
    (transactions : List Trans) :
    ∃ cancels, (findDeadlock resources transactions).2 =
        cancels ++ [.cycleEnd] ∧
      ∀ message ∈ cancels, ∃ toNodeid lkid,
        message = .cancelLock toNodeid lkid := by
  have nothing : ∀ message ∈ ([] : List Message), ∃ toNodeid lkid,
      message = .cancelLock toNodeid lkid :=
    List.forall_mem_nil _
  unfold findDeadlock
  split
  · exact ⟨[], rfl, nothing⟩
  · split
    · exact ⟨[], rfl, nothing⟩
    · simp only
      split
      · exact ⟨[], rfl, nothing⟩
      · refine ⟨_, rfl, ?_⟩
        unfold cancelTrans
        split
        · exact nothing
        · exact cancelLocks_sent resources _ _ _

theorem findDeadlock_count (resources : List Rsb)
    (transactions : List Trans) :
    .checkpointReady ∉ (findDeadlock resources transactions).2 ∧
      (findDeadlock resources transactions).2.count .cycleEnd = 1 := by
  obtain ⟨cancels, sent, only⟩ := findDeadlock_sent resources transactions
  rw [sent]
  constructor
  · intro member
    rcases List.mem_append.mp member with cancelled | last
    · obtain ⟨toNodeid, lkid, same⟩ := only _ cancelled
      cases same
    · cases List.mem_singleton.mp last
  · have none_ : cancels.count .cycleEnd = 0 := by
      apply List.count_eq_zero.mpr
      intro member
      obtain ⟨toNodeid, lkid, same⟩ := only _ member
      cases same
    rw [List.count_append, none_]
    rfl

/-- `run_deadlock` returns, leaves the search to another node, or searches. -/
theorem runDeadlock_cases (ourNodeid : Int32) (space : Space) :
    ((∃ node ∈ space.nodes, node.inCycle = true ∧
          node.checkpointReady = false) ∧
        runDeadlock ourNodeid space = (space, .none)) ∨
      (∀ node ∈ space.nodes, node.inCycle = true →
        node.checkpointReady = true) ∧
      ((lowNode space.nodes ≠ ourNodeid ∧
          runDeadlock ourNodeid space =
            ({ space with
                allCheckpointsReady := true
                lowNodeid := lowNode space.nodes }, .none)) ∨
        (lowNode space.nodes = ourNodeid ∧
          runDeadlock ourNodeid space =
            ({ space with
                allCheckpointsReady := true
                lowNodeid := lowNode space.nodes
                transactions :=
                  (findDeadlock space.resources space.transactions).1 },
              { sent := (findDeadlock space.resources space.transactions).2
                found := some space.resources }))) := by
  unfold runDeadlock
  split
  · rename_i waiting
    obtain ⟨node, listed, waits⟩ := List.any_eq_true.mp waiting
    simp only [Bool.and_eq_true, Bool.not_eq_true'] at waits
    exact .inl ⟨⟨node, listed, waits⟩, rfl⟩
  · rename_i waiting
    refine .inr ⟨?_, ?_⟩
    · intro node listed takesPart
      by_contra waits
      apply waiting
      apply List.any_eq_true.mpr
      exact ⟨node, listed, by simp [takesPart, waits]⟩
    · by_cases low : lowNode space.nodes = ourNodeid
      · exact .inr ⟨low, by simp only [if_pos low]⟩
      · exact .inl ⟨low, by simp only [if_neg low]⟩

/-- A node knows the members of the group, the running cycle, and which of the
members are ready. -/
structure Members (past : CycleLog) (space : Space) : Prop where
  init : space.confchgInit = true
  ids : ∀ m, (∃ node ∈ space.nodes, node.nodeid = m) ↔ m ∈ view past
  distinct : (space.nodes.map (·.nodeid)).Nodup
  running : space.cycleRunning = (cycleAt past).isSome
  begun : ∀ start, cycleAt past = some start → space.cycleStart = start
  inCycle : ∀ start, cycleAt past = some start →
    ∀ node ∈ space.nodes, node.inCycle = true
  ready : ∀ node ∈ space.nodes, node.checkpointReady = true ↔
    ∃ start, cycleAt past = some start ∧ Ready past node.nodeid start
  unused : cycleAt past = none → space.resources = []

/-- A node also knows when all of them are ready, and the lowest. -/
structure Tracks (past : CycleLog) (space : Space) : Prop
    extends Members past space where
  all : space.allCheckpointsReady = true ↔ (cycleAt past).isSome = true ∧
    ∀ node ∈ space.nodes, node.checkpointReady = true
  low : space.allCheckpointsReady = true →
    (∃ node ∈ space.nodes, node.nodeid = space.lowNodeid) ∧
      ∀ node ∈ space.nodes, space.lowNodeid ≤ node.nodeid

/-- What a node may send for an entry: `CHECKPOINT_READY` when the entry begins
a cycle, and `CYCLE_END` when the node is called and was not called before. -/
structure Reaction (past after : CycleLog) (n : Int32) (sent : List Message) :
    Prop where
  ready : .checkpointReady ∈ sent →
    cycleAt past = none ∧ cycleAt after = some past.length
  ready_once : sent.count .checkpointReady ≤ 1
  ended : .cycleEnd ∈ sent → ∃ start, cycleAt past = some start ∧
    cycleAt after = some start ∧ Called after n start ∧ ¬ Called past n start
  ended_once : sent.count .cycleEnd ≤ 1

variable {past after : CycleLog} {space : Space} {n m : Int32} {start : Nat}

/-- A change of the nodes that keeps their ids. -/
theorem ids_map {change : CycleNode → CycleNode} {nodes : List CycleNode}
    (same : ∀ node, (change node).nodeid = node.nodeid) :
    (∃ node ∈ nodes.map change, node.nodeid = m) ↔
      ∃ node ∈ nodes, node.nodeid = m := by
  constructor
  · rintro ⟨node, listed, rfl⟩
    obtain ⟨old, oldListed, rfl⟩ := List.mem_map.mp listed
    exact ⟨old, oldListed, (same old).symm⟩
  · rintro ⟨old, listed, rfl⟩
    exact ⟨_, List.mem_map_of_mem listed, same old⟩

theorem Reaction.silent : Reaction past after n [] :=
  ⟨fun member => (List.not_mem_nil member).elim, Nat.zero_le 1,
    fun member => (List.not_mem_nil member).elim, Nat.zero_le 1⟩

/-- The ready nodes in the running cycle. -/
theorem Members.ready_iff (members : Members past space)
    (running : cycleAt past = some start) :
    (∀ node ∈ space.nodes, node.checkpointReady = true) ↔
      ∀ m ∈ view past, Ready past m start := by
  constructor
  · intro every m member
    obtain ⟨node, listed, rfl⟩ := (members.ids m).mpr member
    obtain ⟨other, same, ready⟩ :=
      (members.ready node listed).mp (every node listed)
    cases running.symm.trans same
    exact ready
  · intro every node listed
    apply (members.ready node listed).mpr
    exact ⟨start, running, every node.nodeid
      ((members.ids _).mp ⟨node, listed, rfl⟩)⟩

theorem Members.settled (members : Members past space) (all : Bool)
    (low : Int32) (transactions : List Trans) :
    Members past
      { space with
        allCheckpointsReady := all
        lowNodeid := low
        transactions := transactions } :=
  ⟨members.init, members.ids, members.distinct, members.running,
    members.begun, members.inCycle, members.ready, members.unused⟩

theorem Members.purged (members : Members past space)
    (running : cycleAt past = some start) (resources : List Rsb) :
    Members past { space with resources := resources } :=
  ⟨members.init, members.ids, members.distinct, members.running,
    members.begun, members.inCycle, members.ready, fun idle =>
      (Option.some_ne_none start (running.symm.trans idle)).elim⟩

/-- `run_deadlock` in a cycle. -/
theorem Members.runDeadlock (members : Members after space)
    (running : cycleAt after = some start) (before : cycleAt past = some start)
    (named : -1 ∉ view after) (member : n ∈ view after)
    (flag : space.allCheckpointsReady = true →
      ∀ node ∈ space.nodes, node.checkpointReady = true)
    (uncalled : ¬ Called past n start) :
    Tracks after (runDeadlock n space).1 ∧
      Reaction past after n (runDeadlock n space).2.sent := by
  obtain ⟨own, ownListed, ownId⟩ := (members.ids n).mpr member
  have takesPart := members.inCycle start running
  obtain ⟨lowListed, lowLeast⟩ := lowNode_least
    (List.ne_nil_of_mem ownListed) takesPart (fun node listed unnamed =>
      named (unnamed ▸ (members.ids _).mp ⟨node, listed, rfl⟩))
  rcases runDeadlock_cases n space with
    ⟨⟨node, listed, _, waits⟩, result⟩ | ⟨every, rest⟩
  · rw [result]
    have unset : ¬ space.allCheckpointsReady = true := by
      intro set
      rw [flag set node listed] at waits
      cases waits
    refine ⟨⟨members, ⟨fun set => (unset set).elim, ?_⟩,
      fun set => (unset set).elim⟩, .silent⟩
    rintro ⟨_, ready⟩
    rw [ready node listed] at waits
    cases waits
  · have ready : ∀ node ∈ space.nodes, node.checkpointReady = true :=
      fun node listed => every node listed (takesPart node listed)
    have isRunning : (cycleAt after).isSome = true := by rw [running]; rfl
    rcases rest with ⟨_, result⟩ | ⟨low, result⟩
    · rw [result]
      exact ⟨⟨members.settled true _ _,
        ⟨fun _ => ⟨isRunning, ready⟩, fun _ => rfl⟩,
        fun _ => ⟨lowListed, lowLeast⟩⟩, .silent⟩
    · rw [result]
      refine ⟨⟨members.settled true _ _,
        ⟨fun _ => ⟨isRunning, ready⟩, fun _ => rfl⟩,
        fun _ => ⟨lowListed, lowLeast⟩⟩, ?_⟩
      obtain ⟨absent, once⟩ :=
        findDeadlock_count space.resources space.transactions
      refine ⟨fun sent => (absent sent).elim, ?_, fun _ => ?_,
        Nat.le_of_eq once⟩
      · exact Nat.le_trans (Nat.le_of_eq (List.count_eq_zero.mpr absent))
          (Nat.zero_le 1)
      · refine ⟨start, before, running, ⟨?_, ?_⟩, uncalled⟩
        · exact (members.ready_iff running).mp ready
        · intro m known
          obtain ⟨node, listed, rfl⟩ := (members.ids m).mpr known
          rw [← low]
          exact lowLeast node listed

/-- A message of no concern to a node. -/
theorem Tracks.message {body : Message} (tracks : Tracks past space)
    (same : cycleAt (past ++ [.message m body]) = cycleAt past)
    (other : body ≠ .checkpointReady) :
    Tracks (past ++ [.message m body]) space := by
  have ready : ∀ node start,
      Ready (past ++ [.message m body]) node start ↔
        Ready past node start := by
    intro node start
    rw [ready_append]
    refine ⟨fun either => either.resolve_right ?_, .inl⟩
    rintro ⟨_, equal⟩
    cases equal
    exact other rfl
  have viewed : view (past ++ [.message m body]) = view past :=
    view_append past _
  constructor
  · constructor
    · exact tracks.init
    · rw [viewed]
      exact tracks.ids
    · exact tracks.distinct
    · rw [same]
      exact tracks.running
    · rw [same]
      exact tracks.begun
    · rw [same]
      exact tracks.inCycle
    · simp only [same, ready]
      exact tracks.ready
    · rw [same]
      exact tracks.unused
  · rw [same]
    exact tracks.all
  · exact tracks.low

/-- `receive_checkpoint_ready` in a cycle. -/
theorem Tracks.receiveCheckpointReady (tracks : Tracks past space)
    (running : cycleAt past = some start) (waiting : ¬ Ready past m start)
    (known : m ∈ view past) (member : n ∈ view past)
    (named : -1 ∉ view past) (checkpoint : Option Checkpoint) :
    Tracks (past ++ [.message m .checkpointReady])
        (receiveCheckpointReady n m checkpoint space).1 ∧
      Reaction past (past ++ [.message m .checkpointReady]) n
        (receiveCheckpointReady n m checkpoint space).2.sent := by
  have viewed : view (past ++ [Entry.message m .checkpointReady]) =
      view past := view_append past _
  have same : cycleAt (past ++ [Entry.message m .checkpointReady]) =
      cycleAt past := cycleAt_append past _
  have within : start < past.length := by
    obtain ⟨⟨sender, begun⟩, _⟩ := cycleAt_since running
    exact lt_length_of_entry begun
  unfold Deadlock.receiveCheckpointReady
  apply Members.runDeadlock _ (same.trans running) running
  · rw [viewed]
    exact named
  · rw [viewed]
    exact member
  · intro set node listed
    rw [markReady_eq m tracks.distinct] at listed
    obtain ⟨old, oldListed, rfl⟩ := List.mem_map.mp listed
    split
    · rfl
    · exact (tracks.all.mp set).2 old oldListed
  · intro called
    exact waiting (called.ready m known)
  · simp only [markReady_eq m tracks.distinct]
    constructor
    · exact tracks.init
    · intro other
      rw [viewed, ← tracks.ids other]
      constructor
      · rintro ⟨node, listed, rfl⟩
        obtain ⟨old, oldListed, rfl⟩ := List.mem_map.mp listed
        exact ⟨old, oldListed, by split <;> rfl⟩
      · rintro ⟨old, listed, rfl⟩
        exact ⟨_, List.mem_map_of_mem listed, by split <;> rfl⟩
    · have ids : (space.nodes.map fun node =>
          if node.nodeid = m then { node with checkpointReady := true }
          else node).map (·.nodeid) = space.nodes.map (·.nodeid) := by
        rw [List.map_map]
        apply List.map_congr_left
        intro node _
        simp only [Function.comp]
        split <;> rfl
      rw [ids]
      exact tracks.distinct
    · rw [same]
      exact tracks.running
    · rw [same]
      exact tracks.begun
    · intro other now node listed
      obtain ⟨old, oldListed, rfl⟩ := List.mem_map.mp listed
      have takesPart := tracks.inCycle other (same ▸ now) old oldListed
      split
      · exact takesPart
      · exact takesPart
    · intro node listed
      obtain ⟨old, oldListed, rfl⟩ := List.mem_map.mp listed
      simp only [same, ready_append]
      by_cases isSender : old.nodeid = m
      · simp only [if_pos isSender, true_iff]
        exact ⟨start, running, .inr ⟨within, by rw [isSender]⟩⟩
      · simp only [if_neg isSender]
        rw [tracks.ready old oldListed]
        constructor
        · rintro ⟨other, now, ready⟩
          exact ⟨other, now, .inl ready⟩
        · rintro ⟨other, now, ready | ⟨_, equal⟩⟩
          · exact ⟨other, now, ready⟩
          · cases equal
            exact absurd rfl isSender
    · rw [same, running]
      exact fun idle => (Option.some_ne_none start idle).elim

theorem writeCheckpoint_fst (place : Nat) (space : Space)
    (checkpoint : Option Checkpoint) :
    ∃ handle, (writeCheckpoint place space checkpoint).1 =
      { space with ckptHandle := handle } := by
  unfold writeCheckpoint
  simp only
  split
  · exact ⟨true, rfl⟩
  · split
    · exact ⟨space.ckptHandle, rfl⟩
    · split
      · exact ⟨true, rfl⟩
      · exact ⟨true, rfl⟩

/-- `receive_cycle_start`. -/
theorem Tracks.receiveCycleStart (tracks : Tracks past space)
    (member : n ∈ view past) (lines : List Line)
    (checkpoint : Option Checkpoint) :
    Tracks (past ++ [.message m .cycleStart])
        (receiveCycleStart n past.length lines checkpoint space).1 ∧
      Reaction past (past ++ [.message m .cycleStart]) n
        (receiveCycleStart n past.length lines checkpoint
          space).2.1.sent := by
  have next := cycleAt_append past (Entry.message m .cycleStart)
  unfold Deadlock.receiveCycleStart
  cases idle : cycleAt past with
  | some start =>
      have running : space.cycleRunning = true := by
        rw [tracks.running, idle]
        rfl
      rw [if_pos running]
      refine ⟨tracks.message ?_ (by simp), .silent⟩
      rw [next, idle]
      rfl
  | none =>
      have stopped : ¬ space.cycleRunning = true := by
        rw [tracks.running, idle]
        exact Bool.false_ne_true
      rw [if_neg stopped]
      rw [idle] at next
      have begins : cycleAt (past ++ [Entry.message m .cycleStart]) =
          some past.length := next
      have unready : ∀ node ∈ space.nodes,
          ¬ node.checkpointReady = true := by
        intro node listed set
        obtain ⟨start, now, _⟩ := (tracks.ready node listed).mp set
        rw [idle] at now
        cases now
      have unset : ¬ space.allCheckpointsReady = true := by
        intro set
        have now := (tracks.all.mp set).1
        rw [idle] at now
        exact Bool.false_ne_true now
      obtain ⟨handle, written⟩ := writeCheckpoint_fst past.length
        { space with
          cycleRunning := true
          cycleStart := past.length
          nodes := space.nodes.map fun node => { node with inCycle := true }
          resources := readDebugfsLocks n lines space.resources } checkpoint
      refine ⟨?_, fun _ => ⟨idle, begins⟩, Nat.le_refl 1, ?_,
        Nat.zero_le 1⟩
      · simp only [written]
        constructor
        · constructor
          · exact tracks.init
          · intro other
            rw [view_append]
            refine Iff.trans (ids_map ?_) (tracks.ids other)
            exact fun _ => rfl
          · rw [List.map_map]
            exact tracks.distinct
          · rw [begins]
            rfl
          · intro start now
            exact Option.some.inj (begins.symm.trans now)
          · intro start _ node listed
            obtain ⟨old, _, rfl⟩ := List.mem_map.mp listed
            rfl
          · intro node listed
            obtain ⟨old, oldListed, rfl⟩ := List.mem_map.mp listed
            refine ⟨fun set => (unready old oldListed set).elim, ?_⟩
            rintro ⟨start, now, index, above, here⟩
            cases begins.symm.trans now
            have within := lt_length_of_entry here
            rw [List.length_append, List.length_singleton] at within
            omega
          · rw [begins]
            exact fun none_ => (Option.some_ne_none _ none_).elim
        · refine ⟨fun set => (unset set).elim, ?_⟩
          rintro ⟨_, every⟩
          obtain ⟨own, listed, _⟩ := (tracks.ids n).mpr member
          have set := every { own with inCycle := true }
            (List.mem_map.mpr ⟨own, listed, rfl⟩)
          exact (unready own listed set).elim
        · exact fun set => (unset set).elim
      · intro sent
        cases List.mem_singleton.mp sent

/-- `receive_cycle_end` in a cycle. -/
theorem Tracks.receiveCycleEnd (tracks : Tracks past space)
    (running : cycleAt past = some start) (checkpoint : Option Checkpoint) :
    Tracks (past ++ [.message m .cycleEnd])
      (receiveCycleEnd checkpoint space).1 := by
  have idle : cycleAt (past ++ [Entry.message m .cycleEnd]) = none :=
    cycleAt_append past _
  have isRunning : ¬ (!space.cycleRunning) = true := by
    rw [tracks.running, running]
    exact Bool.false_ne_true
  unfold Deadlock.receiveCycleEnd
  rw [if_neg isRunning]
  constructor
  · constructor
    · exact tracks.init
    · intro other
      rw [view_append]
      refine Iff.trans (ids_map ?_) (tracks.ids other)
      exact fun _ => rfl
    · rw [List.map_map]
      exact tracks.distinct
    · rw [idle]
      rfl
    · rw [idle]
      exact fun start now => (Option.some_ne_none start now.symm).elim
    · rw [idle]
      exact fun start now => (Option.some_ne_none start now.symm).elim
    · intro node listed
      obtain ⟨old, _, rfl⟩ := List.mem_map.mp listed
      refine ⟨fun set => (Bool.false_ne_true set).elim, ?_⟩
      rintro ⟨other, now, _⟩
      rw [idle] at now
      cases now
    · exact fun _ => rfl
  · refine ⟨fun set => (Bool.false_ne_true set).elim, ?_⟩
    rintro ⟨now, _⟩
    rw [idle] at now
    exact (Bool.false_ne_true now).elim
  · exact fun set => (Bool.false_ne_true set).elim

section Confchg

variable {change : Confchg Int32}

/-- A configuration change does not end a cycle in which a node stays. -/
theorem cycleAt_confchg (follows : change.Follows (view past))
    (member : n ∈ view past) (kept : ¬ change.Removes n) :
    cycleAt (past ++ [.confchg change]) = cycleAt past := by
  have listed := (follows.view_kept n member).resolve_left kept
  have stays : ¬ (change.members.all (· ∈ change.joined)) = true := by
    intro every
    have joined := of_decide_eq_true (List.all_eq_true.mp every n listed)
    exact follows.joined_new n joined member
  rw [cycleAt_append]
  simp only [cycleNext, if_neg stays]

theorem ready_confchg :
    Ready (past ++ [.confchg change]) m start ↔ Ready past m start := by
  rw [ready_append]
  refine ⟨fun either => either.resolve_right ?_, .inl⟩
  rintro ⟨_, equal⟩
  cases equal

theorem removes_iff :
    m ∈ change.left.map (·.1) ↔ change.Removes m := by
  rw [List.mem_map]
  rfl

/-- The nodes that are left and new after a change. -/
theorem mem_changed {node : CycleNode} :
    node ∈ (change.left.map (·.1)).foldl nodeLeft
        (change.joined.foldl nodeJoined space.nodes) ↔
      (node ∈ space.nodes ∨ ∃ nodeid ∈ change.joined,
        node = { nodeid := nodeid, checkpointReady := false,
                 inCycle := false }) ∧ ¬ change.Removes node.nodeid := by
  rw [nodeLeft_foldl, nodeJoined_foldl, List.mem_filter, List.mem_append,
    List.mem_map, decide_eq_true_iff, removes_iff]
  apply and_congr_left'
  apply or_congr_right
  constructor
  · rintro ⟨nodeid, joined, rfl⟩
    exact ⟨nodeid, joined, rfl⟩
  · rintro ⟨nodeid, joined, rfl⟩
    exact ⟨nodeid, joined, rfl⟩

/-- The nodes of a change. -/
theorem Members.confchg (members : Members past space)
    (follows : change.Follows (view past))
    (idle : change.joined ≠ [] → cycleAt past = none)
    (distinct : change.joined.Nodup) (member : n ∈ view past)
    (kept : ¬ change.Removes n) :
    Members (past ++ [.confchg change])
      { space with
        nodes := (change.left.map (·.1)).foldl nodeLeft
          (change.joined.foldl nodeJoined space.nodes) } := by
  have same := cycleAt_confchg follows member kept
  constructor
  · exact members.init
  · intro m
    rw [view_append]
    constructor
    · rintro ⟨node, listed, rfl⟩
      obtain ⟨old | ⟨nodeid, joined, rfl⟩, stays⟩ := mem_changed.mp listed
      · have known := (members.ids _).mp ⟨node, old, rfl⟩
        exact (follows.view_kept _ known).resolve_left stays
      · exact follows.joined_members _ joined
    · intro listed
      rcases follows.members_known m listed with joined | ⟨known, stays⟩
      · refine ⟨_, mem_changed.mpr ⟨.inr ⟨m, joined, rfl⟩, ?_⟩, rfl⟩
        rintro ⟨gone, left, rfl⟩
        exact follows.joined_new _ joined (follows.left_members gone left)
      · obtain ⟨node, old, rfl⟩ := (members.ids m).mpr known
        exact ⟨node, mem_changed.mpr ⟨.inl old, stays⟩, rfl⟩
  · simp only [nodeLeft_foldl, nodeJoined_foldl]
    apply List.Nodup.sublist (List.filter_sublist.map _)
    rw [List.map_append, List.map_map]
    apply List.nodup_append.mpr
    refine ⟨members.distinct, ?_, ?_⟩
    · have ids : change.joined.map ((·.nodeid) ∘ fun nodeid =>
          { nodeid := nodeid, checkpointReady := false,
            inCycle := false : CycleNode }) = change.joined :=
        List.map_id change.joined
      rw [ids]
      exact distinct
    · rintro old known new joined rfl
      obtain ⟨node, listed, rfl⟩ := List.mem_map.mp known
      obtain ⟨nodeid, new, equal⟩ := List.mem_map.mp joined
      apply follows.joined_new nodeid new
      apply (members.ids nodeid).mp
      exact ⟨node, listed, equal.symm⟩
  · rw [same]
    exact members.running
  · rw [same]
    exact members.begun
  · intro start now node listed
    rw [same] at now
    obtain ⟨old | ⟨nodeid, joined, _⟩, _⟩ := mem_changed.mp listed
    · exact members.inCycle start now node old
    · have none_ := idle (List.ne_nil_of_mem joined)
      rw [now] at none_
      cases none_
  · intro node listed
    simp only [same, ready_confchg]
    obtain ⟨old | ⟨nodeid, joined, rfl⟩, _⟩ := mem_changed.mp listed
    · exact members.ready node old
    · refine ⟨fun set => (Bool.false_ne_true set).elim, ?_⟩
      rintro ⟨start, now, _⟩
      rw [idle (List.ne_nil_of_mem joined)] at now
      cases now
  · rw [same]
    exact members.unused

/-- In a cycle a change only takes nodes away. -/
theorem mem_changed_busy (busy : change.joined = []) {node : CycleNode} :
    node ∈ (change.left.map (·.1)).foldl nodeLeft
        (change.joined.foldl nodeJoined space.nodes) ↔
      node ∈ space.nodes ∧ ¬ change.Removes node.nodeid := by
  rw [mem_changed, busy]
  apply and_congr_left'
  refine ⟨fun either => either.resolve_right ?_, .inl⟩
  rintro ⟨nodeid, joined, _⟩
  exact List.not_mem_nil joined

/-- `deadlk_confchg` after the first. -/
theorem Tracks.deadlkConfchg (tracks : Tracks past space)
    (follows : change.Follows (view past))
    (idle : change.joined ≠ [] → cycleAt past = none)
    (distinct : change.joined.Nodup) (member : n ∈ view past)
    (kept : ¬ change.Removes n) (named : -1 ∉ change.members) :
    Tracks (past ++ [.confchg change]) (deadlkConfchg n change space).1 ∧
      Reaction past (past ++ [.confchg change]) n
        (deadlkConfchg n change space).2.sent := by
  have same := cycleAt_confchg follows member kept
  have members := tracks.toMembers.confchg follows idle distinct member kept
  have viewed : view (past ++ [Entry.confchg change]) = change.members :=
    view_append past _
  have listed := (follows.view_kept n member).resolve_left kept
  have initialised : ¬ (!space.confchgInit) = true := by
    rw [tracks.init]
    exact Bool.false_ne_true
  unfold Deadlock.deadlkConfchg
  rw [if_neg initialised]
  cases now : cycleAt past with
  | none =>
      have stopped : (!space.cycleRunning) = true := by
        rw [tracks.running, now]
        rfl
      simp only [if_pos stopped]
      have unset : ¬ space.allCheckpointsReady = true := by
        intro set
        have running := (tracks.all.mp set).1
        rw [now] at running
        exact Bool.false_ne_true running
      refine ⟨⟨members, ⟨fun set => (unset set).elim, ?_⟩,
        fun set => (unset set).elim⟩, .silent⟩
      rintro ⟨running, _⟩
      rw [same, now] at running
      exact (Bool.false_ne_true running).elim
  | some start =>
      have busy : change.joined = [] := by
        by_contra some_
        have none_ := idle some_
        rw [now] at none_
        cases none_
      have running : ¬ (!space.cycleRunning) = true := by
        rw [tracks.running, now]
        exact Bool.false_ne_true
      have calledAll : Called past n start →
          space.allCheckpointsReady = true := by
        intro called
        apply tracks.all.mpr
        exact ⟨by rw [now]; rfl,
          (tracks.ready_iff now).mpr called.ready⟩
      have stillReady : space.allCheckpointsReady = true →
          ∀ node ∈ (change.left.map (·.1)).foldl nodeLeft
            (change.joined.foldl nodeJoined space.nodes),
            node.checkpointReady = true := by
        intro set node there
        exact (tracks.all.mp set).2 node ((mem_changed_busy busy).mp there).1
      simp only [if_neg running]
      by_cases nobody : (change.left.map (·.1)).isEmpty = true
      · simp only [if_pos nobody]
        have nodes : (change.left.map (·.1)).foldl nodeLeft
            (change.joined.foldl nodeJoined space.nodes) = space.nodes := by
          rw [List.isEmpty_iff.mp nobody, busy]
          rfl
        rw [nodes] at members ⊢
        refine ⟨⟨members, ?_, tracks.low⟩, .silent⟩
        rw [same]
        exact tracks.all
      · simp only [if_neg nobody]
        by_cases set : space.allCheckpointsReady = true
        · rw [if_neg (by simp [set])]
          have purged := members.purged (same.trans now)
            ((change.left.map (·.1)).foldl (fun resources nodeid =>
              purgeLocks nodeid resources) space.resources)
          by_cases low : space.lowNodeid ∈ change.left.map (·.1)
          · rw [if_pos low]
            apply purged.runDeadlock (same.trans now) now
              (viewed ▸ named) (viewed ▸ listed) stillReady
            intro called
            obtain ⟨⟨node, there, lowest⟩, least⟩ := tracks.low set
            obtain ⟨own, ownThere, rfl⟩ := (tracks.ids n).mpr member
            have below : own.nodeid ≤ space.lowNodeid := by
              rw [← lowest]
              exact called.least _ ((tracks.ids _).mp ⟨node, there, rfl⟩)
            have equal := Int32.le_antisymm (least own ownThere) below
            rw [equal] at low
            exact kept (removes_iff.mp low)
          · rw [if_neg low]
            refine ⟨⟨purged, ⟨fun _ => ⟨?_, stillReady set⟩, fun _ => set⟩,
              fun _ => ?_⟩, .silent⟩
            · rw [same, now]
              rfl
            · obtain ⟨⟨node, there, lowest⟩, least⟩ := tracks.low set
              refine ⟨⟨node, (mem_changed_busy busy).mpr ⟨there, ?_⟩,
                lowest⟩, ?_⟩
              · rw [lowest]
                exact fun gone => low (removes_iff.mpr gone)
              · intro other otherThere
                exact least other ((mem_changed_busy busy).mp otherThere).1
        · rw [if_pos (by simp [set])]
          apply members.runDeadlock (same.trans now) now (viewed ▸ named)
            (viewed ▸ listed) stillReady
          exact fun called => set (calledAll called)

/-- The first `deadlk_confchg` of a node, while no cycle is running. -/
theorem tracks_first (n : Int32) (idle : cycleAt past = none)
    (distinct : change.members.Nodup) :
    Tracks (past ++ [.confchg change])
      (deadlkConfchg n change Space.new).1 := by
  have none_ : cycleAt (past ++ [Entry.confchg change]) = none := by
    rw [cycleAt_append, idle]
    simp only [cycleNext, ite_self]
  have new : deadlkConfchg n change Space.new =
      ({ Space.new with
          confchgInit := true
          nodes := change.members.map fun nodeid =>
            { nodeid := nodeid, checkpointReady := false,
              inCycle := false } }, .none) := by
    unfold Deadlock.deadlkConfchg
    rw [nodeJoined_foldl]
    rfl
  rw [new]
  constructor
  · constructor
    · rfl
    · intro m
      rw [view_append]
      constructor
      · rintro ⟨node, listed, rfl⟩
        obtain ⟨nodeid, member, rfl⟩ := List.mem_map.mp listed
        exact member
      · intro member
        exact ⟨_, List.mem_map_of_mem member, rfl⟩
    · have ids : (change.members.map fun nodeid =>
          { nodeid := nodeid, checkpointReady := false,
            inCycle := false : CycleNode }).map (·.nodeid) =
          change.members := by
        rw [List.map_map]
        exact List.map_id change.members
      simp only [ids]
      exact distinct
    · rw [none_]
      rfl
    · rw [none_]
      exact fun start now => (Option.some_ne_none start now.symm).elim
    · rw [none_]
      exact fun start now => (Option.some_ne_none start now.symm).elim
    · intro node listed
      obtain ⟨nodeid, _, rfl⟩ := List.mem_map.mp listed
      refine ⟨fun set => (Bool.false_ne_true set).elim, ?_⟩
      rintro ⟨start, now, _⟩
      rw [none_] at now
      cases now
    · exact fun _ => rfl
  · refine ⟨fun set => (Bool.false_ne_true set).elim, ?_⟩
    rintro ⟨now, _⟩
    rw [none_] at now
    exact (Bool.false_ne_true now).elim
  · exact fun set => (Bool.false_ne_true set).elim

end Confchg

end Dlm.Deadlock
