import Dlm.Lib.ProcessGroup

/-!
# Invariants of process groups

The log of a run is lawful, and every running process has a place in it: it is
a member of the group from the change that added it to the point up to which it
has read.  On top of that, a property of the log and the shared store and a
property of every process hold throughout a run if every kind of step upholds
them.
-/

namespace Dlm.ProcessGroup

section Log

variable {N M : Type}
variable {log : List (Entry N M)} {entry found : Entry N M} {index : Nat}

theorem view_append (log : List (Entry N M)) (entry : Entry N M) :
    view (log ++ [entry]) = advance (view log) entry := by
  simp [view]

theorem take_append_entry (within : index ≤ log.length) :
    (log ++ [entry]).take index = log.take index :=
  List.take_append_of_le_length within

theorem getElem?_append_of_some (here : log[index]? = some found) :
    (log ++ [entry])[index]? = some found := by
  obtain ⟨within, _⟩ := List.getElem?_eq_some_iff.mp here
  rw [List.getElem?_append_left within]
  exact here

theorem lt_length_of_entry (here : log[index]? = some entry) :
    index < log.length :=
  (List.getElem?_eq_some_iff.mp here).1

/-- An entry of a longer log is an old one or the last. -/
theorem getElem?_append_cases (here : (log ++ [entry])[index]? = some found) :
    log[index]? = some found ∨ (index = log.length ∧ found = entry) := by
  by_cases within : index < log.length
  · rw [List.getElem?_append_left within] at here
    exact .inl here
  · have last : index = log.length := by
      have below := lt_length_of_entry here
      rw [List.length_append, List.length_singleton] at below
      omega
    subst last
    rw [List.getElem?_concat_length] at here
    exact .inr ⟨rfl, (Option.some.inj here).symm⟩

theorem take_succ (here : log[index]? = some entry) :
    log.take (index + 1) = log.take index ++ [entry] := by
  rw [List.take_add_one, here]
  rfl

theorem view_take_succ (here : log[index]? = some entry) :
    view (log.take (index + 1)) = advance (view (log.take index)) entry := by
  rw [take_succ here, view_append]

/-- Every change of the log follows the members before it, and only members
send. -/
structure Lawful (log : List (Entry N M)) : Prop where
  follows : ∀ (index : Nat) (change : Confchg N),
    log[index]? = some (.confchg change) →
    change.Follows (view (log.take index))
  member : ∀ (index : Nat) (sender : N) (body : M),
    log[index]? = some (.message sender body) →
    sender ∈ view (log.take index)

theorem Lawful.confchg (lawful : Lawful log) {change : Confchg N}
    (follows : change.Follows (view log)) :
    Lawful (log ++ [.confchg change]) := by
  constructor
  · intro index other here
    rcases getElem?_append_cases here with old | ⟨rfl, same⟩
    · rw [take_append_entry (Nat.le_of_lt (lt_length_of_entry old))]
      exact lawful.follows index other old
    · cases same
      rw [List.take_left]
      exact follows
  · intro index sender body here
    rcases getElem?_append_cases here with old | ⟨rfl, same⟩
    · rw [take_append_entry (Nat.le_of_lt (lt_length_of_entry old))]
      exact lawful.member index sender body old
    · cases same

theorem Lawful.message (lawful : Lawful log) {n : N} (member : n ∈ view log)
    (body : M) :
    Lawful (log ++ [.message n body]) := by
  constructor
  · intro index change here
    rcases getElem?_append_cases here with old | ⟨rfl, same⟩
    · rw [take_append_entry (Nat.le_of_lt (lt_length_of_entry old))]
      exact lawful.follows index change old
    · cases same
  · intro index sender other here
    rcases getElem?_append_cases here with old | ⟨rfl, same⟩
    · rw [take_append_entry (Nat.le_of_lt (lt_length_of_entry old))]
      exact lawful.member index sender other old
    · cases same
      rw [List.take_left]
      exact member

/-- A member stays one unless the entry removes it. -/
theorem Lawful.mem_advance (lawful : Lawful log) {n : N}
    (here : log[index]? = some entry) (kept : ¬ entry.Removes n)
    (member : n ∈ view (log.take index)) :
    n ∈ view (log.take (index + 1)) := by
  rw [view_take_succ here]
  cases entry with
  | confchg change =>
      exact ((lawful.follows index change here).view_kept n
        member).resolve_left kept
  | message sender body => exact member

/-- The node is a member all the way between the two places. -/
def Together (log : List (Entry N M)) (n : N) (first last : Nat) : Prop :=
  ∀ index, first < index → index ≤ last → n ∈ view (log.take index)

theorem Together.append {n : N} {first last : Nat}
    (together : Together log n first last) (within : last ≤ log.length)
    (entry : Entry N M) :
    Together (log ++ [entry]) n first last := by
  intro index after before
  rw [take_append_entry (Nat.le_trans before within)]
  exact together index after before

end Log

section Place

variable {N M S : Type}

/-- How a running process stands to the log: it was added by the change it was
born at and has been a member as far as it has read; and if it is a member at
the end of the log, it has been one throughout. -/
structure Placed (log : List (Entry N M)) (n : N) (site : Site M S) :
    Prop where
  within : site.position ≤ log.length
  after : site.born ≤ site.position
  joins : ∃ change, log[site.born]? = some (.confchg change) ∧
    n ∈ change.joined
  member : Together log n site.born site.position
  stays : n ∈ view log → Together log n site.born log.length

variable {log : List (Entry N M)} {n : N} {site : Site M S}

theorem Placed.born_lt (placed : Placed log n site) :
    site.born < log.length := by
  obtain ⟨change, here, _⟩ := placed.joins
  exact lt_length_of_entry here

/-- A process that reads a message has read its own joining. -/
theorem Placed.begun (placed : Placed log n site) {sender : N} {body : M}
    (here : log[site.position]? = some (.message sender body)) :
    site.born < site.position := by
  apply Nat.lt_of_le_of_ne placed.after
  intro same
  obtain ⟨change, added, _⟩ := placed.joins
  rw [same, here] at added
  cases added

/-- A process moved to another state and queue. -/
theorem Placed.moved {other : Site M S} (placed : Placed log n site)
    (born : other.born = site.born) (position : other.position =
      site.position) : Placed log n other := by
  refine ⟨?_, ?_, ?_, ?_, ?_⟩
  · rw [position]
    exact placed.within
  · rw [born, position]
    exact placed.after
  · rw [born]
    exact placed.joins
  · rw [born, position]
    exact placed.member
  · rw [born]
    exact placed.stays

/-- The log grows by an entry that does not make a stranger a member. -/
theorem Placed.append (placed : Placed log n site) {entry : Entry N M}
    (known : n ∈ advance (view log) entry → n ∈ view log) :
    Placed (log ++ [entry]) n site := by
  refine ⟨?_, placed.after, ?_, placed.member.append placed.within entry, ?_⟩
  · rw [List.length_append]
    exact Nat.le_add_right_of_le placed.within
  · obtain ⟨change, here, joined⟩ := placed.joins
    exact ⟨change, getElem?_append_of_some here, joined⟩
  · intro member index above below
    rw [List.length_append, List.length_singleton] at below
    rw [view_append] at member
    by_cases last : index = log.length + 1
    · rw [last, List.take_of_length_le (by simp), view_append]
      exact member
    · have earlier : index ≤ log.length := by omega
      rw [take_append_entry earlier]
      exact placed.stays (known member) index above earlier

theorem Placed.message (placed : Placed log n site) (sender : N)
    (body : M) : Placed (log ++ [.message sender body]) n site :=
  placed.append fun known => known

theorem Placed.read (placed : Placed log n site) (lawful : Lawful log)
    {entry : Entry N M} (here : log[site.position]? = some entry)
    (kept : ¬ entry.Removes n) : Placed log n site.advance := by
  refine ⟨lt_length_of_entry here, Nat.le_succ_of_le placed.after,
    placed.joins, ?_, placed.stays⟩
  intro index above below
  by_cases last : index = site.position + 1
  · subst last
    by_cases first : site.position = site.born
    · obtain ⟨change, added, joined⟩ := placed.joins
      rw [first, view_take_succ added]
      exact (lawful.follows _ change added).joined_members n joined
    · apply lawful.mem_advance here kept
      exact placed.member _
        (Nat.lt_of_le_of_ne placed.after (Ne.symm first)) (Nat.le_refl _)
  · have earlier : index ≤ site.position := by
      simp only [Site.advance] at below
      omega
    exact placed.member index above earlier

end Place

section Runs

variable {N M I A S D : Type} [DecidableEq N]

/-- The log is lawful, every process has its place, and the two properties
hold. -/
structure Upheld (global : List (Entry N M) → D → Prop)
    (each : List (Entry N M) → N → Site M S → Prop) (s : State N M S D) :
    Prop where
  lawful : Lawful s.log
  placed : ∀ n site, s.site n = some site → Placed s.log n site
  global : global s.log s.shared
  each : ∀ n site, s.site n = some site → each s.log n site

/-- Every kind of step upholds the two properties. -/
structure Upkeep (proc : Process N M I A S D)
    (allowed : State N M S D → Label N I A → Prop)
    (global : List (Entry N M) → D → Prop)
    (each : List (Entry N M) → N → Site M S → Prop) : Prop where
  born : ∀ s change n, Upheld global each s →
    proc.enabled s (.confchg change) → allowed s (.confchg change) →
    n ∈ change.joined →
    each (s.log ++ [.confchg change]) n (proc.site n s.log.length)
  changed : ∀ s change, Upheld global each s →
    proc.enabled s (.confchg change) → allowed s (.confchg change) →
    global (s.log ++ [.confchg change]) s.shared
  told : ∀ s change n site, Upheld global each s →
    proc.enabled s (.confchg change) → allowed s (.confchg change) →
    s.site n = some site → each (s.log ++ [.confchg change]) n site
  ordered : ∀ s n site body later, Upheld global each s →
    n ∈ view s.log → allowed s (.order n) → s.site n = some site →
    site.queue = body :: later →
    global (s.log ++ [.message n body]) s.shared ∧
      each (s.log ++ [.message n body]) n { site with queue := later }
  heard : ∀ s n site body later m other, Upheld global each s →
    n ∈ view s.log → allowed s (.order n) → s.site n = some site →
    site.queue = body :: later → s.site m = some other → m ≠ n →
    each (s.log ++ [.message n body]) m other
  delivered : ∀ s n input site entry, Upheld global each s →
    proc.ready input s.shared = true → allowed s (.deliver n input) →
    s.site n = some site → s.log[site.position]? = some entry →
    ¬ entry.Removes n →
    global s.log (proc.deliver n site.position entry input s.shared
      site.state).shared ∧
      each s.log n (site.advance.commit
        (proc.deliver n site.position entry input s.shared site.state))
  acted : ∀ s n action site, Upheld global each s →
    allowed s (.act n action) → s.site n = some site →
    global s.log (proc.act n site.position action s.shared
      site.state).shared ∧
      each s.log n (site.commit
        (proc.act n site.position action s.shared site.state))

variable {proc : Process N M I A S D}
  {allowed : State N M S D → Label N I A → Prop}
  {global : List (Entry N M) → D → Prop}
  {each : List (Entry N M) → N → Site M S → Prop}
variable {s : State N M S D} {n : N} {site : Site M S} {change : Confchg N}
  {outcome : Outcome M S D} {shared : D}

theorem State.put_cases {m : N} {new : Option (Site M S)}
    (here : (s.put n new).site m = some site) :
    (m = n ∧ new = some site) ∨ (m ≠ n ∧ s.site m = some site) := by
  by_cases same : m = n
  · subst same
    simp only [State.put, Function.update_self] at here
    exact .inl ⟨rfl, here⟩
  · simp only [State.put, Function.update_of_ne same] at here
    exact .inr ⟨same, here⟩

theorem Process.reform_cases (here : proc.reform s change n = some site) :
    (n ∈ change.joined ∧ site = proc.site n s.log.length) ∨
      (n ∉ change.joined ∧ s.site n = some site) := by
  unfold Process.reform at here
  split at here
  · rename_i joined
    exact .inl ⟨joined, (Option.some.inj here).symm⟩
  · rename_i absent
    split at here
    · cases here
    · exact .inr ⟨absent, here⟩

omit [DecidableEq N] in
/-- A new process has its place. -/
theorem Placed.born (joined : n ∈ change.joined)
    (members : n ∈ change.members) :
    Placed (s.log ++ [.confchg change]) n
      (proc.site n s.log.length) := by
  have whole : (s.log ++ [Entry.confchg change]).take (s.log.length + 1) =
      s.log ++ [Entry.confchg change] :=
    List.take_of_length_le (by simp)
  refine ⟨?_, Nat.le_refl _, ⟨change, List.getElem?_concat_length, joined⟩,
    fun index above below => ?_, fun _ index above below => ?_⟩
  · rw [List.length_append]
    exact Nat.le_add_right _ _
  · exact absurd (Nat.lt_of_lt_of_le above below) (Nat.lt_irrefl _)
  · have last : index = s.log.length + 1 := by
      simp only [Process.site, List.length_append, List.length_singleton]
        at above below
      omega
    rw [last, whole, view_append]
    exact members

theorem Upheld.settle {next : Site M S} (upheld : Upheld global each s)
    (place : Placed s.log n next) (kept : global s.log outcome.shared)
    (held : each s.log n (next.commit outcome)) :
    Upheld global each (s.settle n next outcome) := by
  refine ⟨upheld.lawful, ?_, kept, ?_⟩
  · intro m other here
    rcases State.put_cases here with ⟨rfl, same⟩ | ⟨_, old⟩
    · cases same
      exact place.moved rfl rfl
    · exact upheld.placed m other old
  · intro m other here
    rcases State.put_cases here with ⟨rfl, same⟩ | ⟨_, old⟩
    · cases same
      exact held
    · exact upheld.each m other old

theorem Upkeep.next (upkeep : Upkeep proc allowed global each)
    (s : State N M S D) (label : Label N I A)
    (enabled : proc.enabled s label) (permitted : allowed s label)
    (upheld : Upheld global each s) :
    Upheld global each (proc.next s label) := by
  cases label with
  | confchg change =>
      have follows := enabled.1
      refine ⟨upheld.lawful.confchg follows, ?_,
        upkeep.changed s change upheld enabled permitted, ?_⟩
      · intro n site here
        rcases Process.reform_cases here with ⟨joined, rfl⟩ | ⟨absent, old⟩
        · exact .born joined (follows.joined_members n joined)
        · apply (upheld.placed n site old).append
          intro member
          rcases follows.members_known n member with new | ⟨known, _⟩
          · exact (absent new).elim
          · exact known
      · intro n site here
        rcases Process.reform_cases here with ⟨joined, rfl⟩ | ⟨_, old⟩
        · exact upkeep.born s change n upheld enabled permitted joined
        · exact upkeep.told s change n site upheld enabled permitted old
  | order n =>
      obtain ⟨member, _⟩ := enabled
      cases found : s.site n with
      | none => simpa [Process.next, found] using upheld
      | some site =>
          cases waiting : site.queue with
          | nil => simpa [Process.next, found, waiting] using upheld
          | cons body later =>
              simp only [Process.next, found, waiting]
              obtain ⟨kept, held⟩ := upkeep.ordered s n site body later
                upheld member permitted found waiting
              refine ⟨upheld.lawful.message member body, ?_, kept, ?_⟩
              · intro m other here
                rcases State.put_cases here with ⟨rfl, same⟩ | ⟨_, old⟩
                · cases same
                  have place := upheld.placed m site found
                  exact (place.message m body).moved rfl rfl
                · exact (upheld.placed m other old).message n body
              · intro m other here
                rcases State.put_cases here with ⟨rfl, same⟩ | ⟨apart, old⟩
                · cases same
                  exact held
                · exact upkeep.heard s n site body later m other upheld
                    member permitted found waiting old apart
  | deliver n input =>
      obtain ⟨_, ready⟩ := enabled
      cases found : s.site n with
      | none => simpa [Process.next, found] using upheld
      | some site =>
          cases here : s.log[site.position]? with
          | none => simpa [Process.next, found, here] using upheld
          | some entry =>
              by_cases removed : entry.Removes n
              · simp only [Process.next, found, here, if_pos removed]
                refine ⟨upheld.lawful, ?_, upheld.global, ?_⟩
                · intro m other left
                  rcases State.put_cases left with ⟨_, gone⟩ | ⟨_, old⟩
                  · cases gone
                  · exact upheld.placed m other old
                · intro m other left
                  rcases State.put_cases left with ⟨_, gone⟩ | ⟨_, old⟩
                  · cases gone
                  · exact upheld.each m other old
              · simp only [Process.next, found, here, if_neg removed]
                obtain ⟨kept, held⟩ := upkeep.delivered s n input site entry
                  upheld ready permitted found here removed
                exact upheld.settle
                  ((upheld.placed n site found).read upheld.lawful here
                    removed) kept held
  | act n action =>
      cases found : s.site n with
      | none => simpa [Process.next, found] using upheld
      | some site =>
          simp only [Process.next, found]
          obtain ⟨kept, held⟩ := upkeep.acted s n action site upheld
            permitted found
          exact upheld.settle (upheld.placed n site found) kept held

omit [DecidableEq N] in
theorem Upheld.empty (initially : global [] shared) :
    Upheld global each (State.empty shared : State N M S D) :=
  ⟨⟨fun _ _ here => (nomatch here), fun _ _ _ here => (nomatch here)⟩,
    fun _ _ here => (nomatch here), initially,
    fun _ _ here => (nomatch here)⟩

/-- What every step upholds holds throughout a run. -/
theorem Upkeep.run (upkeep : Upkeep proc allowed global each)
    (run : proc.system.Run allowed (State.empty shared) s)
    (initially : global [] shared) :
    Upheld global each s :=
  run.invariant (Upheld global each) (.empty initially)
    fun state label enabled permitted upheld =>
      upkeep.next state label enabled permitted upheld

/-- What every step upholds may be used as a condition on the steps. -/
theorem Upkeep.strengthen (upkeep : Upkeep proc allowed global each)
    (run : proc.system.Run allowed (State.empty shared) s)
    (initially : global [] shared) :
    proc.system.Run
      (fun state label => allowed state label ∧ Upheld global each state)
      (State.empty shared) s :=
  run.strengthen (.empty initially)
    (fun state label enabled permitted upheld =>
      upkeep.next state label enabled permitted upheld)
    fun _ _ _ permitted upheld => ⟨permitted, upheld⟩

/-- After the handler the same is known of the messages as before, and it is
known of those that the handler sends. -/
structure Outcome.Vouches (known : D → N → M → Prop) (before : D) (n : N)
    (outcome : Outcome M S D) : Prop where
  kept : ∀ m body, known before m body → known outcome.shared m body
  sent : ∀ body ∈ outcome.sent, known outcome.shared n body

/-- It is known of every message of the log and of the queues. -/
structure Vouched (known : D → N → M → Prop) (s : State N M S D) :
    Prop where
  log : ∀ (index : Nat) n body, s.log[index]? = some (.message n body) →
    known s.shared n body
  queue : ∀ n site, s.site n = some site → ∀ body ∈ site.queue,
    known s.shared n body

variable {known : D → N → M → Prop}

theorem Vouched.settle {next : Site M S} (vouched : Vouched known s)
    (found : s.site n = some site) (queue : next.queue = site.queue)
    (vouches : outcome.Vouches known s.shared n) :
    Vouched known (s.settle n next outcome) := by
  constructor
  · intro index m body here
    exact vouches.kept m body (vouched.log index m body here)
  · intro m other here body waiting
    rcases State.put_cases here with ⟨rfl, same⟩ | ⟨_, old⟩
    · cases same
      rcases List.mem_append.mp waiting with queued | new
      · rw [queue] at queued
        exact vouches.kept m body (vouched.queue m site found body queued)
      · exact vouches.sent body new
    · exact vouches.kept m body (vouched.queue m other old body waiting)

theorem Vouched.confchg (vouched : Vouched known s) (change : Confchg N) :
    Vouched known (proc.next s (.confchg change)) := by
  constructor
  · intro index n body here
    rcases getElem?_append_cases here with old | ⟨_, same⟩
    · exact vouched.log index n body old
    · cases same
  · intro n site here body waiting
    rcases Process.reform_cases here with ⟨_, rfl⟩ | ⟨_, old⟩
    · exact (List.not_mem_nil waiting).elim
    · exact vouched.queue n site old body waiting

theorem Vouched.order (vouched : Vouched known s) {body : M} {later : List M}
    (found : s.site n = some site) (waiting : site.queue = body :: later) :
    Vouched known
      { s.put n (some { site with queue := later }) with
        log := s.log ++ [.message n body] } := by
  constructor
  · intro index sender other here
    rcases getElem?_append_cases here with old | ⟨_, same⟩
    · exact vouched.log index sender other old
    · cases same
      apply vouched.queue n site found
      rw [waiting]
      exact List.mem_cons_self
  · intro m left here other queued
    rcases State.put_cases here with ⟨rfl, same⟩ | ⟨_, old⟩
    · cases same
      apply vouched.queue m site found
      rw [waiting]
      exact List.mem_cons_of_mem _ queued
    · exact vouched.queue m left old other queued

/-- If every handler vouches for what it sends, it is known of all messages
throughout a run. -/
theorem Vouched.run (run : proc.system.Run allowed (State.empty shared) s)
    (delivered : ∀ s n input site entry, allowed s (.deliver n input) →
      s.site n = some site → s.log[site.position]? = some entry →
      (proc.deliver n site.position entry input s.shared
        site.state).Vouches known s.shared n)
    (acted : ∀ s n action site, allowed s (.act n action) →
      s.site n = some site →
      (proc.act n site.position action s.shared site.state).Vouches known
        s.shared n) :
    Vouched known s := by
  apply run.invariant (Vouched known)
  · constructor
    · intro _ _ _ impossible
      cases impossible
    · intro _ _ impossible
      cases impossible
  · intro state label _ permitted vouched
    cases label with
    | confchg change => exact vouched.confchg change
    | order n =>
        cases found : state.site n with
        | none => simpa [Process.system, Process.next, found] using vouched
        | some site =>
            cases waiting : site.queue with
            | nil =>
                simpa [Process.system, Process.next, found, waiting]
                  using vouched
            | cons body later =>
                simp only [Process.system, Process.next, found, waiting]
                exact vouched.order found waiting
    | deliver n input =>
        cases found : state.site n with
        | none => simpa [Process.system, Process.next, found] using vouched
        | some site =>
            cases here : state.log[site.position]? with
            | none =>
                simpa [Process.system, Process.next, found, here]
                  using vouched
            | some entry =>
                simp only [Process.system, Process.next, found, here]
                split
                · refine ⟨vouched.log, ?_⟩
                  intro m other left
                  rcases State.put_cases left with ⟨_, gone⟩ | ⟨_, old⟩
                  · cases gone
                  · exact vouched.queue m other old
                · exact vouched.settle found rfl
                    (delivered state n input site entry permitted found here)
    | act n action =>
        cases found : state.site n with
        | none => simpa [Process.system, Process.next, found] using vouched
        | some site =>
            simp only [Process.system, Process.next, found]
            exact vouched.settle found rfl
              (acted state n action site permitted found)

end Runs

end Dlm.ProcessGroup
