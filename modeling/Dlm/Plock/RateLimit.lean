import Dlm.Lib.Run

/-!
# The rate limit on operations

`limit_plocks` opens a new window for `plock_rate_limit` operations once a
second.  It is called by `process_plocks` before an operation is read and by
the main loop while the plock device is ignored, and both calls may open a
window.  The counter of the operations read is also the counter that tells
where a window ends.
-/

namespace Dlm.Plock

/-- `cfgd_enable_plock` and `cfgd_plock_rate_limit`. -/
structure RateConfig where
  enablePlock : Bool
  plockRateLimit : Nat

/-- The statics of the reader, with times in microseconds.  The last three
fields are not in the source: the operations read altogether, those read since
`plock_rate_last` was last updated, if it was, and the numbers of operations
read between two updates. -/
structure PlockReader where
  plockReadCount : UInt32
  plockRateLast : Nat
  plockRateDelays : UInt32
  pollIgnorePlock : Bool
  clock : Nat
  reads : Nat
  window : Option Nat
  windows : List Nat

/-- The reader that `setup_plocks` leaves. -/
def PlockReader.start (now : Nat) : PlockReader :=
  { plockReadCount := 0
    plockRateLast := now
    plockRateDelays := 0
    pollIgnorePlock := false
    clock := now
    reads := 0
    window := none
    windows := [] }

def timeDiffMs (begun ended : Nat) : Nat :=
  (ended - begun) / 1000

/-- `limit_plocks` without flow control. -/
def limitPlocks (config : RateConfig) (now : Nat) (reader : PlockReader) :
    Nat × PlockReader :=
  if config.plockRateLimit = 0 ∨ reader.plockReadCount = 0 then (0, reader)
  else if reader.plockReadCount.toNat % config.plockRateLimit = 0 then
    if timeDiffMs reader.plockRateLast now < 1000 then
      (2, { reader with plockRateDelays := reader.plockRateDelays + 1 })
    else
      (0, { reader with
        plockRateLast := now
        plockReadCount := reader.plockReadCount + 1
        window := some 0
        windows := reader.windows ++ reader.window.toList })
  else (0, reader)

/-- An operation of the kernel, with what `find_ls_id` says of its
lockspace. -/
structure KernelOp where
  lockspaceKnown : Bool

/-- `process_plocks` as far as it is about the rate; `op` is what the read
from the plock device returns, if it succeeds. -/
def processPlocksRate (config : RateConfig) (now : Nat)
    (op : Option KernelOp) (reader : PlockReader) : PlockReader :=
  let (limited, reader) := limitPlocks config now reader
  if limited ≠ 0 then { reader with pollIgnorePlock := true }
  else
    match op with
    | none => reader
    | some op =>
        let reader :=
          { reader with
            reads := reader.reads + 1
            window := reader.window.map (· + 1) }
        if !config.enablePlock then reader
        else if !op.lockspaceKnown then reader
        else
          let count := reader.plockReadCount + 1
          { reader with
            plockReadCount := count
            plockRateDelays :=
              if count.toNat % 1000 = 0 then 0
              else reader.plockRateDelays }

/-- The end of a round of the main loop. -/
def roundRate (config : RateConfig) (now : Nat) (reader : PlockReader) :
    PlockReader :=
  if reader.pollIgnorePlock then
    let (limited, reader) := limitPlocks config now reader
    if limited = 0 then { reader with pollIgnorePlock := false } else reader
  else reader

inductive RateEvent where
  | process (now : Nat) (op : Option KernelOp)
  | round (now : Nat)

def RateEvent.now : RateEvent → Nat
  | .process now _ => now
  | .round now => now

/-- The clock does not go back, and an ignored device is not read. -/
def rateEnabled (reader : PlockReader) : RateEvent → Prop
  | .process now _ => reader.clock ≤ now ∧ reader.pollIgnorePlock = false
  | .round now => reader.clock ≤ now

def rateNext (config : RateConfig) (reader : PlockReader)
    (event : RateEvent) : PlockReader :=
  let reader := { reader with clock := event.now }
  match event with
  | .process now op => processPlocksRate config now op reader
  | .round now => roundRate config now reader

def rateSystem (config : RateConfig) : System PlockReader RateEvent :=
  { enabled := rateEnabled
    next := rateNext config }

/-- The kernel has an operation whenever one is read. -/
def Available : RateEvent → Prop
  | .process _ op => op.isSome = true
  | .round _ => True

/-- The condition on the steps of a run: every operation that is read is for a
known lockspace, and the counter does not come to its end. -/
def Counted (reader : PlockReader) (event : RateEvent) : Prop :=
  reader.plockReadCount.toNat + 2 < UInt32.size ∧
    match event with
    | .process _ op => ∀ read ∈ op, read.lockspaceKnown = true
    | .round _ => True

/-- How far the counter is in the current window, and the windows before. -/
structure Paced (limit : Nat) (count : UInt32) (window : Option Nat)
    (windows : List Nat) : Prop where
  ended : ∀ read ∈ windows, read + 1 = limit
  current : ∀ read ∈ window, read + 1 ≤ limit ∧ count ≠ 0 ∧
    count.toNat % limit = (read + 1) % limit

section Pace

variable {limit : Nat} {count : UInt32} {window : Option Nat}
variable {windows : List Nat}

theorem toNat_succ (below : count.toNat + 1 < UInt32.size) :
    (count + 1).toNat = count.toNat + 1 := by
  rw [UInt32.toNat_add]
  exact Nat.mod_eq_of_lt below

theorem succ_ne_zero (below : count.toNat + 1 < UInt32.size) : count + 1 ≠ 0 := by
  intro zero
  have number := toNat_succ below
  rw [zero] at number
  cases number

theorem Paced.opened (paced : Paced limit count window windows)
    (positive : 0 < limit) (below : count.toNat + 1 < UInt32.size)
    (boundary : count.toNat % limit = 0) :
    Paced limit (count + 1) (some 0) (windows ++ window.toList) := by
  constructor
  · intro read member
    rcases List.mem_append.mp member with earlier | last
    · exact paced.ended read earlier
    · obtain ⟨most, _, place⟩ :=
        paced.current read (Option.mem_toList.mp last)
      rw [boundary] at place
      have whole := Nat.le_of_dvd (Nat.succ_pos read)
        (Nat.dvd_of_mod_eq_zero place.symm)
      omega
  · intro read first
    cases first
    refine ⟨positive, succ_ne_zero below, ?_⟩
    rw [toNat_succ below, Nat.add_mod, boundary, Nat.zero_add, Nat.zero_add,
      Nat.mod_mod]

/-- Inside a window there is room for another operation. -/
theorem Paced.room (paced : Paced limit count window windows)
    (inside : count = 0 ∨ count.toNat % limit ≠ 0) :
    ∀ read ∈ window, read + 2 ≤ limit := by
  intro read current
  obtain ⟨most, started, place⟩ := paced.current read current
  rcases inside with fresh | inside
  · exact (started fresh).elim
  · have different : read + 1 ≠ limit := by
      intro whole
      rw [place, whole, Nat.mod_self] at inside
      exact inside rfl
    omega

/-- One operation is read and counted. -/
theorem Paced.counted (paced : Paced limit count window windows)
    (below : count.toNat + 1 < UInt32.size)
    (room : ∀ read ∈ window, read + 2 ≤ limit) :
    Paced limit (count + 1) (window.map (· + 1)) windows := by
  refine ⟨paced.ended, ?_⟩
  intro read current
  cases window with
  | none => cases current
  | some old =>
      cases current
      obtain ⟨_, _, place⟩ := paced.current old rfl
      refine ⟨room old rfl, succ_ne_zero below, ?_⟩
      rw [toNat_succ below, Nat.add_mod, place, ← Nat.add_mod]

end Pace

/-- The reader keeps the pace. -/
def PlockReader.Paced (limit : Nat) (reader : PlockReader) : Prop :=
  Plock.Paced limit reader.plockReadCount reader.window reader.windows

section Steps

variable {config : RateConfig} {reader : PlockReader} {now : Nat}

/-- What `limit_plocks` does: it refuses, opens a window, or finds the window
open. -/
theorem limitPlocks_cases (config : RateConfig) (now : Nat)
    (reader : PlockReader) :
    (∃ delays, limitPlocks config now reader =
        (2, { reader with plockRateDelays := delays })) ∨
      (reader.plockReadCount.toNat % config.plockRateLimit = 0 ∧
        limitPlocks config now reader =
          (0, { reader with
            plockRateLast := now
            plockReadCount := reader.plockReadCount + 1
            window := some 0
            windows := reader.windows ++ reader.window.toList })) ∨
      ((config.plockRateLimit = 0 ∨ reader.plockReadCount = 0 ∨
          reader.plockReadCount.toNat % config.plockRateLimit ≠ 0) ∧
        limitPlocks config now reader = (0, reader)) := by
  unfold limitPlocks
  split
  · rename_i unlimited
    refine .inr (.inr ⟨?_, rfl⟩)
    rcases unlimited with off | fresh
    · exact .inl off
    · exact .inr (.inl fresh)
  · split
    · rename_i ended
      split
      · exact .inl ⟨_, rfl⟩
      · exact .inr (.inl ⟨ended, rfl⟩)
    · rename_i inside
      exact .inr (.inr ⟨.inr (.inr inside), rfl⟩)

theorem limitPlocks_paced
    (paced : reader.Paced config.plockRateLimit)
    (several : 2 ≤ config.plockRateLimit)
    (below : reader.plockReadCount.toNat + 2 < UInt32.size) :
    (limitPlocks config now reader).2.Paced config.plockRateLimit ∧
      ((limitPlocks config now reader).1 = 0 →
        (limitPlocks config now reader).2.plockReadCount.toNat + 1 < UInt32.size ∧
          ∀ read ∈ (limitPlocks config now reader).2.window,
            read + 2 ≤ config.plockRateLimit) := by
  have once : reader.plockReadCount.toNat + 1 < UInt32.size := by omega
  rcases limitPlocks_cases config now reader with
    ⟨delays, refused⟩ | ⟨boundary, opened⟩ | ⟨inside, open_⟩
  · rw [refused]
    refine ⟨paced, ?_⟩
    intro zero
    cases zero
  · rw [opened]
    refine ⟨Paced.opened paced (by omega) once boundary, ?_⟩
    intro _
    constructor
    · change (reader.plockReadCount + 1).toNat + 1 < UInt32.size
      rw [toNat_succ once]
      exact below
    · intro read first
      cases first
      exact several
  · rw [open_]
    refine ⟨paced, fun _ => ⟨once, Paced.room paced ?_⟩⟩
    rcases inside with off | inside
    · omega
    · exact inside

theorem processPlocksRate_paced
    (paced : reader.Paced config.plockRateLimit)
    (several : 2 ≤ config.plockRateLimit)
    (enabled : config.enablePlock = true)
    (below : reader.plockReadCount.toNat + 2 < UInt32.size)
    {op : Option KernelOp} (known : ∀ read ∈ op, read.lockspaceKnown = true) :
    (processPlocksRate config now op reader).Paced
      config.plockRateLimit := by
  obtain ⟨limited, roomy⟩ := limitPlocks_paced paced several below
  unfold processPlocksRate
  dsimp only
  split
  · exact limited
  · rename_i allowed
    obtain ⟨below, room⟩ := roomy (Decidable.not_not.mp allowed)
    cases op with
    | none => exact limited
    | some op =>
        simp only [enabled, known op rfl, Bool.not_true, Bool.false_eq_true,
          if_false]
        exact Paced.counted limited below room

theorem roundRate_paced
    (paced : reader.Paced config.plockRateLimit)
    (several : 2 ≤ config.plockRateLimit)
    (below : reader.plockReadCount.toNat + 2 < UInt32.size) :
    (roundRate config now reader).Paced config.plockRateLimit := by
  obtain ⟨limited, _⟩ := limitPlocks_paced paced several below
  unfold roundRate
  split
  · dsimp only
    split
    · exact limited
    · exact limited
  · exact paced

theorem rateNext_paced (paced : reader.Paced config.plockRateLimit)
    (several : 2 ≤ config.plockRateLimit)
    (enabled : config.enablePlock = true) {event : RateEvent}
    (counted : Counted reader event) :
    (rateNext config reader event).Paced config.plockRateLimit := by
  obtain ⟨below, known⟩ := counted
  have timed : ({ reader with clock := event.now } : PlockReader).Paced
      config.plockRateLimit :=
    paced
  cases event with
  | process now op =>
      exact processPlocksRate_paced timed several enabled below known
  | round now => exact roundRate_paced timed several below

end Steps

/-- With a limit of at least two, known lockspaces and a counter that does not
wrap, at most `plock_rate_limit` operations and at least one are read between
two updates of `plock_rate_last`. -/
theorem window_bounded (config : RateConfig)
    (several : 2 ≤ config.plockRateLimit)
    (enabled : config.enablePlock = true) (now : Nat) (reader : PlockReader)
    (run : (rateSystem config).Run Counted (.start now) reader) :
    ∀ count ∈ reader.windows, count ≤ config.plockRateLimit ∧ 1 ≤ count := by
  have paced : reader.Paced config.plockRateLimit := by
    apply run.invariant (PlockReader.Paced config.plockRateLimit)
    · refine ⟨?_, ?_⟩
      · intro count absent
        cases absent
      · intro count absent
        cases absent
    · intro reader event _ counted paced
      exact rateNext_paced paced several enabled counted
  intro count member
  have exactly := paced.ended count member
  omega

instance (reader : PlockReader) (event : RateEvent) :
    Decidable (rateEnabled reader event) := by
  rcases event <;> unfold rateEnabled <;> infer_instance

instance (config : RateConfig) (reader : PlockReader) (event : RateEvent) :
    Decidable ((rateSystem config).enabled reader event) :=
  inferInstanceAs (Decidable (rateEnabled reader event))

instance (reader : PlockReader) (event : RateEvent) :
    Decidable (Counted reader event) := by
  rcases event <;> unfold Counted <;> infer_instance

instance : (event : RateEvent) → Decidable (Available event)
  | .process _ op => inferInstanceAs (Decidable (op.isSome = true))
  | .round _ => inferInstanceAs (Decidable True)

/-- The device is read until it is ignored, once a second. -/
def readsPerSecond : List RateEvent :=
  [.process 0 (some ⟨true⟩), .process 0 (some ⟨true⟩),
    .process 0 (some ⟨true⟩), .round 1000000,
    .process 1000000 (some ⟨true⟩), .process 1000000 (some ⟨true⟩),
    .round 2000000]

theorem readsPerSecond_bounded :
    ∃ reader, (rateSystem ⟨true, 2⟩).Run Counted (.start 0) reader ∧
      reader.windows = [1] ∧
      ∀ count ∈ reader.windows, count ≤ 2 ∧ 1 ≤ count := by
  have run : (rateSystem ⟨true, 2⟩).Run Counted (.start 0)
      ((rateSystem ⟨true, 2⟩).follow (.start 0) readsPerSecond) :=
    System.run_of_follows readsPerSecond .refl (by decide)
  exact ⟨_, run, by decide, window_bounded ⟨true, 2⟩ (by decide) rfl 0 _ run⟩

/-- With a limit of one the main loop uses up the window that it opens. -/
def windowUsedUp : List RateEvent :=
  [.process 0 (some ⟨true⟩), .process 0 (some ⟨true⟩), .round 1000000,
    .process 1000000 (some ⟨true⟩), .round 2000000]

theorem windowUsedUp_starves :
    ¬∀ (config : RateConfig), 1 ≤ config.plockRateLimit →
      ∀ now reader,
        (rateSystem config).Run (fun _ event => Available event) (.start now)
          reader →
        reader.reads < UInt32.size →
        ∀ count ∈ reader.windows,
          count ≤ config.plockRateLimit ∧ 1 ≤ count := by
  intro claimed
  have run : (rateSystem ⟨true, 1⟩).Run (fun _ event => Available event)
      (.start 0) ((rateSystem ⟨true, 1⟩).follow (.start 0) windowUsedUp) :=
    System.run_of_follows windowUsedUp .refl (by decide)
  have empty : 0 ∈ ((rateSystem ⟨true, 1⟩).follow (.start 0)
      windowUsedUp).windows := by
    decide
  have read := (claimed ⟨true, 1⟩ (by decide) 0 _ run (by decide) 0 empty).2
  cases read

end Dlm.Plock
