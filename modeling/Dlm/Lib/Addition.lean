import Dlm.Lib.OrderedBroadcast

/-!
# Adding to a simulation

More may be known of the members than that they follow the agreed state, and
more of the messages than that they are admissible.  An addition to a
simulation keeps such facts along the runs in which nobody joins or fails.
-/

namespace Dlm.Broadcast

section Narrow

variable {N M G : Type}

/-- Fewer messages are admissible, and no node fails. -/
def Agreement.narrow (agreement : Agreement N M G)
    (Also : G → N → M → Prop) : Agreement N M G :=
  { agreement with
    Admissible := fun g n body =>
      agreement.Admissible g n body ∧ Also g n body
    Fallible := False }

theorem Agreement.Admits.widen {agreement : Agreement N M G}
    {Also : G → N → M → Prop} {g : G} {entry : Entry N M}
    (admitted : (agreement.narrow Also).Admits g entry) :
    agreement.Admits g entry := by
  cases entry with
  | message sender body => exact admitted.1
  | down node => exact admitted.elim

end Narrow

section Addition

variable {N M A S D G : Type} [DecidableEq N]

/-- What is kept in addition to a simulation.  `Extra` is a property of the
members, and `Vow` what remains of it when a member lags behind. -/
structure Addition {alg : Algorithm N M A S D} {agreement : Agreement N M G}
    (sim : Simulation alg agreement) where
  Also : G → N → M → Prop
  Extra : N → S → List M → G → Prop
  Vow : N → List M → G → Prop
  okAct : N → A → S → Prop
  okDeliver : N → Entry N M → S → Prop
  vow : ∀ {n node out g}, sim.Rel n node out g → Extra n node out g →
    Vow n out g
  vow_head : ∀ {n body out g}, Vow n (body :: out) g → Also g n body
  vow_step : ∀ {n entry out g}, Vow n (own n [entry] ++ out) g →
    (agreement.narrow Also).Admits g entry → entry ≠ .down n →
    Vow n out (agreement.advance g entry)
  act : ∀ {n action node out g}, sim.Rel n node out g → Extra n node out g →
    okAct n action node →
    Extra n (alg.act n action node).1 (out ++ (alg.act n action node).2) g
  deliver : ∀ {n entry node out g},
    sim.Rel n node (own n [entry] ++ out) g →
    Extra n node (own n [entry] ++ out) g →
    (agreement.narrow Also).Admits g entry → entry ≠ .down n →
    sim.okDeliver n entry node (own n [entry] ++ out) →
    okDeliver n entry node →
    Extra n (alg.handle n entry node).1 (out ++ (alg.handle n entry node).2)
      (agreement.advance g entry)

variable {alg : Algorithm N M A S D} {agreement : Agreement N M G}
variable {sim : Simulation alg agreement}

/-- The simulation with the addition.  No snapshot is taken. -/
def Addition.simulation (addition : Addition sim) :
    Simulation alg (agreement.narrow addition.Also) :=
  { Rel := fun n node out g =>
      sim.Rel n node out g ∧ addition.Extra n node out g
    Promise := fun n out g => sim.Promise n out g ∧ addition.Vow n out g
    Vacant := sim.Vacant
    Waiting := sim.Waiting
    Saving := sim.Saving
    Stored := fun _ _ => False
    okAct := fun n action node =>
      sim.okAct n action node ∧ addition.okAct n action node
    okDeliver := fun n entry node out =>
      sim.okDeliver n entry node out ∧ addition.okDeliver n entry node
    okSnapshot := fun _ _ _ => False
    okJoin := sim.okJoin
    okWaiting := sim.okWaiting
    okSaving := sim.okSaving
    promise := fun rel => ⟨sim.promise rel.1, addition.vow rel.1 rel.2⟩
    promise_head := fun promise =>
      ⟨sim.promise_head promise.1, addition.vow_head promise.2⟩
    promise_step := fun promise admitted alive =>
      ⟨sim.promise_step promise.1 admitted.widen alive,
        addition.vow_step promise.2 admitted alive⟩
    act := fun rel ok =>
      ⟨sim.act rel.1 ok.1, addition.act rel.1 rel.2 ok.2⟩
    deliver := fun rel admitted alive ok =>
      ⟨sim.deliver rel.1 admitted.widen alive ok.1,
        addition.deliver rel.1 rel.2 admitted alive ok.1 ok.2⟩
    snapshot := fun _ ok => ok
    vacant_down := sim.vacant_down
    vacant_step := fun vacant admitted other =>
      sim.vacant_step vacant admitted.widen other
    waiting_fresh := sim.waiting_fresh
    waiting_deliver := sim.waiting_deliver
    save := sim.save
    saving_deliver := sim.saving_deliver
    restore := fun stored => stored.elim }

/-- The addition's own conditions on a step. -/
def Addition.Allowed (addition : Addition sim) (s : State N M S D) :
    Label N A → Prop
  | .act n action => addition.okAct n action (s.site n).node
  | .deliver n => ∀ entry, s.coming n = some entry →
      addition.okDeliver n entry (s.site n).node
  | .crash _ => False
  | .snapshot _ => False
  | _ => True

theorem Addition.allowed (addition : Addition sim) {s : State N M S D}
    {label : Label N A} (allowed : sim.Allowed s label)
    (more : addition.Allowed s label) :
    addition.simulation.Allowed s label := by
  cases label with
  | act n action => exact ⟨allowed.1, allowed.2, more⟩
  | order n => trivial
  | deliver n =>
      intro entry coming
      have first := allowed entry coming
      have second := more entry coming
      cases status : (s.site n).status with
      | absent => trivial
      | waiting =>
          rw [status] at first
          exact first
      | saving since =>
          rw [status] at first
          exact first
      | member =>
          rw [status] at first
          exact ⟨first, second⟩
  | crash n => exact more
  | snapshot n => exact more
  | join n position => exact allowed
  | save n => trivial
  | restore n index => exact allowed

/-- Where nothing has been sent yet, the addition has to hold of the
members. -/
theorem Addition.sound_start (addition : Addition sim) {s : State N M S D}
    (sound : sim.Sound s) (unsent : s.log = []) (untaken : s.snapshots = [])
    (extra : ∀ n, (s.site n).status = .member →
      addition.Extra n (s.site n).node (s.site n).queue agreement.start) :
    addition.simulation.Sound s := by
  refine ⟨?_, ?_, ?_⟩
  · rw [unsent]
    trivial
  · intro n
    have placed := sound.placed n
    unfold Simulation.Placed at placed ⊢
    cases status : (s.site n).status with
    | absent =>
        simp only [status] at placed ⊢
        exact placed
    | waiting =>
        simp only [status] at placed ⊢
        exact placed
    | saving since =>
        simp only [status] at placed ⊢
        exact placed
    | member =>
        simp only [status] at placed ⊢
        refine ⟨placed.1, placed.2.1, placed.2.2, ?_⟩
        have kept := extra n status
        rw [unsent, List.drop_nil, Agreement.upTo, List.take_nil]
        exact kept
  · rw [untaken]
    intro taken member
    cases member

/-- A member of a state that is sound with the addition. -/
theorem Addition.member {addition : Addition sim} {s : State N M S D} {n : N}
    (sound : addition.simulation.Sound s)
    (member : (s.site n).status = .member) :
    .down n ∉ s.log.drop (s.site n).position ∧
      sim.Rel n (s.site n).node (s.outstanding n)
        (agreement.upTo s.log (s.site n).position) ∧
      addition.Extra n (s.site n).node (s.outstanding n)
        (agreement.upTo s.log (s.site n).position) := by
  have placed := sound.placed n
  simp only [Simulation.Placed, member] at placed
  exact placed.2

end Addition

end Dlm.Broadcast
