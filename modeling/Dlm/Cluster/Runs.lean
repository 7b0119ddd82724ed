import Dlm.Cluster.Simulation
import Dlm.Lib.Addition

/-!
# Runs with a fixed membership

The condition under which the nodes of a fixed membership follow the agreed
state: no operation and no drop reaches a node between its release of the
resource and the return of its `OWN 0`.
-/

namespace Dlm.Cluster

open Plock Broadcast

instance (r : Resource) (body : Body) : Decidable (Disturbs r body) :=
  inferInstanceAs (Decidable (_ ∨ _))

/-- The membership does not change. -/
def fixedMembership : Label → Prop
  | .act _ _ => True
  | .order _ => True
  | .deliver _ => True
  | _ => False

instance (label : Label) : Decidable (fixedMembership label) := by
  rcases label <;> unfold fixedMembership <;> infer_instance

/-- What comes next does not disturb a node that waits for its `OWN 0`. -/
def Config.spares (c : Config) (out : List Body) :
    Option (Entry Nodeid Body) → Option Resource → Prop
  | some (.message _ body), some r =>
      releaseBody c.number ∈ out → ¬Disturbs r body
  | _, _ => True

instance (c : Config) (out : List Body)
    (coming : Option (Entry Nodeid Body)) (slot : Option Resource) :
    Decidable (c.spares out coming slot) := by
  rcases coming with _ | _ | _ <;> rcases slot <;> unfold Config.spares <;>
    infer_instance

def Config.undisturbed (c : Config) (s : State) : Label → Prop
  | .deliver n => c.spares (s.outstanding n) (s.coming n) (c.resource s n)
  | _ => True

instance (c : Config) (s : State) (label : Label) :
    Decidable (c.undisturbed s label) := by
  rcases label <;> unfold Config.undisturbed <;> infer_instance

/-- The steps with a fixed membership and without disturbances. -/
def Config.orderly (c : Config) (s : State) (label : Label) : Prop :=
  fixedMembership label ∧ c.undisturbed s label

instance (c : Config) (s : State) (label : Label) :
    Decidable (c.orderly s label) :=
  inferInstanceAs (Decidable (_ ∧ _))

/-- Resources are dropped, nobody joins. -/
def dropping : Mode :=
  { drops := true, stores := fun _ => false, foreign := false }

section Runs

variable {c : Config} {s : State} {label : Label} {members : Nodeid → Bool}

theorem initial_settled : Settled (initial members) := by
  intro n
  cases present : members n with
  | true => exact .inr (by simp [initial, present])
  | false => exact .inl (by simp [initial, present])

theorem initial_unbroken : Unbroken (initial members) := by
  intro node member
  cases member

theorem initial_sound {mode : Mode}
    (tidy : c.Tidy mode) :
    (c.simulation .none tidy).Sound (initial members) := by
  refine ⟨trivial, ?_, ?_⟩
  · intro n
    cases present : members n with
    | true =>
        simp only [Simulation.Placed, initial, present, if_true]
        refine ⟨Nat.le_refl _, by simp, none, rfl, ?_⟩
        exact .absent (by simp [own])
    | false =>
        simp only [Simulation.Placed, initial, present]
        intro position _ _
        rintro ⟨_, _, owned⟩
        simp [Agreement.upTo, Agreement.after, Config.agreement] at owned
  · intro taken member
    cases member

theorem Config.undisturbed.calm {mode : Mode} {n : Nodeid} {p : Nodeid}
    {body : Body} (undisturbed : c.undisturbed s (.deliver n))
    (coming : s.coming n = some (.message p body)) :
    c.Calm mode (c.resource s n) (s.outstanding n) body := by
  intro _ r found
  simp only [Config.undisturbed, coming, found] at undisturbed
  exact undisturbed

theorem fixedMembership.joining (fixed : fixedMembership label) :
    label.joining = false := by
  cases label <;> first | rfl | cases fixed

theorem fixedMembership.crashing (fixed : fixedMembership label) :
    label.crashing = false := by
  cases label <;> first | rfl | cases fixed

theorem fixedMembership.status (fixed : fixedMembership label)
    (n : Nodeid) :
    ((c.system.next s label).site n).status = (s.site n).status := by
  have kept {m : Nodeid} {site : Site Body Daemon}
      (same : site.status = (s.site m).status) :
      ((s.put m site).site n).status = (s.site n).status := by
    by_cases here : n = m
    · subst here
      simpa [State.put] using same
    · simp [State.put, here]
  cases label with
  | act m action => exact kept rfl
  | order m =>
      simp only [Config.system, Algorithm.system, Algorithm.next]
      cases (s.site m).queue with
      | nil => rfl
      | cons body later => exact kept rfl
  | deliver m =>
      simp only [Config.system, Algorithm.system, Algorithm.next]
      cases s.coming m with
      | none => rfl
      | some entry => exact kept rfl
  | crash m => cases fixed
  | snapshot m => cases fixed
  | join m position => cases fixed
  | save m => cases fixed
  | restore m index => cases fixed

/-- The nodes of a run with a fixed membership are those of its start. -/
theorem status_of_run {start : State}
    (run : c.system.Run (fun _ => fixedMembership) start s) (n : Nodeid) :
    (s.site n).status = (start.site n).status :=
  run.invariant (fun state => (state.site n).status = (start.site n).status)
    rfl fun _ _ _ fixed same => (fixed.status n).trans same

/-- The condition is the one that the simulation asks for. -/
theorem Config.orderly.allowed (orderly : c.orderly s label)
    (settled : Settled s) (unbroken : Unbroken s)
    (tidy : c.Tidy dropping) :
    (c.simulation .none tidy).Allowed s label := by
  obtain ⟨fixed, undisturbed⟩ := orderly
  cases label with
  | act n action =>
      exact ⟨settled n, fun kept => by cases kept⟩
  | order n => trivial
  | deliver n =>
      intro entry coming
      rcases settled n with absent | member
      · rw [absent]
        trivial
      · rw [member]
        cases entry with
        | message p body => exact undisturbed.calm coming
        | down node =>
            exact absurd (List.mem_of_getElem? coming) (unbroken node)
  | crash n => cases fixed
  | snapshot n => cases fixed
  | join n position => cases fixed
  | save n => cases fixed
  | restore n index => cases fixed

theorem dropping_tidy : c.Tidy dropping := by
  intro n stores
  cases stores

section Orderly

variable {allowed : State → Label → Prop}
variable (run : c.system.Run allowed (initial members) s)
variable (orderly : ∀ state label, allowed state label →
  c.orderly state label)

include run orderly

/-- With a fixed membership nobody is joining and nobody has failed. -/
theorem run_of_orderly :
    c.system.Run (fun state label =>
      (allowed state label ∧ Settled state) ∧ Unbroken state)
      (initial members) s :=
  run_unbroken
    (run_settled run initial_settled
      fun _ _ permitted => (orderly _ _ permitted).1.joining)
    initial_unbroken
    fun _ _ permitted => (orderly _ _ permitted.1).1.crashing

/-- An addition is kept by the orderly runs that meet its conditions. -/
theorem sound_of_addition
    (addition : Addition (c.simulation .none dropping_tidy))
    (initially : ∀ n, addition.Extra n Daemon.idle [] .none)
    (more : ∀ state label, allowed state label →
      addition.Allowed state label) :
    addition.simulation.Sound s := by
  apply Simulation.sound_of_run (run_of_orderly run orderly)
  · exact addition.sound_start (initial_sound dropping_tidy) rfl rfl
      fun n _ => initially n
  · intro state label permitted
    apply addition.allowed
    · exact (orderly _ _ permitted.1.1).allowed permitted.1.2 permitted.2 _
    · exact more _ _ permitted.1.1

end Orderly

/-- In every orderly run the daemons follow the agreed state. -/
theorem sound_of_orderly (run : c.system.Run c.orderly (initial members) s) :
    (c.simulation .none dropping_tidy).Sound s :=
  Simulation.sound_of_run (run_of_orderly run fun _ _ permitted => permitted)
    (initial_sound dropping_tidy)
    fun _ _ permitted => permitted.1.1.allowed permitted.1.2 permitted.2 _

theorem settled_of_orderly
    (run : c.system.Run c.orderly (initial members) s) : Settled s :=
  run.invariant Settled initial_settled
    fun _ _ _ permitted settled => settled.next permitted.1.joining

/-- The agreed state of the runs with a fixed membership. -/
abbrev Config.agreedAt (c : Config) (s : State) (position : Nat) : Agreed :=
  (c.agreement dropping .none).upTo s.log position

/-- A member of a sound state, its resource and its agreed state. -/
theorem Simulation.Sound.member {mode : Mode} {start : Agreed} {n : Nodeid}
    {tidy : c.Tidy mode} (sound : (c.simulation start tidy).Sound s)
    (member : (s.site n).status = .member) :
    (s.site n).position ≤ s.log.length ∧
      (s.site n).node.ls = hosting false (c.resource s n) ∧
      c.Follows mode n (c.resource s n) (s.outstanding n)
        ((c.agreement mode start).upTo s.log (s.site n).position) := by
  have placed := sound.placed n
  simp only [Simulation.Placed, member] at placed
  obtain ⟨bound, _, slot, ls, follows⟩ := placed
  have found : c.resource s n = slot := by
    rw [Config.resource, ls]
    exact searchResource_toList follows.numbered
  rw [found]
  exact ⟨bound, ls, follows⟩

theorem follows_of_orderly {n : Nodeid}
    (run : c.system.Run c.orderly (initial members) s)
    (present : (s.site n).status ≠ .absent) :
    (s.site n).position ≤ s.log.length ∧
      (s.site n).node.ls = hosting false (c.resource s n) ∧
      c.Follows dropping n (c.resource s n) (s.outstanding n)
        (c.agreedAt s (s.site n).position) :=
  Simulation.Sound.member (sound_of_orderly run)
    ((settled_of_orderly run n).resolve_left present)

end Runs

end Dlm.Cluster
