import Dlm.Lib.OrderedBroadcast

/-!
# Members that stay

More may be known of the nodes that are members from the start of a run to its
end than of those that join.
-/

namespace Dlm.Broadcast

variable {N M A S D G : Type} [DecidableEq N]

/-- What is kept of the residents, the nodes that are members throughout. -/
structure Residency {alg : Algorithm N M A S D}
    {agreement : Agreement N M G} (sim : Simulation alg agreement) where
  resident : N → Prop
  Extra : N → S → G → Prop
  act : ∀ {n action node out g}, sim.Rel n node out g → Extra n node g →
    sim.okAct n action node → Extra n (alg.act n action node).1 g
  deliver : ∀ {n entry node out g},
    sim.Rel n node (own n [entry] ++ out) g → Extra n node g →
    agreement.Admits g entry → entry ≠ .down n →
    sim.okDeliver n entry node (own n [entry] ++ out) →
    Extra n (alg.handle n entry node).1 (agreement.advance g entry)

variable {alg : Algorithm N M A S D} {agreement : Agreement N M G}
variable {sim : Simulation alg agreement} {s : State N M S D}

/-- The residents are members, and what is kept of them holds. -/
def Residency.Held (residency : Residency sim) (s : State N M S D) : Prop :=
  ∀ n, residency.resident n → (s.site n).status = .member ∧
    residency.Extra n (s.site n).node
      (agreement.upTo s.log (s.site n).position)

/-- No resident fails. -/
def Residency.Spares (residency : Residency sim) : Label N A → Prop
  | .crash n => ¬residency.resident n
  | _ => True

variable {residency : Residency sim}

/-- A step that changes one site, with a log that may have grown. -/
theorem Residency.Held.put (held : residency.Held s)
    (placed : ∀ n, residency.resident n → (s.site n).position ≤ s.log.length)
    {n : N} {site : Site M S} {more : List (Entry N M)}
    (changed : residency.resident n → site.status = .member ∧
      residency.Extra n site.node
        (agreement.upTo (s.log ++ more) site.position)) :
    residency.Held { s.put n site with log := s.log ++ more } := by
  intro other resident
  by_cases same : other = n
  · subst same
    simpa [State.put] using changed resident
  · have kept := held other resident
    rw [← Agreement.upTo_append (placed other resident) more] at kept
    simpa [State.put, same] using kept

/-- A step that changes one site and not the log. -/
theorem Residency.Held.put_site (held : residency.Held s)
    (placed : ∀ n, residency.resident n → (s.site n).position ≤ s.log.length)
    {n : N} {site : Site M S}
    (changed : residency.resident n → site.status = .member ∧
      residency.Extra n site.node (agreement.upTo s.log site.position)) :
    residency.Held (s.put n site) := by
  have grown : residency.Held
      { s.put n site with log := s.log ++ [] } :=
    held.put placed (by simpa using changed)
  simpa [State.put] using grown

/-- Every allowed step keeps what is known of the residents. -/
theorem Residency.Held.step (held : residency.Held s) (sound : sim.Sound s)
    (label : Label N A) (enabled : enabled s label)
    (allowed : sim.Allowed s label) (spared : residency.Spares label) :
    residency.Held (alg.next s label) := by
  have member {n : N} (resident : residency.resident n) :
      (s.site n).status = .member ∧ (s.site n).position ≤ s.log.length ∧
        .down n ∉ s.log.drop (s.site n).position ∧
        sim.Rel n (s.site n).node (s.outstanding n)
          (agreement.upTo s.log (s.site n).position) := by
    have status := (held n resident).1
    have placed := sound.placed n
    simp only [Simulation.Placed, status] at placed
    exact ⟨status, placed⟩
  have placed (n : N) (resident : residency.resident n) :
      (s.site n).position ≤ s.log.length := (member resident).2.1
  cases label with
  | act n action =>
      apply held.put_site placed
      intro resident
      obtain ⟨status, _, _, rel⟩ := member resident
      exact ⟨status, residency.act rel (held n resident).2 allowed.2⟩
  | order n =>
      simp only [Algorithm.next]
      cases (s.site n).queue with
      | nil => exact held
      | cons body later =>
          apply held.put placed
          intro resident
          rw [Agreement.upTo_append (placed n resident)]
          exact held n resident
  | deliver n =>
      simp only [Algorithm.next]
      cases coming : s.coming n with
      | none => exact held
      | some entry =>
          apply held.put_site placed
          intro resident
          obtain ⟨status, _, alive, rel⟩ := member resident
          refine ⟨status, ?_⟩
          have split := drop_of_coming coming
          have chain := sound.chain.drop (s.site n).position
          have ok := allowed entry coming
          rw [split] at alive chain
          simp only [status, State.outstanding, split] at ok
          rw [State.outstanding, split] at rel
          have parts : own n (entry ::
              s.log.drop ((s.site n).position + 1)) = own n [entry] ++ _ :=
            own_append n [entry] _
          rw [parts, List.append_assoc] at rel ok
          have next := residency.deliver rel (held n resident).2 chain.1
            (fun down => alive (by simp [down])) ok
          rw [← Agreement.upTo_of_coming coming] at next
          exact next
  | crash n =>
      apply held.put placed
      intro resident
      exact absurd resident spared
  | snapshot n => exact held
  | join n position =>
      apply held.put_site placed
      intro resident
      have absent : (s.site n).status = .absent := enabled.1
      rw [(member resident).1] at absent
      cases absent
  | save n =>
      apply held.put_site placed
      intro resident
      have waiting : (s.site n).status = .waiting := enabled
      rw [(member resident).1] at waiting
      cases waiting
  | restore n index =>
      simp only [Algorithm.next]
      cases found : s.snapshots[index]? with
      | none => exact held
      | some taken =>
          apply held.put_site placed
          intro resident
          have saving : (s.site n).status.isSaving = true := enabled.1
          rw [(member resident).1] at saving
          cases saving

end Dlm.Broadcast
