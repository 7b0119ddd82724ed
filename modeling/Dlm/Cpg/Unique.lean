import Dlm.Cpg.Group
import Dlm.Plock.Join

/-!
# One resource for every number

Every handler searches for a resource before it allocates one, except the
retrieval of a checkpoint.  Resources stay unique as long as the node has not
already allocated a resource that it then finds in the checkpoint.
-/

namespace Dlm.Cpg

open Plock ProcessGroup

/-- What an event leaves of the resources before `apply_changes`. -/
theorem Moved.distinct {env : Env} {answers : Answers}
    {ls before : Lockspace} {event : Event}
    (moved : Moved env answers ls event before)
    (distinct : Distinct ls.plocks.plockResources)
    (apart : retrieves env event ls = true →
      (answers.sections.map sectionNumber).Nodup ∧
        ∀ section_ ∈ answers.sections, sectionNumber section_ ∉
          ls.plocks.plockResources.map (·.number)) :
    Distinct before.plocks.plockResources := by
  cases moved with
  | quiet same =>
      rw [same.plocks]
      exact distinct
  | purged same =>
      apply purgeRemoved_invariant
        (fun ls => Distinct ls.plocks.plockResources)
      · intro ls nodeid holds
        exact purgePlocks_distinct env.plock holds nodeid false
      · rw [same.plocks]
        exact distinct
  | received message =>
      simp only [Lockspace.onPlocks, receive]
      split
      · exact distinct
      · exact receiveNow_distinct env.plock distinct message
  | stored kind accepts =>
      apply processSavedLoop_distinct env.plock
      cases plock : env.enablePlock with
      | false => simpa [retrievePlocks] using distinct
      | true =>
          obtain ⟨different, fresh⟩ :=
            apart (by
              simp [retrieves, Event.accepted, plock, kind, accepts])
          exact retrievePlocks_distinct env.plock distinct different fresh
  | read info => exact processPlocks_distinct env.plock distinct info
  | dropped aged => exact dropResources_distinct env.plock distinct aged

/-- A full checkpoint of unique resources has a section for every number at
most once. -/
theorem storePlocks_different (env : Plock.Env) {plocks : Plock.Lockspace}
    (distinct : Distinct plocks.plockResources) :
    ((Plock.storePlocks env plocks).map sectionNumber).Nodup := by
  refine List.Nodup.sublist ?_ distinct
  exact map_filterMap_sublist
    (fun r section_ stored =>
      (unpackSectionBuf_storeResource env stored).1) plocks.plockResources

theorem handled_distinct {settings : Settings} {n : Int32} {position : Nat}
    {delivery : Option Nat} {event : Event} {answers : Answers}
    {common : Common} {peer : Peer} {view : Option (List Int32)}
    (possible : event.Possible (settings.env n) view)
    (distinct : Distinct peer.ls.plocks.plockResources)
    (different : (common.sections.map sectionNumber).Nodup)
    (apart : retrieves (settings.env n) event peer.ls = true →
      (answers.sections.map sectionNumber).Nodup ∧
        ∀ section_ ∈ answers.sections, sectionNumber section_ ∉
          peer.ls.plocks.plockResources.map (·.number)) :
    (((handled settings n position delivery event answers common
        peer).shared.sections).map sectionNumber).Nodup ∧
      Distinct (handled settings n position delivery event answers common
        peer).state.ls.plocks.plockResources := by
  have before := (arrival_moved (settings.env n) answers event
    peer.ls).distinct distinct apart
  constructor
  · rcases storedBy_cases position common.checkpoint
        (handle (settings.env n) answers event peer.ls).2 with
      same | ⟨sections, member, stored⟩
    · simp only [handled, Common.sections, same]
      exact different
    · simp only [handled, Common.sections, stored]
      rw [handle_stores possible member]
      exact storePlocks_different (settings.env n).plock before
  · simp only [handled, handle_resources answers peer.ls possible]
    exact before

/-- The condition on the steps of a run: a node that retrieves the checkpoint
has no resource with a number that is in it. -/
def Unclashing (settings : Settings) (s : Group) : GroupLabel → Prop
  | .deliver n _ =>
      ∀ site ∈ s.site n, retrieving settings s n site = true →
        ∀ section_ ∈ s.shared.sections, sectionNumber section_ ∉
          site.state.ls.plocks.plockResources.map (·.number)
  | _ => True

instance (settings : Settings) (s : Group) (label : GroupLabel) :
    Decidable (Unclashing settings s label) := by
  rcases label <;> unfold Unclashing <;> infer_instance

theorem unique_upkeep (settings : Settings) :
    Upkeep (daemons settings) (Unclashing settings)
      (fun _ common => (common.sections.map sectionNumber).Nodup)
      (fun _ _ site => Distinct site.state.ls.plocks.plockResources) where
  born := fun _ _ _ _ _ _ _ => List.nodup_nil
  changed := fun _ _ upheld _ _ => upheld.global
  told := fun _ _ n site upheld _ _ here => upheld.each n site here
  ordered := fun _ n site _ _ upheld _ _ here _ =>
    ⟨upheld.global, upheld.each n site here⟩
  heard := fun _ _ _ _ _ m other upheld _ _ _ _ here _ =>
    upheld.each m other here
  delivered := by
    intro s n answers site entry upheld ready unclashing found here _
    refine handled_distinct
      (possible_of_entry upheld.lawful (settings.env n) here)
      (upheld.each n site found) upheld.global ?_
    intro retrieved
    have same : answers.sections.Perm s.shared.sections :=
      List.isPerm_iff.mp ready
    refine ⟨(same.map sectionNumber).nodup_iff.mpr upheld.global, ?_⟩
    intro section_ listed
    exact unclashing site found (by simp [retrieving, here, retrieved])
      section_ (same.mem_iff.mp listed)
  acted := by
    intro s n action site upheld _ found
    refine handled_distinct
      (action.1.possible (settings.env n) none)
      (upheld.each n site found) upheld.global ?_
    intro retrieved
    rw [retrieves, action.1.not_accepted, Bool.and_false] at retrieved
    cases retrieved

/-- If no node retrieves a checkpoint with the number of a resource that it
already has, no node ever has two resources with the same number. -/
theorem resources_unique (settings : Settings) (s : Group)
    (run : (daemons settings).system.Run (Unclashing settings) Group.start s)
    (n : Int32) (site : Site Payload Peer) (here : s.site n = some site) :
    (site.state.ls.plocks.plockResources.map (·.number)).Nodup :=
  ((unique_upkeep settings).run run List.nodup_nil).each n site here

/-- Node 1 claims resource 7, alone. -/
def firstClaims : List GroupLabel :=
  [.act 1 (.read lockSeven, calmAnswers 2), .order 1]

/-- The section for a resource of node 1. -/
def sectionSeven : Section :=
  { id := sectionId 7 1, data := [] }

/-- The start messages of both nodes, and node 1 announces its section. -/
def secondRetrieves : List GroupLabel :=
  [.order 1,
    .order 2,
    .deliver 1 (calmAnswers 4),
    .deliver 1 (calmAnswers 4),
    .deliver 2 (storedAnswers 4 [sectionSeven]),
    .deliver 2 (storedAnswers 4 [sectionSeven]),
    .order 1,
    .deliver 2 (storedAnswers 5 [sectionSeven])]

/-- Node 1 claims resource 7, then node 2 joins and retrieves it. -/
def claimThenJoin : List GroupLabel :=
  firstAlone ++ firstClaims ++
    [.deliver 1 (calmAnswers 2),
      .confchg secondJoins,
      .deliver 1 (calmAnswers 3),
      .deliver 2 (calmAnswers 3)] ++ secondRetrieves

/-- Node 2 joins, and the claim of node 1 reaches it before the start
messages. -/
def joinThenClaim : List GroupLabel :=
  firstAlone ++ [.confchg secondJoins] ++ firstClaims ++
    [.deliver 2 (calmAnswers 3),
      .deliver 2 (calmAnswers 3),
      .deliver 1 (calmAnswers 3),
      .deliver 1 (calmAnswers 3)] ++ secondRetrieves

theorem retrieved_resource_unique :
    ∃ site ∈ (Group.after claimThenJoin).site 2,
      site.state.ls.plocks.plockResources ≠ [] ∧
        (site.state.ls.plocks.plockResources.map (·.number)).Nodup := by
  have run : (daemons plainSettings).system.Run (Unclashing plainSettings)
      Group.start (Group.after claimThenJoin) :=
    System.run_of_follows claimThenJoin .refl (by decide)
  have retrieved : ((Group.after claimThenJoin).site 2).any (fun site =>
      !site.state.ls.plocks.plockResources.isEmpty) = true := by
    decide
  obtain ⟨site, here, found⟩ := (Option.any_eq_true _ _).mp retrieved
  refine ⟨site, here, ?_, resources_unique plainSettings _ run 2 site here⟩
  simpa using found

/-- Node 2 has two resources 7. -/
theorem claimed_resource_twice :
    ¬ ∀ s, (daemons plainSettings).system.Run (fun _ _ => True)
        Group.start s →
      ∀ n site, s.site n = some site →
        (site.state.ls.plocks.plockResources.map (·.number)).Nodup := by
  intro unique
  have run : (daemons plainSettings).system.Run (fun _ _ => True)
      Group.start (Group.after joinThenClaim) :=
    System.run_of_follows joinThenClaim .refl (by decide)
  have twice : ((Group.after joinThenClaim).site 2).any (fun site =>
      !decide (site.state.ls.plocks.plockResources.map (·.number)).Nodup) =
      true := by
    decide
  obtain ⟨site, here, repeated⟩ := (Option.any_eq_true _ _).mp twice
  have once := unique _ run 2 site here
  simp [once] at repeated

end Dlm.Cpg
