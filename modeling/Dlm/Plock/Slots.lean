import Dlm.Plock.Checkpoint

/-!
# One resource number at a time

A lockspace whose resources have different numbers is a map from numbers to
resources, and every handler works on the resource with one number.
-/

namespace Dlm.Plock

variable {slot : Option Resource} {message : Message}

theorem map_filterMap_sublist {α β γ : Type} {f : α → Option β}
    {first : α → γ} {second : β → γ}
    (same : ∀ a b, f a = some b → second b = first a) (entries : List α) :
    ((entries.filterMap f).map second).Sublist (entries.map first) := by
  induction entries with
  | nil => exact .slnil
  | cons head later induction =>
      rw [List.filterMap_cons]
      cases kept : f head with
      | none => exact induction.cons _
      | some entry =>
          simp only [List.map_cons, same head entry kept]
          exact induction.cons_cons _

/-- No two resources have the same number. -/
def Distinct (resources : List Resource) : Prop :=
  (resources.map (·.number)).Nodup

/-- What the slot holds has the number. -/
def Numbered (number : UInt64) (slot : Option Resource) : Prop :=
  ∀ r ∈ slot, r.number = number

section Search

variable {resources : List Resource} {number other : UInt64}

theorem searchResource_cons (r : Resource) (later : List Resource)
    (number : UInt64) :
    searchResource (r :: later) number =
      if r.number = number then some r else searchResource later number := by
  by_cases same : r.number = number
  · simp [searchResource, same]
  · simp [searchResource, List.find?_cons_of_neg, same]

theorem searchResource_numbered (resources : List Resource)
    (number : UInt64) : Numbered number (searchResource resources number) := by
  intro r found
  have passed := List.find?_some found
  simpa using passed

theorem searchResource_eq_none_iff :
    searchResource resources number = none ↔
      number ∉ resources.map (·.number) := by
  simp [searchResource]

theorem Distinct.search_of_mem (distinct : Distinct resources) {r : Resource}
    (member : r ∈ resources) : searchResource resources r.number = some r := by
  induction resources with
  | nil => cases member
  | cons s later induction =>
      obtain ⟨fresh, rest⟩ := List.nodup_cons.mp distinct
      rw [searchResource_cons]
      rcases List.mem_cons.mp member with rfl | old
      · simp
      · have different : s.number ≠ r.number := by
          intro same
          apply fresh
          change s.number ∈ _
          rw [same]
          exact List.mem_map_of_mem old
        rw [if_neg different]
        exact induction rest old

/-- Replacing the resource of one number leaves the others as they were. -/
theorem searchResource_putSlot_ne (numbered : Numbered number slot)
    (different : other ≠ number) :
    searchResource (putSlot number slot resources) other =
      searchResource resources other := by
  have skipped (later : List Resource) :
      searchResource (slot.toList ++ later) other =
        searchResource later other := by
    cases slot with
    | none => rfl
    | some s =>
        have mismatch : s.number ≠ other := by
          rw [numbered s rfl]
          exact different.symm
        rw [Option.toList_some, List.singleton_append, searchResource_cons,
          if_neg mismatch]
  induction resources with
  | nil =>
      have alone := skipped []
      rw [List.append_nil] at alone
      exact alone
  | cons r later induction =>
      rw [putSlot]
      split
      · rename_i same
        have mismatch : r.number ≠ other := by
          rw [beq_iff_eq.mp same]
          exact different.symm
        rw [skipped, searchResource_cons, if_neg mismatch]
      · rw [searchResource_cons, searchResource_cons, induction]

theorem searchResource_putSlot_eq (distinct : Distinct resources)
    (numbered : Numbered number slot) :
    searchResource (putSlot number slot resources) number = slot := by
  induction resources with
  | nil =>
      cases slot with
      | none => rfl
      | some s => simp [putSlot, searchResource, numbered s rfl]
  | cons r later induction =>
      obtain ⟨fresh, rest⟩ := List.nodup_cons.mp distinct
      rw [putSlot]
      split
      · rename_i same
        cases slot with
        | none =>
            rw [Option.toList_none, List.nil_append,
              searchResource_eq_none_iff, ← beq_iff_eq.mp same]
            exact fresh
        | some s =>
            rw [Option.toList_some, List.singleton_append,
              searchResource_cons, if_pos (numbered s rfl)]
      · rename_i different
        have mismatch : r.number ≠ number := by simpa using different
        rw [searchResource_cons, if_neg mismatch]
        exact induction rest

theorem Distinct.putSlot (distinct : Distinct resources)
    (numbered : Numbered number slot) :
    Distinct (putSlot number slot resources) := by
  induction resources with
  | nil => cases slot <;> simp [Plock.putSlot, Distinct]
  | cons r later induction =>
      obtain ⟨fresh, rest⟩ := List.nodup_cons.mp distinct
      rw [Plock.putSlot]
      split
      · rename_i same
        cases slot with
        | none => exact rest
        | some s =>
            have equal : s.number = r.number :=
              (numbered s rfl).trans (beq_iff_eq.mp same).symm
            simpa [Distinct, equal] using distinct
      · rename_i different
        have mismatch : r.number ≠ number := by simpa using different
        refine List.nodup_cons.mpr ⟨?_, induction rest⟩
        intro member
        have found : searchResource (Plock.putSlot number slot later)
            r.number ≠ none := by
          rw [ne_eq, searchResource_eq_none_iff]
          exact fun absent => absent member
        rw [searchResource_putSlot_ne numbered mismatch] at found
        exact found (searchResource_eq_none_iff.mpr fresh)

end Search

section Numbers

variable {env : Env} {number : UInt64} {r : Resource}

theorem putResource_numbered (same : r.number = number) :
    Numbered number (putResource env r) := by
  intro s kept
  unfold putResource at kept
  split at kept
  · cases kept
    exact same
  · split at kept
    · cases kept
    · cases kept
      exact same

theorem receivePlock2_numbered (env : Env) (info : Info) (sender : Int32)
    (same : r.number = number) :
    Numbered number (receivePlock2 env info sender r).1 := by
  unfold receivePlock2
  cases info.optype with
  | lock =>
      have kept : (doWaiters env (lockRequest env info r).1).1.number =
          number := by
        simpa using same
      exact putResource_numbered kept
  | unlock =>
      have kept : (doWaiters env { r with
          locks := (unlockInternal [] r.locks info).2 }).1.number = number :=
        same
      exact putResource_numbered kept
  | get => simpa [Numbered] using same
  | unknown code => simpa [Numbered] using same

theorem findResource_numbered {create : Bool} (numbered : Numbered number slot)
    (found : findResource env number create slot = some r) :
    r.number = number := by
  cases slot with
  | none =>
      simp only [findResource] at found
      split at found
      · cases found
        rfl
      · cases found
  | some s =>
      cases found
      exact numbered _ rfl

theorem numbered_some (same : r.number = number) :
    Numbered number (some r) := by
  intro s kept
  cases kept
  exact same

theorem receivePlockFound_numbered (info : Info) (sender : Int32)
    (same : r.number = number) :
    Numbered number (receivePlockFound env info sender r).1 := by
  have executed := receivePlock2_numbered env info sender same
  have saved : Numbered number (some (savePendingPlock r info)) :=
    numbered_some same
  have kept := numbered_some same
  have exit := receivePlockFound_exit env info sender r
  generalize receivePlockFound env info sender r = result at exit ⊢
  cases exit with
  | executed => exact executed
  | saved => exact saved
  | ignored => exact kept

theorem receivePlock1_numbered (numbered : Numbered message.info.number slot) :
    Numbered message.info.number (receivePlock1 env message slot).1 := by
  unfold receivePlock1
  dsimp only
  split
  · exact numbered
  · split
    · exact numbered
    · split
      · split
        · simp [Numbered]
        · exact numbered_some rfl
      · rename_i r found
        exact receivePlockFound_numbered message.info message.nodeid
          (findResource_numbered numbered found)

theorem addPendingLoop_numbered (pending : List Info)
    (same : r.number = number) :
    Numbered number (addPendingLoop env pending r).1 := by
  induction pending generalizing r with
  | nil => exact numbered_some same
  | cons info later induction =>
      have first := receivePlock2_numbered env info env.ourNodeid same
      rw [addPendingLoop]
      cases received : receivePlock2 env info env.ourNodeid r with
      | mk slot effects =>
          rw [received] at first
          cases slot with
          | none => simp [Numbered]
          | some s => exact induction (first s rfl)

theorem receiveOwn1_numbered (numbered : Numbered message.info.number slot) :
    Numbered message.info.number (receiveOwn1 env message slot).1 := by
  unfold receiveOwn1
  split
  · simp [Numbered]
  · rename_i r found
    have same := findResource_numbered numbered found
    have kept := numbered_some same
    split
    · unfold receiveOwnFromUs
      split
      · split
        · exact kept
        · split
          · exact numbered_some same
          · exact kept
      · split
        · split
          · exact addPendingLoop_numbered r.pending same
          · split
            · exact kept
            · split
              · exact numbered_some same
              · exact kept
        · exact kept
    · unfold receiveOwnFromOther
      split
      · split
        · exact kept
        · split
          · exact kept
          · split
            · exact kept
            · exact numbered_some same
      · split
        · split
          · exact numbered_some same
          · split
            · exact numbered_some same
            · exact kept
        · exact kept

theorem clearSyncingFlag_number (info : Info) :
    (clearSyncingFlag r info).number = r.number := by
  unfold clearSyncingFlag
  split <;> rfl

theorem receiveSync1_numbered (numbered : Numbered message.info.number slot) :
    Numbered message.info.number (receiveSync1 env message slot).1 := by
  unfold receiveSync1
  cases slot with
  | none => exact numbered
  | some r =>
      have same := numbered r rfl
      dsimp only
      split
      · exact numbered_some ((clearSyncingFlag_number message.info).trans same)
      · split
        · exact numbered_some same
        · split
          · exact numbered_some same
          · exact numbered

theorem receiveDrop1_numbered (numbered : Numbered number slot) :
    Numbered number (receiveDrop1 slot) := by
  unfold receiveDrop1
  cases slot with
  | none => exact numbered
  | some r =>
      dsimp only
      split
      · exact numbered
      · split
        · exact numbered
        · split
          · simp [Numbered]
          · exact numbered

theorem receiveSlot_numbered (env : Env) (message : Message)
    (numbered : Numbered message.info.number slot) :
    Numbered message.info.number (receiveSlot env message slot).1 := by
  unfold receiveSlot
  cases message.type with
  | plock => exact receivePlock1_numbered numbered
  | own => exact receiveOwn1_numbered numbered
  | drop => exact receiveDrop1_numbered numbered
  | syncLock => exact receiveSync1_numbered numbered
  | syncWaiter => exact receiveSync1_numbered numbered

end Numbers

section Receive

variable {env : Env} {ls : Lockspace}

theorem receiveNow_distinct (env : Env)
    (distinct : Distinct ls.plockResources) (message : Message) :
    Distinct (receiveNow env ls message).1.plockResources :=
  distinct.putSlot (receiveSlot_numbered env message
    (searchResource_numbered ls.plockResources message.info.number))

theorem processPlock_numbered {info : Info}
    (numbered : Numbered info.number slot) :
    Numbered info.number (processPlock env info slot).1 := by
  have same : (slot.getD (newResource env info.number)).number =
      info.number := by
    cases slot with
    | none => rfl
    | some r => exact numbered r rfl
  unfold processPlock
  dsimp only
  split
  · exact numbered_some same
  · split
    · exact receivePlock2_numbered env info env.ourNodeid same
    · exact numbered_some same

theorem processPlocks_distinct (env : Env)
    (distinct : Distinct ls.plockResources) (info : Info) :
    Distinct (processPlocks env ls info).1.plockResources :=
  distinct.putSlot (processPlock_numbered
    (searchResource_numbered ls.plockResources info.number))

theorem processSavedLoop_distinct (env : Env)
    (distinct : Distinct ls.plockResources) (saved : List Message) :
    Distinct (processSavedLoop env saved ls).1.plockResources := by
  induction saved generalizing ls with
  | nil => exact distinct
  | cons message later induction =>
      exact induction (receiveNow_distinct env distinct message)

theorem purgeResource_number {nodeid : Int32} {unmount : Bool}
    {r s : Resource}
    (kept : (purgeResource env nodeid unmount r).1 = some s) :
    s.number = r.number := by
  rw [purgeResource_eq] at kept
  rw [putResource_eq_some kept]
  change (purgeOwner nodeid (purgeEntries nodeid unmount r)).1.number = _
  unfold purgeOwner
  split
  · rfl
  · rfl

theorem purgePlocks_distinct (env : Env)
    (distinct : Distinct ls.plockResources) (nodeid : Int32)
    (unmount : Bool) :
    Distinct (purgePlocks env ls nodeid unmount).1.plockResources := by
  refine List.Nodup.sublist ?_ distinct
  simp only [purgePlocks, List.filterMap_map]
  exact map_filterMap_sublist
    (fun r s kept => purgeResource_number kept) ls.plockResources

theorem dropResource_number (r : Resource) :
    (dropResource env r).1.number = r.number := by
  unfold dropResource
  split
  · rfl
  · split
    · rfl
    · rfl

theorem dropResources_distinct (env : Env)
    (distinct : Distinct ls.plockResources) (aged : UInt64 → Bool) :
    Distinct (dropResources env aged ls).1.plockResources := by
  rw [Distinct, dropResources_map dropResource_number]
  exact distinct

end Receive

/-- The number in the id of a section. -/
def sectionNumber (section_ : Section) : UInt64 :=
  (scanSectionId section_.id).1.getD 0

theorem retrievePlocks_distinct {ls : Lockspace} {sections : List Section}
    (env : Env) (distinct : Distinct ls.plockResources)
    (different : (sections.map sectionNumber).Nodup)
    (apart : ∀ section_ ∈ sections,
      sectionNumber section_ ∉ ls.plockResources.map (·.number)) :
    Distinct (retrievePlocks env sections ls).plockResources := by
  unfold Distinct retrievePlocks
  have restored : (sections.map (unpackSectionBuf env)).map (·.number) =
      sections.map sectionNumber := by
    rw [List.map_map]
    rfl
  dsimp only
  rw [List.map_append, restored]
  refine List.nodup_append.mpr ⟨distinct, different, ?_⟩
  intro number old other new same
  obtain ⟨section_, listed, rfl⟩ := List.mem_map.mp new
  rw [same] at old
  exact apart section_ listed old

end Dlm.Plock
