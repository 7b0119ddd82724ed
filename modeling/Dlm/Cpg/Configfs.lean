import Dlm.Cpg.Barrier
import Mathlib.Data.List.Nodup

/-!
# The members in configfs

`start_kernel` tells the kernel the members of the newest change through the
directories below `/sys/kernel/config/dlm/cluster/spaces`: a member that is
gone loses its directory, a new one gets one, and the directory of a member
that has left and come back is removed and made again.  A failed system call
ends `set_configfs_members` in the middle.
-/

namespace Dlm.Cpg

open Plock ProcessGroup

/-- The directory of a node below `nodes` and what was written to its files.
`inode` tells a directory from an earlier one of the same name. -/
structure NodeDir where
  id : Int32
  inode : Nat
  nodeid : Option Int32
  weight : Option Int32
  deriving DecidableEq, Repr

/-- The directory of a lockspace.  Names are unique, and a new directory gets
an inode that no directory has had. -/
structure Configfs where
  present : Bool
  nodes : List NodeDir
  inodes : Nat
  distinct : (nodes.map (·.id)).Nodup
  older : ∀ dir ∈ nodes, dir.inode < inodes

def Configfs.empty : Configfs :=
  { present := false
    nodes := []
    inodes := 0
    distinct := List.nodup_nil
    older := by simp }

variable {fs : Configfs} {id : Int32} {newMembers members renew : List Int32}
  {view : Option (List Int32)} {event : Event}

/-- `update_dir_members`. -/
def Configfs.ids (fs : Configfs) : List Int32 :=
  fs.nodes.map (·.id)

/-- `rmdir` of a node's directory, which fails when there is none. -/
def Configfs.rmdir (fs : Configfs) (id : Int32) : Option Configfs :=
  if id ∈ fs.ids then
    some
      { fs with
        nodes := fs.nodes.filter (·.id != id)
        distinct := fs.distinct.sublist
          (List.filter_sublist.map NodeDir.id)
        older := fun dir member =>
          fs.older dir (List.mem_filter.mp member).1 }
  else none

/-- `create_path` of a node's directory, which succeeds also when there is
one. -/
def Configfs.createPath (fs : Configfs) (id : Int32) : Configfs :=
  if known : id ∈ fs.ids then fs
  else
    { fs with
      nodes := fs.nodes ++
        [{ id := id, inode := fs.inodes, nodeid := none, weight := none }]
      inodes := fs.inodes + 1
      distinct := by
        rw [List.map_append, List.map_singleton, List.nodup_append]
        refine ⟨fs.distinct, List.nodup_singleton _, ?_⟩
        intro other member new same
        rw [List.mem_singleton.mp same]
        rintro rfl
        exact known member
      older := by
        intro dir member
        rcases List.mem_append.mp member with old | new
        · exact Nat.lt_succ_of_lt (fs.older dir old)
        · rw [List.mem_singleton.mp new]
          exact Nat.lt_succ_self _ }

/-- The files `nodeid` and `weight` of a node. -/
def NodeDir.written (id weight : Int32) (dir : NodeDir) : NodeDir :=
  if dir.id = id then { dir with nodeid := some id, weight := some weight }
  else dir

@[simp] theorem NodeDir.written_id (id weight : Int32) (dir : NodeDir) :
    (dir.written id weight).id = dir.id := by
  unfold written
  split
  · rfl
  · rfl

@[simp] theorem NodeDir.written_inode (id weight : Int32) (dir : NodeDir) :
    (dir.written id weight).inode = dir.inode := by
  unfold written
  split
  · rfl
  · rfl

def Configfs.writeFiles (fs : Configfs) (id weight : Int32) : Configfs :=
  { fs with
    nodes := fs.nodes.map (NodeDir.written id weight)
    distinct := by
      simpa [Function.comp_def] using fs.distinct
    older := by
      intro dir member
      obtain ⟨old, here, rfl⟩ := List.mem_map.mp member
      simpa using fs.older old here }

/-- The loop of `set_configfs_members` over the old members. -/
def removeMembers (newMembers : List Int32) :
    List Int32 → Configfs → Int × Configfs
  | [], fs => (0, fs)
  | id :: later, fs =>
      if id ∈ newMembers then removeMembers newMembers later fs
      else
        match fs.rmdir id with
        | none => (-1, fs)
        | some fs => removeMembers newMembers later fs

/-- Make the directory of a member and write its files; `weight` is
`get_weight`. -/
def Configfs.addMember (weight : Int32 → Int32) (fs : Configfs)
    (id : Int32) : Configfs :=
  (fs.createPath id).writeFiles id (weight id)

/-- The loop of `set_configfs_members` over the new members. -/
def addMembers (weight : Int32 → Int32) (renew oldMembers : List Int32) :
    List Int32 → Configfs → Int × Configfs
  | [], fs => (0, fs)
  | id :: later, fs =>
      if id ∈ renew then
        match fs.rmdir id with
        | none => (-1, fs)
        | some fs =>
            addMembers weight renew oldMembers later (fs.addMember weight id)
      else if id ∈ oldMembers then
        addMembers weight renew oldMembers later fs
      else
        addMembers weight renew oldMembers later (fs.addMember weight id)

/-- `set_configfs_members`, when every system call succeeds except `rmdir` of
a directory that is missing.  Without members the lockspace's own directory is
removed too. -/
def setConfigfsMembers (weight : Int32 → Int32)
    (newMembers renew : List Int32) (fs : Configfs) : Int × Configfs :=
  let fs := { fs with present := true }
  let oldMembers := fs.ids
  let (rv, fs) := removeMembers newMembers oldMembers fs
  if rv ≠ 0 then (rv, fs)
  else
    addMembers weight renew oldMembers newMembers
      (if newMembers.isEmpty then { fs with present := false } else fs)

section Directories

variable {weight : Int32 → Int32} {oldMembers : List Int32}

theorem Configfs.mem_ids :
    id ∈ fs.ids ↔ ∃ dir ∈ fs.nodes, dir.id = id :=
  List.mem_map

theorem Configfs.mem_ids_of_filter {rest : Configfs} {other : Int32}
    (nodes : rest.nodes = fs.nodes.filter (·.id != id)) :
    other ∈ rest.ids ↔ other ∈ fs.ids ∧ other ≠ id := by
  simp only [mem_ids, nodes, List.mem_filter, bne_iff_ne]
  constructor
  · rintro ⟨dir, ⟨here, different⟩, rfl⟩
    exact ⟨⟨dir, here, rfl⟩, different⟩
  · rintro ⟨⟨dir, here, rfl⟩, different⟩
    exact ⟨dir, ⟨here, different⟩, rfl⟩

theorem Configfs.mem_addMember_ids {other : Int32} :
    other ∈ (fs.addMember weight id).ids ↔ other ∈ fs.ids ∨ other = id := by
  have same : (fs.addMember weight id).ids = (fs.createPath id).ids := by
    simp [addMember, writeFiles, ids, Function.comp_def]
  rw [same]
  unfold createPath
  split
  · grind
  · simp [ids]

/-- A member that has no directory gets a new one. -/
theorem Configfs.addMember_nodes (unknown : id ∉ fs.ids) :
    (fs.addMember weight id).nodes = fs.nodes ++
        [{ id := id
           inode := fs.inodes
           nodeid := some id
           weight := some (weight id) }] ∧
      (fs.addMember weight id).inodes = fs.inodes + 1 := by
  have kept : fs.nodes.map (NodeDir.written id (weight id)) =
      fs.nodes.map fun dir => dir := by
    apply List.map_congr_left
    intro dir member
    unfold NodeDir.written
    rw [if_neg]
    rintro rfl
    exact unknown (List.mem_map_of_mem member)
  rw [List.map_id'] at kept
  simp [addMember, createPath, unknown, writeFiles, kept, NodeDir.written]

/-- What the loop over the new members leaves: every old directory that is not
renewed, and new directories. -/
structure Renewed (fs : Configfs) (renew oldMembers newMembers : List Int32)
    (after : Configfs) : Prop where
  ids : ∀ id, id ∈ after.ids ↔ id ∈ fs.ids ∨
    (id ∈ newMembers ∧ (id ∈ renew ∨ id ∉ oldMembers))
  dirs : ∀ dir ∈ after.nodes,
    (dir ∈ fs.nodes ∧ (dir.id ∈ newMembers → dir.id ∉ renew)) ∨
      (dir.id ∈ newMembers ∧ fs.inodes ≤ dir.inode)

/-- One round of the loop that makes a directory. -/
theorem Renewed.round {rest after : Configfs} {later : List Int32}
    (nodes : rest.nodes = fs.nodes.filter (·.id != id))
    (inodes : rest.inodes = fs.inodes) (due : id ∈ renew ∨ id ∉ oldMembers)
    (renewed : Renewed (rest.addMember weight id) renew oldMembers later
      after) :
    Renewed fs renew oldMembers (id :: later) after := by
  have known {other : Int32} := @Configfs.mem_ids_of_filter fs id rest other
    nodes
  obtain ⟨added, next⟩ := @Configfs.addMember_nodes rest id weight
    fun inside => (known.mp inside).2 rfl
  constructor
  · intro other
    rw [renewed.ids other, Configfs.mem_addMember_ids, known]
    grind
  · intro dir member
    rcases renewed.dirs dir member with ⟨old, unrenewed⟩ | ⟨inLater, recent⟩
    · rw [added, nodes] at old
      grind
    · rw [next, inodes] at recent
      right
      exact ⟨List.mem_cons_of_mem _ inLater, by omega⟩

end Directories

section Since

def Effect.completes : Effect → Bool
  | .complete _ _ => true
  | _ => false

/-- The step completes no change. -/
def noStart (env : Env) (state : Daemon × List (Confchg Int32))
    (step : Step) : Prop :=
  (daemonEffects env state.1 step).any Effect.completes = false

/-- A daemon together with the configuration changes it has been told of, the
newest first. -/
def sinceSystem (env : Env) :
    System (Daemon × List (Confchg Int32)) Step :=
  { enabled := fun state => daemonEnabled env state.1
    next := fun state step =>
      (daemonNext env state.1 step, step.event.confchgs ++ state.2) }

/-- The members and the removed nodes of a change. -/
def Change.outline (cg : Change) : List Int32 × List Int32 :=
  (cg.members.map (·.nodeid), cg.removed.map (·.nodeid))

/-- What `add_change` makes of a configuration change. -/
def confchgOutline (change : Confchg Int32) : List Int32 × List Int32 :=
  (change.members, change.left.map Prod.fst)

variable {env : Env} {answers : Answers} {ls : Lockspace}

theorem outline_startStable : StartStable Change.outline := by
  intro sender flags cg
  constructor
  · simp only [Change.outline, updateMemb]
    rw [map_modifyFirst]
    intro _
    rfl
  · simp only [Change.outline, updateMemb]
    rw [map_modifyFirst]
    intro _
    rfl

theorem arrival_outline (possible : event.Possible env view) :
    (arrival env answers event ls).1.changes.map Change.outline =
      event.confchgs.map confchgOutline ++ ls.changes.map Change.outline := by
  have other (quiet : event.confchgs = []) :
      (arrival env answers event ls).1.changes.map Change.outline =
        event.confchgs.map confchgOutline ++
          ls.changes.map Change.outline := by
    rw [quiet]
    exact outline_startStable.arrival possible quiet
  cases event with
  | confchg index change =>
      obtain ⟨marked, _, _, ids, changes⟩ :=
        @arrival_newChange env index change answers ls possible.known
      rw [changes]
      simp [Event.confchgs, Change.outline, confchgOutline, newChange, ids,
        removedMember, Member.new, Function.comp_def]
  | _ => exact other rfl

/-- Only the completion of a change alters the outlines. -/
theorem applyChanges_outline
    (incomplete : (applyChanges env answers ls).2.any Effect.completes =
      false) :
    (applyChanges env answers ls).1.changes.map Change.outline =
      ls.changes.map Change.outline := by
  have applied := applyChanges_applied env answers ls
  generalize applyChanges env answers ls = result at applied incomplete ⊢
  cases applied with
  | idle => rfl
  | begin pending =>
      rw [pending]
      rfl
  | wait => rfl
  | collect => rfl
  | @complete cg older pending state arrived =>
      obtain ⟨result, _, equation⟩ :=
        completeChange_prepared env answers.now ls cg older
      rw [equation] at incomplete
      simp [Effect.completes] at incomplete

theorem Event.Possible.distinct (possible : event.Possible env view) :
    ∀ change ∈ event.confchgs, change.members.Nodup := by
  intro change member
  cases event with
  | confchg index delivered =>
      rw [List.mem_singleton.mp member]
      cases view with
      | none => exact Confchg.Begins.nodup possible
      | some members => exact Confchg.Follows.nodup possible
  | _ => cases member

/-- Since the last start every configuration change has its pending change. -/
theorem outline_since {start : Daemon}
    {state : Daemon × List (Confchg Int32)}
    (settled : start.ls.changes = [])
    (since : (sinceSystem env).Run (noStart env) (start, []) state) :
    state.1.ls.changes.map Change.outline = state.2.map confchgOutline ∧
      ∀ change ∈ state.2, change.members.Nodup := by
  apply since.invariant fun state =>
    state.1.ls.changes.map Change.outline = state.2.map confchgOutline ∧
      ∀ change ∈ state.2, change.members.Nodup
  · simp [settled]
  · rintro ⟨daemon, changes⟩ step ⟨possible, _⟩ incomplete ⟨same, distinct⟩
    constructor
    · have arrived := @arrival_outline _ _ env step.answers daemon.ls possible
      rw [same, ← List.map_append] at arrived
      simp only [noStart, daemonEffects, handle_eq step.answers daemon.ls
        possible] at incomplete
      simp only [sinceSystem, daemonNext, handle_eq step.answers daemon.ls
        possible]
      split
      · rename_i applies
        rw [if_pos applies, thenApply, List.any_append,
          Bool.or_eq_false_iff] at incomplete
        exact (applyChanges_outline incomplete.2).trans arrived
      · exact arrived
    · intro change member
      rcases List.mem_append.mp member with new | old
      · exact possible.distinct change new
      · exact distinct change old

end Since

instance (env : Env) (state : Daemon × List (Confchg Int32)) (step : Step) :
    Decidable ((sinceSystem env).enabled state step) :=
  inferInstanceAs (Decidable ((daemonSystem env).enabled state.1 step))

instance (env : Env) (state : Daemon × List (Confchg Int32)) (step : Step) :
    Decidable (noStart env state step) :=
  inferInstanceAs (Decidable (_ = false))

end Dlm.Cpg
