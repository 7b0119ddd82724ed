import Dlm.Deadlock.Types

/-!
# The locks that a daemon collects

A daemon reads the locks of its own node from debugfs and those of the others
from their checkpoints.  A lock whose resource is mastered on another node is
seen twice, on the node of its owner and on the master, and `add_lock` puts the
two into one entry.  Locks are kept from the perspective of the master, so
`set_copy` swaps the ids of a lock seen by its owner.
-/

namespace Dlm.Deadlock

/-- `get_resource`, on the list of resources. -/
def getResource (name : String) (resources : List Rsb) : List Rsb :=
  if resources.any (·.name == name) then resources
  else { name := name, locks := [] } :: resources

/-- Rewrite the resource that `get_resource` returns. -/
def updateRsb (name : String) (change : Rsb → Rsb) (resources : List Rsb) :
    List Rsb :=
  resources.map fun r => if r.name = name then change r else r

/-- The flag `IFL_MSTCPY`. -/
def IFL_MSTCPY : UInt32 := 0x00010000

/-- `set_copy`, on a lock just read from debugfs. -/
def setCopy (ourNodeid : Int32) (lock : PackLock) : PackLock :=
  if lock.nodeid = 0 then
    { lock with copy := .localCopy, origin := none }
  else if lock.flags &&& IFL_MSTCPY ≠ 0 then
    { lock with copy := .masterCopy, origin := none }
  else
    { lock with
      copy := .masterCopy
      id := lock.remid
      remid := lock.id
      nodeid := ourNodeid
      origin := none }

def partialMasterCopy (lock : PackLock) : Bool :=
  lock.xid != 0

/-- `get_lkb`: the place of the entry it finds; `none` stands for a new
one. -/
def getLkb (r : Rsb) (lock : PackLock) : Option Nat :=
  if lock.copy ≠ .masterCopy then none
  else
    r.locks.findIdx? fun lkb =>
      lkb.lock.nodeid == lock.nodeid && lkb.lock.id == lock.id

/-- The assignments of `add_lock` to an entry. -/
def fillLkb (fromNodeid : Int32) (lock : PackLock) (lkb : Lkb) : Lkb :=
  match lock.copy with
  | .unset => lkb
  | .localCopy =>
      { lock := lock
        home := fromNodeid
        origins := lock.origin.toList ++ lkb.origins }
  | .masterCopy =>
      if partialMasterCopy lock then
        { lock :=
            { lkb.lock with
              xid := lock.xid
              nodeid := lock.nodeid
              id := lock.id
              remid := lock.remid
              copy := .masterCopy }
          home := lock.nodeid
          origins := lock.origin.toList ++ lkb.origins }
      else
        -- The xid is set from the partial master copy only.
        { lock := { lock with xid := lkb.lock.xid }
          home := lock.nodeid
          origins := lock.origin.toList ++ lkb.origins }

/-- `add_lock`. -/
def addLock (fromNodeid : Int32) (lock : PackLock) (r : Rsb) : Rsb :=
  match getLkb r lock with
  | some place =>
      { r with locks := r.locks.modify place (fillLkb fromNodeid lock) }
  | none =>
      { r with locks := fillLkb fromNodeid lock createLkb :: r.locks }

/-- A line of debugfs: the name of the resource and the lock. -/
abbrev Line := String × PackLock

/-- A section of a checkpoint: the name of the resource and its locks. -/
abbrev Section := String × List PackLock

def readDebugfsLocks (ourNodeid : Int32) (lines : List Line)
    (resources : List Rsb) : List Rsb :=
  lines.foldl
    (fun resources line =>
      updateRsb line.1 (addLock ourNodeid (setCopy ourNodeid line.2))
        (getResource line.1 resources))
    resources

def readCheckpointLocks (fromNodeid : Int32) (resources : List Rsb)
    (part : Section) : List Rsb :=
  part.2.foldl
    (fun resources lock => updateRsb part.1 (addLock fromNodeid lock) resources)
    (getResource part.1 resources)

/-- `read_checkpoint`, on the sections that it finds.  A section without locks
is skipped. -/
def readCheckpoint (ourNodeid nodeid : Int32) (sections : List Section)
    (resources : List Rsb) : List Rsb :=
  if nodeid = ourNodeid then resources
  else
    (sections.filter fun part => !part.2.isEmpty).foldl
      (readCheckpointLocks nodeid) resources

/-- `pack_lkb_list`, for a checkpoint written at a place of the stream. -/
def packLkbList (place : Nat) (locks : List Lkb) : List PackLock :=
  locks.map fun lkb => { lkb.lock with origin := some place }

/-- The sections that `write_checkpoint` creates. -/
def packSections (place : Nat) (resources : List Rsb) : List Section :=
  resources.map fun r => (r.name, packLkbList place r.locks)

def purgeLocks (nodeid : Int32) (resources : List Rsb) : List Rsb :=
  resources.map fun r =>
    { r with locks := r.locks.filter (·.home != nodeid) }

/-- A property of all locks. -/
def Everywhere (P : String → Lkb → Prop) (resources : List Rsb) : Prop :=
  ∀ r ∈ resources, ∀ lkb ∈ r.locks, P r.name lkb

section Everywhere

variable {P : String → Lkb → Prop} {resources : List Rsb}

theorem Everywhere.getResource (everywhere : Everywhere P resources)
    (name : String) : Everywhere P (getResource name resources) := by
  unfold Deadlock.getResource
  split
  · exact everywhere
  · intro r member lkb listed
    rcases List.mem_cons.mp member with rfl | old
    · cases listed
    · exact everywhere r old lkb listed

/-- A lock can be added to a resource: the property holds of a new entry, and
it is kept where the lock is put into an old one. -/
def Fits (P : String → Lkb → Prop) (name : String) (fromNodeid : Int32)
    (lock : PackLock) : Prop :=
  P name (fillLkb fromNodeid lock createLkb) ∧
    ∀ lkb, lock.copy = .masterCopy → lkb.lock.nodeid = lock.nodeid →
      lkb.lock.id = lock.id → P name lkb → P name (fillLkb fromNodeid lock lkb)

theorem Everywhere.addLock (everywhere : Everywhere P resources)
    {name : String} {fromNodeid : Int32} {lock : PackLock}
    (fits : Fits P name fromNodeid lock) :
    Everywhere P
      (updateRsb name (Deadlock.addLock fromNodeid lock) resources) := by
  intro r member lkb listed
  obtain ⟨old, known, rfl⟩ := List.mem_map.mp member
  by_cases same : old.name = name
  · subst same
    rw [if_pos rfl] at listed ⊢
    unfold Deadlock.addLock at listed ⊢
    cases found : getLkb old lock with
    | none =>
        simp only [found] at listed ⊢
        rcases List.mem_cons.mp listed with rfl | rest
        · exact fits.1
        · exact everywhere old known lkb rest
    | some place =>
        simp only [found] at listed ⊢
        obtain ⟨index, here⟩ := List.getElem?_of_mem listed
        rw [List.getElem?_modify] at here
        obtain ⟨before, there, rfl⟩ := Option.map_eq_some_iff.mp here
        have kept := everywhere old known before
          (List.mem_of_getElem? there)
        by_cases here : place = index
        · subst here
          have master : lock.copy = .masterCopy := by
            by_contra other
            simp [getLkb, other] at found
          have matched : (before.lock.nodeid == lock.nodeid &&
              before.lock.id == lock.id) = true := by
            simp only [getLkb, master, ne_eq, not_true_eq_false, if_false]
              at found
            obtain ⟨within, passes, _⟩ :=
              List.findIdx?_eq_some_iff_getElem.mp found
            obtain ⟨_, same⟩ := List.getElem?_eq_some_iff.mp there
            rw [same] at passes
            exact passes
          obtain ⟨nodeid, id⟩ := Bool.and_eq_true_iff.mp matched
          rw [if_pos rfl]
          exact fits.2 before master (beq_iff_eq.mp nodeid)
            (beq_iff_eq.mp id) kept
        · rw [if_neg here]
          exact kept
  · rw [if_neg same] at listed ⊢
    exact everywhere old known lkb listed

theorem Everywhere.readDebugfsLocks {ourNodeid : Int32} {lines : List Line}
    (everywhere : Everywhere P resources)
    (fits : ∀ line ∈ lines,
      Fits P line.1 ourNodeid (setCopy ourNodeid line.2)) :
    Everywhere P (readDebugfsLocks ourNodeid lines resources) := by
  unfold Deadlock.readDebugfsLocks
  induction lines generalizing resources with
  | nil => exact everywhere
  | cons line later induction =>
      obtain ⟨first, rest⟩ := List.forall_mem_cons.mp fits
      exact induction
        ((everywhere.getResource line.1).addLock first) rest

theorem Everywhere.readCheckpointLocks {fromNodeid : Int32} {part : Section}
    (everywhere : Everywhere P resources)
    (fits : ∀ lock ∈ part.2, Fits P part.1 fromNodeid lock) :
    Everywhere P (readCheckpointLocks fromNodeid resources part) := by
  obtain ⟨name, locks⟩ := part
  have known := everywhere.getResource name
  unfold Deadlock.readCheckpointLocks
  generalize Deadlock.getResource name resources = found at known ⊢
  induction locks generalizing found with
  | nil => exact known
  | cons lock later induction =>
      obtain ⟨first, rest⟩ := List.forall_mem_cons.mp fits
      exact induction rest _ (known.addLock first)

theorem Everywhere.readCheckpoint {ourNodeid nodeid : Int32}
    {sections : List Section} (everywhere : Everywhere P resources)
    (fits : nodeid ≠ ourNodeid → ∀ part ∈ sections, ∀ lock ∈ part.2,
      Fits P part.1 nodeid lock) :
    Everywhere P (readCheckpoint ourNodeid nodeid sections resources) := by
  unfold Deadlock.readCheckpoint
  split
  · exact everywhere
  · rename_i other
    have fits : ∀ part ∈ sections.filter fun part => !part.2.isEmpty,
        ∀ lock ∈ part.2, Fits P part.1 nodeid lock :=
      fun part kept => fits other part (List.mem_of_mem_filter kept)
    generalize sections.filter (fun part => !part.2.isEmpty) = parts
      at fits ⊢
    induction parts generalizing resources with
    | nil => exact everywhere
    | cons part later induction =>
        obtain ⟨first, rest⟩ := List.forall_mem_cons.mp fits
        exact induction (everywhere.readCheckpointLocks first) rest

theorem Everywhere.purgeLocks (everywhere : Everywhere P resources)
    (nodeid : Int32) : Everywhere P (purgeLocks nodeid resources) := by
  intro r member lkb listed
  obtain ⟨old, known, rfl⟩ := List.mem_map.mp member
  exact everywhere old known lkb (List.mem_of_mem_filter listed)

end Everywhere

end Dlm.Deadlock
