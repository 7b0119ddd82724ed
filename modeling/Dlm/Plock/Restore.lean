import Dlm.Plock.Checkpoint
import Dlm.Plock.Plain

/-!
# What a checkpoint section stands for

The owner and the table that a node restores from the section that another
node has stored.
-/

namespace Dlm.Plock

/-- The owner of the resource that the joining node restores. -/
def restoredOwner (env : Env) (r : Resource) : Int32 :=
  (sectionOwner env r).getD 0

/-- The table of the resource that the joining node restores. -/
def restoredTable (env : Env) (r : Resource) : Table :=
  if r.owner = -1 ∨ r.owner = env.ourNodeid then Table.empty
  else
    { locks := (r.locks.filter (!·.syncing)).map plainLock
      waiters := (r.waiters.filter (!·.syncing)).map plainWaiter }

section Restore

variable {env joiner : Env}

/-- What a packed table is unpacked to. -/
theorem unpackSectionBuf_table (id : List Char) (locks : List PosixLock)
    (waiters : List LockWaiter) :
    (unpackSectionBuf joiner
        { id := id
          data := locks.map packLock ++ waiters.map packWaiter }).table =
      { locks := locks.map plainLock, waiters := waiters.map plainWaiter } := by
  have lockData : (locks.map packLock ++ waiters.map packWaiter).filter
      (·.waiter == 0) = locks.map packLock := by
    simp [List.filter_append, List.filter_map, Function.comp_def, packLock,
      packWaiter]
  have waiterData : (locks.map packLock ++ waiters.map packWaiter).filter
      (·.waiter != 0) = waiters.map packWaiter := by
    simp [List.filter_append, List.filter_map, Function.comp_def, packLock,
      packWaiter]
  simp only [unpackSectionBuf, Resource.table, lockData, waiterData,
    List.map_map]
  rfl

/-- The joining node restores the number, the owner and the table that the
section stands for. -/
theorem unpackSectionBuf_storeResource (joiner : Env) {r : Resource}
    {section_ : Section}
    (stored : storeResource env r = some section_) :
    (unpackSectionBuf joiner section_).number = r.number ∧
      (unpackSectionBuf joiner section_).owner = restoredOwner env r ∧
      (unpackSectionBuf joiner section_).table = restoredTable env r := by
  simp only [storeResource, Option.map_eq_some_iff] at stored
  obtain ⟨owner, found, rfl⟩ := stored
  have scanned := scanSectionId_sectionId r.number owner
  refine ⟨?_, ?_, ?_⟩
  · simp [unpackSectionBuf, scanned]
  · simp [unpackSectionBuf, scanned, restoredOwner, found]
  · have present : r.owner ≠ -1 := by
      intro new
      simp [sectionOwner, new] at found
    simp only [packSectionBuf, restoredTable, present, false_or]
    split
    · simp [unpackSectionBuf, Resource.table, Table.empty]
    · exact unpackSectionBuf_table _ _ _

end Restore

end Dlm.Plock
