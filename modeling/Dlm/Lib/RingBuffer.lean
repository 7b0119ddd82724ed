import Mathlib.Data.List.DropRight

/-!
# Ring buffers

A buffer of fixed size with a write position that goes round.  Read from the
write position on, a buffer that has gone round holds the last entries that
were pushed, oldest first.
-/

namespace Dlm

/-- A ring buffer: its cells, the position of the next write, and whether the
position has gone round. -/
structure Ring (α : Type) (size : Nat) where
  cells : List α
  point : Nat
  wrapped : Bool
  length_cells : cells.length = size
  point_lt : point < size

namespace Ring

variable {α : Type} {size : Nat} {ring : Ring α size} {history : List α}

/-- Write at the position and move it on. -/
def push (ring : Ring α size) (entry : α) : Ring α size :=
  if last : ring.point + 1 = size then
    { cells := ring.cells.set ring.point entry
      point := 0
      wrapped := true
      length_cells := by simp [ring.length_cells]
      point_lt := last ▸ Nat.succ_pos ring.point }
  else
    { cells := ring.cells.set ring.point entry
      point := ring.point + 1
      wrapped := ring.wrapped
      length_cells := by simp [ring.length_cells]
      point_lt := Nat.lt_of_le_of_ne ring.point_lt last }

/-- Write at the position without moving it. -/
def poke (ring : Ring α size) (entry : α) : Ring α size :=
  { ring with
    cells := ring.cells.set ring.point entry
    length_cells := by simp [ring.length_cells] }

/-- The entries, oldest first. -/
def contents (ring : Ring α size) : List α :=
  if ring.wrapped then
    ring.cells.drop ring.point ++ ring.cells.take ring.point
  else ring.cells.take ring.point

theorem length_contents (ring : Ring α size) :
    ring.contents.length = if ring.wrapped then size else ring.point := by
  have length := ring.length_cells
  have position := ring.point_lt
  unfold contents
  split
  · simp only [List.length_append, List.length_drop, List.length_take]
    omega
  · rw [List.length_take]
    omega

/-- The cells around the write position. -/
theorem exists_cells (ring : Ring α size) :
    ∃ front old back, ring.cells = front ++ old :: back ∧
      front.length = ring.point := by
  have inside : ring.point < ring.cells.length := by
    rw [ring.length_cells]
    exact ring.point_lt
  refine ⟨ring.cells.take ring.point, ring.cells[ring.point],
    ring.cells.drop (ring.point + 1), ?_, ?_⟩
  · rw [List.getElem_cons_drop, List.take_append_drop]
  · rw [List.length_take]
    omega

/-- A push drops the oldest entry of a buffer that has gone round. -/
theorem contents_push (ring : Ring α size) (entry : α) :
    (ring.push entry).contents =
      (if ring.wrapped then ring.contents.tail else ring.contents) ++
        [entry] := by
  obtain ⟨front, old, back, cells, position⟩ := ring.exists_cells
  have length := ring.length_cells
  rw [cells, List.length_append, List.length_cons] at length
  unfold push
  split
  · rename_i last
    have full : back = [] := by
      apply List.eq_nil_of_length_eq_zero
      omega
    cases wrapped : ring.wrapped with
    | false => simp [contents, cells, ← position, full, wrapped]
    | true => simp [contents, cells, ← position, full, wrapped]
  · cases wrapped : ring.wrapped with
    | false =>
        simp [contents, cells, ← position, wrapped,
          List.take_length_add_append]
    | true =>
        simp [contents, cells, ← position, wrapped,
          List.take_length_add_append]

/-- A poke hits the oldest entry of a buffer that has gone round. -/
theorem contents_poke (ring : Ring α size) (entry : α) :
    (ring.poke entry).contents =
      if ring.wrapped then entry :: ring.contents.tail
      else ring.contents := by
  obtain ⟨front, old, back, cells, position⟩ := ring.exists_cells
  cases wrapped : ring.wrapped with
  | false => simp [contents, poke, cells, ← position, wrapped]
  | true => simp [contents, poke, cells, ← position, wrapped]

/-- The next push overwrites what has been poked. -/
theorem push_poke (ring : Ring α size) (first second : α) :
    (ring.poke first).push second = ring.push second := by
  unfold push poke
  simp only [List.set_set]

theorem poke_poke (ring : Ring α size) (first second : α) :
    (ring.poke first).poke second = ring.poke second := by
  unfold poke
  simp only [List.set_set]

/-- The buffer holds the last entries of a history. -/
structure Holds (ring : Ring α size) (history : List α) : Prop where
  contents : ring.contents = history.rtake size
  wrapped : ring.wrapped = true ↔ size ≤ history.length

theorem wrapped_push (ring : Ring α size) (entry : α) :
    (ring.push entry).wrapped = true ↔
      ring.wrapped = true ∨ ring.point + 1 = size := by
  unfold push
  split
  · rename_i last
    simp [last]
  · rename_i inside
    simp [inside]

/-- A buffer whose position has not moved holds nothing. -/
theorem Holds.nil (start : ring.point = 0) (fresh : ring.wrapped = false) :
    ring.Holds [] := by
  have positive := ring.point_lt
  constructor
  · simp [Ring.contents, start, fresh]
  · simp only [fresh, Bool.false_eq_true, List.length_nil, false_iff]
    omega

theorem Holds.point (holds : ring.Holds history) (fresh : ring.wrapped = false) :
    ring.point = history.length := by
  have length := ring.length_contents
  have short : ¬size ≤ history.length := by
    rw [← holds.wrapped, fresh]
    simp
  rw [holds.contents, fresh, List.rtake, List.length_drop] at length
  simp only [Bool.false_eq_true, if_false] at length
  omega

theorem Holds.push (holds : ring.Holds history) (entry : α) :
    (ring.push entry).Holds (history ++ [entry]) := by
  have positive := ring.point_lt
  constructor
  · rw [contents_push, holds.contents]
    cases round : ring.wrapped with
    | false =>
        have short : ¬size ≤ history.length := by
          rw [← holds.wrapped, round]
          simp
        have whole : history.length - size = 0 := by omega
        have still : (history ++ [entry]).length - size = 0 := by
          rw [List.length_append, List.length_singleton]
          omega
        rw [List.rtake, List.rtake, whole, still, List.drop_zero,
          List.drop_zero, if_neg Bool.false_ne_true]
    | true =>
        have long := holds.wrapped.mp round
        have shift : (history ++ [entry]).length - size =
            history.length - size + 1 := by
          rw [List.length_append, List.length_singleton]
          omega
        rw [List.rtake, List.rtake, shift, if_pos rfl, List.tail_drop,
          List.drop_append_of_le_length (by omega)]
  · rw [wrapped_push, List.length_append, List.length_singleton]
    cases round : ring.wrapped with
    | false =>
        have short : ¬size ≤ history.length := by
          rw [← holds.wrapped, round]
          simp
        rw [holds.point round]
        simp only [Bool.false_eq_true, false_or]
        omega
    | true =>
        have long := holds.wrapped.mp round
        simp only [true_or, true_iff]
        omega

/-- Every entry of a list is pushed. -/
theorem Holds.pushAll (holds : ring.Holds history) (entries : List α) :
    (entries.foldl Ring.push ring).Holds (history ++ entries) := by
  induction entries generalizing ring history with
  | nil =>
      rw [List.append_nil]
      exact holds
  | cons entry later induction =>
      rw [← List.singleton_append, ← List.append_assoc]
      exact induction (holds.push entry)

end Ring

end Dlm
