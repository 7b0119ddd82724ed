import Mathlib.Data.Fintype.Pigeonhole
import Mathlib.Data.Set.Finite.Basic
import Mathlib.Logic.Relation

/-!
# Elimination in a finite relation

Elements that point to no remaining element are taken away, one after the
other.  What is left when no more can be taken away are the elements from
which a cycle of the relation can be reached.
-/

namespace Dlm.Elimination

open Relation

variable {α : Type} {points : α → α → Prop}

/-- A cycle can be reached from the element. -/
def ReachesCycle (points : α → α → Prop) (x : α) : Prop :=
  ∃ y, ReflTransGen points x y ∧ TransGen points y y

/-- Who reaches a cycle points to somebody who does. -/
theorem ReachesCycle.next {x : α} (reaches : ReachesCycle points x) :
    ∃ y, points x y ∧ ReachesCycle points y := by
  obtain ⟨y, path, cycle⟩ := reaches
  rcases path.cases_head with rfl | ⟨z, first, rest⟩
  · obtain ⟨z, first, rest⟩ := TransGen.head'_iff.mp cycle
    exact ⟨z, first, x, rest, cycle⟩
  · exact ⟨z, first, y, rest, cycle⟩

/-- Who gets to somebody that reaches a cycle reaches it too. -/
theorem ReachesCycle.before {x y : α} (path : ReflTransGen points x y)
    (reaches : ReachesCycle points y) : ReachesCycle points x := by
  obtain ⟨z, rest, cycle⟩ := reaches
  exact ⟨z, path.trans rest, cycle⟩

/-- A path to somebody that reaches a cycle is a path among those that do. -/
theorem ReachesCycle.path {x y : α} (reaches : ReachesCycle points y)
    (path : TransGen points x y) :
    TransGen (fun first second => points first second ∧
      ReachesCycle points first ∧ ReachesCycle points second) x y := by
  induction path using TransGen.head_induction_on with
  | single step =>
      exact .single ⟨step, reaches.before (.single step), reaches⟩
  | head step rest induction =>
      have middle := reaches.before rest.to_reflTransGen
      exact .head ⟨step, middle.before (.single step), middle⟩ induction

/-- In a finite list in which everybody points to somebody, everybody reaches
a cycle. -/
theorem reachesCycle_of_serial {list : List α}
    (serial : ∀ x ∈ list, ∃ y ∈ list, points x y) {x : α}
    (member : x ∈ list) : ReachesCycle points x := by
  have next : ∀ x : { x // x ∈ list },
      ∃ y : { x // x ∈ list }, points x y := by
    intro x
    obtain ⟨y, member, pointed⟩ := serial x x.2
    exact ⟨⟨y, member⟩, pointed⟩
  choose next pointed using next
  have finite : Finite { x // x ∈ list } := List.finite_toSet list
  have path : ∀ (count : Nat) (x : { x // x ∈ list }),
      ReflTransGen points x.1 (next^[count] x).1 := by
    intro count
    induction count with
    | zero => exact fun _ => .refl
    | succ count induction =>
        intro x
        exact .head (pointed x) (induction (next x))
  obtain ⟨first, second, apart, same⟩ :=
    Finite.exists_ne_map_eq_of_infinite fun count => next^[count] ⟨x, member⟩
  wlog order : first < second generalizing first second
  · exact this second first apart.symm same.symm
      (lt_of_le_of_ne (not_lt.mp order) apart.symm)
  obtain ⟨gap, rfl⟩ := Nat.exists_eq_add_of_lt order
  refine ⟨(next^[first] ⟨x, member⟩).1, path first ⟨x, member⟩, ?_⟩
  have around := path gap (next (next^[first] ⟨x, member⟩))
  have meets : next^[gap] (next (next^[first] ⟨x, member⟩)) =
      next^[first] ⟨x, member⟩ := by
    rw [← Function.iterate_succ_apply, ← Function.iterate_add_apply]
    rw [show gap.succ + first = first + gap + 1 by omega]
    exact same.symm
  rw [meets] at around
  exact .head' (pointed _) around

/-- What is left of a list when some elements from which no cycle can be
reached have been taken away. -/
structure Remainder (points : α → α → Prop) (list left : List α) :
    Prop where
  subset : ∀ x ∈ left, x ∈ list
  safe : ∀ x ∈ list, x ∉ left → ¬ ReachesCycle points x

theorem Remainder.refl (list : List α) : Remainder points list list :=
  ⟨fun _ member => member, fun _ member gone => (gone member).elim⟩

/-- An element that points to nobody left can be taken away. -/
theorem Remainder.remove {list left fewer : List α} {x : α}
    (remainder : Remainder points list left)
    (closed : ∀ y z, points y z → z ∈ list)
    (fewer_iff : ∀ y, y ∈ fewer ↔ y ∈ left ∧ y ≠ x)
    (free : ∀ y ∈ left, ¬ points x y) :
    Remainder points list fewer := by
  constructor
  · intro y member
    exact remainder.subset y ((fewer_iff y).mp member).1
  · intro y member gone
    by_cases same : y = x
    · subst same
      intro reaches
      obtain ⟨z, pointed, cyclic⟩ := reaches.next
      have away : z ∉ left := fun present => free z present pointed
      exact remainder.safe z (closed y z pointed) away cyclic
    · have away : y ∉ left :=
        fun present => gone ((fewer_iff y).mpr ⟨present, same⟩)
      exact remainder.safe y member away

/-- When everybody left points to somebody left, those left are the elements
from which a cycle can be reached. -/
theorem Remainder.mem_iff {list left : List α}
    (remainder : Remainder points list left)
    (stuck : ∀ x ∈ left, ∃ y ∈ left, points x y)
    (known : ∀ x y, points x y → x ∈ list) (x : α) :
    x ∈ left ↔ ReachesCycle points x := by
  constructor
  · exact reachesCycle_of_serial stuck
  · intro reaches
    obtain ⟨y, pointed, _⟩ := reaches.next
    by_contra gone
    exact remainder.safe x (known x y pointed) gone reaches

end Dlm.Elimination
