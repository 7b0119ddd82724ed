import Mathlib.Logic.Basic

/-!
# Runs of a labelled transition system

A run is a finite sequence of enabled steps.  Every run carries a condition on
its steps, a relation between the state before a step and the label of the
step, so that "in every run whose steps meet the condition" is a statement
about `System.Run`.
-/

namespace Dlm

/-- A deterministic transition system with labelled steps. -/
structure System (S L : Type) where
  enabled : S → L → Prop
  next : S → L → S

namespace System

variable {S L : Type} {sys : System S L} {allowed other : S → L → Prop}

/-- The states reached from a state by enabled steps that are allowed in the
state in which they are taken. -/
inductive Run (sys : System S L) (allowed : S → L → Prop) (start : S) :
    S → Prop where
  | refl : Run sys allowed start start
  | step {state : S} (label : L) :
      Run sys allowed start state →
      sys.enabled state label →
      allowed state label →
      Run sys allowed start (sys.next state label)

/-- An invariant that every allowed step preserves holds in every state
reached from a state in which it holds. -/
theorem Run.invariant {start finish : S}
    (run : sys.Run allowed start finish) (inv : S → Prop)
    (initially : inv start)
    (preserved : ∀ state label, sys.enabled state label →
      allowed state label → inv state → inv (sys.next state label)) :
    inv finish := by
  induction run with
  | refl => exact initially
  | step label _ enabled permitted induction =>
      exact preserved _ label enabled permitted induction

theorem Run.mono {start finish : S} (run : sys.Run allowed start finish)
    (weaker : ∀ state label, allowed state label → other state label) :
    sys.Run other start finish := by
  induction run with
  | refl => exact .refl
  | step label _ enabled permitted induction =>
      exact .step label induction enabled (weaker _ _ permitted)

theorem Run.trans {start middle finish : S}
    (front : sys.Run allowed start middle)
    (back : sys.Run allowed middle finish) :
    sys.Run allowed start finish := by
  induction back with
  | refl => exact front
  | step label _ enabled permitted induction =>
      exact .step label induction enabled permitted

/-- Conditions that follow from an invariant may be added to a run. -/
theorem Run.strengthen {inv : S → Prop} {start finish : S}
    (run : sys.Run allowed start finish)
    (initially : inv start)
    (preserved : ∀ state label, sys.enabled state label →
      allowed state label → inv state → inv (sys.next state label))
    (implied : ∀ state label, sys.enabled state label →
      allowed state label → inv state → other state label) :
    sys.Run other start finish := by
  suffices both : sys.Run other start finish ∧ inv finish from both.1
  induction run with
  | refl => exact ⟨.refl, initially⟩
  | step label _ enabled permitted induction =>
      exact ⟨.step label induction.1 enabled
          (implied _ label enabled permitted induction.2),
        preserved _ label enabled permitted induction.2⟩

/-- The state after a list of labels. -/
def follow (sys : System S L) : S → List L → S
  | state, [] => state
  | state, label :: later => follow sys (sys.next state label) later

/-- Every step of the list is enabled and allowed when its turn comes. -/
def Follows (sys : System S L) (allowed : S → L → Prop) :
    S → List L → Prop
  | _, [] => True
  | state, label :: later =>
      (sys.enabled state label ∧ allowed state label) ∧
        Follows sys allowed (sys.next state label) later

instance decidableFollows [∀ state label, Decidable (sys.enabled state label)]
    [∀ state label, Decidable (allowed state label)] :
    ∀ (labels : List L) (state : S),
      Decidable (Follows sys allowed state labels)
  | [], _ => isTrue trivial
  | label :: later, state =>
      @instDecidableAnd _ _ inferInstance
        (decidableFollows later (sys.next state label))

/-- A list of steps that can be followed is a run. -/
theorem run_of_follows {start state : S} (labels : List L)
    (run : sys.Run allowed start state)
    (follows : Follows sys allowed state labels) :
    sys.Run allowed start (follow sys state labels) := by
  induction labels generalizing state with
  | nil => exact run
  | cons label later induction =>
      obtain ⟨⟨enabled, permitted⟩, rest⟩ := follows
      exact induction (.step label run enabled permitted) rest

end System

end Dlm
