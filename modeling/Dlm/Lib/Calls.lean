import Mathlib.Data.List.Basic

/-!
# Functions that call a service

Such a function makes one call after the other; what it does next depends on
where it is and on the reply.  The list of replies is the list of the calls
made, so a run has a result only if the function returns with the last reply.
-/

namespace Dlm

section Calls

variable {A S R : Type}

/-- The state in which the function returns after exactly these replies. -/
def runCalls (step : A → S → R → A × S) (done : A → Bool) :
    A → S → List R → Option S
  | place, state, [] => if done place then some state else none
  | place, state, reply :: replies =>
      if done place then none
      else
        runCalls step done (step place state reply).1
          (step place state reply).2 replies

variable {step : A → S → R → A × S} {done : A → Bool} {place : A}
  {state final : S} {replies : List R}

theorem runCalls_nil (ran : runCalls step done place state [] = some final) :
    done place = true ∧ final = state := by
  rw [runCalls] at ran
  split at ran
  · exact ⟨by assumption, (Option.some.inj ran).symm⟩
  · cases ran

theorem runCalls_cons {reply : R} (running : done place = false) :
    runCalls step done place state (reply :: replies) =
      runCalls step done (step place state reply).1
        (step place state reply).2 replies := by
  rw [runCalls, if_neg (by simp [running])]

/-- A function that has returned makes no call. -/
theorem runCalls_done (returned : done place = true)
    (ran : runCalls step done place state replies = some final) :
    final = state := by
  cases replies with
  | nil => exact (runCalls_nil ran).2
  | cons reply replies =>
      rw [runCalls, if_pos returned] at ran
      cases ran

/-- Replies after which the call is repeated do not matter. -/
theorem runCalls_retry (again : R → Bool)
    (repeated : ∀ place state reply, done place = false →
      again reply = true → step place state reply = (place, state))
    (ran : runCalls step done place state replies = some final) :
    runCalls step done place state (replies.filter (!again ·)) =
      some final := by
  induction replies generalizing place state with
  | nil => exact ran
  | cons reply replies induction =>
      cases running : done place with
      | true =>
          rw [runCalls, if_pos running] at ran
          cases ran
      | false =>
          rw [runCalls_cons running] at ran
          by_cases retried : again reply = true
          · rw [repeated place state reply running retried] at ran
            rw [List.filter_cons_of_neg (by simp [retried])]
            exact induction ran
          · rw [List.filter_cons_of_pos (by simpa using retried),
              runCalls_cons running]
            exact induction ran

end Calls

end Dlm
