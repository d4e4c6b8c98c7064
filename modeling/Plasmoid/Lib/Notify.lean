import Mathlib.Tactic

/-!
# A notification with one permit

A task waits for a notification by creating a future and polling it.
`notifyOne` wakes the task that is registered.  When there is none it leaves a
permit, and two of them leave no more than one.  `notifyWaiters` wakes a future
that was created, registered or not, and leaves nothing behind.

A notification is `Due` when the task will not sleep on the future it has, or on
the next one.  `notifyOne` makes it due at any moment, `notifyWaiters` only if
there is a future.
-/

/-- The future of the one task that waits. -/
inductive Waiter where
  | absent
  /-- Created and not polled.  `called` is whether `notifyWaiters` came since. -/
  | created (called : Bool)
  | registered
  | done
deriving DecidableEq

structure Notify where
  permit : Bool
  waiter : Waiter
deriving DecidableEq

namespace Notify

def new : Notify := ⟨false, .absent⟩

def notifyOne (n : Notify) : Notify :=
  match n.waiter with
  | .registered => { n with waiter := .done }
  | _ => { n with permit := true }

def notifyWaiters (n : Notify) : Notify :=
  match n.waiter with
  | .registered => { n with waiter := .done }
  | .created _ => { n with waiter := .created true }
  | _ => n

/-- Create the future. -/
def notified (n : Notify) : Notify := { n with waiter := .created false }

/-- Poll the future for the first time.  It takes the permit if there is one. -/
def poll (n : Notify) : Notify :=
  match n.waiter with
  | .created called =>
    if n.permit then ⟨false, .done⟩
    else if called then { n with waiter := .done }
    else { n with waiter := .registered }
  | _ => n

/-- The future was awaited. -/
def clear (n : Notify) : Notify := { n with waiter := .absent }

/-- The task will not sleep. -/
def Due (n : Notify) : Prop :=
  n.permit = true ∨ n.waiter = .created true ∨ n.waiter = .done

/-- A permit is not left for a task that is registered. -/
def Sound (n : Notify) : Prop := n.waiter = .registered → n.permit = false

variable {n : Notify}

theorem sound_new : new.Sound := by
  intro h
  cases h

theorem sound_notifyOne (n : Notify) : n.notifyOne.Sound := by
  unfold Sound notifyOne
  split
  · simp
  · rename_i hwaiter
    intro hregistered
    exact absurd hregistered hwaiter

theorem Sound.notifyWaiters (h : n.Sound) : n.notifyWaiters.Sound := by
  unfold Sound Notify.notifyWaiters at *
  split
  · simp
  · simp
  · exact h

theorem sound_notified (n : Notify) : n.notified.Sound := by
  intro h
  cases h

theorem sound_clear (n : Notify) : n.clear.Sound := by
  intro h
  cases h

theorem Sound.poll (h : n.Sound) : n.poll.Sound := by
  unfold Sound Notify.poll at *
  split
  · split
    · simp
    · rename_i hpermit
      split
      · simp
      · intro _
        simpa using hpermit
  · exact h

theorem due_notifyOne (n : Notify) : n.notifyOne.Due := by
  unfold notifyOne Due
  split
  · exact .inr (.inr rfl)
  · exact .inl rfl

theorem due_notifyWaiters (h : n.waiter ≠ .absent) : n.notifyWaiters.Due := by
  unfold notifyWaiters Due
  split
  · exact .inr (.inr rfl)
  · exact .inr (.inl rfl)
  · rename_i hregistered hcreated
    cases hwaiter : n.waiter with
    | absent => exact absurd hwaiter h
    | created called => exact absurd hwaiter (hcreated called)
    | registered => exact absurd hwaiter hregistered
    | done => exact .inr (.inr rfl)

theorem notifyWaiters_of_absent (h : n.waiter = .absent) : n.notifyWaiters = n := by
  rw [notifyWaiters, h]

theorem waiter_notifyOne_iff (n : Notify) :
    n.notifyOne.waiter = .absent ↔ n.waiter = .absent := by
  unfold notifyOne
  split
  · rename_i hregistered
    simp [hregistered]
  · exact Iff.rfl

theorem waiter_notifyWaiters_iff (n : Notify) :
    n.notifyWaiters.waiter = .absent ↔ n.waiter = .absent := by
  unfold notifyWaiters
  split
  · rename_i hregistered
    simp [hregistered]
  · rename_i called hcreated
    simp [hcreated]
  · exact Iff.rfl

theorem waiter_poll_iff (n : Notify) :
    n.poll.waiter = .absent ↔ n.waiter = .absent := by
  unfold poll
  split
  · rename_i called hcreated
    split
    · simp [hcreated]
    · split
      · simp [hcreated]
      · simp [hcreated]
  · exact Iff.rfl

/-- Without a future, only a permit is worth anything. -/
theorem due_of_absent (h : n.waiter = .absent) : n.Due ↔ n.permit = true := by
  rw [Due, h]
  simp

/-- A notification that is due ends the wait at the first poll. -/
theorem Due.poll {called : Bool} (h : n.Due) (hwaiter : n.waiter = .created called) :
    n.poll.waiter = .done := by
  unfold Due at h
  rw [hwaiter] at h
  rw [Notify.poll, hwaiter]
  dsimp only
  split
  · rfl
  · rename_i hpermit
    have hcalled : called = true := by simpa [hpermit] using h
    rw [if_pos hcalled]

/-- A task that is registered sleeps. -/
theorem Sound.not_due (h : n.Sound) (hwaiter : n.waiter = .registered) : ¬ n.Due := by
  rw [Due, h hwaiter, hwaiter]
  simp

end Notify
