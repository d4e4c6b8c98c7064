import Mathlib.Order.Basic
import Mathlib.Tactic

/-!
# Sliding windows over a log of events

A brake that counts recent events keeps them in a queue, oldest first, and
drops the old ones from the front.  It drops them only now and then, so the
queue is compared with the log of all events: `Tracks time cutoff log queue`
says that the queue is what the log has from the cutoff on.  It is kept by
every push, as long as events and cutoffs come in order.
-/

namespace Window

variable {α β : Type} [LinearOrder β] {time : α → β}

/-- Drop the events before the cutoff, from the oldest on. -/
def expire (time : α → β) (cutoff : β) (queue : List α) : List α :=
  queue.dropWhile fun e => time e < cutoff

/-- Events in the order of their times. -/
def Ordered (time : α → β) (log : List α) : Prop :=
  log.Pairwise fun e e' => time e ≤ time e'

/-- The events from the cutoff on. -/
def since (time : α → β) (cutoff : β) (log : List α) : List α :=
  log.filter fun e => cutoff ≤ time e

/-- In a log that is in order, pruning the front drops all old events. -/
theorem expire_of_ordered {log : List α} (h : Ordered time log) (cutoff : β) :
    expire time cutoff log = since time cutoff log := by
  induction log with
  | nil => rfl
  | cons e log ih =>
    obtain ⟨he, hlog⟩ := List.pairwise_cons.1 h
    by_cases hold : time e < cutoff
    · rw [expire, since, List.dropWhile_cons_of_pos (by simpa using hold),
        List.filter_cons_of_neg (by simpa using hold)]
      exact ih hlog
    · have hkept : ∀ x ∈ e :: log, cutoff ≤ time x := by
        intro x hx
        rcases List.mem_cons.1 hx with rfl | hx
        · exact not_lt.1 hold
        · exact (not_lt.1 hold).trans (he x hx)
      rw [expire, since, List.dropWhile_cons_of_neg (by simpa using hold),
        List.filter_eq_self.2 fun x hx => by simpa using hkept x hx]

/-- The queue is what the log has from the cutoff on. -/
structure Tracks (time : α → β) (cutoff : β) (log queue : List α) : Prop where
  ordered : Ordered time log
  queue : queue = since time cutoff log

theorem tracks_nil (time : α → β) (cutoff : β) : Tracks time cutoff [] [] :=
  ⟨List.Pairwise.nil, rfl⟩

variable {cutoff cutoff' : β} {log queue new : List α}

/-- New events come after the old ones, and the cutoff moves on. -/
theorem Tracks.push (h : Tracks time cutoff log queue) (hcutoff : cutoff ≤ cutoff')
    (hnew : Ordered time new) (hlater : ∀ e ∈ log, ∀ e' ∈ new, time e ≤ time e') :
    Tracks time cutoff' (log ++ new) (expire time cutoff' (queue ++ new)) := by
  have hordered : Ordered time (log ++ new) :=
    List.pairwise_append.2 ⟨h.ordered, hnew, hlater⟩
  have hqueue : Ordered time (queue ++ new) := by
    refine hordered.sublist (List.Sublist.append_right ?_ new)
    rw [h.queue]
    exact List.filter_sublist
  refine ⟨hordered, ?_⟩
  rw [expire_of_ordered hqueue, since, since, List.filter_append,
    List.filter_append, h.queue, since, List.filter_filter]
  -- What the old cutoff dropped, the new one drops too.
  congr 1
  refine List.filter_congr fun e _ => ?_
  by_cases he : cutoff' ≤ time e
  · simp [he, hcutoff.trans he]
  · simp [he]

/-- The queue is as long as the window is full. -/
theorem Tracks.length_queue (h : Tracks time cutoff log queue) :
    queue.length = log.countP fun e => cutoff ≤ time e := by
  rw [h.queue, since, List.countP_eq_length_filter]

end Window
