import Mathlib.Data.List.Basic
import Mathlib.Tactic

/-!
# A broadcast channel that forgets

A bounded broadcast channel keeps the newest `capacity` events.  Its senders
never wait.  A receiver reads from a place of its own; when the channel no
longer keeps the event at that place, the receiver is told that it lags and
goes on at the oldest event that is kept.

The log holds every event ever sent, and a receiver is the number of events
that it is done with.  `AheadAt` says that an event is still to be read.  The
two rules are what sending does to it (`AheadAt.send`) and what reading does
(`AheadAt.recv`).
-/

namespace Broadcast

variable {α : Type}

/-- What a receiver gets. -/
inductive Received (α : Type) where
  | waits
  | lagged
  | event (x : α)

/-- Read once, and move on. -/
def recv (capacity : Nat) (log : List α) (cursor : Nat) : Received α × Nat :=
  if capacity < log.length - cursor then (.lagged, log.length - capacity)
  else
    match log[cursor]? with
    | none => (.waits, cursor)
    | some x => (.event x, cursor + 1)

/-- Event `i` is `x`, and the receiver has yet to read it. -/
structure AheadAt (capacity : Nat) (log : List α) (cursor i : Nat) (x : α) :
    Prop where
  get : log[i]? = some x
  unread : cursor ≤ i
  kept : log.length ≤ i + capacity

variable {capacity cursor i : Nat} {log : List α} {x y : α}

theorem AheadAt.lt_length (h : AheadAt capacity log cursor i x) : i < log.length :=
  (List.getElem?_eq_some_iff.1 h.get).1

/-- The event that was sent last. -/
theorem aheadAt_sent (hcapacity : 0 < capacity) (hcursor : cursor ≤ log.length) :
    AheadAt capacity (log ++ [x]) cursor log.length x where
  get := List.getElem?_concat_length
  unread := hcursor
  kept := by
    rw [List.length_append, List.length_singleton]
    exact Nat.add_le_add_left hcapacity _

/-- Sending keeps an event ahead, if it is not the oldest one of a full
channel. -/
theorem AheadAt.send (h : AheadAt capacity log cursor i x)
    (hroom : log.length < i + capacity) : AheadAt capacity (log ++ [y]) cursor i x where
  get := (List.getElem?_append_left h.lt_length).trans h.get
  unread := h.unread
  kept := by
    rw [List.length_append, List.length_singleton]
    exact hroom

/-- A receiver with an event ahead reads that event, or comes closer to it. -/
theorem AheadAt.recv (h : AheadAt capacity log cursor i x) :
    recv capacity log cursor = (.event x, cursor + 1) ∧ cursor = i ∨
      (Broadcast.recv capacity log cursor).1 ≠ .waits ∧
        cursor < (Broadcast.recv capacity log cursor).2 ∧
        AheadAt capacity log (Broadcast.recv capacity log cursor).2 i x := by
  have hlt := h.lt_length
  by_cases hlag : capacity < log.length - cursor
  · have hrecv : Broadcast.recv capacity log cursor =
        (.lagged, log.length - capacity) := if_pos hlag
    rw [hrecv]
    refine .inr ⟨nofun, ?_, h.get, ?_, h.kept⟩
    · show cursor < log.length - capacity
      omega
    · show log.length - capacity ≤ i
      exact Nat.sub_le_iff_le_add.2 h.kept
  · have hcursor : cursor < log.length := lt_of_le_of_lt h.unread hlt
    have hrecv : Broadcast.recv capacity log cursor =
        (.event log[cursor], cursor + 1) := by
      rw [Broadcast.recv, if_neg hlag, List.getElem?_eq_getElem hcursor]
    rw [hrecv]
    rcases h.unread.eq_or_lt with rfl | hbefore
    · have hx : log[cursor] = x := by
        rw [← Option.some_inj, ← List.getElem?_eq_getElem hcursor, h.get]
      exact .inl ⟨by rw [hx], rfl⟩
    · exact .inr ⟨nofun, Nat.lt_succ_self _, h.get, hbefore, h.kept⟩

/-- A receiver with an event ahead is not at the end of the log. -/
theorem AheadAt.cursor_lt (h : AheadAt capacity log cursor i x) :
    cursor < log.length :=
  lt_of_le_of_lt h.unread h.lt_length

/-- What a receiver reads was sent. -/
theorem mem_of_recv (h : (recv capacity log cursor).1 = .event x) : x ∈ log := by
  rw [recv] at h
  split at h
  · cases h
  · cases hget : log[cursor]? with
    | none =>
      rw [hget] at h
      cases h
    | some y =>
      rw [hget] at h
      cases h
      exact List.mem_of_getElem? hget

/-- A receiver does not run past the end of the log. -/
theorem recv_le (hcursor : cursor ≤ log.length) :
    (recv capacity log cursor).2 ≤ log.length := by
  rw [recv]
  split
  · exact Nat.sub_le _ _
  · cases hget : log[cursor]? with
    | none => exact hcursor
    | some x => exact (List.getElem?_eq_some_iff.1 hget).1

end Broadcast
