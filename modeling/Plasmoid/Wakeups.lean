import Plasmoid.Lib.Machine
import Plasmoid.Lib.Notify
import Plasmoid.Mailboxes

/-!
# Waking up a receive

A receive looks into the mailbox, lets go of the lock, creates a future and
waits for it.  A push notifies one waiter, and leaves a permit when there is
none.  A close notifies all waiters, and leaves nothing.  So a message always
ends the wait.  A close whose notification comes between the look and the future
is missed, and the receive may sleep for ever on a closed mailbox.
-/

namespace Plasmoid

open Machine

/-- How far the receiver is. -/
inductive ReceiverPhase where
  | idle
  /-- About to look into the mailbox. -/
  | looking (call : Receive)
  /-- There was nothing, and the lock is free again. -/
  | looked (call : Receive)
  /-- The future exists. -/
  | awaiting (call : Receive)
deriving DecidableEq

/-- A mailbox with its one receiver, and the notifications still to be given by
pushes and closes that have let go of the lock. -/
structure ReceiverState where
  mailbox : Mailbox
  notify : Notify
  phase : ReceiverPhase
  ones : ℕ
  alls : ℕ

inductive ReceiverAction where
  /-- The receiver calls `recv` or `recv_ref`, without a timeout. -/
  | call (call : Receive)
  | look
  | notified
  | poll
  /-- The future is ready, and the loop starts again. -/
  | resume
  | push (p : MailboxPush)
  | notifyOne
  | close
  | notifyWaiters
deriving DecidableEq

namespace ReceiverState

def start : ReceiverState := ⟨.new, .new, .idle, 0, 0⟩

def step (s : ReceiverState) : ReceiverAction → Option ReceiverState
  | .call call =>
    if s.phase = .idle then some { s with phase := .looking call } else none
  | .look =>
    match s.phase with
    | .looking call =>
      let turn := s.mailbox.turn call
      some { s with
        mailbox := turn.2
        phase := if turn.1 = .wait then .looked call else .idle }
    | _ => none
  | .notified =>
    match s.phase with
    | .looked call =>
      some { s with notify := s.notify.notified, phase := .awaiting call }
    | _ => none
  | .poll =>
    match s.phase, s.notify.waiter with
    | .awaiting _, .created _ => some { s with notify := s.notify.poll }
    | _, _ => none
  | .resume =>
    match s.phase, s.notify.waiter with
    | .awaiting call, .done =>
      some { s with notify := s.notify.clear, phase := .looking call }
    | _, _ => none
  | .push p =>
    match s.mailbox.push p with
    | some m => some { s with mailbox := m, ones := s.ones + 1 }
    | none => some s
  | .notifyOne =>
    if 0 < s.ones then
      some { s with notify := s.notify.notifyOne, ones := s.ones - 1 }
    else none
  | .close => some { s with mailbox := s.mailbox.close, alls := s.alls + 1 }
  | .notifyWaiters =>
    if 0 < s.alls then
      some { s with notify := s.notify.notifyWaiters, alls := s.alls - 1 }
    else none

/-- Would the call return if it looked now? -/
def Ready (s : ReceiverState) (call : Receive) : Prop :=
  s.mailbox.closed = true ∨ ∃ m ∈ s.mailbox.queue, call.accepts m = true

/-- The receiver sleeps, nobody is about to wake it, and the call would
return. -/
def SleepsThrough (s : ReceiverState) : Prop :=
  ∃ call, s.phase = .awaiting call ∧ s.notify.waiter = .registered ∧
    s.ones = 0 ∧ s.alls = 0 ∧ s.Ready call

/-- The notification of a close does not fall between the look and the future,
unless there is a permit or another notification is still to come. -/
def NotMissed (s : ReceiverState) : ReceiverAction → Prop
  | .notifyWaiters => (∃ call, s.phase = .looked call) →
    s.notify.permit = true ∨ 0 < s.ones ∨ 1 < s.alls
  | _ => True

/-- The receiver will look again. -/
def WillLook (s : ReceiverState) : Prop :=
  s.notify.Due ∨ 0 < s.ones ∨ 0 < s.alls

/-- A receiver that has found nothing is awoken when that changes. -/
def Wakes (s : ReceiverState) : Prop :=
  ∀ call, s.phase = .looked call ∨ s.phase = .awaiting call →
    s.Ready call → s.WillLook

/-- There is a future while the receiver waits for it, and a close announces
itself. -/
structure ReceiverInv (s : ReceiverState) : Prop where
  sound : s.notify.Sound
  absent : (∀ call, s.phase ≠ .awaiting call) → s.notify.waiter = .absent
  present : ∀ call, s.phase = .awaiting call → s.notify.waiter ≠ .absent
  closed : 0 < s.alls → s.mailbox.closed = true

variable {s t : ReceiverState} {call : Receive}

theorem receiverInv_start : start.ReceiverInv where
  sound := Notify.sound_new
  absent := fun _ => rfl
  present := fun _ h => by cases h
  closed := fun h => by cases h

theorem wakes_start : start.Wakes := by
  rintro call (h | h)
  · cases h
  · cases h

theorem ReceiverInv.not_sleepsThrough (h : s.ReceiverInv) (hwakes : s.Wakes) :
    ¬ s.SleepsThrough := by
  rintro ⟨call, hphase, hregistered, hones, halls, hready⟩
  obtain hdue | hone | hall := hwakes call (.inr hphase) hready
  · exact h.sound.not_due hregistered hdue
  · omega
  · omega

/-- Outside of a wait there is no future. -/
theorem ReceiverInv.absent_of_phase (h : s.ReceiverInv) {phase : ReceiverPhase}
    (hphase : s.phase = phase) (hno : ∀ call, phase ≠ .awaiting call) :
    s.notify.waiter = .absent :=
  h.absent fun call => by
    rw [hphase]
    exact hno call

/-! ## One turn of the loop -/

theorem of_turn_wait {m : Mailbox} {call : Receive}
    (h : (m.turn call).1 = .wait) :
    m.closed = false ∧ (∀ x ∈ m.queue, call.accepts x = false) ∧
      (m.turn call).2 = m := by
  rw [Mailbox.turn_eq] at h ⊢
  cases htake : takeFirst call.accepts m.queue with
  | none =>
    rw [htake] at h
    refine ⟨?_, takeFirst_eq_none.1 htake, rfl⟩
    dsimp only at h
    split at h
    · cases h
    · rename_i hopen
      simpa using hopen
  | some x =>
    rw [htake] at h
    cases h

theorem closed_turn (m : Mailbox) (call : Receive) :
    (m.turn call).2.closed = m.closed := by
  rw [Mailbox.turn_eq]
  split <;> rfl

theorem not_ready_of_wait {call : Receive}
    (h : (s.mailbox.turn call).1 = .wait) :
    ¬ ({ s with mailbox := (s.mailbox.turn call).2 } : ReceiverState).Ready call := by
  obtain ⟨hopen, hnone, hsame⟩ := of_turn_wait h
  rintro (hclosed | ⟨x, hx, haccepts⟩)
  · have hclosed' : (s.mailbox.turn call).2.closed = true := hclosed
    rw [closed_turn, hopen] at hclosed'
    cases hclosed'
  · have hx' : x ∈ (s.mailbox.turn call).2.queue := hx
    rw [hsame] at hx'
    rw [hnone x hx'] at haccepts
    cases haccepts

/-- A receiver that goes to wait has found nothing. -/
theorem wakes_look (s : ReceiverState) (call : Receive) :
    Wakes { s with
      mailbox := (s.mailbox.turn call).2
      phase := if (s.mailbox.turn call).1 = .wait then .looked call else .idle } := by
  intro call' hcall' hready
  have hcall'' : (if (s.mailbox.turn call).1 = .wait then
      ReceiverPhase.looked call else .idle) = .looked call' ∨
    (if (s.mailbox.turn call).1 = .wait then
      ReceiverPhase.looked call else .idle) = .awaiting call' := hcall'
  split at hcall''
  · rename_i hwait
    obtain rfl : call = call' := by simpa using hcall''
    exact absurd hready (not_ready_of_wait hwait)
  · simp at hcall''

/-- The future takes over the permit. -/
theorem wakes_notified (h : s.ReceiverInv) (hwakes : s.Wakes)
    (hphase : s.phase = .looked call) :
    Wakes { s with notify := s.notify.notified, phase := .awaiting call } := by
  intro call' hcall' hready
  obtain rfl : call = call' := by simpa using hcall'
  have habsent := h.absent_of_phase hphase (by simp)
  obtain hdue | hmore := hwakes call (.inl hphase) hready
  · exact .inl (.inl ((Notify.due_of_absent habsent).1 hdue))
  · exact .inr hmore

theorem wakes_poll (hwakes : s.Wakes) {called : Bool}
    (hcreated : s.notify.waiter = .created called) :
    Wakes { s with notify := s.notify.poll } := by
  intro call' hcall' hready
  obtain hdue | hmore := hwakes call' hcall' hready
  · exact .inl (.inr (.inr (hdue.poll hcreated)))
  · exact .inr hmore

/-- A close is heard by a receiver with a future, or something else is. -/
theorem wakes_notifyWaiters (h : s.ReceiverInv)
    (hnotMissed : s.NotMissed .notifyWaiters) :
    Wakes { s with notify := s.notify.notifyWaiters, alls := s.alls - 1 } := by
  intro call hcall _
  by_cases habsent : s.notify.waiter = .absent
  · have hlooked : s.phase = .looked call :=
      hcall.resolve_right fun hawaiting => h.present call hawaiting habsent
    obtain hpermit | hone | hmore := hnotMissed ⟨call, hlooked⟩
    · left
      show s.notify.notifyWaiters.Due
      rw [Notify.notifyWaiters_of_absent habsent]
      exact .inl hpermit
    · exact .inr (.inl hone)
    · right
      right
      show 0 < s.alls - 1
      omega
  · exact .inl (Notify.due_notifyWaiters habsent)

/-! ## One step -/

theorem ReceiverInv.step (h : s.ReceiverInv) {a : ReceiverAction}
    (hnext : s.step a = some t) : t.ReceiverInv := by
  cases a with
  | call call =>
    rw [ReceiverState.step] at hnext
    split at hnext
    · rename_i hidle
      cases hnext
      exact ⟨h.sound, fun _ => h.absent_of_phase hidle (by simp),
        fun _ hcall => ReceiverPhase.noConfusion hcall, h.closed⟩
    · cases hnext
  | look =>
    rw [ReceiverState.step] at hnext
    split at hnext
    · rename_i call hphase
      cases hnext
      refine ⟨h.sound, fun _ => h.absent_of_phase hphase (by simp), ?_, ?_⟩
      · intro call' hcall'
        have hcall'' : (if (s.mailbox.turn call).1 = .wait then
          ReceiverPhase.looked call else .idle) = .awaiting call' := hcall'
        split at hcall''
        · cases hcall''
        · cases hcall''
      · intro hall
        exact (closed_turn s.mailbox call).trans (h.closed hall)
    · cases hnext
  | notified =>
    rw [ReceiverState.step] at hnext
    split at hnext
    · rename_i call hphase
      cases hnext
      exact ⟨Notify.sound_notified _, fun hno => absurd rfl (hno call),
        fun _ _ habsent => Waiter.noConfusion habsent, h.closed⟩
    · cases hnext
  | poll =>
    rw [ReceiverState.step] at hnext
    split at hnext
    · cases hnext
      exact ⟨h.sound.poll,
        fun hno => (Notify.waiter_poll_iff _).2 (h.absent hno),
        fun call hcall habsent =>
          h.present call hcall ((Notify.waiter_poll_iff _).1 habsent), h.closed⟩
    · cases hnext
  | resume =>
    rw [ReceiverState.step] at hnext
    split at hnext
    · cases hnext
      exact ⟨Notify.sound_clear _, fun _ => rfl,
        fun _ hcall => ReceiverPhase.noConfusion hcall, h.closed⟩
    · cases hnext
  | push p =>
    rw [ReceiverState.step] at hnext
    split at hnext
    · rename_i m hpush
      cases hnext
      refine ⟨h.sound, h.absent, h.present, fun hall => ?_⟩
      show m.closed = true
      rw [Mailbox.push_eq_some hpush]
      exact h.closed hall
    · cases hnext
      exact h
  | notifyOne =>
    rw [ReceiverState.step] at hnext
    split at hnext
    · cases hnext
      exact ⟨Notify.sound_notifyOne _,
        fun hno => (Notify.waiter_notifyOne_iff _).2 (h.absent hno),
        fun call hcall habsent =>
          h.present call hcall ((Notify.waiter_notifyOne_iff _).1 habsent), h.closed⟩
    · cases hnext
  | close =>
    cases hnext
    exact ⟨h.sound, h.absent, h.present, fun _ => rfl⟩
  | notifyWaiters =>
    rw [ReceiverState.step] at hnext
    split at hnext
    · rename_i hall
      cases hnext
      exact ⟨h.sound.notifyWaiters,
        fun hno => (Notify.waiter_notifyWaiters_iff _).2 (h.absent hno),
        fun call hcall habsent =>
          h.present call hcall ((Notify.waiter_notifyWaiters_iff _).1 habsent),
        fun _ => h.closed hall⟩
    · cases hnext

/-- Unless the notification of a close is missed, a receiver that has found
nothing is awoken when that changes. -/
theorem wakes_step (h : s.ReceiverInv) (hwakes : s.Wakes) {a : ReceiverAction}
    (hnotMissed : s.NotMissed a) (hnext : s.step a = some t) : t.Wakes := by
  cases a with
  | call call =>
    rw [ReceiverState.step] at hnext
    split at hnext
    · cases hnext
      rintro call' (hcall' | hcall')
      · cases hcall'
      · cases hcall'
    · cases hnext
  | look =>
    rw [ReceiverState.step] at hnext
    split at hnext
    · rename_i call hphase
      cases hnext
      exact wakes_look s call
    · cases hnext
  | notified =>
    rw [ReceiverState.step] at hnext
    split at hnext
    · rename_i call hphase
      cases hnext
      exact wakes_notified h hwakes hphase
    · cases hnext
  | poll =>
    rw [ReceiverState.step] at hnext
    split at hnext
    · rename_i call called hphase hcreated
      cases hnext
      exact wakes_poll hwakes hcreated
    · cases hnext
  | resume =>
    rw [ReceiverState.step] at hnext
    split at hnext
    · cases hnext
      rintro call' (hcall' | hcall')
      · cases hcall'
      · cases hcall'
    · cases hnext
  | push p =>
    rw [ReceiverState.step] at hnext
    split at hnext
    · cases hnext
      exact fun _ _ _ => .inr (.inl (Nat.succ_pos _))
    · cases hnext
      exact hwakes
  | notifyOne =>
    rw [ReceiverState.step] at hnext
    split at hnext
    · cases hnext
      exact fun _ _ _ => .inl (Notify.due_notifyOne _)
    · cases hnext
  | close =>
    cases hnext
    exact fun _ _ _ => .inr (.inr (Nat.succ_pos _))
  | notifyWaiters =>
    rw [ReceiverState.step] at hnext
    split at hnext
    · cases hnext
      exact wakes_notifyWaiters h hnotMissed
    · cases hnext

/-! ## All runs -/

theorem receiverInv_of_run (h : Run step anyStep start s) : s.ReceiverInv :=
  h.invariant (fun hs _ hnext => hs.step hnext) receiverInv_start

/-- What the steps of a run without a missed close keep. -/
structure AwakeInv (s : ReceiverState) : Prop where
  inv : s.ReceiverInv
  wakes : s.Wakes

theorem awakeInv_of_run (h : Run step NotMissed start s) : s.AwakeInv :=
  h.invariant
    (fun hs hgood hnext => ⟨hs.inv.step hnext, wakes_step hs.inv hs.wakes hgood hnext⟩)
    ⟨receiverInv_start, wakes_start⟩

/-- A receiver that misses the notification of a close goes to sleep. -/
theorem sleeps_of_missed (h : s.ReceiverInv) {a : ReceiverAction}
    (hmissed : ¬ s.NotMissed a) (hnext : s.step a = some t) :
    ∃ u, Run step anyStep t u ∧ u.SleepsThrough := by
  cases a with
  | notifyWaiters =>
    rw [NotMissed] at hmissed
    push Not at hmissed
    obtain ⟨⟨call, hphase⟩, hpermit, hones, halls⟩ := hmissed
    rw [ReceiverState.step] at hnext
    split at hnext
    · rename_i hall
      cases hnext
      have habsent := h.absent_of_phase hphase (by simp)
      have hclosed := h.closed hall
      obtain ⟨mailbox, ⟨permit, waiter⟩, phase, ones, alls⟩ := s
      obtain rfl : phase = .looked call := hphase
      obtain rfl : waiter = .absent := habsent
      obtain rfl : permit = false := by simpa using hpermit
      refine ⟨⟨mailbox, ⟨false, .registered⟩, .awaiting call, ones, alls - 1⟩,
        ?_, call, rfl, rfl, ?_, ?_, .inl hclosed⟩
      · have hnotified : Run step anyStep
            ⟨mailbox, ⟨false, .absent⟩, .looked call, ones, alls - 1⟩
            ⟨mailbox, ⟨false, .created false⟩, .awaiting call, ones, alls - 1⟩ :=
          .single (a := .notified) trivial rfl
        exact hnotified.tail (a := .poll) trivial rfl
      · exact Nat.le_zero.1 hones
      · show alls - 1 = 0
        have hfew : alls ≤ 1 := halls
        omega
    · cases hnext
  | _ => exact absurd trivial hmissed

/-- No receive sleeps through a close or a message in a run that misses no
notification of a close.  One that is missed can put the receiver to sleep. -/
theorem receiver_wakes_unless_close_missed (s : ReceiverState) :
    (Run step NotMissed start s → ¬ s.SleepsThrough) ∧
    (Run step anyStep start s → ∀ a t, ¬ s.NotMissed a → s.step a = some t →
      ∃ u, Run step anyStep t u ∧ u.SleepsThrough) := by
  refine ⟨fun hrun => ?_, fun hrun a t hmissed hnext => ?_⟩
  · obtain ⟨hinv, hwakes⟩ := awakeInv_of_run hrun
    exact hinv.not_sleepsThrough hwakes
  · exact sleeps_of_missed (receiverInv_of_run hrun) hmissed hnext

/-- The mailbox is closed between the look and the future. -/
def closeInBetween : List ReceiverAction :=
  [.call .any, .look, .close, .notifyWaiters, .notified, .poll]

instance (s : ReceiverState) : Decidable s.SleepsThrough :=
  match h : s.phase with
  | .awaiting call =>
    decidable_of_iff (s.notify.waiter = .registered ∧ s.ones = 0 ∧ s.alls = 0 ∧
      (s.mailbox.closed = true ∨ ∃ m ∈ s.mailbox.queue, call.accepts m = true))
      ⟨fun hsleeps => ⟨call, h, hsleeps⟩, fun ⟨call', hcall', hsleeps⟩ => by
        obtain rfl : call = call' := by simpa [h] using hcall'
        exact hsleeps⟩
  | .idle | .looking _ | .looked _ =>
    isFalse fun ⟨_, hcall, _⟩ => by simp [h] at hcall

/-- The receiver sleeps on a closed mailbox. -/
theorem receiver_sleeps_through_close :
    ∃ s, Run step anyStep start s ∧ s.SleepsThrough :=
  exec_run_of_any closeInBetween (by decide +kernel)

end ReceiverState

end Plasmoid
