import Plasmoid.Mailboxes

/-!
# The timeout of a receive

A receive with a timeout waits for a notification or for the end of the timeout,
whichever comes first.  After a notification it looks into the mailbox, and if
there is nothing for it, it waits again, with a timeout that starts anew.  So
messages for somebody else put off the moment at which it gives up.

A run of a receive is a function of the pushes that follow its start.  Looking
takes no time.  A push at the very end of a wait may or may not be noticed
(`tie`).
-/

namespace Plasmoid

/-- A push, and when it happens. -/
structure TimedPush where
  time : ℕ
  push : MailboxPush
deriving DecidableEq

/-- What a receive with a timeout comes to, and when the waits that it armed
would end. -/
structure TimedReceipt where
  result : Option MailboxMessage
  armed : List ℕ
deriving DecidableEq

/-- Another wait was armed before. -/
def TimedReceipt.arm (deadline : ℕ) (r : TimedReceipt) : TimedReceipt :=
  { r with armed := deadline :: r.armed }

/-- Does a push at this time end a wait until the deadline? -/
def endsWait (tie : Bool) (time deadline : ℕ) : Bool :=
  time < deadline || (tie && time = deadline)

namespace Mailbox

/-- A receive that waits until the deadline, and the pushes that follow. -/
def awaitPushes (tie : Bool) (call : Receive) (timeout : ℕ) :
    ℕ → Mailbox → List TimedPush → TimedReceipt
  | _, _, [] => ⟨none, []⟩
  | deadline, m, p :: ps =>
    if endsWait tie p.time deadline then
      match m.push p.push with
      | none => awaitPushes tie call timeout deadline m ps
      | some m =>
        match (m.turn call).1 with
        | .received msg => ⟨some msg, []⟩
        | .over => ⟨none, []⟩
        | .wait =>
          (awaitPushes tie call timeout (p.time + timeout) m ps).arm
            (p.time + timeout)
    else ⟨none, []⟩

/-- A receive with a timeout.  A permit from an earlier push ends the first wait
at once. -/
def receiveTimed (tie permit : Bool) (call : Receive) (timeout : ℕ) (now : ℕ)
    (m : Mailbox) (ps : List TimedPush) : TimedReceipt :=
  match (m.turn call).1 with
  | .received msg => ⟨some msg, []⟩
  | .over => ⟨none, []⟩
  | .wait =>
    let waited := (awaitPushes tie call timeout (now + timeout) m ps).arm
      (now + timeout)
    if permit then waited.arm (now + timeout) else waited

/-- `recv` with a timeout. -/
def recvTimed (tie permit : Bool) : ℕ → ℕ → Mailbox → List TimedPush →
    TimedReceipt :=
  receiveTimed tie permit .any

/-- `recv_ref` with a timeout. -/
def recvRefTimed (tie permit : Bool) (ref : UInt64) : ℕ → ℕ → Mailbox →
    List TimedPush → TimedReceipt :=
  receiveTimed tie permit (.withRef ref)

end Mailbox

/-- The receive returns nothing, and no wait lasts longer than the deadline. -/
def TimedReceipt.Within (r : TimedReceipt) (deadline : ℕ) : Prop :=
  r.result = none ∧ ∀ e ∈ r.armed, e ≤ deadline

theorem within_arm {r : TimedReceipt} {deadline e : ℕ} :
    (r.arm e).Within deadline ↔ e ≤ deadline ∧ r.Within deadline := by
  simp only [TimedReceipt.Within, TimedReceipt.arm, List.forall_mem_cons]
  tauto

theorem endsWait_mono {tie : Bool} {t t' deadline : ℕ} (hle : t ≤ t')
    (h : endsWait tie t' deadline = true) : endsWait tie t deadline = true := by
  simp only [endsWait, Bool.or_eq_true, Bool.and_eq_true, decide_eq_true_eq] at *
  rcases h with h | ⟨htie, h⟩
  · exact .inl (hle.trans_lt h)
  · rcases hle.lt_or_eq with hlt | heq
    · exact .inl (h ▸ hlt)
    · exact .inr ⟨htie, heq.trans h⟩

theorem le_of_endsWait {tie : Bool} {t deadline : ℕ}
    (h : endsWait tie t deadline = true) : t ≤ deadline := by
  simp only [endsWait, Bool.or_eq_true, Bool.and_eq_true, decide_eq_true_eq] at h
  omega

namespace Mailbox

variable {m m' : Mailbox} {call : Receive}

/-- Nothing in the mailbox is for the call, and more may come. -/
structure Lacks (m : Mailbox) (call : Receive) : Prop where
  isOpen : m.closed = false
  nothing : ∀ x ∈ m.queue, call.accepts x = false

theorem Lacks.turn (h : m.Lacks call) : (m.turn call).1 = .wait := by
  rw [turn_eq, takeFirst_eq_none.2 h.nothing]
  exact if_neg (by simp [h.isOpen])

theorem Lacks.push (h : m.Lacks call) {p : MailboxPush}
    (hpush : m.push p = some m') (hp : call.accepts p.msg = false) :
    m'.Lacks call := by
  rw [push_eq_some hpush]
  refine ⟨h.isOpen, fun x hx => ?_⟩
  have hx' : x ∈ (if p.msg.isUrgent = true then p.msg :: m.queue
    else m.queue ++ [p.msg]) := hx
  have hmem : x = p.msg ∨ x ∈ m.queue := by
    split at hx'
    · exact List.mem_cons.1 hx'
    · rw [List.mem_append, List.mem_singleton] at hx'
      exact hx'.symm
  rcases hmem with rfl | hmem
  · exact hp
  · exact h.nothing x hmem

/-- A push that is not for the call only starts the timeout anew. -/
theorem Lacks.awaitPushes_cons (h : m.Lacks call) {tie : Bool}
    {timeout deadline : ℕ} {p : TimedPush} {ps : List TimedPush}
    (hends : endsWait tie p.time deadline = true)
    (hp : call.accepts p.push.msg = false) :
    ∃ m', m'.Lacks call ∧
      awaitPushes tie call timeout deadline m (p :: ps) =
        (awaitPushes tie call timeout (p.time + timeout) m' ps).arm
          (p.time + timeout) := by
  obtain ⟨m', hpush⟩ := push_of_open h.isOpen p.push
  have h' := h.push hpush hp
  refine ⟨m', h', ?_⟩
  rw [awaitPushes, if_pos hends, hpush]
  dsimp only
  rw [h'.turn]

/-- The waits after the first one stay within the deadline as long as no push
comes later than the start. -/
theorem Lacks.within_iff (h : m.Lacks call) {tie : Bool} {now timeout : ℕ}
    {ps : List TimedPush} (hsorted : ps.Pairwise fun p q => p.time ≤ q.time)
    (hlater : ∀ p ∈ ps, now ≤ p.time)
    (hothers : ∀ p ∈ ps, p.time ≤ now + timeout → call.accepts p.push.msg = false) :
    (awaitPushes tie call timeout (now + timeout) m ps).Within (now + timeout) ↔
      ∀ p ∈ ps, endsWait tie p.time (now + timeout) = true → p.time = now := by
  induction ps generalizing m with
  | nil =>
    refine iff_of_true ⟨rfl, fun e he => absurd he List.not_mem_nil⟩ ?_
    exact fun p hp => absurd hp List.not_mem_nil
  | cons p ps ih =>
    rw [List.pairwise_cons] at hsorted
    by_cases hends : endsWait tie p.time (now + timeout) = true
    · have hp : call.accepts p.push.msg = false :=
        hothers p List.mem_cons_self (le_of_endsWait hends)
      obtain ⟨m', h', hloop⟩ := h.awaitPushes_cons hends hp
      rw [hloop, within_arm, List.forall_mem_cons]
      by_cases hnow : p.time = now
      · rw [hnow, ih h' hsorted.2 (fun q hq => hlater q (List.mem_cons_of_mem _ hq))
          fun q hq => hothers q (List.mem_cons_of_mem _ hq)]
        simp
      · -- This wait already lasts too long.
        have hlate := hlater p List.mem_cons_self
        refine iff_of_false (fun hwithin => ?_) fun hall => hnow (hall.1 hends)
        have hle := hwithin.1
        omega
    · have hstop : awaitPushes tie call timeout (now + timeout) m (p :: ps) =
          ⟨none, []⟩ := if_neg hends
      rw [hstop]
      refine iff_of_true ⟨rfl, fun e he => absurd he List.not_mem_nil⟩ ?_
      intro q hq hq'
      rcases List.mem_cons.1 hq with rfl | hq
      · exact absurd hq' hends
      · exact absurd (endsWait_mono (hsorted.1 q hq) hq') hends

/-- Any push that an open mailbox takes ends a wait of `recv`. -/
theorem awaitPushes_any (tie : Bool) (timeout deadline : ℕ)
    (hopen : m.closed = false) (ps : List TimedPush) :
    (awaitPushes tie .any timeout deadline m ps).armed = [] := by
  cases ps with
  | nil => rfl
  | cons p ps =>
    rw [awaitPushes]
    split
    · obtain ⟨m', hpush⟩ := push_of_open hopen p.push
      have hfound : (m'.turn .any).1 ≠ .wait := by
        have hqueue : m'.queue ≠ [] := by
          rw [push_eq_some hpush]
          dsimp only
          split <;> simp
        rw [turn, recvTurn]
        cases hm : m'.queue with
        | nil => exact absurd hm hqueue
        | cons msg rest => exact Turn.noConfusion
      rw [hpush]
      dsimp only
      split
      · rfl
      · rfl
      · exact absurd ‹_› hfound
    · rfl

/-- The timeout of `recv` is a total budget: no message is for somebody else,
so the timeout never starts anew. -/
theorem recvTimed_budget (tie permit : Bool) (timeout now : ℕ) (m : Mailbox)
    (ps : List TimedPush) :
    ∀ e ∈ (recvTimed tie permit timeout now m ps).armed, e ≤ now + timeout := by
  rw [recvTimed, receiveTimed]
  split
  · exact fun e he => absurd he List.not_mem_nil
  · exact fun e he => absurd he List.not_mem_nil
  · rename_i hwait
    have hopen : m.closed = false := by
      rw [turn, recvTurn] at hwait
      cases hclosed : m.closed with
      | false => rfl
      | true =>
        rw [hclosed] at hwait
        split at hwait <;> cases hwait
    have hnone := awaitPushes_any tie timeout (now + timeout) hopen ps
    cases permit <;> simp [TimedReceipt.arm, hnone]

/-- The timeout of `recv_ref` is a total budget if and only if the mailbox is
closed, or no push of any kind comes between the start and the deadline. -/
theorem recvRefTimed_within_iff (tie permit : Bool) (ref : UInt64)
    (timeout now : ℕ) (m : Mailbox) (ps : List TimedPush)
    (hsorted : ps.Pairwise fun p q => p.time ≤ q.time)
    (hlater : ∀ p ∈ ps, now ≤ p.time)
    (hqueued : ∀ x ∈ m.queue, x.refId ≠ some ref)
    (hothers : ∀ p ∈ ps, p.time ≤ now + timeout → p.push.msg.refId ≠ some ref) :
    (recvRefTimed tie permit ref timeout now m ps).Within (now + timeout) ↔
      m.closed = true ∨
        ∀ p ∈ ps, endsWait tie p.time (now + timeout) = true → p.time = now := by
  have hnone : ∀ x ∈ m.queue, (Receive.withRef ref).accepts x = false := by
    intro x hx
    exact Bool.eq_false_iff.2 fun href =>
      hqueued x hx (MailboxMessage.hasRef_iff.1 href)
  have hrejects : ∀ p ∈ ps, p.time ≤ now + timeout →
      (Receive.withRef ref).accepts p.push.msg = false := by
    intro p hp htime
    exact Bool.eq_false_iff.2 fun href =>
      hothers p hp htime (MailboxMessage.hasRef_iff.1 href)
  cases hclosed : m.closed with
  | true =>
    have hover : (m.turn (.withRef ref)).1 = .over := by
      rw [turn_eq, takeFirst_eq_none.2 hnone]
      exact if_pos hclosed
    rw [recvRefTimed, receiveTimed, hover]
    refine iff_of_true ⟨rfl, fun e he => absurd he List.not_mem_nil⟩ (.inl rfl)
  | false =>
    have hlacks : m.Lacks (.withRef ref) := ⟨hclosed, hnone⟩
    have hwithin : (recvRefTimed tie permit ref timeout now m ps).Within
        (now + timeout) ↔
        (awaitPushes tie (.withRef ref) timeout (now + timeout) m ps).Within
          (now + timeout) := by
      rw [recvRefTimed, receiveTimed, hlacks.turn]
      cases permit with
      | true => simp [within_arm]
      | false => simp [within_arm]
    rw [hwithin, hlacks.within_iff hsorted hlater hrejects]
    simp

/-- A message for somebody else, halfway through the timeout. -/
def halfway : List TimedPush := [⟨5, .data [7]⟩]

theorem recvRefTimed_within_iff_halfway :
    (recvRefTimed false false 99 10 0 .new halfway).Within (0 + 10) ↔
      Mailbox.new.closed = true ∨
        ∀ p ∈ halfway, endsWait false p.time (0 + 10) = true → p.time = 0 :=
  recvRefTimed_within_iff false false 99 10 0 .new halfway (by decide) (by decide)
    (by decide) (by decide)

/-- The receive waits until 15, though its timeout ends at 10. -/
theorem other_message_extends_timeout :
    recvRefTimed false false 99 10 0 .new halfway = ⟨none, [10, 15]⟩ ∧
      ¬ ∀ (tie permit : Bool) (ref : UInt64) (timeout now : ℕ) (m : Mailbox)
        (ps : List TimedPush), ps.Pairwise (fun p q => p.time ≤ q.time) →
        (∀ p ∈ ps, now ≤ p.time) → (∀ x ∈ m.queue, x.refId ≠ some ref) →
        (∀ p ∈ ps, p.time ≤ now + timeout → p.push.msg.refId ≠ some ref) →
        (recvRefTimed tie permit ref timeout now m ps).Within (now + timeout) := by
  have hruns : recvRefTimed false false 99 10 0 .new halfway =
      ⟨none, [10, 15]⟩ := by decide
  refine ⟨hruns, fun h => ?_⟩
  have hwithin := h false false 99 10 0 .new halfway (by decide) (by decide)
    (by decide) (by decide)
  rw [hruns] at hwithin
  exact absurd (hwithin.2 15 (by decide)) (by decide)

end Mailbox

end Plasmoid
