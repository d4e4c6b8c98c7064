import Plasmoid.Lib.Lanes
import Plasmoid.Message

/-!
# Pushing and receiving

Signals are pushed to the front of a mailbox and everything else to the back.
`recv` takes the first message and `recv_ref` the first one with a ref.  A
`Turn` is what one pass of their loops comes to; the waiting between two passes
is not part of it.

A `MailboxLog` keeps next to the mailbox the numbers of its messages, in the
order in which they were accepted.  Ordinary messages are received in this
order.  Signals are received in the opposite order, the latest one first.
-/

namespace Plasmoid

open Lanes

namespace MailboxMessage

/-- The ref that a message carries. -/
def refId : MailboxMessage → Option UInt64
  | tagged r _ | down _ r _ | spawnReply r _ => some r
  | data _ | exit .. => none

/-- Does the message count as data? -/
def isCounted : MailboxMessage → Bool
  | data _ | tagged .. => true
  | _ => false

theorem hasRef_iff {ref : UInt64} {msg : MailboxMessage} :
    msg.hasRef ref = true ↔ msg.refId = some ref := by
  cases msg <;> simp [hasRef, refId]

theorem isCounted_of_hasRef {ref : UInt64} {msg : MailboxMessage}
    (h : msg.hasRef ref = true) : msg.isCounted = msg.isTagged := by
  cases msg with
  | data payload => cases h
  | _ => rfl

/-- `recv_ref` looks for tagged messages only, and those count. -/
theorem isCounted_of_isTagged {msg : MailboxMessage} (h : msg.isTagged = true) :
    msg.isCounted = true := by
  cases msg with
  | tagged refId payload => rfl
  | _ => cases h

end MailboxMessage

@[simp] theorem SystemMessage.isUrgent_toMailbox (msg : SystemMessage) :
    msg.toMailbox.isUrgent = true := by
  cases msg <;> rfl

@[simp] theorem SystemMessage.isCounted_toMailbox (msg : SystemMessage) :
    msg.toMailbox.isCounted = false := by
  cases msg <;> rfl

/-- A push, with what it carries. -/
inductive MailboxPush where
  | data (payload : List UInt8)
  | tagged (refId : UInt64) (payload : List UInt8)
  | spawnReply (refId : UInt64) (outcome : Pid ⊕ SpawnFailure)
  | system (msg : SystemMessage)
deriving DecidableEq

/-- The message that a push leaves in the queue. -/
def MailboxPush.msg : MailboxPush → MailboxMessage
  | data payload => .data payload
  | tagged refId payload => .tagged refId payload
  | spawnReply refId outcome => .spawnReply refId outcome
  | system msg => msg.toMailbox

/-- `recv`, or `recv_ref` with its ref. -/
inductive Receive where
  | any
  | withRef (refId : UInt64)
deriving DecidableEq

/-- Does the call return this message? -/
def Receive.accepts : Receive → MailboxMessage → Bool
  | any, _ => true
  | withRef ref, msg => msg.hasRef ref

/-- One turn of the loop of a receive. -/
inductive Turn where
  | received (msg : MailboxMessage)
  /-- The mailbox is closed, and nothing is left. -/
  | over
  | wait
deriving DecidableEq

namespace Mailbox

/-- Push a spawn reply.  Dropped when the particle is gone. -/
def pushSpawnReply (m : Mailbox) (refId : UInt64)
    (outcome : Pid ⊕ SpawnFailure) : Mailbox :=
  if m.closed then m
  else { m with queue := m.queue ++ [.spawnReply refId outcome] }

/-- A push.  `none` is a mailbox that does not take it, so nobody is
notified. -/
def push (m : Mailbox) : MailboxPush → Option Mailbox
  | .data payload => m.pushData payload
  | .tagged refId payload => m.pushTagged refId payload
  | .spawnReply refId outcome =>
    if m.closed then none else some (m.pushSpawnReply refId outcome)
  | .system msg => some (m.pushSystem msg)

/-- One turn of the loop of `recv`. -/
def recvTurn (m : Mailbox) : Turn × Mailbox :=
  match m.queue with
  | msg :: rest => (.received msg, { m with
      queue := rest
      dataCount := if msg.isCounted then m.dataCount - 1 else m.dataCount })
  | [] => (if m.closed then .over else .wait, m)

/-- One turn of the loop of `recv_ref`. -/
def recvRefTurn (m : Mailbox) (ref : UInt64) : Turn × Mailbox :=
  match takeFirst (MailboxMessage.hasRef ref) m.queue with
  | some (msg, rest) => (.received msg, { m with
      queue := rest
      dataCount := if msg.isTagged then m.dataCount - 1 else m.dataCount })
  | none => (if m.closed then .over else .wait, m)

def turn (m : Mailbox) : Receive → Turn × Mailbox
  | .any => m.recvTurn
  | .withRef ref => m.recvRefTurn ref

/-- What calls of `recv` return one after the other. -/
def receipts (m : Mailbox) : ℕ → List Turn
  | 0 => []
  | k + 1 => m.recvTurn.1 :: m.recvTurn.2.receipts k

/-- The counter counts the data messages in the queue. -/
def Counts (m : Mailbox) : Prop :=
  m.dataCount = m.queue.countP MailboxMessage.isCounted

/-- A mailbox without one of its messages. -/
def without (m : Mailbox) (msg : MailboxMessage) (rest : List MailboxMessage) :
    Mailbox :=
  { m with
    queue := rest
    dataCount := if msg.isCounted then m.dataCount - 1 else m.dataCount }

variable {m m' : Mailbox}

/-- Both receives take the first message that they accept. -/
theorem turn_eq (m : Mailbox) (call : Receive) :
    m.turn call =
      match takeFirst call.accepts m.queue with
      | some (msg, rest) => (.received msg, m.without msg rest)
      | none => (if m.closed then .over else .wait, m) := by
  cases call with
  | any =>
    rw [turn, recvTurn]
    cases hqueue : m.queue with
    | nil => rfl
    | cons msg rest => rfl
  | withRef ref =>
    rw [turn, recvRefTurn]
    show _ = match takeFirst (MailboxMessage.hasRef ref) m.queue with
      | some (msg, rest) => (Turn.received msg, m.without msg rest)
      | none => (if m.closed then .over else .wait, m)
    cases htake : takeFirst (MailboxMessage.hasRef ref) m.queue with
    | none => rfl
    | some x =>
      obtain ⟨before, behind, -, -, href, -⟩ := takeFirst_eq_some.1
        (show takeFirst _ _ = some (x.1, x.2) from htake)
      dsimp only
      rw [without, MailboxMessage.isCounted_of_hasRef href]

/-- Where a push puts its message. -/
theorem push_eq_some {p : MailboxPush} (h : m.push p = some m') :
    m' = { m with
      queue := if p.msg.isUrgent then p.msg :: m.queue else m.queue ++ [p.msg]
      dataCount := if p.msg.isCounted then m.dataCount + 1 else m.dataCount } := by
  cases p with
  | data payload =>
    rw [push, pushData] at h
    split at h
    · cases h
    · cases h
      rfl
  | tagged refId payload =>
    rw [push, pushTagged] at h
    split at h
    · cases h
    · cases h
      rfl
  | spawnReply refId outcome =>
    rw [push, pushSpawnReply] at h
    split at h
    · cases h
    · cases h
      rfl
  | system msg =>
    cases h
    simp [pushSystem, MailboxPush.msg]

/-- A closed mailbox takes nothing but signals. -/
theorem push_eq_none_iff {p : MailboxPush} :
    m.push p = none ↔ m.closed = true ∧ p.msg.isUrgent = false := by
  cases p with
  | data payload => simp [push, pushData, MailboxPush.msg, MailboxMessage.isUrgent]
  | tagged refId payload =>
    simp [push, pushTagged, MailboxPush.msg, MailboxMessage.isUrgent]
  | spawnReply refId outcome =>
    simp [push, MailboxPush.msg, MailboxMessage.isUrgent]
  | system msg => simp [push, MailboxPush.msg]

/-- An open mailbox takes everything. -/
theorem push_of_open (h : m.closed = false) (p : MailboxPush) :
    ∃ m', m.push p = some m' := by
  rw [← Option.ne_none_iff_exists', Ne, push_eq_none_iff, h]
  exact fun hclosed => Bool.false_ne_true hclosed.1

theorem Counts.push (h : m.Counts) {p : MailboxPush} (hpush : m.push p = some m') :
    m'.Counts := by
  rw [Counts] at h
  obtain rfl := push_eq_some hpush
  show (if p.msg.isCounted = true then m.dataCount + 1 else m.dataCount) =
    (if p.msg.isUrgent = true then p.msg :: m.queue
      else m.queue ++ [p.msg]).countP _
  rw [h]
  split <;> split <;> simp_all

theorem Counts.turn (h : m.Counts) (call : Receive) : (m.turn call).2.Counts := by
  rw [turn_eq]
  cases htake : takeFirst call.accepts m.queue with
  | none => exact h
  | some x =>
    obtain ⟨msg, rest⟩ := x
    obtain ⟨before, behind, hqueue, rfl, -, -⟩ := takeFirst_eq_some.1 htake
    rw [Counts, hqueue] at h
    show (if msg.isCounted = true then m.dataCount - 1 else m.dataCount) =
      (before ++ behind).countP _
    rw [h, List.countP_append, List.countP_append, List.countP_cons]
    split <;> omega

/-- The message that a receive takes out of the queue has been counted, so the
counter has room to go down. -/
theorem Counts.lowers (h : m.Counts) {call : Receive} {msg : MailboxMessage}
    (hturn : (m.turn call).1 = .received msg) (hcounted : msg.isCounted = true) :
    (m.turn call).2.dataCount + 1 = m.dataCount := by
  rw [turn_eq] at hturn ⊢
  cases htake : takeFirst call.accepts m.queue with
  | none =>
    rw [htake] at hturn
    dsimp only at hturn
    split at hturn <;> cases hturn
  | some x =>
    rw [htake] at hturn
    cases hturn
    obtain ⟨before, behind, hqueue, -, -, -⟩ := takeFirst_eq_some.1
      (show takeFirst _ _ = some (x.1, x.2) from htake)
    have hmem : x.1 ∈ m.queue := by
      rw [hqueue]
      simp
    have hpos : 0 < m.dataCount := by
      rw [show m.dataCount = _ from h, List.countP_pos_iff]
      exact ⟨x.1, hmem, hcounted⟩
    show (if x.1.isCounted = true then m.dataCount - 1 else m.dataCount) + 1 = _
    rw [if_pos hcounted]
    omega

/-- A closed mailbox hands out what it holds before it says that it is
closed. -/
theorem receipts_of_closed (h : m.closed = true) :
    m.receipts (m.queue.length + 1) = m.queue.map .received ++ [.over] := by
  obtain ⟨queue, dataCount, closed⟩ := m
  obtain rfl : closed = true := h
  induction queue generalizing dataCount with
  | nil => rfl
  | cons msg rest ih =>
    exact congrArg (Turn.received msg :: ·) (ih _)

end Mailbox

/-! ## The log of a mailbox -/

/-- A mailbox, with the numbers of its messages. -/
structure MailboxLog where
  mailbox : Mailbox
  track : Tracked MailboxMessage

inductive MailboxOp where
  | push (p : MailboxPush)
  | receive (call : Receive)
  | close
deriving DecidableEq

namespace MailboxLog

open Mailbox

def start : MailboxLog := ⟨.new, .empty⟩

/-- Note what a push adds to the queue. -/
def noted (track : Tracked MailboxMessage) (msg : MailboxMessage) :
    Tracked MailboxMessage :=
  if msg.isUrgent then track.pushFront msg else track.pushBack msg

/-- Note what a receive takes out of the queue. -/
def taken (track : Tracked MailboxMessage) (call : Receive) :
    Tracked MailboxMessage :=
  match takeFirst (fun e => call.accepts e.2) track.queued with
  | some (e, rest) => track.deliver e rest
  | none => track

def perform (s : MailboxLog) : MailboxOp → MailboxLog
  | .push p =>
    match s.mailbox.push p with
    | some m => ⟨m, noted s.track p.msg⟩
    | none => s
  | .receive call => ⟨(s.mailbox.turn call).2, taken s.track call⟩
  | .close => { s with mailbox := s.mailbox.close }

/-- The mailbox after some operations. -/
def afterOps (ops : List MailboxOp) : MailboxLog := ops.foldl perform start

/-- The log is that of the mailbox, and it is sound. -/
structure Faithful (s : MailboxLog) : Prop where
  queue : s.mailbox.queue = s.track.queued.map Prod.snd
  counts : s.mailbox.Counts
  sound : s.track.Sound MailboxMessage.isUrgent

variable {s : MailboxLog}

theorem faithful_start : start.Faithful where
  queue := rfl
  counts := rfl
  sound := Tracked.sound_empty

theorem Faithful.takeFirst_queue (h : s.Faithful) (call : Receive) :
    takeFirst call.accepts s.mailbox.queue =
      (takeFirst (fun e => call.accepts e.2) s.track.queued).map
        fun x => (x.1.2, x.2.map Prod.snd) := by
  rw [h.queue, takeFirst_map]

theorem Faithful.perform (h : s.Faithful) (op : MailboxOp) :
    (s.perform op).Faithful := by
  cases op with
  | push p =>
    rw [MailboxLog.perform]
    cases hpush : s.mailbox.push p with
    | none => exact h
    | some m =>
      refine ⟨?_, h.counts.push hpush, ?_⟩
      · rw [push_eq_some hpush]
        show (if p.msg.isUrgent = true then _ else _) = (noted _ _).queued.map _
        rw [noted, h.queue]
        split
        · rfl
        · simp [Tracked.pushBack]
      · show (noted s.track p.msg).Sound _
        rw [noted]
        split
        · rename_i hurgent
          exact h.sound.pushFront hurgent
        · rename_i hurgent
          exact h.sound.pushBack (by simpa using hurgent)
  | receive call =>
    refine ⟨?_, h.counts.turn call, ?_⟩
    · show (s.mailbox.turn call).2.queue = (taken s.track call).queued.map Prod.snd
      rw [turn_eq, h.takeFirst_queue, taken]
      cases takeFirst (fun e => call.accepts e.2) s.track.queued with
      | none => exact h.queue
      | some x => rfl
    · show (taken s.track call).Sound _
      rw [taken]
      cases htake : takeFirst (fun e => call.accepts e.2) s.track.queued with
      | none => exact h.sound
      | some x =>
        obtain ⟨e, rest⟩ := x
        obtain ⟨before, behind, hqueued, rfl, -, -⟩ := takeFirst_eq_some.1 htake
        exact h.sound.deliver hqueued
  | close => exact ⟨h.queue, h.counts, h.sound⟩

theorem Faithful.foldl (h : s.Faithful) (ops : List MailboxOp) :
    (ops.foldl MailboxLog.perform s).Faithful := by
  induction ops generalizing s with
  | nil => exact h
  | cons op ops ih => exact ih (h.perform op)

theorem faithful_afterOps (ops : List MailboxOp) : (afterOps ops).Faithful :=
  faithful_start.foldl ops

/-! ## What a receive delivers -/

/-- What a receive returns is what its note says. -/
theorem Faithful.turn_received (h : s.Faithful) {call : Receive}
    {msg : MailboxMessage} (hturn : (s.mailbox.turn call).1 = .received msg) :
    ∃ n before behind, s.track.queued = before ++ (n, msg) :: behind ∧
      call.accepts msg = true ∧ (∀ e ∈ before, call.accepts e.2 = false) ∧
      (s.perform (.receive call)).track =
        s.track.deliver (n, msg) (before ++ behind) := by
  rw [turn_eq, h.takeFirst_queue] at hturn
  cases htake : takeFirst (fun e => call.accepts e.2) s.track.queued with
  | none =>
    rw [htake, Option.map_none] at hturn
    dsimp only at hturn
    split at hturn <;> cases hturn
  | some x =>
    obtain ⟨⟨n, msg'⟩, rest⟩ := x
    rw [htake] at hturn
    cases hturn
    obtain ⟨before, behind, hqueued, rfl, haccepts, hbefore⟩ :=
      takeFirst_eq_some.1 htake
    refine ⟨n, before, behind, hqueued, haccepts, hbefore, ?_⟩
    show taken s.track call = _
    rw [taken, htake]

/-- A receive returns nothing when there is nothing that it accepts. -/
theorem Faithful.turn_not_received (h : s.Faithful) {call : Receive}
    (hturn : ∀ msg, (s.mailbox.turn call).1 ≠ .received msg) :
    (∀ m ∈ s.mailbox.queue, call.accepts m = false) ∧
      (s.perform (.receive call)).track = s.track := by
  rw [turn_eq] at hturn
  cases htake : takeFirst call.accepts s.mailbox.queue with
  | none =>
    refine ⟨takeFirst_eq_none.1 htake, ?_⟩
    rw [h.takeFirst_queue, Option.map_eq_none_iff] at htake
    show taken s.track call = _
    rw [taken, htake]
  | some x =>
    rw [htake] at hturn
    exact absurd rfl (hturn x.1)

/-- Only `close` closes the mailbox. -/
theorem closed_perform (s : MailboxLog) (op : MailboxOp) :
    (s.perform op).mailbox.closed = true ↔
      s.mailbox.closed = true ∨ op = .close := by
  cases op with
  | push p =>
    rw [perform]
    cases hpush : s.mailbox.push p with
    | none => simp
    | some m =>
      rw [push_eq_some hpush]
      simp
  | receive call =>
    rw [perform, turn_eq]
    cases takeFirst call.accepts s.mailbox.queue <;> simp [without]
  | close => simp [perform, Mailbox.close]

theorem closed_afterOps (ops : List MailboxOp) :
    (afterOps ops).mailbox.closed = true ↔ .close ∈ ops := by
  induction ops using List.reverseRecOn with
  | nil => simp [afterOps, start, Mailbox.new]
  | append_singleton ops op ih =>
    rw [afterOps, List.foldl_append]
    show ((afterOps ops).perform op).mailbox.closed = true ↔ _
    rw [closed_perform, ih, List.mem_append, List.mem_singleton]
    exact or_congr_right eq_comm

/-- What a push adds to the accepted messages. -/
theorem accepted_push (s : MailboxLog) (p : MailboxPush) :
    (s.perform (.push p)).track.accepted =
      if s.mailbox.closed = true ∧ p.msg.isUrgent = false then s.track.accepted
      else s.track.accepted ++ [p.msg] := by
  rw [perform]
  cases hpush : s.mailbox.push p with
  | none => rw [if_pos (push_eq_none_iff.1 hpush)]
  | some m =>
    rw [if_neg fun hnone => by
      rw [push_eq_none_iff.2 hnone] at hpush
      cases hpush]
    show (noted s.track p.msg).accepted = _
    unfold noted
    split <;> rfl

/-- Until it is closed the mailbox accepts whatever is pushed.  Every message
that it accepts is received once or is still in the queue.  Ordinary messages
wait in the order of the pushes.  `recv` returns one only if no signal is
waiting, and then the oldest.  `recv_ref` returns the first one with its ref and
leaves the others as they are.  After `close` the mailbox hands out what it
holds. -/
theorem ordinary_messages_kept (ops : List MailboxOp) :
    let s := afterOps ops
    (s.mailbox.closed = true ↔ .close ∈ ops) ∧
    (∀ p, (s.perform (.push p)).track.accepted =
      if .close ∈ ops ∧ p.msg.isUrgent = false then s.track.accepted
      else s.track.accepted ++ [p.msg]) ∧
    s.mailbox.queue = s.track.queued.map Prod.snd ∧
    ((s.track.delivered ++ s.track.queued).map Prod.fst).Perm
      (List.range s.track.accepted.length) ∧
    (∀ e ∈ s.track.delivered ++ s.track.queued,
      s.track.accepted[e.1]? = some e.2) ∧
    ((s.track.queued.filter fun e => !e.2.isUrgent).Pairwise
      fun e e' => e.1 < e'.1) ∧
    (∀ msg, s.mailbox.recvTurn.1 = .received msg → msg.isUrgent = false →
      (∀ m ∈ s.mailbox.queue, m.isUrgent = false) ∧
      ∃ n rest, s.track.queued = (n, msg) :: rest ∧ (∀ e ∈ rest, n < e.1) ∧
        (s.perform (.receive .any)).track = s.track.deliver (n, msg) rest) ∧
    (∀ ref, (∃ m ∈ s.mailbox.queue, m.refId = some ref) →
      ∃ n msg before behind, (s.mailbox.recvRefTurn ref).1 = .received msg ∧
        s.track.queued = before ++ (n, msg) :: behind ∧
        msg.refId = some ref ∧ (∀ e ∈ before, e.2.refId ≠ some ref) ∧
        (s.perform (.receive (.withRef ref))).track =
          s.track.deliver (n, msg) (before ++ behind)) ∧
    (∀ ref, (∀ m ∈ s.mailbox.queue, m.refId ≠ some ref) →
      (∀ msg, (s.mailbox.recvRefTurn ref).1 ≠ .received msg) ∧
        (s.perform (.receive (.withRef ref))).track = s.track) ∧
    (.close ∈ ops →
      s.mailbox.receipts (s.mailbox.queue.length + 1) =
        s.mailbox.queue.map .received ++ [.over]) := by
  intro s
  have h : s.Faithful := faithful_afterOps ops
  have hclosed : s.mailbox.closed = true ↔ .close ∈ ops := closed_afterOps ops
  refine ⟨hclosed, fun p => ?_, h.queue, h.sound.once, h.sound.named,
    h.sound.ordinary_sorted, fun msg hturn hordinary => ?_, fun ref hmem => ?_,
    fun ref hnone => ?_, fun hclose => receipts_of_closed (hclosed.2 hclose)⟩
  · rw [accepted_push]
    simp only [hclosed]
  · have hturn' : (s.mailbox.turn .any).1 = .received msg := hturn
    obtain ⟨n, before, behind, hqueued, -, hbefore, htrack⟩ :=
      h.turn_received hturn'
    obtain rfl : before = [] := by
      refine List.eq_nil_iff_forall_not_mem.2 fun e he => ?_
      exact Bool.noConfusion (hbefore e he)
    have hfirst := h.sound.first_of_ordinary hqueued hordinary
    refine ⟨fun m hm => ?_, n, behind, hqueued, fun e he => (hfirst e he).2, htrack⟩
    rw [h.queue, hqueued] at hm
    rcases List.mem_cons.1 hm with rfl | hm
    · exact hordinary
    · obtain ⟨e, he, rfl⟩ := List.mem_map.1 hm
      exact (hfirst e he).1
  · obtain ⟨msg, hturn⟩ : ∃ msg,
        (s.mailbox.turn (.withRef ref)).1 = .received msg := by
      by_contra hno
      push Not at hno
      obtain ⟨m, hm, href⟩ := hmem
      have hrejected : m.hasRef ref = false := (h.turn_not_received hno).1 m hm
      rw [MailboxMessage.hasRef_iff.2 href] at hrejected
      cases hrejected
    obtain ⟨n, before, behind, hqueued, haccepts, hbefore, htrack⟩ :=
      h.turn_received hturn
    refine ⟨n, msg, before, behind, hturn, hqueued,
      MailboxMessage.hasRef_iff.1 haccepts, fun e he href => ?_, htrack⟩
    have hrejected : e.2.hasRef ref = false := hbefore e he
    rw [MailboxMessage.hasRef_iff.2 href] at hrejected
    cases hrejected
  · have hno : ∀ msg, (s.mailbox.turn (.withRef ref)).1 ≠ .received msg := by
      intro msg hturn
      obtain ⟨n, before, behind, hqueued, haccepts, -⟩ := h.turn_received hturn
      refine hnone msg ?_ (MailboxMessage.hasRef_iff.1 haccepts)
      rw [h.queue, hqueued]
      simp
    exact ⟨hno, (h.turn_not_received hno).2⟩

/-! ## The counter of data messages -/

/-- The counter counts the data and the tagged messages in the queue.  So
neither `recv` nor `recv_ref` ever lowers it when it is zero. -/
theorem data_count_exact (ops : List MailboxOp) :
    let m := (afterOps ops).mailbox
    m.dataCount = m.queue.countP MailboxMessage.isCounted ∧
    (∀ msg, m.recvTurn.1 = .received msg → msg.isCounted = true →
      m.recvTurn.2.dataCount + 1 = m.dataCount) ∧
    (∀ ref msg, (m.recvRefTurn ref).1 = .received msg → msg.isTagged = true →
      (m.recvRefTurn ref).2.dataCount + 1 = m.dataCount) := by
  intro m
  have hcounts : m.Counts := (faithful_afterOps ops).counts
  refine ⟨hcounts, fun msg hturn hcounted => ?_, fun ref msg hturn htagged => ?_⟩
  · exact hcounts.lowers (show (m.turn .any).1 = _ from hturn) hcounted
  · exact hcounts.lowers (show (m.turn (.withRef ref)).1 = _ from hturn)
      (MailboxMessage.isCounted_of_isTagged htagged)

/-! ## The order of signals -/

/-- What calls of `recv` take out of the queue, when nothing else happens. -/
def drained (s : MailboxLog) : List (ℕ × MailboxMessage) :=
  ((List.replicate s.track.queued.length (MailboxOp.receive .any)).foldl perform
    s).track.delivered.drop s.track.delivered.length

/-- Of two signals in the queue, `recv` returns the one that was pushed first
before the other. -/
def SignalsInOrder (s : MailboxLog) : Prop :=
  ∀ e ∈ s.track.queued, ∀ e' ∈ s.track.queued, e.2.isUrgent = true →
    e'.2.isUrgent = true → e.1 < e'.1 → [e, e'].Sublist s.drained

/-- The operation does not push a signal while another one is waiting. -/
def Spaced (s : MailboxLog) : MailboxOp → Prop
  | .push (.system _) => ∀ m ∈ s.mailbox.queue, m.isUrgent = false
  | _ => True

/-- No two signals are waiting. -/
def OneSignal (s : MailboxLog) : Prop :=
  ∀ e ∈ s.track.queued, ∀ e' ∈ s.track.queued, e.2.isUrgent = true →
    e'.2.isUrgent = true → e.1 = e'.1

/-- Calls of `recv` deliver the queue from the front. -/
theorem delivered_drain (s : MailboxLog) :
    ((List.replicate s.track.queued.length (MailboxOp.receive .any)).foldl perform
      s).track.delivered = s.track.delivered ++ s.track.queued := by
  obtain ⟨mailbox, accepted, queued, delivered⟩ := s
  induction queued generalizing mailbox delivered with
  | nil => simp
  | cons e rest ih =>
    have hperform : perform ⟨mailbox, accepted, e :: rest, delivered⟩
        (.receive .any) =
          ⟨mailbox.recvTurn.2, accepted, rest, delivered ++ [e]⟩ := rfl
    show (((List.replicate rest.length (MailboxOp.receive .any)).foldl perform
      (perform _ _)).track.delivered) = _
    rw [hperform, ih]
    exact List.append_assoc delivered [e] rest

theorem drained_eq (s : MailboxLog) : s.drained = s.track.queued := by
  rw [drained, delivered_drain, List.drop_left]

theorem signalsInOrder_of_one (h : s.OneSignal) : s.SignalsInOrder := by
  intro e he e' he' hurgent hurgent' hlt
  exact absurd (h e he e' he' hurgent hurgent') hlt.ne

theorem oneSignal_perform {op : MailboxOp} (hfaithful : s.Faithful)
    (h : s.OneSignal) (hspaced : s.Spaced op) : (s.perform op).OneSignal := by
  cases op with
  | push p =>
    rw [perform]
    cases hpush : s.mailbox.push p with
    | none => exact h
    | some m =>
      show OneSignal ⟨m, noted s.track p.msg⟩
      rw [noted]
      split
      · rename_i hurgent
        cases p with
        | system msg =>
          have hnone : ∀ e ∈ s.track.queued, e.2.isUrgent = false := by
            intro e he
            refine hspaced e.2 ?_
            rw [hfaithful.queue]
            exact List.mem_map_of_mem he
          intro e he e' he' hurgent hurgent'
          rcases List.mem_cons.1 he with rfl | he
          · rcases List.mem_cons.1 he' with rfl | he'
            · rfl
            · rw [hnone e' he'] at hurgent'
              cases hurgent'
          · rw [hnone e he] at hurgent
            cases hurgent
        | data payload => cases hurgent
        | tagged refId payload => cases hurgent
        | spawnReply refId outcome => cases hurgent
      · rename_i hordinary
        have hold : ∀ e ∈ (s.track.pushBack p.msg).queued,
            e.2.isUrgent = true → e ∈ s.track.queued := by
          intro e he hurgent
          rcases List.mem_append.1 he with he | he
          · exact he
          · rw [List.mem_singleton.1 he] at hurgent
            exact absurd hurgent hordinary
        intro e he e' he' hurgent hurgent'
        exact h e (hold e he hurgent) e' (hold e' he' hurgent') hurgent hurgent'
  | receive call =>
    have hsub : ∀ e ∈ (taken s.track call).queued, e ∈ s.track.queued := by
      intro e he
      rw [taken] at he
      cases htake : takeFirst (fun e => call.accepts e.2) s.track.queued with
      | none =>
        rw [htake] at he
        exact he
      | some x =>
        rw [htake] at he
        obtain ⟨before, behind, hqueued, hrest, -⟩ := takeFirst_eq_some.1
          (show takeFirst _ _ = some (x.1, x.2) from htake)
        have he' : e ∈ x.2 := he
        rw [hrest] at he'
        rw [hqueued]
        simp only [List.mem_append, List.mem_cons] at he' ⊢
        tauto
    intro e he e' he' hurgent hurgent'
    exact h e (hsub e he) e' (hsub e' he') hurgent hurgent'
  | close => exact h

/-- A signal that is pushed while another one is waiting overtakes it. -/
theorem overtakes (h : s.Faithful) {msg : SystemMessage}
    {m : MailboxMessage} (hm : m ∈ s.mailbox.queue) (hurgent : m.isUrgent = true) :
    ¬ (s.perform (.push (.system msg))).SignalsInOrder := by
  intro horder
  rw [h.queue] at hm
  obtain ⟨e, he, rfl⟩ := List.mem_map.1 hm
  have hnew : (s.perform (.push (.system msg))).track =
      s.track.pushFront msg.toMailbox := if_pos msg.isUrgent_toMailbox
  have hlt := h.sound.lt he
  have hsub := horder e ?_ (s.track.accepted.length, msg.toMailbox) ?_ hurgent
    msg.isUrgent_toMailbox hlt
  · rw [drained_eq, hnew] at hsub
    have hne : e ≠ (s.track.accepted.length, msg.toMailbox) := by
      rintro rfl
      exact lt_irrefl _ hlt
    -- The new signal is at the front, so it is not behind `e`.
    have hrest : [e, (s.track.accepted.length, msg.toMailbox)].Sublist
        s.track.queued := by
      cases hsub with
      | cons _ hsub => exact hsub
      | cons_cons _ _ => exact absurd rfl hne
    have hmem := hrest.subset (List.mem_cons_of_mem _ List.mem_cons_self)
    exact lt_irrefl _ (h.sound.lt hmem)
  · rw [hnew]
    exact List.mem_cons_of_mem _ he
  · rw [hnew]
    exact List.mem_cons_self

theorem afterOps_take_succ {ops : List MailboxOp} {k : ℕ} {op : MailboxOp}
    (hop : ops[k]? = some op) :
    afterOps (ops.take (k + 1)) = (afterOps (ops.take k)).perform op := by
  rw [afterOps, List.take_add_one, hop, List.foldl_append]
  rfl

/-- Signals are received in the order of the pushes, at every moment of a run,
if and only if none is pushed while another one is waiting. -/
theorem signals_in_order_iff_spaced (ops : List MailboxOp) :
    (∀ k, (afterOps (ops.take k)).SignalsInOrder) ↔
      ∀ k op, ops[k]? = some op → (afterOps (ops.take k)).Spaced op := by
  constructor
  · intro horder k op hop
    cases op with
    | push p =>
      cases p with
      | system msg =>
        intro m hm
        by_contra hurgent
        have hnext := horder (k + 1)
        rw [afterOps_take_succ hop] at hnext
        exact overtakes (faithful_afterOps _) hm (by simpa using hurgent) hnext
      | data payload => trivial
      | tagged refId payload => trivial
      | spawnReply refId outcome => trivial
    | receive call => trivial
    | close => trivial
  · intro hspaced k
    refine signalsInOrder_of_one ?_
    induction k with
    | zero =>
      intro e he
      cases he
    | succ k ih =>
      cases hop : ops[k]? with
      | none =>
        rw [List.take_add_one, hop, Option.toList_none, List.append_nil]
        exact ih
      | some op =>
        rw [afterOps_take_succ hop]
        exact oneSignal_perform (faithful_afterOps _) ih (hspaced k op hop)

/-- Two children die, one after the other. -/
def twoDeaths : List MailboxOp :=
  [.push (.system (.exit ⟨⟨1⟩, 2⟩ .kill)), .push (.system (.exit ⟨⟨1⟩, 3⟩ .normal))]

/-- The later death is received first. -/
theorem later_death_first :
    (afterOps twoDeaths).mailbox.receipts 2 =
        [.received (.exit ⟨⟨1⟩, 3⟩ .normal), .received (.exit ⟨⟨1⟩, 2⟩ .kill)] ∧
      ¬ ∀ ops, (afterOps ops).SignalsInOrder := by
  refine ⟨by decide, fun h => ?_⟩
  have hfaithful : (afterOps (twoDeaths.take 1)).Faithful := faithful_afterOps _
  have hwaiting : .exit ⟨⟨1⟩, 2⟩ .kill ∈
      (afterOps (twoDeaths.take 1)).mailbox.queue := by decide
  exact overtakes hfaithful hwaiting rfl (h twoDeaths)

end MailboxLog

end Plasmoid
