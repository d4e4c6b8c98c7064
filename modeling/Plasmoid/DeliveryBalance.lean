import Plasmoid.Deliveries

/-!
# The balance of deliveries

Every message that a particle has sent is in one place: a mailbox has accepted
it, it was dropped, a task is delivering it, the link to the other node holds
it, or the link has given it up.  So none is delivered twice, and none is
delivered that nobody has sent.

A message that a mailbox accepts has reached its addressee: the pid that it was
sent to, or a particle that has held the name on the node that it was sent to.
-/

namespace Plasmoid

open Framing Machine

namespace LinkMessage

variable {κ : Type}

/-- The message is this particle message. -/
def carries (envelope : Envelope) : LinkMessage κ → Bool
  | .deliver e => e = envelope
  | _ => false

end LinkMessage

/-- The message travels over the link of the two nodes. -/
def Parcel.TravelsOver (p : Parcel) (home node : EndpointId) : Prop :=
  p.home = home ∧ p.node = node

instance (p : Parcel) (home node : EndpointId) :
    Decidable (p.TravelsOver home node) :=
  inferInstanceAs (Decidable (_ ∧ _))

namespace PeerStreams

variable {α : Type} {codec : WireCodec α} {s t : PeerStreams α}

theorem send_of_encoded {msg : α} {frame : List UInt8}
    (h : encodeFrame codec msg = .ok frame) :
    (s.send codec msg).sent = s.sent ++ [msg] ∧
      (s.send codec msg).processed = s.processed := by
  rw [send, h]
  exact ⟨rfl, rfl⟩

/-- The writers and their links send nothing and process nothing. -/
theorem transport_keeps {a : StreamAction α} (ha : a.isTransport = true)
    (h : s.step codec a = some t) : t.sent = s.sent ∧ t.processed = s.processed := by
  have hturn : ∀ {w f}, s.turn w f = some t →
      t.sent = s.sent ∧ t.processed = s.processed := by
    intro w f h
    obtain ⟨p, -, h⟩ := Option.bind_eq_some_iff.1 h
    obtain ⟨p', -, rfl⟩ := Option.map_eq_some_iff.1 h
    exact ⟨rfl, rfl⟩
  cases a with
  | send | handle => cases ha
  | disconnect =>
    cases h
    exact ⟨rfl, rfl⟩
  | take w => exact hturn h
  | openLink w dialed => exact hturn h
  | write w => exact hturn h
  | breakLink w k => exact hturn h

end PeerStreams

namespace LossyStreams

variable {α : Type} {codec : WireCodec α} {s t : LossyStreams α}

theorem step_transport {a : StreamAction α} (ha : a.isTransport = true)
    (h : s.step codec a = some t) : t.streams.sent = s.streams.sent ∧
      t.streams.processed = s.streams.processed := by
  obtain ⟨streams, hstep, rfl⟩ := Option.map_eq_some_iff.1 h
  exact PeerStreams.transport_keeps ha hstep

theorem processed_send (s : LossyStreams α) (msg : α) :
    (s.send codec msg).streams.processed = s.streams.processed := by
  rw [send, PeerStreams.send]
  split <;> rfl

theorem step_handle {w i : Nat} (h : s.step codec (.handle w i) = some t) :
    ∃ msg, t.streams.sent = s.streams.sent ∧
      t.streams.processed = s.streams.processed ++ [msg] := by
  obtain ⟨streams, hstep, rfl⟩ := Option.map_eq_some_iff.1 h
  obtain ⟨msg, hsent, hprocessed, -, -⟩ := PeerStreams.held_handle codec hstep
  exact ⟨msg, hsent, hprocessed⟩

theorem HoldingsInv.send (hcodec : codec.RoundTrips) (hs : HoldingsInv codec s)
    (msg : α) : HoldingsInv codec (s.send codec msg) := by
  have hstep : s.step codec (.send msg) =
      some { s.send codec msg with givenUp := s.givenUp ++ [] } := rfl
  have hsent := hs.step hcodec hstep
  rw [List.append_nil] at hsent
  exact hsent

end LossyStreams

namespace DeliveryNet

variable {κ : Type} (codec : WireCodec (LinkMessage κ)) (s : DeliveryNet κ) (p : Parcel)

/-! ## Where a message is -/

/-- The link that a message travels over. -/
def lane : LossyStreams (LinkMessage κ) := s.lanes p.home p.node

def timesSent : ℕ := (s.sent.map Sending.parcel).count p

def timesGot : ℕ := (s.got.map Receipt.parcel).count p

def timesDropped : ℕ := s.dropped.count p

/-- How many tasks are delivering the message. -/
def timesUnderway : ℕ := s.tasks.tally fun d => d.parcel = p

/-- How often the link holds the message. -/
def timesHeld : ℕ :=
  ((s.lane p).streams.held (frameReader codec)).countP
    (LinkMessage.carries p.envelope)

/-- How often a writer of the link has given the message up. -/
def timesGivenUp : ℕ := (s.lane p).givenUp.countP (LinkMessage.carries p.envelope)

/-- How often the message went onto the link. -/
def timesOn : ℕ :=
  (s.lane p).streams.sent.countP (LinkMessage.carries p.envelope)

/-- How often the message came off the link. -/
def timesOff : ℕ :=
  (s.lane p).streams.processed.countP (LinkMessage.carries p.envelope)

/-- What went onto the link came from a particle, and what came off it was
delivered or dropped, or is underway. -/
def Balanced : Prop :=
  s.timesSent p + s.timesOff p =
    s.timesGot p + s.timesDropped p + s.timesUnderway p + s.timesOn p

structure BalanceInv : Prop where
  balanced : ∀ p, s.Balanced p
  holdings : ∀ home node, (s.lanes home node).HoldingsInv codec

variable {codec s p}

theorem balanceInv_start : BalanceInv codec (start : DeliveryNet κ) where
  balanced _ := rfl
  holdings _ _ := LossyStreams.holdingsInv_start codec

/-! ## What the parts of a step do -/

theorem lane_setLane (s : DeliveryNet κ) (home node : EndpointId)
    (lane : LossyStreams (LinkMessage κ)) (p : Parcel) :
    (s.setLane home node lane).lane p =
      if p.TravelsOver home node then lane else s.lane p := rfl

/-- One message went over the link, or another one did. -/
theorem countP_concat {α : Type} (q : α → Bool) (l : List α) (a : α) :
    (l ++ [a]).countP q = l.countP q + if q a then 1 else 0 := by
  rw [List.countP_append, List.countP_singleton]

theorem timesOff_sendOver (home node : EndpointId) (msg : LinkMessage κ) :
    (s.sendOver codec home node msg).timesOff p = s.timesOff p := by
  rw [timesOff, sendOver, lane_setLane]
  split
  · rename_i hon
    rw [LossyStreams.processed_send, timesOff, lane, hon.1, hon.2]
  · rfl

/-- What is no particle message changes no count. -/
theorem timesOn_sendOver_of_not_carries {home node : EndpointId}
    {msg : LinkMessage κ} (hmsg : msg.carries p.envelope = false) :
    (s.sendOver codec home node msg).timesOn p = s.timesOn p := by
  rw [timesOn, sendOver, lane_setLane]
  split
  · rename_i hon
    rw [timesOn, lane, hon.1, hon.2, LossyStreams.send, PeerStreams.send]
    split
    · rfl
    · rw [countP_concat, hmsg]
      rfl
  · rfl

theorem timesOn_sendOver_deliver {q : Parcel} {frame : List UInt8}
    (h : encodeFrame codec (.deliver q.envelope) = .ok frame) :
    (s.sendOver codec q.home q.node (.deliver q.envelope)).timesOn p =
      s.timesOn p + if q = p then 1 else 0 := by
  rw [timesOn, sendOver, lane_setLane]
  split
  · rename_i hon
    have hsame : q = p ↔ q.envelope = p.envelope := by
      constructor
      · rintro rfl
        rfl
      · intro henvelope
        cases p
        cases q
        simp_all [Parcel.TravelsOver]
    rw [timesOn, lane, hon.1, hon.2, LossyStreams.send,
      (PeerStreams.send_of_encoded h).1, countP_concat]
    simp [LinkMessage.carries, hsame]
  · rename_i hoff
    have hne : q ≠ p := by
      rintro rfl
      exact hoff ⟨rfl, rfl⟩
    rw [if_neg hne]
    rfl

/-- A handler takes a message off its stream. -/
theorem timesOff_setLane {home node : EndpointId}
    {lane' : LossyStreams (LinkMessage κ)} {msg : LinkMessage κ}
    (h : lane'.streams.processed = (s.lanes home node).streams.processed ++ [msg]) :
    (s.setLane home node lane').timesOff p = s.timesOff p +
      if p.TravelsOver home node ∧ msg.carries p.envelope then 1 else 0 := by
  rw [timesOff, lane_setLane]
  by_cases hon : p.TravelsOver home node
  · rw [if_pos hon, h, countP_concat, timesOff, lane, hon.1, hon.2]
    simp [hon]
  · rw [if_neg hon, if_neg fun hboth => hon hboth.1]
    rfl

theorem timesOn_setLane {home node : EndpointId}
    {lane' : LossyStreams (LinkMessage κ)}
    (h : lane'.streams.sent = (s.lanes home node).streams.sent) :
    (s.setLane home node lane').timesOn p = s.timesOn p := by
  rw [timesOn, lane_setLane]
  split
  · rename_i hon
    rw [h, timesOn, lane, hon.1, hon.2]
  · rfl

theorem timesSent_record (source : Pid) (q : Parcel) :
    (s.record source q).timesSent p = s.timesSent p + if q = p then 1 else 0 := by
  rw [timesSent, record, timesSent, List.map_append, List.count_append]
  simp [List.count_singleton]

theorem timesDropped_refuse (q : Parcel) :
    (s.refuse q).timesDropped p = s.timesDropped p + if q = p then 1 else 0 := by
  rw [timesDropped, refuse, timesDropped, List.count_append]
  simp [List.count_singleton]

/-- A task that was idle starts a delivery. -/
theorem timesUnderway_setTask_idle {task : DeliveryTask}
    (h : s.tasks.lookup task = none) (q : Parcel) (phase : DeliveryPhase) :
    (s.setTask task q phase).timesUnderway p =
      s.timesUnderway p + if q = p then 1 else 0 := by
  rw [timesUnderway, setTask, Table.tally_insert_new h]
  simp [timesUnderway, Table.share]

/-- A task goes on with its delivery. -/
theorem timesUnderway_setTask {task : DeliveryTask} {d : Delivery}
    {phase : DeliveryPhase} (h : s.tasks.lookup task = some d) :
    (s.setTask task d.parcel phase).timesUnderway p = s.timesUnderway p := by
  have hreplace := Table.tally_replace (p := fun d => decide (d.parcel = p)) h
    (Delivery.mk d.parcel phase)
  exact Nat.add_right_cancel hreplace

/-- A task is done with its delivery. -/
theorem timesUnderway_erase {task : DeliveryTask} {d : Delivery}
    (h : s.tasks.lookup task = some d) :
    Table.tally (fun d => decide (d.parcel = p)) (s.tasks.erase task) +
      (if d.parcel = p then 1 else 0) = s.timesUnderway p := by
  have herase := Table.tally_erase (p := fun d => decide (d.parcel = p)) h
  rw [timesUnderway, ← herase]
  simp [Table.share]

/-! ## Steps -/

theorem BalanceInv.setReg (hs : BalanceInv codec s) (node : EndpointId)
    (reg : ParticleRegistry) : BalanceInv codec (s.setReg node reg) :=
  ⟨hs.balanced, hs.holdings⟩

theorem holdings_setLane (hs : BalanceInv codec s) {home node : EndpointId}
    {lane : LossyStreams (LinkMessage κ)} (hlane : lane.HoldingsInv codec)
    (h n : EndpointId) :
    ((s.setLane home node lane).lanes h n).HoldingsInv codec := by
  show (if h = home ∧ n = node then lane else s.lanes h n).HoldingsInv codec
  split
  · exact hlane
  · exact hs.holdings h n

/-- Something that is no particle message goes over a link. -/
theorem BalanceInv.post (hcodec : codec.RoundTrips) (hs : BalanceInv codec s)
    (home node : EndpointId) {msg : LinkMessage κ}
    (hmsg : ∀ envelope, msg.carries envelope = false) :
    BalanceInv codec (s.sendOver codec home node msg) where
  balanced p := by
    have hp := hs.balanced p
    rw [Balanced, timesOff_sendOver, timesOn_sendOver_of_not_carries (hmsg _)]
    exact hp
  holdings := holdings_setLane hs ((hs.holdings home node).send hcodec msg)

theorem BalanceInv.answers (hcodec : codec.RoundTrips) (node : EndpointId)
    (answers : List (EndpointId × PeerMessage)) :
    ∀ {s : DeliveryNet κ}, BalanceInv codec s → BalanceInv codec
      (answers.foldl (fun s m => s.sendOver codec node m.1 (.control m.2)) s) := by
  induction answers with
  | nil => exact fun hs => hs
  | cons m answers ih => exact fun hs => ih (hs.post hcodec node m.1 fun _ => rfl)

/-- A particle sends. -/
theorem BalanceInv.deliverTo (hcodec : codec.RoundTrips) (hs : BalanceInv codec s)
    {source : Pid} (hidle : s.tasks.lookup (.sender source) = none)
    (dest : Destination) (refId : Option UInt64) (payload : List UInt8) :
    BalanceInv codec (s.deliverTo codec source dest refId payload) := by
  unfold DeliveryNet.deliverTo
  split
  · exact hs
  · rename_i target hhere
    refine ⟨fun p => ?_, hs.holdings⟩
    have hp := hs.balanced p
    have hsent := timesSent_record (s := s) (p := p) source
      ⟨source.node, source.node, target, refId, payload⟩
    have hunderway := timesUnderway_setTask_idle (p := p)
      (s := s.record source ⟨source.node, source.node, target, refId, payload⟩) hidle
      ⟨source.node, source.node, target, refId, payload⟩ .resolving
    unfold Balanced at hp ⊢
    rw [hunderway]
    show timesSent (s.record _ _) p + s.timesOff p =
      s.timesGot p + s.timesDropped p + (s.timesUnderway p + _) + s.timesOn p
    omega
  · rename_i node target helse
    dsimp only
    split
    · refine ⟨fun p => ?_, hs.holdings⟩
      have hp := hs.balanced p
      have hsent := timesSent_record (s := s) (p := p) source
        ⟨source.node, node, target, refId, payload⟩
      have hdropped := timesDropped_refuse (p := p)
        (s := s.record source ⟨source.node, node, target, refId, payload⟩)
        ⟨source.node, node, target, refId, payload⟩
      unfold Balanced at hp ⊢
      rw [hdropped]
      show timesSent (s.record _ _) p + s.timesOff p =
        s.timesGot p + (s.timesDropped p + _) + s.timesUnderway p + s.timesOn p
      omega
    · rename_i frame hframe
      refine ⟨fun p => ?_, holdings_setLane ⟨hs.balanced, hs.holdings⟩
        ((hs.holdings _ _).send hcodec _)⟩
      have hp := hs.balanced p
      have hsent := timesSent_record (s := s) (p := p) source
        ⟨source.node, node, target, refId, payload⟩
      have hon := timesOn_sendOver_deliver (p := p)
        (s := s.record source ⟨source.node, node, target, refId, payload⟩)
        (q := ⟨source.node, node, target, refId, payload⟩) hframe
      unfold Balanced at hp ⊢
      rw [hon, timesOff_sendOver]
      show timesSent (s.record _ _) p + s.timesOff p =
        s.timesGot p + s.timesDropped p + s.timesUnderway p + (s.timesOn p + _)
      omega

/-- A handler reads a message, and acts on it. -/
theorem BalanceInv.read (hcodec : codec.RoundTrips) (hs : BalanceInv codec s)
    {home node : EndpointId} {w i : Nat}
    (hidle : s.tasks.lookup (.handler home node w i) = none)
    {lane : LossyStreams (LinkMessage κ)} {msg : LinkMessage κ}
    (hlane : (s.lanes home node).step codec (.handle w i) = some lane)
    (hmsg : lane.streams.processed.getLast? = some msg) :
    BalanceInv codec ((s.setLane home node lane).dispatch codec home node
      (.handler home node w i) msg) := by
  have hholdings := (hs.holdings home node).step hcodec hlane
  obtain ⟨msg', hsent, hprocessed⟩ := LossyStreams.step_handle hlane
  have hlast : msg' = msg := by
    rw [hprocessed, List.getLast?_concat] at hmsg
    exact Option.some_inj.1 hmsg
  subst hlast
  have hoff := fun p : Parcel => timesOff_setLane (s := s) (p := p) hprocessed
  have hon := fun p : Parcel => timesOn_setLane (s := s) (p := p) hsent
  have hquiet : (∀ envelope, msg'.carries envelope = false) →
      BalanceInv codec (s.setLane home node lane) := by
    intro hnone
    refine ⟨fun p => ?_, holdings_setLane hs hholdings⟩
    rw [Balanced, hoff, hon, if_neg]
    · exact hs.balanced p
    · rintro ⟨-, hcarries⟩
      rw [hnone] at hcarries
      cases hcarries
  cases msg' with
  | deliver envelope =>
    refine ⟨fun p => ?_, holdings_setLane hs hholdings⟩
    have hp := hs.balanced p
    have hunderway := timesUnderway_setTask_idle (p := p)
      (s := s.setLane home node lane) hidle ⟨home, node, envelope⟩ .resolving
    have hsame : (p.TravelsOver home node ∧
        (LinkMessage.deliver envelope : LinkMessage κ).carries p.envelope = true) ↔
        (⟨home, node, envelope⟩ : Parcel) = p := by
      cases p
      simp only [Parcel.TravelsOver, LinkMessage.carries, decide_eq_true_eq,
        Parcel.mk.injEq]
      tauto
    have hoff := hoff p
    simp only [hsame] at hoff
    unfold Balanced at hp ⊢
    rw [DeliveryNet.dispatch, hunderway]
    show s.timesSent p + timesOff (s.setLane home node lane) p =
      s.timesGot p + s.timesDropped p + (s.timesUnderway p + _) +
        timesOn (s.setLane home node lane) p
    rw [hoff, hon]
    omega
  | control msg =>
    have hbase := (hquiet fun _ => rfl).setReg node
      ((s.regs node).handlePeerMessage msg).1
    exact hbase.answers hcodec node _
  | other msg => exact hquiet fun _ => rfl

/-- A delivery ends with a drop. -/
theorem BalanceInv.drop (hs : BalanceInv codec s) {task : DeliveryTask} {d : Delivery}
    (h : s.tasks.lookup task = some d) : BalanceInv codec (s.drop task d.parcel) where
  balanced p := by
    have hp := hs.balanced p
    have hdone := timesUnderway_erase (p := p) h
    have hdropped : (s.drop task d.parcel).timesDropped p =
        s.timesDropped p + if d.parcel = p then 1 else 0 := timesDropped_refuse _
    unfold Balanced at hp ⊢
    rw [hdropped]
    show s.timesSent p + s.timesOff p = s.timesGot p + (s.timesDropped p + _) +
      Table.tally (fun d => decide (d.parcel = p)) (s.tasks.erase task) + s.timesOn p
    omega
  holdings := hs.holdings

/-- A delivery ends with the push. -/
theorem BalanceInv.accept (hs : BalanceInv codec s) {task : DeliveryTask}
    {d : Delivery} (h : s.tasks.lookup task = some d) (pid : Pid) :
    BalanceInv codec (s.accept task d.parcel pid) where
  balanced p := by
    have hp := hs.balanced p
    have hdone := timesUnderway_erase (p := p) h
    have hgot : (s.accept task d.parcel pid).timesGot p =
        s.timesGot p + if d.parcel = p then 1 else 0 := by
      rw [timesGot, DeliveryNet.accept, timesGot, List.map_append, List.count_append]
      simp [List.count_singleton]
    unfold Balanced at hp ⊢
    rw [hgot]
    show s.timesSent p + s.timesOff p = (s.timesGot p + _) + s.timesDropped p +
      Table.tally (fun d => decide (d.parcel = p)) (s.tasks.erase task) + s.timesOn p
    omega
  holdings := hs.holdings

theorem BalanceInv.setTask (hs : BalanceInv codec s) {task : DeliveryTask}
    {d : Delivery} (h : s.tasks.lookup task = some d) (phase : DeliveryPhase) :
    BalanceInv codec (s.setTask task d.parcel phase) where
  balanced p := by
    have hp := hs.balanced p
    rw [Balanced, timesUnderway_setTask h]
    exact hp
  holdings := hs.holdings

theorem BalanceInv.advance (hs : BalanceInv codec s) {task : DeliveryTask}
    {d : Delivery} (h : s.tasks.lookup task = some d) (late : Bool) :
    BalanceInv codec (s.advance task late d) := by
  obtain ⟨parcel, phase⟩ := d
  cases phase with
  | resolving =>
    rw [DeliveryNet.advance]
    split
    · exact hs.drop h
    · exact hs.setTask h _
  | finding pid =>
    rw [DeliveryNet.advance]
    split
    · exact hs.setTask h _
    · exact hs.drop h
  | pushing pid =>
    rw [DeliveryNet.advance]
    split
    · exact (hs.accept h pid).setReg _ _
    · split
      · exact hs.accept h pid
      · exact hs.drop h

theorem BalanceInv.step (hcodec : codec.RoundTrips) (hs : BalanceInv codec s)
    {a : NetAction κ} {t : DeliveryNet κ} (h : s.step codec a = some t) :
    BalanceInv codec t := by
  cases a with
  | send source dest refId payload =>
    rw [DeliveryNet.step] at h
    split at h
    · cases h
    · rename_i hidle
      cases h
      exact hs.deliverTo hcodec (AList.lookup_eq_none.2 hidle) dest refId payload
  | post home node msg =>
    cases h
    refine hs.post hcodec home node fun _ => ?_
    cases msg <;> rfl
  | transport home node a =>
    rw [DeliveryNet.step] at h
    split at h
    · rename_i ha
      obtain ⟨lane, hlane, rfl⟩ := Option.map_eq_some_iff.1 h
      obtain ⟨hsent, hprocessed⟩ := LossyStreams.step_transport ha hlane
      refine ⟨fun p => ?_,
        holdings_setLane hs ((hs.holdings home node).step hcodec hlane)⟩
      have hp := hs.balanced p
      have hoff : (s.setLane home node lane).timesOff p = s.timesOff p := by
        rw [timesOff, lane_setLane]
        split
        · rename_i hon
          rw [hprocessed, timesOff, DeliveryNet.lane, hon.1, hon.2]
        · rfl
      rw [Balanced, hoff, timesOn_setLane hsent]
      exact hp
    · cases h
  | read home node w i =>
    rw [DeliveryNet.step] at h
    split at h
    · cases h
    · rename_i hidle
      obtain ⟨lane, hlane, h⟩ := Option.bind_eq_some_iff.1 h
      obtain ⟨msg, hmsg, rfl⟩ := Option.map_eq_some_iff.1 h
      exact hs.read hcodec (AList.lookup_eq_none.2 hidle) hlane hmsg
  | advance task late =>
    obtain ⟨d, hd, rfl⟩ := Option.map_eq_some_iff.1 h
    exact hs.advance hd late
  | operate node op =>
    cases h
    exact hs.setReg _ _
  | spawn node component name =>
    cases h
    exact hs.setReg _ _
  | receive pid call =>
    cases h
    exact hs.setReg _ _

theorem balanceInv_run (hcodec : codec.RoundTrips)
    (h : Run (step codec) anyStep start s) : BalanceInv codec s :=
  h.invariant (fun hs _ hstep => hs.step hcodec hstep) balanceInv_start

/-- What went onto a link came off it, or it holds it or has given it up. -/
theorem BalanceInv.timesOn (hs : BalanceInv codec s) (p : Parcel) :
    s.timesOn p = s.timesOff p + s.timesHeld codec p + s.timesGivenUp p := by
  have hperm := (hs.holdings p.home p.node).once
  have hcount := hperm.countP_eq (LinkMessage.carries p.envelope)
  rw [List.countP_append, List.countP_append] at hcount
  exact hcount.symm

/-! ## Who gets a message -/

variable (codec) in
/-- The message leads to the particle: it was sent to this pid, or the
particle has held the name that it was sent to, on the node that it was sent
to and at some time up to now. -/
def LeadsTo (s : DeliveryNet κ) (p : Parcel) (pid : Pid) : Prop :=
  match p.envelope.target with
  | .pid q => pid = q
  | .name n => ∃ t, Run (step codec) anyStep start t ∧
      Run (step codec) anyStep t s ∧ (t.regs p.node).getByName n = some pid

theorem LeadsTo.step {t : DeliveryNet κ} {a : NetAction κ} {pid : Pid}
    (h : LeadsTo codec s p pid) (hstep : s.step codec a = some t) :
    LeadsTo codec t p pid := by
  unfold LeadsTo at h ⊢
  split
  · rename_i q htarget
    rw [htarget] at h
    exact h
  · rename_i n htarget
    rw [htarget] at h
    obtain ⟨u, hbefore, hafter, hname⟩ := h
    exact ⟨u, hbefore, hafter.tail trivial hstep, hname⟩

end DeliveryNet

/-- The particle that a delivery has found. -/
def DeliveryPhase.found : DeliveryPhase → Option Pid
  | .resolving => none
  | .finding pid | .pushing pid => some pid

namespace DeliveryNet

variable {κ : Type} {codec : WireCodec (LinkMessage κ)} {s t : DeliveryNet κ}

variable (codec) in
structure AddressInv (s : DeliveryNet κ) : Prop where
  run : Run (step codec) anyStep start s
  /-- A message to a pid goes to the node of the pid. -/
  sent : ∀ x ∈ s.sent, x.parcel.home = x.source.node ∧
    ∀ q, x.parcel.envelope.target = .pid q → q.node = x.parcel.node
  tasks : ∀ task d pid, s.tasks.lookup task = some d → d.phase.found = some pid →
    LeadsTo codec s d.parcel pid
  got : ∀ g ∈ s.got, LeadsTo codec s g.parcel g.pid

theorem addressInv_start : AddressInv codec (start : DeliveryNet κ) where
  run := .refl
  sent _ h := by cases h
  tasks _ _ _ h := by cases h
  got _ h := by cases h

/-- The history and the tasks stay as they are. -/
structure SameBooks (s t : DeliveryNet κ) : Prop where
  sent : t.sent = s.sent
  got : t.got = s.got
  tasks : t.tasks = s.tasks

theorem SameBooks.refl (s : DeliveryNet κ) : SameBooks s s := ⟨rfl, rfl, rfl⟩

theorem sameBooks_answers (codec : WireCodec (LinkMessage κ)) (node : EndpointId)
    (answers : List (EndpointId × PeerMessage)) : ∀ s : DeliveryNet κ, SameBooks s
      (answers.foldl (fun s m => s.sendOver codec node m.1 (.control m.2)) s) := by
  induction answers with
  | nil => exact fun s => .refl s
  | cons m answers ih =>
    intro s
    have hrest := ih (s.sendOver codec node m.1 (.control m.2))
    exact ⟨hrest.sent, hrest.got, hrest.tasks⟩

theorem sameBooks_control (codec : WireCodec (LinkMessage κ)) (s : DeliveryNet κ)
    (home node : EndpointId) (task : DeliveryTask) (msg : PeerMessage) :
    SameBooks s (s.dispatch codec home node task (.control msg)) := by
  have hanswers := sameBooks_answers codec node
    ((s.regs node).handlePeerMessage msg).2
    (s.setReg node ((s.regs node).handlePeerMessage msg).1)
  exact ⟨hanswers.sent, hanswers.got, hanswers.tasks⟩

theorem AddressInv.of_sameBooks (hs : AddressInv codec s) {a : NetAction κ}
    (hstep : s.step codec a = some t) (hsame : SameBooks s t) :
    AddressInv codec t where
  run := hs.run.tail trivial hstep
  sent x hx := hs.sent x (hsame.sent ▸ hx)
  tasks task d pid hd hpid :=
    (hs.tasks task d pid (hsame.tasks ▸ hd) hpid).step hstep
  got g hg := (hs.got g (hsame.got ▸ hg)).step hstep

/-- A task is put at a phase of a delivery. -/
theorem AddressInv.of_setTask (hs : AddressInv codec s) {a : NetAction κ}
    (hstep : s.step codec a = some t) {task : DeliveryTask} {parcel : Parcel}
    {phase : DeliveryPhase} {u : DeliveryNet κ} (htasks : u.tasks = s.tasks)
    (hgot : u.got = s.got) (ht : t = u.setTask task parcel phase)
    (hsent : ∀ x ∈ u.sent, x ∈ s.sent ∨ x.parcel.home = x.source.node ∧
      ∀ q, x.parcel.envelope.target = .pid q → q.node = x.parcel.node)
    (hfound : ∀ pid, phase.found = some pid → LeadsTo codec s parcel pid) :
    AddressInv codec t := by
  subst ht
  refine ⟨hs.run.tail trivial hstep, ?_, ?_, ?_⟩
  · intro x hx
    exact (hsent x hx).elim (hs.sent x) id
  · intro task' d pid hd hpid
    have hd' : (s.tasks.insert task ⟨parcel, phase⟩).lookup task' = some d := by
      rw [← htasks]
      exact hd
    rw [Table.lookup_insert_eq] at hd'
    split at hd'
    · cases hd'
      exact (hfound pid hpid).step hstep
    · exact (hs.tasks task' d pid hd' hpid).step hstep
  · intro g hg
    have hg' : g ∈ s.got := hgot ▸ hg
    exact (hs.got g hg').step hstep

/-- A delivery ends. -/
theorem AddressInv.of_erase (hs : AddressInv codec s) {a : NetAction κ}
    (hstep : s.step codec a = some t) {task : DeliveryTask}
    (hsent : t.sent = s.sent) (htasks : t.tasks = s.tasks.erase task)
    (hgot : ∀ g ∈ t.got, g ∈ s.got ∨ LeadsTo codec s g.parcel g.pid) :
    AddressInv codec t where
  run := hs.run.tail trivial hstep
  sent x hx := hs.sent x (hsent ▸ hx)
  tasks task' d pid hd hpid := by
    rw [htasks, Table.lookup_erase_eq] at hd
    split at hd
    · cases hd
    · exact (hs.tasks task' d pid hd hpid).step hstep
  got g hg := ((hgot g hg).elim (hs.got g) id).step hstep

theorem node_of_elsewhere {dest : Destination} {me node : EndpointId}
    {target : Addressee} (h : dest.resolveLocal me = .elsewhere node target) :
    ∀ q, target = .pid q → q.node = node := by
  rintro q rfl
  unfold Destination.resolveLocal at h
  split at h
  · split at h
    · cases h
    · cases h
      rfl
  · cases h
  · cases h
  · split at h <;> cases h
  · cases h

theorem node_of_here {dest : Destination} {me : EndpointId} {target : Addressee}
    (h : dest.resolveLocal me = .here target) :
    ∀ q, target = .pid q → q.node = me := by
  rintro q rfl
  unfold Destination.resolveLocal at h
  split at h
  · split at h
    · rename_i hlocal
      cases h
      simpa [Pid.isLocalTo] using hlocal
    · cases h
  · cases h
  · cases h
  · split at h <;> cases h
  · cases h

/-- A particle sends. -/
theorem AddressInv.deliverTo (hs : AddressInv codec s) {source : Pid}
    {dest : Destination} {refId : Option UInt64} {payload : List UInt8}
    {a : NetAction κ} (hstep : s.step codec a =
      some (s.deliverTo codec source dest refId payload)) :
    AddressInv codec (s.deliverTo codec source dest refId payload) := by
  have hrecorded : ∀ {node : EndpointId} {target : Addressee},
      (∀ q, target = .pid q → q.node = node) → ∀ x : Sending,
      x ∈ s.sent ++ [⟨source, ⟨source.node, node, target, refId, payload⟩⟩] →
      x ∈ s.sent ∨ x.parcel.home = x.source.node ∧
        ∀ q, x.parcel.envelope.target = .pid q → q.node = x.parcel.node := by
    intro node target hnode x hx
    rcases List.mem_append.1 hx with hx | hx
    · exact .inl hx
    · rw [List.mem_singleton.1 hx]
      exact .inr ⟨rfl, hnode⟩
  unfold DeliveryNet.deliverTo at hstep ⊢
  split
  · rename_i hunknown
    rw [hunknown] at hstep
    exact hs.of_sameBooks hstep (.refl s)
  · rename_i target hhere
    rw [hhere] at hstep
    refine hs.of_setTask hstep (u := s.record source
      ⟨source.node, source.node, target, refId, payload⟩) rfl rfl rfl
      (hrecorded (node_of_here hhere)) fun pid hpid => ?_
    cases hpid
  · rename_i node target helse
    rw [helse] at hstep
    dsimp only at hstep ⊢
    have hnode := node_of_elsewhere helse
    split at hstep
    all_goals
      refine ⟨hs.run.tail trivial hstep, fun x hx => ?_, fun task d pid hd hpid => ?_,
        fun g hg => ?_⟩
      · exact (hrecorded hnode x hx).elim (hs.sent x) id
      · exact (hs.tasks task d pid hd hpid).step hstep
      · exact (hs.got g hg).step hstep

/-- A delivery takes its next step. -/
theorem AddressInv.advance (hs : AddressInv codec s) {task : DeliveryTask}
    {late : Bool} {d : Delivery} (hd : s.tasks.lookup task = some d)
    {a : NetAction κ} (hstep : s.step codec a = some (s.advance task late d)) :
    AddressInv codec (s.advance task late d) := by
  obtain ⟨parcel, phase⟩ := d
  have hdrop : s.step codec a = some (s.drop task parcel) →
      AddressInv codec (s.drop task parcel) :=
    fun hstep => hs.of_erase hstep rfl rfl fun g hg => .inl hg
  have haccepted : ∀ {pid : Pid}, LeadsTo codec s parcel pid →
      ∀ g ∈ s.got ++ [⟨task, parcel, pid⟩],
        g ∈ s.got ∨ LeadsTo codec s g.parcel g.pid := by
    intro pid hpid g hg
    rcases List.mem_append.1 hg with hg | hg
    · exact .inl hg
    · rw [List.mem_singleton.1 hg]
      exact .inr hpid
  cases phase with
  | resolving =>
    rw [DeliveryNet.advance] at hstep ⊢
    split
    · rename_i hnone
      rw [hnone] at hstep
      exact hdrop hstep
    · rename_i pid hresolve
      rw [hresolve] at hstep
      refine hs.of_setTask hstep rfl rfl rfl (fun x hx => .inl hx) fun q hq => ?_
      cases hq
      unfold LeadsTo
      rw [ParticleRegistry.resolve.eq_def] at hresolve
      cases htarget : parcel.envelope.target with
      | pid q =>
        rw [htarget] at hresolve
        exact (Option.some_inj.1 hresolve).symm
      | name n =>
        rw [htarget] at hresolve
        exact ⟨s, hs.run, .refl, hresolve⟩
  | finding pid =>
    have hleads := hs.tasks task _ pid hd rfl
    rw [DeliveryNet.advance] at hstep ⊢
    split
    · rename_i halive
      rw [if_pos halive] at hstep
      refine hs.of_setTask hstep rfl rfl rfl (fun x hx => .inl hx) fun q hq => ?_
      cases hq
      exact hleads
    · rename_i hdead
      rw [if_neg hdead] at hstep
      exact hdrop hstep
  | pushing pid =>
    have hleads := hs.tasks task _ pid hd rfl
    rw [DeliveryNet.advance] at hstep ⊢
    split
    · rename_i haccepts
      rw [if_pos haccepts] at hstep
      exact hs.of_erase hstep rfl rfl (haccepted hleads)
    · rename_i hrefuses
      rw [if_neg hrefuses] at hstep
      split
      · rename_i hlate
        rw [if_pos hlate] at hstep
        exact hs.of_erase hstep rfl rfl (haccepted hleads)
      · rename_i hover
        rw [if_neg hover] at hstep
        exact hdrop hstep

theorem AddressInv.step (hs : AddressInv codec s) {a : NetAction κ}
    (h : s.step codec a = some t) : AddressInv codec t := by
  have hstep := h
  cases a with
  | send source dest refId payload =>
    rw [DeliveryNet.step] at h
    split at h
    · cases h
    · cases h
      exact hs.deliverTo hstep
  | post home node msg =>
    cases h
    exact hs.of_sameBooks hstep ⟨rfl, rfl, rfl⟩
  | transport home node a =>
    rw [DeliveryNet.step] at h
    split at h
    · obtain ⟨lane, -, rfl⟩ := Option.map_eq_some_iff.1 h
      exact hs.of_sameBooks hstep ⟨rfl, rfl, rfl⟩
    · cases h
  | read home node w i =>
    rw [DeliveryNet.step] at h
    split at h
    · cases h
    · obtain ⟨lane, -, h⟩ := Option.bind_eq_some_iff.1 h
      obtain ⟨msg, -, rfl⟩ := Option.map_eq_some_iff.1 h
      cases msg with
      | deliver envelope =>
        refine hs.of_setTask hstep (u := s.setLane home node lane) rfl rfl rfl
          (fun x hx => .inl hx) fun pid hpid => ?_
        cases hpid
      | control msg =>
        have hsame := sameBooks_control codec (s.setLane home node lane) home node
          (.handler home node w i) msg
        exact hs.of_sameBooks hstep ⟨hsame.sent, hsame.got, hsame.tasks⟩
      | other msg => exact hs.of_sameBooks hstep ⟨rfl, rfl, rfl⟩
  | advance task late =>
    obtain ⟨d, hd, rfl⟩ := Option.map_eq_some_iff.1 h
    exact hs.advance hd hstep
  | operate node op =>
    cases h
    exact hs.of_sameBooks hstep ⟨rfl, rfl, rfl⟩
  | spawn node component name =>
    cases h
    exact hs.of_sameBooks hstep ⟨rfl, rfl, rfl⟩
  | receive pid call =>
    cases h
    exact hs.of_sameBooks hstep ⟨rfl, rfl, rfl⟩

theorem addressInv_run (h : Run (step codec) anyStep start s) : AddressInv codec s :=
  h.invariant (fun hs _ hstep => hs.step hstep) addressInv_start

/-! ## The result -/

/-- A codec for messages of one byte to the name `b`. -/
def letterWire : WireCodec (LinkMessage Unit) where
  serialize
    | .deliver ⟨.name "b", none, [x]⟩ => .ok [0, 1, 1, 98, 0, 1, x]
    | _ => .error "no letter"
  deserialize
    | [0, 1, 1, 98, 0, 1, x] => .ok (.deliver ⟨.name "b", none, [x]⟩)
    | _ => .error "no letter"

theorem letterWire_roundTrips : letterWire.RoundTrips := by
  intro msg body h
  simp only [letterWire] at h
  split at h
  · cases h
    rfl
  · cases h

/-- A particle sends a letter to a name on another node. -/
def sendLetter : List (NetAction Unit) :=
  [.operate ⟨2⟩ (.atomic (.registerComponent "worker")),
    .spawn ⟨2⟩ "worker" (some "b"),
    .send ⟨⟨1⟩, 1⟩ (.named (some ⟨2⟩) "b") none [7],
    .transport ⟨1⟩ ⟨2⟩ (.take 0), .transport ⟨1⟩ ⟨2⟩ (.openLink 0 true),
    .transport ⟨1⟩ ⟨2⟩ (.write 0), .read ⟨1⟩ ⟨2⟩ 0 0] ++
    List.replicate 3 (.advance (.handler ⟨1⟩ ⟨2⟩ 0 0) false)

end DeliveryNet

end Plasmoid
