import Plasmoid.HostCalls

/-!
# Answers to local links and monitors

A guest that links or monitors should always hear of it: either the
relationship is recorded, or a signal says `noproc`.  For a destination on the
guest's own node this takes no other node.  A name that nobody holds is
answered, and so is a link to a dead particle, but a monitor of a dead pid is
not, and neither is a link to a destination that cannot be parsed.
-/

namespace Plasmoid

/-- The destination belongs to this node, or to none. -/
def Destination.Near (me : EndpointId) (dest : Destination) : Prop :=
  ∀ node target, dest.resolveLocal me ≠ .elsewhere node target

namespace ParticleRegistry

/-- The particle that a destination of this node leads to, dead or alive. -/
def leadsTo (reg : ParticleRegistry) (dest : Destination) : Option Pid :=
  match dest.resolveLocal reg.me with
  | .here target => reg.resolve target
  | _ => none

/-- Just this signal has been put into the mailbox of `p`. -/
def GotSignal (reg reg' : ParticleRegistry) (p : Pid) (msg : SystemMessage) :
    Prop :=
  ∃ s s', reg.state p = some s ∧ reg'.state p = some s' ∧
    s'.mailbox = s.mailbox.pushSystem msg

/-- A monitor is recorded on both sides, or a down signal with its ref says
`noproc`. -/
inductive MonitorAnswered (reg reg' : ParticleRegistry) (me : Pid)
    (dest : Destination) (refId : UInt64) : Prop where
  | recorded (t : Pid) (s st : ParticleState) (leads : reg.leadsTo dest = some t)
      (caller : reg'.state me = some s) (target : reg'.state t = some st)
      (holds : s.monitors.lookup refId = some t)
      (held : (me, refId) ∈ st.monitoredBy)
  | told (source : Pid) (signal : GotSignal reg reg' me (.down source refId .noProc))

/-- A link is recorded on both sides, or an exit signal says `noproc`, as a
message or as a death. -/
inductive LinkAnswered (reg reg' : ParticleRegistry) (me : Pid)
    (dest : Destination) : Prop where
  | recorded (t : Pid) (s st : ParticleState) (leads : reg.leadsTo dest = some t)
      (caller : reg'.state me = some s) (target : reg'.state t = some st)
      (holds : t ∈ s.links) (held : me ∈ st.links)
  | told (source : Pid) (signal : GotSignal reg reg' me (.exit source .noProc))
  | died (alive : reg.Alive me) (dead : reg' = reg.exitParticle me .noProc)

/-! ## What is recorded and what is sent -/

/-- One signal is one message more. -/
theorem not_gotSignal_of_mailbox {reg reg' : ParticleRegistry} {p : Pid}
    {msg : SystemMessage}
    (h : ∀ s s', reg.state p = some s → reg'.state p = some s' →
      s'.mailbox = s.mailbox) : ¬ GotSignal reg reg' p msg := by
  rintro ⟨s, s', hs, hs', hmailbox⟩
  rw [h s s' hs hs'] at hmailbox
  have hlength := congrArg (fun m => m.queue.length) hmailbox
  simp [Mailbox.pushSystem] at hlength

theorem gotSignal_sendSystem {reg : ParticleRegistry} {p : Pid}
    (msg : SystemMessage) (h : reg.Alive p) :
    GotSignal reg (reg.sendSystem p msg) p msg := by
  obtain ⟨s, hs⟩ := alive_iff.1 h
  refine ⟨s, { s with mailbox := s.mailbox.pushSystem msg }, hs, ?_, rfl⟩
  rw [sendSystem, state_modifyState, if_pos rfl, hs]
  rfl

theorem alive_of_gotSignal {reg reg' : ParticleRegistry} {p : Pid}
    {msg : SystemMessage} (h : GotSignal reg reg' p msg) : reg.Alive p := by
  obtain ⟨s, -, hs, -⟩ := h
  exact alive_iff.2 ⟨s, hs⟩

theorem leadsTo_of_here {reg : ParticleRegistry} {dest : Destination}
    {target : Addressee} (h : dest.resolveLocal reg.me = .here target) :
    reg.leadsTo dest = reg.resolve target := by
  rw [leadsTo, h]

/-! ## Monitors -/

/-- Monitoring a particle that was found is answered if it is alive. -/
theorem monitorAnswered_found {reg : ParticleRegistry} {me t : Pid}
    {dest : Destination} {refId : UInt64} (hleads : reg.leadsTo dest = some t) :
    MonitorAnswered reg (reg.monitorWithRef me t refId) me dest refId ↔
      reg.Alive me ∧ reg.Alive t := by
  have hstate := state_monitorWithRef reg me t
  constructor
  · intro h
    cases h with
    | recorded t' s st hleads' hcaller htarget =>
      cases hleads.symm.trans hleads'
      rw [hstate] at hcaller htarget
      obtain ⟨s₀, hs₀, -⟩ := Option.map_eq_some_iff.1 hcaller
      obtain ⟨st₀, hst₀, -⟩ := Option.map_eq_some_iff.1 htarget
      exact ⟨alive_iff.2 ⟨s₀, hs₀⟩, alive_iff.2 ⟨st₀, hst₀⟩⟩
    | told source signal =>
      -- Recording a monitor puts nothing into any mailbox.
      refine absurd signal (not_gotSignal_of_mailbox fun s s' hs hs' => ?_)
      rw [hstate, hs] at hs'
      cases hs'
      rfl
  · rintro ⟨hme, ht⟩
    obtain ⟨s, hs⟩ := alive_iff.1 hme
    obtain ⟨st, hst⟩ := alive_iff.1 ht
    have hcaller : (reg.monitorWithRef me t refId).state me =
        some (withMonitor me t refId me s) := by
      rw [hstate, hs, Option.map_some]
    have htarget : (reg.monitorWithRef me t refId).state t =
        some (withMonitor me t refId t st) := by
      rw [hstate, hst, Option.map_some]
    exact .recorded t _ _ hleads hcaller htarget (by simp [withMonitor])
      (by simp [withMonitor])

/-- A monitor of nobody is answered by a down signal. -/
theorem monitorAnswered_nobody {reg : ParticleRegistry} {me : Pid}
    {dest : Destination} {refId : UInt64} (hnone : reg.leadsTo dest = none) :
    MonitorAnswered reg (reg.deliverDown me me refId .noProc) me dest refId ↔
      reg.Alive me := by
  constructor
  · intro h
    cases h with
    | recorded t s st hleads =>
      rw [hnone] at hleads
      cases hleads
    | told source signal => exact alive_of_gotSignal signal
  · exact fun h => .told me (gotSignal_sendSystem _ h)

/-- A local monitor is answered, unless it leads to a dead pid. -/
theorem monitorAnswered_iff {reg : ParticleRegistry} {me : Pid}
    {dest : Destination} {refId : UInt64} (hnear : dest.Near reg.me) :
    MonitorAnswered reg (reg.hostMonitor me dest refId).1 me dest refId ↔
      reg.Alive me ∧ ∀ t, reg.leadsTo dest = some t → reg.Alive t := by
  cases hlocal : dest.resolveLocal reg.me with
  | elsewhere node target => exact absurd hlocal (hnear node target)
  | unknown =>
    have hnone : reg.leadsTo dest = none := by rw [leadsTo, hlocal]
    simp only [hostMonitor, hlocal]
    rw [monitorAnswered_nobody hnone, hnone]
    simp
  | here target =>
    have hleads := leadsTo_of_here hlocal
    cases hresolve : reg.resolve target with
    | none =>
      rw [hresolve] at hleads
      simp only [hostMonitor, hlocal, hresolve]
      rw [monitorAnswered_nobody hleads, hleads]
      simp
    | some t =>
      rw [hresolve] at hleads
      simp only [hostMonitor, hlocal, hresolve]
      rw [monitorAnswered_found hleads, hleads]
      simp

/-! ## Links -/

/-- Linking to a particle that was found is answered. -/
theorem linkAnswered_found {reg : ParticleRegistry} {me t : Pid}
    {dest : Destination} (hleads : reg.leadsTo dest = some t)
    (hme : reg.Alive me) (ht : reg.Alive t) :
    LinkAnswered reg (reg.link me t).1 me dest := by
  obtain ⟨s, hs⟩ := alive_iff.1 hme
  obtain ⟨st, hst⟩ := alive_iff.1 ht
  have hcaller : (reg.link me t).1.state me = some (withLink me t me s) := by
    rw [state_link hme ht, hs, Option.map_some]
  have htarget : (reg.link me t).1.state t = some (withLink me t t st) := by
    rw [state_link hme ht, hst, Option.map_some]
  exact .recorded t _ _ hleads hcaller htarget
    (mem_withLink.2 (.inr (.inl ⟨rfl, rfl⟩)))
    (mem_withLink.2 (.inr (.inr ⟨rfl, rfl⟩)))

/-- A link to a particle that was found is made if both ends are alive. -/
theorem hostLink_found {reg : ParticleRegistry} {me t : Pid}
    {dest : Destination} {target : Addressee}
    (hlocal : dest.resolveLocal reg.me = .here target)
    (hresolve : reg.resolve target = some t) :
    (reg.hostLink me dest).1 =
      if reg.Alive me ∧ reg.Alive t then (reg.link me t).1
      else reg.deliverExit me me .noProc := by
  simp only [hostLink, hlocal, hresolve, link]
  by_cases hme : reg.Alive me
  · by_cases ht : reg.Alive t
    · simp only [hme, ht, not_true_eq_false, if_false, and_self, if_true]
    · simp only [hme, ht, not_true_eq_false, if_false, not_false_eq_true, if_true,
        and_false]
  · simp only [hme, not_false_eq_true, if_true, false_and, if_false]

theorem alive_of_linkAnswered {reg reg' : ParticleRegistry} {me : Pid}
    {dest : Destination} (hborn : ∀ p, reg'.Alive p → reg.Alive p)
    (h : LinkAnswered reg reg' me dest) : reg.Alive me := by
  cases h with
  | recorded t s st leads caller => exact hborn me (alive_iff.2 ⟨s, caller⟩)
  | told source signal => exact alive_of_gotSignal signal
  | died halive => exact halive

/-- A local link is answered, unless its destination cannot be parsed. -/
theorem linkAnswered_iff {reg : ParticleRegistry} {me : Pid}
    {dest : Destination} (hnear : dest.Near reg.me) :
    LinkAnswered reg (reg.hostLink me dest).1 me dest ↔
      reg.Alive me ∧ dest.resolveLocal reg.me ≠ .unknown := by
  have htold : LinkAnswered reg (reg.deliverExit me me .noProc) me dest ↔
      reg.Alive me :=
    ⟨alive_of_linkAnswered fun _ h => alive_deliverExit.1 h,
      fun h => .told me (gotSignal_sendSystem _ h)⟩
  cases hlocal : dest.resolveLocal reg.me with
  | elsewhere node target => exact absurd hlocal (hnear node target)
  | unknown =>
    simp only [hostLink, hlocal, ne_eq, not_true_eq_false, and_false, iff_false]
    intro h
    cases h with
    | recorded t s st leads =>
      rw [leadsTo, hlocal] at leads
      cases leads
    | told source signal =>
      refine not_gotSignal_of_mailbox (fun s s' hs hs' => ?_) signal
      rw [hs] at hs'
      cases hs'
      rfl
    | died halive hdead =>
      refine not_alive_exitParticle reg me .noProc ?_
      rw [← hdead]
      exact halive
  | here target =>
    have hleads := leadsTo_of_here hlocal
    simp only [ne_eq, reduceCtorEq, not_false_eq_true, and_true]
    cases hresolve : reg.resolve target with
    | none =>
      simp only [hostLink, hlocal, hresolve]
      exact htold
    | some t =>
      rw [hresolve] at hleads
      rw [hostLink_found hlocal hresolve]
      split
      · rename_i hboth
        exact ⟨fun _ => hboth.1, fun _ => linkAnswered_found hleads hboth.1 hboth.2⟩
      · exact htold

/-- A local link or monitor of a living caller is answered, unless the monitor
leads to a dead pid or the destination of the link cannot be parsed. -/
theorem local_calls_answer (reg : ParticleRegistry) (me : Pid)
    (dest : Destination) (refId : UInt64) (hnear : dest.Near reg.me) :
    (MonitorAnswered reg (reg.hostMonitor me dest refId).1 me dest refId ↔
      reg.Alive me ∧ ∀ t, reg.leadsTo dest = some t → reg.Alive t) ∧
    (LinkAnswered reg (reg.hostLink me dest).1 me dest ↔
      reg.Alive me ∧ dest.resolveLocal reg.me ≠ .unknown) :=
  ⟨monitorAnswered_iff hnear, linkAnswered_iff hnear⟩

instance (me : EndpointId) (dest : Destination) : Decidable (dest.Near me) :=
  match h : dest.resolveLocal me with
  | .elsewhere node target => isFalse fun hnear => hnear node target h
  | .here _ | .unknown => isTrue fun _ _ => by simp [h]

/-- A monitor of a dead pid hears nothing, and neither does a link to a
malformed node. -/
theorem local_calls_silent :
    ¬ MonitorAnswered (oneParticle true)
      ((oneParticle true).hostMonitor ⟨⟨1⟩, 1⟩ (.pid (some ⟨⟨1⟩, 2⟩)) 1).1
      ⟨⟨1⟩, 1⟩ (.pid (some ⟨⟨1⟩, 2⟩)) 1 ∧
    ¬ LinkAnswered (oneParticle true)
      ((oneParticle true).hostLink ⟨⟨1⟩, 1⟩ (.named none "db")).1
      ⟨⟨1⟩, 1⟩ (.named none "db") := by
  constructor
  · rw [monitorAnswered_iff (by decide)]
    rintro ⟨-, h⟩
    exact absurd (h ⟨⟨1⟩, 2⟩ (by decide)) (by decide)
  · rw [linkAnswered_iff (by decide)]
    rintro ⟨-, h⟩
    exact h (by decide)

theorem local_calls_answer_self :
    (MonitorAnswered (oneParticle true)
        ((oneParticle true).hostMonitor ⟨⟨1⟩, 1⟩ (.localNamed "db") 1).1
        ⟨⟨1⟩, 1⟩ (.localNamed "db") 1 ↔
      (oneParticle true).Alive ⟨⟨1⟩, 1⟩ ∧
        ∀ t, (oneParticle true).leadsTo (.localNamed "db") = some t →
          (oneParticle true).Alive t) ∧
    (LinkAnswered (oneParticle true)
        ((oneParticle true).hostLink ⟨⟨1⟩, 1⟩ (.localNamed "db")).1
        ⟨⟨1⟩, 1⟩ (.localNamed "db") ↔
      (oneParticle true).Alive ⟨⟨1⟩, 1⟩ ∧
        (Destination.localNamed "db").resolveLocal (oneParticle true).me ≠
          .unknown) :=
  local_calls_answer _ _ _ _ (by decide)

end ParticleRegistry

end Plasmoid
