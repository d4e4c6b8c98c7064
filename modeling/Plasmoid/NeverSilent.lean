import Plasmoid.Lib.Tasks
import Plasmoid.SignalFlow

/-!
# Linking and monitoring are never silent

A particle that asks to link to a dead particle on another node, or to monitor
it, should hear of it: of `noproc` if the target was dead when the request
arrived, and of the reason of its death if it died later.  A request that
names its target by pid is recorded without a look at whether the target is
alive, so in the first case nothing is ever sent.

`Heard` is the condition that every request arrives at a live target, and that
no message is refused for its size or dropped by a forwarder that lags.
Under it the answer is always on its way (`Answering`): the request is in
flight, or the target has recorded it, or its death has yet to be forwarded, or
the signal is in flight, or it has arrived.
-/

namespace Plasmoid

open Machine ParticleRegistry

/-! ## The invariant -/

/-- Where the answer to a request of `x` to link to `y` is. -/
inductive LinkAnswer (p q : Party) (x y : Pid) : Prop where
  | requested (h : .link x (.pid y) ∈ p.outbox)
  | recorded {s : ParticleState} (hs : q.reg.state y = some s) (h : x ∈ s.links)
  | unread {d : ParticleDeath} (hd : d ∈ q.reg.deaths.drop q.cursor)
      (hpid : d.pid = y) (h : x ∈ d.remoteLinks)
  | sent {d : ParticleDeath} (hd : d ∈ q.reg.deaths) (hpid : d.pid = y)
      (h : .exit y x d.reason ∈ q.outbox)
  | arrived {d : ParticleDeath} (hd : d ∈ q.reg.deaths) (hpid : d.pid = y)
      (h : p.reg.Alive x → .exitByMessage x y d.reason ∈ p.log)

/-- Where the answer to a request of `w` to monitor `y` is. -/
inductive MonitorAnswer (p q : Party) (w y : Pid) (r : UInt64) : Prop where
  | requested (h : .monitor w (.pid y) r ∈ p.outbox)
  | recorded {s : ParticleState} (hs : q.reg.state y = some s)
      (h : (w, r) ∈ s.monitoredBy)
  | unread {d : ParticleDeath} (hd : d ∈ q.reg.deaths.drop q.cursor)
      (hpid : d.pid = y) (h : (w, r) ∈ d.remoteMonitors)
  | sent {d : ParticleDeath} (hd : d ∈ q.reg.deaths) (hpid : d.pid = y)
      (h : .down y w r d.reason ∈ q.outbox)
  | arrived {d : ParticleDeath} (hd : d ∈ q.reg.deaths) (hpid : d.pid = y)
      (h : p.reg.Alive w → .downByMessage w y r d.reason ∈ p.log)

/-- Every request of `p` to a particle of `q` has its answer under way, and
none arrived at a dead target. -/
structure Answering (p q : Party) : Prop where
  links : ∀ x y, .askedLink x y ∈ p.log → LinkAnswer p q x y
  monitors : ∀ w y r, .askedMonitor w y r ∈ p.log → MonitorAnswer p q w y r
  aliveLinks : ∀ x y, .linkArrived x y false ∉ q.log
  aliveMonitors : ∀ w y r, .monitorArrived w y r false ∉ q.log

/-! ## What each side may do -/

/-- The asking side: it forgets nothing, and whatever else it asks for is on
its way. -/
structure AskerStep (p p' : Party) : Prop where
  alive : ∀ x ∈ p.hosted, p'.reg.Alive x → p.reg.Alive x
  log : ∀ e ∈ p.log, e ∈ p'.log
  links : ∀ x y, .askedLink x y ∈ p'.log →
    .askedLink x y ∈ p.log ∨ .link x (.pid y) ∈ p'.outbox
  monitors : ∀ w y r, .askedMonitor w y r ∈ p'.log →
    .askedMonitor w y r ∈ p.log ∨ .monitor w (.pid y) r ∈ p'.outbox

/-- The target side: a recorded request stays until the target dies, and then
it is in the death; a death stays until it is forwarded. -/
structure TargetStep (q q' : Party) : Prop where
  deaths : ∀ d ∈ q.reg.deaths, d ∈ q'.reg.deaths
  links : ∀ y s x, q.reg.state y = some s → x ∈ s.links → x.node ≠ q.reg.me →
    (∃ s', q'.reg.state y = some s' ∧ x ∈ s'.links) ∨
    ∃ d ∈ q'.reg.deaths.drop q'.cursor, d.pid = y ∧ x ∈ d.remoteLinks
  monitors : ∀ y s w, q.reg.state y = some s → w ∈ s.monitoredBy →
    w.1.node ≠ q.reg.me →
    (∃ s', q'.reg.state y = some s' ∧ w ∈ s'.monitoredBy) ∨
    ∃ d ∈ q'.reg.deaths.drop q'.cursor, d.pid = y ∧ w ∈ d.remoteMonitors
  unread : ∀ d ∈ q.reg.deaths.drop q.cursor,
    d ∈ q'.reg.deaths.drop q'.cursor ∨
    (∀ x ∈ d.remoteLinks, x.node = q.peer →
      .exit d.pid x d.reason ∈ q'.outbox) ∧
    ∀ w ∈ d.remoteMonitors, w.1.node = q.peer →
      .down d.pid w.1 w.2 d.reason ∈ q'.outbox
  aliveLinks : ∀ x y, .linkArrived x y false ∈ q'.log →
    .linkArrived x y false ∈ q.log
  aliveMonitors : ∀ w y r, .monitorArrived w y r false ∈ q'.log →
    .monitorArrived w y r false ∈ q.log

/-- A message that leaves an outbox has reached the other side. -/
structure Handover (p q p' q' : Party) : Prop where
  link : ∀ x y, .link x (.pid y) ∈ p.outbox → .link x (.pid y) ∈ p'.outbox ∨
    ∃ s, q'.reg.state y = some s ∧ x ∈ s.links
  monitor : ∀ w y r, .monitor w (.pid y) r ∈ p.outbox →
    .monitor w (.pid y) r ∈ p'.outbox ∨
    ∃ s, q'.reg.state y = some s ∧ (w, r) ∈ s.monitoredBy
  exit : ∀ y x reason, .exit y x reason ∈ q.outbox →
    .exit y x reason ∈ q'.outbox ∨
    (p'.reg.Alive x → .exitByMessage x y reason ∈ p'.log)
  down : ∀ y w r reason, .down y w r reason ∈ q.outbox →
    .down y w r reason ∈ q'.outbox ∨
    (p'.reg.Alive w → .downByMessage w y r reason ∈ p'.log)

theorem mem_of_mem_drop_deaths {q : Party} {d : ParticleDeath}
    (h : d ∈ q.reg.deaths.drop q.cursor) : d ∈ q.reg.deaths :=
  List.mem_of_mem_drop h

/-- The answers stay under way. -/
theorem Answering.step {p q p' q' : Party} (h : Answering p q)
    (hp : PartyInv p) (hq : PartyInv q) (hpeer : q.peer = p.reg.me)
    (ha : AskerStep p p') (ht : TargetStep q q') (ho : Handover p q p' q') :
    Answering p' q' where
  links x y hasked := by
    rcases ha.links x y hasked with hold | hnew
    · have hx : x ∈ p.hosted := hp.askers x y hold
      have hnode : x.node = q.peer := (hp.hosted x hx).1.trans hpeer.symm
      have hfar : x.node ≠ q.reg.me := by
        rw [hnode]
        exact hq.apart.symm
      cases h.links x y hold with
      | requested hreq =>
        rcases ho.link x y hreq with hreq | ⟨s, hs, hmem⟩
        · exact .requested hreq
        · exact .recorded hs hmem
      | recorded hs hmem =>
        rcases ht.links y _ x hs hmem hfar with ⟨s', hs', hmem⟩ |
          ⟨d, hd, hpid, hmem⟩
        · exact .recorded hs' hmem
        · exact .unread hd hpid hmem
      | unread hd hpid hmem =>
        rcases ht.unread _ hd with hd' | ⟨hsent, -⟩
        · exact .unread hd' hpid hmem
        · have hmsg := hsent x hmem hnode
          rw [hpid] at hmsg
          exact .sent (ht.deaths _ (mem_of_mem_drop_deaths hd)) hpid hmsg
      | sent hd hpid hmsg =>
        rcases ho.exit y x _ hmsg with hmsg | harr
        · exact .sent (ht.deaths _ hd) hpid hmsg
        · exact .arrived (ht.deaths _ hd) hpid harr
      | arrived hd hpid harr =>
        exact .arrived (ht.deaths _ hd) hpid fun halive =>
          ha.log _ (harr (ha.alive x hx halive))
    · exact .requested hnew
  monitors w y r hasked := by
    rcases ha.monitors w y r hasked with hold | hnew
    · have hw : w ∈ p.hosted := hp.watchers w y r hold
      have hnode : w.node = q.peer := (hp.hosted w hw).1.trans hpeer.symm
      have hfar : w.node ≠ q.reg.me := by
        rw [hnode]
        exact hq.apart.symm
      cases h.monitors w y r hold with
      | requested hreq =>
        rcases ho.monitor w y r hreq with hreq | ⟨s, hs, hmem⟩
        · exact .requested hreq
        · exact .recorded hs hmem
      | recorded hs hmem =>
        rcases ht.monitors y _ (w, r) hs hmem hfar with ⟨s', hs', hmem⟩ |
          ⟨d, hd, hpid, hmem⟩
        · exact .recorded hs' hmem
        · exact .unread hd hpid hmem
      | unread hd hpid hmem =>
        rcases ht.unread _ hd with hd' | ⟨-, hsent⟩
        · exact .unread hd' hpid hmem
        · have hmsg := hsent (w, r) hmem hnode
          rw [hpid] at hmsg
          exact .sent (ht.deaths _ (mem_of_mem_drop_deaths hd)) hpid hmsg
      | sent hd hpid hmsg =>
        rcases ho.down y w r _ hmsg with hmsg | harr
        · exact .sent (ht.deaths _ hd) hpid hmsg
        · exact .arrived (ht.deaths _ hd) hpid harr
      | arrived hd hpid harr =>
        exact .arrived (ht.deaths _ hd) hpid fun halive =>
          ha.log _ (harr (ha.alive w hw halive))
    · exact .requested hnew
  aliveLinks x y hmem := h.aliveLinks x y (ht.aliveLinks x y hmem)
  aliveMonitors w y r hmem := h.aliveMonitors w y r (ht.aliveMonitors w y r hmem)

theorem AskerStep.refl (p : Party) : AskerStep p p :=
  ⟨fun _ _ h => h, fun _ h => h, fun _ _ h => Or.inl h, fun _ _ _ h => Or.inl h⟩

theorem TargetStep.refl (q : Party) : TargetStep q q :=
  ⟨fun _ h => h, fun _ s _ hs h _ => Or.inl ⟨s, hs, h⟩,
    fun _ s _ hs h _ => Or.inl ⟨s, hs, h⟩, fun _ h => Or.inl h,
    fun _ _ h => h, fun _ _ _ h => h⟩

/-- Nothing leaves an outbox. -/
theorem Handover.of_subset {p q p' q' : Party}
    (hp : ∀ m ∈ p.outbox, m ∈ p'.outbox) (hq : ∀ m ∈ q.outbox, m ∈ q'.outbox) :
    Handover p q p' q' :=
  ⟨fun _ _ h => Or.inl (hp _ h), fun _ _ _ h => Or.inl (hp _ h),
    fun _ _ _ h => Or.inl (hq _ h), fun _ _ _ _ h => Or.inl (hq _ h)⟩

/-! ## The asking side -/

variable {codec : WireCodec PeerMessage}

theorem AskerStep.setReg {p p' : Party} (h : AskerStep p p')
    {reg : ParticleRegistry} (halive : ∀ x, reg.Alive x → p'.reg.Alive x) :
    AskerStep p { p' with reg } :=
  { h with alive := fun x hx hx' => h.alive x hx (halive x hx') }

theorem AskerStep.send {p p' : Party} (h : AskerStep p p')
    (msgs : List (EndpointId × PeerMessage)) : AskerStep p (p'.send codec msgs) where
  alive := h.alive
  log := h.log
  links x y hmem := (h.links x y hmem).imp_right (List.mem_append_left _)
  monitors w y r hmem :=
    (h.monitors w y r hmem).imp_right (List.mem_append_left _)

/-- Whoever is noted to ask has its request on the way. -/
theorem AskerStep.note {p p' : Party} (h : AskerStep p p')
    {events : List SignalEvent}
    (hlinks : ∀ x y, .askedLink x y ∈ events → .link x (.pid y) ∈ p'.outbox)
    (hmonitors : ∀ w y r, .askedMonitor w y r ∈ events →
      .monitor w (.pid y) r ∈ p'.outbox) : AskerStep p (p'.note events) where
  alive := h.alive
  log e he := List.mem_append_left _ (h.log e he)
  links x y hmem := (List.mem_append.1 hmem).elim (h.links x y)
    fun hmem => Or.inr (hlinks x y hmem)
  monitors w y r hmem := (List.mem_append.1 hmem).elim (h.monitors w y r)
    fun hmem => Or.inr (hmonitors w y r hmem)

/-- Nothing that the action sends to the peer is refused. -/
def Party.Unrefused (codec : WireCodec PeerMessage) (p : Party) :
    PartyAction → Prop
  | .link x y => p.Admits codec [(y.node, .link x (.pid y))]
  | .monitor w y =>
    p.Admits codec [(y.node, .monitor w (.pid y) (p.nextRef w))]
  | .forward => ∀ death ∈ p.reg.deaths[p.cursor]?,
    p.Admits codec (forwardDeath death)
  | _ => True

instance (p : Party) : DecidablePred (p.Unrefused codec)
  | .link .. | .monitor .. =>
    inferInstanceAs (Decidable (PeerNode.Admits codec _ _))
  | .forward => inferInstanceAs (Decidable (∀ death ∈ p.reg.deaths[_]?, _))
  | .spawn .. | .perform _ | .exitSignal .. | .lose | .deliver _ | .drop _ =>
    isTrue trivial

theorem alive_monitorRemote {reg : ParticleRegistry} {w y x : Pid}
    {r : UInt64} : (reg.monitorRemote w y r).Alive x ↔ reg.Alive x := by
  rw [monitorRemote, alive_modifyState, alive_modifyState]

theorem not_mem_linkEvents {reg : ParticleRegistry} {x y : Pid}
    {e : SignalEvent} (he : e ≠ .linked x y) :
    e ∉ Party.linkEvents reg x y := by
  unfold Party.linkEvents
  split
  · simpa using he
  · exact List.not_mem_nil

/-- Nothing that a party does alone loses a request. -/
theorem askerStep_act {p p' : Party} {a : PartyAction} (hp : PartyInv p)
    (hact : p.act codec a = some p') (hlose : a ≠ .lose)
    (hsends : p.Unrefused codec a) : AskerStep p p' := by
  cases a with
  | spawn component name =>
    cases hact
    unfold Party.spawn
    split
    · rename_i reg pid hspawn
      obtain ⟨rfl, hs⟩ := spawn_ok hspawn
      refine ⟨?_, fun _ h => h, fun _ _ h => Or.inl h, fun _ _ _ h => Or.inl h⟩
      intro x hx halive
      -- The pid that is drawn belongs to no guest yet.
      obtain ⟨st, hst⟩ := alive_iff.1 halive
      change reg.state x = some st at hst
      rw [hs.state] at hst
      split at hst
      · rename_i hpeek
        have hlt := (hp.hosted x hx).2
        rw [hpeek] at hlt
        exact absurd hlt (Nat.lt_irrefl _)
      · exact alive_iff.2 ⟨st, hst⟩
    · exact .refl p
  | perform op =>
    simp only [Party.act] at hact
    split at hact
    · rename_i hop
      cases hact
      exact (AskerStep.refl p).setReg (evolves_perform hp.reg.allLocal hop).alive
    · cases hact
  | link x y =>
    simp only [Party.act] at hact
    split at hact
    · rename_i hxy
      cases hact
      have hreg : AskerStep p { p with reg := p.reg.linkRemote x y } :=
        (AskerStep.refl p).setReg fun z hz => alive_modifyState.1 hz
      refine (hreg.send _).note ?_ ?_
      · intro a b hmem
        rcases List.mem_append.1 hmem with hmem | hmem
        · exact absurd hmem (not_mem_linkEvents SignalEvent.noConfusion)
        · cases List.mem_singleton.1 hmem
          exact PeerNode.Admits.mem_send hsends
            (List.mem_singleton.2 (by rw [hxy.2]))
      · intro w b r hmem
        rcases List.mem_append.1 hmem with hmem | hmem
        · exact absurd hmem (not_mem_linkEvents SignalEvent.noConfusion)
        · cases List.mem_singleton.1 hmem
    · cases hact
  | monitor w y =>
    simp only [Party.act] at hact
    split at hact
    · rename_i hwy
      cases hact
      have hreg : AskerStep p
          { p with reg := p.reg.monitorRemote w y (p.nextRef w) } :=
        (AskerStep.refl p).setReg fun z hz => alive_monitorRemote.1 hz
      have hrefs : AskerStep p { p with
          reg := p.reg.monitorRemote w y (p.nextRef w)
          refs := p.refs.insert w (p.nextRef w + 1) } := { hreg with }
      refine (hrefs.send _).note ?_ ?_
      · intro a b hmem
        cases List.mem_singleton.1 hmem
      · intro a b r hmem
        cases List.mem_singleton.1 hmem
        exact PeerNode.Admits.mem_send hsends
          (List.mem_singleton.2 (by rw [hwy.2]))
    · cases hact
  | exitSignal x target reason =>
    simp only [Party.act] at hact
    split at hact
    · cases hact
      exact (AskerStep.refl p).send _
    · cases hact
  | forward =>
    have hcursor : ∀ cursor, AskerStep p { p with cursor } := fun _ =>
      { AskerStep.refl p with }
    rcases Party.forward_cases hact with ⟨-, rfl⟩ | ⟨death, -, -, rfl⟩
    · exact hcursor _
    · exact (hcursor _).send _
  | lose => exact absurd rfl hlose
  | deliver i => cases hact
  | drop i => cases hact

/-- Nobody is born when an expected message arrives. -/
theorem alive_of_handled {reg : ParticleRegistry} (h : reg.RegistryInv)
    {msg : PeerMessage} (hmsg : msg.expected = true)
    {x : Pid} (hx : (reg.handlePeerMessage msg).1.Alive x) : reg.Alive x := by
  cases msg with
  | link source target =>
    cases target with
    | pid t => exact alive_modifyState.1 hx
    | name n => cases hmsg
  | unlink source target => cases hmsg
  | monitor watcher target r =>
    cases target with
    | pid t => exact alive_monitorRemote.1 hx
    | name n => cases hmsg
  | demonitor watcher r => cases hmsg
  | exit source target reason =>
    exact (evolves_applyInheritedExit h.allLocal target source reason).alive x hx
  | exitSignal source target reason =>
    rw [handlePeerMessage] at hx
    revert hx
    cases reg.resolve target with
    | none => exact id
    | some t =>
      exact (evolves_applyDirectedExit h.allLocal t source reason).alive x
  | down source target r reason => exact alive_modifyState.1 hx

/-- No arrival is a request of a particle here. -/
theorem not_asked_of_arrival (reg : ParticleRegistry) (msg : PeerMessage) :
    (∀ x y, .askedLink x y ∉ Party.arrivalEvents reg msg) ∧
      ∀ w y r, .askedMonitor w y r ∉ Party.arrivalEvents reg msg := by
  cases msg with
  | link source target =>
    simp only [Party.arrivalEvents]
    cases reg.resolve target with
    | none => simp
    | some t => simp [not_mem_linkEvents]
  | monitor watcher target r =>
    simp only [Party.arrivalEvents]
    cases reg.resolve target <;> simp
  | exit source target reason =>
    simp only [Party.arrivalEvents]
    split <;> simp
  | down source target r reason =>
    simp only [Party.arrivalEvents]
    split <;> simp
  | unlink source target => simp [Party.arrivalEvents]
  | demonitor watcher r => simp [Party.arrivalEvents]
  | exitSignal source target reason => simp [Party.arrivalEvents]

theorem askerStep_receive {p : Party} (hp : PartyInv p) {msg : PeerMessage}
    (hmsg : msg.expected = true) : AskerStep p (p.receive codec msg) := by
  rw [hp.receive_eq hmsg]
  obtain ⟨hlinks, hmonitors⟩ := not_asked_of_arrival p.reg msg
  refine ((AskerStep.refl p).setReg fun x hx =>
    alive_of_handled hp.reg hmsg hx).note ?_ ?_
  · exact fun x y hmem => absurd hmem (hlinks x y)
  · exact fun w y r hmem => absurd hmem (hmonitors w y r)

theorem askerStep_takeFrom (p : Party) (i : Nat) :
    AskerStep p (TwoNodes.takeFrom p i) :=
  ⟨fun _ _ h => h, fun _ h => h, fun _ _ h => Or.inl h, fun _ _ _ h => Or.inl h⟩

/-! ## The target side -/

theorem TargetStep.send {q q' : Party} (h : TargetStep q q')
    (msgs : List (EndpointId × PeerMessage)) : TargetStep q (q'.send codec msgs) where
  deaths := h.deaths
  links := h.links
  monitors := h.monitors
  unread d hd := (h.unread d hd).imp_right fun hsent =>
    ⟨fun x hx hnode => List.mem_append_left _ (hsent.1 x hx hnode),
      fun w hw hnode => List.mem_append_left _ (hsent.2 w hw hnode)⟩
  aliveLinks := h.aliveLinks
  aliveMonitors := h.aliveMonitors

/-- No request is noted to have arrived at a dead target. -/
theorem TargetStep.note {q q' : Party} (h : TargetStep q q')
    {events : List SignalEvent}
    (hlinks : ∀ x y, .linkArrived x y false ∉ events)
    (hmonitors : ∀ w y r, .monitorArrived w y r false ∉ events) :
    TargetStep q (q'.note events) where
  deaths := h.deaths
  links := h.links
  monitors := h.monitors
  unread := h.unread
  aliveLinks x y hmem := (List.mem_append.1 hmem).elim (h.aliveLinks x y)
    fun hmem => absurd hmem (hlinks x y)
  aliveMonitors w y r hmem := (List.mem_append.1 hmem).elim
    (h.aliveMonitors w y r) fun hmem => absurd hmem (hmonitors w y r)

/-- The deaths are the same, and no living particle forgets a link or a
watcher. -/
theorem targetStep_of_states {q : Party} {reg : ParticleRegistry}
    (hdeaths : reg.deaths = q.reg.deaths)
    (hstates : ∀ y s, q.reg.state y = some s → ∃ s', reg.state y = some s' ∧
      (∀ x ∈ s.links, x ∈ s'.links) ∧
      ∀ w ∈ s.monitoredBy, w ∈ s'.monitoredBy) :
    TargetStep q { q with reg } where
  deaths d hd := by
    rw [hdeaths]
    exact hd
  links y s x hs hx _ := by
    obtain ⟨s', hs', hlinks, -⟩ := hstates y s hs
    exact Or.inl ⟨s', hs', hlinks x hx⟩
  monitors y s w hs hw _ := by
    obtain ⟨s', hs', -, hwatchers⟩ := hstates y s hs
    exact Or.inl ⟨s', hs', hwatchers w hw⟩
  unread d hd := by
    rw [hdeaths]
    exact Or.inl hd
  aliveLinks _ _ h := h
  aliveMonitors _ _ _ h := h

/-- The state of one particle grows. -/
theorem grows_modifyState {reg : ParticleRegistry} (pid : Pid)
    {f : ParticleState → ParticleState}
    (hlinks : ∀ s, ∀ x ∈ s.links, x ∈ (f s).links)
    (hwatchers : ∀ s, ∀ w ∈ s.monitoredBy, w ∈ (f s).monitoredBy)
    (y : Pid) (s : ParticleState) (hs : reg.state y = some s) :
    ∃ s', (reg.modifyState pid f).state y = some s' ∧
      (∀ x ∈ s.links, x ∈ s'.links) ∧
      ∀ w ∈ s.monitoredBy, w ∈ s'.monitoredBy := by
  rw [state_modifyState]
  split
  · exact ⟨f s, by rw [hs]; rfl, hlinks s, hwatchers s⟩
  · exact ⟨s, hs, fun _ h => h, fun _ h => h⟩

theorem targetStep_linkRemote (q : Party) (x y : Pid) :
    TargetStep q { q with reg := q.reg.linkRemote x y } :=
  targetStep_of_states rfl (grows_modifyState x
    (fun _ _ h => KeySet.mem_insert.2 (Or.inr h)) fun _ _ h => h)

theorem targetStep_monitorRemote (q : Party) (w y : Pid) (r : UInt64) :
    TargetStep q { q with reg := q.reg.monitorRemote w y r } := by
  refine targetStep_of_states rfl fun z s hs => ?_
  obtain ⟨s₁, hs₁, hlinks₁, hwatchers₁⟩ :=
    grows_modifyState w (f := fun s =>
      { s with monitors := s.monitors.insert r y }) (fun _ _ h => h)
      (fun _ _ h => h) z s hs
  obtain ⟨s₂, hs₂, hlinks₂, hwatchers₂⟩ :=
    grows_modifyState y (f := fun s =>
      { s with monitoredBy := s.monitoredBy ++ [(w, r)] }) (fun _ _ h => h)
      (fun _ _ h => List.mem_append_left _ h) z s₁ hs₁
  exact ⟨s₂, hs₂, fun x hx => hlinks₂ x (hlinks₁ x hx),
    fun v hv => hwatchers₂ v (hwatchers₁ v hv)⟩

/-- A death takes the relationships of the dead with it, unread. -/
theorem targetStep_of_evolves {q : Party} (hq : PartyInv q)
    {reg : ParticleRegistry} (he : Evolves q.reg reg) :
    TargetStep q { q with reg } := by
  obtain ⟨ds, heq, -, hdead, hall⟩ := he.deaths
  have hunread : reg.deaths.drop q.cursor = q.reg.deaths.drop q.cursor ++ ds := by
    rw [heq, List.drop_append_of_le_length hq.cursor]
  -- A particle with a state either survives or is in a new death.
  have hfate : ∀ y s, q.reg.state y = some s →
      (∃ s', reg.state y = some s' ∧ SameRemote q.reg.me s s') ∨
      ∃ d ∈ reg.deaths.drop q.cursor, d.pid = y ∧ Reports q.reg.me s d := by
    intro y s hs
    by_cases hy : reg.Alive y
    · obtain ⟨s', hs'⟩ := alive_iff.1 hy
      obtain ⟨s₀, hs₀, hsame⟩ := he.kept y s' hs'
      cases hs₀.symm.trans hs
      exact Or.inl ⟨s', hs', hsame⟩
    · obtain ⟨d, hd, rfl⟩ := hall y (alive_iff.2 ⟨s, hs⟩) hy
      obtain ⟨-, s₀, hs₀, hrep⟩ := hdead d hd
      cases hs₀.symm.trans hs
      refine Or.inr ⟨d, ?_, rfl, hrep⟩
      rw [hunread]
      exact List.mem_append_right _ hd
  refine ⟨?_, ?_, ?_, ?_, fun _ _ h => h, fun _ _ _ h => h⟩
  · intro d hd
    show d ∈ reg.deaths
    rw [heq]
    exact List.mem_append_left _ hd
  · intro y s x hs hx hfar
    rcases hfate y s hs with ⟨s', hs', hsame⟩ | ⟨d, hd, hpid, hrep⟩
    · exact Or.inl ⟨s', hs', (hsame.links x hfar).2 hx⟩
    · exact Or.inr ⟨d, hd, hpid, (hrep.links x).2 ⟨hx, hfar⟩⟩
  · intro y s w hs hw hfar
    rcases hfate y s hs with ⟨s', hs', hsame⟩ | ⟨d, hd, hpid, hrep⟩
    · refine Or.inl ⟨s', hs', ?_⟩
      rw [hsame.monitoredBy]
      exact hw
    · refine Or.inr ⟨d, hd, hpid, ?_⟩
      rw [hrep.monitors]
      exact List.mem_filter.2 ⟨hw, by simp [Pid.isLocalTo, hfar]⟩
  · intro d hd
    refine Or.inl ?_
    show d ∈ reg.deaths.drop q.cursor
    rw [hunread]
    exact List.mem_append_left _ hd

/-- A forwarder that has not lagged sends what it reads, if nothing of it is
refused. -/
theorem targetStep_forward {q q' : Party} (h : q.forward codec = some q')
    (hlag : ¬ q.Lags) (hsends : q.Unrefused codec .forward) :
    TargetStep q q' := by
  rcases Party.forward_cases h with ⟨hlags, -⟩ | ⟨death, -, hdeath, rfl⟩
  · exact absurd hlags hlag
  have hadmits : q.Admits codec (forwardDeath death) := hsends death hdeath
  obtain ⟨hlt, hget⟩ := List.getElem?_eq_some_iff.1 hdeath
  refine ⟨fun _ h => h, fun _ s _ hs h _ => Or.inl ⟨s, hs, h⟩,
    fun _ s _ hs h _ => Or.inl ⟨s, hs, h⟩, ?_, fun _ _ h => h,
    fun _ _ _ h => h⟩
  intro d hd
  rw [List.drop_eq_getElem_cons hlt, hget] at hd
  rcases List.mem_cons.1 hd with rfl | hd
  · refine Or.inr ⟨fun x hx hnode => ?_, fun w hw hnode => ?_⟩
    · refine PeerNode.Admits.mem_send hadmits (List.mem_append_left _ ?_)
      exact List.mem_map.2 ⟨x, hx, by rw [hnode]⟩
    · refine PeerNode.Admits.mem_send hadmits (List.mem_append_right _ ?_)
      exact List.mem_map.2 ⟨w, hw, by rw [hnode]⟩
  · exact Or.inl hd

/-- Nothing that a party does alone makes it forget a request, unless it loses
its peer, its forwarder lags or a message is refused. -/
theorem targetStep_act {q q' : Party} {a : PartyAction} (hq : PartyInv q)
    (hact : q.act codec a = some q') (hlose : a ≠ .lose)
    (hlag : a = .forward → ¬ q.Lags) (hsends : q.Unrefused codec a) :
    TargetStep q q' := by
  cases a with
  | spawn component name =>
    cases hact
    unfold Party.spawn
    split
    · rename_i reg pid hspawn
      obtain ⟨rfl, hs⟩ := spawn_ok hspawn
      have hstep : TargetStep q { q with reg } := by
        refine targetStep_of_states hs.deaths fun y s hy => ?_
        have hne : y ≠ q.reg.pidGen.peek := by
          rintro rfl
          exact Nat.lt_irrefl _ (hq.reg.counted _ (alive_iff.2 ⟨s, hy⟩))
        refine ⟨s, ?_, fun _ h => h, fun _ h => h⟩
        rw [hs.state, if_neg hne]
        exact hy
      exact { hstep with }
    · exact .refl q
  | perform op =>
    simp only [Party.act] at hact
    split at hact
    · rename_i hop
      cases hact
      exact targetStep_of_evolves hq (evolves_perform hq.reg.allLocal hop)
    · cases hact
  | link x y =>
    simp only [Party.act] at hact
    split at hact
    · cases hact
      refine ((targetStep_linkRemote q x y).send _).note ?_ ?_
      · intro a b hmem
        rcases List.mem_append.1 hmem with hmem | hmem
        · exact not_mem_linkEvents SignalEvent.noConfusion hmem
        · cases List.mem_singleton.1 hmem
      · intro w b r hmem
        rcases List.mem_append.1 hmem with hmem | hmem
        · exact not_mem_linkEvents SignalEvent.noConfusion hmem
        · cases List.mem_singleton.1 hmem
    · cases hact
  | monitor w y =>
    simp only [Party.act] at hact
    split at hact
    · cases hact
      have hreg := targetStep_monitorRemote q w y (q.nextRef w)
      have hrefs : TargetStep q { q with
          reg := q.reg.monitorRemote w y (q.nextRef w)
          refs := q.refs.insert w (q.nextRef w + 1) } := { hreg with }
      exact (hrefs.send _).note (by simp) (by simp)
    · cases hact
  | exitSignal x target reason =>
    simp only [Party.act] at hact
    split at hact
    · cases hact
      exact (TargetStep.refl q).send _
    · cases hact
  | forward => exact targetStep_forward hact (hlag rfl) hsends
  | lose => exact absurd rfl hlose
  | deliver i => cases hact
  | drop i => cases hact

/-- A request of the message finds its target alive. -/
def Party.findsAlive (q : Party) : PeerMessage → Prop
  | .link _ (.pid y) | .monitor _ (.pid y) _ => q.reg.Alive y
  | _ => True

instance (q : Party) (msg : PeerMessage) : Decidable (q.findsAlive msg) := by
  unfold Party.findsAlive
  split <;> infer_instance

/-- No arrival is logged at a dead target. -/
theorem not_arrived_dead {q : Party} {msg : PeerMessage}
    (hexp : msg.expected = true) (halive : q.findsAlive msg) :
    (∀ x y, .linkArrived x y false ∉ Party.arrivalEvents q.reg msg) ∧
      ∀ w y r, .monitorArrived w y r false ∉ Party.arrivalEvents q.reg msg := by
  cases msg with
  | link source target =>
    cases target with
    | pid t =>
      have ht : q.reg.Alive t := halive
      simp [Party.arrivalEvents, resolve, not_mem_linkEvents, ht]
    | name n => cases hexp
  | monitor watcher target r =>
    cases target with
    | pid t =>
      have ht : q.reg.Alive t := halive
      simp [Party.arrivalEvents, resolve, ht]
    | name n => cases hexp
  | exit source target reason =>
    simp only [Party.arrivalEvents]
    split <;> simp
  | down source target r reason =>
    simp only [Party.arrivalEvents]
    split <;> simp
  | unlink source target => cases hexp
  | demonitor watcher r => cases hexp
  | exitSignal source target reason => simp [Party.arrivalEvents]

theorem targetStep_receive {q : Party} (hq : PartyInv q) {msg : PeerMessage}
    (hexp : msg.expected = true) (halive : q.findsAlive msg) :
    TargetStep q (q.receive codec msg) := by
  rw [hq.receive_eq hexp]
  obtain ⟨hlinks, hmonitors⟩ := not_arrived_dead hexp halive
  refine TargetStep.note ?_ hlinks hmonitors
  cases msg with
  | link source target =>
    cases target with
    | pid t => exact targetStep_linkRemote q t source
    | name n => cases hexp
  | unlink source target => cases hexp
  | monitor watcher target r =>
    cases target with
    | pid t => exact targetStep_monitorRemote q watcher t r
    | name n => cases hexp
  | demonitor watcher r => cases hexp
  | exit source target reason =>
    exact targetStep_of_evolves hq
      (evolves_applyInheritedExit hq.reg.allLocal target source reason)
  | exitSignal source target reason =>
    rw [handlePeerMessage]
    cases q.reg.resolve target with
    | none => exact .refl q
    | some t =>
      exact targetStep_of_evolves hq
        (evolves_applyDirectedExit hq.reg.allLocal t source reason)
  | down source target r reason =>
    exact targetStep_of_evolves hq (evolves_sendSystem q.reg target _)

theorem targetStep_takeFrom (q : Party) (i : Nat) :
    TargetStep q (TwoNodes.takeFrom q i) :=
  { TargetStep.refl q with unread := fun _ h => Or.inl h }

/-! ## The arrival of a message -/

/-- A request arrives at the target. -/
theorem handover_request {p q : Party} (hq : PartyInv q) {i : Nat}
    {msg : PeerMessage} (hmsg : p.outbox[i]? = some msg)
    (hexp : msg.expected = true) (halive : q.findsAlive msg) :
    Handover p q (TwoNodes.takeFrom p i) (q.receive codec msg) := by
  rw [hq.receive_eq hexp]
  refine ⟨?_, ?_, fun _ _ _ h => Or.inl h, fun _ _ _ _ h => Or.inl h⟩
  · intro x y hreq
    refine (mem_eraseIdx_or_eq hmsg hreq).imp_right ?_
    rintro rfl
    obtain ⟨s, hs⟩ := alive_iff.1 halive
    refine ⟨{ s with links := s.links.insert x }, ?_,
      KeySet.mem_insert.2 (Or.inl rfl)⟩
    show (q.reg.linkRemote y x).state y = _
    rw [linkRemote, state_modifyState, if_pos rfl, hs]
    rfl
  · intro w y r hreq
    refine (mem_eraseIdx_or_eq hmsg hreq).imp_right ?_
    rintro rfl
    obtain ⟨s, hs⟩ := alive_iff.1 (show (q.reg.modifyState w fun s =>
      { s with monitors := s.monitors.insert r y }).Alive y from
        alive_modifyState.2 halive)
    refine ⟨{ s with monitoredBy := s.monitoredBy ++ [(w, r)] }, ?_,
      List.mem_append_right _ (List.mem_singleton_self _)⟩
    show (q.reg.monitorRemote w y r).state y = _
    rw [monitorRemote, state_modifyState, if_pos rfl, hs]
    rfl

/-- A signal arrives at whoever asked for it. -/
theorem handover_signal {p q : Party} (hp : PartyInv p) {i : Nat}
    {msg : PeerMessage} (hmsg : q.outbox[i]? = some msg)
    (hexp : msg.expected = true) :
    Handover p q (p.receive codec msg) (TwoNodes.takeFrom q i) := by
  rw [hp.receive_eq hexp]
  have halive : ∀ x, (p.reg.handlePeerMessage msg).1.Alive x → p.reg.Alive x :=
    fun _ hx => alive_of_handled hp.reg hexp hx
  refine ⟨fun _ _ h => Or.inl h, fun _ _ _ h => Or.inl h, ?_, ?_⟩
  · intro y x reason hsig
    refine (mem_eraseIdx_or_eq hmsg hsig).imp_right ?_
    rintro rfl hx
    refine List.mem_append_right _ ?_
    rw [Party.arrivalEvents, if_pos (halive x hx)]
    exact List.mem_singleton_self _
  · intro y w r reason hsig
    refine (mem_eraseIdx_or_eq hmsg hsig).imp_right ?_
    rintro rfl hw
    refine List.mem_append_right _ ?_
    rw [Party.arrivalEvents, if_pos (halive w hw)]
    exact List.mem_singleton_self _

/-! ## Runs -/

namespace TwoNodes

/-- The link between the nodes is reliable and ordered. -/
def Reliable (_ : TwoNodes) : Side × PartyAction → Prop
  | (_, .deliver i) => i = 0
  | (_, .drop _) | (_, .lose) => False
  | _ => True

/-- Every request that arrives finds its target alive, the forwarder does not
lag, no message is refused, and no pid counter wraps around. -/
def Heard (codec : WireCodec PeerMessage) (s : TwoNodes) :
    Side × PartyAction → Prop
  | (d, .spawn _ _) => (s d).reg.pidGen.nextSeq.toNat + 1 < 2 ^ 64
  | (d, .deliver i) => ∀ msg ∈ (s d.other).outbox[i]?, (s d).findsAlive msg
  | (d, .forward) => ¬ (s d).Lags ∧ (s d).Unrefused codec .forward
  | (d, a) => (s d).Unrefused codec a

instance (s : TwoNodes) : DecidablePred s.Reliable
  | (_, .deliver i) => inferInstanceAs (Decidable (i = 0))
  | (_, .drop _) | (_, .lose) => isFalse id
  | (_, .spawn ..) | (_, .perform _) | (_, .link ..) | (_, .monitor ..)
  | (_, .exitSignal ..) | (_, .forward) => isTrue trivial

instance (s : TwoNodes) : DecidablePred (s.Heard codec)
  | (_, .spawn ..) => inferInstanceAs (Decidable (_ < _))
  | (d, .deliver i) =>
    inferInstanceAs (Decidable (∀ msg ∈ (s d.other).outbox[i]?, _))
  | (_, .forward) => inferInstanceAs (Decidable (_ ∧ _))
  | (d, .link x y) =>
    inferInstanceAs (Decidable ((s d).Unrefused codec (.link x y)))
  | (d, .monitor w y) =>
    inferInstanceAs (Decidable ((s d).Unrefused codec (.monitor w y)))
  | (_, .perform _) | (_, .exitSignal ..) | (_, .lose) | (_, .drop _) =>
    isTrue trivial

/-- No message is in flight and the forwarders have drained. -/
def Quiet (s : TwoNodes) : Prop :=
  ∀ d, (s d).outbox = [] ∧ (s d).cursor = (s d).reg.deaths.length

instance (s : TwoNodes) : Decidable s.Quiet :=
  inferInstanceAs (Decidable (∀ _, _ ∧ _))

/-- Every live particle that asked to link to a particle of the other node
that is not alive has been sent an exit signal for it: `noproc` if the request
came too late, and else the reason of the death.  So has every live watcher. -/
def NeverSilent (s : TwoNodes) : Prop :=
  ∀ d,
    (∀ x y, .askedLink x y ∈ (s d).log → (s d).reg.Alive x →
      ¬ (s d.other).reg.Alive y →
      if .linkArrived x y false ∈ (s d.other).log then
        ∃ z, .exitByMessage x z .noProc ∈ (s d).log
      else
        ∃ death ∈ (s d.other).reg.deaths, death.pid = y ∧
          .exitByMessage x y death.reason ∈ (s d).log) ∧
    ∀ w y r, .askedMonitor w y r ∈ (s d).log → (s d).reg.Alive w →
      ¬ (s d.other).reg.Alive y →
      if .monitorArrived w y r false ∈ (s d.other).log then
        ∃ z, .downByMessage w z r .noProc ∈ (s d).log
      else
        ∃ death ∈ (s d.other).reg.deaths, death.pid = y ∧
          .downByMessage w y r death.reason ∈ (s d).log

/-- The invariant of a run in which every request is heard. -/
structure HeardInv (s : TwoNodes) : Prop where
  both : BothInv s
  answering : ∀ d, Answering (s d) (s d.other)

theorem heardInv_start {left right : EndpointId} (h : left ≠ right) :
    HeardInv (start left right) where
  both := bothInv_start h
  answering d := by
    cases d <;> exact ⟨fun _ _ h => absurd h List.not_mem_nil,
      fun _ _ _ h => absurd h List.not_mem_nil, fun _ _ => List.not_mem_nil,
      fun _ _ _ => List.not_mem_nil⟩

/-- Nothing that a party does alone takes a message away. -/
theorem outbox_act {p p' : Party} {a : PartyAction}
    (hact : p.act codec a = some p') : ∀ m ∈ p.outbox, m ∈ p'.outbox := by
  intro m hm
  have hsend : ∀ (q : Party) (msgs : List (EndpointId × PeerMessage)),
      m ∈ q.outbox → m ∈ (q.send codec msgs).outbox :=
    fun _ _ h => List.mem_append_left _ h
  cases a with
  | spawn component name =>
    cases hact
    unfold Party.spawn
    split <;> exact hm
  | perform op =>
    simp only [Party.act] at hact
    split at hact <;> cases hact
    exact hm
  | link x y =>
    simp only [Party.act] at hact
    split at hact <;> cases hact
    exact hsend _ _ hm
  | monitor w y =>
    simp only [Party.act] at hact
    split at hact <;> cases hact
    exact hsend _ _ hm
  | exitSignal x target reason =>
    simp only [Party.act] at hact
    split at hact <;> cases hact
    exact hsend _ _ hm
  | forward =>
    rcases Party.forward_cases hact with ⟨-, rfl⟩ | ⟨death, -, -, rfl⟩
    · exact hm
    · exact hsend _ _ hm
  | lose =>
    cases hact
    obtain ⟨exits, downs, heq, -, -⟩ := p.lose_eq
    rw [heq]
    exact hm
  | deliver i => cases hact
  | drop i => cases hact

theorem HeardInv.step {s t : TwoNodes} {a : Side × PartyAction}
    (h : HeardInv s) (hrel : s.Reliable a) (hheard : s.Heard codec a)
    (hstep : s.step codec a = some t) : HeardInv t := by
  have hfresh : s.FreshPids a := by
    obtain ⟨d, a⟩ := a
    cases a <;> trivial
  have hboth := h.both.step hfresh hstep
  obtain ⟨d, a⟩ := a
  have hother : d.other ≠ d := Side.other_ne d
  have hback := h.answering d.other
  rw [Side.other_other] at hback
  have hpeer : ∀ e, (s e.other).peer = (s e).reg.me := by
    intro e
    have := h.both.peer e.other
    rwa [Side.other_other] at this
  rcases step_cases hstep with ⟨p, hact, rfl⟩ | ⟨i, msg, rfl, hmsg, rfl⟩ |
    ⟨i, rfl, rfl⟩
  · -- The party acts alone.
    have hlose : a ≠ .lose := by
      rintro rfl
      exact hrel
    have hlag : a = .forward → ¬ (s d).Lags := by
      rintro rfl
      exact hheard.1
    have hsends : (s d).Unrefused codec a := by
      cases a with
      | forward => exact hheard.2
      | link x y => exact hheard
      | monitor w y => exact hheard
      | _ => trivial
    refine ⟨hboth, fun e => ?_⟩
    rcases Side.eq_or_eq_other d e with rfl | rfl
    · rw [set_self, set_ne _ _ hother]
      exact (h.answering e).step (h.both.party e) (h.both.party e.other)
        (hpeer e) (askerStep_act (h.both.party e) hact hlose hsends) (.refl _)
        (.of_subset (outbox_act hact) fun _ h => h)
    · rw [Side.other_other, set_self, set_ne _ _ hother]
      exact hback.step (h.both.party d.other) (h.both.party d) (h.both.peer d)
        (.refl _) (targetStep_act (h.both.party d) hact hlose hlag hsends)
        (.of_subset (fun _ h => h) (outbox_act hact))
  · -- A message arrives.
    have hexp := (h.both.party d.other).expected msg (List.mem_of_getElem? hmsg)
    have halive : (s d).findsAlive msg := hheard msg hmsg
    refine ⟨hboth, fun e => ?_⟩
    rcases Side.eq_or_eq_other d e with rfl | rfl
    · rw [set_self, set_ne _ _ hother, set_self]
      exact (h.answering e).step (h.both.party e) (h.both.party e.other)
        (hpeer e) (askerStep_receive (h.both.party e) hexp)
        (targetStep_takeFrom _ i) (handover_signal (h.both.party e) hmsg hexp)
    · rw [Side.other_other, set_self, set_ne _ _ hother, set_self]
      exact hback.step (h.both.party d.other) (h.both.party d) (h.both.peer d)
        (askerStep_takeFrom _ i) (targetStep_receive (h.both.party d) hexp halive)
        (handover_request (h.both.party d) hmsg hexp halive)
  · exact absurd hrel id

/-- Once all is quiet, whatever was asked for has been answered. -/
theorem HeardInv.neverSilent {s : TwoNodes} (h : HeardInv s) (hquiet : s.Quiet) :
    s.NeverSilent := by
  intro d
  have hout := (hquiet d).1
  obtain ⟨hout', hcursor⟩ := hquiet d.other
  have hunread : (s d.other).reg.deaths.drop (s d.other).cursor = [] := by
    rw [hcursor]
    exact List.drop_length
  refine ⟨fun x y hasked hx hy => ?_, fun w y r hasked hw hy => ?_⟩
  · rw [if_neg ((h.answering d).aliveLinks x y)]
    cases (h.answering d).links x y hasked with
    | requested hreq =>
      rw [hout] at hreq
      cases hreq
    | recorded hs _ => exact absurd (alive_iff.2 ⟨_, hs⟩) hy
    | unread hd =>
      rw [hunread] at hd
      cases hd
    | sent _ _ hsig =>
      rw [hout'] at hsig
      cases hsig
    | arrived hd hpid harr => exact ⟨_, hd, hpid, harr hx⟩
  · rw [if_neg ((h.answering d).aliveMonitors w y r)]
    cases (h.answering d).monitors w y r hasked with
    | requested hreq =>
      rw [hout] at hreq
      cases hreq
    | recorded hs _ => exact absurd (alive_iff.2 ⟨_, hs⟩) hy
    | unread hd =>
      rw [hunread] at hd
      cases hd
    | sent _ _ hsig =>
      rw [hout'] at hsig
      cases hsig
    | arrived hd hpid harr => exact ⟨_, hd, hpid, harr hw⟩

/-- In every run over a reliable link in which every request arrives at a live
target and no message is refused, nobody who asked is left without an
answer. -/
theorem never_silent (codec : WireCodec PeerMessage) (left right : EndpointId)
    (hne : left ≠ right) (s : TwoNodes)
    (h : Run (step codec) (fun s a => s.Reliable a ∧ s.Heard codec a)
      (start left right) s)
    (hquiet : s.Quiet) : s.NeverSilent := by
  have hinv : HeardInv s :=
    h.invariant (fun hinv hok hstep => hinv.step hok.1 hok.2 hstep)
      (heardInv_start hne)
  exact hinv.neverSilent hquiet

/-- One particle on each node. -/
def onePerNode : List (Side × PartyAction) :=
  [(.left, .perform (.atomic (.registerComponent "worker"))),
    (.left, .spawn "worker" none),
    (.right, .perform (.atomic (.registerComponent "worker"))),
    (.right, .spawn "worker" none)]

theorem never_silent_lateCrash :
    ∃ s, Run (step textWire) (fun s a => s.Reliable a ∧ s.Heard textWire a)
        (start ⟨1⟩ ⟨2⟩) s ∧
      s.Quiet ∧ ¬ (s .right).reg.Alive ⟨⟨2⟩, 1⟩ ∧
      .downByMessage ⟨⟨1⟩, 1⟩ ⟨⟨2⟩, 1⟩ 1 (.exception "crash") ∈ (s .left).log ∧
      s.NeverSilent := by
  obtain ⟨s, hrun, hquiet, hdead, hdown⟩ : ∃ s,
      Run (step textWire) (fun s a => s.Reliable a ∧ s.Heard textWire a)
        (start ⟨1⟩ ⟨2⟩) s ∧
      s.Quiet ∧ ¬ (s .right).reg.Alive ⟨⟨2⟩, 1⟩ ∧
      .downByMessage ⟨⟨1⟩, 1⟩ ⟨⟨2⟩, 1⟩ 1 (.exception "crash") ∈
        (s .left).log :=
    exec_run_of_any (α := Side × PartyAction) (onePerNode ++
      [(.left, .monitor ⟨⟨1⟩, 1⟩ ⟨⟨2⟩, 1⟩), (.right, .deliver 0),
        (.right, .perform (.exit ⟨⟨2⟩, 1⟩ (.exception "crash"))),
        (.right, .forward), (.left, .deliver 0)]) (by decide +kernel)
  exact ⟨s, hrun, hquiet, hdead, hdown,
    never_silent textWire ⟨1⟩ ⟨2⟩ (by decide) s hrun hquiet⟩

/-- A request by pid that arrives at a dead target is recorded, and nothing is
ever sent. -/
theorem dead_target_is_silent :
    ¬ ∀ (codec : WireCodec PeerMessage) (left right : EndpointId),
      left ≠ right → ∀ s : TwoNodes,
        Run (step codec) Reliable (start left right) s → s.Quiet →
          s.NeverSilent := by
  intro h
  obtain ⟨s, hrun, hquiet, halive, hdead, hlog, harrived⟩ : ∃ s,
      Run (step textWire) Reliable (start ⟨1⟩ ⟨2⟩) s ∧ s.Quiet ∧
      (s .left).reg.Alive ⟨⟨1⟩, 1⟩ ∧ ¬ (s .right).reg.Alive ⟨⟨2⟩, 1⟩ ∧
      (s .left).log = [.linked ⟨⟨1⟩, 1⟩ ⟨⟨2⟩, 1⟩,
        .askedLink ⟨⟨1⟩, 1⟩ ⟨⟨2⟩, 1⟩] ∧
      .linkArrived ⟨⟨1⟩, 1⟩ ⟨⟨2⟩, 1⟩ false ∈ (s .right).log :=
    exec_run_of_any (α := Side × PartyAction) (onePerNode ++
      [(.right, .perform (.exit ⟨⟨2⟩, 1⟩ (.exception "crash"))),
        (.right, .forward), (.left, .link ⟨⟨1⟩, 1⟩ ⟨⟨2⟩, 1⟩),
        (.right, .deliver 0)]) (by decide +kernel)
  have hanswer := (h textWire ⟨1⟩ ⟨2⟩ (by decide) s hrun hquiet .left).1 ⟨⟨1⟩, 1⟩
    ⟨⟨2⟩, 1⟩ (by rw [hlog]; simp) halive hdead
  rw [if_pos (show .linkArrived ⟨⟨1⟩, 1⟩ ⟨⟨2⟩, 1⟩ false ∈
    (s Side.left.other).log from harrived), hlog] at hanswer
  obtain ⟨z, hz⟩ := hanswer
  simp at hz

end TwoNodes

end Plasmoid
