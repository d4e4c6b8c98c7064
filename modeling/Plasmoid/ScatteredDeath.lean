import Plasmoid.ExitPropagation
import Plasmoid.PeerNode
import Plasmoid.Lib.Tasks

/-!
# A death on several nodes

A death cascades along links.  On one node `exit_particle` does it by recursion.
A link to another node is followed by three tasks: the forwarder reads the death
and sends an exit message, and the receiver's handler applies the exit signal,
which may begin a cascade there.

The tasks are jobs of a pool, done in any order.  `ScatterInv` compares them
with a registry `one` that hosts every particle by itself.  `D` is the list of
the dead so far:

* whoever is due to die has died or is threatened by a job, and
* what a survivor has received, together with what is left for it in the pool,
  is what the deaths of `D` send it in `one`.

The forwarder may miss a death if it falls behind, and a message that is too
large for a frame is refused.  The messages that were not sent for one reason
or the other are history, which no step reads.
-/

namespace Plasmoid

open Machine

namespace ParticleRegistry

/-- The first half of `apply_inherited_exit`: a message for a target that traps
exits, and otherwise the particles that are now to exit. -/
def inheritExit (reg : ParticleRegistry) (target source : Pid)
    (reason : ExitReason) : ParticleRegistry × List Pid :=
  match reg.state target with
  | none => (reg, [])
  | some st =>
    if st.trapExit then (reg.deliverExit target source reason, [])
    else if reason.isAbnormal then (reg, [target])
    else (reg, [])

theorem applyInheritedExit_eq (reg : ParticleRegistry) (target source : Pid)
    (reason : ExitReason) :
    reg.applyInheritedExit target source reason =
      (reg.inheritExit target source reason).2.foldl
        (fun reg x => reg.exitParticle x reason)
        (reg.inheritExit target source reason).1 := by
  unfold applyInheritedExit inheritExit
  cases reg.state target with
  | none => rfl
  | some st =>
    cases ht : st.trapExit with
    | true => simp [ht]
    | false => cases reason.isAbnormal <;> simp [ht]

end ParticleRegistry

/-- A pending call of `exit_particle`, a death that the forwarder has yet to
read, or a signal on its way. -/
inductive CascadeJob where
  | exit (node : EndpointId) (pid : Pid) (reason : ExitReason)
  | forward (death : ParticleDeath)
  | arrive (node : EndpointId) (msg : PeerMessage)

/-- The registries of the nodes, and the messages for the dead's relations
that were not sent. -/
structure ScatteredNodes where
  node : EndpointId → ParticleRegistry
  missed : List PeerMessage

namespace ScatteredNodes

/-- The state of a particle, on its own node. -/
def state (s : ScatteredNodes) (x : Pid) : Option ParticleState :=
  (s.node x.node).state x

def setNode (s : ScatteredNodes) (e : EndpointId) (reg : ParticleRegistry) :
    ScatteredNodes :=
  { s with node := Function.update s.node e reg }

@[simp] theorem missed_setNode (s : ScatteredNodes) (e : EndpointId)
    (reg : ParticleRegistry) : (s.setNode e reg).missed = s.missed := rfl

@[simp] theorem node_setNode (s : ScatteredNodes) (e : EndpointId)
    (reg : ParticleRegistry) : (s.setNode e reg).node e = reg := by
  simp [setNode]

theorem node_setNode_of_ne (s : ScatteredNodes) {e e' : EndpointId}
    (reg : ParticleRegistry) (h : e' ≠ e) :
    (s.setNode e reg).node e' = s.node e' := by
  simp [setNode, h]

theorem state_setNode (s : ScatteredNodes) (e : EndpointId)
    (reg : ParticleRegistry) (x : Pid) :
    (s.setNode e reg).state x =
      if x.node = e then reg.state x else s.state x := by
  unfold state
  by_cases h : x.node = e
  · rw [if_pos h, h, node_setNode]
  · rw [if_neg h, node_setNode_of_ne s reg h]

variable (codec : WireCodec PeerMessage)

/-- The messages of a death that are sent: all that are not refused, if the
forwarder is in time. -/
def sentOf (keepsUp : Bool) (death : ParticleDeath) :
    List (EndpointId × PeerMessage) :=
  (ParticleRegistry.forwardDeath death).filter fun m =>
    keepsUp && codec.accepts m.2

/-- The messages of a death that are not sent. -/
def missedOf (keepsUp : Bool) (death : ParticleDeath) : List PeerMessage :=
  ((ParticleRegistry.forwardDeath death).filter fun m =>
    !(keepsUp && codec.accepts m.2)).map Prod.snd

/-- Do one job.  `keepsUp` is whether the forwarder is in time for a death. -/
def handle (s : ScatteredNodes) (keepsUp : Bool) :
    CascadeJob → ScatteredNodes × List CascadeJob
  | .exit e pid reason =>
    match (s.node e).exitOne pid reason with
    | none => (s, [])
    | some (reg, kills) =>
      (s.setNode e reg,
        (reg.deaths.drop (s.node e).deaths.length).map .forward ++
          kills.map fun x => .exit e x reason)
  | .forward death =>
    ({ s with missed := s.missed ++ missedOf codec keepsUp death },
      (sentOf codec keepsUp death).map fun m => .arrive m.1 m.2)
  | .arrive e (.exit source target reason) =>
    let (reg, kills) := (s.node e).inheritExit target source reason
    (s.setNode e reg, kills.map fun x => .exit e x reason)
  | .arrive e msg => (s.setNode e ((s.node e).handlePeerMessage msg).1, [])

end ScatteredNodes

namespace ScatteredDeath

/-- One job, and whether the forwarder is in time if it is the forwarder's. -/
def step (codec : WireCodec PeerMessage) (s : Pool ScatteredNodes CascadeJob)
    (a : ℕ × Bool) : Option (Pool ScatteredNodes CascadeJob) :=
  s.work (ScatteredNodes.handle codec) a.1 a.2

/-- The nodes when `p` is about to exit. -/
def dying (node : EndpointId → ParticleRegistry) (p : Pid)
    (reason : ExitReason) : Pool ScatteredNodes CascadeJob :=
  ⟨⟨node, []⟩, [.exit p.node p reason]⟩

/-- `one` hosts all the particles of the nodes, each of which hosts its own. -/
structure Gathers (node : EndpointId → ParticleRegistry)
    (one : ParticleRegistry) : Prop where
  me : ∀ e, (node e).me = e
  own : ∀ e x, (node e).Alive x → x.node = e
  state : ∀ x, one.state x = (node x.node).state x

/-! ## The signals of a job -/

/-- What a peer message puts into the mailbox of `x`. -/
def messageSignals (x : Pid) (traps : Bool) : PeerMessage → List SystemMessage
  | .exit source target reason =>
    if target = x ∧ traps = true then [.exit source reason] else []
  | .down source target refId reason =>
    if target = x then [.down source refId reason] else []
  | _ => []

/-- What a death puts into the mailbox of `x` by way of the forwarder. -/
def deathSignals (x : Pid) (traps : Bool) (d : ParticleDeath) :
    List SystemMessage :=
  (ParticleRegistry.forwardDeath d).flatMap fun m => messageSignals x traps m.2

def jobSignals (x : Pid) (traps : Bool) : CascadeJob → List SystemMessage
  | .exit _ _ _ => []
  | .forward d => deathSignals x traps d
  | .arrive _ msg => messageSignals x traps msg

/-- What the pool still holds for `x`, with what was missed. -/
def signalsLeft (s : Pool ScatteredNodes CascadeJob) (x : Pid) (traps : Bool) :
    List SystemMessage :=
  s.jobs.flatMap (jobSignals x traps) ++
    s.env.missed.flatMap (messageSignals x traps)

/-- One particle out of several distinct ones. -/
theorem flatMap_ite_of_nodup {α β : Type} [DecidableEq α] (x : α) (b : β) :
    ∀ l : List α, l.Nodup →
      (l.flatMap fun y => if y = x then [b] else []) =
        if x ∈ l then [b] else [] := by
  intro l
  induction l with
  | nil => simp
  | cons y l ih =>
    intro hl
    obtain ⟨hy, hl⟩ := List.nodup_cons.1 hl
    rw [List.flatMap_cons, ih hl]
    by_cases h : y = x
    · subst h
      simp [hy]
    · simp [h, Ne.symm h]

theorem linkSignals_eq (pid x : Pid) (reason : ExitReason) (traps : Bool)
    {l : List Pid} (hl : l.Nodup) :
    ((l.map fun y => (y.node, PeerMessage.exit pid y reason)).flatMap
      fun m => messageSignals x traps m.2) =
      if x ∈ l ∧ traps = true then [.exit pid reason] else [] := by
  cases traps with
  | false => simp [messageSignals, List.flatMap_map]
  | true =>
    rw [List.flatMap_map]
    simpa [messageSignals] using
      flatMap_ite_of_nodup x (SystemMessage.exit pid reason) l hl

theorem watcherSignals_eq (pid x : Pid) (reason : ExitReason) (traps : Bool)
    (l : List (Pid × UInt64)) :
    ((l.map fun w => (w.1.node, PeerMessage.down pid w.1 w.2 reason)).flatMap
      fun m => messageSignals x traps m.2) =
      ((l.filter fun w => w.1 = x).map Prod.snd).map
        fun r => .down pid r reason := by
  induction l with
  | nil => rfl
  | cons w l ih =>
    rw [List.map_cons, List.flatMap_cons, ih]
    by_cases h : w.1 = x <;> simp [messageSignals, h]

/-- The forwarder serves the particles of the other nodes. -/
theorem deathSignals_deathOf (me : EndpointId) (pid : Pid) (st : ParticleState)
    (name : Option String) (reason : ExitReason) (x : Pid) (traps : Bool) :
    deathSignals x traps (ParticleRegistry.deathOf me pid st name reason) =
      if x.node = me then []
      else ParticleRegistry.signalsTo reason pid st x traps := by
  have hnodup : (st.links.toList.filter fun p => !p.isLocalTo me).Nodup :=
    st.links.nodup.filter _
  have hlinks : x ∈ (st.links.toList.filter fun p => !p.isLocalTo me) ↔
      x ∈ st.links ∧ x.node ≠ me := by
    simp [Pid.isLocalTo, KeySet.mem_toList]
  rw [deathSignals, ParticleRegistry.forwardDeath, List.flatMap_append, ParticleRegistry.deathOf,
    linkSignals_eq pid x reason traps hnodup, watcherSignals_eq,
    List.filter_filter]
  by_cases h : x.node = me
  · have hnone : (st.monitoredBy.filter fun w =>
        decide (w.1 = x) && !w.1.isLocalTo me) = [] := by
      rw [List.filter_eq_nil_iff]
      intro w _ hw
      simp only [Pid.isLocalTo, Bool.and_eq_true, decide_eq_true_eq,
        Bool.not_eq_true', decide_eq_false_iff_not] at hw
      exact hw.2 (hw.1 ▸ h)
    rw [if_neg fun hx => (hlinks.1 hx.1).2 h, hnone, if_pos h]
    rfl
  · have hall : (st.monitoredBy.filter fun w =>
        decide (w.1 = x) && !w.1.isLocalTo me) =
        st.monitoredBy.filter fun w => w.1 = x := by
      apply List.filter_congr
      intro w _
      by_cases hw : w.1 = x
      · simp [Pid.isLocalTo, hw, h]
      · simp [hw]
    rw [hall, if_neg h, ParticleRegistry.signalsTo, ParticleRegistry.firedRefs]
    simp [hlinks, h]

/-! ## What a step does -/

variable {codec : WireCodec PeerMessage}
variable {s : ScatteredNodes} {keepsUp : Bool} {e : EndpointId} {pid : Pid}
variable {reason : ExitReason} {st : ParticleState}

theorem handle_exit_of_dead (h : (s.node e).state pid = none) :
    s.handle codec keepsUp (.exit e pid reason) = (s, []) := by
  simp [ScatteredNodes.handle, ParticleRegistry.exitOne, h]

theorem handle_exit_of_alive (h : (s.node e).state pid = some st) :
    ∃ reg name kills,
      ParticleRegistry.ExitOneSpec (s.node e) pid st reason reg kills ∧
      s.handle codec keepsUp (.exit e pid reason) = (s.setNode e reg,
        .forward (ParticleRegistry.deathOf (s.node e).me pid st name reason) ::
          kills.map fun x => .exit e x reason) := by
  obtain ⟨reg, kills, hexit⟩ : ∃ reg kills,
      (s.node e).exitOne pid reason = some (reg, kills) := by
    rw [ParticleRegistry.exitOne, h]
    exact ⟨_, _, rfl⟩
  obtain ⟨st', hst', hspec⟩ := ParticleRegistry.exitOne_spec hexit
  obtain rfl : st = st' := Option.some.inj (h.symm.trans hst')
  refine ⟨reg, ((s.node e).namesHeld pid).head?, kills, hspec, ?_⟩
  rw [ScatteredNodes.handle, hexit]
  show (_, (reg.deaths.drop _).map _ ++ _) = _
  rw [hspec.deaths, List.drop_left]
  rfl

/-! ## The invariant -/

variable {one : ParticleRegistry} {p x : Pid}

/-- Every set that contains `p` and that no cascade leaves contains `x`. -/
def Doomed (one : ParticleRegistry) (p : Pid) (reason : ExitReason) (x : Pid) :
    Prop :=
  ∀ S : Set Pid, p ∈ S → one.CascadeClosed reason S → x ∈ S

theorem Doomed.cascades {q : Pid} (h : Doomed one p reason q)
    (hqx : one.Cascades reason q x) : Doomed one p reason x := by
  intro S hp hS
  exact hS q x (h S hp hS) hqx

/-- What a job is about. -/
def JobSound (one : ParticleRegistry) (p : Pid) (reason : ExitReason) :
    CascadeJob → Prop
  | .exit e x r => r = reason ∧ x.node = e ∧ Doomed one p reason x
  | .forward d => d.reason = reason ∧ Doomed one p reason d.pid ∧
      ∀ x ∈ d.remoteLinks, x ∈ one.linksOf d.pid
  | .arrive e (.exit q x r) => r = reason ∧ x.node = e ∧
      Doomed one p reason q ∧ x ∈ one.linksOf q
  | .arrive e (.down _ w _ _) => w.node = e
  | .arrive _ _ => False

/-- The message may lead to the death of `x`. -/
def MayKill (x : Pid) : PeerMessage → Prop
  | .exit _ y _ => y = x
  | _ => False

/-- The job may lead to the death of `x`. -/
def Threatens (x : Pid) : CascadeJob → Prop
  | .exit _ y _ => y = x
  | .forward d => x ∈ d.remoteLinks
  | .arrive _ msg => MayKill x msg

/-- A job threatens `x`, or a message that was not sent would. -/
def Threatened (s : Pool ScatteredNodes CascadeJob) (x : Pid) : Prop :=
  (∃ j ∈ s.jobs, Threatens x j) ∨ ∃ m ∈ s.env.missed, MayKill x m

/-- What is left of a survivor `x` that had state `st`. -/
structure Survivor (one : ParticleRegistry) (reason : ExitReason)
    (s : Pool ScatteredNodes CascadeJob) (D : List Pid) (x : Pid)
    (st st' : ParticleState) : Prop where
  /-- It loses its links to the dead of its own node that linked to it. -/
  links : ∀ q, q ∈ st'.links ↔
    q ∈ st.links ∧ ¬ (q ∈ D ∧ q.node = x.node ∧ x ∈ one.linksOf q)
  monitoredBy : st'.monitoredBy = st.monitoredBy
  trapExit : st'.trapExit = st.trapExit
  /-- What it has received and what is left for it is what the dead send. -/
  received : ∃ l, st'.mailbox = st.mailbox.pushSystems l ∧
    (l ++ signalsLeft s x st.trapExit).Perm
      (one.signalsOf reason D x st.trapExit)

/-- After the deaths of `D`. -/
structure ScatterInv (one : ParticleRegistry) (p : Pid) (reason : ExitReason)
    (s : Pool ScatteredNodes CascadeJob) (D : List Pid) : Prop where
  nodup : D.Nodup
  wasAlive : ∀ x ∈ D, one.Alive x
  me : ∀ e, (s.env.node e).me = e
  own : ∀ e x, (s.env.node e).Alive x → x.node = e
  gone : ∀ x, x ∈ D ∨ one.state x = none → s.env.state x = none
  survivors : ∀ x st, x ∉ D → one.state x = some st →
    ∃ st', s.env.state x = some st' ∧ Survivor one reason s D x st st'
  start : p ∈ D ∨ .exit p.node p reason ∈ s.jobs
  closed : ∀ q ∈ D, ∀ x, one.Cascades reason q x → x ∈ D ∨ Threatened s x
  doomed : ∀ x ∈ D, Doomed one p reason x
  sound : ∀ j ∈ s.jobs, JobSound one p reason j

theorem scatterInv_dying {node : EndpointId → ParticleRegistry}
    (hone : Gathers node one) : ScatterInv one p reason (dying node p reason) [] where
  nodup := List.nodup_nil
  wasAlive := by simp
  me := hone.me
  own := hone.own
  gone := by
    intro x hx
    have hnone : one.state x = none := by simpa using hx
    exact (hone.state x).symm.trans hnone
  survivors := by
    intro x st _ hst
    refine ⟨st, (hone.state x).symm.trans hst, by simp, rfl, rfl, [], rfl, ?_⟩
    simp [signalsLeft, dying, jobSignals, ParticleRegistry.signalsOf]
  start := by simp [dying]
  closed := by simp
  doomed := by simp
  sound := by
    intro j hj
    obtain rfl : j = .exit p.node p reason := by simpa [dying] using hj
    exact ⟨rfl, rfl, fun _ hp _ => hp⟩

variable {t : Pool ScatteredNodes CascadeJob} {i : ℕ} {j : CascadeJob}
variable {D : List Pid}

/-- What is left after a job is what was left before, without the job's share
and with the shares of the new jobs and of the messages that are missed. -/
theorem signalsLeft_work (hj : t.jobs[i]? = some j) (x : Pid) (traps : Bool)
    (env : ScatteredNodes) (new : List CascadeJob) {late : List PeerMessage}
    (hmissed : env.missed = t.env.missed ++ late) :
    (jobSignals x traps j ++
      signalsLeft ⟨env, t.jobs.eraseIdx i ++ new⟩ x traps).Perm
      (signalsLeft t x traps ++ (new.flatMap (jobSignals x traps) ++
        late.flatMap (messageSignals x traps))) := by
  obtain ⟨hi, hget⟩ := List.getElem?_eq_some_iff.1 hj
  have hjobs : (jobSignals x traps j ++
      (t.jobs.eraseIdx i).flatMap (jobSignals x traps)).Perm
      (t.jobs.flatMap (jobSignals x traps)) := by
    have htake := (List.getElem_cons_eraseIdx_perm hi).flatMap_right
      (jobSignals x traps)
    rwa [hget, List.flatMap_cons] at htake
  rw [List.perm_iff_count] at hjobs ⊢
  intro m
  have hm := hjobs m
  simp only [signalsLeft, hmissed, List.flatMap_append, List.count_append] at hm ⊢
  omega

/-- A job that makes nobody exit.  `got` is what it puts into mailboxes. -/
theorem ScatterInv.keep (h : ScatterInv one p reason t D)
    (hj : t.jobs[i]? = some j) {env : ScatteredNodes} (new : List CascadeJob)
    (late : List PeerMessage) (got : Pid → List SystemMessage)
    (hmissed : env.missed = t.env.missed ++ late)
    (hme : ∀ e, (env.node e).me = (t.env.node e).me)
    (hown : ∀ e x, (env.node e).Alive x → (t.env.node e).Alive x)
    (hstate : ∀ x, env.state x = (t.env.state x).map fun st =>
      { st with mailbox := st.mailbox.pushSystems (got x) })
    (hgot : ∀ x st, t.env.state x = some st →
      (got x ++ (new.flatMap (jobSignals x st.trapExit) ++
        late.flatMap (messageSignals x st.trapExit))).Perm
        (jobSignals x st.trapExit j))
    (hstart : j = .exit p.node p reason → p ∈ D)
    (hthreat : ∀ x, reason.isAbnormal = true → (∃ st,
        t.env.state x = some st ∧ st.trapExit = false) → Threatens x j →
      (∃ k ∈ new, Threatens x k) ∨ ∃ m ∈ late, MayKill x m)
    (hsound : ∀ k ∈ new, JobSound one p reason k) :
    ScatterInv one p reason ⟨env, t.jobs.eraseIdx i ++ new⟩ D where
  nodup := h.nodup
  wasAlive := h.wasAlive
  me e := (hme e).trans (h.me e)
  own e x hx := h.own e x (hown e x hx)
  gone x hx := by rw [hstate, h.gone x hx]; rfl
  survivors := by
    intro x st hx hst
    obtain ⟨st', hst', hsurv⟩ := h.survivors x st hx hst
    refine ⟨{ st' with mailbox := st'.mailbox.pushSystems (got x) }, ?_,
      hsurv.links, hsurv.monitoredBy, hsurv.trapExit, ?_⟩
    · rw [hstate, hst']
      rfl
    · obtain ⟨l, hl, hperm⟩ := hsurv.received
      refine ⟨l ++ got x, ?_, ?_⟩
      · rw [Mailbox.pushSystems_append, ← hl]
      · have hleft := signalsLeft_work hj x st.trapExit env new hmissed
        have hx := hgot x st' hst'
        rw [hsurv.trapExit] at hx
        rw [List.perm_iff_count] at hperm hleft hx ⊢
        intro m
        have h₁ := hperm m
        have h₂ := hleft m
        have h₃ := hx m
        simp only [List.count_append] at h₁ h₂ h₃ ⊢
        omega
  start := by
    rcases h.start with hp | hp
    · exact Or.inl hp
    · rcases Pool.mem_kept hj hp new with hp | rfl
      · exact Or.inr hp
      · exact Or.inl (hstart rfl)
  closed := by
    intro q hq x hqx
    by_cases hxD : x ∈ D
    · exact Or.inl hxD
    · right
      rcases (h.closed q hq x hqx).resolve_left hxD with ⟨k, hk, hkx⟩ | ⟨d, hd, hdx⟩
      · rcases Pool.mem_kept hj hk new with hk | rfl
        · exact Or.inl ⟨k, hk, hkx⟩
        · obtain ⟨habn, -, s₀, hs₀, htrap⟩ := hqx
          obtain ⟨st', hst', hsurv⟩ := h.survivors x s₀ hxD hs₀
          rcases hthreat x habn ⟨st', hst', hsurv.trapExit.trans htrap⟩ hkx with
            ⟨k, hk, hkx⟩ | ⟨d, hd, hdx⟩
          · exact Or.inl ⟨k, List.mem_append_right _ hk, hkx⟩
          · refine Or.inr ⟨d, ?_, hdx⟩
            rw [hmissed]
            exact List.mem_append_right _ hd
      · refine Or.inr ⟨d, ?_, hdx⟩
        rw [hmissed]
        exact List.mem_append_left _ hd
  doomed := h.doomed
  sound := by
    intro k hk
    rcases Pool.mem_before_or_new hk with hk | hk
    · exact h.sound k hk
    · exact hsound k hk

/-- A job that changes no registry. -/
theorem ScatterInv.keep_nodes (h : ScatterInv one p reason t D)
    (hj : t.jobs[i]? = some j) (new : List CascadeJob)
    (late : List PeerMessage)
    (hgot : ∀ x st, t.env.state x = some st →
      (new.flatMap (jobSignals x st.trapExit) ++
        late.flatMap (messageSignals x st.trapExit)).Perm
        (jobSignals x st.trapExit j))
    (hstart : j = .exit p.node p reason → p ∈ D)
    (hthreat : ∀ x, reason.isAbnormal = true → (∃ st,
        t.env.state x = some st ∧ st.trapExit = false) → Threatens x j →
      (∃ k ∈ new, Threatens x k) ∨ ∃ m ∈ late, MayKill x m)
    (hsound : ∀ k ∈ new, JobSound one p reason k) :
    ScatterInv one p reason
      ⟨{ t.env with missed := t.env.missed ++ late },
        t.jobs.eraseIdx i ++ new⟩ D := by
  refine h.keep hj new late (fun _ => []) rfl (fun _ => rfl) (fun _ _ hx => hx) ?_ hgot
    hstart hthreat hsound
  intro x
  show t.env.state x = (t.env.state x).map fun st => st
  rw [Option.map_id']

/-- A particle that was alive and is gone is one of the dead. -/
theorem ScatterInv.mem_of_gone (h : ScatterInv one p reason t D)
    (halive : one.Alive x) (hx : t.env.state x = none) : x ∈ D := by
  by_contra hD
  obtain ⟨st, hst⟩ := ParticleRegistry.alive_iff.1 halive
  obtain ⟨st', hst', -⟩ := h.survivors x st hD hst
  rw [hx] at hst'
  cases hst'

theorem ScatterInv.exit_dead (h : ScatterInv one p reason t D)
    (hp : one.Alive p) (hj : t.jobs[i]? = some (.exit e pid reason))
    (hdead : t.env.state pid = none) :
    ScatterInv one p reason ⟨t.env, t.jobs.eraseIdx i ++ []⟩ D := by
  have hkeep := h.keep_nodes hj [] [] (by simp [jobSignals]) ?_ ?_ (by simp)
  · simpa using hkeep
  · intro hjob
    obtain ⟨-, rfl⟩ : p.node = e ∧ pid = p := by simpa [eq_comm] using hjob
    exact h.mem_of_gone hp hdead
  · rintro x - ⟨st, hst, -⟩ rfl
    rw [hdead] at hst
    cases hst

/-- The messages of a death are sent or not. -/
theorem sentOf_append_missedOf (codec : WireCodec PeerMessage)
    (keepsUp : Bool) (d : ParticleDeath) :
    ((ScatteredNodes.sentOf codec keepsUp d).map Prod.snd ++
      ScatteredNodes.missedOf codec keepsUp d).Perm
        ((ParticleRegistry.forwardDeath d).map Prod.snd) := by
  rw [ScatteredNodes.sentOf, ScatteredNodes.missedOf, ← List.map_append]
  exact (List.filter_append_perm _ _).map Prod.snd

theorem deathSignals_perm (keepsUp : Bool) (d : ParticleDeath) (x : Pid)
    (traps : Bool) :
    ((ScatteredNodes.sentOf codec keepsUp d).flatMap
        (fun m => messageSignals x traps m.2) ++
      (ScatteredNodes.missedOf codec keepsUp d).flatMap
        (messageSignals x traps)).Perm (deathSignals x traps d) := by
  have hperm := (sentOf_append_missedOf codec keepsUp d).flatMap_right
    (messageSignals x traps)
  rwa [List.flatMap_append, List.flatMap_map, List.flatMap_map] at hperm

theorem ScatterInv.forwarded (h : ScatterInv one p reason t D)
    {d : ParticleDeath} (hj : t.jobs[i]? = some (.forward d)) (keepsUp : Bool) :
    ScatterInv one p reason
      ⟨{ t.env with
          missed := t.env.missed ++ ScatteredNodes.missedOf codec keepsUp d },
        t.jobs.eraseIdx i ++ (ScatteredNodes.sentOf codec keepsUp d).map
          fun m => .arrive m.1 m.2⟩ D := by
  obtain ⟨hreason, hdoomed, hlinks⟩ := h.sound _ (List.mem_of_getElem? hj)
  refine h.keep_nodes hj _ _ ?_ (by simp) ?_ ?_
  · intro x st _
    rw [List.flatMap_map]
    exact deathSignals_perm keepsUp d x st.trapExit
  · intro x _ _ hx
    -- The exit message for `x` is sent or missed.
    have hmsg : PeerMessage.exit d.pid x d.reason ∈
        (ScatteredNodes.sentOf codec keepsUp d).map Prod.snd ++
          ScatteredNodes.missedOf codec keepsUp d :=
      (sentOf_append_missedOf codec keepsUp d).mem_iff.2 (List.mem_map.2
        ⟨(x.node, .exit d.pid x d.reason),
          List.mem_append_left _ (List.mem_map_of_mem hx), rfl⟩)
    rcases List.mem_append.1 hmsg with hmsg | hmsg
    · obtain ⟨m, hm, heq⟩ := List.mem_map.1 hmsg
      refine Or.inl ⟨.arrive m.1 m.2, List.mem_map_of_mem hm, ?_⟩
      rw [heq]
      rfl
    · exact Or.inr ⟨_, hmsg, rfl⟩
  · intro k hk
    obtain ⟨m, hm, rfl⟩ := List.mem_map.1 hk
    rcases List.mem_append.1 (List.mem_of_mem_filter hm) with hm | hm
    · obtain ⟨x, hx, rfl⟩ := List.mem_map.1 hm
      exact ⟨hreason, rfl, hdoomed, hlinks x hx⟩
    · obtain ⟨w, -, rfl⟩ := List.mem_map.1 hm
      exact rfl

/-- A signal that arrives in a mailbox. -/
theorem ScatterInv.delivered (h : ScatterInv one p reason t D)
    {msg : PeerMessage} (hj : t.jobs[i]? = some (.arrive e msg))
    (m : SystemMessage) (hnode : x.node = e)
    (hsignals : ∀ y st, t.env.state y = some st →
      jobSignals y st.trapExit (.arrive e msg) = if y = x then [m] else [])
    (hthreat : ∀ y, (∃ st, t.env.state y = some st ∧ st.trapExit = false) →
      ¬ Threatens y (.arrive e msg)) :
    ScatterInv one p reason
      ⟨t.env.setNode e ((t.env.node e).sendSystem x m),
        t.jobs.eraseIdx i ++ []⟩ D := by
  subst hnode
  refine h.keep hj [] [] (fun y => if y = x then [m] else []) (by simp)
    ?_ ?_ ?_ ?_ (by simp) ?_ (by simp)
  · intro e'
    by_cases he : e' = x.node
    · subst he
      simp [ParticleRegistry.sendSystem]
    · rw [ScatteredNodes.node_setNode_of_ne _ _ he]
  · intro e' y hy
    by_cases he : e' = x.node
    · subst he
      simpa [ParticleRegistry.alive_iff, ParticleRegistry.state_sendSystem]
        using hy
    · rwa [ScatteredNodes.node_setNode_of_ne _ _ he] at hy
  · intro y
    rw [ScatteredNodes.state_setNode, ParticleRegistry.state_sendSystem]
    by_cases hy : y.node = x.node
    · rw [if_pos hy, ScatteredNodes.state, hy]
      congr 1
      funext st
      by_cases hyx : y = x <;> simp [hyx]
    · have hne : y ≠ x := fun hyx => hy (hyx ▸ rfl)
      rw [if_neg hy]
      simp [hne]
  · intro y st hst
    rw [hsignals y st hst]
    simp
  · intro y _ hy hth
    exact absurd hth (hthreat y hy)

/-- What the death of `pid` does to a survivor `x`, of this node or another. -/
theorem Survivor.settle {env : ScatteredNodes} {new : List CascadeJob}
    {st₀ st st' : ParticleState} (name : Option String)
    (hj : t.jobs[i]? = some (.exit pid.node pid reason))
    (hpid : one.state pid = some st₀)
    (hlinks : x ∈ st.links ↔ x ∈ st₀.links)
    (hwatch : st.monitoredBy = st₀.monitoredBy)
    (hmissed : env.missed = t.env.missed)
    (hnew : new.flatMap (jobSignals x st'.trapExit) =
      deathSignals x st'.trapExit
        (ParticleRegistry.deathOf pid.node pid st name reason))
    {now : ParticleState} (h : Survivor one reason t D x now st') :
    Survivor one reason ⟨env, t.jobs.eraseIdx i ++ new⟩ (D ++ [pid]) x now
      (if x.node = pid.node then
        ParticleRegistry.settleOne reason pid st x st' else st') := by
  have hof : x ∈ one.linksOf pid ↔ x ∈ st.links := by
    rw [hlinks]
    simp [ParticleRegistry.mem_linksOf, hpid]
  have hsends : one.signalsOf reason (D ++ [pid]) x now.trapExit =
      one.signalsOf reason D x now.trapExit ++
        ParticleRegistry.signalsTo reason pid st x now.trapExit := by
    rw [ParticleRegistry.signalsOf, List.flatMap_append]
    simp [ParticleRegistry.signalsOf, hpid, ParticleRegistry.signalsTo,
      ParticleRegistry.firedRefs, hlinks, hwatch]
  obtain ⟨l, hl, hperm⟩ := h.received
  have hlate : env.missed = t.env.missed ++ [] := by simp [hmissed]
  have hleft := signalsLeft_work hj x now.trapExit env new hlate
  rw [deathSignals_deathOf] at hnew
  rw [← h.trapExit] at hleft hperm hsends
  by_cases hnode : x.node = pid.node
  · rw [if_pos hnode] at hnew ⊢
    refine ⟨?_, h.monitoredBy, h.trapExit, ?_⟩
    · intro q
      rw [ParticleRegistry.mem_settleOne_links, h.links, List.mem_append,
        List.mem_singleton]
      by_cases hq : q = pid
      · subst hq
        rw [hof]
        by_cases hx : x ∈ st.links
        · simp [hx, hnode]
        · simp [hx]
      · simp [hq]
    · refine ⟨l ++ ParticleRegistry.signalsTo reason pid st x st'.trapExit, ?_, ?_⟩
      · rw [Mailbox.pushSystems_append, ← hl]
        rfl
      · rw [← h.trapExit, hsends]
        rw [List.perm_iff_count] at hperm hleft ⊢
        intro m
        have h₁ := hperm m
        have h₂ := hleft m
        simp only [jobSignals, hnew, List.flatMap_nil, List.count_append,
          List.count_nil] at h₁ h₂ ⊢
        omega
  · rw [if_neg hnode] at hnew ⊢
    refine ⟨?_, h.monitoredBy, h.trapExit, l, hl, ?_⟩
    · intro q
      rw [h.links, List.mem_append, List.mem_singleton]
      by_cases hq : q = pid
      · subst hq
        simp [Ne.symm hnode]
      · simp [hq]
    · rw [← h.trapExit, hsends]
      rw [List.perm_iff_count] at hperm hleft ⊢
      intro m
      have h₁ := hperm m
      have h₂ := hleft m
      simp only [jobSignals, hnew, List.flatMap_nil, List.count_append,
        List.count_nil] at h₁ h₂ ⊢
      omega

/-- A particle that is alive has survived `D`. -/
theorem ScatterInv.survivor (h : ScatterInv one p reason t D)
    (hx : t.env.state x = some st) :
    x ∉ D ∧ ∃ st₀, one.state x = some st₀ ∧ Survivor one reason t D x st₀ st := by
  have hD : x ∉ D := by
    intro hD
    rw [h.gone x (Or.inl hD)] at hx
    cases hx
  refine ⟨hD, ?_⟩
  cases hone : one.state x with
  | none =>
    rw [h.gone x (Or.inr hone)] at hx
    cases hx
  | some st₀ =>
    obtain ⟨st', hst', hsurv⟩ := h.survivors x st₀ hD hone
    rw [hx, Option.some.injEq] at hst'
    exact ⟨st₀, rfl, hst' ▸ hsurv⟩

/-- Where a particle dies, its node goes on with the linked particles that the
death kills there. -/
theorem ScatterInv.mem_kills (h : ScatterInv one p reason t D)
    {reg : ParticleRegistry} {kills : List Pid} (hst : t.env.state pid = some st)
    (hspec : ParticleRegistry.ExitOneSpec (t.env.node pid.node) pid st reason
      reg kills) :
    x ∈ kills ↔ x ∉ D ∧ x ≠ pid ∧ x.node = pid.node ∧
      one.Cascades reason pid x := by
  obtain ⟨-, st₀, hst₀, hsurv⟩ := h.survivor hst
  have hlinks : ∀ y, y ∉ D → (y ∈ st.links ↔ y ∈ one.linksOf pid) := by
    intro y hy
    rw [hsurv.links]
    simp [ParticleRegistry.mem_linksOf, hst₀, hy]
  rw [hspec.kills]
  constructor
  · rintro ⟨habn, hx, hne, s', hs', htrap⟩
    have hnode : x.node = pid.node :=
      h.own _ x (ParticleRegistry.alive_iff.2 ⟨s', hs'⟩)
    rw [← hnode] at hs'
    obtain ⟨hD, s₀, hs₀, hsurv'⟩ := h.survivor hs'
    exact ⟨hD, hne, hnode, habn, (hlinks x hD).1 hx, s₀, hs₀,
      hsurv'.trapExit.symm.trans htrap⟩
  · rintro ⟨hD, hne, hnode, habn, hx, s₀, hs₀, htrap⟩
    obtain ⟨s', hs', hsurv'⟩ := h.survivors x s₀ hD hs₀
    refine ⟨habn, (hlinks x hD).2 hx, hne, s', ?_, hsurv'.trapExit.trans htrap⟩
    rw [← hnode]
    exact hs'

section ExitAlive

variable {reg : ParticleRegistry} {kills : List Pid}

theorem state_setNode_exit {env : ScatteredNodes}
    (hspec : ParticleRegistry.ExitOneSpec (env.node pid.node) pid st reason
      reg kills) (x : Pid) :
    (env.setNode pid.node reg).state x =
      if x = pid then none else (env.state x).map fun s =>
        if x.node = pid.node then
          ParticleRegistry.settleOne reason pid st x s else s := by
  rw [ScatteredNodes.state_setNode, hspec.states]
  by_cases hx : x = pid
  · simp [hx]
  · by_cases hnode : x.node = pid.node
    · simp [hx, hnode, ScatteredNodes.state]
    · simp [hx, hnode]

theorem me_setNode_exit {env : ScatteredNodes}
    (hspec : ParticleRegistry.ExitOneSpec (env.node pid.node) pid st reason
      reg kills) (e : EndpointId) :
    ((env.setNode pid.node reg).node e).me = (env.node e).me := by
  by_cases he : e = pid.node
  · subst he
    simp [ParticleRegistry.me, hspec.pidGen]
  · rw [ScatteredNodes.node_setNode_of_ne _ _ he]

/-- Nobody is born by an exit. -/
theorem alive_of_setNode_exit {env : ScatteredNodes}
    (hspec : ParticleRegistry.ExitOneSpec (env.node pid.node) pid st reason
      reg kills) (hx : ((env.setNode pid.node reg).node e).Alive x) :
    (env.node e).Alive x := by
  by_cases he : e = pid.node
  · subst he
    rw [ScatteredNodes.node_setNode, ParticleRegistry.alive_iff] at hx
    obtain ⟨s', hs'⟩ := hx
    rw [hspec.states] at hs'
    split at hs'
    · cases hs'
    · obtain ⟨s₁, hs₁, -⟩ := Option.map_eq_some_iff.1 hs'
      exact ParticleRegistry.alive_iff.2 ⟨s₁, hs₁⟩
  · rwa [ScatteredNodes.node_setNode_of_ne _ _ he] at hx

/-- The jobs that the exit of `pid` leaves: its death is to be forwarded, and
the linked particles of its node are to exit. -/
def exitJobs (reason : ExitReason) (pid : Pid) (st : ParticleState)
    (name : Option String) (kills : List Pid) : List CascadeJob :=
  .forward (ParticleRegistry.deathOf pid.node pid st name reason) ::
    kills.map fun x => .exit pid.node x reason

theorem exitJobs_signals (name : Option String) (traps : Bool) :
    (exitJobs reason pid st name kills).flatMap (jobSignals x traps) =
      deathSignals x traps
        (ParticleRegistry.deathOf pid.node pid st name reason) := by
  have hkills : (kills.map fun y =>
      CascadeJob.exit pid.node y reason).flatMap (jobSignals x traps) = [] := by
    simp [List.flatMap_eq_nil_iff, jobSignals]
  rw [exitJobs, List.flatMap_cons, hkills, List.append_nil]
  rfl

/-- The survivors of one more exit. -/
theorem ScatterInv.exit_survivors (h : ScatterInv one p reason t D)
    (hj : t.jobs[i]? = some (.exit pid.node pid reason)) (name : Option String)
    (hst : t.env.state pid = some st)
    (hspec : ParticleRegistry.ExitOneSpec (t.env.node pid.node) pid st reason
      reg kills) {now : ParticleState} (hx : x ∉ D ++ [pid])
    (hnow : one.state x = some now) :
    ∃ st', (t.env.setNode pid.node reg).state x = some st' ∧
      Survivor one reason ⟨t.env.setNode pid.node reg,
        t.jobs.eraseIdx i ++ exitJobs reason pid st name kills⟩ (D ++ [pid]) x
        now st' := by
  obtain ⟨hD, st₀, hst₀, hsurv⟩ := h.survivor hst
  rw [List.mem_append, List.mem_singleton, not_or] at hx
  obtain ⟨hxD, hxp⟩ := hx
  obtain ⟨st', hst', hsurv'⟩ := h.survivors x now hxD hnow
  refine ⟨if x.node = pid.node then
      ParticleRegistry.settleOne reason pid st x st' else st', ?_, ?_⟩
  · rw [state_setNode_exit hspec, if_neg hxp, hst']
    rfl
  · have hlinks : x ∈ st.links ↔ x ∈ st₀.links := by
      simp [hsurv.links, hxD]
    exact hsurv'.settle name hj hst₀ hlinks hsurv.monitoredBy
      (ScatteredNodes.missed_setNode _ _ _) (exitJobs_signals name _)

/-- Whoever a death of `D` or that of `pid` kills is dead, or is threatened. -/
theorem ScatterInv.exit_closed (h : ScatterInv one p reason t D)
    (hj : t.jobs[i]? = some (.exit pid.node pid reason)) (name : Option String)
    (hst : t.env.state pid = some st)
    (hspec : ParticleRegistry.ExitOneSpec (t.env.node pid.node) pid st reason
      reg kills) {q : Pid} (hq : q ∈ D ++ [pid])
    (hqx : one.Cascades reason q x) :
    x ∈ D ++ [pid] ∨ Threatened ⟨t.env.setNode pid.node reg,
      t.jobs.eraseIdx i ++ exitJobs reason pid st name kills⟩ x := by
  obtain ⟨-, st₀, hst₀, hsurv⟩ := h.survivor hst
  rw [or_iff_not_imp_left, List.mem_append, List.mem_singleton, not_or]
  rintro ⟨hxD, hxp⟩
  rcases List.mem_append.1 hq with hq | hq
  · rcases (h.closed q hq x hqx).resolve_left hxD with ⟨k, hk, hkx⟩ | hmissed
    · rcases Pool.mem_kept hj hk _ with hk | rfl
      · exact Or.inl ⟨k, hk, hkx⟩
      · exact absurd (Eq.symm hkx) hxp
    · exact Or.inr hmissed
  · -- A linked particle of this node is killed, and one of another node is
    -- the forwarder's.
    obtain rfl := List.mem_singleton.1 hq
    left
    by_cases hnode : x.node = q.node
    · have hkill : x ∈ kills :=
        (h.mem_kills hst hspec).2 ⟨hxD, hxp, hnode, hqx⟩
      exact ⟨.exit q.node x reason, List.mem_append_right _
        (List.mem_cons_of_mem _ (List.mem_map_of_mem hkill)), rfl⟩
    · refine ⟨.forward _, List.mem_append_right _ List.mem_cons_self, ?_⟩
      obtain ⟨st₁, hst₁, hx⟩ := ParticleRegistry.mem_linksOf.1 hqx.2.1
      rw [hst₀, Option.some.injEq] at hst₁
      subst hst₁
      have hlink : x ∈ st.links :=
        (hsurv.links x).2 ⟨hx, fun hdead => hxD hdead.1⟩
      show x ∈ st.links.toList.filter _
      simp [KeySet.mem_toList, hlink, hnode]

/-- The jobs of an exit are about the particles that are due to die. -/
theorem ScatterInv.exit_sound (h : ScatterInv one p reason t D)
    (hj : t.jobs[i]? = some (.exit pid.node pid reason)) (name : Option String)
    (hst : t.env.state pid = some st)
    (hspec : ParticleRegistry.ExitOneSpec (t.env.node pid.node) pid st reason
      reg kills) :
    ∀ k ∈ exitJobs reason pid st name kills, JobSound one p reason k := by
  obtain ⟨-, st₀, hst₀, hsurv⟩ := h.survivor hst
  have hdoomed : Doomed one p reason pid :=
    (h.sound _ (List.mem_of_getElem? hj)).2.2
  intro k hk
  rcases List.mem_cons.1 hk with rfl | hk
  · refine ⟨rfl, hdoomed, ?_⟩
    intro x hx
    have hx' : x ∈ st.links.toList ∧ _ := List.mem_filter.1 hx
    exact ParticleRegistry.mem_linksOf.2
      ⟨st₀, hst₀, ((hsurv.links x).1 (KeySet.mem_toList.1 hx'.1)).1⟩
  · obtain ⟨x, hx, rfl⟩ := List.mem_map.1 hk
    obtain ⟨-, -, hnode, hcasc⟩ := (h.mem_kills hst hspec).1 hx
    exact ⟨rfl, hnode, hdoomed.cascades hcasc⟩

theorem ScatterInv.exit_alive (h : ScatterInv one p reason t D)
    (hj : t.jobs[i]? = some (.exit pid.node pid reason)) (name : Option String)
    (hst : t.env.state pid = some st)
    (hspec : ParticleRegistry.ExitOneSpec (t.env.node pid.node) pid st reason
      reg kills) :
    ScatterInv one p reason ⟨t.env.setNode pid.node reg,
      t.jobs.eraseIdx i ++ exitJobs reason pid st name kills⟩ (D ++ [pid]) := by
  obtain ⟨hD, st₀, hst₀, -⟩ := h.survivor hst
  have hmem : ∀ x, x ∈ D ++ [pid] ↔ x ∈ D ∨ x = pid := by simp
  refine ⟨?_, ?_, fun e => (me_setNode_exit hspec e).trans (h.me e),
    fun e x hx => h.own e x (alive_of_setNode_exit hspec hx), ?_,
    fun x now hx hnow => h.exit_survivors hj name hst hspec hx hnow, ?_,
    fun q hq x hqx => h.exit_closed hj name hst hspec hq hqx, ?_, ?_⟩
  · exact List.nodup_append.2 ⟨h.nodup, List.nodup_singleton pid, by
      intro a ha b hb hab
      rw [hab, List.mem_singleton.1 hb] at ha
      exact hD ha⟩
  · intro x hx
    rcases (hmem x).1 hx with hx | rfl
    · exact h.wasAlive x hx
    · exact ParticleRegistry.alive_iff.2 ⟨st₀, hst₀⟩
  · intro x hx
    rw [state_setNode_exit hspec]
    by_cases hxp : x = pid
    · rw [if_pos hxp]
    · have hgone : x ∈ D ∨ one.state x = none := by
        rcases hx with hx | hx
        · exact Or.inl (((hmem x).1 hx).resolve_right hxp)
        · exact Or.inr hx
      rw [if_neg hxp, h.gone x hgone]
      rfl
  · rcases h.start with hp | hp
    · exact Or.inl ((hmem p).2 (Or.inl hp))
    · rcases Pool.mem_kept hj hp _ with hp | heq
      · exact Or.inr hp
      · left
        rw [hmem]
        simp only [CascadeJob.exit.injEq] at heq
        exact Or.inr heq.2.1
  · intro x hx
    rcases (hmem x).1 hx with hx | rfl
    · exact h.doomed x hx
    · exact (h.sound _ (List.mem_of_getElem? hj)).2.2
  · intro k hk
    rcases Pool.mem_before_or_new hk with hk | hk
    · exact h.sound k hk
    · exact h.exit_sound hj name hst hspec k hk

end ExitAlive

/-! ## Runs -/

theorem ScatterInv.inherited (h : ScatterInv one p reason t D) {q : Pid}
    (hj : t.jobs[i]? = some (.arrive e (.exit q x reason))) (hnode : x.node = e)
    (hsound : Doomed one p reason q ∧ x ∈ one.linksOf q) :
    ScatterInv one p reason
      ⟨t.env.setNode e ((t.env.node e).inheritExit x q reason).1,
        t.jobs.eraseIdx i ++ ((t.env.node e).inheritExit x q reason).2.map
          fun y => .exit e y reason⟩ D := by
  subst hnode
  have hself : t.env.setNode x.node (t.env.node x.node) = t.env := by
    simp [ScatteredNodes.setNode]
  cases hx : t.env.state x with
  | none =>
    have hinherit : (t.env.node x.node).inheritExit x q reason =
        (t.env.node x.node, []) := by
      rw [ParticleRegistry.inheritExit]
      rw [show (t.env.node x.node).state x = none from hx]
    rw [hinherit, hself]
    have hkeep := h.keep_nodes hj [] [] ?_ (by simp) ?_ (by simp)
    · simpa using hkeep
    · intro y st hy
      have hne : x ≠ y := by
        rintro rfl
        rw [hx] at hy
        cases hy
      simp [jobSignals, messageSignals, hne]
    · rintro y - ⟨st, hst, -⟩ rfl
      rw [hx] at hst
      cases hst
  | some st =>
    have hread : (t.env.node x.node).state x = some st := hx
    cases htrap : st.trapExit with
    | true =>
      have hinherit : (t.env.node x.node).inheritExit x q reason =
          ((t.env.node x.node).sendSystem x (.exit q reason), []) := by
        rw [ParticleRegistry.inheritExit, hread]
        simp [htrap, ParticleRegistry.deliverExit]
      rw [hinherit]
      refine h.delivered hj (.exit q reason) rfl ?_ ?_
      · intro y st' hy
        by_cases hyx : y = x
        · subst hyx
          rw [hx, Option.some.injEq] at hy
          subst hy
          simp [jobSignals, messageSignals, htrap]
        · simp [jobSignals, messageSignals, hyx, Ne.symm hyx]
      · rintro y ⟨st', hst', htrap'⟩ rfl
        rw [hx, Option.some.injEq] at hst'
        subst hst'
        rw [htrap] at htrap'
        cases htrap'
    | false =>
      have hinherit : (t.env.node x.node).inheritExit x q reason =
          (t.env.node x.node, if reason.isAbnormal then [x] else []) := by
        rw [ParticleRegistry.inheritExit, hread]
        cases reason.isAbnormal <;> simp [htrap]
      rw [hinherit, hself]
      have hkeep := h.keep_nodes hj
        ((if reason.isAbnormal then [x] else []).map fun y =>
          .exit x.node y reason) [] ?_ (by simp) ?_ ?_
      · simpa using hkeep
      · intro y st' hy
        by_cases hyx : y = x
        · subst hyx
          rw [hx, Option.some.injEq] at hy
          subst hy
          cases reason.isAbnormal <;> simp [jobSignals, messageSignals, htrap]
        · cases reason.isAbnormal <;>
            simp [jobSignals, messageSignals, Ne.symm hyx]
      · rintro y habn - rfl
        simp [habn, Threatens]
      · intro k hk
        cases habn : reason.isAbnormal with
        | false => simp [habn] at hk
        | true =>
          obtain rfl : k = .exit x.node x reason := by simpa [habn] using hk
          obtain ⟨-, s₀, hs₀, hsurv⟩ := h.survivor hx
          exact ⟨rfl, rfl, hsound.1.cascades ⟨habn, hsound.2, s₀, hs₀,
            hsurv.trapExit.symm.trans htrap⟩⟩

/-- How many jobs a job may lead to while nobody exits, itself included. -/
def weight : CascadeJob → ℕ
  | .exit _ _ _ => 1
  | .arrive _ _ => 2
  | .forward d => 2 * (ParticleRegistry.forwardDeath d).length + 1

/-- Either nobody exits and the job outweighs the jobs that it causes, or one
more particle is dead. -/
theorem ScatterInv.handled (h : ScatterInv one p reason t D) (hp : one.Alive p)
    (hj : t.jobs[i]? = some j) (keepsUp : Bool) :
    ∃ D', ScatterInv one p reason ⟨(t.env.handle codec keepsUp j).1,
        t.jobs.eraseIdx i ++ (t.env.handle codec keepsUp j).2⟩ D' ∧
      (D' = D ∧ ((t.env.handle codec keepsUp j).2.map weight).sum < weight j ∨
        ∃ x, one.Alive x ∧ x ∉ D ∧ D' = D ++ [x]) := by
  have hsound := h.sound j (List.mem_of_getElem? hj)
  cases j with
  | exit e x r =>
    obtain ⟨rfl, rfl, -⟩ := hsound
    cases hx : t.env.state x with
    | none =>
      rw [handle_exit_of_dead hx]
      exact ⟨D, h.exit_dead hp hj hx, Or.inl ⟨rfl, by simp [weight]⟩⟩
    | some st =>
      obtain ⟨reg, name, kills, hspec, hhandle⟩ := handle_exit_of_alive hx
      obtain ⟨hD, st₀, hst₀, -⟩ := h.survivor hx
      rw [hhandle, h.me]
      exact ⟨_, h.exit_alive hj name hx hspec,
        Or.inr ⟨x, ParticleRegistry.alive_iff.2 ⟨st₀, hst₀⟩, hD, rfl⟩⟩
  | forward d =>
    refine ⟨D, h.forwarded hj keepsUp, Or.inl ⟨rfl, ?_⟩⟩
    have hle : (ScatteredNodes.sentOf codec keepsUp d).length ≤
        (ParticleRegistry.forwardDeath d).length := List.length_filter_le _ _
    simp [ScatteredNodes.handle, weight, Function.comp_def]
    omega
  | arrive e msg =>
    cases msg with
    | exit q x r =>
      obtain ⟨rfl, hnode, hrest⟩ := hsound
      refine ⟨D, h.inherited hj hnode hrest, Or.inl ⟨rfl, ?_⟩⟩
      have hone : ((t.env.node e).inheritExit x q r).2.length ≤ 1 := by
        unfold ParticleRegistry.inheritExit
        split
        · simp
        · split
          · simp
          · split <;> simp
      simp [ScatteredNodes.handle, weight, Function.comp_def]
      omega
    | down q w ref r =>
      refine ⟨D, h.delivered hj (.down q ref r) hsound ?_ ?_,
        Or.inl ⟨rfl, by simp [weight, ScatteredNodes.handle]⟩⟩
      · intro y st _
        by_cases hy : y = w
        · simp [jobSignals, messageSignals, hy]
        · simp [jobSignals, messageSignals, hy, Ne.symm hy]
      · intro y _ hy
        exact hy
    | link _ _ | unlink _ _ | monitor _ _ _ | demonitor _ _
    | exitSignal _ _ _ => exact absurd hsound id

theorem scatterInv_step (hp : one.Alive p) {t' : Pool ScatteredNodes CascadeJob}
    {a : ℕ × Bool} (h : ∃ D, ScatterInv one p reason t D)
    (hstep : step codec t a = some t') : ∃ D, ScatterInv one p reason t' D := by
  obtain ⟨D, h⟩ := h
  obtain ⟨j, hj, rfl⟩ := Pool.work_cases hstep
  obtain ⟨D', h', -⟩ := h.handled hp hj a.2
  exact ⟨D', h'⟩

theorem scatterInv_run {node : EndpointId → ParticleRegistry}
    (hone : Gathers node one) (hp : one.Alive p)
    (h : Run (step codec) anyStep (dying node p reason) t) :
    ∃ D, ScatterInv one p reason t D := by
  have hstep : ∀ {s s' : Pool ScatteredNodes CascadeJob} {a : ℕ × Bool},
      (∃ D, ScatterInv one p reason s D) → anyStep s a → step codec s a = some s' →
      ∃ D, ScatterInv one p reason s' D :=
    fun hs _ hnext => scatterInv_step hp hs hnext
  have hrun := h.invariant hstep ⟨[], scatterInv_dying hone⟩
  exact hrun

/-- How many particles of `one` are alive. -/
def living (one : ParticleRegistry) (s : ScatteredNodes) : ℕ :=
  (one.particleStates.keys.filter fun x => (s.state x).isSome).length

theorem ScatterInv.living_eq (h : ScatterInv one p reason t D) :
    living one t.env =
      (one.particleStates.keys.filter fun x => x ∉ D).length := by
  rw [living]
  congr 1
  apply List.filter_congr
  intro x hx
  obtain ⟨st, hst⟩ := Table.mem_iff_lookup.1 hx
  by_cases hD : x ∈ D
  · simp [h.gone x (Or.inl hD), hD]
  · obtain ⟨st', hst', -⟩ := h.survivors x st hD hst
    simp [hst', hD]

theorem measure_step (hp : one.Alive p) {t' : Pool ScatteredNodes CascadeJob}
    {a : ℕ × Bool} (h : ∃ D, ScatterInv one p reason t D)
    (hstep : step codec t a = some t') :
    Pool.measure (living one) (fun _ => weight) t' <
      Pool.measure (living one) (fun _ => weight) t := by
  obtain ⟨D, h⟩ := h
  obtain ⟨j, hj, rfl⟩ := Pool.work_cases hstep
  obtain ⟨D', h', hless⟩ := h.handled hp hj a.2
  have hnow := h.living_eq
  have hnext := h'.living_eq
  apply Pool.measure_lt hj
  rcases hless with ⟨rfl, hlt⟩ | ⟨x, hx, hD, rfl⟩
  · exact Or.inr ⟨hnext.trans hnow.symm, fun _ => le_rfl, hlt⟩
  · left
    rw [hnow, hnext]
    have hfilter : (one.particleStates.keys.filter fun y => y ∉ D ++ [x]) =
        (one.particleStates.keys.filter fun y => y ∉ D).filter fun y => y ≠ x := by
      rw [List.filter_filter]
      apply List.filter_congr
      intro y _
      simp [and_comm]
    rw [hfilter, List.length_filter_lt_length_iff_exists]
    refine ⟨x, List.mem_filter.2 ⟨?_, by simpa using hD⟩, by simp⟩
    obtain ⟨st, hst⟩ := ParticleRegistry.alive_iff.1 hx
    exact Table.mem_iff_lookup.2 ⟨st, hst⟩

theorem no_infinite_run (hp : one.Alive p) (r : InfiniteRun (step codec))
    (h0 : ScatterInv one p reason (r.state 0) D) : False := by
  have hstep : ∀ {s s' : Pool ScatteredNodes CascadeJob} {a : ℕ × Bool},
      (∃ D, ScatterInv one p reason s D) → step codec s a = some s' →
      ∃ D, ScatterInv one p reason s' D :=
    fun hs hnext => scatterInv_step hp hs hnext
  have hlt : ∀ {s s' : Pool ScatteredNodes CascadeJob} {a : ℕ × Bool},
      (∃ D, ScatterInv one p reason s D) → step codec s a = some s' →
      Pool.measure (living one) (fun _ => weight) s' <
        Pool.measure (living one) (fun _ => weight) s :=
    fun hs hnext => measure_step hp hs hnext
  exact r.elim_of_measure _ hstep hlt ⟨D, h0⟩

/-! ## The result -/

/-- What a particle with state `before` has received in one world, compared
with what it has received in another. -/
def Received (rel : List SystemMessage → List SystemMessage → Prop)
    (before now now' : ParticleState) : Prop :=
  ∃ l l', now.mailbox = before.mailbox.pushSystems l ∧
    now'.mailbox = before.mailbox.pushSystems l' ∧ rel l l'

variable {node : EndpointId → ParticleRegistry} {D' : List Pid}

/-- The deaths so far are deaths on one node. -/
theorem ScatterInv.subset (h : ScatterInv one p reason t D)
    (hone : ParticleRegistry.ExitsExactly one p reason D'
      (one.exitParticle p reason)) : D ⊆ D' := by
  intro x hx
  exact h.doomed x hx {y | y ∈ D'} hone.least.1.1 hone.least.1.2

theorem ScatterInv.perm_of_done (h : ScatterInv one p reason t D)
    (hone : ParticleRegistry.ExitsExactly one p reason D'
      (one.exitParticle p reason))
    (hjobs : t.jobs = []) (hmissed : t.env.missed = []) : D.Perm D' := by
  have hp : p ∈ D := by
    rcases h.start with hp | hp
    · exact hp
    · rw [hjobs] at hp
      cases hp
  have hclosed : one.CascadeClosed reason {y | y ∈ D} := by
    intro q x hq hqx
    rcases h.closed q hq x hqx with hx | ⟨k, hk, -⟩ | ⟨d, hd, -⟩
    · exact hx
    · rw [hjobs] at hk
      cases hk
    · rw [hmissed] at hd
      cases hd
  refine (List.perm_ext_iff_of_nodup h.nodup hone.nodup).2 fun x => ?_
  exact ⟨fun hx => h.subset hone hx, fun hx => hone.least.2 ⟨hp, hclosed⟩ hx⟩

theorem ScatterInv.state_isSome (h : ScatterInv one p reason t D) (x : Pid) :
    (t.env.state x).isSome ↔ one.Alive x ∧ x ∉ D := by
  constructor
  · intro hx
    obtain ⟨st, hst⟩ := Option.isSome_iff_exists.1 hx
    obtain ⟨hD, st₀, hst₀, -⟩ := h.survivor hst
    exact ⟨ParticleRegistry.alive_iff.2 ⟨st₀, hst₀⟩, hD⟩
  · rintro ⟨halive, hD⟩
    obtain ⟨st, hst⟩ := ParticleRegistry.alive_iff.1 halive
    obtain ⟨st', hst', -⟩ := h.survivors x st hD hst
    simp [hst']

theorem signalsOf_subperm (h : D.Subperm D') (x : Pid) (traps : Bool) :
    (one.signalsOf reason D x traps).Subperm
      (one.signalsOf reason D' x traps) := by
  obtain ⟨D₁, hperm, hsub⟩ := h
  exact ⟨one.signalsOf reason D₁ x traps, hperm.flatMap_right _,
    hsub.flatMap _⟩

/-- A group that is spread over nodes dies as it would on one node, in any order
of the nodes' tasks, if every message of its deaths was sent.  Until then, or
if some were not, nobody has died that would survive, and nobody has received
what would not be sent. -/
theorem scattered_group_dies_as_one (codec : WireCodec PeerMessage)
    (hone : Gathers node one) (hp : one.Alive p) (reason : ExitReason) :
    (∀ t, Run (step codec) anyStep (dying node p reason) t → ∀ x before,
      one.state x = some before →
      (t.env.state x = none → (one.exitParticle p reason).state x = none) ∧
      ∀ now now', t.env.state x = some now →
        (one.exitParticle p reason).state x = some now' →
        Received List.Subperm before now now') ∧
    (∀ t, Run (step codec) anyStep (dying node p reason) t → t.jobs = [] →
      t.env.missed = [] → ∀ x,
      (t.env.state x = none ↔ (one.exitParticle p reason).state x = none) ∧
      ∀ before now now', one.state x = some before →
        t.env.state x = some now →
        (one.exitParticle p reason).state x = some now' →
        Received List.Perm before now now' ∧
        (∀ q, q.node = x.node → (q ∈ now.links ↔ q ∈ now'.links)) ∧
        ∀ q, q.node ≠ x.node → (q ∈ now.links ↔ q ∈ before.links)) ∧
    ¬ ∃ r : InfiniteRun (step codec), r.state 0 = dying node p reason := by
  obtain ⟨D', hcascade⟩ := ParticleRegistry.exitParticle_inv reason hp
  have hexact := hcascade.exitsExactly
  have hnone : ∀ x, (one.exitParticle p reason).state x = none ↔
      ¬ (one.Alive x ∧ x ∉ D') := by
    intro x
    rw [← hexact.alive, ParticleRegistry.alive_iff]
    cases (one.exitParticle p reason).state x <;> simp
  -- Who survives has settled with the dead, in both worlds.
  have hafter : ∀ x before now', one.state x = some before →
      (one.exitParticle p reason).state x = some now' →
      now' = one.settleAll reason D' x before := by
    intro x before now' hbefore hnow'
    rw [hcascade.states, hbefore] at hnow'
    split at hnow'
    · cases hnow'
    · exact (Option.some.inj hnow').symm
  refine ⟨?_, ?_, ?_⟩
  · intro t ht x before hbefore
    obtain ⟨D, h⟩ := scatterInv_run hone hp ht
    have halive : one.Alive x := ParticleRegistry.alive_iff.2 ⟨before, hbefore⟩
    refine ⟨?_, ?_⟩
    · intro hgone
      rw [hnone]
      exact fun hx => hx.2 (h.subset hexact (h.mem_of_gone halive hgone))
    · intro now now' hnow hnow'
      obtain ⟨hD, st₀, hst₀, hsurv⟩ := h.survivor hnow
      obtain rfl : before = st₀ := Option.some.inj (hbefore.symm.trans hst₀)
      obtain ⟨l, hl, hperm⟩ := hsurv.received
      have hsub : D.Subperm D' :=
        List.subperm_of_subset h.nodup (h.subset hexact)
      refine ⟨l, one.signalsOf reason D' x before.trapExit, hl, ?_, ?_⟩
      · rw [hafter x before now' hbefore hnow',
          ParticleRegistry.settleAll_mailbox]
      · exact ((List.sublist_append_left _ _).subperm.trans hperm.subperm).trans
          (signalsOf_subperm hsub x before.trapExit)
  · intro t ht hjobs hmissed x
    obtain ⟨D, h⟩ := scatterInv_run hone hp ht
    have hperm := h.perm_of_done hexact hjobs hmissed
    refine ⟨?_, ?_⟩
    · rw [hnone, ← Option.not_isSome_iff_eq_none, h.state_isSome, hperm.mem_iff]
    · intro before now now' hbefore hnow hnow'
      obtain ⟨hD, st₀, hst₀, hsurv⟩ := h.survivor hnow
      obtain rfl : before = st₀ := Option.some.inj (hbefore.symm.trans hst₀)
      obtain ⟨l, hl, hleft⟩ := hsurv.received
      have hsettled := hafter x before now' hbefore hnow'
      refine ⟨⟨l, one.signalsOf reason D' x before.trapExit, hl, ?_, ?_⟩, ?_, ?_⟩
      · rw [hsettled, ParticleRegistry.settleAll_mailbox]
      · have hall : (one.signalsOf reason D x before.trapExit).Perm
            (one.signalsOf reason D' x before.trapExit) := hperm.flatMap_right _
        simp only [signalsLeft, hjobs, hmissed, List.flatMap_nil,
          List.append_nil] at hleft
        exact hleft.trans hall
      · intro q hq
        rw [hsettled, hsurv.links, ParticleRegistry.mem_settleAll_links,
          hperm.mem_iff]
        simp [hq]
      · intro q hq
        simp [hsurv.links, hq]
  · rintro ⟨r, hr⟩
    exact no_infinite_run hp r (hr ▸ scatterInv_dying hone)

/-- A chain of three over two nodes.  The last one traps exits. -/
def chainState (links : List Pid) (traps : Bool) : ParticleState :=
  { ParticleState.new with
    links := links.foldl (fun s x => s.insert x) ∅, trapExit := traps }

def chainStates : List (Pid × ParticleState) :=
  [(⟨⟨1⟩, 1⟩, chainState [⟨⟨2⟩, 1⟩] false),
    (⟨⟨2⟩, 1⟩, chainState [⟨⟨1⟩, 1⟩, ⟨⟨1⟩, 2⟩] false),
    (⟨⟨1⟩, 2⟩, chainState [⟨⟨2⟩, 1⟩] true)]

def hosting (e : EndpointId) (l : List (Pid × ParticleState)) :
    ParticleRegistry :=
  { ParticleRegistry.new e with
    particleStates := l.foldl (fun t s => t.insert s.1 s.2) ∅ }

def chainNodes (e : EndpointId) : ParticleRegistry :=
  hosting e (chainStates.filter fun s => s.1.node = e)

theorem state_hosting (e : EndpointId) (x : Pid)
    (l : List (Pid × ParticleState)) (hl : (l.map Prod.fst).Nodup) :
    (hosting e l).state x = (l.find? fun s => s.1 = x).map Prod.snd := by
  suffices h : ∀ t : Table Pid ParticleState,
      (l.foldl (fun t s => t.insert s.1 s.2) t).lookup x =
        ((l.find? fun s => s.1 = x).map Prod.snd).or (t.lookup x) by
    simpa [hosting, ParticleRegistry.state] using h ∅
  clear e
  induction l with
  | nil => simp
  | cons s l ih =>
    intro t
    obtain ⟨hs, hl⟩ := List.nodup_cons.1 hl
    rw [List.foldl_cons, ih hl, Table.lookup_insert_eq]
    by_cases hx : s.1 = x
    · have hnone : l.find? (fun s => s.1 = x) = none := by
        rw [List.find?_eq_none]
        intro s' hs' hx'
        exact hs (List.mem_map.2 ⟨s', hs', by simpa [hx] using hx'⟩)
      simp [hx, hnone]
    · simp [hx, Ne.symm hx]

theorem gathers_chain : Gathers chainNodes (hosting ⟨0⟩ chainStates) := by
  have hnodup : (chainStates.map Prod.fst).Nodup := by decide
  have hfind : ∀ e (x : Pid), (chainNodes e).state x =
      if x.node = e then (hosting ⟨0⟩ chainStates).state x else none := by
    intro e x
    rw [chainNodes, state_hosting e x _ ?_, state_hosting ⟨0⟩ x _ hnodup,
      List.find?_filter]
    · by_cases hx : x.node = e
      · rw [if_pos hx]
        congr 2
        funext s
        by_cases hs : s.1 = x <;> simp [hs, hx]
      · rw [if_neg hx, Option.map_eq_none_iff, List.find?_eq_none]
        intro s _ hs
        simp only [decide_eq_true_eq] at hs
        exact hx (hs.2 ▸ hs.1)
    · exact (List.filter_sublist.map Prod.fst).nodup hnodup
  refine ⟨fun _ => rfl, ?_, ?_⟩
  · intro e x hx
    rw [ParticleRegistry.alive_iff] at hx
    obtain ⟨st, hst⟩ := hx
    rw [hfind] at hst
    by_contra hne
    rw [if_neg hne] at hst
    cases hst
  · intro x
    rw [hfind, if_pos rfl]

/-- The death of the first kills the second on the other node, and the third
is told. -/
theorem scattered_group_dies_as_one_chain :
    ∃ t, Run (step textWire) anyStep
        (dying chainNodes ⟨⟨1⟩, 1⟩ (.exception "crash")) t ∧
      t.env.state ⟨⟨2⟩, 1⟩ = none ∧
      ((hosting ⟨0⟩ chainStates).exitParticle ⟨⟨1⟩, 1⟩
        (.exception "crash")).state ⟨⟨2⟩, 1⟩ = none := by
  obtain ⟨t, hrun, hjobs, hmissed, hgone⟩ : ∃ t, Run (step textWire) anyStep
      (dying chainNodes ⟨⟨1⟩, 1⟩ (.exception "crash")) t ∧
      t.jobs.length = 0 ∧ t.env.missed.length = 0 ∧
      (t.env.state ⟨⟨2⟩, 1⟩).isSome = false :=
    exec_run_of_any (List.replicate 7 (0, true)) (by decide +kernel)
  have hsame := (scattered_group_dies_as_one textWire gathers_chain (by decide)
    (.exception "crash")).2.1 t hrun (List.eq_nil_of_length_eq_zero hjobs)
    (List.eq_nil_of_length_eq_zero hmissed) ⟨⟨2⟩, 1⟩
  have hnone : t.env.state ⟨⟨2⟩, 1⟩ = none := by simpa using hgone
  exact ⟨t, hrun, hnone, hsame.1.1 hnone⟩

end ScatteredDeath

end Plasmoid
