import Plasmoid.PeerCalls
import Plasmoid.Party

/-!
# What a node keeps about the other one

A particle records its own half of a link and of a monitor that cross nodes.
`Carries` says that an operation of the node leaves these halves alone, but
for the links that it cuts.  Every host call and every message satisfies it,
and so does every step of a node that is not a spawn or the loss of the peer.
-/

namespace Plasmoid

open Machine

namespace ParticleRegistry

/-- A particle keeps its links to other nodes, but for those that are cut, and
its watchers on other nodes. -/
structure KeepsAcross (me : EndpointId) (cut : Pid → Prop)
    (s s' : ParticleState) : Prop where
  links : ∀ x : Pid, x.node ≠ me → ¬ cut x → x ∈ s.links → x ∈ s'.links
  watchers : ∀ w ∈ s.monitoredBy, w.1.node ≠ me → w ∈ s'.monitoredBy

theorem KeepsAcross.refl (me : EndpointId) (cut : Pid → Prop)
    (s : ParticleState) : KeepsAcross me cut s s :=
  ⟨fun _ _ _ h => h, fun _ h _ => h⟩

theorem KeepsAcross.trans {me : EndpointId} {cut : Pid → Prop}
    {s₁ s₂ s₃ : ParticleState} (h₁ : KeepsAcross me cut s₁ s₂)
    (h₂ : KeepsAcross me cut s₂ s₃) : KeepsAcross me cut s₁ s₃ where
  links x hx hcut h := h₂.links x hx hcut (h₁.links x hx hcut h)
  watchers w h hw := h₂.watchers w (h₁.watchers w h hw) hw

theorem SameRemote.keepsAcross {me : EndpointId} {s s' : ParticleState}
    (h : SameRemote me s s') (cut : Pid → Prop) : KeepsAcross me cut s s' where
  links x hx _ hmem := (h.links x hx).2 hmem
  watchers w hmem _ := by
    rw [h.monitoredBy]
    exact hmem

/-- Nobody is born, and `y` keeps what it has recorded about other nodes for
as long as it lives. -/
structure Carries (reg reg' : ParticleRegistry) (y : Pid)
    (cut : Pid → Prop) : Prop where
  noBirth : NoBirth reg reg'
  kept : ∀ s', reg'.state y = some s' →
    ∃ s, reg.state y = some s ∧ KeepsAcross reg.me cut s s'

variable {reg reg' reg₁ reg₂ reg₃ : ParticleRegistry} {y : Pid}
  {cut : Pid → Prop}

theorem Carries.refl (reg : ParticleRegistry) (y : Pid) (cut : Pid → Prop) :
    Carries reg reg y cut :=
  ⟨.refl reg, fun s' hs' => ⟨s', hs', .refl _ _ s'⟩⟩

theorem Carries.trans (h₁ : Carries reg₁ reg₂ y cut)
    (h₂ : Carries reg₂ reg₃ y cut) : Carries reg₁ reg₃ y cut where
  noBirth := h₁.noBirth.trans h₂.noBirth
  kept s₃ hs₃ := by
    obtain ⟨s₂, hs₂, h23⟩ := h₂.kept s₃ hs₃
    obtain ⟨s₁, hs₁, h12⟩ := h₁.kept s₂ hs₂
    rw [h₁.noBirth.me] at h23
    exact ⟨s₁, hs₁, h12.trans h23⟩

theorem Evolves.carries (h : Evolves reg reg') (y : Pid) (cut : Pid → Prop) :
    Carries reg reg' y cut where
  noBirth := ⟨h.pidGen, h.alive⟩
  kept s' hs' := by
    obtain ⟨s, hs, hsame⟩ := h.kept y s' hs'
    exact ⟨s, hs, hsame.keepsAcross cut⟩

/-- Rewriting one state carries over what the rewriting keeps. -/
theorem carries_modifyState (reg : ParticleRegistry) (pid : Pid)
    {f : ParticleState → ParticleState}
    (hf : pid = y → ∀ s, KeepsAcross reg.me cut s (f s)) :
    Carries reg (reg.modifyState pid f) y cut where
  noBirth := (sameLife_modifyState reg pid f).noBirth
  kept s' hs' := by
    rw [state_modifyState] at hs'
    split at hs'
    · rename_i hy
      obtain ⟨s, hs, rfl⟩ := Option.map_eq_some_iff.1 hs'
      exact ⟨s, hs, hf hy.symm s⟩
    · exact ⟨s', hs', .refl _ _ s'⟩

/-! ## Halves of links -/

theorem keepsAcross_insert (me : EndpointId) (cut : Pid → Prop)
    (s : ParticleState) (x : Pid) :
    KeepsAcross me cut s { s with links := s.links.insert x } where
  links _ _ _ h := KeySet.mem_insert.2 (Or.inr h)
  watchers _ h _ := h

theorem keepsAcross_remove {me : EndpointId} {cut : Pid → Prop}
    (s : ParticleState) {x : Pid} (hx : x.node ≠ me → cut x) :
    KeepsAcross me cut s { s with links := s.links.remove x } where
  links z hz hcut h := by
    refine KeySet.mem_remove.2 ⟨?_, h⟩
    rintro rfl
    exact hcut (hx hz)
  watchers _ h _ := h

theorem carries_linkRemote (reg : ParticleRegistry) (a b : Pid) :
    Carries reg (reg.linkRemote a b) y cut :=
  carries_modifyState reg a fun _ s => keepsAcross_insert _ _ s b

theorem carries_unlinkRemote (reg : ParticleRegistry) {a b : Pid}
    (hcut : a = y → cut b) : Carries reg (reg.unlinkRemote a b) y cut :=
  carries_modifyState reg a fun ha s => keepsAcross_remove s fun _ => hcut ha

theorem carries_unlink (reg : ParticleRegistry) {a b : Pid}
    (ha : a.node = reg.me) (hcut : a = y → cut b) :
    Carries reg (reg.unlink a b) y cut := by
  have hfirst := carries_unlinkRemote reg hcut
  refine hfirst.trans (carries_modifyState _ b fun _ s =>
    keepsAcross_remove s fun hne => ?_)
  -- The other half names a particle of this node.
  exact absurd (ha.trans hfirst.noBirth.me.symm) hne

/-! ## Halves of monitors -/

theorem carries_monitorRemote (reg : ParticleRegistry) (w t : Pid)
    (refId : UInt64) : Carries reg (reg.monitorRemote w t refId) y cut := by
  have hfirst : Carries reg (reg.modifyState w fun s =>
      { s with monitors := s.monitors.insert refId t }) y cut :=
    carries_modifyState reg w fun _ _ => ⟨fun _ _ _ h => h, fun _ h _ => h⟩
  refine hfirst.trans (carries_modifyState _ t fun _ s => ⟨?_, ?_⟩)
  · intro x _ _ h
    exact h
  · intro e h _
    exact List.mem_append_left _ h

theorem carries_demonitor (reg : ParticleRegistry) {w : Pid}
    (hw : w.node = reg.me) (refId : UInt64) :
    Carries reg (reg.demonitor w refId) y cut := by
  have hfirst : Carries reg (reg.modifyState w fun s =>
      { s with monitors := s.monitors.erase refId }) y cut :=
    carries_modifyState reg w fun _ _ => ⟨fun _ _ _ h => h, fun _ h _ => h⟩
  unfold demonitor
  simp only
  split
  · exact hfirst
  · rename_i t _
    refine hfirst.trans (carries_modifyState _ t fun _ s => ⟨?_, ?_⟩)
    · intro x _ _ h
      exact h
    · intro e h hne
      refine List.mem_filter.2 ⟨h, ?_⟩
      rw [decide_eq_true_eq]
      rintro rfl
      exact hne (hw.trans hfirst.noBirth.me.symm)

theorem carries_sendSystem (reg : ParticleRegistry) (pid : Pid)
    (msg : SystemMessage) : Carries reg (reg.sendSystem pid msg) y cut :=
  (evolves_sendSystem reg pid msg).carries y cut

/-! ## Host calls -/

theorem carries_hostLink (hl : reg.AllLocal) (me : Pid) (dest : Destination) :
    Carries reg (reg.hostLink me dest).1 y cut := by
  have hfailed : Carries reg (reg.deliverExit me me .noProc) y cut :=
    carries_sendSystem reg me _
  unfold hostLink
  split
  · rename_i target _
    cases reg.resolve target with
    | none => exact hfailed
    | some t =>
      simp only
      split
      · rename_i reg' _ heq
        have hlink := (evolves_link hl me t).carries y cut
        rw [heq] at hlink
        exact hlink
      · exact hfailed
  · rename_i node target _
    cases target with
    | pid t => exact carries_linkRemote reg me t
    | name n => exact .refl reg y cut
  · exact .refl reg y cut

theorem carries_hostUnlink {me : Pid} (hme : me.node = reg.me)
    (dest : Destination)
    (hcut : ∀ t, PeerCalls.unlinksFrom reg dest = some t → me = y → cut t) :
    Carries reg (reg.hostUnlink me dest).1 y cut := by
  unfold PeerCalls.unlinksFrom at hcut
  unfold hostUnlink
  cases hdest : dest.resolveLocal reg.me with
  | here target =>
    simp only [hdest] at hcut ⊢
    cases ht : reg.resolve target with
    | none => exact .refl reg y cut
    | some t => exact carries_unlink reg hme (hcut t ht)
  | elsewhere node target =>
    cases target with
    | pid t =>
      simp only [hdest] at hcut
      exact carries_unlinkRemote reg (hcut t rfl)
    | name n => exact .refl reg y cut
  | unknown => exact .refl reg y cut

theorem carries_hostMonitor (reg : ParticleRegistry) (me : Pid)
    (dest : Destination) (refId : UInt64) :
    Carries reg (reg.hostMonitor me dest refId).1 y cut := by
  unfold hostMonitor
  cases dest.resolveLocal reg.me with
  | here target =>
    simp only
    cases reg.resolve target with
    | none => exact carries_sendSystem reg me _
    | some t => exact carries_monitorRemote reg me t refId
  | elsewhere node target =>
    cases target with
    | pid t => exact carries_monitorRemote reg me t refId
    | name n => exact .refl reg y cut
  | unknown => exact carries_sendSystem reg me _

theorem carries_hostExitSignal (hl : reg.AllLocal) (me : Pid)
    (dest : Destination) (reason : ExitReason) :
    Carries reg (reg.hostExitSignal me dest reason).1 y cut := by
  unfold hostExitSignal
  cases dest.resolveLocal reg.me with
  | here target =>
    simp only
    cases reg.resolve target with
    | none => exact .refl reg y cut
    | some t => exact (evolves_applyDirectedExit hl t me reason).carries y cut
  | elsewhere node target => exact .refl reg y cut
  | unknown => exact .refl reg y cut

end ParticleRegistry

/-! ## Messages -/

/-- A message that a node with this id may send.  `demonitor` is never
sent. -/
def PeerMessage.sentBy (me : EndpointId) : PeerMessage → Prop
  | .demonitor _ _ => False
  | .monitor w _ _ => w.node = me
  | _ => True

namespace ParticleRegistry

variable {reg : ParticleRegistry} {y : Pid} {cut : Pid → Prop}

theorem carries_handlePeerMessage (hl : reg.AllLocal) {me : EndpointId}
    {msg : PeerMessage} (hmsg : msg.sentBy me)
    (hcut : ∀ source target t, msg = .unlink source target →
      reg.resolve target = some t → t = y → cut source) :
    Carries reg (reg.handlePeerMessage msg).1 y cut := by
  cases msg with
  | link source target =>
    rw [handlePeerMessage]
    cases reg.resolve target with
    | none => exact .refl reg y cut
    | some t => exact carries_linkRemote reg t source
  | unlink source target =>
    rw [handlePeerMessage]
    cases ht : reg.resolve target with
    | none => exact .refl reg y cut
    | some t => exact carries_unlinkRemote reg (hcut source target t rfl ht)
  | monitor w target refId =>
    rw [handlePeerMessage]
    cases reg.resolve target with
    | none => exact .refl reg y cut
    | some t => exact carries_monitorRemote reg w t refId
  | demonitor w refId => exact absurd hmsg id
  | exit source target reason =>
    exact (evolves_applyInheritedExit hl target source reason).carries y cut
  | exitSignal source target reason =>
    rw [handlePeerMessage]
    cases reg.resolve target with
    | none => exact .refl reg y cut
    | some t =>
      exact (evolves_applyDirectedExit hl t source reason).carries y cut
  | down source target refId reason => exact carries_sendSystem reg target _

/-- The answers to a message. -/
theorem sentBy_of_reply {msg : PeerMessage} {m : EndpointId × PeerMessage}
    (hm : m ∈ (reg.handlePeerMessage msg).2) (me : EndpointId) :
    m.2.sentBy me := by
  cases msg with
  | link source target =>
    rw [handlePeerMessage] at hm
    cases hr : reg.resolve target with
    | none =>
      rw [hr] at hm
      rw [List.mem_singleton.1 hm]
      trivial
    | some t =>
      rw [hr] at hm
      cases hm
  | monitor w target refId =>
    rw [handlePeerMessage] at hm
    cases hr : reg.resolve target with
    | none =>
      rw [hr] at hm
      rw [List.mem_singleton.1 hm]
      trivial
    | some t =>
      rw [hr] at hm
      cases hm
  | unlink source target =>
    rw [handlePeerMessage] at hm
    split at hm <;> cases hm
  | exitSignal source target reason =>
    rw [handlePeerMessage] at hm
    split at hm <;> cases hm
  | demonitor w refId => cases hm
  | exit source target reason => cases hm
  | down source target refId reason => cases hm

theorem sentBy_of_forwardDeath {death : ParticleDeath}
    {m : EndpointId × PeerMessage} (hm : m ∈ forwardDeath death)
    (me : EndpointId) : m.2.sentBy me := by
  rcases List.mem_append.1 hm with hm | hm
  · obtain ⟨x, -, rfl⟩ := List.mem_map.1 hm
    trivial
  · obtain ⟨w, -, rfl⟩ := List.mem_map.1 hm
    trivial

/-! ## Spawns and losses -/

theorem noBirth_loseNode {reg : ParticleRegistry} (hl : reg.AllLocal)
    (node : EndpointId) : NoBirth reg (reg.loseNode node) := by
  rcases loseNode_cases hl node with ⟨-, heq⟩ | ⟨reg', he, heq⟩
  · rw [heq]
    exact .refl reg
  · rw [heq]
    exact ⟨he.pidGen, fun x hx => he.alive x (alive_mapStates.1 hx)⟩

end ParticleRegistry

/-! ## Steps of a node -/

namespace PeerNode

open ParticleRegistry

/-- What a node does to itself: it keeps its identity and its particles stay
local, and it only sends messages that it may send. -/
structure Moves (n n' : PeerNode) : Prop where
  peer : n'.peer = n.peer
  me : n'.reg.me = n.reg.me
  allLocal : n'.reg.AllLocal
  kept : ∀ m ∈ n.outbox, m ∈ n'.outbox
  sent : ∀ m ∈ n'.outbox, m ∈ n.outbox ∨ m.sentBy n.reg.me

/-- A step that also carries over what `y` has recorded. -/
structure Works (n n' : PeerNode) (y : Pid) (cut : Pid → Prop) : Prop extends
    Moves n n' where
  carries : Carries n.reg n'.reg y cut

variable {codec : WireCodec PeerMessage} {n n' : PeerNode} {y : Pid}
  {cut : Pid → Prop}

/-- A node that sends nothing. -/
theorem moves_silent {reg : ParticleRegistry} {refs : Table Pid UInt64}
    {cursor : Nat} (hme : reg.me = n.reg.me) (hl : reg.AllLocal) :
    Moves n { n with reg, refs, cursor } :=
  ⟨rfl, hme, hl, fun _ h => h, fun _ h => Or.inl h⟩

theorem Moves.send (h : Moves n n') {msgs : List (EndpointId × PeerMessage)}
    (hmsgs : ∀ m ∈ msgs, m.2.sentBy n.reg.me) :
    Moves n (n'.send codec msgs) := by
  refine ⟨h.peer, h.me, h.allLocal, ?_, ?_⟩
  · intro m hm
    exact mem_outbox_send.2 (Or.inl (h.kept m hm))
  · intro m hm
    rcases mem_outbox_send.1 hm with hm | ⟨hm, -⟩
    · exact h.sent m hm
    · exact Or.inr (hmsgs _ hm)

theorem works_silent {reg : ParticleRegistry} {refs : Table Pid UInt64}
    {cursor : Nat} (hl : n.reg.AllLocal) (h : Carries n.reg reg y cut) :
    Works n { n with reg, refs, cursor } y cut :=
  ⟨moves_silent h.noBirth.me (h.noBirth.allLocal hl), h⟩

theorem works_carry {r : ParticleRegistry × List (EndpointId × PeerMessage)}
    {refs : Table Pid UInt64} (hl : n.reg.AllLocal)
    (h : Carries n.reg r.1 y cut) (hmsgs : ∀ m ∈ r.2, m.2.sentBy n.reg.me) :
    Works n ({ n with refs }.carry codec r) y cut :=
  ⟨(moves_silent h.noBirth.me (h.noBirth.allLocal hl)).send hmsgs, h⟩

theorem sentBy_hostLink {x : Pid} {dest : Destination}
    {m : EndpointId × PeerMessage} (hm : m ∈ (n.reg.hostLink x dest).2) :
    m.2.sentBy n.reg.me := by
  unfold hostLink at hm
  split at hm
  · split at hm
    · split at hm <;> cases hm
    · cases hm
  · rw [List.mem_singleton.1 hm]
    trivial
  · cases hm

theorem sentBy_hostUnlink {x : Pid} {dest : Destination}
    {m : EndpointId × PeerMessage} (hm : m ∈ (n.reg.hostUnlink x dest).2) :
    m.2.sentBy n.reg.me := by
  unfold hostUnlink at hm
  split at hm
  · split at hm <;> cases hm
  · rw [List.mem_singleton.1 hm]
    trivial
  · cases hm

theorem sentBy_hostMonitor {x : Pid} {dest : Destination} {refId : UInt64}
    (hx : x.node = n.reg.me) {m : EndpointId × PeerMessage}
    (hm : m ∈ (n.reg.hostMonitor x dest refId).2) : m.2.sentBy n.reg.me := by
  unfold hostMonitor at hm
  split at hm
  · split at hm <;> cases hm
  · rw [List.mem_singleton.1 hm]
    exact hx
  · cases hm

theorem sentBy_hostExitSignal {x : Pid} {dest : Destination}
    {reason : ExitReason} {m : EndpointId × PeerMessage}
    (hm : m ∈ (n.reg.hostExitSignal x dest reason).2) :
    m.2.sentBy n.reg.me := by
  unfold hostExitSignal at hm
  split at hm
  · split at hm <;> cases hm
  · rw [List.mem_singleton.1 hm]
    trivial
  · cases hm

/-- A step that is neither a spawn nor the loss of the peer. -/
theorem works_act {a : HostAction} (hl : n.reg.AllLocal)
    (h : n.act codec a = some n') (hspawn : ∀ c name, a ≠ .spawn c name)
    (hlose : a ≠ .lose)
    (hcut : ∀ x dest t, a = .unlink x dest →
      PeerCalls.unlinksFrom n.reg dest = some t → x = y → cut t) :
    Works n n' y cut := by
  cases a with
  | spawn c name => exact absurd rfl (hspawn c name)
  | lose => exact absurd rfl hlose
  | receive => cases h
  | perform op =>
    rw [act] at h
    split at h
    · rename_i hop
      cases h
      exact works_silent hl ((evolves_perform hl hop).carries y cut)
    · cases h
  | link x dest =>
    rw [act] at h
    split at h
    · cases h
      exact works_carry hl (carries_hostLink hl x dest)
        fun _ hm => sentBy_hostLink hm
    · cases h
  | unlink x dest =>
    rw [act] at h
    split at h
    · rename_i hx
      cases h
      exact works_carry hl
        (carries_hostUnlink hx dest fun t => hcut x dest t rfl)
        fun _ hm => sentBy_hostUnlink hm
    · cases h
  | monitor w dest =>
    rw [act] at h
    split at h
    · rename_i hw
      cases h
      exact works_carry hl (carries_hostMonitor n.reg w dest _)
        fun _ hm => sentBy_hostMonitor hw hm
    · cases h
  | demonitor w refId =>
    rw [act] at h
    split at h
    · rename_i hw
      cases h
      exact works_silent hl (carries_demonitor n.reg hw refId)
    · cases h
  | exitSignal x dest reason =>
    rw [act] at h
    split at h
    · cases h
      exact works_carry hl (carries_hostExitSignal hl x dest reason)
        fun _ hm => sentBy_hostExitSignal hm
    · cases h
  | drawRef w =>
    cases h
    exact works_silent hl (.refl n.reg y cut)
  | forward =>
    rcases forward_cases h with ⟨-, rfl⟩ | ⟨death, -, -, rfl⟩
    · exact works_silent hl (.refl n.reg y cut)
    · refine ⟨(moves_silent rfl hl).send ?_, .refl n.reg y cut⟩
      exact fun _ hm => sentBy_of_forwardDeath hm _

theorem moves_act {a : HostAction} (hl : n.reg.AllLocal)
    (h : n.act codec a = some n') : Moves n n' := by
  by_cases hspawn : ∃ c name, a = .spawn c name
  · obtain ⟨c, name, rfl⟩ := hspawn
    cases h
    exact moves_silent (me_spawn n.reg c name) (allLocal_spawn hl c name)
  by_cases hlose : a = .lose
  · subst hlose
    cases h
    have hborn := noBirth_loseNode hl n.peer
    exact moves_silent hborn.me (hborn.allLocal hl)
  have hworks : Works n n' n.reg.pidGen.peek fun _ => True :=
    works_act hl h (fun c name heq => hspawn ⟨c, name, heq⟩) hlose
      fun _ _ _ _ _ _ => trivial
  exact hworks.toMoves

theorem works_receive {msg : PeerMessage} {me : EndpointId}
    (hl : n.reg.AllLocal) (hmsg : msg.sentBy me)
    (hcut : ∀ source target t, msg = .unlink source target →
      n.reg.resolve target = some t → t = y → cut source) :
    Works n (n.carry codec (n.reg.handlePeerMessage msg)) y cut :=
  works_carry hl (carries_handlePeerMessage hl hmsg hcut)
    fun _ hm => sentBy_of_reply hm _

end PeerNode

end Plasmoid
