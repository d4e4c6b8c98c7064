import Plasmoid.TwoNodes

/-!
# What always holds of a party

`RegistryInv` is the invariant of a registry whose pids are fresh: its
particles are local, and nobody dies twice.  `PartyInv` adds the forwarder,
the guests and the messages of a party.  Both hold in every run in which no
pid counter wraps around.
-/

namespace Plasmoid

open Machine

namespace ParticleRegistry

/-- The invariant of a registry whose pids are fresh. -/
structure RegistryInv (reg : ParticleRegistry) : Prop where
  allLocal : reg.AllLocal
  counted : ∀ x, reg.Alive x → x.seq.toNat < reg.pidGen.nextSeq.toNat
  /-- Nobody dies twice, and the dead stay dead. -/
  deathsNodup : (reg.deaths.map (·.pid)).Nodup
  dead : ∀ d ∈ reg.deaths, ¬ reg.Alive d.pid ∧ d.pid.node = reg.me ∧
    d.pid.seq.toNat < reg.pidGen.nextSeq.toNat ∧ d.remoteLinks.Nodup

theorem registryInv_new (node : EndpointId) : RegistryInv (.new node) where
  allLocal x h := absurd h (AList.notMem_empty x)
  counted x h := absurd h (AList.notMem_empty x)
  deathsNodup := List.nodup_nil
  dead _ hd := absurd hd List.not_mem_nil

theorem RegistryInv.evolves {reg reg' : ParticleRegistry}
    (h : RegistryInv reg) (he : Evolves reg reg') : RegistryInv reg' := by
  obtain ⟨ds, heq, hnodup, hdead, -⟩ := he.deaths
  refine ⟨he.allLocal h.allLocal, ?_, ?_, ?_⟩
  · intro x hx
    rw [he.pidGen]
    exact h.counted x (he.alive x hx)
  · rw [heq, List.map_append]
    refine h.deathsNodup.append hnodup ?_
    intro p hp hp'
    obtain ⟨d, hd, rfl⟩ := List.mem_map.1 hp
    obtain ⟨d', hd', hpid⟩ := List.mem_map.1 hp'
    obtain ⟨-, s, hs, -⟩ := hdead d' hd'
    rw [hpid] at hs
    exact (h.dead d hd).1 (alive_iff.2 ⟨s, hs⟩)
  · intro d hd
    rw [heq] at hd
    rw [he.me, he.pidGen]
    rcases List.mem_append.1 hd with hd | hd
    · obtain ⟨hgone, hnode, hseq, hlinks⟩ := h.dead d hd
      exact ⟨fun hx => hgone (he.alive _ hx), hnode, hseq, hlinks⟩
    · obtain ⟨hgone, s, hs, hrep⟩ := hdead d hd
      have halive := alive_iff.2 ⟨s, hs⟩
      exact ⟨hgone, h.allLocal _ halive, h.counted _ halive, hrep.nodup⟩

/-- Rewriting the states of the living does not touch the invariant. -/
theorem RegistryInv.of_alive_iff {reg reg' : ParticleRegistry}
    (h : RegistryInv reg) (hgen : reg'.pidGen = reg.pidGen)
    (hdeaths : reg'.deaths = reg.deaths)
    (halive : ∀ x, reg'.Alive x ↔ reg.Alive x) : RegistryInv reg' := by
  have hme : reg'.me = reg.me := congrArg PidGenerator.node hgen
  refine ⟨?_, ?_, ?_, ?_⟩
  · intro x hx
    rw [hme]
    exact h.allLocal x ((halive x).1 hx)
  · intro x hx
    rw [hgen]
    exact h.counted x ((halive x).1 hx)
  · rw [hdeaths]
    exact h.deathsNodup
  · intro d hd
    rw [hdeaths] at hd
    rw [hme, hgen, halive]
    exact h.dead d hd

theorem RegistryInv.spawns {reg reg' : ParticleRegistry}
    (h : RegistryInv reg) (hs : Spawns reg reg')
    (hfresh : reg.pidGen.nextSeq.toNat + 1 < 2 ^ 64) : RegistryInv reg' := by
  have hme : reg'.me = reg.me := by
    rw [me, hs.pidGen]
    rfl
  have hnext : reg'.pidGen.nextSeq.toNat = reg.pidGen.nextSeq.toNat + 1 := by
    rw [hs.pidGen]
    show (reg.pidGen.nextSeq + 1).toNat = _
    rw [UInt64.toNat_add]
    exact Nat.mod_eq_of_lt hfresh
  have halive : ∀ x, reg'.Alive x → x = reg.pidGen.peek ∨ reg.Alive x := by
    intro x hx
    obtain ⟨s, hs'⟩ := alive_iff.1 hx
    rw [hs.state] at hs'
    split at hs'
    · exact Or.inl ‹_›
    · exact Or.inr (alive_iff.2 ⟨s, hs'⟩)
  have hpeek : reg.pidGen.peek.seq.toNat = reg.pidGen.nextSeq.toNat := rfl
  refine ⟨?_, ?_, ?_, ?_⟩
  · intro x hx
    rw [hme]
    rcases halive x hx with rfl | hx
    · rfl
    · exact h.allLocal x hx
  · intro x hx
    rcases halive x hx with rfl | hx
    · omega
    · have := h.counted x hx
      omega
  · rw [hs.deaths]
    exact h.deathsNodup
  · intro d hd
    rw [hs.deaths] at hd
    obtain ⟨hgone, hnode, hseq, hlinks⟩ := h.dead d hd
    refine ⟨?_, hme ▸ hnode, by omega, hlinks⟩
    intro hx
    rcases halive _ hx with heq | hx
    · rw [heq] at hseq
      omega
    · exact hgone hx

end ParticleRegistry

/-- A message of the kinds that two linked and monitored parties send: every
link and monitor names its target by pid. -/
def PeerMessage.expected : PeerMessage → Bool
  | .link _ (.pid _) | .monitor _ (.pid _) _ => true
  | .exit .. | .exitSignal .. | .down .. => true
  | _ => false

namespace ParticleRegistry

/-- Nothing but the relationships, the mailboxes and the living change. -/
structure Advances (reg reg' : ParticleRegistry) : Prop where
  inv : RegistryInv reg'
  pidGen : reg'.pidGen = reg.pidGen
  deaths : reg.deaths.length ≤ reg'.deaths.length

theorem RegistryInv.advances_of_evolves {reg reg' : ParticleRegistry}
    (h : RegistryInv reg) (he : Evolves reg reg') : Advances reg reg' := by
  obtain ⟨ds, heq, -⟩ := he.deaths
  refine ⟨h.evolves he, he.pidGen, ?_⟩
  rw [heq, List.length_append]
  omega

theorem RegistryInv.advances_modifyState {reg : ParticleRegistry}
    (h : RegistryInv reg) (pid : Pid) (f : ParticleState → ParticleState) :
    Advances reg (reg.modifyState pid f) :=
  ⟨h.of_alive_iff rfl rfl fun _ => alive_modifyState, rfl, le_refl _⟩

theorem Advances.trans {reg₁ reg₂ reg₃ : ParticleRegistry}
    (h₁ : Advances reg₁ reg₂) (h₂ : Advances reg₂ reg₃) :
    Advances reg₁ reg₃ :=
  ⟨h₂.inv, h₂.pidGen.trans h₁.pidGen, h₁.deaths.trans h₂.deaths⟩

theorem RegistryInv.advances_refl {reg : ParticleRegistry}
    (h : RegistryInv reg) : Advances reg reg :=
  ⟨h, rfl, le_refl _⟩

theorem RegistryInv.advances_monitorRemote {reg : ParticleRegistry}
    (h : RegistryInv reg) (watcher target : Pid) (r : UInt64) :
    Advances reg (reg.monitorRemote watcher target r) := by
  have h₁ := h.advances_modifyState watcher fun s =>
    { s with monitors := s.monitors.insert r target }
  exact h₁.trans (h₁.inv.advances_modifyState target _)

/-- An expected message is handled without an answer. -/
theorem RegistryInv.handle {reg : ParticleRegistry} (h : RegistryInv reg)
    {msg : PeerMessage} (hmsg : msg.expected = true) :
    Advances reg (reg.handlePeerMessage msg).1 ∧
      (reg.handlePeerMessage msg).2 = [] := by
  cases msg with
  | link source target =>
    cases target with
    | pid t => exact ⟨h.advances_modifyState t _, rfl⟩
    | name n => cases hmsg
  | unlink source target => cases hmsg
  | monitor watcher target r =>
    cases target with
    | pid t => exact ⟨h.advances_monitorRemote watcher t r, rfl⟩
    | name n => cases hmsg
  | demonitor watcher r => cases hmsg
  | exit source target reason =>
    exact ⟨h.advances_of_evolves
      (evolves_applyInheritedExit h.allLocal target source reason), rfl⟩
  | exitSignal source target reason =>
    rw [handlePeerMessage]
    cases reg.resolve target with
    | none => exact ⟨h.advances_refl, rfl⟩
    | some t =>
      exact ⟨h.advances_of_evolves
        (evolves_applyDirectedExit h.allLocal t source reason), rfl⟩
  | down source target r reason =>
    exact ⟨h.advances_modifyState target _, rfl⟩

theorem evolves_foldl {α : Type} {f : ParticleRegistry → α → ParticleRegistry}
    (hf : ∀ reg a, AllLocal reg → Evolves reg (f reg a)) (l : List α)
    {reg : ParticleRegistry} (hl : AllLocal reg) :
    Evolves reg (l.foldl f reg) := by
  induction l generalizing reg with
  | nil => exact .refl reg
  | cons a l ih => exact (hf reg a hl).trans (ih ((hf reg a hl).allLocal hl))

/-- The reactor evolves the registry, and then forgets the node.  If it
passes the node over there is nothing that a forget would drop on this side
of a link or monitor. -/
theorem loseNode_cases {reg : ParticleRegistry} (hl : AllLocal reg)
    (node : EndpointId) :
    (reg.relationshipsWithNode node = ([], []) ∧ reg.loseNode node = reg) ∨
    ∃ reg', Evolves reg reg' ∧ reg.loseNode node = reg'.forgetNode node := by
  unfold loseNode
  split
  · rename_i hnone
    exact Or.inl ⟨hnone, rfl⟩
  · rename_i links monitors hne heq
    refine Or.inr ⟨_, ?_, rfl⟩
    have h₁ : Evolves reg (links.foldl
        (fun reg l => reg.applyInheritedExit l.1 l.2 .noConnection) reg) :=
      evolves_foldl
        (fun _ l hl => evolves_applyInheritedExit hl l.1 l.2 .noConnection)
        links hl
    exact h₁.trans (evolves_foldl
      (fun reg m _ => evolves_sendSystem reg m.1 _) monitors (h₁.allLocal hl))

theorem RegistryInv.loseNode {reg : ParticleRegistry} (h : RegistryInv reg)
    (node : EndpointId) : Advances reg (reg.loseNode node) := by
  rcases loseNode_cases h.allLocal node with ⟨-, heq⟩ | ⟨reg', he, heq⟩
  · rw [heq]
    exact h.advances_refl
  · rw [heq]
    have h' := h.advances_of_evolves he
    exact h'.trans ⟨h'.inv.of_alive_iff rfl rfl fun _ => alive_mapStates, rfl,
      le_refl _⟩

end ParticleRegistry

open ParticleRegistry

/-- The invariant of a party. -/
structure PartyInv (p : Party) : Prop where
  reg : p.reg.RegistryInv
  apart : p.reg.me ≠ p.peer
  hosted : ∀ x ∈ p.hosted, x.node = p.reg.me ∧
    x.seq.toNat < p.reg.pidGen.nextSeq.toNat
  cursor : p.cursor ≤ p.reg.deaths.length
  expected : ∀ m ∈ p.outbox, m.expected = true
  /-- Only guests of this node ask for anything. -/
  askers : ∀ x y, .askedLink x y ∈ p.log → x ∈ p.hosted
  watchers : ∀ w y r, .askedMonitor w y r ∈ p.log → w ∈ p.hosted

namespace PartyInv

variable {codec : WireCodec PeerMessage} {p : Party}

theorem new {node peer : EndpointId} (h : node ≠ peer) :
    PartyInv (.new node peer) where
  reg := registryInv_new node
  apart := h
  hosted x hx := absurd hx (KeySet.not_mem_empty x)
  cursor := Nat.zero_le _
  expected _ h := absurd h List.not_mem_nil
  askers _ _ h := absurd h List.not_mem_nil
  watchers _ _ _ h := absurd h List.not_mem_nil

theorem setReg (h : PartyInv p) {reg : ParticleRegistry}
    (ha : Advances p.reg reg) : PartyInv { p with reg } where
  reg := ha.inv
  apart := by
    have hme : reg.me = p.reg.me := congrArg PidGenerator.node ha.pidGen
    rw [hme]
    exact h.apart
  hosted x hx := by
    have hme : reg.me = p.reg.me := congrArg PidGenerator.node ha.pidGen
    rw [hme, ha.pidGen]
    exact h.hosted x hx
  cursor := h.cursor.trans ha.deaths
  expected := h.expected
  askers := h.askers
  watchers := h.watchers

theorem setCursor (h : PartyInv p) {cursor : Nat}
    (hc : cursor ≤ p.reg.deaths.length) : PartyInv { p with cursor } :=
  { h with cursor := hc }

theorem send (h : PartyInv p) {msgs : List (EndpointId × PeerMessage)}
    (hm : ∀ m ∈ msgs, m.2.expected = true) : PartyInv (p.send codec msgs) :=
  { h with
    expected := by
      intro m hmem
      rcases PeerNode.mem_outbox_send.1 hmem with hmem | ⟨hmem, -⟩
      · exact h.expected m hmem
      · exact hm _ hmem }

theorem note (h : PartyInv p) {events : List SignalEvent}
    (hlinks : ∀ x y, .askedLink x y ∈ events → x ∈ p.hosted)
    (hmonitors : ∀ w y r, .askedMonitor w y r ∈ events → w ∈ p.hosted) :
    PartyInv (p.note events) :=
  { h with
    askers := fun x y hmem =>
      (List.mem_append.1 hmem).elim (h.askers x y) (hlinks x y)
    watchers := fun w y r hmem =>
      (List.mem_append.1 hmem).elim (h.watchers w y r) (hmonitors w y r) }

theorem spawn (h : PartyInv p) (component : String) (name : Option String)
    (hfresh : p.reg.pidGen.nextSeq.toNat + 1 < 2 ^ 64) :
    PartyInv (p.spawn component name) := by
  unfold Party.spawn
  split
  · rename_i reg pid hspawn
    obtain ⟨rfl, hs⟩ := spawn_ok hspawn
    have hreg := h.reg.spawns hs hfresh
    have hme : reg.me = p.reg.me := by
      rw [me, hs.pidGen]
      rfl
    have hnext : reg.pidGen.nextSeq.toNat = p.reg.pidGen.nextSeq.toNat + 1 := by
      rw [hs.pidGen]
      show (p.reg.pidGen.nextSeq + 1).toNat = _
      rw [UInt64.toNat_add]
      exact Nat.mod_eq_of_lt hfresh
    refine ⟨hreg, ?_, ?_, ?_, h.expected, ?_, ?_⟩
    · show reg.me ≠ p.peer
      rw [hme]
      exact h.apart
    · intro x hx
      show x.node = reg.me ∧ x.seq.toNat < reg.pidGen.nextSeq.toNat
      rw [hme, hnext]
      rcases KeySet.mem_insert.1 hx with rfl | hx
      · exact ⟨rfl, Nat.lt_succ_self _⟩
      · obtain ⟨hnode, hseq⟩ := h.hosted x hx
        exact ⟨hnode, by omega⟩
    · show p.cursor ≤ reg.deaths.length
      rw [hs.deaths]
      exact h.cursor
    · intro x y hmem
      exact KeySet.mem_insert.2 (Or.inr (h.askers x y hmem))
    · intro w y r hmem
      exact KeySet.mem_insert.2 (Or.inr (h.watchers w y r hmem))
  · exact h

theorem link (h : PartyInv p) {x : Pid} (hx : x ∈ p.hosted) (y : Pid) :
    PartyInv (p.link codec x y) := by
  have hreg := h.setReg (h.reg.advances_modifyState x fun s =>
    { s with links := s.links.insert y })
  refine (hreg.send ?_).note ?_ ?_
  · intro m hm
    cases List.mem_singleton.1 hm
    rfl
  · intro a b hmem
    rcases List.mem_append.1 hmem with hmem | hmem
    · unfold Party.linkEvents at hmem
      split at hmem <;> simp at hmem
    · cases List.mem_singleton.1 hmem
      exact hx
  · intro w b r hmem
    rcases List.mem_append.1 hmem with hmem | hmem
    · unfold Party.linkEvents at hmem
      split at hmem <;> simp at hmem
    · simp at hmem

theorem monitor (h : PartyInv p) {w : Pid} (hw : w ∈ p.hosted) (y : Pid) :
    PartyInv (p.monitor codec w y) := by
  have hreg := h.setReg (h.reg.advances_monitorRemote w y (p.nextRef w))
  have hrefs : PartyInv { p with
      reg := p.reg.monitorRemote w y (p.nextRef w)
      refs := p.refs.insert w (p.nextRef w + 1) } := { hreg with }
  refine (hrefs.send ?_).note ?_ ?_
  · intro m hm
    cases List.mem_singleton.1 hm
    rfl
  · intro a b hmem
    simp at hmem
  · intro a b r hmem
    cases List.mem_singleton.1 hmem
    exact hw

theorem forward (h : PartyInv p) {p' : Party}
    (hp : p.forward codec = some p') : PartyInv p' := by
  rcases Party.forward_cases hp with ⟨-, rfl⟩ | ⟨death, -, hdeath, rfl⟩
  · exact h.setCursor (Nat.sub_le _ _)
  · obtain ⟨hlt, -⟩ := List.getElem?_eq_some_iff.1 hdeath
    refine (h.setCursor hlt).send ?_
    intro m hm
    rcases List.mem_append.1 hm with hm | hm
    · obtain ⟨x, -, rfl⟩ := List.mem_map.1 hm
      rfl
    · obtain ⟨x, -, rfl⟩ := List.mem_map.1 hm
      rfl

theorem receive (h : PartyInv p) {msg : PeerMessage}
    (hmsg : msg.expected = true) : PartyInv (p.receive codec msg) := by
  obtain ⟨hreg, hreply⟩ := h.reg.handle hmsg
  refine ((h.setReg hreg).send ?_).note ?_ ?_
  · rw [hreply]
    exact fun m hm => absurd hm List.not_mem_nil
  · intro x y hmem
    cases msg <;> simp only [Party.arrivalEvents, Party.linkEvents] at hmem <;>
      repeat' first | split at hmem | simp at hmem
  · intro w y r hmem
    cases msg <;> simp only [Party.arrivalEvents, Party.linkEvents] at hmem <;>
      repeat' first | split at hmem | simp at hmem

end PartyInv

/-! ## The loss of the peer -/

/-- The reactor changes the registry as `loseNode` says, and it logs at most
one signal for each relationship it found. -/
theorem Party.lose_eq (p : Party) :
    ∃ exits downs : List SignalEvent,
      p.lose = { p with
        reg := p.reg.loseNode p.peer
        log := p.log ++ (exits ++ downs) } ∧
      exits.Sublist ((p.reg.relationshipsWithNode p.peer).1.map
        fun l => .exitByLoss l.1 l.2) ∧
      downs.Sublist ((p.reg.relationshipsWithNode p.peer).2.map
        fun m => .downByLoss m.1 m.2.1 m.2.2) := by
  have hlinks : ∀ (l : List (Pid × Pid)) (p : Party), ∃ events,
      l.foldl fireLink p = { p with
        reg := (l.foldl fireLink p).reg, log := p.log ++ events } ∧
      events.Sublist (l.map fun l => .exitByLoss l.1 l.2) := by
    intro l
    induction l with
    | nil =>
      intro p
      exact ⟨[], by simp, List.Sublist.refl _⟩
    | cons a l ih =>
      intro p
      obtain ⟨events, heq, hsub⟩ := ih (p.fireLink a)
      refine ⟨(if p.reg.Alive a.1 then [.exitByLoss a.1 a.2] else []) ++ events,
        ?_, ?_⟩
      · rw [List.foldl_cons, heq]
        simp [fireLink, note]
      · rw [List.map_cons]
        split
        · exact hsub.cons_cons _
        · exact hsub.cons _
  have hmonitors : ∀ (l : List (Pid × Pid × UInt64)) (p : Party), ∃ events,
      l.foldl fireMonitor p = { p with
        reg := (l.foldl fireMonitor p).reg, log := p.log ++ events } ∧
      events.Sublist (l.map fun m => .downByLoss m.1 m.2.1 m.2.2) := by
    intro l
    induction l with
    | nil =>
      intro p
      exact ⟨[], by simp, List.Sublist.refl _⟩
    | cons a l ih =>
      intro p
      obtain ⟨events, heq, hsub⟩ := ih (p.fireMonitor a)
      refine ⟨(if p.reg.Alive a.1 then [.downByLoss a.1 a.2.1 a.2.2] else []) ++
        events, ?_, ?_⟩
      · rw [List.foldl_cons, heq]
        simp [fireMonitor, note]
      · rw [List.map_cons]
        split
        · exact hsub.cons_cons _
        · exact hsub.cons _
  rw [← reg_lose]
  unfold lose
  split
  · exact ⟨[], [], by simp, List.nil_sublist _, List.nil_sublist _⟩
  · rename_i links monitors hne heq
    rw [heq]
    obtain ⟨exits, hexits, hsub⟩ := hlinks links p
    obtain ⟨downs, hdowns, hsub'⟩ := hmonitors monitors (links.foldl fireLink p)
    refine ⟨exits, downs, ?_, hsub, hsub'⟩
    rw [hdowns, hexits]
    simp

theorem PartyInv.lose {p : Party} (h : PartyInv p) : PartyInv p.lose := by
  obtain ⟨exits, downs, heq, hexits, hdowns⟩ := p.lose_eq
  have hevents : ∀ e ∈ exits ++ downs,
      (∃ x y, e = .exitByLoss x y) ∨ ∃ w y r, e = .downByLoss w y r := by
    intro e he
    rcases List.mem_append.1 he with he | he
    · obtain ⟨l, -, rfl⟩ := List.mem_map.1 (hexits.subset he)
      exact Or.inl ⟨_, _, rfl⟩
    · obtain ⟨m, -, rfl⟩ := List.mem_map.1 (hdowns.subset he)
      exact Or.inr ⟨_, _, _, rfl⟩
  rw [heq]
  refine (h.setReg (h.reg.loseNode p.peer)).note ?_ ?_
  · intro x y hmem
    rcases hevents _ hmem with ⟨_, _, h⟩ | ⟨_, _, _, h⟩ <;> cases h
  · intro w y r hmem
    rcases hevents _ hmem with ⟨_, _, h⟩ | ⟨_, _, _, h⟩ <;> cases h

/-! ## Both parties -/

namespace TwoNodes

/-- No pid counter is about to wrap around. -/
def FreshPids (s : TwoNodes) : Side × PartyAction → Prop
  | (d, .spawn _ _) => (s d).reg.pidGen.nextSeq.toNat + 1 < 2 ^ 64
  | _ => True

/-- The invariant of the two parties. -/
structure BothInv (s : TwoNodes) : Prop where
  party : ∀ d, PartyInv (s d)
  peer : ∀ d, (s d).peer = (s d.other).reg.me

theorem bothInv_start {left right : EndpointId} (h : left ≠ right) :
    BothInv (start left right) where
  party d := by
    cases d
    · exact .new h
    · exact .new h.symm
  peer d := by cases d <;> rfl

end TwoNodes

section Act

variable {codec : WireCodec PeerMessage}

theorem PartyInv.act {p p' : Party} {a : PartyAction} (h : PartyInv p)
    (hfresh : ∀ component name, a = .spawn component name →
      p.reg.pidGen.nextSeq.toNat + 1 < 2 ^ 64)
    (hact : p.act codec a = some p') : PartyInv p' := by
  cases a with
  | spawn component name =>
    cases hact
    exact h.spawn component name (hfresh component name rfl)
  | perform op =>
    simp only [Party.act] at hact
    split at hact
    · rename_i hop
      cases hact
      exact h.setReg (h.reg.advances_of_evolves
        (evolves_perform h.reg.allLocal hop))
    · cases hact
  | link x y =>
    simp only [Party.act] at hact
    split at hact
    · rename_i hx
      cases hact
      exact h.link hx.1 y
    · cases hact
  | monitor w y =>
    simp only [Party.act] at hact
    split at hact
    · rename_i hw
      cases hact
      exact h.monitor hw.1 y
    · cases hact
  | exitSignal x target reason =>
    simp only [Party.act] at hact
    split at hact
    · cases hact
      refine h.send ?_
      intro m hm
      cases List.mem_singleton.1 hm
      rfl
    · cases hact
  | forward => exact h.forward hact
  | lose =>
    cases hact
    exact h.lose
  | deliver i => cases hact
  | drop i => cases hact

theorem PartyInv.takeFrom {p : Party} (h : PartyInv p) (i : Nat) :
    PartyInv (TwoNodes.takeFrom p i) :=
  { h with expected := fun m hm => h.expected m (List.mem_of_mem_eraseIdx hm) }

/-- The party is on the same node and has the same peer. -/
def SameNode (p p' : Party) : Prop :=
  p'.peer = p.peer ∧ p'.reg.me = p.reg.me

theorem sameNode_of_advances {p : Party} {reg : ParticleRegistry}
    (h : Advances p.reg reg) : SameNode p { p with reg } :=
  ⟨rfl, congrArg PidGenerator.node h.pidGen⟩

/-- No action changes who a party is. -/
theorem PartyInv.sameNode_act {p p' : Party} {a : PartyAction}
    (h : PartyInv p) (hact : p.act codec a = some p') : SameNode p p' := by
  cases a with
  | spawn component name =>
    cases hact
    unfold Party.spawn
    split
    · rename_i reg pid hspawn
      obtain ⟨-, hs⟩ := spawn_ok hspawn
      refine ⟨rfl, ?_⟩
      show reg.pidGen.node = p.reg.pidGen.node
      rw [hs.pidGen]
      rfl
    · exact ⟨rfl, rfl⟩
  | perform op =>
    simp only [Party.act] at hact
    split at hact
    · rename_i hop
      cases hact
      exact sameNode_of_advances (h.reg.advances_of_evolves
        (evolves_perform h.reg.allLocal hop))
    · cases hact
  | link x y =>
    simp only [Party.act] at hact
    split at hact
    · cases hact
      exact ⟨rfl, rfl⟩
    · cases hact
  | monitor w y =>
    simp only [Party.act] at hact
    split at hact
    · cases hact
      exact ⟨rfl, rfl⟩
    · cases hact
  | exitSignal x target reason =>
    simp only [Party.act] at hact
    split at hact
    · cases hact
      exact ⟨rfl, rfl⟩
    · cases hact
  | forward =>
    rcases Party.forward_cases hact with ⟨-, rfl⟩ | ⟨death, -, -, rfl⟩
    · exact ⟨rfl, rfl⟩
    · exact ⟨rfl, rfl⟩
  | lose =>
    cases hact
    obtain ⟨exits, downs, heq, -, -⟩ := p.lose_eq
    rw [heq]
    exact ⟨rfl, congrArg PidGenerator.node (h.reg.loseNode p.peer).pidGen⟩
  | deliver i => cases hact
  | drop i => cases hact

namespace TwoNodes

/-- Both parties keep the invariant. -/
theorem BothInv.step {s t : TwoNodes} {a : Side × PartyAction}
    (h : BothInv s) (hok : s.FreshPids a) (hstep : s.step codec a = some t) :
    BothInv t := by
  obtain ⟨d, a⟩ := a
  -- It is enough that each party keeps its invariant and its identity.
  have hsides : ∀ {t : TwoNodes},
      (∀ e, PartyInv (t e) ∧ SameNode (s e) (t e)) → BothInv t := by
    intro t ht
    refine ⟨fun e => (ht e).1, fun e => ?_⟩
    rw [(ht e).2.1, (ht e.other).2.2]
    exact h.peer e
  rcases step_cases hstep with ⟨p, hact, rfl⟩ | ⟨i, msg, rfl, hmsg, rfl⟩ |
    ⟨i, rfl, rfl⟩
  · refine hsides fun e => ?_
    rcases Side.eq_or_eq_other d e with rfl | rfl
    · rw [set_self]
      refine ⟨(h.party e).act ?_ hact, (h.party e).sameNode_act hact⟩
      rintro component name rfl
      exact hok
    · rw [set_ne _ _ (Side.other_ne d)]
      exact ⟨h.party _, rfl, rfl⟩
  · have hexp : msg.expected = true :=
      (h.party d.other).expected msg (List.mem_of_getElem? hmsg)
    refine hsides fun e => ?_
    rcases Side.eq_or_eq_other d e with rfl | rfl
    · rw [set_self]
      exact ⟨(h.party e).receive hexp,
        sameNode_of_advances ((h.party e).reg.handle hexp).1⟩
    · rw [set_ne _ _ (Side.other_ne d), set_self]
      exact ⟨(h.party _).takeFrom i, rfl, rfl⟩
  · refine hsides fun e => ?_
    rcases Side.eq_or_eq_other d e with rfl | rfl
    · rw [set_ne _ _ (Side.other_ne e).symm]
      exact ⟨h.party e, rfl, rfl⟩
    · rw [set_self]
      exact ⟨(h.party _).takeFrom i, rfl, rfl⟩

end TwoNodes

end Act

end Plasmoid
