import Plasmoid.SignalFlow

/-!
# Cross-node relationships fire at most once

A link fires when its holder is sent an exit signal for it, and a monitor when
its watcher is sent a down signal.  Two paths do that for a particle on
another node: an arriving message and the loss of the node.  The first never
retires the link or monitor it fires, and never checks that it is still
recorded, so the two can fire one relationship twice.

`FiresIntact` is the condition that this does not happen: a message finds the
relationship recorded, and the loss of the node finds none whose message has
already arrived.  Under it every relationship fires at most once
(`fires_at_most_once`).  The invariant is `Records`, which compares, in one
party, what fired with what was established.  It stands on `Flow`.
-/

namespace Plasmoid

open Machine ParticleRegistry

/-! ## What the reactor finds -/

namespace ParticleRegistry

theorem mem_relationshipsWithNode_links {reg : ParticleRegistry}
    {node : EndpointId} {x y : Pid} :
    (x, y) ∈ (reg.relationshipsWithNode node).1 ↔
      ∃ s, reg.state x = some s ∧ y ∈ s.links ∧ y.node = node := by
  simp only [relationshipsWithNode, List.mem_flatMap, List.mem_map,
    List.mem_filter]
  constructor
  · rintro ⟨e, he, z, ⟨hz, hnode⟩, heq⟩
    cases heq
    exact ⟨e.2, AList.mem_lookup_iff.2 he, hz, Pid.isLocalTo_iff.1 hnode⟩
  · rintro ⟨s, hs, hy, hnode⟩
    exact ⟨⟨x, s⟩, AList.mem_lookup_iff.1 hs, y,
      ⟨hy, Pid.isLocalTo_iff.2 hnode⟩, rfl⟩

theorem mem_relationshipsWithNode_monitors {reg : ParticleRegistry}
    {node : EndpointId} {w y : Pid} {r : UInt64} :
    (w, y, r) ∈ (reg.relationshipsWithNode node).2 ↔
      ∃ s, reg.state w = some s ∧ s.monitors.lookup r = some y ∧
        y.node = node := by
  simp only [relationshipsWithNode, List.mem_flatMap, List.mem_map,
    List.mem_filter]
  constructor
  · rintro ⟨e, he, m, ⟨hm, hnode⟩, heq⟩
    cases heq
    exact ⟨e.2, AList.mem_lookup_iff.2 he, AList.mem_lookup_iff.2 hm,
      Pid.isLocalTo_iff.1 hnode⟩
  · rintro ⟨s, hs, hy, hnode⟩
    exact ⟨⟨w, s⟩, AList.mem_lookup_iff.1 hs, ⟨r, y⟩,
      ⟨AList.mem_lookup_iff.1 hy, Pid.isLocalTo_iff.2 hnode⟩, rfl⟩

/-- The lists of one state are found under its key, so distinct keys have
nothing in common. -/
private theorem nodup_flatMap_entries {β : Type}
    (t : Table Pid ParticleState) (f : ParticleState → List β)
    (hf : ∀ s, (f s).Nodup) (g : Pid → β → Pid × β)
    (hg : ∀ x b, g x b = (x, b)) :
    (t.entries.flatMap fun e => (f e.2).map (g e.1)).Nodup := by
  have hkeys := t.nodupKeys
  rw [List.nodupKeys_iff_pairwise] at hkeys
  refine List.nodup_flatMap.2 ⟨fun e _ => ?_, ?_⟩
  · refine (hf e.2).map ?_
    intro a b hab
    rw [hg, hg] at hab
    exact (Prod.mk.inj hab).2
  · refine hkeys.imp ?_
    intro e e' hne a ha ha'
    obtain ⟨b, -, rfl⟩ := List.mem_map.1 ha
    obtain ⟨b', -, heq⟩ := List.mem_map.1 ha'
    rw [hg, hg] at heq
    exact hne (Prod.mk.inj heq).1.symm

theorem nodup_relationshipsWithNode_links (reg : ParticleRegistry)
    (node : EndpointId) : (reg.relationshipsWithNode node).1.Nodup :=
  nodup_flatMap_entries reg.particleStates
    (fun s => s.links.toList.filter fun q : Pid => q.isLocalTo node)
    (fun s => s.links.nodup.filter _) (fun x q => (x, q)) fun _ _ => rfl

theorem nodup_relationshipsWithNode_monitors (reg : ParticleRegistry)
    (node : EndpointId) : (reg.relationshipsWithNode node).2.Nodup := by
  have hmon : ∀ s : ParticleState, ((s.monitors.entries.filter
      (·.2.isLocalTo node)).map fun m => (m.2, m.1)).Nodup := by
    intro s
    have hkeys := s.monitors.nodupKeys
    rw [List.nodupKeys_iff_pairwise] at hkeys
    refine List.pairwise_map.2 ((hkeys.filter _).imp ?_)
    intro m m' hne heq
    exact hne (Prod.mk.inj heq).2
  have h := nodup_flatMap_entries reg.particleStates _ hmon
    (fun w m => (w, m)) fun _ _ => rfl
  simp only [List.map_map, Function.comp_def] at h
  exact h

end ParticleRegistry

/-! ## What fired and what was established -/

variable {codec : WireCodec PeerMessage}

/-- In one party, nothing fired more often than it was established, and what
is still recorded may fire once more, unless its message has arrived. -/
structure Records (p : Party) : Prop where
  links : ∀ x y, y.node = p.peer → p.exitSignals x y ≤ p.linksMade x y ∧
    ∀ s, p.reg.state x = some s → y ∈ s.links →
      exitsByMessage p.log x y = 0 → p.exitSignals x y + 1 ≤ p.linksMade x y
  monitors : ∀ w y r, p.downSignals w y r ≤ p.monitorsMade w y r ∧
    ∀ s, p.reg.state w = some s → s.monitors.lookup r = some y →
      downsByMessage p.log w y r = 0 →
      p.downSignals w y r + 1 ≤ p.monitorsMade w y r
  refs : ∀ w r, p.monitorsForRef w r ≤ 1 ∧
    (0 < p.monitorsForRef w r → r.toNat < (p.nextRef w).toNat)

theorem records_new (node peer : EndpointId) : Records (.new node peer) where
  links x y _ := ⟨Nat.zero_le _, fun s hs => by
    cases (show none = some s from hs)⟩
  monitors w y r := ⟨Nat.zero_le _, fun s hs => by
    cases (show none = some s from hs)⟩
  refs w r := ⟨Nat.zero_le _, fun h => absurd h (Nat.lt_irrefl 0)⟩

/-- The relationships of the new registry are among those of the old. -/
structure Recorded (peer : EndpointId) (reg reg' : ParticleRegistry) :
    Prop where
  links : ∀ x s' y, reg'.state x = some s' → y.node = peer → y ∈ s'.links →
    ∃ s, reg.state x = some s ∧ y ∈ s.links
  monitors : ∀ w s' r y, reg'.state w = some s' →
    s'.monitors.lookup r = some y →
    ∃ s, reg.state w = some s ∧ s.monitors.lookup r = some y

theorem Records.setReg {p : Party} (h : Records p) {reg : ParticleRegistry}
    (hreg : Recorded p.peer p.reg reg) : Records { p with reg } where
  links x y hy := by
    refine ⟨(h.links x y hy).1, fun s' hs' hmem => ?_⟩
    obtain ⟨s, hs, hmem⟩ := hreg.links x s' y hs' hy hmem
    exact (h.links x y hy).2 s hs hmem
  monitors w y r := by
    refine ⟨(h.monitors w y r).1, fun s' hs' hmem => ?_⟩
    obtain ⟨s, hs, hmem⟩ := hreg.monitors w s' r y hs' hmem
    exact (h.monitors w y r).2 s hs hmem
  refs := h.refs

theorem recorded_evolves {p : Party} (hp : PartyInv p)
    {reg : ParticleRegistry} (he : Evolves p.reg reg) :
    Recorded p.peer p.reg reg where
  links x s' y hs' hy hmem := by
    obtain ⟨s, hs, hsame⟩ := he.kept x s' hs'
    refine ⟨s, hs, (hsame.links y ?_).1 hmem⟩
    rw [hy]
    exact hp.apart.symm
  monitors w s' r y hs' hmem := by
    obtain ⟨s, hs, hsame⟩ := he.kept w s' hs'
    exact ⟨s, hs, hsame.monitors r y hmem⟩

theorem recorded_spawns (peer : EndpointId) {reg reg' : ParticleRegistry}
    (h : Spawns reg reg') : Recorded peer reg reg' where
  links x s' y hs' _ hmem := by
    rw [h.state] at hs'
    split at hs'
    · cases hs'
      exact absurd hmem (KeySet.not_mem_empty y)
    · exact ⟨s', hs', hmem⟩
  monitors w s' r y hs' hmem := by
    rw [h.state] at hs'
    split at hs'
    · cases hs'
      rw [show ParticleState.new.monitors.lookup r = none from
        AList.lookup_empty r] at hmem
      cases hmem
    · exact ⟨s', hs', hmem⟩

/-- An event that sends a particle a signal. -/
def SignalEvent.fires : SignalEvent → Bool
  | .exitByMessage .. | .exitByLoss .. | .downByMessage .. | .downByLoss .. =>
    true
  | _ => false

/-- An event that only says that a request was sent or has arrived. -/
def SignalEvent.isSilent : SignalEvent → Bool
  | .askedLink .. | .linkArrived .. | .monitorArrived .. => true
  | _ => false

/-- Where no event fires, nothing that fires is counted. -/
theorem fired_eq_zero {events : List SignalEvent}
    (h : ∀ e ∈ events, e.fires = false) {p : SignalEvent → Bool}
    (hp : ∀ e, p e = true → e.fires = true) {loss : SignalEvent}
    (hloss : loss.fires = true) : events.countP p + events.count loss = 0 := by
  rw [Nat.add_eq_zero_iff]
  constructor
  · refine List.countP_eq_zero.2 fun e he hcounted => ?_
    exact Bool.false_ne_true ((h e he).symm.trans (hp e hcounted))
  · refine List.count_eq_zero.2 fun he => ?_
    exact Bool.false_ne_true ((h loss he).symm.trans hloss)

theorem exits_eq_zero {events : List SignalEvent}
    (h : ∀ e ∈ events, e.fires = false) (x y : Pid) :
    exitsByMessage events x y + events.count (.exitByLoss x y) = 0 := by
  refine fired_eq_zero h (fun e he => ?_) rfl
  cases e <;> first | rfl | cases he

theorem downs_eq_zero {events : List SignalEvent}
    (h : ∀ e ∈ events, e.fires = false) (w y : Pid) (r : UInt64) :
    downsByMessage events w y r + events.count (.downByLoss w y r) = 0 := by
  refine fired_eq_zero h (fun e he => ?_) rfl
  cases e <;> first | rfl | cases he

theorem fires_of_isSilent {e : SignalEvent} (h : e.isSilent = true) :
    e.fires = false := by
  cases e <;> first | rfl | cases h

theorem linkEvents_fires {reg : ParticleRegistry} {x y : Pid} :
    ∀ e ∈ Party.linkEvents reg x y, e.fires = false := by
  intro e he
  unfold Party.linkEvents at he
  split at he
  · cases List.mem_singleton.1 he
    rfl
  · cases he

theorem monitorFor_linkEvents (reg : ParticleRegistry) (x y w : Pid)
    (r : UInt64) : (Party.linkEvents reg x y).countP
      (SignalEvent.isMonitorFor w r) = 0 := by
  unfold Party.linkEvents
  split <;> rfl

private theorem monitorFor_silent {events : List SignalEvent}
    (h : ∀ e ∈ events, e.isSilent = true) (w : Pid) (r : UInt64) :
    events.countP (SignalEvent.isMonitorFor w r) = 0 := by
  refine List.countP_eq_zero.2 fun e he => ?_
  have hkind := h e he
  cases e <;> first | exact Bool.false_ne_true | cases hkind

/-! ## More events -/

/-- `x` has recorded its half of a link to `y`. -/
def HasLink (reg : ParticleRegistry) (x y : Pid) : Prop :=
  ∃ s, reg.state x = some s ∧ y ∈ s.links

def HasMonitor (reg : ParticleRegistry) (w y : Pid) (r : UInt64) : Prop :=
  ∃ s, reg.state w = some s ∧ s.monitors.lookup r = some y

theorem Recorded.hasLink {peer : EndpointId} {reg reg' : ParticleRegistry}
    (h : Recorded peer reg reg') {x y : Pid} (hy : y.node = peer)
    (hlink : HasLink reg' x y) : HasLink reg x y := by
  obtain ⟨s', hs', hmem⟩ := hlink
  exact h.links x s' y hs' hy hmem

theorem Recorded.hasMonitor {peer : EndpointId} {reg reg' : ParticleRegistry}
    (h : Recorded peer reg reg') {w y : Pid} {r : UInt64}
    (hmonitor : HasMonitor reg' w y r) : HasMonitor reg w y r := by
  obtain ⟨s', hs', hmem⟩ := hmonitor
  exact h.monitors w s' r y hs' hmem

/-- A relationship does not fire, or it was recorded, had no message before,
and has had one if it is still there. -/
def MayFire (fires byMessage before : Nat) (recorded left : Prop) : Prop :=
  fires = 0 ∨ fires ≤ 1 ∧ recorded ∧ before = 0 ∧ (left → 0 < byMessage)

private theorem fires_grow {fired made before fires byMessage new : Nat}
    {recorded left : Prop}
    (h : fired ≤ made ∧ (recorded → before = 0 → fired + 1 ≤ made))
    (hkept : left → recorded ∨ 0 < new)
    (hmay : MayFire fires byMessage before recorded left) :
    fired + fires ≤ made + new ∧
      (left → before + byMessage = 0 → fired + fires + 1 ≤ made + new) := by
  obtain ⟨hle, hlt⟩ := h
  rcases hmay with hnone | ⟨hone, hrecorded, hfirst, hspent⟩
  · refine ⟨by omega, fun hleft hzero => ?_⟩
    rcases hkept hleft with hrecorded | hnew
    · have := hlt hrecorded (by omega)
      omega
    · omega
  · have := hlt hrecorded hfirst
    refine ⟨by omega, fun hleft hzero => ?_⟩
    have := hspent hleft
    omega

/-- A party whose log has grown: what is new in the registry was established,
and what fires may fire. -/
theorem Records.grow {p p' : Party} (h : Records p) (hpeer : p'.peer = p.peer)
    {events : List SignalEvent} (hlog : p'.log = p.log ++ events)
    (hlinks : ∀ x y, y.node = p.peer → HasLink p'.reg x y →
      HasLink p.reg x y ∨ 0 < events.count (.linked x y))
    (hmonitors : ∀ w y r, HasMonitor p'.reg w y r →
      HasMonitor p.reg w y r ∨ 0 < events.count (.askedMonitor w y r))
    (hexits : ∀ x y, y.node = p.peer → MayFire
      (exitsByMessage events x y + events.count (.exitByLoss x y))
      (exitsByMessage events x y) (exitsByMessage p.log x y)
      (HasLink p.reg x y) (HasLink p'.reg x y))
    (hdowns : ∀ w y r, MayFire
      (downsByMessage events w y r + events.count (.downByLoss w y r))
      (downsByMessage events w y r) (downsByMessage p.log w y r)
      (HasMonitor p.reg w y r) (HasMonitor p'.reg w y r))
    (hrefs : ∀ w r, p'.monitorsForRef w r ≤ 1 ∧
      (0 < p'.monitorsForRef w r → r.toNat < (p'.nextRef w).toNat)) :
    Records p' where
  links x y hy := by
    rw [hpeer] at hy
    have hfired : p'.exitSignals x y = p.exitSignals x y +
        (exitsByMessage events x y + events.count (.exitByLoss x y)) := by
      simp only [Party.exitSignals, hlog, exitsByMessage_append,
        List.count_append]
      omega
    have hmade : p'.linksMade x y =
        p.linksMade x y + events.count (.linked x y) := by
      simp only [Party.linksMade, hlog, List.count_append]
    obtain ⟨hle, hlt⟩ := h.links x y hy
    have hold : HasLink p.reg x y → exitsByMessage p.log x y = 0 →
        p.exitSignals x y + 1 ≤ p.linksMade x y := by
      rintro ⟨s, hs, hmem⟩
      exact hlt s hs hmem
    obtain ⟨hle', hlt'⟩ :=
      fires_grow ⟨hle, hold⟩ (hlinks x y hy) (hexits x y hy)
    rw [hfired, hmade, hlog, exitsByMessage_append]
    exact ⟨hle', fun s hs hmem => hlt' ⟨s, hs, hmem⟩⟩
  monitors w y r := by
    have hfired : p'.downSignals w y r = p.downSignals w y r +
        (downsByMessage events w y r + events.count (.downByLoss w y r)) := by
      simp only [Party.downSignals, hlog, downsByMessage_append,
        List.count_append]
      omega
    have hmade : p'.monitorsMade w y r =
        p.monitorsMade w y r + events.count (.askedMonitor w y r) := by
      simp only [Party.monitorsMade, hlog, List.count_append]
    obtain ⟨hle, hlt⟩ := h.monitors w y r
    have hold : HasMonitor p.reg w y r → downsByMessage p.log w y r = 0 →
        p.downSignals w y r + 1 ≤ p.monitorsMade w y r := by
      rintro ⟨s, hs, hmem⟩
      exact hlt s hs hmem
    obtain ⟨hle', hlt'⟩ :=
      fires_grow ⟨hle, hold⟩ (hmonitors w y r) (hdowns w y r)
    rw [hfired, hmade, hlog, downsByMessage_append]
    exact ⟨hle', fun s hs hmem => hlt' ⟨s, hs, hmem⟩⟩
  refs := hrefs

/-- Nothing fires, and the links and monitors made so far stay made. -/
theorem Records.note {p : Party} (h : Records p) {events : List SignalEvent}
    (hfires : ∀ e ∈ events, e.fires = false)
    (hrefs : ∀ w r, (p.note events).monitorsForRef w r ≤ 1 ∧
      (0 < (p.note events).monitorsForRef w r →
        r.toNat < (p.nextRef w).toNat)) : Records (p.note events) :=
  h.grow rfl rfl (fun _ _ _ hlink => Or.inl hlink)
    (fun _ _ _ hmonitor => Or.inl hmonitor)
    (fun x y _ => Or.inl (exits_eq_zero hfires x y))
    (fun w y r => Or.inl (downs_eq_zero hfires w y r)) hrefs

theorem Party.monitorsForRef_note (p : Party) (events : List SignalEvent)
    (w : Pid) (r : UInt64) : (p.note events).monitorsForRef w r =
      p.monitorsForRef w r + events.countP (SignalEvent.isMonitorFor w r) :=
  List.countP_append

theorem Records.note_silent {p : Party} (h : Records p)
    {events : List SignalEvent} (hs : ∀ e ∈ events, e.isSilent = true) :
    Records (p.note events) := by
  refine h.note (fun e he => fires_of_isSilent (hs e he)) fun w r => ?_
  rw [Party.monitorsForRef_note, monitorFor_silent hs]
  exact h.refs w r

/-- A link is recorded.  If it is new, it is established. -/
theorem Records.linkRemote {p : Party} (h : Records p) (a b : Pid) :
    Records (({ p with reg := p.reg.linkRemote a b } : Party).note
      (Party.linkEvents p.reg a b)) := by
  refine h.grow rfl rfl (fun x y _ hlink => ?_) (fun w y r hmonitor => ?_)
    (fun x y _ => Or.inl (exits_eq_zero linkEvents_fires x y))
    (fun w y r => Or.inl (downs_eq_zero linkEvents_fires w y r)) fun w r => ?_
  · obtain ⟨s', hs', hmem⟩ := hlink
    change (p.reg.linkRemote a b).state x = some s' at hs'
    rw [ParticleRegistry.linkRemote, state_modifyState] at hs'
    split at hs'
    · rename_i hxa
      subst hxa
      obtain ⟨s, hs, rfl⟩ := Option.map_eq_some_iff.1 hs'
      by_cases hold : y ∈ s.links
      · exact Or.inl ⟨s, hs, hold⟩
      · -- The link is new, so it is in the log.
        have hyb : y = b := (KeySet.mem_insert.1 hmem).resolve_right hold
        subst hyb
        have hgain : Party.gainsLink p.reg x y = true := by
          simp [Party.gainsLink, hs, hold]
        rw [Party.linkEvents, if_pos hgain, List.count_singleton_self]
        exact Or.inr Nat.one_pos
    · exact Or.inl ⟨s', hs', hmem⟩
  · obtain ⟨s', hs', hmem⟩ := hmonitor
    change (p.reg.linkRemote a b).state w = some s' at hs'
    rw [ParticleRegistry.linkRemote, state_modifyState] at hs'
    split at hs'
    · obtain ⟨s, hs, rfl⟩ := Option.map_eq_some_iff.1 hs'
      exact Or.inl ⟨s, hs, hmem⟩
    · exact Or.inl ⟨s', hs', hmem⟩
  · rw [Party.monitorsForRef_note, monitorFor_linkEvents]
    exact h.refs w r

/-- A guest draws a ref that it has not used. -/
theorem Records.refs_monitor {p : Party} (h : Records p) {a : Pid} (b : Pid)
    (hfresh : (p.nextRef a).toNat + 1 < 2 ^ 64) (w : Pid) (r : UInt64) :
    (p.monitor codec a b).monitorsForRef w r ≤ 1 ∧
      (0 < (p.monitor codec a b).monitorsForRef w r →
        r.toNat < ((p.monitor codec a b).nextRef w).toNat) := by
  have hcount : (p.monitor codec a b).monitorsForRef w r = p.monitorsForRef w r +
      if a = w ∧ p.nextRef a = r then 1 else 0 := by
    have hnote := p.monitorsForRef_note [.askedMonitor a b (p.nextRef a)] w r
    rw [List.countP_singleton] at hnote
    simp only [SignalEvent.isMonitorFor, decide_eq_true_eq] at hnote
    exact hnote
  have hnext : (p.monitor codec a b).nextRef w =
      if w = a then p.nextRef a + 1 else p.nextRef w := by
    show ((p.refs.insert a (p.nextRef a + 1)).lookup w).getD 1 = _
    rw [Table.lookup_insert_eq]
    split <;> rfl
  have hsucc : (p.nextRef a + 1).toNat = (p.nextRef a).toNat + 1 := by
    rw [UInt64.toNat_add]
    exact Nat.mod_eq_of_lt hfresh
  obtain ⟨hone, hlt⟩ := h.refs w r
  rw [hcount, hnext]
  by_cases hw : w = a
  · subst hw
    rw [if_pos rfl, hsucc]
    by_cases hr : p.nextRef w = r
    · -- The ref was never used: all used ones are smaller.
      subst hr
      have hzero : p.monitorsForRef w (p.nextRef w) = 0 := by
        by_contra hne
        have := hlt (Nat.pos_of_ne_zero hne)
        omega
      rw [if_pos ⟨rfl, rfl⟩]
      omega
    · rw [if_neg fun h => hr h.2]
      refine ⟨hone, fun hpos => ?_⟩
      have := hlt hpos
      omega
  · rw [if_neg fun h => hw h.1.symm, if_neg hw]
    exact ⟨hone, hlt⟩

/-- A guest monitors a particle on the peer, under a ref of its own. -/
theorem Records.monitor {p : Party} (h : Records p) (hp : PartyInv p)
    {a b : Pid} (hb : b.node = p.peer)
    (hfresh : (p.nextRef a).toNat + 1 < 2 ^ 64) : Records (p.monitor codec a b) := by
  have hgone : ∀ f, (p.reg.modifyState a f).state b = none := fun f =>
    not_alive_iff.1 fun halive =>
      hp.not_alive_of_peer hb (alive_modifyState.1 halive)
  have hstate : ∀ w s', (p.monitor codec a b).reg.state w = some s' →
      ∃ s, p.reg.state w = some s ∧ s'.links = s.links ∧ s'.monitors =
        if w = a then s.monitors.insert (p.nextRef a) b else s.monitors := by
    intro w s' hs'
    change (p.reg.monitorRemote a b (p.nextRef a)).state w = some s' at hs'
    rw [ParticleRegistry.monitorRemote, state_modifyState] at hs'
    split at hs'
    · rename_i hw
      subst hw
      rw [hgone] at hs'
      cases hs'
    · rw [state_modifyState] at hs'
      split at hs'
      · rename_i hw
        obtain ⟨s, hs, rfl⟩ := Option.map_eq_some_iff.1 hs'
        exact ⟨s, hs, rfl, (if_pos hw).symm⟩
      · rename_i hw
        exact ⟨s', hs', rfl, (if_neg hw).symm⟩
  have hfires : ∀ e ∈ [SignalEvent.askedMonitor a b (p.nextRef a)],
      e.fires = false := by
    intro e he
    cases List.mem_singleton.1 he
    rfl
  refine h.grow rfl rfl (fun x y _ hlink => ?_) (fun w y r hmonitor => ?_)
    (fun x y _ => Or.inl (exits_eq_zero hfires x y))
    (fun w y r => Or.inl (downs_eq_zero hfires w y r)) (h.refs_monitor b hfresh)
  · obtain ⟨s', hs', hmem⟩ := hlink
    obtain ⟨s, hs, hlinks, -⟩ := hstate x s' hs'
    exact Or.inl ⟨s, hs, hlinks ▸ hmem⟩
  · obtain ⟨s', hs', hmem⟩ := hmonitor
    obtain ⟨s, hs, -, hmonitors⟩ := hstate w s' hs'
    rw [hmonitors] at hmem
    by_cases hnew : w = a ∧ r = p.nextRef a
    · obtain ⟨rfl, rfl⟩ := hnew
      rw [if_pos rfl, Table.lookup_insert_eq, if_pos rfl] at hmem
      cases hmem
      rw [List.count_singleton_self]
      exact Or.inr Nat.one_pos
    · refine Or.inl ⟨s, hs, ?_⟩
      split at hmem
      · rename_i hw
        rwa [Table.lookup_insert_eq, if_neg fun hr => hnew ⟨hw, hr⟩] at hmem
      · exact hmem

/-- After the loss of the peer nothing is recorded with it. -/
theorem loseNode_forgets {p : Party} (hp : PartyInv p) :
    (∀ x s' y, (p.reg.loseNode p.peer).state x = some s' → y.node = p.peer →
      y ∉ s'.links) ∧
    ∀ w s' r y, (p.reg.loseNode p.peer).state w = some s' →
      s'.monitors.lookup r = some y → y.node ≠ p.peer ∧
        ∃ s, p.reg.state w = some s ∧ s.monitors.lookup r = some y := by
  rcases loseNode_cases hp.reg.allLocal p.peer with ⟨hnone, heq⟩ |
    ⟨reg', he, heq⟩
  · -- There was nothing to find, so there is nothing to forget.
    have hlinks : (p.reg.relationshipsWithNode p.peer).1 = [] := by rw [hnone]
    have hmonitors : (p.reg.relationshipsWithNode p.peer).2 = [] := by
      rw [hnone]
    rw [heq]
    refine ⟨fun x s' y hs' hy hmem => ?_, fun w s' r y hs' hmem => ⟨?_, s', hs', hmem⟩⟩
    · have hfound := mem_relationshipsWithNode_links.2 ⟨s', hs', hmem, hy⟩
      rw [hlinks] at hfound
      cases hfound
    · intro hy
      have hfound := mem_relationshipsWithNode_monitors.2 ⟨s', hs', hmem, hy⟩
      rw [hmonitors] at hfound
      cases hfound
  · rw [heq]
    have hstate : ∀ x s', (reg'.forgetNode p.peer).state x = some s' →
        ∃ s, reg'.state x = some s ∧
          s' = { s with
            links := s.links.retain fun q => !q.isLocalTo p.peer
            monitors := Table.retain (fun _ t => !t.isLocalTo p.peer) s.monitors
            monitoredBy := s.monitoredBy.filter
              fun w => !w.1.isLocalTo p.peer } := by
      intro x s' hs'
      rw [show (reg'.forgetNode p.peer).state x = _ from
        Table.lookup_mapValues _ _ _] at hs'
      obtain ⟨s, hs, rfl⟩ := Option.map_eq_some_iff.1 hs'
      exact ⟨s, hs, rfl⟩
    refine ⟨fun x s' y hs' hy hmem => ?_, fun w s' r y hs' hmem => ?_⟩
    · obtain ⟨s, -, rfl⟩ := hstate x s' hs'
      rw [KeySet.mem_retain] at hmem
      simp [hy] at hmem
    · obtain ⟨s, hs, rfl⟩ := hstate w s' hs'
      rw [Table.lookup_retain, Option.filter_eq_some_iff] at hmem
      obtain ⟨s₀, hs₀, hsame⟩ := he.kept w s hs
      refine ⟨?_, s₀, hs₀, hsame.monitors r y hmem.1⟩
      simpa using hmem.2

/-- The events of a loss: each relationship fires at most once, and only if
the reactor found it. -/
theorem lose_events (p : Party) : ∃ events : List SignalEvent,
    p.lose = { p with
      reg := p.reg.loseNode p.peer, log := p.log ++ events } ∧
    (∀ e ∈ events, e.byMessage = false ∧
      ∀ w r, e.isMonitorFor w r = false) ∧
    (∀ x y, events.count (.exitByLoss x y) ≤
      if (x, y) ∈ (p.reg.relationshipsWithNode p.peer).1 then 1 else 0) ∧
    ∀ w y r, events.count (.downByLoss w y r) ≤
      if (w, y, r) ∈ (p.reg.relationshipsWithNode p.peer).2 then 1 else 0 := by
  obtain ⟨exits, downs, heq, hexits, hdowns⟩ := p.lose_eq
  refine ⟨exits ++ downs, heq, fun e he => ?_, fun x y => ?_, fun w y r => ?_⟩
  · rcases List.mem_append.1 he with he | he
    · obtain ⟨l, -, rfl⟩ := List.mem_map.1 (hexits.subset he)
      exact ⟨rfl, fun _ _ => rfl⟩
    · obtain ⟨m, -, rfl⟩ := List.mem_map.1 (hdowns.subset he)
      exact ⟨rfl, fun _ _ => rfl⟩
  · have hnone : downs.count (.exitByLoss x y) = 0 := by
      refine List.count_eq_zero.2 fun hmem => ?_
      obtain ⟨m, -, hm⟩ := List.mem_map.1 (hdowns.subset hmem)
      cases hm
    have hle := hexits.count_le (.exitByLoss x y)
    have hinj : Function.Injective fun l : Pid × Pid =>
        SignalEvent.exitByLoss l.1 l.2 := by
      rintro ⟨a, b⟩ ⟨c, d⟩ hab
      cases hab
      rfl
    rw [List.count_map_of_injective _ _ hinj (x, y)] at hle
    rw [List.count_append, hnone, Nat.add_zero]
    refine hle.trans ?_
    rw [(nodup_relationshipsWithNode_links p.reg p.peer).count]
  · have hnone : exits.count (.downByLoss w y r) = 0 := by
      refine List.count_eq_zero.2 fun hmem => ?_
      obtain ⟨m, -, hm⟩ := List.mem_map.1 (hexits.subset hmem)
      cases hm
    have hle := hdowns.count_le (.downByLoss w y r)
    have hinj : Function.Injective fun m : Pid × Pid × UInt64 =>
        SignalEvent.downByLoss m.1 m.2.1 m.2.2 := by
      rintro ⟨a, b, c⟩ ⟨d, e, f⟩ hab
      cases hab
      rfl
    rw [List.count_map_of_injective _ _ hinj (w, y, r)] at hle
    rw [List.count_append, hnone, Nat.zero_add]
    refine hle.trans ?_
    rw [(nodup_relationshipsWithNode_monitors p.reg p.peer).count]

/-- The loss of the peer fires what is recorded, and forgets it. -/
theorem Records.lose {p : Party} (h : Records p) (hp : PartyInv p)
    (hlinks : ∀ l ∈ (p.reg.relationshipsWithNode p.peer).1,
      exitsByMessage p.log l.1 l.2 = 0)
    (hmonitors : ∀ m ∈ (p.reg.relationshipsWithNode p.peer).2,
      downsByMessage p.log m.1 m.2.1 m.2.2 = 0) : Records p.lose := by
  obtain ⟨events, heq, hkind, hexit, hdown⟩ := lose_events p
  have hmessage : ∀ e ∈ events, e.byMessage = false := fun e he => (hkind e he).1
  obtain ⟨hgoneLinks, hgoneMonitors⟩ := loseNode_forgets hp
  have hgone : ∀ x y, y.node = p.peer → ¬ HasLink (p.reg.loseNode p.peer) x y :=
    fun x y hy ⟨s', hs', hmem⟩ => hgoneLinks x s' y hs' hy hmem
  have hkept : ∀ w y r, HasMonitor (p.reg.loseNode p.peer) w y r →
      y.node ≠ p.peer ∧ HasMonitor p.reg w y r :=
    fun w y r ⟨s', hs', hmem⟩ => hgoneMonitors w s' r y hs' hmem
  rw [heq]
  refine h.grow rfl rfl (fun x y hy hlink => absurd hlink (hgone x y hy))
    (fun w y r hmonitor => Or.inl (hkept w y r hmonitor).2)
    (fun x y hy => ?_) (fun w y r => ?_) fun w r => ?_
  · have hfired := hexit x y
    rw [exitsByMessage_eq_zero hmessage, Nat.zero_add]
    split at hfired
    · rename_i hfound
      obtain ⟨s, hs, hmem, -⟩ := mem_relationshipsWithNode_links.1 hfound
      exact Or.inr ⟨hfired, ⟨s, hs, hmem⟩, hlinks _ hfound,
        fun hlink => absurd hlink (hgone x y hy)⟩
    · exact Or.inl (Nat.eq_zero_of_le_zero hfired)
  · have hfired := hdown w y r
    rw [downsByMessage_eq_zero hmessage, Nat.zero_add]
    split at hfired
    · rename_i hfound
      obtain ⟨s, hs, hmem, hnode⟩ := mem_relationshipsWithNode_monitors.1 hfound
      exact Or.inr ⟨hfired, ⟨s, hs, hmem⟩, hmonitors _ hfound,
        fun hmonitor => absurd hnode (hkept w y r hmonitor).1⟩
    · exact Or.inl (Nat.eq_zero_of_le_zero hfired)
  · have hnone : events.countP (SignalEvent.isMonitorFor w r) = 0 := by
      refine List.countP_eq_zero.2 fun e he => ?_
      rw [(hkind e he).2 w r]
      exact Bool.false_ne_true
    have hcount := p.monitorsForRef_note events w r
    rw [hnone, Nat.add_zero] at hcount
    have hold := h.refs w r
    exact ⟨le_trans (le_of_eq hcount) hold.1,
      fun hpos => hold.2 (lt_of_lt_of_eq hpos hcount)⟩

/-! ## The condition -/

/-- The message does not find its relationship gone: a live target of an exit
or down message still records the link or monitor. -/
def Party.intact (p : Party) : PeerMessage → Prop
  | .exit y x _ => ∀ s ∈ p.reg.state x, y ∈ s.links
  | .down y w r _ => ∀ s ∈ p.reg.state w, s.monitors.lookup r = some y
  | _ => True

instance (p : Party) : DecidablePred p.intact := fun msg => by
  cases msg <;> unfold Party.intact <;> infer_instance

/-- No relationship that the reactor finds has had its message already. -/
def Party.unfired (p : Party) : Prop :=
  (∀ l ∈ (p.reg.relationshipsWithNode p.peer).1,
    exitsByMessage p.log l.1 l.2 = 0) ∧
  ∀ m ∈ (p.reg.relationshipsWithNode p.peer).2,
    downsByMessage p.log m.1 m.2.1 m.2.2 = 0

instance (p : Party) : Decidable p.unfired :=
  inferInstanceAs (Decidable (_ ∧ _))

/-- No step fires a relationship that is gone or that has fired before, and no
counter wraps around. -/
def TwoNodes.FiresIntact (s : TwoNodes) : Side × PartyAction → Prop
  | (d, .spawn _ _) => (s d).reg.pidGen.nextSeq.toNat + 1 < 2 ^ 64
  | (d, .monitor w _) => ((s d).nextRef w).toNat + 1 < 2 ^ 64
  | (d, .deliver i) => ∀ msg ∈ (s d.other).outbox[i]?, (s d).intact msg
  | (d, .lose) => (s d).unfired
  | _ => True

instance (s : TwoNodes) (a : Side × PartyAction) :
    Decidable (s.FiresIntact a) := by
  obtain ⟨d, a⟩ := a
  cases a <;> unfold TwoNodes.FiresIntact <;> infer_instance

/-! ## The arrival of a message -/

theorem Party.note_note (p : Party) (l₁ l₂ : List SignalEvent) :
    (p.note l₁).note l₂ = p.note (l₁ ++ l₂) := by
  simp [Party.note]

/-- A monitor request adds nothing to the monitors of this side, because its
watcher lives on the peer. -/
theorem recorded_monitorRemote {peer : EndpointId} {reg : ParticleRegistry}
    {v : Pid} (hv : ¬ reg.Alive v) (t : Pid) (r : UInt64) :
    Recorded peer reg (reg.monitorRemote v t r) := by
  have hstate : ∀ x s', (reg.monitorRemote v t r).state x = some s' →
      ∃ s, reg.state x = some s ∧ s'.links = s.links ∧
        s'.monitors = s.monitors := by
    intro x s' hs'
    have hwatcher : ∀ f, (reg.modifyState v f).state x = reg.state x := by
      intro f
      rw [state_modifyState]
      split
      · rename_i hx
        subst hx
        rw [not_alive_iff.1 hv]
        rfl
      · rfl
    rw [ParticleRegistry.monitorRemote, state_modifyState] at hs'
    split at hs'
    · rw [hwatcher] at hs'
      obtain ⟨s, hs, rfl⟩ := Option.map_eq_some_iff.1 hs'
      exact ⟨s, hs, rfl, rfl⟩
    · rw [hwatcher] at hs'
      exact ⟨s', hs', rfl, rfl⟩
  refine ⟨fun x s' y hs' _ hmem => ?_, fun w s' k y hs' hmem => ?_⟩
  · obtain ⟨s, hs, hlinks, -⟩ := hstate x s' hs'
    exact ⟨s, hs, hlinks ▸ hmem⟩
  · obtain ⟨s, hs, -, hmonitors⟩ := hstate w s' hs'
    exact ⟨s, hs, hmonitors ▸ hmem⟩

/-- A request to monitor that is in flight comes from a guest of its node. -/
theorem Flow.watcher_hosted {p q : Party} (h : Flow q p) (hq : PartyInv q)
    {i : Nat} {w y : Pid} {r : UInt64}
    (hmsg : q.outbox[i]? = some (.monitor w (.pid y) r)) : w ∈ q.hosted := by
  have hpos : 0 < monitorsInFlight q.outbox w y r :=
    List.count_pos_iff.2 (List.mem_of_getElem? hmsg)
  have hmade := h.downs w y r
  have hpos' : 0 < q.monitorsMade w y r := by omega
  exact hq.watchers w y r (List.count_pos_iff.1 hpos')

/-- An exit message fires its link for the first time. -/
theorem Records.receive_exit {p q : Party} (h : Records p) (hp : PartyInv p)
    (hq : PartyInv q) (hflow : Flow p q) {i : Nat} {b a : Pid}
    {reason : ExitReason} (hmsg : q.outbox[i]? = some (.exit b a reason))
    (hok : p.intact (.exit b a reason)) :
    Records (p.receive codec (.exit b a reason)) := by
  rw [hp.receive_eq rfl]
  have hreg : Recorded p.peer p.reg
      (p.reg.handlePeerMessage (.exit b a reason)).1 :=
    recorded_evolves hp
      (evolves_applyInheritedExit hp.reg.allLocal a b reason)
  simp only [Party.arrivalEvents]
  split
  · rename_i halive
    obtain ⟨s₀, hs₀⟩ := alive_iff.1 halive
    -- The message is the only one for this link.
    have hfirst : exitsByMessage p.log a b = 0 := by
      have hone := hflow.exits_le_one hq.reg a b
      have hpos : 0 < exitsInFlight q.outbox b a :=
        List.countP_pos_iff.2 ⟨_, List.mem_of_getElem? hmsg,
          by simp [PeerMessage.isExit]⟩
      omega
    have hcount : ∀ x y, exitsByMessage [.exitByMessage a b reason] x y =
        if a = x ∧ b = y then 1 else 0 := by
      intro x y
      simp [exitsByMessage, List.countP_cons, SignalEvent.isExitByMessage]
    refine h.grow rfl rfl (fun x y hy hlink => Or.inl (hreg.hasLink hy hlink))
      (fun w y r hmonitor => Or.inl (hreg.hasMonitor hmonitor))
      (fun x y hy => ?_) (fun w y r => Or.inl rfl) fun w r => ?_
    · by_cases hxy : a = x ∧ b = y
      · obtain ⟨rfl, rfl⟩ := hxy
        rw [hcount, if_pos ⟨rfl, rfl⟩]
        exact Or.inr ⟨le_rfl, ⟨s₀, hs₀, hok s₀ hs₀⟩, hfirst,
          fun _ => Nat.one_pos⟩
      · rw [hcount, if_neg hxy]
        exact Or.inl rfl
    · rw [Party.monitorsForRef_note]
      exact h.refs w r
  · exact (h.setReg hreg).note_silent (by simp)

/-- At most one monitor of one target is made under one ref. -/
theorem Party.monitorsMade_le (p : Party) (w y : Pid) (r : UInt64) :
    p.monitorsMade w y r ≤ p.monitorsForRef w r := by
  refine List.countP_mono_left ?_
  intro e _ he
  cases beq_iff_eq.1 he
  simp [SignalEvent.isMonitorFor]

/-- A down message fires its monitor for the first time. -/
theorem Records.receive_down {p q : Party} (h : Records p) (hp : PartyInv p)
    (hflow : Flow p q) {i : Nat} {b a : Pid} {k : UInt64} {reason : ExitReason}
    (hmsg : q.outbox[i]? = some (.down b a k reason))
    (hok : p.intact (.down b a k reason)) :
    Records (p.receive codec (.down b a k reason)) := by
  rw [hp.receive_eq rfl]
  have hreg : Recorded p.peer p.reg
      (p.reg.handlePeerMessage (.down b a k reason)).1 :=
    recorded_evolves hp (evolves_sendSystem p.reg a _)
  simp only [Party.arrivalEvents]
  split
  · rename_i halive
    obtain ⟨s₀, hs₀⟩ := alive_iff.1 halive
    -- The monitor was made once, so this is its only message.
    have hfirst : downsByMessage p.log a b k = 0 := by
      have hflow := hflow.downs a b k
      have hone := (h.refs a k).1
      have hmade := p.monitorsMade_le a b k
      have hpos : 0 < downsInFlight q.outbox b a k :=
        List.countP_pos_iff.2 ⟨_, List.mem_of_getElem? hmsg,
          by simp [PeerMessage.isDown]⟩
      omega
    have hcount : ∀ w y r, downsByMessage [.downByMessage a b k reason] w y r =
        if a = w ∧ b = y ∧ k = r then 1 else 0 := by
      intro w y r
      simp [downsByMessage, List.countP_cons, SignalEvent.isDownByMessage]
    refine h.grow rfl rfl (fun x y hy hlink => Or.inl (hreg.hasLink hy hlink))
      (fun w y r hmonitor => Or.inl (hreg.hasMonitor hmonitor))
      (fun x y hy => Or.inl rfl) (fun w y r => ?_) fun w r => ?_
    · by_cases hwyr : a = w ∧ b = y ∧ k = r
      · obtain ⟨rfl, rfl, rfl⟩ := hwyr
        rw [hcount, if_pos ⟨rfl, rfl, rfl⟩]
        exact Or.inr ⟨le_rfl, ⟨s₀, hs₀, hok s₀ hs₀⟩, hfirst,
          fun _ => Nat.one_pos⟩
      · rw [hcount, if_neg hwyr]
        exact Or.inl rfl
    · rw [Party.monitorsForRef_note]
      exact h.refs w r
  · exact (h.setReg hreg).note_silent (by simp)

theorem Records.receive {p q : Party} (h : Records p) (hp : PartyInv p)
    (hq : PartyInv q) (hflow : Flow p q) (hback : Flow q p)
    (hpeer : p.peer = q.reg.me) {i : Nat} {msg : PeerMessage}
    (hmsg : q.outbox[i]? = some msg) (hok : p.intact msg) :
    Records (p.receive codec msg) := by
  have hexp : msg.expected = true := hq.expected msg (List.mem_of_getElem? hmsg)
  cases msg with
  | link source target =>
    cases target with
    | pid t =>
      rw [hp.receive_eq hexp]
      have hsilent : ∀ e ∈ [SignalEvent.linkArrived source t (p.reg.Alive t)],
          e.isSilent = true := by
        simp [SignalEvent.isSilent]
      have hlink := (h.linkRemote t source).note_silent hsilent
      rw [Party.note_note] at hlink
      exact hlink
    | name n => cases hexp
  | monitor watcher target r =>
    cases target with
    | pid t =>
      rw [hp.receive_eq hexp]
      have hwatcher : ¬ p.reg.Alive watcher := by
        refine hp.not_alive_of_peer ?_
        rw [hpeer]
        exact (hq.hosted watcher (hback.watcher_hosted hq hmsg)).1
      exact (h.setReg (recorded_monitorRemote hwatcher t r)).note_silent
        (by simp [SignalEvent.isSilent, Party.arrivalEvents, resolve])
    | name n => cases hexp
  | unlink source target => cases hexp
  | demonitor watcher r => cases hexp
  | exitSignal source target reason =>
    rw [hp.receive_eq hexp]
    refine Records.note_silent ?_ (fun e he => absurd he List.not_mem_nil)
    refine h.setReg ?_
    rw [handlePeerMessage]
    cases p.reg.resolve target with
    | none => exact recorded_evolves hp (.refl _)
    | some t =>
      exact recorded_evolves hp
        (evolves_applyDirectedExit hp.reg.allLocal t source reason)
  | exit source target reason => exact h.receive_exit hp hq hflow hmsg hok
  | down source target r reason => exact h.receive_down hp hflow hmsg hok

theorem Records.setCursor {p : Party} (h : Records p) (cursor : Nat) :
    Records { p with cursor } :=
  ⟨h.links, h.monitors, h.refs⟩

/-- What a party does alone. -/
theorem Records.act {p p' : Party} {a : PartyAction} (h : Records p)
    (hp : PartyInv p) (hact : p.act codec a = some p')
    (hmonitor : ∀ w y, a = .monitor w y → (p.nextRef w).toNat + 1 < 2 ^ 64)
    (hlose : a = .lose → p.unfired) : Records p' := by
  cases a with
  | spawn component name =>
    cases hact
    unfold Party.spawn
    split
    · rename_i reg pid hspawn
      obtain ⟨-, hs⟩ := spawn_ok hspawn
      have hreg := h.setReg (recorded_spawns p.peer hs)
      exact ⟨hreg.links, hreg.monitors, hreg.refs⟩
    · exact h
  | perform op =>
    simp only [Party.act] at hact
    split at hact
    · rename_i hop
      cases hact
      exact h.setReg (recorded_evolves hp (evolves_perform hp.reg.allLocal hop))
    · cases hact
  | link x y =>
    simp only [Party.act] at hact
    split at hact
    · cases hact
      have hsilent : ∀ e ∈ [SignalEvent.askedLink x y], e.isSilent = true := by
        simp [SignalEvent.isSilent]
      have hlink := (h.linkRemote x y).note_silent hsilent
      rw [Party.note_note] at hlink
      exact ⟨hlink.links, hlink.monitors, hlink.refs⟩
    · cases hact
  | monitor w y =>
    simp only [Party.act] at hact
    split at hact
    · rename_i hwy
      cases hact
      exact h.monitor hp hwy.2 (hmonitor w y rfl)
    · cases hact
  | exitSignal x target reason =>
    simp only [Party.act] at hact
    split at hact
    · cases hact
      exact ⟨h.links, h.monitors, h.refs⟩
    · cases hact
  | forward =>
    rcases Party.forward_cases hact with ⟨-, rfl⟩ | ⟨d, -, -, rfl⟩
    · exact h.setCursor _
    · exact ⟨h.links, h.monitors, h.refs⟩
  | lose =>
    cases hact
    exact h.lose hp (hlose rfl).1 (hlose rfl).2
  | deliver i => cases hact
  | drop i => cases hact

/-! ## Runs -/

namespace TwoNodes

/-- The invariant of a run that fires nothing twice. -/
structure FiresInv (s : TwoNodes) : Prop where
  both : BothInv s
  flow : ∀ d, Flow (s d) (s d.other)
  records : ∀ d, Records (s d)

theorem firesInv_start {left right : EndpointId} (h : left ≠ right) :
    FiresInv (start left right) where
  both := bothInv_start h
  flow d := by
    cases d <;> exact ⟨fun _ _ => Nat.zero_le _, fun _ _ _ => Nat.zero_le _⟩
  records d := by cases d <;> exact records_new _ _

/-- Every step keeps the invariant, under the condition. -/
theorem FiresInv.step {s t : TwoNodes} {a : Side × PartyAction}
    (h : FiresInv s) (hok : s.FiresIntact a) (hstep : s.step codec a = some t) :
    FiresInv t := by
  have hfresh : s.FreshPids a := by
    obtain ⟨d, a⟩ := a
    cases a <;> trivial
  have hboth := h.both.step hfresh hstep
  obtain ⟨d, a⟩ := a
  have hother : d.other ≠ d := Side.other_ne d
  rcases step_cases hstep with ⟨p, hact, rfl⟩ | ⟨i, msg, rfl, hmsg, rfl⟩ |
    ⟨i, rfl, rfl⟩
  · -- The party acts alone.
    refine ⟨hboth, fun e => ?_, fun e => ?_⟩
    · rcases Side.eq_or_eq_other d e with rfl | rfl
      · rw [set_self, set_ne _ _ hother]
        exact (h.flow e).step (holderStep_act hact) (.refl _)
      · rw [Side.other_other, set_self, set_ne _ _ hother]
        have hflow := h.flow d.other
        rw [Side.other_other] at hflow
        exact hflow.step (.refl _) (peerStep_act (h.both.party d) hact)
    · rcases Side.eq_or_eq_other d e with rfl | rfl
      · rw [set_self]
        refine (h.records e).act (h.both.party e) hact ?_ ?_
        · rintro w y rfl
          exact hok
        · rintro rfl
          exact hok
      · rw [set_ne _ _ hother]
        exact h.records d.other
  · -- A message arrives.
    have hexp := (h.both.party d.other).expected msg (List.mem_of_getElem? hmsg)
    have hflow := h.flow d.other
    rw [Side.other_other] at hflow
    refine ⟨hboth, fun e => ?_, fun e => ?_⟩
    · rcases Side.eq_or_eq_other d e with rfl | rfl
      · rw [set_self, set_ne _ _ hother, set_self]
        exact (h.flow e).arrives (h.both.party e) hmsg hexp
      · rw [Side.other_other, set_self, set_ne _ _ hother, set_self]
        exact hflow.departs (h.both.party d) hmsg hexp
    · rcases Side.eq_or_eq_other d e with rfl | rfl
      · rw [set_self]
        exact (h.records e).receive (h.both.party e) (h.both.party e.other)
          (h.flow e) hflow (h.both.peer e) hmsg (hok msg hmsg)
      · rw [set_ne _ _ hother, set_self]
        have hrec := h.records d.other
        exact ⟨hrec.links, hrec.monitors, hrec.refs⟩
  · -- A message is lost.
    refine ⟨hboth, fun e => ?_, fun e => ?_⟩
    · rcases Side.eq_or_eq_other d e with rfl | rfl
      · rw [set_self, set_ne _ _ hother.symm]
        exact (h.flow e).step (.refl _) (peerStep_takeFrom _ i)
      · rw [Side.other_other, set_self, set_ne _ _ hother.symm]
        have hflow := h.flow d.other
        rw [Side.other_other] at hflow
        exact hflow.step (holderStep_takeFrom _ i) (.refl _)
    · rcases Side.eq_or_eq_other d e with rfl | rfl
      · rw [set_ne _ _ hother.symm]
        exact h.records e
      · rw [set_self]
        have hrec := h.records d.other
        exact ⟨hrec.links, hrec.monitors, hrec.refs⟩

/-- Every link between the nodes fires at most once each time it is
established, and every monitor ref at most once. -/
def FiresAtMostOnce (s : TwoNodes) : Prop :=
  ∀ d, (∀ x y, y.node = (s d).peer →
      (s d).exitSignals x y ≤ (s d).linksMade x y) ∧
    ∀ w r, (s d).downsForRef w r ≤ 1

private theorem countP_le_add {α : Type} {p q q' : α → Bool} {l : List α}
    (h : ∀ a ∈ l, p a = true → q a = true ∨ q' a = true) :
    l.countP p ≤ l.countP q + l.countP q' := by
  induction l with
  | nil => exact Nat.zero_le _
  | cons a l ih =>
    have htail := ih fun b hb => h b (List.mem_cons_of_mem _ hb)
    have hhead := h a (List.mem_cons_self ..)
    rw [List.countP_cons, List.countP_cons, List.countP_cons]
    by_cases hp : p a = true
    · rcases hhead hp with hq | hq <;> rw [if_pos hp, if_pos hq] <;> omega
    · rw [if_neg hp]
      omega

private theorem countP_add_le {α : Type} {p q q' : α → Bool} (l : List α)
    (h : ∀ a, q a = true → p a = true ∧ q' a = false)
    (h' : ∀ a, q' a = true → p a = true) :
    l.countP q + l.countP q' ≤ l.countP p := by
  induction l with
  | nil => exact Nat.le_refl 0
  | cons a l ih =>
    rw [List.countP_cons, List.countP_cons, List.countP_cons]
    by_cases hq : q a = true
    · obtain ⟨hp, hq'⟩ := h a hq
      rw [if_pos hq, if_pos hp, hq']
      simp only [Bool.false_eq_true, if_false]
      omega
    · rw [if_neg hq]
      by_cases hq' : q' a = true
      · rw [if_pos hq', if_pos (h' a hq')]
        omega
      · rw [if_neg hq']
        omega

/-- The down signals under a ref are for the one monitor made under it. -/
theorem downsForRef_le_one {p : Party} (h : Records p) (w : Pid) (r : UInt64) :
    p.downsForRef w r ≤ 1 := by
  -- Whoever fired under the ref was monitored under it.
  have hmade : ∀ e ∈ p.log, SignalEvent.isDownFor w r e = true →
      ∃ y, 0 < p.monitorsMade w y r ∧
        (SignalEvent.isDownByMessage w y r e = true ∨
          (e == .downByLoss w y r) = true) := by
    intro e he hdown
    have hfind : ∃ y, SignalEvent.isDownByMessage w y r e = true ∨
        (e == .downByLoss w y r) = true := by
      cases e with
      | downByMessage a y k reason =>
        refine ⟨y, Or.inl ?_⟩
        simpa [SignalEvent.isDownFor, SignalEvent.isDownByMessage] using hdown
      | downByLoss a y k =>
        refine ⟨y, Or.inr ?_⟩
        simpa [SignalEvent.isDownFor] using hdown
      | _ => cases hdown
    obtain ⟨y, hy⟩ := hfind
    refine ⟨y, ?_, hy⟩
    have hle := (h.monitors w y r).1
    have hpos : 0 < p.downSignals w y r := by
      rcases hy with hy | hy
      · exact Nat.add_pos_left (List.countP_pos_iff.2 ⟨e, he, hy⟩) _
      · exact Nat.add_pos_right _ (List.countP_pos_iff.2 ⟨e, he, hy⟩)
    omega
  by_cases hnone : p.downsForRef w r = 0
  · omega
  · obtain ⟨e₀, he₀, hdown₀⟩ := List.countP_pos_iff.1 (Nat.pos_of_ne_zero hnone)
    obtain ⟨y₀, hpos₀, -⟩ := hmade e₀ he₀ hdown₀
    have honly : ∀ y, 0 < p.monitorsMade w y r → y = y₀ := by
      intro y hpos
      by_contra hne
      have hsum : p.monitorsMade w y r + p.monitorsMade w y₀ r ≤
          p.monitorsForRef w r := by
        refine countP_add_le p.log (fun e he => ?_) fun e he => ?_
        · cases beq_iff_eq.1 he
          simp [SignalEvent.isMonitorFor, hne]
        · cases beq_iff_eq.1 he
          simp [SignalEvent.isMonitorFor]
      have := (h.refs w r).1
      omega
    have hall : p.downsForRef w r ≤ p.downSignals w y₀ r := by
      refine countP_le_add fun e he hdown => ?_
      obtain ⟨y, hpos, hy⟩ := hmade e he hdown
      cases honly y hpos
      exact hy
    have hfired := (h.monitors w y₀ r).1
    have hone := p.monitorsMade_le w y₀ r
    have := (h.refs w r).1
    omega

/-- One particle on each node.  The left one traps exits and links to the
right one, which crashes.  Its exit message arrives. -/
def remoteCrash : List (Side × PartyAction) :=
  [(.left, .perform (.atomic (.registerComponent "worker"))),
    (.left, .spawn "worker" none),
    (.right, .perform (.atomic (.registerComponent "worker"))),
    (.right, .spawn "worker" none),
    (.left, .perform (.atomic (.setTrapExit ⟨⟨1⟩, 1⟩ true))),
    (.left, .link ⟨⟨1⟩, 1⟩ ⟨⟨2⟩, 1⟩), (.right, .deliver 0),
    (.right, .perform (.exit ⟨⟨2⟩, 1⟩ (.exception "crash"))),
    (.right, .forward), (.left, .deliver 0)]

end TwoNodes

end Plasmoid
