import Plasmoid.Signals

/-!
# How a registry evolves

`Evolves` says what exits and local operations can do to the relationships of
a registry with other nodes: nobody is born, a survivor keeps its remote links
and its watchers, and every particle that died has published one death with
its relationships on it.  It is reflexive and transitive, so a cascade of any
length satisfies it.
-/

namespace Plasmoid.ParticleRegistry

/-- Every particle of the registry belongs to its node. -/
def AllLocal (reg : ParticleRegistry) : Prop :=
  ∀ x, reg.Alive x → x.node = reg.me

/-- A survivor has the same links to other nodes and the same watchers.  It
may have lost monitors. -/
structure SameRemote (me : EndpointId) (s s' : ParticleState) : Prop where
  links : ∀ y : Pid, y.node ≠ me → (y ∈ s'.links ↔ y ∈ s.links)
  monitoredBy : s'.monitoredBy = s.monitoredBy
  monitors : ∀ r y, s'.monitors.lookup r = some y → s.monitors.lookup r = some y

/-- A death carries the remote relationships of the particle. -/
structure Reports (me : EndpointId) (s : ParticleState) (d : ParticleDeath) :
    Prop where
  nodup : d.remoteLinks.Nodup
  links : ∀ y : Pid, y ∈ d.remoteLinks ↔ y ∈ s.links ∧ y.node ≠ me
  monitors : d.remoteMonitors = s.monitoredBy.filter fun w => !w.1.isLocalTo me

structure Evolves (reg reg' : ParticleRegistry) : Prop where
  pidGen : reg'.pidGen = reg.pidGen
  alive : ∀ x, reg'.Alive x → reg.Alive x
  kept : ∀ x s', reg'.state x = some s' →
    ∃ s, reg.state x = some s ∧ SameRemote reg.me s s'
  deaths : ∃ ds, reg'.deaths = reg.deaths ++ ds ∧ (ds.map (·.pid)).Nodup ∧
    (∀ d ∈ ds, ¬ reg'.Alive d.pid ∧
      ∃ s, reg.state d.pid = some s ∧ Reports reg.me s d) ∧
    ∀ x, reg.Alive x → ¬ reg'.Alive x → ∃ d ∈ ds, d.pid = x

theorem SameRemote.refl (me : EndpointId) (s : ParticleState) :
    SameRemote me s s :=
  ⟨fun _ _ => Iff.rfl, rfl, fun _ _ h => h⟩

theorem SameRemote.trans {me : EndpointId} {s₁ s₂ s₃ : ParticleState}
    (h₁ : SameRemote me s₁ s₂) (h₂ : SameRemote me s₂ s₃) :
    SameRemote me s₁ s₃ where
  links y hy := (h₂.links y hy).trans (h₁.links y hy)
  monitoredBy := h₂.monitoredBy.trans h₁.monitoredBy
  monitors r y h := h₁.monitors r y (h₂.monitors r y h)

/-- What a later death says is what an earlier state has. -/
theorem Reports.of_sameRemote {me : EndpointId} {s s' : ParticleState}
    {d : ParticleDeath} (h : SameRemote me s s') (hd : Reports me s' d) :
    Reports me s d where
  nodup := hd.nodup
  links y := by
    rw [hd.links y]
    constructor
    · rintro ⟨hy, hne⟩
      exact ⟨(h.links y hne).1 hy, hne⟩
    · rintro ⟨hy, hne⟩
      exact ⟨(h.links y hne).2 hy, hne⟩
  monitors := by rw [hd.monitors, h.monitoredBy]

theorem Evolves.me {reg reg' : ParticleRegistry} (h : Evolves reg reg') :
    reg'.me = reg.me := by
  rw [ParticleRegistry.me, h.pidGen]
  rfl

theorem Evolves.refl (reg : ParticleRegistry) : Evolves reg reg where
  pidGen := rfl
  alive _ h := h
  kept _ s' h := ⟨s', h, .refl _ s'⟩
  deaths := ⟨[], (List.append_nil _).symm, List.nodup_nil, by simp,
    fun _ h h' => absurd h h'⟩

theorem Evolves.trans {reg₁ reg₂ reg₃ : ParticleRegistry}
    (h₁ : Evolves reg₁ reg₂) (h₂ : Evolves reg₂ reg₃) : Evolves reg₁ reg₃ where
  pidGen := h₂.pidGen.trans h₁.pidGen
  alive x h := h₁.alive x (h₂.alive x h)
  kept x s₃ hs₃ := by
    obtain ⟨s₂, hs₂, h23⟩ := h₂.kept x s₃ hs₃
    obtain ⟨s₁, hs₁, h12⟩ := h₁.kept x s₂ hs₂
    rw [h₁.me] at h23
    exact ⟨s₁, hs₁, h12.trans h23⟩
  deaths := by
    obtain ⟨ds₁, heq₁, hnodup₁, hdead₁, hall₁⟩ := h₁.deaths
    obtain ⟨ds₂, heq₂, hnodup₂, hdead₂, hall₂⟩ := h₂.deaths
    refine ⟨ds₁ ++ ds₂, ?_, ?_, ?_, ?_⟩
    · rw [heq₂, heq₁, List.append_assoc]
    · rw [List.map_append]
      refine hnodup₁.append hnodup₂ ?_
      -- Whoever died first was not alive to die again.
      intro p hp₁ hp₂
      obtain ⟨d₁, hd₁, rfl⟩ := List.mem_map.1 hp₁
      obtain ⟨d₂, hd₂, hpid⟩ := List.mem_map.1 hp₂
      obtain ⟨-, s, hs, -⟩ := hdead₂ d₂ hd₂
      rw [hpid] at hs
      exact (hdead₁ d₁ hd₁).1 (alive_iff.2 ⟨s, hs⟩)
    · intro d hd
      rcases List.mem_append.1 hd with hd | hd
      · obtain ⟨hdead, hrep⟩ := hdead₁ d hd
        exact ⟨fun h => hdead (h₂.alive _ h), hrep⟩
      · obtain ⟨hdead, s₂, hs₂, hrep⟩ := hdead₂ d hd
        obtain ⟨s₁, hs₁, h12⟩ := h₁.kept _ s₂ hs₂
        rw [h₁.me] at hrep
        exact ⟨hdead, s₁, hs₁, hrep.of_sameRemote h12⟩
    · intro x hx hx'
      by_cases hmid : reg₂.Alive x
      · obtain ⟨d, hd, hpid⟩ := hall₂ x hmid hx'
        exact ⟨d, List.mem_append_right _ hd, hpid⟩
      · obtain ⟨d, hd, hpid⟩ := hall₁ x hx hmid
        exact ⟨d, List.mem_append_left _ hd, hpid⟩

theorem Evolves.allLocal {reg reg' : ParticleRegistry} (h : Evolves reg reg')
    (hl : AllLocal reg) : AllLocal reg' := by
  intro x hx
  rw [h.me]
  exact hl x (h.alive x hx)

theorem NoBirth.allLocal {reg reg' : ParticleRegistry}
    (h : NoBirth reg reg') (hl : reg.AllLocal) : reg'.AllLocal := by
  intro x hx
  rw [h.me]
  exact hl x (h.alive x hx)

theorem allLocal_spawn {reg : ParticleRegistry} (hl : reg.AllLocal)
    (component : String) (name : Option String) :
    (reg.spawn component name).1.AllLocal := by
  intro x hx
  rw [me_spawn]
  by_cases hpeek : x = reg.pidGen.peek
  · rw [hpeek]
    rfl
  · rw [alive_iff, state_spawn reg component name hpeek] at hx
    exact hl x (alive_iff.2 hx)

/-! ## Exits -/

/-- The induction rule of exits: what one exit keeps, a cascade keeps. -/
theorem exitParticle_induction {reason : ExitReason}
    {P : ParticleRegistry → Prop}
    (hone : ∀ reg x reg' kills, P reg →
      reg.exitOne x reason = some (reg', kills) → P reg')
    {reg : ParticleRegistry} (pid : Pid) (h : P reg) :
    P (reg.exitParticle pid reason) := by
  have hfuel : ∀ (fuel : Nat) (reg reg' : ParticleRegistry) (x : Pid), P reg →
      exitFuel fuel reg x reason = some reg' → P reg' := by
    intro fuel
    induction fuel with
    | zero =>
      intro reg reg' x _ h
      cases h
    | succ fuel ih =>
      intro reg reg' x hP h
      rw [exitFuel] at h
      split at h
      · cases h
        exact hP
      · rename_i reg₁ kills hexit
        have hP₁ := hone reg x reg₁ kills hP hexit
        clear hexit
        induction kills generalizing reg₁ with
        | nil =>
          cases h
          exact hP₁
        | cons k kills ihkills =>
          rw [List.foldlM_cons] at h
          obtain ⟨reg₂, hk, hrest⟩ := Option.bind_eq_some_iff.1 h
          exact ihkills reg₂ hrest (ih reg₁ reg₂ k hP₁ hk)
  exact hfuel _ reg _ pid h
    (exitFuel_eq_exitParticle reg pid reason (Nat.lt_succ_self _))

theorem sameRemote_settleOne {me : EndpointId} {x y : Pid}
    {st s : ParticleState} (reason : ExitReason) (hx : x.node = me) :
    SameRemote me s (settleOne reason x st y s) where
  links z hz := by
    rw [mem_settleOne_links]
    constructor
    · intro h
      exact h.1
    · intro h
      refine ⟨h, ?_⟩
      rintro ⟨rfl, -⟩
      exact hz hx
  monitoredBy := rfl
  monitors r z h := by
    rw [settleOne, lookup_dropRefs] at h
    split at h
    · cases h
    · exact h

theorem evolves_exitOne {reg reg' : ParticleRegistry} {x : Pid}
    {reason : ExitReason} {kills : List Pid} (hl : AllLocal reg)
    (h : reg.exitOne x reason = some (reg', kills)) : Evolves reg reg' := by
  obtain ⟨st, hst, hspec⟩ := exitOne_spec h
  have hx : x.node = reg.me := hl x (alive_iff.2 ⟨st, hst⟩)
  have hdead : ¬ reg'.Alive x := by
    rw [not_alive_iff, hspec.states, if_pos rfl]
  have hother : ∀ y, y ≠ x →
      reg'.state y = (reg.state y).map (settleOne reason x st y) := by
    intro y hy
    rw [hspec.states, if_neg hy]
  have hkept : ∀ y s', reg'.state y = some s' →
      ∃ s, reg.state y = some s ∧ SameRemote reg.me s s' := by
    intro y s' hs'
    by_cases hy : y = x
    · subst hy
      exact absurd (alive_iff.2 ⟨s', hs'⟩) hdead
    · rw [hother y hy] at hs'
      obtain ⟨s, hs, rfl⟩ := Option.map_eq_some_iff.1 hs'
      exact ⟨s, hs, sameRemote_settleOne reason hx⟩
  refine ⟨hspec.pidGen, ?_, hkept, _, hspec.deaths, ?_, ?_, ?_⟩
  · intro y hy
    obtain ⟨s', hs'⟩ := alive_iff.1 hy
    obtain ⟨s, hs, -⟩ := hkept y s' hs'
    exact alive_iff.2 ⟨s, hs⟩
  · exact List.nodup_singleton _
  · intro d hd
    cases List.mem_singleton.1 hd
    refine ⟨hdead, st, hst, st.links.nodup.filter _, ?_, rfl⟩
    intro y
    rw [deathOf, List.mem_filter, KeySet.mem_toList]
    simp [Pid.isLocalTo]
  · intro y hy hy'
    refine ⟨_, List.mem_singleton_self _, ?_⟩
    by_contra hne
    obtain ⟨s, hs⟩ := alive_iff.1 hy
    rw [not_alive_iff, hother y (fun heq => hne heq.symm), hs] at hy'
    cases hy'

theorem evolves_exitParticle {reg : ParticleRegistry} (hl : AllLocal reg)
    (pid : Pid) (reason : ExitReason) :
    Evolves reg (reg.exitParticle pid reason) := by
  refine exitParticle_induction (P := Evolves reg) ?_ pid (.refl reg)
  intro reg₁ x reg₂ kills h hexit
  exact h.trans (evolves_exitOne (h.allLocal hl) hexit)

/-! ## Signals and local operations -/

/-- Rewriting one state leaves the living and the deaths alone. -/
theorem evolves_modifyState (reg : ParticleRegistry) (pid : Pid)
    {f : ParticleState → ParticleState}
    (hf : ∀ s, reg.state pid = some s → SameRemote reg.me s (f s)) :
    Evolves reg (reg.modifyState pid f) where
  pidGen := rfl
  alive _ h := alive_modifyState.1 h
  kept x s' hs' := by
    rw [state_modifyState] at hs'
    split at hs'
    · rename_i hx
      subst hx
      obtain ⟨s, hs, rfl⟩ := Option.map_eq_some_iff.1 hs'
      exact ⟨s, hs, hf s hs⟩
    · exact ⟨s', hs', .refl _ s'⟩
  deaths := ⟨[], (List.append_nil _).symm, List.nodup_nil, by simp,
    fun _ h h' => absurd (alive_modifyState.2 h) h'⟩

theorem evolves_sendSystem (reg : ParticleRegistry) (pid : Pid)
    (msg : SystemMessage) : Evolves reg (reg.sendSystem pid msg) :=
  evolves_modifyState reg pid fun _ _ => ⟨fun _ _ => Iff.rfl, rfl, fun _ _ h => h⟩

theorem evolves_applyInheritedExit {reg : ParticleRegistry}
    (hl : AllLocal reg) (target source : Pid) (reason : ExitReason) :
    Evolves reg (reg.applyInheritedExit target source reason) := by
  cases hs : reg.state target with
  | none =>
    rw [applyInheritedExit_of_dead source reason hs]
    exact .refl reg
  | some s =>
    cases ht : s.trapExit with
    | true =>
      rw [applyInheritedExit_of_trapping source reason hs ht]
      exact evolves_sendSystem reg target _
    | false =>
      rw [applyInheritedExit_of_not_trapping source reason hs ht]
      split
      · exact evolves_exitParticle hl target reason
      · exact .refl reg

theorem evolves_applyDirectedExit {reg : ParticleRegistry}
    (hl : AllLocal reg) (target source : Pid) (reason : ExitReason) :
    Evolves reg (reg.applyDirectedExit target source reason) := by
  by_cases h : reason = .kill
  · subst h
    rw [applyDirectedExit_kill]
    exact evolves_exitParticle hl target .killed
  · rw [applyDirectedExit_of_ne_kill source h]
    exact evolves_applyInheritedExit hl target source reason

end Plasmoid.ParticleRegistry

namespace Plasmoid

/-- The operation is one that the particles and the host of one node perform
among themselves. -/
def RegistryOp.isLocal : RegistryOp → Bool
  | .atomic (.registerComponent _) | .atomic (.link _ _)
  | .atomic (.setTrapExit _ _) => true
  | .atomic (.deliverExit target source _)
  | .atomic (.deliverDown target source _ _) => target = source
  | .atomic _ => false
  | .registerName _ _ | .unregisterName _ _ | .exit _ _ => true
  | .inheritedExit _ _ _ => false
  | .directedExit _ _ _ => true

namespace ParticleRegistry

private theorem evolves_of_states_eq {reg reg' : ParticleRegistry}
    (hgen : reg'.pidGen = reg.pidGen)
    (hstates : reg'.particleStates = reg.particleStates)
    (hdeaths : reg'.deaths = reg.deaths) : Evolves reg reg' where
  pidGen := hgen
  alive x h := by
    rw [Alive, ← hstates]
    exact h
  kept x s' h := by
    rw [state, hstates] at h
    exact ⟨s', h, .refl _ s'⟩
  deaths := by
    refine ⟨[], ?_, List.nodup_nil, by simp, ?_⟩
    · rw [hdeaths, List.append_nil]
    · intro x h h'
      rw [Alive, hstates] at h'
      exact absurd h h'

theorem evolves_link {reg : ParticleRegistry} (hl : AllLocal reg) (a b : Pid) :
    Evolves reg (reg.link a b).1 := by
  unfold link
  split
  · exact .refl reg
  · rename_i ha
    split
    · exact .refl reg
    · rename_i hb
      have hlocal : ∀ y : Pid, y.node = reg.me → ∀ s : ParticleState,
          SameRemote reg.me s { s with links := s.links.insert y } := by
        intro y hy s
        refine ⟨fun z hz => ?_, rfl, fun _ _ h => h⟩
        rw [KeySet.mem_insert]
        constructor
        · rintro (rfl | h)
          · exact absurd hy hz
          · exact h
        · exact Or.inr
      have h₁ : Evolves reg (reg.modifyState a
          fun s => { s with links := s.links.insert b }) :=
        evolves_modifyState reg a fun s _ => hlocal b (hl b (not_not.1 hb)) s
      exact h₁.trans (evolves_modifyState _ b fun s _ =>
        hlocal a (hl a (not_not.1 ha)) s)

/-- Local operations evolve the registry. -/
theorem evolves_perform {reg : ParticleRegistry} (hl : AllLocal reg)
    {op : RegistryOp} (hop : op.isLocal = true) :
    Evolves reg (reg.perform op) := by
  cases op with
  | atomic op =>
    cases op with
    | registerComponent component => exact evolves_of_states_eq rfl rfl rfl
    | link a b => exact evolves_link hl a b
    | setTrapExit pid enabled =>
      exact evolves_modifyState reg pid fun _ _ =>
        ⟨fun _ _ => Iff.rfl, rfl, fun _ _ h => h⟩
    | deliverExit target source reason => exact evolves_sendSystem reg target _
    | deliverDown target source refId reason =>
      exact evolves_sendSystem reg target _
    | linkRemote loc remote => cases hop
    | unlinkRemote loc remote => cases hop
    | monitorRemote watcher target refId => cases hop
    | forgetNode node => cases hop
  | registerName pid name =>
    show Evolves reg (reg.registerName pid name).1
    unfold registerName
    split
    · exact .refl reg
    · exact evolves_of_states_eq rfl rfl rfl
  | unregisterName pid name =>
    show Evolves reg (reg.unregisterName pid name).1
    unfold unregisterName
    split
    · split
      · exact evolves_of_states_eq rfl rfl rfl
      · exact .refl reg
    · exact .refl reg
  | exit pid reason => exact evolves_exitParticle hl pid reason
  | inheritedExit target source reason => cases hop
  | directedExit target source reason =>
    exact evolves_applyDirectedExit hl target source reason

end ParticleRegistry

end Plasmoid
