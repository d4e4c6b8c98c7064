import Plasmoid.ExitPropagation

/-!
# The operations of a running node

`SectionOp` is every operation that is one critical section and leaves the
name table alone.  `RegistryOp` adds the name operations and the exits, run
to completion.  `Draws` and `NoBirth` say what spawns and all the other
operations do to the pid counter and to the set of the living.
-/

namespace Plasmoid

/-- An operation of one critical section that leaves the names alone. -/
inductive SectionOp where
  | registerComponent (component : String)
  | link (a b : Pid)
  | setTrapExit (pid : Pid) (enabled : Bool)
  | linkRemote (loc remote : Pid)
  | unlinkRemote (loc remote : Pid)
  | monitorRemote (watcher target : Pid) (refId : UInt64)
  | deliverExit (target source : Pid) (reason : ExitReason)
  | deliverDown (target source : Pid) (refId : UInt64) (reason : ExitReason)
  | forgetNode (node : EndpointId)

/-- An operation that a running node performs between spawns. -/
inductive RegistryOp where
  | atomic (op : SectionOp)
  | registerName (pid : Pid) (name : String)
  | unregisterName (pid : Pid) (name : String)
  | exit (pid : Pid) (reason : ExitReason)
  | inheritedExit (target source : Pid) (reason : ExitReason)
  | directedExit (target source : Pid) (reason : ExitReason)

namespace ParticleRegistry

/-- `register_component`, once the component has been compiled. -/
def registerComponent (reg : ParticleRegistry) (component : String) :
    ParticleRegistry :=
  { reg with components := reg.components.insert component }

def performSection (reg : ParticleRegistry) : SectionOp → ParticleRegistry
  | .registerComponent component => reg.registerComponent component
  | .link a b => (reg.link a b).1
  | .setTrapExit pid enabled => reg.setTrapExit pid enabled
  | .linkRemote loc remote => reg.linkRemote loc remote
  | .unlinkRemote loc remote => reg.unlinkRemote loc remote
  | .monitorRemote watcher target refId =>
    reg.monitorRemote watcher target refId
  | .deliverExit target source reason => reg.deliverExit target source reason
  | .deliverDown target source refId reason =>
    reg.deliverDown target source refId reason
  | .forgetNode node => reg.forgetNode node

def perform (reg : ParticleRegistry) : RegistryOp → ParticleRegistry
  | .atomic op => reg.performSection op
  | .registerName pid name => (reg.registerName pid name).1
  | .unregisterName pid name => (reg.unregisterName pid name).1
  | .exit pid reason => reg.exitParticle pid reason
  | .inheritedExit target source reason =>
    reg.applyInheritedExit target source reason
  | .directedExit target source reason =>
    reg.applyDirectedExit target source reason

/-- The names, the pid counter and the set of the living are the same. -/
structure SameLife (reg reg' : ParticleRegistry) : Prop where
  pidGen : reg'.pidGen = reg.pidGen
  names : reg'.names = reg.names
  alive : ∀ p, reg'.Alive p ↔ reg.Alive p

theorem SameLife.refl (reg : ParticleRegistry) : SameLife reg reg :=
  ⟨rfl, rfl, fun _ => Iff.rfl⟩

theorem sameLife_modifyState (reg : ParticleRegistry) (pid : Pid)
    (f : ParticleState → ParticleState) :
    SameLife reg (reg.modifyState pid f) :=
  ⟨rfl, rfl, fun _ => alive_modifyState⟩

theorem alive_mapStates {reg : ParticleRegistry}
    {f : Pid → ParticleState → ParticleState} {p : Pid} :
    ParticleRegistry.Alive
      { reg with particleStates := Table.mapValues f reg.particleStates } p ↔
      reg.Alive p := by
  change p ∈ (Table.mapValues f reg.particleStates).keys ↔
    p ∈ reg.particleStates.keys
  rw [Table.keys_mapValues]

theorem sameLife_performSection (reg : ParticleRegistry) (op : SectionOp) :
    SameLife reg (reg.performSection op) := by
  cases op with
  | registerComponent component => exact ⟨rfl, rfl, fun _ => Iff.rfl⟩
  | link a b =>
    show SameLife reg (reg.link a b).1
    unfold link
    split
    · exact .refl reg
    · split
      · exact .refl reg
      · exact ⟨rfl, rfl, fun p => alive_modifyState.trans alive_modifyState⟩
  | setTrapExit pid enabled => exact sameLife_modifyState reg pid _
  | linkRemote loc remote => exact sameLife_modifyState reg loc _
  | unlinkRemote loc remote => exact sameLife_modifyState reg loc _
  | monitorRemote watcher target refId =>
    exact ⟨rfl, rfl, fun p => alive_modifyState.trans alive_modifyState⟩
  | deliverExit target source reason => exact sameLife_modifyState reg target _
  | deliverDown target source refId reason =>
    exact sameLife_modifyState reg target _
  | forgetNode node => exact ⟨rfl, rfl, fun p => alive_mapStates⟩

/-- A `spawn` that another operation overtakes: the name it asked for is
taken between its early check and its re-check, so it rolls back.  The pid it
drew is gone all the same. -/
def spawnOvertaken (reg : ParticleRegistry) (component name : String) :
    ParticleRegistry × Except String Pid :=
  match reg.spawnRefused component (some name) with
  | some err => (reg, .error err)
  | none =>
    let (pid, reg) := reg.drawPid
    let reg := (reg.insertEntry ⟨pid, component, some name⟩).insertState pid
    ((reg.removeState pid).removeEntry pid,
      .error s!"name '{name}' is already registered")

/-- No pid is drawn and nobody comes to life. -/
structure NoBirth (reg reg' : ParticleRegistry) : Prop where
  pidGen : reg'.pidGen = reg.pidGen
  alive : ∀ p, reg'.Alive p → reg.Alive p

theorem NoBirth.refl (reg : ParticleRegistry) : NoBirth reg reg :=
  ⟨rfl, fun _ h => h⟩

theorem NoBirth.trans {reg₁ reg₂ reg₃ : ParticleRegistry}
    (h₁ : NoBirth reg₁ reg₂) (h₂ : NoBirth reg₂ reg₃) : NoBirth reg₁ reg₃ :=
  ⟨h₂.pidGen.trans h₁.pidGen, fun p hp => h₁.alive p (h₂.alive p hp)⟩

theorem NoBirth.me {reg reg' : ParticleRegistry} (h : NoBirth reg reg') :
    reg'.me = reg.me :=
  congrArg PidGenerator.node h.pidGen

theorem SameLife.noBirth {reg reg' : ParticleRegistry}
    (h : SameLife reg reg') : NoBirth reg reg' :=
  ⟨h.pidGen, fun p hp => (h.alive p).1 hp⟩

theorem noBirth_exitParticle (reg : ParticleRegistry) (pid : Pid)
    (reason : ExitReason) : NoBirth reg (reg.exitParticle pid reason) := by
  by_cases hp : reg.Alive pid
  · obtain ⟨D, hD⟩ := exitParticle_exact reason hp
    exact ⟨hD.pidGen, fun x hx => ((hD.alive x).1 hx).1⟩
  · rw [exitParticle_of_dead reason hp]
    exact .refl reg

theorem noBirth_applyInheritedExit (reg : ParticleRegistry)
    (target source : Pid) (reason : ExitReason) :
    NoBirth reg (reg.applyInheritedExit target source reason) := by
  cases hs : reg.state target with
  | none =>
    rw [applyInheritedExit_of_dead source reason hs]
    exact .refl reg
  | some s =>
    cases ht : s.trapExit with
    | true =>
      rw [applyInheritedExit_of_trapping source reason hs ht]
      exact (sameLife_modifyState reg target _).noBirth
    | false =>
      rw [applyInheritedExit_of_not_trapping source reason hs ht]
      split
      · exact noBirth_exitParticle reg target reason
      · exact .refl reg

theorem noBirth_applyDirectedExit (reg : ParticleRegistry)
    (target source : Pid) (reason : ExitReason) :
    NoBirth reg (reg.applyDirectedExit target source reason) := by
  by_cases h : reason = .kill
  · subst h
    rw [applyDirectedExit_kill]
    exact noBirth_exitParticle reg target .killed
  · rw [applyDirectedExit_of_ne_kill source h]
    exact noBirth_applyInheritedExit reg target source reason

/-- Only `spawn` draws pids and brings particles to life. -/
theorem noBirth_perform (reg : ParticleRegistry) (op : RegistryOp) :
    NoBirth reg (reg.perform op) := by
  cases op with
  | atomic op => exact (sameLife_performSection reg op).noBirth
  | registerName pid name =>
    show NoBirth reg (reg.registerName pid name).1
    unfold registerName
    split
    · exact .refl reg
    · exact ⟨rfl, fun _ h => h⟩
  | unregisterName pid name =>
    show NoBirth reg (reg.unregisterName pid name).1
    unfold unregisterName
    split
    · split
      · exact ⟨rfl, fun _ h => h⟩
      · exact .refl reg
    · exact .refl reg
  | exit pid reason => exact noBirth_exitParticle reg pid reason
  | inheritedExit target source reason =>
    exact noBirth_applyInheritedExit reg target source reason
  | directedExit target source reason =>
    exact noBirth_applyDirectedExit reg target source reason

/-! ## Who dies -/

/-- The particle traps exits. -/
def traps (reg : ParticleRegistry) (pid : Pid) : Bool :=
  (reg.state pid).any fun s => s.trapExit

theorem not_alive_exitParticle (reg : ParticleRegistry) (pid : Pid)
    (reason : ExitReason) : ¬ (reg.exitParticle pid reason).Alive pid := by
  by_cases hp : reg.Alive pid
  · obtain ⟨D, hD⟩ := exitParticle_exact reason hp
    rw [hD.alive]
    exact fun h => h.2 hD.least.1.1
  · rw [exitParticle_of_dead reason hp]
    exact hp

/-- A particle that a cascade reaches dies of it. -/
theorem not_alive_of_cascades {reg : ParticleRegistry} {p x : Pid}
    {reason : ExitReason}
    (h : Relation.TransGen (reg.Cascades reason) p x) :
    ¬ (reg.exitParticle p reason).Alive x := by
  have hp : reg.Alive p := by
    obtain ⟨y, ⟨-, hlink, -⟩, -⟩ := Relation.TransGen.head'_iff.1 h
    obtain ⟨st, hst, -⟩ := mem_linksOf.1 hlink
    exact alive_iff.2 ⟨st, hst⟩
  obtain ⟨D, hD⟩ := exitParticle_exact reason hp
  have hmem : x ∈ D := by
    induction h with
    | single hcascade => exact hD.least.1.2 _ _ hD.least.1.1 hcascade
    | tail _ hcascade ih => exact hD.least.1.2 _ _ ih hcascade
  rw [hD.alive]
  exact fun halive => halive.2 hmem

/-! ## What a spawn does to the pid counter -/

/-- A pid was drawn.  It may be alive now, and nobody else is new. -/
structure Draws (reg reg' : ParticleRegistry) : Prop where
  pidGen : reg'.pidGen = reg.pidGen.next.2
  alive : ∀ p, reg'.Alive p → p = reg.pidGen.peek ∨ reg.Alive p

theorem alive_insertState {reg : ParticleRegistry} {pid p : Pid} :
    (reg.insertState pid).Alive p ↔ p = pid ∨ reg.Alive p :=
  AList.mem_insert _

theorem alive_removeState {reg : ParticleRegistry} {pid p : Pid} :
    (reg.removeState pid).Alive p ↔ p ≠ pid ∧ reg.Alive p :=
  AList.mem_erase

/-- A refused spawn draws nothing. -/
theorem spawn_of_refused {reg : ParticleRegistry} {component err : String}
    {name : Option String} (h : reg.spawnRefused component name = some err) :
    reg.spawn component name = (reg, .error err) := by
  rw [spawn, h]

/-- Run alone, a spawn that is not refused succeeds: the name it re-checks
is the one it checked. -/
theorem spawn_of_not_refused {reg : ParticleRegistry} {component : String}
    {name : Option String} (h : reg.spawnRefused component name = none) :
    (reg.spawn component name).2 = .ok reg.pidGen.peek ∧
      Draws reg (reg.spawn component name).1 := by
  cases name with
  | none =>
    rw [spawn, h]
    exact ⟨rfl, rfl, fun p hp => alive_insertState.1 hp⟩
  | some n =>
    have hn : n ∉ reg.names := by
      intro hmem
      simp [spawnRefused, hmem] at h
    have hspawn : reg.spawn component (some n) =
        (((reg.drawPid.2.insertEntry ⟨reg.pidGen.peek, component, some n⟩
          ).insertState reg.pidGen.peek).bindName n reg.pidGen.peek,
          .ok reg.pidGen.peek) := by
      rw [spawn, h]
      exact if_neg hn
    rw [hspawn]
    exact ⟨rfl, rfl, fun p hp => alive_insertState.1 hp⟩

/-- What a successful spawn does. -/
structure Spawns (reg reg' : ParticleRegistry) : Prop where
  pidGen : reg'.pidGen = reg.pidGen.next.2
  state : ∀ x, reg'.state x =
    if x = reg.pidGen.peek then some .new else reg.state x
  deaths : reg'.deaths = reg.deaths

theorem spawn_ok {reg reg' : ParticleRegistry} {component : String}
    {name : Option String} {pid : Pid}
    (h : reg.spawn component name = (reg', .ok pid)) :
    pid = reg.pidGen.peek ∧ Spawns reg reg' := by
  have hinsert : ∀ x, ((reg.drawPid.2.insertEntry
      ⟨reg.pidGen.peek, component, name⟩).insertState reg.pidGen.peek).state x =
      if x = reg.pidGen.peek then some .new else reg.state x :=
    fun x => Table.lookup_insert_eq _ _ _ _
  rw [spawn] at h
  split at h
  · cases h
  · cases name with
    | none =>
      cases h
      exact ⟨rfl, rfl, hinsert, rfl⟩
    | some n =>
      simp only at h
      split at h
      · cases h
      · cases h
        exact ⟨rfl, rfl, hinsert, rfl⟩

/-- A spawn leaves the states of the others alone. -/
theorem state_spawn (reg : ParticleRegistry) (component : String)
    (name : Option String) {x : Pid} (hx : x ≠ reg.pidGen.peek) :
    (reg.spawn component name).1.state x = reg.state x := by
  cases hr : reg.spawnRefused component name with
  | some err => rw [spawn_of_refused hr]
  | none =>
    obtain ⟨hok, -⟩ := spawn_of_not_refused hr
    obtain ⟨-, hs⟩ := spawn_ok (Prod.ext rfl hok)
    rw [hs.state, if_neg hx]

theorem me_spawn (reg : ParticleRegistry) (component : String)
    (name : Option String) : (reg.spawn component name).1.me = reg.me := by
  cases hr : reg.spawnRefused component name with
  | some err => rw [spawn_of_refused hr]
  | none =>
    rw [me, (spawn_of_not_refused hr).2.pidGen]
    rfl

theorem spawnOvertaken_of_not_refused {reg : ParticleRegistry}
    {component name : String}
    (h : reg.spawnRefused component (some name) = none) :
    Draws reg (reg.spawnOvertaken component name).1 ∧
      ∀ p, (reg.spawnOvertaken component name).1.Alive p → reg.Alive p := by
  have hback : ∀ p, (reg.spawnOvertaken component name).1.Alive p →
      reg.Alive p := by
    intro p hp
    rw [spawnOvertaken, h] at hp
    obtain ⟨hne, hp⟩ := alive_removeState.1 hp
    exact (alive_insertState.1 hp).resolve_left hne
  refine ⟨⟨?_, fun p hp => Or.inr (hback p hp)⟩, hback⟩
  rw [spawnOvertaken, h]
  rfl

end ParticleRegistry

end Plasmoid
