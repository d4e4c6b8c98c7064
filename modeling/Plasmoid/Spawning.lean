import Plasmoid.Operations

/-!
# Spawning a particle

Five entry points share one path: look the component up, spawn in the
registry, and start the component.  They differ in the words of their errors,
and `spawn-link` records a link before it starts the component.

`start_particle` runs the component under a third-party engine, so what the
engine finds in a component is a parameter, `ComponentCode`.  The function
that was started runs on its own: all it does later is not part of the spawn.
-/

namespace Plasmoid

/-- What the engine finds in a component. -/
structure ComponentCode where
  instantiates : Bool
  /-- The component exports a `start` function. -/
  exportsStart : Bool
  /-- The number of parameters of the `start` function. -/
  params : Nat
  /-- Whether the arguments parse against the parameters. -/
  parses : String → Bool

/-- `start_particle`, up to the point where the function runs on its own. -/
def startParticle (code : ComponentCode) (initArgs : String) :
    Except String Unit :=
  if ¬ code.instantiates then .error "component does not instantiate"
  else if ¬ code.exportsStart then
    .error "component does not export a 'start' function"
  else if code.params = 0 ∧ initArgs = "" then .ok ()
  else if code.parses initArgs then .ok ()
  else .error "arguments do not parse"

/-- Where a spawn failed. -/
inductive SpawnStep where
  /-- The caller has no registry or no engine. -/
  | detached
  | component
  | registry (error : String)
  | start (error : String)
deriving DecidableEq

/-- What a spawn asks for. -/
structure SpawnArgs where
  component : String
  name : Option String
  initArgs : String

/-- The circumstances of a spawn: the code behind the components, and whether
another spawn takes the name between the check and the second check. -/
structure SpawnContext where
  code : String → ComponentCode
  overtaken : Bool

namespace ParticleRegistry

/-- `spawn` in the registry, overtaken or not. -/
def spawnIn (reg : ParticleRegistry) (ctx : SpawnContext) (args : SpawnArgs) :
    ParticleRegistry × Except String Pid :=
  match ctx.overtaken, args.name with
  | true, some name => reg.spawnOvertaken args.component name
  | _, _ => reg.spawn args.component args.name

/-- The path that the entry points share.  `before` is what the entry point
does to the registry before it starts the component. -/
def spawnAndStart (before : ParticleRegistry → Pid → ParticleRegistry)
    (reg : ParticleRegistry) (ctx : SpawnContext) (args : SpawnArgs) :
    ParticleRegistry × Except SpawnStep Pid :=
  if args.component ∉ reg.components then (reg, .error .component)
  else
    match reg.spawnIn ctx args with
    | (reg, .error e) => (reg, .error (.registry e))
    | (reg, .ok pid) =>
      match startParticle (ctx.code args.component) args.initArgs with
      | .error e => (before reg pid, .error (.start e))
      | .ok () => (before reg pid, .ok pid)

/-- The words in which an entry point reports an error. -/
def reporting {ε : Type} (words : SpawnStep → ε)
    (r : ParticleRegistry × Except SpawnStep Pid) :
    ParticleRegistry × Except ε Pid :=
  (r.1, r.2.mapError words)

/-- A guest calls `spawn`. -/
def hostSpawn (attached : Bool) (reg : ParticleRegistry) (ctx : SpawnContext)
    (args : SpawnArgs) : ParticleRegistry × Except SpawnFailure Pid :=
  reporting (fun
      | .component => .componentNotFound
      | _ => .initFailed)
    (if attached then reg.spawnAndStart (fun reg _ => reg) ctx args
    else (reg, .error .detached))

/-- The guest of `me` calls `spawn-link`.  The link is recorded before the
child is started. -/
def hostSpawnLink (attached : Bool) (me : Pid) (reg : ParticleRegistry)
    (ctx : SpawnContext) (args : SpawnArgs) :
    ParticleRegistry × Except SpawnFailure Pid :=
  reporting (fun
      | .component => .componentNotFound
      | _ => .initFailed)
    (if attached then
      reg.spawnAndStart (fun reg pid => (reg.link me pid).1) ctx args
    else (reg, .error .detached))

/-- Another node asks for a spawn here. -/
def handleSpawn (reg : ParticleRegistry) (ctx : SpawnContext)
    (args : SpawnArgs) : ParticleRegistry × Except SpawnFailure Pid :=
  reporting (fun
      | .component => .componentNotFound
      | .registry _ => .resourceLimit
      | _ => .initFailed)
    (reg.spawnAndStart (fun reg _ => reg) ctx args)

/-- `spawn-on` names our own node. -/
def localSpawn (reg : ParticleRegistry) (ctx : SpawnContext)
    (args : SpawnArgs) : ParticleRegistry × Except SpawnFailure Pid :=
  reporting (fun
      | .component => .componentNotFound
      | .registry _ => .resourceLimit
      | _ => .initFailed)
    (reg.spawnAndStart (fun reg _ => reg) ctx args)

/-- `Runtime::spawn`.  The texts are those of the failing step. -/
def runtimeSpawn (reg : ParticleRegistry) (ctx : SpawnContext)
    (args : SpawnArgs) : ParticleRegistry × Except String Pid :=
  reporting (fun
      | .component => s!"component '{args.component}' not registered"
      | .registry e | .start e => e
      | .detached => "")
    (reg.spawnAndStart (fun reg _ => reg) ctx args)

end ParticleRegistry

/-- The entry points. -/
inductive SpawnEntry where
  | host (attached : Bool)
  | hostLink (attached : Bool) (me : Pid)
  | handleSpawn
  | localSpawn
  | runtime

/-- The entry point has a registry and an engine. -/
def SpawnEntry.attached : SpawnEntry → Bool
  | .host attached | .hostLink attached _ => attached
  | .handleSpawn | .localSpawn | .runtime => true

/-- What the entry point does before it starts the component. -/
def SpawnEntry.before (entry : SpawnEntry) (reg : ParticleRegistry)
    (pid : Pid) : ParticleRegistry :=
  match entry with
  | .hostLink _ me => (reg.link me pid).1
  | _ => reg

namespace ParticleRegistry

/-- Spawn through an entry point.  The answer is whether it reported an
error. -/
def spawnThrough (entry : SpawnEntry) (reg : ParticleRegistry)
    (ctx : SpawnContext) (args : SpawnArgs) : ParticleRegistry × Bool :=
  let failed {ε : Type} (r : ParticleRegistry × Except ε Pid) :=
    (r.1, !r.2.toBool)
  match entry with
  | .host attached => failed (reg.hostSpawn attached ctx args)
  | .hostLink attached me => failed (reg.hostSpawnLink attached me ctx args)
  | .handleSpawn => failed (reg.handleSpawn ctx args)
  | .localSpawn => failed (reg.localSpawn ctx args)
  | .runtime => failed (reg.runtimeSpawn ctx args)

/-- The particles, their states with all links, and the names are the
same. -/
structure SameTables (reg reg' : ParticleRegistry) : Prop where
  states : ∀ p, reg'.state p = reg.state p
  particles : ∀ p, reg'.particles.lookup p = reg.particles.lookup p
  names : ∀ n, reg'.names.lookup n = reg.names.lookup n

theorem SameTables.refl (reg : ParticleRegistry) : SameTables reg reg :=
  ⟨fun _ => rfl, fun _ => rfl, fun _ => rfl⟩

/-- A spawn that reports an error leaves nothing behind. -/
def LeavesNothing (entry : SpawnEntry) (reg : ParticleRegistry)
    (ctx : SpawnContext) (args : SpawnArgs) : Prop :=
  (reg.spawnThrough entry ctx args).2 = true →
    SameTables reg (reg.spawnThrough entry ctx args).1

/-- The pid that the next spawn draws is not in use.  Only a counter that has
wrapped around can hand out one that is. -/
structure NextFree (reg : ParticleRegistry) : Prop where
  states : ¬ reg.Alive reg.pidGen.peek
  particles : reg.pidGen.peek ∉ reg.particles

/-- The registry takes the particle in, and then the component does not
start. -/
structure StartsInVain (entry : SpawnEntry) (reg : ParticleRegistry)
    (ctx : SpawnContext) (args : SpawnArgs) : Prop where
  attached : entry.attached = true
  component : args.component ∈ reg.components
  accepted : reg.spawnRefused args.component args.name = none
  undisturbed : ctx.overtaken = true → args.name = none
  fails : startParticle (ctx.code args.component) args.initArgs ≠ .ok ()

theorem spawnThrough_eq (entry : SpawnEntry) (reg : ParticleRegistry)
    (ctx : SpawnContext) (args : SpawnArgs) :
    reg.spawnThrough entry ctx args =
      if entry.attached = true then
        ((reg.spawnAndStart entry.before ctx args).1,
          !(reg.spawnAndStart entry.before ctx args).2.toBool)
      else (reg, true) := by
  have hfailed : ∀ {ε : Type} (words : SpawnStep → ε)
      (r : ParticleRegistry × Except SpawnStep Pid),
      (reporting words r).2.toBool = r.2.toBool := by
    rintro ε words ⟨reg, e | pid⟩ <;> rfl
  cases entry with
  | host attached =>
    cases attached <;> simp [spawnThrough, hostSpawn, hfailed] <;> rfl
  | hostLink attached me =>
    cases attached <;> simp [spawnThrough, hostSpawnLink, hfailed] <;> rfl
  | handleSpawn => simp [spawnThrough, handleSpawn, hfailed]; rfl
  | localSpawn => simp [spawnThrough, localSpawn, hfailed]; rfl
  | runtime => simp [spawnThrough, runtimeSpawn, hfailed]; rfl

/-- A spawn that is overtaken takes back what it inserted. -/
theorem sameTables_spawnOvertaken {reg : ParticleRegistry}
    (hfree : reg.NextFree) (component name : String) :
    SameTables reg (reg.spawnOvertaken component name).1 := by
  unfold spawnOvertaken
  split
  · exact .refl reg
  · refine ⟨fun p => ?_, fun p => ?_, fun n => rfl⟩
    · show ((reg.particleStates.insert _ _).erase _).lookup p = _
      rw [Table.lookup_erase_eq, Table.lookup_insert_eq]
      split
      · rename_i hp
        rw [hp]
        exact (not_alive_iff.1 hfree.states).symm
      · rfl
    · show ((reg.particles.insert _ _).erase _).lookup p = _
      rw [Table.lookup_erase_eq, Table.lookup_insert_eq]
      split
      · rename_i hp
        rw [hp]
        exact (AList.lookup_eq_none.2 hfree.particles).symm
      · rfl

/-- What the registry makes of a spawn: an error that leaves its tables as
they were, or a particle. -/
theorem spawnIn_cases {reg : ParticleRegistry} (hfree : reg.NextFree)
    (ctx : SpawnContext) (args : SpawnArgs) :
    (∃ reg' e, reg.spawnIn ctx args = (reg', .error e) ∧
      SameTables reg reg' ∧
      (reg.spawnRefused args.component args.name = none →
        ctx.overtaken = true ∧ args.name ≠ none)) ∨
    ∃ reg', reg.spawnIn ctx args = (reg', .ok reg.pidGen.peek) ∧
      reg'.Alive reg.pidGen.peek ∧
      reg.spawnRefused args.component args.name = none ∧
      (ctx.overtaken = true → args.name = none) := by
  have hspawn : (ctx.overtaken = true → args.name = none) →
      reg.spawnIn ctx args = reg.spawn args.component args.name := by
    intro h
    unfold spawnIn
    split
    · rename_i hover hname
      rw [h hover] at hname
      cases hname
    · rfl
  by_cases hover : ctx.overtaken = true → args.name = none
  · rw [hspawn hover]
    cases hrefused : reg.spawnRefused args.component args.name with
    | some err =>
      left
      rw [spawn_of_refused hrefused]
      exact ⟨reg, err, rfl, .refl reg, nofun⟩
    | none =>
      right
      obtain ⟨hok, -⟩ := spawn_of_not_refused hrefused
      obtain ⟨-, hspawns⟩ := spawn_ok (Prod.ext rfl hok)
      refine ⟨_, Prod.ext rfl hok, alive_iff.2 ⟨.new, ?_⟩, rfl, hover⟩
      rw [hspawns.state, if_pos rfl]
  · left
    push Not at hover
    obtain ⟨hover, hname⟩ := hover
    obtain ⟨n, hn⟩ := Option.ne_none_iff_exists'.1 hname
    have heq : reg.spawnIn ctx args = reg.spawnOvertaken args.component n := by
      rw [spawnIn, hover, hn]
    have herror : ∃ e, (reg.spawnOvertaken args.component n).2 = .error e := by
      unfold spawnOvertaken
      split
      · exact ⟨_, rfl⟩
      · exact ⟨_, rfl⟩
    obtain ⟨e, he⟩ := herror
    rw [heq]
    exact ⟨_, e, Prod.ext rfl he, sameTables_spawnOvertaken hfree _ _,
      fun _ => ⟨hover, hname⟩⟩

theorem alive_before (entry : SpawnEntry) (reg : ParticleRegistry)
    (pid p : Pid) : (entry.before reg pid).Alive p ↔ reg.Alive p := by
  cases entry with
  | hostLink attached me =>
    exact (sameLife_performSection reg (.link me pid)).alive p
  | host attached => exact Iff.rfl
  | handleSpawn => exact Iff.rfl
  | localSpawn => exact Iff.rfl
  | runtime => exact Iff.rfl

/-- A spawn that fails leaves nothing behind, unless it fails when the
registry has already taken the particle in. -/
theorem failed_spawn_leaves_nothing (entry : SpawnEntry)
    (reg : ParticleRegistry) (ctx : SpawnContext) (args : SpawnArgs)
    (hfree : reg.NextFree) :
    LeavesNothing entry reg ctx args ↔ ¬ StartsInVain entry reg ctx args := by
  rw [LeavesNothing, spawnThrough_eq]
  cases hattached : entry.attached with
  | false =>
    have hnot : ¬ StartsInVain entry reg ctx args := by
      intro h
      rw [h.attached] at hattached
      cases hattached
    exact ⟨fun _ => hnot, fun _ _ => .refl reg⟩
  | true =>
    rw [if_pos rfl, spawnAndStart]
    by_cases hcomponent : args.component ∈ reg.components
    · rw [if_neg (not_not.2 hcomponent)]
      obtain ⟨reg', e, hin, hsame, hcause⟩ | ⟨reg', hin, halive, haccepted, hover⟩ :=
        spawnIn_cases hfree ctx args
      · have hnot : ¬ StartsInVain entry reg ctx args := by
          intro h
          obtain ⟨hover, hname⟩ := hcause h.accepted
          exact hname (h.undisturbed hover)
        rw [hin]
        exact ⟨fun _ => hnot, fun _ _ => hsame⟩
      · rw [hin]
        dsimp only
        split
        · rename_i e hstart
          have hvain : StartsInVain entry reg ctx args := by
            refine ⟨hattached, hcomponent, haccepted, hover, ?_⟩
            rw [hstart]
            exact nofun
          -- The particle that never started is in the table for good.
          have hleft : ¬ SameTables reg (entry.before reg' reg.pidGen.peek) := by
            intro hsame
            apply hfree.states
            rw [alive_iff]
            have hthere := (alive_before entry reg' reg.pidGen.peek
              reg.pidGen.peek).2 halive
            obtain ⟨st, hst⟩ := alive_iff.1 hthere
            exact ⟨st, (hsame.states _).symm.trans hst⟩
          exact ⟨fun h => absurd (h rfl) hleft, fun h => absurd hvain h⟩
        · rename_i hstart
          have hnot : ¬ StartsInVain entry reg ctx args :=
            fun h => h.fails hstart
          exact ⟨fun _ => hnot, fun _ h => nomatch h⟩
    · have hnot : ¬ StartsInVain entry reg ctx args :=
        fun h => hcomponent h.component
      rw [if_pos hcomponent]
      exact ⟨fun _ => hnot, fun _ _ => .refl reg⟩

/-- A node with one component and one particle. -/
def oneWorker : ParticleRegistry :=
  (((ParticleRegistry.new ⟨1⟩).registerComponent "worker").spawn "worker"
    none).1

/-- Components that export no `start` function. -/
def noStart : SpawnContext where
  code _ := ⟨true, false, 0, fun _ => true⟩
  overtaken := false

/-- A named worker. -/
def namedWorker : SpawnArgs := ⟨"worker", some "db", ""⟩

instance (reg : ParticleRegistry) : Decidable reg.NextFree :=
  decidable_of_iff (¬ reg.Alive reg.pidGen.peek ∧
      reg.pidGen.peek ∉ reg.particles)
    ⟨fun h => ⟨h.1, h.2⟩, fun h => ⟨h.states, h.particles⟩⟩

/-- A component without a `start` function keeps its name and leaves its
parent with a link to it. -/
theorem failed_start_leaves_name_and_link :
    ¬ LeavesNothing (.hostLink true ⟨⟨1⟩, 1⟩) oneWorker noStart namedWorker := by
  intro h
  have hname := (h (by decide)).names "db"
  exact absurd hname (by decide)

theorem failed_spawn_leaves_nothing_oneWorker :
    LeavesNothing (.hostLink true ⟨⟨1⟩, 1⟩) oneWorker noStart
        ⟨"ghost", some "db", ""⟩ ↔
      ¬ StartsInVain (.hostLink true ⟨⟨1⟩, 1⟩) oneWorker noStart
        ⟨"ghost", some "db", ""⟩ :=
  failed_spawn_leaves_nothing _ _ _ _ (by decide)

end ParticleRegistry

end Plasmoid
