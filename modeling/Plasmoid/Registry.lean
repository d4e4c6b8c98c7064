import Plasmoid.Lib.Table
import Plasmoid.Message

/-!
# The particle registry

The local registry of one node: the running particles, their names, and the
links and monitors between them.  Every field of the source sits behind its
own lock, so each critical section is a function of its own here, and the
operations of the source are compositions of them.

* `removeState`, `removeEntry`, `dropNames`, `publishDeath`, `unhook` and
  `deliverSignals` are the critical sections of `exit_particle`.  `bury`
  runs the first four and `settlePeers` the last two.  `exitOne` runs them
  all for one particle and answers the peers to cascade to.
* `exitFuel` is the recursion of `exit_particle`.  The fuel bounds its depth,
  and `exitParticle` is the run with enough fuel.
* The other definitions are one critical section each.

The compiled code of a component is left out: no modelled function reads it.
-/

namespace Plasmoid

/-- A running particle instance. -/
structure ParticleEntry where
  pid : Pid
  componentName : String
  name : Option String
deriving DecidableEq

/-- Links, monitors and mailbox of one particle. -/
structure ParticleState where
  links : KeySet Pid
  monitors : Table UInt64 Pid
  monitoredBy : List (Pid × UInt64)
  trapExit : Bool
  mailbox : Mailbox

/-- The state of a particle that was just spawned. -/
def ParticleState.new : ParticleState where
  links := ∅
  monitors := ∅
  monitoredBy := []
  trapExit := false
  mailbox := .new

/-- Broadcast when a particle dies. -/
structure ParticleDeath where
  pid : Pid
  name : Option String
  reason : ExitReason
  remoteLinks : List Pid
  remoteMonitors : List (Pid × UInt64)
deriving DecidableEq, Repr

/-- The registry of one node.  `deaths` is everything ever published, oldest
first; each subscriber reads it at its own pace. -/
structure ParticleRegistry where
  pidGen : PidGenerator
  particles : Table Pid ParticleEntry
  names : Table String Pid
  components : KeySet String
  particleStates : Table Pid ParticleState
  nextRef : UInt64
  deaths : List ParticleDeath

namespace ParticleRegistry

/-- An empty registry of `node`. -/
def new (node : EndpointId) : ParticleRegistry where
  pidGen := .new node
  particles := ∅
  names := ∅
  components := ∅
  particleStates := ∅
  nextRef := 1
  deaths := []

/-- The node of this registry. -/
def me (reg : ParticleRegistry) : EndpointId := reg.pidGen.node

/-- The state of a live local particle. -/
def state (reg : ParticleRegistry) (pid : Pid) : Option ParticleState :=
  reg.particleStates.lookup pid

/-- `particle_exists`: the registry holds a state for the pid. -/
def Alive (reg : ParticleRegistry) (pid : Pid) : Prop :=
  pid ∈ reg.particleStates

instance (reg : ParticleRegistry) (pid : Pid) : Decidable (reg.Alive pid) :=
  inferInstanceAs (Decidable (pid ∈ reg.particleStates))

theorem alive_iff {reg : ParticleRegistry} {pid : Pid} :
    reg.Alive pid ↔ ∃ s, reg.state pid = some s :=
  Table.mem_iff_lookup

theorem not_alive_iff {reg : ParticleRegistry} {pid : Pid} :
    ¬ reg.Alive pid ↔ reg.state pid = none :=
  AList.lookup_eq_none.symm

/-- Rewrite the state of one particle, if it is alive. -/
def modifyState (reg : ParticleRegistry) (pid : Pid)
    (f : ParticleState → ParticleState) : ParticleRegistry :=
  { reg with particleStates := Table.modify pid f reg.particleStates }

theorem state_modifyState (reg : ParticleRegistry) (pid x : Pid)
    (f : ParticleState → ParticleState) :
    (reg.modifyState pid f).state x =
      if x = pid then (reg.state x).map f else reg.state x :=
  Table.lookup_modify _ _ _ _

@[simp] theorem alive_modifyState {reg : ParticleRegistry} {pid x : Pid}
    {f : ParticleState → ParticleState} :
    (reg.modifyState pid f).Alive x ↔ reg.Alive x :=
  Table.mem_modify

@[simp] theorem me_modifyState (reg : ParticleRegistry) (pid : Pid)
    (f : ParticleState → ParticleState) : (reg.modifyState pid f).me = reg.me :=
  rfl

@[simp] theorem deaths_modifyState (reg : ParticleRegistry) (pid : Pid)
    (f : ParticleState → ParticleState) :
    (reg.modifyState pid f).deaths = reg.deaths := rfl

/-! ## Spawning -/

/-- The early check of `spawn`: a free name, and a registered component. -/
def spawnRefused (reg : ParticleRegistry) (component : String)
    (name : Option String) : Option String :=
  match name with
  | some n =>
    if n ∈ reg.names then some s!"name '{n}' is already registered"
    else if component ∈ reg.components then none
    else some s!"component '{component}' not registered"
  | none =>
    if component ∈ reg.components then none
    else some s!"component '{component}' not registered"

/-- Draw the next pid. -/
def drawPid (reg : ParticleRegistry) : Pid × ParticleRegistry :=
  (reg.pidGen.peek, { reg with pidGen := reg.pidGen.next.2 })

def insertEntry (reg : ParticleRegistry) (entry : ParticleEntry) :
    ParticleRegistry :=
  { reg with particles := reg.particles.insert entry.pid entry }

def insertState (reg : ParticleRegistry) (pid : Pid) : ParticleRegistry :=
  { reg with particleStates := reg.particleStates.insert pid .new }

def bindName (reg : ParticleRegistry) (name : String) (pid : Pid) :
    ParticleRegistry :=
  { reg with names := reg.names.insert name pid }

def removeState (reg : ParticleRegistry) (pid : Pid) : ParticleRegistry :=
  { reg with particleStates := reg.particleStates.erase pid }

def removeEntry (reg : ParticleRegistry) (pid : Pid) : ParticleRegistry :=
  { reg with particles := reg.particles.erase pid }

/-- `spawn` run to completion: check, draw, insert, then bind the name after
checking it again, rolling the inserts back if the name is taken. -/
def spawn (reg : ParticleRegistry) (component : String)
    (name : Option String) : ParticleRegistry × Except String Pid :=
  match reg.spawnRefused component name with
  | some err => (reg, .error err)
  | none =>
    let (pid, reg) := reg.drawPid
    let reg := (reg.insertEntry ⟨pid, component, name⟩).insertState pid
    match name with
    | none => (reg, .ok pid)
    | some n =>
      if n ∈ reg.names then
        ((reg.removeState pid).removeEntry pid,
          .error s!"name '{n}' is already registered")
      else (reg.bindName n pid, .ok pid)

/-! ## Names -/

/-- `register_name`: refuse a name that is bound, else bind it. -/
def registerName (reg : ParticleRegistry) (pid : Pid) (name : String) :
    ParticleRegistry × Except String Unit :=
  if name ∈ reg.names then
    (reg, .error s!"name '{name}' is already registered")
  else (reg.bindName name pid, .ok ())

/-- `unregister_name`: only the owner may drop a name. -/
def unregisterName (reg : ParticleRegistry) (pid : Pid) (name : String) :
    ParticleRegistry × Except String Unit :=
  match reg.names.lookup name with
  | some owner =>
    if owner = pid then
      ({ reg with names := reg.names.erase name }, .ok ())
    else
      (reg, .error s!"name '{name}' is registered to a different particle")
  | none => (reg, .error s!"name '{name}' is not registered")

/-- `get_by_name` and `lookup_name`. -/
def getByName (reg : ParticleRegistry) (name : String) : Option Pid :=
  reg.names.lookup name

/-- The names that `pid` holds, in the order of the scan. -/
def namesHeld (reg : ParticleRegistry) (pid : Pid) : List String :=
  Table.keysWhere (fun owner => owner = pid) reg.names

/-- Drop every name that `pid` holds. -/
def dropNames (reg : ParticleRegistry) (pid : Pid) : ParticleRegistry :=
  { reg with
    names := (reg.namesHeld pid).foldl (fun t n => t.erase n) reg.names }

/-! ## Links, monitors and signals -/

def link (reg : ParticleRegistry) (a b : Pid) :
    ParticleRegistry × Except String Unit :=
  if ¬ reg.Alive a then (reg, .error s!"no particle for pid '{a.display}'")
  else if ¬ reg.Alive b then (reg, .error s!"no particle for pid '{b.display}'")
  else
    ((reg.modifyState a fun s => { s with links := s.links.insert b }).modifyState
      b fun s => { s with links := s.links.insert a }, .ok ())

def setTrapExit (reg : ParticleRegistry) (pid : Pid) (enabled : Bool) :
    ParticleRegistry :=
  reg.modifyState pid fun s => { s with trapExit := enabled }

/-- Record our half of a link to a particle on another node. -/
def linkRemote (reg : ParticleRegistry) (loc remote : Pid) :
    ParticleRegistry :=
  reg.modifyState loc fun s => { s with links := s.links.insert remote }

def unlinkRemote (reg : ParticleRegistry) (loc remote : Pid) :
    ParticleRegistry :=
  reg.modifyState loc fun s => { s with links := s.links.remove remote }

/-- Record a monitor that crosses nodes, on whichever side is local. -/
def monitorRemote (reg : ParticleRegistry) (watcher target : Pid)
    (refId : UInt64) : ParticleRegistry :=
  (reg.modifyState watcher fun s =>
      { s with monitors := s.monitors.insert refId target }).modifyState
    target fun s => { s with monitoredBy := s.monitoredBy ++ [(watcher, refId)] }

/-- `send_system`: push a signal into the mailbox of a live particle. -/
def sendSystem (reg : ParticleRegistry) (pid : Pid) (msg : SystemMessage) :
    ParticleRegistry :=
  reg.modifyState pid fun s => { s with mailbox := s.mailbox.pushSystem msg }

def deliverExit (reg : ParticleRegistry) (target source : Pid)
    (reason : ExitReason) : ParticleRegistry :=
  reg.sendSystem target (.exit source reason)

def deliverDown (reg : ParticleRegistry) (target source : Pid)
    (refId : UInt64) (reason : ExitReason) : ParticleRegistry :=
  reg.sendSystem target (.down source refId reason)

/-! ## Exit propagation -/

/-- Publish a death on the broadcast. -/
def publishDeath (reg : ParticleRegistry) (death : ParticleDeath) :
    ParticleRegistry :=
  { reg with deaths := reg.deaths ++ [death] }

/-- The death record of a particle.  The relationships that cross to other
nodes ride along, for the forwarder. -/
def deathOf (me : EndpointId) (pid : Pid) (st : ParticleState)
    (name : Option String) (reason : ExitReason) : ParticleDeath where
  pid := pid
  name := name
  reason := reason
  remoteLinks := st.links.toList.filter fun p => !p.isLocalTo me
  remoteMonitors := st.monitoredBy.filter fun w => !w.1.isLocalTo me

/-- What the loop over the links and monitors of a dead particle collects:
the mailboxes to signal and the peers to kill, both served after the lock is
released. -/
structure ExitWork where
  states : Table Pid ParticleState
  exitDeliveries : List Pid
  downDeliveries : List (Pid × UInt64)
  cascadeKills : List Pid

/-- One turn of the loop over the links. -/
def visitLink (pid : Pid) (reason : ExitReason) (w : ExitWork) (linked : Pid) :
    ExitWork :=
  match w.states.lookup linked with
  | none => w
  | some peer =>
    let states := Table.modify linked
      (fun s => { s with links := s.links.remove pid }) w.states
    if peer.trapExit then
      { w with states, exitDeliveries := w.exitDeliveries ++ [linked] }
    else if reason.isAbnormal then
      { w with states, cascadeKills := w.cascadeKills ++ [linked] }
    else { w with states }

/-- One turn of the loop over the watchers. -/
def visitWatcher (w : ExitWork) (watch : Pid × UInt64) : ExitWork :=
  match w.states.lookup watch.1 with
  | none => w
  | some _ =>
    { w with
      states := Table.modify watch.1
        (fun s => { s with monitors := s.monitors.erase watch.2 }) w.states
      downDeliveries := w.downDeliveries ++ [watch] }

/-- The critical section that unhooks a dead particle from its peers. -/
def unhook (states : Table Pid ParticleState) (pid : Pid) (st : ParticleState)
    (reason : ExitReason) : ExitWork :=
  st.monitoredBy.foldl visitWatcher
    (st.links.toList.foldl (visitLink pid reason) ⟨states, [], [], []⟩)

/-- The deliveries made after the lock is released. -/
def deliverSignals (reg : ParticleRegistry) (pid : Pid) (reason : ExitReason)
    (w : ExitWork) : ParticleRegistry :=
  let reg := w.exitDeliveries.foldl
    (fun reg x => reg.sendSystem x (.exit pid reason)) reg
  w.downDeliveries.foldl
    (fun reg d => reg.sendSystem d.1 (.down pid d.2 reason)) reg

/-- The first critical sections of `exit_particle`: remove the state, the
entry and the names of `pid`, and publish its death. -/
def bury (reg : ParticleRegistry) (pid : Pid) (st : ParticleState)
    (reason : ExitReason) : ParticleRegistry :=
  let reg := (reg.removeState pid).removeEntry pid
  let held := reg.namesHeld pid
  (reg.dropNames pid).publishDeath (deathOf reg.me pid st held.head? reason)

/-- The last ones: unhook `pid` from its peers, then deliver the signals. -/
def settlePeers (reg : ParticleRegistry) (pid : Pid) (st : ParticleState)
    (reason : ExitReason) : ParticleRegistry :=
  let w := unhook reg.particleStates pid st reason
  deliverSignals { reg with particleStates := w.states } pid reason w

/-- Everything `exit_particle` does for `pid` itself, and the peers it then
cascades to.  `none` when the particle has already exited. -/
def exitOne (reg : ParticleRegistry) (pid : Pid) (reason : ExitReason) :
    Option (ParticleRegistry × List Pid) :=
  match reg.state pid with
  | none => none
  | some st =>
    let reg := reg.bury pid st reason
    some (reg.settlePeers pid st reason,
      (unhook reg.particleStates pid st reason).cascadeKills)

/-- The recursion of `exit_particle`.  The fuel bounds its depth; `none`
means that it ran out. -/
def exitFuel : Nat → ParticleRegistry → Pid → ExitReason →
    Option ParticleRegistry
  | 0, _, _, _ => none
  | fuel + 1, reg, pid, reason =>
    match reg.exitOne pid reason with
    | none => some reg
    | some (reg', kills) =>
      kills.foldlM (fun g x => exitFuel fuel g x reason) reg'

/-- `exit_particle` run to completion.  Every call below the first removes
a particle, so the number of particles bounds the depth. -/
def exitParticle (reg : ParticleRegistry) (pid : Pid) (reason : ExitReason) :
    ParticleRegistry :=
  (exitFuel (reg.particleStates.keys.length + 1) reg pid reason).getD reg

/-- An exit signal inherited through a link. -/
def applyInheritedExit (reg : ParticleRegistry) (target source : Pid)
    (reason : ExitReason) : ParticleRegistry :=
  match reg.state target with
  | none => reg
  | some st =>
    if st.trapExit then reg.deliverExit target source reason
    else if reason.isAbnormal then reg.exitParticle target reason
    else reg

/-- An exit signal sent directly at a particle. -/
def applyDirectedExit (reg : ParticleRegistry) (target source : Pid)
    (reason : ExitReason) : ParticleRegistry :=
  if reason ≠ .kill then reg.applyInheritedExit target source reason
  else if ¬ reg.Alive target then reg
  else reg.exitParticle target .killed

/-! ## Losing a node -/

/-- Every relationship of a live local particle with a particle on `node`. -/
def relationshipsWithNode (reg : ParticleRegistry) (node : EndpointId) :
    List (Pid × Pid) × List (Pid × Pid × UInt64) :=
  (reg.particleStates.entries.flatMap fun e =>
      (e.2.links.toList.filter (·.isLocalTo node)).map fun q => (e.1, q),
    reg.particleStates.entries.flatMap fun e =>
      (e.2.monitors.entries.filter (·.2.isLocalTo node)).map fun m =>
        (e.1, m.2, m.1))

/-- Drop every relationship with a node we can no longer reach. -/
def forgetNode (reg : ParticleRegistry) (node : EndpointId) :
    ParticleRegistry :=
  { reg with
    particleStates := Table.mapValues (fun _ s =>
      { s with
        links := s.links.retain fun p => !p.isLocalTo node
        monitors := Table.retain (fun _ t => !t.isLocalTo node) s.monitors
        monitoredBy := s.monitoredBy.filter fun w => !w.1.isLocalTo node })
      reg.particleStates }

end ParticleRegistry

end Plasmoid
