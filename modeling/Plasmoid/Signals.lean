import Plasmoid.Operations

/-!
# Relationships that cross nodes

Links and monitors between particles of two nodes.  Each side records its own
half.  A `PeerMessage` is what the nodes tell each other about them, and
`handlePeerMessage` is what the receiver does with one.  `forwardDeath` is one
turn of the signal forwarder and `loseNode` is one turn of the node loss
reactor.

The messages of the other subsystems (announcements, deliveries and lost
connections) are absent here.
-/

namespace Plasmoid

/-- Who a message is for.  A name is resolved by the receiver. -/
inductive Addressee where
  | pid (p : Pid)
  | name (n : String)
deriving DecidableEq

/-- The peer messages about links, monitors and exits. -/
inductive PeerMessage where
  | link (source : Pid) (target : Addressee)
  | unlink (source : Pid) (target : Addressee)
  | monitor (watcher : Pid) (target : Addressee) (refId : UInt64)
  | demonitor (watcher : Pid) (refId : UInt64)
  | exit (source target : Pid) (reason : ExitReason)
  | exitSignal (source : Pid) (target : Addressee) (reason : ExitReason)
  | down (source target : Pid) (refId : UInt64) (reason : ExitReason)
deriving DecidableEq

namespace ParticleRegistry

/-- `demonitor`: drop a monitor on whichever side is local. -/
def demonitor (reg : ParticleRegistry) (watcher : Pid) (refId : UInt64) :
    ParticleRegistry :=
  let target := (reg.state watcher).bind fun s => s.monitors.lookup refId
  let reg := reg.modifyState watcher fun s =>
    { s with monitors := s.monitors.erase refId }
  match target with
  | none => reg
  | some t => reg.modifyState t fun s =>
    { s with monitoredBy := s.monitoredBy.filter fun w => w ≠ (watcher, refId) }

/-- Find the particle that a message is for.  A pid is taken as it is. -/
def resolve (reg : ParticleRegistry) : Addressee → Option Pid
  | .pid p => some p
  | .name n => reg.getByName n

/-- Act on one message from a peer.  The answers are addressed to nodes. -/
def handlePeerMessage (reg : ParticleRegistry) :
    PeerMessage → ParticleRegistry × List (EndpointId × PeerMessage)
  | .link source target =>
    match reg.resolve target with
    -- Record our half.  The sender recorded its own before sending.
    | some t => (reg.linkRemote t source, [])
    | none => (reg, [(source.node, .exit source source .noProc)])
  | .unlink source target =>
    match reg.resolve target with
    | some t => (reg.unlinkRemote t source, [])
    | none => (reg, [])
  | .monitor watcher target refId =>
    match reg.resolve target with
    | some t => (reg.monitorRemote watcher t refId, [])
    | none => (reg, [(watcher.node, .down watcher watcher refId .noProc)])
  | .demonitor watcher refId => (reg.demonitor watcher refId, [])
  | .exit source target reason =>
    (reg.applyInheritedExit target source reason, [])
  | .exitSignal source target reason =>
    match reg.resolve target with
    | some t => (reg.applyDirectedExit t source reason, [])
    | none => (reg, [])
  | .down source target refId reason =>
    (reg.deliverDown target source refId reason, [])

/-- How many deaths wait for a slow subscriber before the oldest are
dropped. -/
def deathBroadcastCapacity : Nat := 1024

/-- The messages that the signal forwarder sends for one death. -/
def forwardDeath (death : ParticleDeath) : List (EndpointId × PeerMessage) :=
  (death.remoteLinks.map fun x => (x.node, .exit death.pid x death.reason)) ++
    death.remoteMonitors.map fun w =>
      (w.1.node, .down death.pid w.1 w.2 death.reason)

/-- What the node loss reactor does about one lost node: fire each link and
each monitor, then forget them.  A node we have nothing to do with is passed
over. -/
def loseNode (reg : ParticleRegistry) (node : EndpointId) : ParticleRegistry :=
  match reg.relationshipsWithNode node with
  | ([], []) => reg
  | (links, monitors) =>
    let reg := links.foldl
      (fun reg l => reg.applyInheritedExit l.1 l.2 .noConnection) reg
    let reg := monitors.foldl
      (fun reg m => reg.deliverDown m.1 m.2.1 m.2.2 .noConnection) reg
    reg.forgetNode node

end ParticleRegistry

end Plasmoid
