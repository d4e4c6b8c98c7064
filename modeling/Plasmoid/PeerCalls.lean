import Plasmoid.HostCalls
import Plasmoid.TwoNodes

/-!
# Two nodes whose guests call the host

Two nodes with a reliable ordered link between them.  Their guests link,
unlink, monitor, demonitor and send exit signals to any destination.  Every
message that one node sends arrives at the other one, in order.

`named`, `watches` and `dropped` are history: the links that were made by name
and stand, the monitors that were asked for, and the refs that were
demonitored.  No step of a node reads them.
-/

namespace Plasmoid

open Machine ParticleRegistry

/-- What a node can do. -/
inductive HostAction where
  | spawn (component : String) (name : Option String)
  | perform (op : RegistryOp)
  | link (x : Pid) (dest : Destination)
  | unlink (x : Pid) (dest : Destination)
  | monitor (w : Pid) (dest : Destination)
  | demonitor (w : Pid) (refId : UInt64)
  | exitSignal (x : Pid) (dest : Destination) (reason : ExitReason)
  | drawRef (w : Pid)
  | forward
  | lose
  /-- The oldest message of the peer arrives. -/
  | receive

namespace PeerNode

variable (codec : WireCodec PeerMessage)

/-- Carry out what a call or a message asks for. -/
def carry (n : PeerNode)
    (r : ParticleRegistry × List (EndpointId × PeerMessage)) : PeerNode :=
  { n with reg := r.1 }.send codec r.2

/-- What a node does alone. -/
def act (n : PeerNode) : HostAction → Option PeerNode
  | .spawn component name =>
    some { n with reg := (n.reg.spawn component name).1 }
  | .perform op =>
    if op.isLocal then some { n with reg := n.reg.perform op } else none
  | .link x dest =>
    if x.node = n.reg.me then some (n.carry codec (n.reg.hostLink x dest)) else none
  | .unlink x dest =>
    if x.node = n.reg.me then some (n.carry codec (n.reg.hostUnlink x dest)) else none
  | .monitor w dest =>
    if w.node = n.reg.me then
      some ({ n with refs := n.refs.insert w (n.nextRef w + 1) }.carry codec
        (n.reg.hostMonitor w dest (n.nextRef w)))
    else none
  | .demonitor w refId =>
    if w.node = n.reg.me then
      some { n with reg := n.reg.hostDemonitor w refId }
    else none
  | .exitSignal x dest reason =>
    if x.node = n.reg.me then some (n.carry codec (n.reg.hostExitSignal x dest reason))
    else none
  | .drawRef w => some { n with refs := n.refs.insert w (n.nextRef w + 1) }
  | .forward => n.forward codec
  | .lose => some { n with reg := n.reg.loseNode n.peer }
  | .receive => none

end PeerNode

/-- A link that `linker`, on the given side, made to a name of the other
side. -/
structure NamedLink where
  side : Side
  linker : Pid
  target : Pid
deriving DecidableEq

/-- A monitor of a particle of the other side. -/
structure Watch where
  side : Side
  watcher : Pid
  target : Pid
  refId : UInt64
deriving DecidableEq

structure PeerCalls where
  nodes : Side → PeerNode
  named : List NamedLink
  watches : List Watch
  dropped : List (Pid × UInt64)

namespace PeerCalls

def start (left right : EndpointId) : PeerCalls where
  nodes
    | .left => .new left right
    | .right => .new right left
  named := []
  watches := []
  dropped := []

variable (codec : WireCodec PeerMessage)

/-- The message that arrives next at a side. -/
def next (s : PeerCalls) (d : Side) : Option PeerMessage :=
  (s.nodes d.other).outbox.head?

/-! ## History -/

/-- Whom an `unlink` of this node unlinks from, as far as it can tell. -/
def unlinksFrom (reg : ParticleRegistry) (dest : Destination) : Option Pid :=
  match dest.resolveLocal reg.me with
  | .here target => reg.resolve target
  | .elsewhere _ (.pid t) => some t
  | .elsewhere _ (.name _) | .unknown => none

/-- The pair that a step unlinks. -/
def unlinked (s : PeerCalls) (d : Side) : HostAction → Option (Pid × Pid)
  | .unlink x dest => (unlinksFrom (s.nodes d).reg dest).map fun y => (x, y)
  | .receive =>
    match s.next d with
    | some (.unlink source target) =>
      ((s.nodes d).reg.resolve target).map fun t => (t, source)
    | _ => none
  | _ => none

/-- The step gives a pid out again. -/
def redraws (s : PeerCalls) (d : Side) (p : Pid) : HostAction → Bool
  | .spawn _ _ => (s.nodes d).reg.pidGen.peek = p
  | _ => false

/-- The step ends the link between two particles, other than by a death. -/
def cuts (s : PeerCalls) (d : Side) (a : HostAction) (x y : Pid) : Bool :=
  s.unlinked d a = some (x, y) || s.unlinked d a = some (y, x) ||
    s.redraws d x a || s.redraws d y a ||
    match a with
    | .lose => true
    | _ => false

/-- The step ends the monitors of a particle, other than by its death. -/
def forgets (s : PeerCalls) (d : Side) (a : HostAction) (y : Pid) : Bool :=
  s.redraws d y a ||
    match a with
    | .lose => true
    | _ => false

/-- A request to link to a name arrives, and the name is held. -/
def newNamed (s : PeerCalls) (d : Side) : HostAction → List NamedLink
  | .receive =>
    match s.next d with
    | some (.link source (.name n)) =>
      ((s.nodes d).reg.getByName n).toList.map fun t => ⟨d.other, source, t⟩
    | _ => []
  | _ => []

/-- A living particle is asked to be monitored by pid, and the request is not
refused, or a request by name arrives. -/
def newWatches (s : PeerCalls) (d : Side) : HostAction → List Watch
  | .monitor w dest =>
    match dest.resolveLocal (s.nodes d).reg.me with
    | .elsewhere _ (.pid y) =>
      if (s.nodes d.other).reg.Alive y ∧
          codec.accepts (.monitor w (.pid y) ((s.nodes d).nextRef w)) then
        [⟨d, w, y, (s.nodes d).nextRef w⟩]
      else []
    | _ => []
  | .receive =>
    match s.next d with
    | some (.monitor w (.name n) refId) =>
      ((s.nodes d).reg.getByName n).toList.map fun t => ⟨d.other, w, t, refId⟩
    | _ => []
  | _ => []

/-- The refs that are demonitored.  One that is drawn starts over. -/
def newDropped (s : PeerCalls) (d : Side) :
    HostAction → List (Pid × UInt64)
  | .demonitor w refId => s.dropped ++ [(w, refId)]
  | .monitor w _ =>
    s.dropped.filter fun r => r ≠ (w, (s.nodes d).nextRef w)
  | _ => s.dropped

/-- Write the step into the history. -/
def record (s : PeerCalls) (d : Side) (a : HostAction)
    (nodes : Side → PeerNode) : PeerCalls where
  nodes := nodes
  named := (s.named ++ s.newNamed d a).filter fun l =>
    !s.cuts d a l.linker l.target && (nodes l.side).reg.Alive l.linker &&
      (nodes l.side.other).reg.Alive l.target
  watches := (s.watches ++ s.newWatches codec d a).filter fun w =>
    !s.forgets d a w.target
  dropped := s.newDropped d a

def step (s : PeerCalls) : Side × HostAction → Option PeerCalls
  | (d, .receive) =>
    match (s.nodes d.other).outbox with
    | [] => none
    | msg :: rest =>
      let n := (s.nodes d).carry codec ((s.nodes d).reg.handlePeerMessage msg)
      let m := { s.nodes d.other with outbox := rest }
      some (s.record codec d .receive
        (Function.update (Function.update s.nodes d.other m) d n))
  | (d, a) => ((s.nodes d).act codec a).map fun n =>
    s.record codec d a (Function.update s.nodes d n)

/-- No message is in flight. -/
def Quiet (s : PeerCalls) : Prop := ∀ d, (s.nodes d).outbox = []

instance (s : PeerCalls) : Decidable s.Quiet :=
  inferInstanceAs (Decidable (∀ d, (s.nodes d).outbox = []))

end PeerCalls

end Plasmoid
