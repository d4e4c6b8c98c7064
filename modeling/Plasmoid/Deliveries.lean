import Plasmoid.Lib.Tally
import Plasmoid.HostCalls
import Plasmoid.Mailboxes
import Plasmoid.SupervisorLoop
import Plasmoid.StreamHoldings

/-!
# Delivering messages

A particle sends to a pid, to a name on its own node or to a name on another
one.  `deliver_to` decides where that is.  On its own node it resolves the name
and pushes the message.  Otherwise the message goes over the link to the other
node, and the handler there resolves the name and pushes it.

`DeliveryNet` is a cluster of nodes that send each other messages, at the
lookups and the awaits of these tasks.  The tasks are the particles and the
handlers of the streams, and each performs one delivery at a time.  Everything
else that happens on a node happens in between.

`sent`, `got` and `dropped` are history, which no step reads.
-/

namespace Plasmoid

open Machine

/-- One particle message on the wire. -/
structure Envelope where
  target : Addressee
  refId : Option UInt64
  payload : List UInt8
deriving DecidableEq

/-- What crosses a peer link: particle messages, the messages about links,
monitors and exits, and those that concern no particle. -/
inductive LinkMessage (κ : Type) where
  | deliver (envelope : Envelope)
  | control (msg : PeerMessage)
  | other (msg : κ)
deriving DecidableEq

/-- A message between two nodes, which may be the same. -/
structure Parcel where
  home : EndpointId
  node : EndpointId
  envelope : Envelope
deriving DecidableEq

/-- Who performs a delivery: the particle that sends, or the handler of the
`i`th stream of the `w`th writer of a pair of nodes. -/
inductive DeliveryTask where
  | sender (pid : Pid)
  | handler (home node : EndpointId) (w i : Nat)
deriving DecidableEq

/-- How far a delivery is. -/
inductive DeliveryPhase where
  /-- The destination is to be looked up. -/
  | resolving
  /-- The mailbox of the particle is to be looked up. -/
  | finding (pid : Pid)
  /-- The message is to be pushed into the mailbox. -/
  | pushing (pid : Pid)
deriving DecidableEq

structure Delivery where
  parcel : Parcel
  phase : DeliveryPhase
deriving DecidableEq

/-- A particle has sent a message. -/
structure Sending where
  source : Pid
  parcel : Parcel
deriving DecidableEq

/-- A mailbox has accepted a message. -/
structure Receipt where
  task : DeliveryTask
  parcel : Parcel
  pid : Pid
deriving DecidableEq

structure DeliveryNet (κ : Type) where
  regs : EndpointId → ParticleRegistry
  lanes : EndpointId → EndpointId → LossyStreams (LinkMessage κ)
  tasks : Table DeliveryTask Delivery
  sent : List Sending
  got : List Receipt
  dropped : List Parcel

inductive NetAction (κ : Type) where
  | send (source : Pid) (dest : Destination) (refId : Option UInt64)
      (payload : List UInt8)
  /-- A task of a node sends another one something that is no delivery. -/
  | post (home node : EndpointId) (msg : PeerMessage ⊕ κ)
  /-- A writer of a pair of nodes takes a turn, or their link is dropped. -/
  | transport (home node : EndpointId) (a : StreamAction (LinkMessage κ))
  /-- A handler reads the next message of its stream. -/
  | read (home node : EndpointId) (w i : Nat)
  /-- A delivery takes its next step.  `late` matters where the particle was
  removed after its mailbox was found: the mailbox still accepts. -/
  | advance (task : DeliveryTask) (late : Bool)
  | operate (node : EndpointId) (op : RegistryOp)
  | spawn (node : EndpointId) (component : String) (name : Option String)
  | receive (pid : Pid) (call : Receive)

namespace StreamAction

/-- The action concerns the writers and their links only. -/
def isTransport {α : Type} : StreamAction α → Bool
  | .send _ | .handle .. => false
  | _ => true

end StreamAction

namespace ParticleRegistry

/-- `send_to_pid` and `send_tagged_to_pid`, by whether there is a ref. -/
def push (reg : ParticleRegistry) (pid : Pid) (envelope : Envelope) :
    ParticleRegistry :=
  match envelope.refId with
  | some refId => reg.sendTaggedToPid pid refId envelope.payload
  | none => reg.sendToPid pid envelope.payload

/-- The mailbox of the particle accepts messages. -/
def accepts (reg : ParticleRegistry) (pid : Pid) : Bool :=
  (reg.state pid).any fun st => !st.mailbox.closed

end ParticleRegistry

namespace LossyStreams

variable {α : Type} (codec : WireCodec α)

/-- `PeerLinks::send`. -/
def send (s : LossyStreams α) (msg : α) : LossyStreams α :=
  { s with streams := s.streams.send codec msg }

end LossyStreams

namespace DeliveryNet

variable {κ : Type} (codec : WireCodec (LinkMessage κ))

def start : DeliveryNet κ where
  regs := .new
  lanes _ _ := .start
  tasks := ∅
  sent := []
  got := []
  dropped := []

def setReg (s : DeliveryNet κ) (node : EndpointId) (reg : ParticleRegistry) :
    DeliveryNet κ :=
  { s with regs := fun n => if n = node then reg else s.regs n }

def setLane (s : DeliveryNet κ) (home node : EndpointId)
    (lane : LossyStreams (LinkMessage κ)) : DeliveryNet κ :=
  { s with lanes := fun h n =>
      if h = home ∧ n = node then lane else s.lanes h n }

/-- Send a message over the link of two nodes. -/
def sendOver (s : DeliveryNet κ) (home node : EndpointId) (msg : LinkMessage κ) :
    DeliveryNet κ :=
  s.setLane home node ((s.lanes home node).send codec msg)

/-- Note that a particle has sent a message. -/
def record (s : DeliveryNet κ) (source : Pid) (parcel : Parcel) : DeliveryNet κ :=
  { s with sent := s.sent ++ [⟨source, parcel⟩] }

/-- Put a task at a phase of the delivery of a message. -/
def setTask (s : DeliveryNet κ) (task : DeliveryTask) (parcel : Parcel)
    (phase : DeliveryPhase) : DeliveryNet κ :=
  { s with tasks := s.tasks.insert task ⟨parcel, phase⟩ }

/-- A message is refused before it is underway. -/
def refuse (s : DeliveryNet κ) (parcel : Parcel) : DeliveryNet κ :=
  { s with dropped := s.dropped ++ [parcel] }

/-- The delivery of a task is over, and the message is dropped. -/
def drop (s : DeliveryNet κ) (task : DeliveryTask) (parcel : Parcel) :
    DeliveryNet κ :=
  { s with tasks := s.tasks.erase task, dropped := s.dropped ++ [parcel] }

/-- The delivery of a task is over, and the mailbox has accepted. -/
def accept (s : DeliveryNet κ) (task : DeliveryTask) (parcel : Parcel) (pid : Pid) :
    DeliveryNet κ :=
  { s with
    tasks := s.tasks.erase task
    got := s.got ++ [⟨task, parcel, pid⟩] }

/-- `deliver_to`, up to its first await.  A message that is too large for the
wire is refused there and then. -/
def deliverTo (s : DeliveryNet κ) (source : Pid) (dest : Destination)
    (refId : Option UInt64) (payload : List UInt8) : DeliveryNet κ :=
  match dest.resolveLocal source.node with
  | .unknown => s
  | .here target =>
    let parcel : Parcel := ⟨source.node, source.node, target, refId, payload⟩
    (s.record source parcel).setTask (.sender source) parcel .resolving
  | .elsewhere node target =>
    let parcel : Parcel := ⟨source.node, node, target, refId, payload⟩
    match encodeFrame codec (.deliver parcel.envelope) with
    | .error _ => (s.record source parcel).refuse parcel
    | .ok _ => (s.record source parcel).sendOver codec source.node node
      (.deliver parcel.envelope)

/-- What a handler does with a message that it has read.  The answers to the
other messages go back over the links. -/
def dispatch (s : DeliveryNet κ) (home node : EndpointId) (task : DeliveryTask) :
    LinkMessage κ → DeliveryNet κ
  | .deliver envelope => s.setTask task ⟨home, node, envelope⟩ .resolving
  | .control msg =>
    let (reg, answers) := (s.regs node).handlePeerMessage msg
    answers.foldl (fun s m => s.sendOver codec node m.1 (.control m.2))
      (s.setReg node reg)
  | .other _ => s

/-- The next step of a delivery. -/
def advance (s : DeliveryNet κ) (task : DeliveryTask) (late : Bool) :
    Delivery → DeliveryNet κ
  | ⟨parcel, .resolving⟩ =>
    match (s.regs parcel.node).resolve parcel.envelope.target with
    | none => s.drop task parcel
    | some pid => s.setTask task parcel (.finding pid)
  | ⟨parcel, .finding pid⟩ =>
    if (s.regs parcel.node).Alive pid then s.setTask task parcel (.pushing pid)
    else s.drop task parcel
  | ⟨parcel, .pushing pid⟩ =>
    let reg := s.regs parcel.node
    if reg.accepts pid then
      (s.accept task parcel pid).setReg parcel.node (reg.push pid parcel.envelope)
    else if ¬ reg.Alive pid ∧ late then s.accept task parcel pid
    else s.drop task parcel

def step (s : DeliveryNet κ) : NetAction κ → Option (DeliveryNet κ)
  | .send source dest refId payload =>
    if .sender source ∈ s.tasks then none
    else some (s.deliverTo codec source dest refId payload)
  | .post home node msg =>
    some (s.sendOver codec home node (msg.elim .control .other))
  | .transport home node a =>
    if a.isTransport then
      ((s.lanes home node).step codec a).map (s.setLane home node)
    else none
  | .read home node w i =>
    if .handler home node w i ∈ s.tasks then none
    else
      ((s.lanes home node).step codec (.handle w i)).bind fun lane =>
        lane.streams.processed.getLast?.map fun msg =>
          (s.setLane home node lane).dispatch codec home node
            (.handler home node w i) msg
  | .advance task late => (s.tasks.lookup task).map (s.advance task late)
  | .operate node op => some (s.setReg node ((s.regs node).perform op))
  | .spawn node component name =>
    some (s.setReg node ((s.regs node).spawn component name).1)
  | .receive pid call =>
    some (s.setReg pid.node ((s.regs pid.node).modifyState pid fun st =>
      { st with mailbox := (st.mailbox.turn call).2 }))

end DeliveryNet

end Plasmoid
