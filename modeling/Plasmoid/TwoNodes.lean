import Plasmoid.Evolution
import Plasmoid.Lib.Machine
import Plasmoid.PeerNode

/-!
# Two nodes

Two nodes whose particles link to and monitor each other by pid.  A `Party` is
one of them: a node with its registry, its signal forwarder and the messages it
has sent, and the particles whose guest code runs there.  Its log records what
happened to its particles.

A step is one of a party's: a spawn, a local operation, a request to link or
monitor, a turn of the forwarder or of the node loss reactor, or the arrival
of a message from the peer.  Messages may arrive in any order, or not at all.
A result about an ordered and reliable link asks for that in its condition on
the steps.
-/

namespace Plasmoid

open Machine

/-- What happened to the particles of a party. -/
inductive SignalEvent where
  /-- `x` asked to link to `y` on the peer. -/
  | askedLink (x y : Pid)
  /-- `x` recorded a link to `y` that it did not have. -/
  | linked (x y : Pid)
  /-- The request of `x` to link to `y` arrived here.  Was `y` alive? -/
  | linkArrived (x y : Pid) (alive : Bool)
  | askedMonitor (w y : Pid) (refId : UInt64)
  | monitorArrived (w y : Pid) (refId : UInt64) (alive : Bool)
  /-- The live particle `x` was sent an exit signal for its link to `y`, by
  an arriving message or by the loss of the node. -/
  | exitByMessage (x y : Pid) (reason : ExitReason)
  | exitByLoss (x y : Pid)
  /-- The live particle `w` was sent a down signal. -/
  | downByMessage (w y : Pid) (refId : UInt64) (reason : ExitReason)
  | downByLoss (w y : Pid) (refId : UInt64)
deriving DecidableEq

structure Party extends PeerNode where
  /-- The particles whose guest code runs. -/
  hosted : KeySet Pid
  log : List SignalEvent

namespace Party

/-- A fresh party. -/
def new (node peer : EndpointId) : Party where
  toPeerNode := .new node peer
  hosted := ∅
  log := []

def note (p : Party) (events : List SignalEvent) : Party :=
  { p with log := p.log ++ events }

def spawn (p : Party) (component : String) (name : Option String) : Party :=
  match p.reg.spawn component name with
  | (reg, .ok pid) => { p with reg, hosted := p.hosted.insert pid }
  | (_, .error _) => p

/-- Would `x` gain a link by recording `y`? -/
def gainsLink (reg : ParticleRegistry) (x y : Pid) : Bool :=
  (reg.state x).any fun s => y ∉ s.links

/-- The link that `x` records, if it did not have it. -/
def linkEvents (reg : ParticleRegistry) (x y : Pid) : List SignalEvent :=
  if gainsLink reg x y then [.linked x y] else []

variable (codec : WireCodec PeerMessage)

/-- Send messages. -/
def send (p : Party) (msgs : List (EndpointId × PeerMessage)) : Party :=
  { p with toPeerNode := p.toPeerNode.send codec msgs }

/-- The guest of `x` links to `y` on the peer. -/
def link (p : Party) (x y : Pid) : Party :=
  ({ p with reg := p.reg.linkRemote x y }.send codec
    [(y.node, .link x (.pid y))]).note
    (linkEvents p.reg x y ++ [SignalEvent.askedLink x y])

/-- The guest of `w` monitors `y` on the peer. -/
def monitor (p : Party) (w y : Pid) : Party :=
  let refId := p.nextRef w
  ({ p with
      reg := p.reg.monitorRemote w y refId
      refs := p.refs.insert w (refId + 1) }.send codec
    [(y.node, .monitor w (.pid y) refId)]).note [.askedMonitor w y refId]

/-- The guest of `x` sends an exit signal to the peer. -/
def exitSignal (p : Party) (x : Pid) (target : Addressee)
    (reason : ExitReason) : Party :=
  p.send codec [(p.peer, .exitSignal x target reason)]

/-- One turn of the signal forwarder. -/
def forward (p : Party) : Option Party :=
  (p.toPeerNode.forward codec).map fun node => { p with toPeerNode := node }

theorem forward_cases {codec : WireCodec PeerMessage} {p p' : Party}
    (h : p.forward codec = some p') :
    p.Lags ∧
        p' = { p with
          cursor := p.reg.deaths.length -
            ParticleRegistry.deathBroadcastCapacity } ∨
      ∃ death, ¬ p.Lags ∧ p.reg.deaths[p.cursor]? = some death ∧
        p' = { p with cursor := p.cursor + 1 }.send codec
          (ParticleRegistry.forwardDeath death) := by
  obtain ⟨node, hnode, rfl⟩ := Option.map_eq_some_iff.1 h
  rcases PeerNode.forward_cases hnode with ⟨hlag, rfl⟩ | ⟨death, hlag, hdeath, rfl⟩
  · exact .inl ⟨hlag, rfl⟩
  · exact .inr ⟨death, hlag, hdeath, rfl⟩

/-- What an arriving message means to the particles here. -/
def arrivalEvents (reg : ParticleRegistry) : PeerMessage → List SignalEvent
  | .link source target =>
    match reg.resolve target with
    | some t =>
      linkEvents reg t source ++ [.linkArrived source t (reg.Alive t)]
    | none => []
  | .monitor watcher target refId =>
    match reg.resolve target with
    | some t => [.monitorArrived watcher t refId (reg.Alive t)]
    | none => []
  | .exit source target reason =>
    if reg.Alive target then [.exitByMessage target source reason] else []
  | .down source target refId reason =>
    if reg.Alive target then [.downByMessage target source refId reason] else []
  | .unlink .. | .demonitor .. | .exitSignal .. => []

/-- A message from the peer arrives. -/
def receive (p : Party) (msg : PeerMessage) : Party :=
  ({ p with reg := (p.reg.handlePeerMessage msg).1 }.send codec
    (p.reg.handlePeerMessage msg).2).note (arrivalEvents p.reg msg)

/-- The reactor fires one link. -/
def fireLink (p : Party) (l : Pid × Pid) : Party :=
  { p with reg := p.reg.applyInheritedExit l.1 l.2 .noConnection }.note
    (if p.reg.Alive l.1 then [.exitByLoss l.1 l.2] else [])

/-- The reactor fires one monitor. -/
def fireMonitor (p : Party) (m : Pid × Pid × UInt64) : Party :=
  { p with reg := p.reg.deliverDown m.1 m.2.1 m.2.2 .noConnection }.note
    (if p.reg.Alive m.1 then [.downByLoss m.1 m.2.1 m.2.2] else [])

/-- The reactor handles the loss of the peer. -/
def lose (p : Party) : Party :=
  match p.reg.relationshipsWithNode p.peer with
  | ([], []) => p
  | (links, monitors) =>
    let fired := monitors.foldl fireMonitor (links.foldl fireLink p)
    { fired with reg := fired.reg.forgetNode p.peer }

/-- The registry goes through one turn of the node loss reactor. -/
theorem reg_lose (p : Party) : p.lose.reg = p.reg.loseNode p.peer := by
  have hlinks : ∀ (l : List (Pid × Pid)) (p : Party),
      (l.foldl fireLink p).reg = l.foldl
        (fun reg l => reg.applyInheritedExit l.1 l.2 .noConnection) p.reg := by
    intro l
    induction l with
    | nil => intro p; rfl
    | cons a l ih => intro p; exact ih _
  have hmonitors : ∀ (l : List (Pid × Pid × UInt64)) (p : Party),
      (l.foldl fireMonitor p).reg = l.foldl
        (fun reg m => reg.deliverDown m.1 m.2.1 m.2.2 .noConnection) p.reg := by
    intro l
    induction l with
    | nil => intro p; rfl
    | cons a l ih => intro p; exact ih _
  unfold lose ParticleRegistry.loseNode
  rcases p.reg.relationshipsWithNode p.peer with
    ⟨_ | ⟨l, links⟩, _ | ⟨m, monitors⟩⟩
  · rfl
  all_goals simp only [hmonitors, hlinks]

end Party

/-! ## The machine -/

inductive Side where
  | left
  | right
deriving DecidableEq

def Side.other : Side → Side
  | .left => .right
  | .right => .left

@[simp] theorem Side.other_ne (d : Side) : d.other ≠ d := by cases d <;> decide

@[simp] theorem Side.other_other (d : Side) : d.other.other = d := by
  cases d <;> rfl

theorem Side.eq_or_eq_other (d e : Side) : e = d ∨ e = d.other := by
  cases e <;> cases d <;> simp [Side.other]

instance Side.decidableForall {p : Side → Prop} [∀ d, Decidable (p d)] :
    Decidable (∀ d, p d) :=
  decidable_of_iff (p .left ∧ p .right)
    ⟨fun h d => by cases d <;> [exact h.1; exact h.2], fun h => ⟨h _, h _⟩⟩

/-- What a party can do. -/
inductive PartyAction where
  | spawn (component : String) (name : Option String)
  | perform (op : RegistryOp)
  | link (x y : Pid)
  | monitor (w y : Pid)
  | exitSignal (x : Pid) (target : Addressee) (reason : ExitReason)
  | forward
  | lose
  /-- A message that the peer sent arrives. -/
  | deliver (i : Nat)
  /-- A message that the peer sent is lost. -/
  | drop (i : Nat)

/-- What a party does alone. -/
def Party.act (codec : WireCodec PeerMessage) (p : Party) :
    PartyAction → Option Party
  | .spawn component name => some (p.spawn component name)
  | .perform op =>
    if op.isLocal then some { p with reg := p.reg.perform op } else none
  | .link x y =>
    if x ∈ p.hosted ∧ y.node = p.peer then some (p.link codec x y) else none
  | .monitor w y =>
    if w ∈ p.hosted ∧ y.node = p.peer then some (p.monitor codec w y) else none
  | .exitSignal x target reason =>
    if x ∈ p.hosted then some (p.exitSignal codec x target reason) else none
  | .forward => p.forward codec
  | .lose => some p.lose
  | .deliver _ | .drop _ => none

/-- Two nodes. -/
abbrev TwoNodes := Side → Party

namespace TwoNodes

def start (left right : EndpointId) : TwoNodes
  | .left => .new left right
  | .right => .new right left

/-- Replace one party. -/
def set (s : TwoNodes) (d : Side) (p : Party) : TwoNodes :=
  Function.update s d p

@[simp] theorem set_self (s : TwoNodes) (d : Side) (p : Party) :
    s.set d p d = p := by
  simp [set]

@[simp] theorem set_ne (s : TwoNodes) {d e : Side} (p : Party) (h : e ≠ d) :
    s.set d p e = s e := by
  simp [set, h]

/-- Take one message out of what the other party has sent. -/
def takeFrom (p : Party) (i : Nat) : Party :=
  { p with outbox := p.outbox.eraseIdx i }

variable (codec : WireCodec PeerMessage)

def step (s : TwoNodes) : Side × PartyAction → Option TwoNodes
  | (d, .deliver i) =>
    ((s d.other).outbox[i]?).map fun msg =>
      (s.set d.other (takeFrom (s d.other) i)).set d ((s d).receive codec msg)
  | (d, .drop i) =>
    ((s d.other).outbox[i]?).map fun _ =>
      s.set d.other (takeFrom (s d.other) i)
  | (d, a) => ((s d).act codec a).map (s.set d)

private theorem step_act (s : TwoNodes) (d : Side) {a : PartyAction}
    (hdeliver : ∀ i, a ≠ .deliver i) (hdrop : ∀ i, a ≠ .drop i) :
    s.step codec (d, a) = ((s d).act codec a).map (s.set d) := by
  cases a with
  | deliver i => exact absurd rfl (hdeliver i)
  | drop i => exact absurd rfl (hdrop i)
  | _ => rfl

variable {codec}

/-- What a step can do: a party acts alone, or a message arrives or is lost. -/
theorem step_cases {s t : TwoNodes} {d : Side} {a : PartyAction}
    (h : s.step codec (d, a) = some t) :
    (∃ p, (s d).act codec a = some p ∧ t = s.set d p) ∨
    (∃ i msg, a = .deliver i ∧ (s d.other).outbox[i]? = some msg ∧
      t = (s.set d.other (takeFrom (s d.other) i)).set d ((s d).receive codec msg)) ∨
    ∃ i, a = .drop i ∧ t = s.set d.other (takeFrom (s d.other) i) := by
  by_cases hdeliver : ∃ i, a = .deliver i
  · obtain ⟨i, rfl⟩ := hdeliver
    obtain ⟨msg, hmsg, rfl⟩ := Option.map_eq_some_iff.1 h
    exact Or.inr (Or.inl ⟨i, msg, rfl, hmsg, rfl⟩)
  · by_cases hdrop : ∃ i, a = .drop i
    · obtain ⟨i, rfl⟩ := hdrop
      obtain ⟨msg, -, rfl⟩ := Option.map_eq_some_iff.1 h
      exact Or.inr (Or.inr ⟨i, rfl, rfl⟩)
    · rw [step_act codec s d (fun i hi => hdeliver ⟨i, hi⟩)
        (fun i hi => hdrop ⟨i, hi⟩)] at h
      obtain ⟨p, hp, rfl⟩ := Option.map_eq_some_iff.1 h
      exact Or.inl ⟨p, hp, rfl⟩

end TwoNodes

end Plasmoid
