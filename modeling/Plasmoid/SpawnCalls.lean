import Plasmoid.Lib.Machine
import Plasmoid.HostCalls
import Plasmoid.Mailboxes
import Plasmoid.Spawning

/-!
# Calls that spawn on a node

`spawn-on` and `spawn-request` ask a node for a particle.  If it is the
caller's own node, the caller's task performs the spawn.  Otherwise the request
goes over a stream, a handler of the other node performs the spawn, and the
answer comes back.  The connection may break at any time.  Then the caller is
told that the node is unreachable, and the handler goes on without it.

`SpawnNet` is a cluster with its spawn calls, at the awaits of the callers and
of the handlers.  Everything else that happens on a node happens in between.

`taken`, `others` and `received` are history, which no step reads.
-/

namespace Plasmoid

open Machine

/-- How far the caller is. -/
inductive CallerPhase where
  /-- It connects to the node. -/
  | dialling
  /-- It waits for the answer. -/
  | awaiting
  | returned (outcome : Except SpawnFailure Pid)

/-- How far the spawn is. -/
inductive SpawnPhase where
  /-- Nobody has been asked. -/
  | unasked
  /-- The request is on its way. -/
  | requested
  /-- The component is to be looked up. -/
  | looking
  /-- The registry is to take the particle in. -/
  | entering (code : ComponentCode)
  /-- The component is to be started. -/
  | starting (code : ComponentCode) (pid : Pid)
  | answered (outcome : Except SpawnFailure Pid)

/-- One call of `remote_spawn`. -/
structure SpawnCall where
  home : EndpointId
  /-- `spawn-request` sends the outcome to its caller, under this ref. -/
  replyTo : Option (Pid × UInt64)
  /-- The node that the caller named.  `none` if its text is no node id, or if
  the caller has no endpoint. -/
  target : Option EndpointId
  args : SpawnArgs
  caller : CallerPhase
  spawn : SpawnPhase
  /-- The particle that a registry has taken in for the call. -/
  taken : Option Pid

/-- What a spawn reply carries. -/
def replyOf : Except SpawnFailure Pid → Pid ⊕ SpawnFailure
  | .ok pid => .inl pid
  | .error e => .inr e

namespace SpawnCall

/-- `remote_spawn`, up to its first await. -/
def begin (home : EndpointId) (replyTo : Option (Pid × UInt64))
    (target : Option EndpointId) (args : SpawnArgs) : SpawnCall :=
  if target = some home then
    ⟨home, replyTo, target, args, .awaiting, .looking, none⟩
  else ⟨home, replyTo, target, args, .dialling, .unasked, none⟩

/-- The outcome, once the caller has it. -/
def outcome (c : SpawnCall) : Option (Except SpawnFailure Pid) :=
  match c.caller with
  | .returned outcome => some outcome
  | _ => none

/-- The request is written. -/
def connect (c : SpawnCall) : Option SpawnCall :=
  match c.caller, c.target with
  | .dialling, some _ => some { c with caller := .awaiting, spawn := .requested }
  | _, _ => none

/-- A handler has read the request. -/
def accept (c : SpawnCall) : Option SpawnCall :=
  match c.spawn with
  | .requested => some { c with spawn := .looking }
  | _ => none

/-- Look the component up.  `code` is what the engine finds in it. -/
def look (c : SpawnCall) (reg : ParticleRegistry) (code : ComponentCode) :
    Option SpawnCall :=
  match c.spawn with
  | .looking =>
    if c.args.component ∈ reg.components then
      some { c with spawn := .entering code }
    else some { c with spawn := .answered (.error .componentNotFound) }
  | _ => none

/-- Spawn in the registry. -/
def enter (c : SpawnCall) (reg : ParticleRegistry) (overtaken : Bool) :
    Option (ParticleRegistry × SpawnCall) :=
  match c.spawn with
  | .entering code =>
    match reg.spawnIn ⟨fun _ => code, overtaken⟩ c.args with
    | (reg, .error _) =>
      some (reg, { c with spawn := .answered (.error .resourceLimit) })
    | (reg, .ok pid) =>
      some (reg, { c with spawn := .starting code pid, taken := some pid })
  | _ => none

/-- Start the component. -/
def start (c : SpawnCall) : Option SpawnCall :=
  match c.spawn with
  | .starting code pid =>
    match startParticle code c.args.initArgs with
    | .error _ => some { c with spawn := .answered (.error .initFailed) }
    | .ok () => some { c with spawn := .answered (.ok pid) }
  | _ => none

/-- What the caller returns when the answer is there. -/
def answer (c : SpawnCall) : Option (Except SpawnFailure Pid) :=
  match c.caller, c.spawn with
  | .awaiting, .answered outcome => some outcome
  | _, _ => none

/-- What the caller returns when the connection breaks. -/
def lose (c : SpawnCall) : Option (Except SpawnFailure Pid) :=
  if c.target = some c.home ∨ c.outcome.isSome then none
  else some (.error .nodeUnreachable)

end SpawnCall

structure SpawnNet where
  regs : EndpointId → ParticleRegistry
  calls : List SpawnCall
  /-- The pids of all other spawns. -/
  others : List Pid
  /-- The spawn replies that particles have received. -/
  received : List (Pid × MailboxMessage)

inductive SpawnNetAction where
  | call (home : EndpointId) (replyTo : Option (Pid × UInt64))
      (target : Option EndpointId) (args : SpawnArgs)
  | connect (i : ℕ)
  | accept (i : ℕ)
  | look (i : ℕ) (code : ComponentCode)
  | enter (i : ℕ) (overtaken : Bool)
  | start (i : ℕ)
  | answer (i : ℕ)
  | lose (i : ℕ)
  | operate (node : EndpointId) (op : RegistryOp)
  | spawn (node : EndpointId) (ctx : SpawnContext) (args : SpawnArgs)
  | receive (pid : Pid) (call : Receive)

namespace MailboxMessage

def isSpawnReply : MailboxMessage → Bool
  | spawnReply .. => true
  | _ => false

end MailboxMessage

/-- The spawn reply that a receive has returned, if it is one. -/
def Turn.replies : Turn → List MailboxMessage
  | .received msg => [msg].filter MailboxMessage.isSpawnReply
  | .over | .wait => []

namespace SpawnNet

def start : SpawnNet := ⟨.new, [], [], []⟩

def setReg (s : SpawnNet) (node : EndpointId) (reg : ParticleRegistry) :
    SpawnNet :=
  { s with regs := fun n => if n = node then reg else s.regs n }

def setCall (s : SpawnNet) (i : ℕ) (c : SpawnCall) : SpawnNet :=
  { s with calls := s.calls.set i c }

/-- The node has spawned the particle.  It may have exited since. -/
def hosted (s : SpawnNet) (pid : Pid) : Bool :=
  pid.seq.toNat < (s.regs pid.node).pidGen.nextSeq.toNat

/-- The caller has the outcome.  `spawn-request` pushes it into the mailbox of
its particle, which takes it while the particle lives. -/
def finish (s : SpawnNet) (i : ℕ) (c : SpawnCall)
    (outcome : Except SpawnFailure Pid) : SpawnNet :=
  let s := s.setCall i { c with caller := .returned outcome }
  match c.replyTo with
  | none => s
  | some (pid, refId) =>
    s.setReg pid.node ((s.regs pid.node).modifyState pid fun st =>
      { st with mailbox := st.mailbox.pushSpawnReply refId (replyOf outcome) })

/-- A particle receives. -/
def receive (s : SpawnNet) (pid : Pid) (call : Receive) : Option SpawnNet :=
  ((s.regs pid.node).state pid).map fun st =>
    { s.setReg pid.node ((s.regs pid.node).modifyState pid fun st =>
        { st with mailbox := (st.mailbox.turn call).2 }) with
      received := s.received ++
        (st.mailbox.turn call).1.replies.map fun msg => (pid, msg) }

def step (s : SpawnNet) : SpawnNetAction → Option SpawnNet
  | .call home replyTo target args =>
    if replyTo.all fun r => r.1.node = home ∧ s.hosted r.1 = true then
      some { s with calls := s.calls ++ [.begin home replyTo target args] }
    else none
  | .connect i => s.calls[i]?.bind fun c => c.connect.map (s.setCall i)
  | .accept i => s.calls[i]?.bind fun c => c.accept.map (s.setCall i)
  | .look i code => s.calls[i]?.bind fun c => c.target.bind fun node =>
      (c.look (s.regs node) code).map (s.setCall i)
  | .enter i overtaken => s.calls[i]?.bind fun c => c.target.bind fun node =>
      (c.enter (s.regs node) overtaken).map fun r =>
        (s.setReg node r.1).setCall i r.2
  | .start i => s.calls[i]?.bind fun c => c.start.map (s.setCall i)
  | .answer i => s.calls[i]?.bind fun c => c.answer.map (s.finish i c)
  | .lose i => s.calls[i]?.bind fun c => c.lose.map (s.finish i c)
  | .operate node op => some (s.setReg node ((s.regs node).perform op))
  | .spawn node ctx args =>
    let (reg, drawn) := (s.regs node).spawnIn ctx args
    some { s.setReg node reg with others := s.others ++ drawn.toOption.toList }
  | .receive pid call => s.receive pid call

end SpawnNet

end Plasmoid
