import Plasmoid.CallEnvelope
import Plasmoid.Evolution
import Plasmoid.Lib.Machine
import Plasmoid.Spawning
import Plasmoid.Supervisor

/-!
# The loop of a supervisor

`run_supervisor!` and `run_dynamic_supervisor!` are one loop around two
policies.  The loop performs the actions of its policy by host calls, then
waits for a message or for the nearest patience deadline, and asks the policy
what to do about what it received.  A `Policy` is what the two loops ask.

The machine has one loop, the registry of its node, and everything else that
runs on the node.  A step is one host call of the loop or one operation of
another party, so the loop is interrupted between any two of its host calls.
A child dies, or takes its time about it, by operations of other parties.

Four fields of the state are history, which no step reads but to count:
`started`, `stopped`, `ended` and `kills`.  So are `nth` in a `Child` and all
but `id` and `deadline` in a `Deadline`.
-/

namespace Plasmoid

open Machine

/-- What a supervisor loop asks its policy. -/
structure Policy (σ : Type) where
  /-- A child did not start. -/
  startFailed : σ → ChildSpec → UInt64 → σ × List Action
  /-- The exit signal of a child was received. -/
  childExited : σ → String → ExitReason → UInt64 → σ × List Action
  /-- A tagged message was received.  The last component is the reply: the
  address as a string, and the payload. -/
  tagged : σ → List UInt8 → σ × List Action × Option (String × List UInt8)

/-- An entry of `live`: the running instance of a child.  The source keeps the
display form of the pid. -/
structure Child where
  id : String
  pid : Pid
  /-- How many instances were started before this one. -/
  nth : Nat
deriving DecidableEq

/-- The display form of the pid. -/
def Child.key (c : Child) : String := c.pid.display

/-- An entry of `pending`: a child asked to stop, and when patience runs
out. -/
structure Deadline where
  id : String
  deadline : UInt64
  /-- The instance that was asked, when, with how much patience, and how many
  instances had been started by then. -/
  asked : Child
  askedAt : Nat
  patience : UInt64
  startedBy : Nat
deriving DecidableEq

/-- A kill sent by the overdue branch. -/
structure OverdueKill where
  deadline : Deadline
  child : Child
  target : Pid
  time : Nat
deriving DecidableEq

inductive LoopPhase where
  /-- The particle of the supervisor has not entered the loop. -/
  | asleep
  /-- Draining the actions. -/
  | acting
  /-- Waiting in `recv`, until the given time if there is one. -/
  | waiting (wake : Option Nat)
  /-- In the overdue branch, with the entries still to handle. -/
  | reaping (overdue : List Deadline)
  | left
deriving DecidableEq

structure SupervisorLoop (σ : Type) where
  reg : ParticleRegistry
  /-- Milliseconds since the loop was entered.  It stands still before. -/
  clock : Nat
  phase : LoopPhase
  sup : σ
  live : List Child
  pending : List Deadline
  /-- The rest of the batch that is being performed. -/
  batch : List Action
  queue : List Action
  started : List Child
  stopped : List Child
  /-- The instances that the loop killed or whose exit signal it took. -/
  ended : List Child
  kills : List OverdueKill

namespace ParticleRegistry

/-- `signal!`: resolve the key, then send the exit signal. -/
def signal (reg : ParticleRegistry) (me : Pid) (key : String)
    (reason : ExitReason) : ParticleRegistry :=
  match reg.resolveTarget key with
  | none => reg
  | some target =>
    if target.isLocalTo reg.me then reg.applyDirectedExit target me reason
    else reg

/-- `send_to_pid`: push a data message to a particle, if it is there. -/
def sendToPid (reg : ParticleRegistry) (pid : Pid) (payload : List UInt8) :
    ParticleRegistry :=
  reg.modifyState pid fun s =>
    { s with mailbox := (s.mailbox.pushData payload).getD s.mailbox }

/-- `send_tagged_to_pid`. -/
def sendTaggedToPid (reg : ParticleRegistry) (pid : Pid) (refId : UInt64)
    (payload : List UInt8) : ParticleRegistry :=
  reg.modifyState pid fun s =>
    { s with mailbox := (s.mailbox.pushTagged refId payload).getD s.mailbox }

/-- Take the front message out of the mailbox of `pid`. -/
def popFront (reg : ParticleRegistry) (pid : Pid) : ParticleRegistry :=
  reg.modifyState pid fun s =>
    { s with mailbox := { s.mailbox with
        queue := s.mailbox.queue.tail
        dataCount := match s.mailbox.queue.head? with
          | some (.data _) | some (.tagged _ _) => s.mailbox.dataCount - 1
          | _ => s.mailbox.dataCount } }

/-- The front message of the mailbox of `pid`. -/
def front (reg : ParticleRegistry) (pid : Pid) : Option MailboxMessage :=
  (reg.state pid).bind fun s => s.mailbox.queue.head?

end ParticleRegistry

/-- What can happen on the node of a supervisor. -/
inductive LoopAction where
  /-- The loop is entered. -/
  | enter
  /-- The queue becomes the next batch. -/
  | drain
  /-- The next action of the batch is performed.  The context is what a spawn
  finds. -/
  | act (ctx : SpawnContext)
  /-- No action is left: call `recv`. -/
  | park
  /-- `recv` returns a message. -/
  | receive (msg : MailboxMessage)
  /-- `recv` returns without one. -/
  | timeout
  /-- One turn of the overdue branch. -/
  | reap
  | tick
  | world (op : RegistryOp)
  | spawn (ctx : SpawnContext) (args : SpawnArgs)
  | send (pid : Pid) (payload : List UInt8)
  | sendTagged (pid : Pid) (refId : UInt64) (payload : List UInt8)

namespace SupervisorLoop

variable {σ : Type}

/-- A node on which a supervisor is about to run.  `init` is what its policy
starts with. -/
def start (node : EndpointId) (init : σ × List Action) :
    SupervisorLoop σ where
  reg := .new node
  clock := 0
  phase := .asleep
  sup := init.1
  live := []
  pending := []
  batch := []
  queue := init.2
  started := []
  stopped := []
  ended := []
  kills := []

/-- The clock as the loop reads it. -/
def nowMs (s : SupervisorLoop σ) : UInt64 := .ofNat s.clock

/-- The instance of a child that the loop knows. -/
def find (s : SupervisorLoop σ) (id : String) : Option Child :=
  s.live.find? fun c => c.id = id

/-- `live.retain(|(cid, _)| *cid != id)` -/
def dropLive (s : SupervisorLoop σ) (id : String) : List Child :=
  s.live.filter fun c => c.id ≠ id

/-- `pending.retain(|(cid, _)| *cid != id)` -/
def dropPending (s : SupervisorLoop σ) (id : String) : List Deadline :=
  s.pending.filter fun d => d.id ≠ id

/-- The arguments of the spawn for a child. -/
def spawnArgs (spec : ChildSpec) : SpawnArgs :=
  ⟨spec.start.component, none, spec.start.initArgs⟩

/-- Perform a start. -/
def performStart (P : Policy σ) (me : Pid) (ctx : SpawnContext)
    (s : SupervisorLoop σ) (spec : ChildSpec) : SupervisorLoop σ :=
  match s.reg.hostSpawnLink true me ctx (spawnArgs spec) with
  | (reg, .ok pid) =>
    let child : Child := ⟨spec.id, pid, s.started.length⟩
    { s with
      reg := reg
      live := s.dropLive spec.id ++ [child]
      started := s.started ++ [child] }
  | (reg, .error _) =>
    let (sup, actions) := P.startFailed s.sup spec s.nowMs
    { s with reg := reg, sup := sup, queue := s.queue ++ actions }

/-- Perform a stop. -/
def performStop (me : Pid) (s : SupervisorLoop σ) (id : String)
    (shutdown : Shutdown) : SupervisorLoop σ :=
  match s.find id with
  | none => s
  | some child =>
    let s := { s with stopped := s.stopped ++ [child] }
    match shutdown with
    | .brutalKill =>
      { s with
        reg := s.reg.signal me child.key .kill
        live := s.dropLive id
        ended := s.ended ++ [child] }
    | .timeout ms =>
      { s with
        reg := s.reg.signal me child.key (.shutdown "shutdown")
        pending := s.pending ++
          [⟨id, s.nowMs + ms, child, s.clock, ms, s.started.length⟩] }
    | .infinity =>
      { s with reg := s.reg.signal me child.key (.shutdown "shutdown") }

/-- Perform one action. -/
def perform (P : Policy σ) (me : Pid) (ctx : SpawnContext)
    (s : SupervisorLoop σ) : Action → SupervisorLoop σ
  | .start spec => s.performStart P me ctx spec
  | .stop id shutdown => s.performStop me id shutdown
  | .giveUp =>
    { s with
      reg := s.reg.exitParticle me (.shutdown "shutdown")
      phase := .left }

/-- How long `recv` may wait: no longer than the nearest deadline. -/
def wakeTime (s : SupervisorLoop σ) : Option Nat :=
  (s.pending.map fun d =>
    s.clock + (saturatingSub d.deadline s.nowMs).toNat).min?

/-- Handle the exit signal of `sender`. -/
def handleExit (P : Policy σ) (s : SupervisorLoop σ) (sender : Pid)
    (reason : ExitReason) : SupervisorLoop σ :=
  match s.live.find? fun c => c.key = sender.display with
  | none => s
  | some child =>
    let (sup, actions) := P.childExited s.sup child.id reason s.nowMs
    { s with
      sup := sup
      live := s.dropLive child.id
      pending := s.dropPending child.id
      ended := s.ended ++ [child]
      queue := s.queue ++ actions }

/-- Handle a tagged message, and reply to it. -/
def handleTagged (P : Policy σ) (s : SupervisorLoop σ) (refId : UInt64)
    (payload : List UInt8) : SupervisorLoop σ :=
  let (sup, actions, reply) := P.tagged s.sup payload
  let reg :=
    match reply with
    | none => s.reg
    | some (replyTo, bytes) =>
      match s.reg.resolveTarget replyTo with
      | none => s.reg
      | some target =>
        if target.isLocalTo s.reg.me then
          s.reg.sendTaggedToPid target refId bytes
        else s.reg
  { s with reg := reg, sup := sup, queue := s.queue ++ actions }

def handle (P : Policy σ) (s : SupervisorLoop σ) :
    MailboxMessage → SupervisorLoop σ
  | .exit sender reason => s.handleExit P sender reason
  | .tagged refId payload => s.handleTagged P refId payload
  | .data _ | .down _ _ _ | .spawnReply _ _ => s

/-- One turn of the overdue branch. -/
def reapOne (me : Pid) (s : SupervisorLoop σ) (d : Deadline) :
    SupervisorLoop σ :=
  match s.find d.id with
  | none => { s with pending := s.dropPending d.id }
  | some child =>
    { s with
      reg := s.reg.signal me child.key .kill
      live := s.dropLive d.id
      pending := s.dropPending d.id
      ended := s.ended ++ [child]
      kills := s.kills ++ (s.reg.resolveTarget child.key).toList.map
        fun target => ⟨d, child, target, s.clock⟩ }

/-- The mailbox of a supervisor that has died is closed.  What it still holds
comes out first, and then `recv` returns at once. -/
def closed (me : Pid) (s : SupervisorLoop σ) : Bool := ¬ s.reg.Alive me

def step (P : Policy σ) (me : Pid) (s : SupervisorLoop σ) :
    LoopAction → Option (SupervisorLoop σ)
  | .enter =>
    if s.phase = .asleep ∧ s.reg.Alive me then
      some { s with
        reg := s.reg.setTrapExit me true, phase := .acting }
    else none
  | .drain =>
    if s.phase = .acting ∧ s.batch = [] ∧ s.queue ≠ [] then
      some { s with batch := s.queue, queue := [] }
    else none
  | .act ctx =>
    match s.phase, s.batch with
    | .acting, a :: rest => some ({ s with batch := rest }.perform P me ctx a)
    | _, _ => none
  | .park =>
    if s.phase = .acting ∧ s.batch = [] ∧ s.queue = [] then
      some { s with phase := .waiting s.wakeTime }
    else none
  | .receive msg =>
    match s.phase with
    | .waiting _ =>
      if s.closed me ∨ s.reg.front me = some msg then
        some ({ s with reg := s.reg.popFront me, phase := .acting }.handle P msg)
      else none
    | _ => none
  | .timeout =>
    match s.phase with
    | .waiting wake =>
      if s.closed me ∨ wake.any (· ≤ s.clock) then
        some { s with
          phase := .reaping (s.pending.filter fun d => d.deadline ≤ s.nowMs) }
      else none
    | _ => none
  | .reap =>
    match s.phase with
    | .reaping (d :: rest) =>
      some ({ s with phase := .reaping rest }.reapOne me d)
    | .reaping [] => some { s with phase := .acting }
    | _ => none
  | .tick =>
    if s.phase ≠ .asleep then some { s with clock := s.clock + 1 } else none
  | .world op => some { s with reg := s.reg.perform op }
  | .spawn ctx args => some { s with reg := (s.reg.spawnIn ctx args).1 }
  | .send pid payload => some { s with reg := s.reg.sendToPid pid payload }
  | .sendTagged pid refId payload =>
    some { s with reg := s.reg.sendTaggedToPid pid refId payload }

end SupervisorLoop

/-! ## The two loops -/

/-- The policy of `run_supervisor!`.  A child that does not start is reported
to the policy as one that failed. -/
def supervisorPolicy : Policy Supervisor where
  startFailed sup spec nowMs :=
    sup.onChildExit spec.id (.exception "start failed") nowMs
  childExited sup id reason nowMs := sup.onChildExit id reason nowMs
  tagged sup _ := (sup, [], none)

/-- `run_supervisor!`, before the loop is entered. -/
def runSupervisor (node : EndpointId) (flags : SupFlags)
    (children : List ChildSpec) : SupervisorLoop Supervisor :=
  .start node (Supervisor.new flags children).init

/-! ## Who is alive -/

namespace ParticleRegistry

/-- Nobody comes to life but the next pid. -/
structure Lives (reg reg' : ParticleRegistry) : Prop where
  me : reg'.me = reg.me
  alive : ∀ p, reg'.Alive p → p = reg.pidGen.peek ∨ reg.Alive p

theorem NoBirth.lives {reg reg' : ParticleRegistry} (h : NoBirth reg reg') :
    Lives reg reg' :=
  ⟨h.me, fun p hp => .inr (h.alive p hp)⟩

theorem Draws.lives {reg reg' : ParticleRegistry} (h : Draws reg reg') :
    Lives reg reg' := by
  refine ⟨?_, h.alive⟩
  show reg'.pidGen.node = reg.me
  rw [h.pidGen]
  rfl

theorem Lives.link {reg reg' : ParticleRegistry} (h : Lives reg reg')
    (a b : Pid) : Lives reg (reg'.link a b).1 := by
  have hsame : SameLife reg' (reg'.link a b).1 :=
    sameLife_performSection reg' (.link a b)
  refine ⟨?_, fun p hp => h.alive p ((hsame.alive p).1 hp)⟩
  show (reg'.link a b).1.pidGen.node = reg.me
  rw [hsame.pidGen]
  exact h.me

theorem Lives.allLocal {reg reg' : ParticleRegistry} (h : Lives reg reg')
    (hl : reg.AllLocal) : reg'.AllLocal := by
  intro p hp
  rw [h.me]
  rcases h.alive p hp with rfl | hp
  · rfl
  · exact hl p hp

theorem noBirth_signal (reg : ParticleRegistry) (me : Pid) (key : String)
    (reason : ExitReason) : NoBirth reg (reg.signal me key reason) := by
  unfold signal
  split
  · exact .refl reg
  · split
    · exact noBirth_applyDirectedExit reg _ me reason
    · exact .refl reg

theorem lives_spawnIn (reg : ParticleRegistry) (ctx : SpawnContext)
    (args : SpawnArgs) : Lives reg (reg.spawnIn ctx args).1 := by
  unfold spawnIn
  split
  · rename_i name _ _
    cases h : reg.spawnRefused args.component (some name) with
    | none => exact (spawnOvertaken_of_not_refused h).1.lives
    | some e =>
      rw [spawnOvertaken, h]
      exact (NoBirth.refl reg).lives
  · cases h : reg.spawnRefused args.component args.name with
    | none => exact (spawn_of_not_refused h).2.lives
    | some e =>
      rw [spawn_of_refused h]
      exact (NoBirth.refl reg).lives

/-- Nobody else holds the display form of `pid` as a name. -/
def Unshadowed (reg : ParticleRegistry) (pid : Pid) : Prop :=
  reg.getByName pid.display = none ∨ reg.getByName pid.display = some pid

instance (reg : ParticleRegistry) (pid : Pid) :
    Decidable (reg.Unshadowed pid) :=
  inferInstanceAs (Decidable (_ ∨ _))

/-- A key that nobody has taken as a name resolves to its particle, if to
any. -/
theorem eq_of_resolveTarget {reg : ParticleRegistry} {pid target : Pid}
    (hl : reg.AllLocal) (hpid : pid.node = reg.me)
    (hkey : reg.Unshadowed pid)
    (h : reg.resolveTarget pid.display = some target) : target = pid := by
  rw [resolveTarget] at h
  rcases hkey with hnone | hsome
  · rw [hnone] at h
    have halive : reg.Alive target := List.mem_of_find?_eq_some h
    have hdisplay : target.display = pid.display := by
      simpa using List.find?_some h
    apply display_inj _ hdisplay
    rw [hl target halive, hpid]
  · rw [hsome] at h
    exact (Option.some_inj.1 h).symm

/-- The key of a live particle resolves to it, if nobody took it as a
name. -/
theorem resolveTarget_of_alive {reg : ParticleRegistry} {pid : Pid}
    (hl : reg.AllLocal) (halive : reg.Alive pid) (hkey : reg.Unshadowed pid) :
    reg.resolveTarget pid.display = some pid := by
  cases h : reg.resolveTarget pid.display with
  | some target =>
    exact congrArg some (eq_of_resolveTarget hl (hl pid halive) hkey h)
  | none =>
    rw [resolveTarget] at h
    rcases hkey with hnone | hsome
    · rw [hnone] at h
      have hno := List.find?_eq_none.1 h pid halive
      simp at hno
    · rw [hsome] at h
      cases h

/-- A signal ends a particle whose key is its own if it is a kill, or if the
particle does not trap exits. -/
theorem not_alive_signal {reg : ParticleRegistry} {me pid : Pid}
    {reason : ExitReason} (hl : reg.AllLocal) (hkey : reg.Unshadowed pid)
    (hreason : reason = .kill ∨ reason ≠ .normal ∧ reg.traps pid = false) :
    ¬ (reg.signal me pid.display reason).Alive pid := by
  by_cases halive : reg.Alive pid
  · have hlocal : pid.isLocalTo reg.me = true := by
      simpa using hl pid halive
    rw [signal, resolveTarget_of_alive hl halive hkey]
    dsimp only
    rw [if_pos hlocal]
    by_cases hkill : reason = .kill
    · rw [hkill, applyDirectedExit_kill]
      exact not_alive_exitParticle reg pid _
    · obtain ⟨hnormal, htraps⟩ := hreason.resolve_left hkill
      obtain ⟨st, hst⟩ := alive_iff.1 halive
      have htrap : st.trapExit = false := by
        simpa [traps, hst] using htraps
      rw [applyDirectedExit_of_ne_kill me hkill,
        applyInheritedExit_of_not_trapping me reason hst htrap,
        if_pos (ExitReason.isAbnormal_iff.2 hnormal)]
      exact not_alive_exitParticle reg pid _
  · exact fun h => halive ((noBirth_signal reg me _ _).alive pid h)

/-- An unnamed spawn gives a particle. -/
structure Spawnable (reg : ParticleRegistry) (ctx : SpawnContext)
    (args : SpawnArgs) : Prop where
  component : args.component ∈ reg.components
  starts : startParticle (ctx.code args.component) args.initArgs = .ok ()

instance (reg : ParticleRegistry) (ctx : SpawnContext) (args : SpawnArgs) :
    Decidable (reg.Spawnable ctx args) :=
  decidable_of_iff (args.component ∈ reg.components ∧
      (startParticle (ctx.code args.component) args.initArgs).toBool = true)
    ⟨fun h => ⟨h.1, by
        cases heq : startParticle (ctx.code args.component) args.initArgs with
        | error e =>
          rw [heq] at h
          cases h.2
        | ok u => rfl⟩,
      fun h => ⟨h.component, by rw [h.starts]; rfl⟩⟩

/-- What `spawn-link` does for an unnamed child. -/
theorem hostSpawnLink_cases (reg : ParticleRegistry) (me : Pid)
    (ctx : SpawnContext) (args : SpawnArgs) (hname : args.name = none) :
    (Spawnable reg ctx args ∧
      ∃ reg', reg.hostSpawnLink true me ctx args =
        (reg', .ok reg.pidGen.peek) ∧ Lives reg reg') ∨
    (¬ Spawnable reg ctx args ∧
      ∃ reg' e, reg.hostSpawnLink true me ctx args = (reg', .error e) ∧
        Lives reg reg') := by
  unfold hostSpawnLink spawnAndStart
  rw [if_pos rfl]
  by_cases hcomponent : args.component ∈ reg.components
  · rw [if_neg (not_not.2 hcomponent)]
    have hrefused : reg.spawnRefused args.component args.name = none := by
      rw [hname]
      exact if_pos hcomponent
    have hin : reg.spawnIn ctx args = reg.spawn args.component args.name := by
      unfold spawnIn
      rw [hname]
      split
      · contradiction
      · rfl
    obtain ⟨hok, hdraws⟩ := spawn_of_not_refused hrefused
    have hspawn : reg.spawnIn ctx args =
        ((reg.spawn args.component args.name).1, .ok reg.pidGen.peek) :=
      hin.trans (Prod.ext rfl hok)
    have hlink := hdraws.lives.link me reg.pidGen.peek
    rw [hspawn]
    dsimp only
    split
    · rename_i e hstart
      refine .inr ⟨fun h => ?_, _, _, rfl, hlink⟩
      rw [h.starts] at hstart
      cases hstart
    · rename_i hstart
      exact .inl ⟨⟨hcomponent, hstart⟩, _, rfl, hlink⟩
  · rw [if_pos hcomponent]
    exact .inr ⟨fun h => hcomponent h.component, _, _, rfl,
      (NoBirth.refl reg).lives⟩

end ParticleRegistry

namespace SupervisorLoop

open ParticleRegistry

variable {σ : Type} {P : Policy σ} {me : Pid} {s t : SupervisorLoop σ}

theorem mem_dropLive {id : String} {c : Child} :
    c ∈ s.dropLive id ↔ c ∈ s.live ∧ c.id ≠ id := by
  simp [dropLive]

theorem nodup_dropLive (h : (s.live.map (·.id)).Nodup) (id : String) :
    ((s.dropLive id).map (·.id)).Nodup :=
  h.sublist (List.filter_sublist.map _)

/-- A new instance takes the place of the one before it. -/
theorem nodup_replace (h : (s.live.map (·.id)).Nodup) (child : Child) :
    ((s.dropLive child.id ++ [child]).map (·.id)).Nodup := by
  rw [List.map_append]
  refine (nodup_dropLive h child.id).append (List.nodup_singleton _) ?_
  intro id hid hnew
  obtain ⟨c, hc, rfl⟩ := List.mem_map.1 hid
  exact (mem_dropLive.1 hc).2 (List.mem_singleton.1 hnew)

theorem mem_dropPending {id : String} {d : Deadline} :
    d ∈ s.dropPending id ↔ d ∈ s.pending ∧ d.id ≠ id := by
  simp [dropPending]

theorem find_some {id : String} {c : Child} (h : s.find id = some c) :
    c ∈ s.live ∧ c.id = id :=
  ⟨List.mem_of_find?_eq_some h, by simpa using List.find?_some h⟩

/-- The step draws a pid. -/
def drawsPid (s : SupervisorLoop σ) : LoopAction → Bool
  | .spawn _ _ => true
  | .act _ =>
    match s.batch with
    | .start _ :: _ => true
    | _ => false
  | _ => false

/-- The loop neither performs an action nor handles anything. -/
structure Quiet (s t : SupervisorLoop σ) : Prop where
  sup : t.sup = s.sup
  live : t.live = s.live
  pending : t.pending = s.pending
  actions : t.batch ++ t.queue = s.batch ++ s.queue
  started : t.started = s.started
  stopped : t.stopped = s.stopped
  ended : t.ended = s.ended
  kills : t.kills = s.kills
  clock : s.clock ≤ t.clock
  phase : t.phase = s.phase ∨
    (s.phase = .asleep ∨ s.phase = .reaping []) ∧ t.phase = .acting ∨
    s.phase = .acting ∧ s.batch ++ s.queue = [] ∧
      t.phase = .waiting s.wakeTime

/-- What a step can do. -/
theorem step_cases {a : LoopAction} (h : s.step P me a = some t) :
    (∃ ctx action rest, a = .act ctx ∧ s.phase = .acting ∧
      s.batch = action :: rest ∧
      t = { s with batch := rest }.perform P me ctx action) ∨
    (∃ msg wake, a = .receive msg ∧ s.phase = .waiting wake ∧
      (s.closed me = true ∨ s.reg.front me = some msg) ∧
      t = { s with reg := s.reg.popFront me, phase := .acting }.handle P msg) ∨
    (∃ wake, a = .timeout ∧ s.phase = .waiting wake ∧ t = { s with
      phase := .reaping (s.pending.filter fun d => d.deadline ≤ s.nowMs) }) ∨
    (∃ d rest, a = .reap ∧ s.phase = .reaping (d :: rest) ∧
      t = { s with phase := .reaping rest }.reapOne me d) ∨
    (Quiet s t ∧ ∀ ctx, a ≠ .act ctx) := by
  have hsame : ∀ reg, Quiet s { s with reg := reg } := fun reg =>
    ⟨rfl, rfl, rfl, rfl, rfl, rfl, rfl, rfl, le_rfl, .inl rfl⟩
  have hturn : ∀ reg phase,
      (s.phase = .asleep ∨ s.phase = .reaping []) ∧ phase = .acting ∨
        s.phase = .acting ∧ s.batch ++ s.queue = [] ∧
          phase = .waiting s.wakeTime →
      Quiet s { s with reg := reg, phase := phase } := fun reg phase h =>
    ⟨rfl, rfl, rfl, rfl, rfl, rfl, rfl, rfl, le_rfl, .inr h⟩
  cases a with
  | enter =>
    simp only [step] at h
    split at h
    · rename_i hs
      cases h
      have hquiet := hturn (s.reg.setTrapExit me true) _ (.inl ⟨.inl hs.1, rfl⟩)
      exact .inr (.inr (.inr (.inr ⟨hquiet, nofun⟩)))
    · cases h
  | drain =>
    simp only [step] at h
    split at h
    · rename_i hs
      cases h
      refine .inr (.inr (.inr (.inr ⟨⟨rfl, rfl, rfl, ?_, rfl, rfl, rfl, rfl, le_rfl,
        .inl rfl⟩, nofun⟩)))
      simp [hs.2.1]
    · cases h
  | act ctx =>
    simp only [step] at h
    split at h
    · rename_i action rest hphase hbatch
      cases h
      exact .inl ⟨ctx, action, rest, rfl, hphase, hbatch, rfl⟩
    · cases h
  | park =>
    simp only [step] at h
    split at h
    · rename_i hs
      cases h
      have hnone : s.batch ++ s.queue = [] := by
        rw [hs.2.1, hs.2.2]
        rfl
      have hquiet := hturn s.reg _ (.inr ⟨hs.1, hnone, rfl⟩)
      exact .inr (.inr (.inr (.inr ⟨hquiet, nofun⟩)))
    · cases h
  | receive msg =>
    simp only [step] at h
    split at h
    · rename_i wake hphase
      split at h
      · rename_i hfront
        cases h
        exact .inr (.inl ⟨msg, wake, rfl, hphase, hfront, rfl⟩)
      · cases h
    · cases h
  | timeout =>
    simp only [step] at h
    split at h
    · rename_i wake hphase
      split at h
      · cases h
        exact .inr (.inr (.inl ⟨wake, rfl, hphase, rfl⟩))
      · cases h
    · cases h
  | reap =>
    simp only [step] at h
    split at h
    · rename_i d rest hphase
      cases h
      exact .inr (.inr (.inr (.inl ⟨d, rest, rfl, hphase, rfl⟩)))
    · rename_i hphase
      cases h
      have hquiet := hturn s.reg _ (.inl ⟨.inr hphase, rfl⟩)
      exact .inr (.inr (.inr (.inr ⟨hquiet, nofun⟩)))
    · cases h
  | tick =>
    simp only [step] at h
    split at h
    · cases h
      exact .inr (.inr (.inr (.inr ⟨⟨rfl, rfl, rfl, rfl, rfl, rfl, rfl, rfl,
        Nat.le_succ _, .inl rfl⟩, nofun⟩)))
    · cases h
  | world op =>
    cases h
    exact .inr (.inr (.inr (.inr ⟨hsame _, nofun⟩)))
  | spawn ctx args =>
    cases h
    exact .inr (.inr (.inr (.inr ⟨hsame _, nofun⟩)))
  | send pid payload =>
    cases h
    exact .inr (.inr (.inr (.inr ⟨hsame _, nofun⟩)))
  | sendTagged pid refId payload =>
    cases h
    exact .inr (.inr (.inr (.inr ⟨hsame _, nofun⟩)))

/-! ## What a step does to the registry -/

theorem lives_performStart (s : SupervisorLoop σ) (ctx : SpawnContext)
    (spec : ChildSpec) :
    Lives s.reg (s.performStart P me ctx spec).reg := by
  unfold performStart
  obtain ⟨-, reg, heq, hlives⟩ | ⟨-, reg, e, heq, hlives⟩ :=
    hostSpawnLink_cases s.reg me ctx (spawnArgs spec) rfl
  · rw [heq]
    exact hlives
  · rw [heq]
    exact hlives

theorem noBirth_performStop (me : Pid) (s : SupervisorLoop σ) (id : String)
    (shutdown : Shutdown) : NoBirth s.reg (s.performStop me id shutdown).reg := by
  unfold performStop
  split
  · exact .refl s.reg
  · cases shutdown with
    | brutalKill => exact noBirth_signal s.reg me _ _
    | timeout ms => exact noBirth_signal s.reg me _ _
    | infinity => exact noBirth_signal s.reg me _ _

theorem noBirth_reapOne (me : Pid) (s : SupervisorLoop σ) (d : Deadline) :
    NoBirth s.reg (s.reapOne me d).reg := by
  unfold reapOne
  split
  · exact .refl s.reg
  · exact noBirth_signal s.reg me _ _

theorem noBirth_handle (s : SupervisorLoop σ) (msg : MailboxMessage) :
    NoBirth s.reg (s.handle P msg).reg := by
  cases msg with
  | exit sender reason =>
    show NoBirth s.reg (s.handleExit P sender reason).reg
    unfold handleExit
    split
    · exact .refl s.reg
    · exact .refl s.reg
  | tagged refId payload =>
    show NoBirth s.reg (s.handleTagged P refId payload).reg
    unfold handleTagged
    dsimp only
    split
    · exact .refl s.reg
    · split
      · exact .refl s.reg
      · split
        · exact (sameLife_modifyState s.reg _ _).noBirth
        · exact .refl s.reg
  | data payload => exact .refl s.reg
  | down source refId reason => exact .refl s.reg
  | spawnReply refId outcome => exact .refl s.reg

/-- Only a spawn brings a particle to life, and only the one it draws. -/
theorem lives_step {a : LoopAction} (h : s.step P me a = some t) :
    Lives s.reg t.reg ∧ (s.drawsPid a = false → NoBirth s.reg t.reg) := by
  have hquiet : ∀ {reg}, NoBirth s.reg reg →
      Lives s.reg reg ∧ (s.drawsPid a = false → NoBirth s.reg reg) :=
    fun hreg => ⟨hreg.lives, fun _ => hreg⟩
  cases a with
  | act ctx =>
    simp only [step] at h
    split at h
    · rename_i action rest hphase hbatch
      cases h
      cases action with
      | start spec =>
        refine ⟨lives_performStart { s with batch := rest } ctx spec, ?_⟩
        intro hdraws
        rw [drawsPid, hbatch] at hdraws
        cases hdraws
      | stop id shutdown =>
        exact hquiet
          (noBirth_performStop me { s with batch := rest } id shutdown)
      | giveUp => exact hquiet (noBirth_exitParticle s.reg me _)
    · cases h
  | spawn ctx args =>
    cases h
    exact ⟨lives_spawnIn s.reg ctx args, nofun⟩
  | enter =>
    simp only [step] at h
    split at h
    · cases h
      exact hquiet (sameLife_modifyState s.reg me _).noBirth
    · cases h
  | drain | park =>
    simp only [step] at h
    split at h
    · cases h
      exact hquiet (.refl s.reg)
    · cases h
  | receive msg =>
    simp only [step] at h
    split at h
    · split at h
      · cases h
        exact hquiet ((sameLife_modifyState s.reg me _).noBirth.trans
          (noBirth_handle
            { s with reg := s.reg.popFront me, phase := .acting } msg))
      · cases h
    · cases h
  | timeout =>
    simp only [step] at h
    split at h
    · split at h
      · cases h
        exact hquiet (.refl s.reg)
      · cases h
    · cases h
  | reap =>
    simp only [step] at h
    split at h
    · rename_i d rest hphase
      cases h
      exact hquiet (noBirth_reapOne me { s with phase := .reaping rest } d)
    · cases h
      exact hquiet (.refl s.reg)
    · cases h
  | tick =>
    simp only [step] at h
    split at h
    · cases h
      exact hquiet (.refl s.reg)
    · cases h
  | world op =>
    cases h
    exact hquiet (noBirth_perform s.reg op)
  | send pid payload =>
    cases h
    exact hquiet (sameLife_modifyState s.reg pid _).noBirth
  | sendTagged pid refId payload =>
    cases h
    exact hquiet (sameLife_modifyState s.reg pid _).noBirth

end SupervisorLoop

end Plasmoid
