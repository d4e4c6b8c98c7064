import Plasmoid.Lib.Machine

/-!
# The ring benchmark

The ring component is a protocol of one orchestrator and `n` workers.  The
orchestrator spawns the workers, tells each its neighbour, sends a hop message
with a count `m` to the last one and waits.  A worker passes the hop on with the
count lowered; at zero it tells the orchestrator, which then stops everybody.

A pid travels as a string and is resolved by its receiver, which fails if the
particle has left the registry.  All particles are on one node, so a message is
in the mailbox when the send returns.  A worker that has returned stays in the
registry until the runtime removes it.

`route` is who handles the hop, and with which count.  `hops` is the history of
who has handled it, which no step reads.
-/

namespace Plasmoid

open Machine

namespace RingBenchmark

/-- The particles of a ring.  Workers are numbered in the order of their
spawns. -/
inductive RingPid where
  | orchestrator
  | worker (i : ℕ)
deriving DecidableEq

inductive RingMsg where
  | setup (next : RingPid)
  | hop (remaining : ℕ) (master : RingPid)
  | finished
  | stop
deriving DecidableEq

/-- What `start` returns. -/
inductive RingResult where
  | ok
  | spawnFailed
  | badPid (p : RingPid)
  | badMaster
deriving DecidableEq

inductive WorkerPhase where
  /-- In the loop that waits for `Setup`. -/
  | waiting
  | forwarding (next : RingPid)
  /-- `start` has returned and the particle is still in the registry. -/
  | returned (r : RingResult)
  | exited (r : RingResult)
deriving DecidableEq

structure RingWorker where
  phase : WorkerPhase
  mailbox : List RingMsg
deriving DecidableEq

inductive BossPhase where
  | spawning
  /-- In the loop over `0..n` that sends `Setup`. -/
  | settingUp (i : ℕ)
  | launching
  | awaiting
  /-- In the loop over the workers that sends `Stop`. -/
  | stopping (i : ℕ)
  | returned (r : RingResult)
  | exited (r : RingResult)
  /-- The index `n - 1` is out of bounds. -/
  | trapped
deriving DecidableEq

structure RingState where
  boss : BossPhase
  inbox : List RingMsg
  workers : List RingWorker
  /-- Which worker has handled a hop, with which count. -/
  hops : List (ℕ × ℕ)

/-- The orchestrator begins. -/
def start : RingState := ⟨.spawning, [], [], []⟩

def RingWorker.gone (w : RingWorker) : Bool :=
  match w.phase with
  | .exited _ => true
  | _ => false

def BossPhase.gone : BossPhase → Bool
  | .exited _ | .trapped => true
  | _ => false

namespace RingState

/-- `resolve`: is the particle in the registry? -/
def resolves (s : RingState) : RingPid → Bool
  | .orchestrator => !s.boss.gone
  | .worker i => s.workers[i]?.any fun w => !w.gone

/-- `send!`.  A message to a particle that is gone is dropped. -/
def send (s : RingState) (p : RingPid) (msg : RingMsg) : RingState :=
  match p with
  | .orchestrator =>
    if s.boss.gone then s else { s with inbox := s.inbox ++ [msg] }
  | .worker i =>
    { s with workers := s.workers.modify i fun w =>
        if w.gone then w else { w with mailbox := w.mailbox ++ [msg] } }

def setWorker (s : RingState) (i : ℕ) (w : RingWorker) : RingState :=
  { s with workers := s.workers.set i w }

/-- The orchestrator goes on. -/
def goTo (s : RingState) (b : BossPhase) : RingState := { s with boss := b }

/-- Enter a hop in the history. -/
def note (s : RingState) (entries : List (ℕ × ℕ)) : RingState :=
  { s with hops := s.hops ++ entries }

/-- One step of `run_orchestrator`.  `spawned` is the answer of `spawn`. -/
def bossStep (n m : ℕ) (spawned : Bool) (s : RingState) : Option RingState :=
  match s.boss with
  | .spawning =>
    if s.workers.length < n then
      if spawned then
        some { s with workers := s.workers ++ [⟨.waiting, []⟩] }
      else some (s.goTo (.returned .spawnFailed))
    else some (s.goTo (.settingUp 0))
  | .settingUp i =>
    if i < n then
      some ((s.send (.worker i)
        (.setup (.worker ((i + 1) % s.workers.length)))).goTo (.settingUp (i + 1)))
    else some (s.goTo .launching)
  | .launching =>
    if n = 0 then some (s.goTo .trapped)
    else some ((s.send (.worker (n - 1)) (.hop m .orchestrator)).goTo .awaiting)
  | .awaiting =>
    match s.inbox with
    | [] => none
    | msg :: rest => some ({ s with inbox := rest }.goTo
        (if msg = RingMsg.finished then .stopping 0 else .awaiting))
  | .stopping i =>
    if i < s.workers.length then
      some ((s.send (.worker i) .stop).goTo (.stopping (i + 1)))
    else some (s.goTo (.returned .ok))
  | .returned r => some (s.goTo (.exited r))
  | .exited _ | .trapped => none

/-- The first loop of `run_worker`, for one message. -/
def onWaiting (s : RingState) : RingMsg → WorkerPhase
  | .setup p => if s.resolves p then .forwarding p else .returned (.badPid p)
  | .stop => .returned .ok
  | _ => .waiting

/-- The second loop of `run_worker`, for one message: the next phase, and what
is sent to whom. -/
def onForwarding (s : RingState) (next : RingPid) :
    RingMsg → WorkerPhase × Option (RingPid × RingMsg)
  | .stop => (.returned .ok, none)
  | .hop 0 master =>
    if s.resolves master then (.forwarding next, some (master, .finished))
    else (.returned .badMaster, none)
  | .hop (k + 1) master => (.forwarding next, some (next, .hop k master))
  | _ => (.forwarding next, none)

/-- The entry that a message leaves in the history. -/
def hopOf (i : ℕ) : RingMsg → List (ℕ × ℕ)
  | .hop k _ => [(i, k)]
  | _ => []

/-- Worker `i` takes a message in the second loop. -/
def forwarded (s : RingState) (i : ℕ) (next : RingPid) (msg : RingMsg)
    (rest : List RingMsg) : RingState :=
  let s' := (s.setWorker i ⟨(s.onForwarding next msg).1, rest⟩).note
    (hopOf i msg)
  (s.onForwarding next msg).2.elim s' fun m => s'.send m.1 m.2

/-- One step of a worker: the next message, or its removal. -/
def workerStep (i : ℕ) (s : RingState) : Option RingState :=
  match s.workers[i]? with
  | none => none
  | some w =>
    match w.phase with
    | .returned r => some (s.setWorker i ⟨.exited r, w.mailbox⟩)
    | .exited _ => none
    | .waiting =>
      match w.mailbox with
      | [] => none
      | msg :: rest => some (s.setWorker i ⟨s.onWaiting msg, rest⟩)
    | .forwarding next =>
      match w.mailbox with
      | [] => none
      | msg :: rest => some (s.forwarded i next msg rest)

end RingState

inductive RingAction where
  | boss (spawned : Bool)
  | worker (i : ℕ)
deriving DecidableEq

def step (n m : ℕ) (s : RingState) : RingAction → Option RingState
  | .boss spawned => s.bossStep n m spawned
  | .worker i => s.workerStep i

/-- No spawn fails. -/
def Spawns (_ : RingState) (a : RingAction) : Prop := a ≠ .boss false

instance (s : RingState) : DecidablePred (Spawns s) :=
  fun a => inferInstanceAs (Decidable (a ≠ .boss false))

/-- Who handles the hop, and with which count. -/
def route (n m : ℕ) : List (ℕ × ℕ) :=
  (List.range (m + 1)).map fun k => ((n - 1 + k) % n, m - k)

/-! ## Every run ends -/

def RingMsg.weight : RingMsg → ℕ
  | .hop k _ => k + 2
  | _ => 1

def RingWorker.weight (w : RingWorker) : ℕ :=
  (if w.gone then 0 else 1) + (w.mailbox.map RingMsg.weight).sum

def BossPhase.weight (n m w : ℕ) : BossPhase → ℕ
  | .spawning => 2 * w + m + 7 + 2 * n + 2 + 4 * (n - w)
  | .settingUp i => 2 * w + m + 7 + 2 * (n - i) + 1
  | .launching => 2 * w + m + 7
  | .awaiting => 2 * w + 4
  | .stopping i => 2 * (w - i) + 3
  | .returned _ => 1
  | .exited _ | .trapped => 0

/-- What is left to do. -/
def RingState.weight (n m : ℕ) (s : RingState) : ℕ :=
  s.boss.weight n m s.workers.length + (s.inbox.map RingMsg.weight).sum +
    (s.workers.map RingWorker.weight).sum

theorem sum_map_set {α : Type} (f : α → ℕ) (b : α) :
    ∀ {l : List α} {i : ℕ} {a : α}, l[i]? = some a →
      ((l.set i b).map f).sum + f a = (l.map f).sum + f b := by
  intro l
  induction l with
  | nil => simp
  | cons x l ih =>
    intro i a h
    cases i with
    | zero =>
      obtain rfl : x = a := by simpa using h
      simp
      omega
    | succ i =>
      have hl := ih (i := i) (a := a) (by simpa using h)
      simp only [List.set_cons_succ, List.map_cons, List.sum_cons]
      omega

theorem sum_map_modify_le {α : Type} (f : α → ℕ) (g : α → α) (c : ℕ)
    (hg : ∀ a, f (g a) ≤ f a + c) :
    ∀ (l : List α) (i : ℕ), ((l.modify i g).map f).sum ≤ (l.map f).sum + c := by
  intro l
  induction l with
  | nil => simp
  | cons x l ih =>
    intro i
    cases i with
    | zero =>
      have hx := hg x
      simp
      omega
    | succ i =>
      have hl := ih i
      simp
      omega

theorem weight_send_le (n m : ℕ) (s : RingState) (p : RingPid)
    (msg : RingMsg) :
    (s.send p msg).weight n m ≤ s.weight n m + msg.weight := by
  cases p with
  | orchestrator =>
    by_cases h : s.boss.gone = true
    · simp [RingState.send, h]
    · simp [RingState.send, h, RingState.weight]
      omega
  | worker i =>
    have hle := sum_map_modify_le RingWorker.weight (fun w =>
      if w.gone then w else { w with mailbox := w.mailbox ++ [msg] }) msg.weight
      (by
        intro w
        by_cases h : w.gone = true
        · simp [h]
        · have hgone : RingWorker.gone { w with mailbox := w.mailbox ++ [msg] } =
              w.gone := rfl
          simp [h, RingWorker.weight, hgone]
          omega) s.workers i
    simp only [RingState.weight, RingState.send, List.length_modify]
    omega

variable {n m : ℕ} {s t : RingState} {i : ℕ} {w : RingWorker}

theorem boss_send (p : RingPid) (msg : RingMsg) :
    (s.send p msg).boss = s.boss := by
  cases p with
  | orchestrator => by_cases h : s.boss.gone = true <;> simp [RingState.send, h]
  | worker i => rfl

theorem length_send (p : RingPid) (msg : RingMsg) :
    (s.send p msg).workers.length = s.workers.length := by
  cases p with
  | orchestrator => by_cases h : s.boss.gone = true <;> simp [RingState.send, h]
  | worker i => simp [RingState.send]

/-- The orchestrator goes on to `b`, after a send. -/
theorem weight_send_boss_lt {p : RingPid} {msg : RingMsg} {b : BossPhase}
    (h : b.weight n m s.workers.length + msg.weight <
      s.boss.weight n m s.workers.length) :
    ((s.send p msg).goTo b).weight n m < s.weight n m := by
  have hsend := weight_send_le n m s p msg
  simp only [RingState.weight, RingState.goTo, boss_send, length_send] at hsend ⊢
  omega

theorem weight_boss_lt {b : BossPhase}
    (h : b.weight n m s.workers.length < s.boss.weight n m s.workers.length) :
    (s.goTo b).weight n m < s.weight n m := by
  simp only [RingState.weight, RingState.goTo]
  omega

theorem weight_setWorker (h : s.workers[i]? = some w) (w' : RingWorker) :
    (s.setWorker i w').weight n m + w.weight = s.weight n m + w'.weight := by
  have hset := sum_map_set RingWorker.weight w' h
  simp only [RingState.weight, RingState.setWorker, List.length_set]
  omega

theorem weight_bossStep {spawned : Bool} (h : s.bossStep n m spawned = some t) :
    t.weight n m < s.weight n m := by
  unfold RingState.bossStep at h
  split at h
  · rename_i hb
    split at h
    · split at h
      · obtain rfl := Option.some.inj h
        simp only [RingState.weight, hb, BossPhase.weight, List.map_append,
          List.sum_append, List.length_append, List.map_cons, List.map_nil,
          List.sum_cons, List.sum_nil, List.length_cons, List.length_nil,
          RingWorker.weight, RingWorker.gone]
        simp
        omega
      · obtain rfl := Option.some.inj h
        apply weight_boss_lt
        simp only [hb, BossPhase.weight]
        omega
    · obtain rfl := Option.some.inj h
      apply weight_boss_lt
      simp only [hb, BossPhase.weight]
      omega
  · rename_i i hb
    split at h
    · obtain rfl := Option.some.inj h
      apply weight_send_boss_lt
      simp only [hb, BossPhase.weight, RingMsg.weight]
      omega
    · obtain rfl := Option.some.inj h
      apply weight_boss_lt
      simp only [hb, BossPhase.weight]
      omega
  · rename_i hb
    split at h
    · obtain rfl := Option.some.inj h
      apply weight_boss_lt
      simp only [hb, BossPhase.weight]
      omega
    · obtain rfl := Option.some.inj h
      apply weight_send_boss_lt
      simp only [hb, BossPhase.weight, RingMsg.weight]
      omega
  · rename_i hb
    split at h
    · cases h
    · rename_i msg rest hinbox
      obtain rfl := Option.some.inj h
      have hmsg : 1 ≤ msg.weight := by cases msg <;> simp [RingMsg.weight]
      simp only [RingState.weight, RingState.goTo, hb, hinbox, List.map_cons,
        List.sum_cons]
      split <;> simp only [BossPhase.weight] <;> omega
  · rename_i i hb
    split at h
    · obtain rfl := Option.some.inj h
      apply weight_send_boss_lt
      simp only [hb, BossPhase.weight, RingMsg.weight]
      omega
    · obtain rfl := Option.some.inj h
      apply weight_boss_lt
      simp only [hb, BossPhase.weight]
      omega
  · rename_i r hb
    obtain rfl := Option.some.inj h
    apply weight_boss_lt
    simp [hb, BossPhase.weight]
  · cases h
  · cases h

theorem weight_onForwarding (s : RingState) (next : RingPid) (msg : RingMsg) :
    ((s.onForwarding next msg).2.elim 0 fun m => m.2.weight) < msg.weight := by
  cases msg with
  | hop k master =>
    cases k with
    | zero => cases h : s.resolves master <;> simp [RingState.onForwarding, h,
        RingMsg.weight]
    | succ k => simp [RingState.onForwarding, RingMsg.weight]
  | setup _ | finished | stop => simp [RingState.onForwarding, RingMsg.weight]

theorem weight_note (s : RingState) (entries : List (ℕ × ℕ)) :
    (s.note entries).weight n m = s.weight n m := rfl

theorem weight_of_not_gone (h : w.gone = false) :
    w.weight = 1 + (w.mailbox.map RingMsg.weight).sum := by
  simp [RingWorker.weight, h]

theorem RingWorker.weight_le (w : RingWorker) :
    w.weight ≤ 1 + (w.mailbox.map RingMsg.weight).sum := by
  unfold RingWorker.weight
  split <;> omega

theorem RingMsg.weight_pos (msg : RingMsg) : 0 < msg.weight := by
  cases msg <;> simp [RingMsg.weight]

theorem weight_workerStep (h : s.workerStep i = some t) :
    t.weight n m < s.weight n m := by
  unfold RingState.workerStep at h
  split at h
  · cases h
  · rename_i w hw
    split at h
    · rename_i r hphase
      obtain rfl := Option.some.inj h
      have hset := weight_setWorker (n := n) (m := m) hw ⟨.exited r, w.mailbox⟩
      have hbefore := weight_of_not_gone (w := w) (by rw [RingWorker.gone, hphase])
      have hafter : RingWorker.weight ⟨.exited r, w.mailbox⟩ =
          0 + (w.mailbox.map RingMsg.weight).sum := rfl
      omega
    · cases h
    · rename_i hphase
      split at h
      · cases h
      · rename_i msg rest hbox
        obtain rfl := Option.some.inj h
        have hset := weight_setWorker (n := n) (m := m) hw
          ⟨s.onWaiting msg, rest⟩
        have hbefore := weight_of_not_gone (w := w) (by rw [RingWorker.gone, hphase])
        have hafter := RingWorker.weight_le ⟨s.onWaiting msg, rest⟩
        have hmsg := msg.weight_pos
        simp only [hbox, List.map_cons, List.sum_cons] at hbefore hafter
        omega
    · rename_i next hphase
      split at h
      · cases h
      · rename_i msg rest hbox
        obtain rfl := Option.some.inj h
        have hset := weight_setWorker (n := n) (m := m) hw
          ⟨(s.onForwarding next msg).1, rest⟩
        have hbefore := weight_of_not_gone (w := w) (by rw [RingWorker.gone, hphase])
        have hafter := RingWorker.weight_le ⟨(s.onForwarding next msg).1, rest⟩
        have hless := weight_onForwarding s next msg
        simp only [hbox, List.map_cons, List.sum_cons] at hbefore hafter
        unfold RingState.forwarded
        cases hsend : (s.onForwarding next msg).2 with
        | none =>
          rw [hsend] at hless
          show (s.setWorker i _).weight n m < _
          simp only [Option.elim_none] at hless
          omega
        | some out =>
          rw [hsend] at hless
          have hle := weight_send_le n m
            ((s.setWorker i ⟨(s.onForwarding next msg).1, rest⟩).note
              (RingState.hopOf i msg)) out.1 out.2
          rw [weight_note] at hle
          simp only [Option.elim_some] at hless ⊢
          omega

theorem weight_step {a : RingAction} (h : step n m s a = some t) :
    t.weight n m < s.weight n m := by
  cases a with
  | boss spawned => exact weight_bossStep h
  | worker i => exact weight_workerStep h

end RingBenchmark

end Plasmoid
