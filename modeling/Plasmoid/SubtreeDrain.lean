import Plasmoid.ChildInstances
import Plasmoid.RestartWindow

/-!
# A supervisor that is asked to stop

A supervisor is a particle, and its own parent stops it with an exit signal,
which it traps.  The loop looks the sender up among its children and does
nothing about a stranger, whatever the reason.  So a supervisor does not drain
its subtree when it is asked to: it waits for the next message, and is killed
in the end if its parent runs out of patience.

The loop knows its children by the display form of their pids, which a particle
of another node may share.  `LastStraw` is what it takes for a signal of such a
particle to drain the subtree: it is taken for the exit of a child that trips
the brake.
-/

namespace Plasmoid

open Machine ParticleRegistry

/-- Something that happens while the loop is not in `recv` and performs no
action. -/
def LoopAction.apart : LoopAction → Bool
  | .act _ | .receive _ | .timeout | .reap => false
  | _ => true

/-! ## The policy -/

namespace Supervisor

/-- The stops of the children that are marked, in reverse start order. -/
def stopsOf (children : List ChildSpec)
    (marked : Fin children.length → Bool) : List Action :=
  ((positions children).reverse.filter fun i => marked i = true).map
    fun i => .stop (children.get i).id (children.get i).shutdown

/-- The times of the restarts within the period, with those on account of the
child at `idx`. -/
def restartsWith (sup : Supervisor) (idx : Fin sup.children.length)
    (nowMs : UInt64) : List UInt64 :=
  forgetRestartsBefore (saturatingSub nowMs sup.flags.periodMs)
    (sup.restarts ++ List.replicate
      (UInt32.ofNat (sup.restartedChildren idx).length).toNat nowMs)

/-- A restart on account of the child at `idx` is one too many. -/
def TripsBrake (sup : Supervisor) (idx : Fin sup.children.length)
    (nowMs : UInt64) : Prop :=
  sup.flags.intensity < UInt32.ofNat (sup.restartsWith idx nowMs).length

instance (sup : Supervisor) (idx : Fin sup.children.length) (nowMs : UInt64) :
    Decidable (sup.TripsBrake idx nowMs) :=
  inferInstanceAs (Decidable (_ < _))

theorem shutdown_eq_stopsOf (sup : Supervisor) :
    sup.shutdown.2 = stopsOf sup.children sup.running := by
  rw [shutdown_eq]
  rfl

theorem stop_of_mem_stopsOf {children : List ChildSpec}
    {marked : Fin children.length → Bool} {action : Action}
    (h : action ∈ stopsOf children marked) :
    ∃ id shutdown, action = .stop id shutdown := by
  obtain ⟨i, -, rfl⟩ := List.mem_map.1 h
  exact ⟨_, _, rfl⟩

theorem giveUp_not_mem_stopsOf (children : List ChildSpec)
    (marked : Fin children.length → Bool) :
    .giveUp ∉ stopsOf children marked := by
  intro h
  obtain ⟨id, shutdown, heq⟩ := stop_of_mem_stopsOf h
  cases heq

/-- A `giveUp` ends the stops that stand before it. -/
theorem stopsOf_prefix_iff {children : List ChildSpec}
    {marked marked' : Fin children.length → Bool} :
    stopsOf children marked ++ [.giveUp] <+:
        stopsOf children marked' ++ [.giveUp] ↔
      stopsOf children marked' = stopsOf children marked := by
  constructor
  · rintro ⟨rest, hrest⟩
    rw [List.append_assoc] at hrest
    exact ((List.append_cons_inj_of_notMem
      (giveUp_not_mem_stopsOf children marked') List.not_mem_nil).1
        hrest.symm).1
  · intro heq
    rw [heq]

theorem disturbed_eq_runsAfter {sup : Supervisor}
    {idx : Fin sup.children.length}
    (hkept : (sup.children.get idx).restart ≠ .temporary) :
    sup.disturbed idx = sup.runsAfter idx := by
  funext j
  unfold disturbed runsAfter
  by_cases hj : j ∈ affected sup.flags.strategy sup.children idx
  · by_cases htemp : (sup.children.get j).restart = .temporary
    · have hne : j ≠ idx := fun heq => hkept (heq ▸ htemp)
      rw [if_neg fun h => h.2 htemp, if_pos ⟨hj, hne⟩, if_pos hj]
      simpa using htemp
    · rw [if_pos ⟨hj, htemp⟩, if_pos hj]
      simpa using htemp
  · have hne : j ≠ idx := fun heq => hj (heq ▸ mem_affected _ _ _)
    rw [if_neg fun h => hj h.1, if_neg fun h => hj h.1, if_neg hj,
      Function.update_of_ne hne]

/-- Only a `permanent` child comes back from a shutdown. -/
theorem restarts_shutdown_iff {restart : Restart} {text : String} :
    restart.restarts (.shutdown text) = true ↔ restart = .permanent := by
  cases restart <;> simp [Restart.restarts, ExitReason.warrantsRestart]

/-- What the policy does about a child that exits with a shutdown reason. -/
theorem onChildExit_shutdown {sup : Supervisor} {id : String}
    {idx : Fin sup.children.length} (hidx : indexOf sup.children id = some idx)
    (text : String) (nowMs : UInt64) :
    (sup.onChildExit id (.shutdown text) nowMs).2 =
      if (sup.children.get idx).restart = .permanent then
        if sup.TripsBrake idx nowMs then
          stopsOf sup.children (sup.runsAfter idx) ++ [.giveUp]
        else sup.restartActions idx
      else [] := by
  rw [onChildExit, hidx]
  dsimp only
  by_cases hkept : (sup.children.get idx).restart = .permanent
  · have hcount : (sup.restartLoops idx).2.2 =
        UInt32.ofNat (sup.restartedChildren idx).length := by
      rw [restartLoops, count_foldl_restartTurn, UInt32.zero_add]
      rfl
    obtain ⟨hrunning, hactions⟩ := sup.restartLoops_eq idx
    have hstays : (sup.children.get idx).restart ≠ .temporary := by
      rw [hkept]
      rintro ⟨⟩
    rw [if_neg (not_not.2 (restarts_shutdown_iff.2 hkept)), if_pos hkept, hcount,
      hrunning, hactions, disturbed_eq_runsAfter hstays]
    split
    · rename_i hbrake
      rw [if_pos (show sup.TripsBrake idx nowMs from hbrake), giveUp,
        shutdown_eq_stopsOf]
    · rename_i hkeeps
      rw [if_neg (show ¬ sup.TripsBrake idx nowMs from hkeeps)]
  · rw [if_pos fun h => hkept (restarts_shutdown_iff.1 h), if_neg hkept]

end Supervisor

/-! ## The loop -/

namespace SupervisorLoop

variable {σ : Type} {P : Policy σ} {me : Pid} {s t u : SupervisorLoop σ}

/-- The loop performs these actions, in this order, before `recv` returns
again. -/
inductive Performs (P : Policy σ) (me : Pid) (u : SupervisorLoop σ) :
    SupervisorLoop σ → List Action → Prop where
  | done : Performs P me u u []
  | act {s t : SupervisorLoop σ} {ctx : SpawnContext} {action : Action}
      {rest actions : List Action} (batch : s.batch = action :: rest)
      (next : s.step P me (.act ctx) = some t) (tail : Performs P me u t actions) :
      Performs P me u s (action :: actions)
  | apart {s t : SupervisorLoop σ} {a : LoopAction} {actions : List Action}
      (quiet : a.apart = true) (next : s.step P me a = some t)
      (tail : Performs P me u t actions) : Performs P me u s actions

theorem quiet_of_apart {a : LoopAction} (ha : a.apart = true)
    (h : s.step P me a = some t) : Quiet s t := by
  obtain ⟨ctx, action, rest, rfl, -⟩ | ⟨msg, wake, rfl, -⟩ | ⟨wake, rfl, -⟩ |
    ⟨d, rest, rfl, -⟩ | ⟨hquiet, -⟩ := step_cases h
  · cases ha
  · cases ha
  · cases ha
  · cases ha
  · exact hquiet

/-- Stops and the last action take the front of what waits, and nothing
else. -/
theorem waiting_perform (s : SupervisorLoop σ) (ctx : SpawnContext)
    {action : Action} (hstart : ∀ spec, action ≠ .start spec) :
    (s.perform P me ctx action).waiting = s.waiting := by
  cases action with
  | start spec => exact absurd rfl (hstart spec)
  | stop id shutdown => exact (performStop_frame me s id shutdown).2.2.2
  | giveUp => rfl

/-- What is performed, starts apart, was waiting. -/
theorem Performs.waiting {actions : List Action}
    (h : Performs P me u s actions)
    (hstart : ∀ action ∈ actions, ∀ spec, action ≠ .start spec) :
    s.waiting = actions ++ u.waiting := by
  induction h with
  | done => rfl
  | @act s t ctx action rest actions batch next tail ih =>
    rw [step_act (phase_of_act next) batch, Option.some_inj] at next
    have hrest : t.waiting = rest ++ s.queue := by
      rw [← next]
      exact waiting_perform { s with batch := rest } ctx
        (hstart action List.mem_cons_self)
    have htail := ih fun a ha => hstart a (List.mem_cons_of_mem _ ha)
    rw [SupervisorLoop.waiting, batch, List.cons_append, ← hrest, htail]
    rfl
  | apart quiet next tail ih =>
    exact (quiet_of_apart quiet next).actions.symm.trans (ih hstart)

/-- The loop is left by giving up. -/
theorem Performs.giveUp_mem {actions : List Action}
    (h : Performs P me u s actions) (hphase : s.phase ≠ .left)
    (hleft : u.phase = .left) : .giveUp ∈ actions := by
  induction h with
  | done => exact absurd hleft hphase
  | @act s t ctx action rest actions batch next tail ih =>
    by_cases ht : t.phase = .left
    · obtain hs | ⟨ctx', rest', -, hbatch, -⟩ := giveUp_of_left next ht
      · exact absurd hs hphase
      · rw [batch] at hbatch
        cases hbatch
        exact List.mem_cons_self
    · exact List.mem_cons_of_mem _ (ih ht)
  | apart quiet next tail ih =>
    refine ih fun ht => ?_
    obtain hs | ⟨ctx, rest, rfl, -⟩ := giveUp_of_left next ht
    · exact hphase hs
    · cases quiet

/-- A loop that has left performs nothing more. -/
theorem Performs.of_left {actions : List Action}
    (h : Performs P me u s actions) (hphase : s.phase = .left) :
    actions = [] ∧ u.phase = .left := by
  induction h with
  | done => exact ⟨rfl, hphase⟩
  | act batch next tail ih =>
    rw [phase_of_act next] at hphase
    cases hphase
  | apart quiet next tail ih => exact ih (phase_of_left hphase next).1

/-- A loop with nothing to do performs nothing and does not leave. -/
theorem Performs.of_idle {actions : List Action}
    (h : Performs P me u s actions) (hphase : s.phase ≠ .left)
    (hwaiting : s.waiting = []) : actions = [] ∧ u.phase ≠ .left := by
  induction h with
  | done => exact ⟨rfl, hphase⟩
  | act batch next tail ih =>
    rw [SupervisorLoop.waiting, batch] at hwaiting
    cases hwaiting
  | @apart s t a actions quiet next tail ih =>
    refine ih (fun ht => ?_)
      ((quiet_of_apart quiet next).actions.trans hwaiting)
    obtain hs | ⟨ctx, rest, rfl, -⟩ := giveUp_of_left next ht
    · exact hphase hs
    · cases quiet

/-- While something is left to do the loop goes on acting. -/
theorem acting_of_apart {a : LoopAction} (ha : a.apart = true)
    (h : s.step P me a = some t) (hphase : s.phase = .acting)
    (hwaiting : s.waiting ≠ []) : t.phase = .acting := by
  obtain hsame | ⟨-, hacting⟩ | ⟨-, hnone, -⟩ := (quiet_of_apart ha h).phase
  · exact hsame.trans hphase
  · exact hacting
  · exact absurd hnone hwaiting

/-- When stops and a `giveUp` wait, the loop performs them one after the other,
and leaves after the `giveUp` and not before. -/
theorem Performs.stops {actions stops rest : List Action}
    (h : Performs P me u s actions) (hphase : s.phase = .acting)
    (hwaiting : s.waiting = stops ++ .giveUp :: rest)
    (hstops : ∀ action ∈ stops, ∃ id shutdown, action = .stop id shutdown) :
    u.phase = .left ∧ actions = stops ++ [.giveUp] ∨
      u.phase = .acting ∧ ∃ later, stops = actions ++ later ∧
        u.waiting = later ++ .giveUp :: rest := by
  induction h generalizing stops with
  | done => exact .inr ⟨hphase, stops, rfl, hwaiting⟩
  | @act s t ctx action batch actions hbatch next tail ih =>
    rw [step_act hphase hbatch, Option.some_inj] at next
    rw [SupervisorLoop.waiting, hbatch, List.cons_append] at hwaiting
    cases stops with
    | nil =>
      obtain ⟨rfl, -⟩ := List.cons_eq_cons.1 hwaiting
      have hleft : t.phase = .left := by
        rw [← next]
        rfl
      obtain ⟨rfl, hu⟩ := tail.of_left hleft
      exact .inl ⟨hu, rfl⟩
    | cons stop stops =>
      obtain ⟨rfl, hrest⟩ := List.cons_eq_cons.1 hwaiting
      obtain ⟨id, shutdown, rfl⟩ := hstops action List.mem_cons_self
      obtain ⟨-, hacting, -, hleft⟩ := performStop_frame me
        { s with batch := batch } id shutdown
      have ht : t.phase = .acting := by
        rw [← next]
        exact hacting.trans hphase
      have ht' : t.waiting = stops ++ .giveUp :: rest := by
        rw [← next]
        exact hleft.trans hrest
      obtain ⟨hu, rfl⟩ | ⟨hu, later, rfl, hlater⟩ :=
        ih ht ht' fun a ha => hstops a (List.mem_cons_of_mem _ ha)
      · exact .inl ⟨hu, rfl⟩
      · exact .inr ⟨hu, later, rfl, hlater⟩
  | @apart s t a actions quiet next tail ih =>
    have hne : s.waiting ≠ [] := by
      rw [hwaiting]
      simp
    exact ih (acting_of_apart quiet next hphase hne)
      ((quiet_of_apart quiet next).actions.trans hwaiting) hstops

/-- The next action can be brought to the front of the batch. -/
theorem exists_batch {action : Action} {l : List Action}
    (hphase : s.phase = .acting) (hwaiting : s.waiting = action :: l) :
    ∃ s' : SupervisorLoop σ,
      (∀ u actions, Performs P me u s' actions → Performs P me u s actions) ∧
      (∃ rest, s'.batch = action :: rest ∧ rest ++ s'.queue = l) ∧
      s'.phase = .acting := by
  cases hbatch : s.batch with
  | nil =>
    rw [SupervisorLoop.waiting, hbatch, List.nil_append] at hwaiting
    have hdrain : s.step P me .drain =
        some { s with batch := s.queue, queue := [] } := by
      simp only [step]
      rw [if_pos ⟨hphase, hbatch, by simp [hwaiting]⟩]
    exact ⟨{ s with batch := s.queue, queue := [] },
      fun u actions h => .apart rfl hdrain h,
      ⟨l, hwaiting, List.append_nil l⟩, hphase⟩
  | cons a rest =>
    rw [SupervisorLoop.waiting, hbatch, List.cons_append] at hwaiting
    obtain ⟨rfl, hrest⟩ := List.cons_eq_cons.1 hwaiting
    exact ⟨s, fun _ _ h => h, ⟨rest, hbatch, hrest⟩, hphase⟩

/-- Stops that wait in front of a `giveUp` can be performed. -/
theorem performs_of_waiting {stops rest : List Action}
    (hphase : s.phase = .acting)
    (hwaiting : s.waiting = stops ++ .giveUp :: rest)
    (hstops : ∀ action ∈ stops, ∃ id shutdown, action = .stop id shutdown) :
    ∃ u, Performs P me u s (stops ++ [.giveUp]) ∧ u.phase = .left := by
  induction stops generalizing s with
  | nil =>
    obtain ⟨s', hs', hbatch, hphase'⟩ := exists_batch hphase hwaiting
    obtain ⟨rest', hrest', -⟩ := hbatch
    have hnext : s'.step P me (.act sound) = some _ := step_act hphase' hrest'
    exact ⟨_, hs' _ _ (.act hrest' hnext .done), rfl⟩
  | cons action stops ih =>
    obtain ⟨s', hs', hbatch, hphase'⟩ := exists_batch hphase hwaiting
    obtain ⟨rest', hrest', hwaiting'⟩ := hbatch
    obtain ⟨id, shutdown, rfl⟩ := hstops action List.mem_cons_self
    have hnext : s'.step P me (.act sound) = some _ := step_act hphase' hrest'
    obtain ⟨-, hacting, -, hleft⟩ := performStop_frame me
      { s' with batch := rest' } id shutdown
    obtain ⟨u, hu, hgone⟩ := ih (hacting.trans hphase')
      (hleft.trans hwaiting') fun a ha => hstops a (List.mem_cons_of_mem _ ha)
    exact ⟨u, hs' _ _ (.act hrest' hnext hu), hgone⟩

/-! ## What the loop knows while it waits -/

/-- The loop gets to know an instance when it starts it. -/
theorem mem_live_step {a : LoopAction} (h : s.step P me a = some t) {c : Child}
    (hc : c ∈ t.live) : c ∈ s.live ∨ c.pid = s.reg.pidGen.peek := by
  obtain ⟨ctx, action, rest, rfl, -, -, rfl⟩ | ⟨msg, wake, rfl, -, -, rfl⟩ |
    ⟨wake, rfl, -, rfl⟩ | ⟨d, rest, rfl, -, rfl⟩ | ⟨hquiet, -⟩ := step_cases h
  · cases action with
    | start spec =>
      have hc' : c ∈ (SupervisorLoop.performStart P me ctx
        { s with batch := rest } spec).live := hc
      unfold performStart at hc'
      obtain ⟨-, reg, heq, -⟩ | ⟨-, reg, e, heq, -⟩ :=
        hostSpawnLink_cases s.reg me ctx (spawnArgs spec) rfl
      · rw [heq] at hc'
        rcases List.mem_append.1 hc' with hc' | hc'
        · exact .inl (mem_dropLive.1 hc').1
        · rw [List.mem_singleton.1 hc']
          exact .inr rfl
      · rw [heq] at hc'
        exact .inl hc'
    | stop id shutdown =>
      left
      have hc' : c ∈ (SupervisorLoop.performStop me { s with batch := rest } id
        shutdown).live := hc
      unfold performStop at hc'
      split at hc'
      · exact hc'
      · cases shutdown with
        | brutalKill => exact (mem_dropLive.1 hc').1
        | timeout ms => exact hc'
        | infinity => exact hc'
    | giveUp => exact .inl hc
  · left
    cases msg with
    | exit sender reason =>
      have hc' : c ∈ (SupervisorLoop.handleExit P
        { s with reg := s.reg.popFront me, phase := .acting } sender
        reason).live := hc
      unfold handleExit at hc'
      split at hc'
      · exact hc'
      · exact (mem_dropLive.1 hc').1
    | tagged refId payload => exact hc
    | data payload | down source refId reason | spawnReply refId outcome =>
      exact hc
  · exact .inl hc
  · left
    unfold reapOne at hc
    split at hc
    · exact hc
    · exact (mem_dropLive.1 hc).1
  · exact .inl (hquiet.live ▸ hc)

/-- The loop waits only when nothing is left to do. -/
theorem idle_step {a : LoopAction} (h : s.step P me a = some t)
    (hidle : s.phase.parked = true → s.waiting = [])
    (hparked : t.phase.parked = true) : t.waiting = [] := by
  obtain ⟨ctx, action, rest, rfl, hphase, -, rfl⟩ |
    ⟨msg, wake, rfl, -, -, rfl⟩ | ⟨wake, rfl, hphase, rfl⟩ |
    ⟨d, rest, rfl, hphase, rfl⟩ | ⟨hquiet, -⟩ := step_cases h
  · exfalso
    cases action with
    | start spec =>
      have hsame : (SupervisorLoop.performStart P me ctx { s with batch := rest }
          spec).phase = s.phase :=
        phase_performStart { s with batch := rest } ctx spec
      have hparked' := hsame ▸ hparked
      rw [hphase] at hparked'
      cases hparked'
    | stop id shutdown =>
      have hsame := (performStop_frame me { s with batch := rest } id
        shutdown).2.1
      have hparked' := hsame ▸ hparked
      rw [hphase] at hparked'
      cases hparked'
    | giveUp => cases hparked
  · exfalso
    have hsame := phase_handle P
      { s with reg := s.reg.popFront me, phase := .acting } msg
    rw [hsame] at hparked
    cases hparked
  · exact hidle (by rw [hphase]; rfl)
  · have hsame : (SupervisorLoop.reapOne me { s with phase := .reaping rest }
        d).waiting = s.waiting := by
      unfold reapOne
      split <;> rfl
    exact hsame.trans (hidle (by rw [hphase]; rfl))
  · rw [show t.waiting = s.waiting from hquiet.actions]
    obtain hsame | ⟨-, hacting⟩ | ⟨-, hnone, -⟩ := hquiet.phase
    · exact hidle (hsame ▸ hparked)
    · rw [hacting] at hparked
      cases hparked
    · exact hnone

/-- Nothing is left to do while the loop waits, and its children are on its
node. -/
structure AtHome (s : SupervisorLoop σ) : Prop where
  liveLocal : ∀ c ∈ s.live, c.pid.node = s.reg.me
  idle : s.phase.parked = true → s.waiting = []

theorem atHome_start (node : EndpointId) (init : σ × List Action) :
    AtHome (start node init) :=
  ⟨fun _ hc => absurd hc List.not_mem_nil, nofun⟩

theorem AtHome.step (h : AtHome s) {a : LoopAction}
    (hstep : s.step P me a = some t) : AtHome t where
  liveLocal c hc := by
    rw [(lives_step hstep).1.me]
    rcases mem_live_step hstep hc with hc | hpid
    · exact h.liveLocal c hc
    · rw [hpid]
      rfl
  idle := idle_step hstep h.idle

/-! ## Asked to stop -/

/-- The loop drains its subtree from `t` on, whatever happens meanwhile.  It
does not go back to `recv`, it can always go on until it has left, and when it
has left it has performed what `shutdown` returns, and but for giving up
nothing else. -/
def Drains (me : Pid) (s t : SupervisorLoop Supervisor) : Prop :=
  ∀ actions u, Performs supervisorPolicy me u t actions →
    u.phase.parked = false ∧
    (∃ more v, Performs supervisorPolicy me v u more ∧ v.phase = .left) ∧
    (u.phase = .left → ∃ l, actions = s.sup.shutdown.2 ++ l ∧
      ∀ action ∈ l, action = .giveUp)

/-- The loop takes the signal of `sender` for the exit of a `permanent` child,
one restart on account of it is one too many, and the children that run after
that restart have the stops of those that run now. -/
def LastStraw (s : SupervisorLoop Supervisor) (sender : Pid) : Prop :=
  ∃ child ∈ s.live.find? fun c => c.key = sender.display,
    ∃ idx ∈ Supervisor.indexOf s.sup.children child.id,
      (s.sup.children.get idx).restart = .permanent ∧
      s.sup.TripsBrake idx s.nowMs ∧
      Supervisor.stopsOf s.sup.children (s.sup.runsAfter idx) =
        Supervisor.stopsOf s.sup.children s.sup.running

instance (s : SupervisorLoop Supervisor) (sender : Pid) :
    Decidable (s.LastStraw sender) :=
  inferInstanceAs (Decidable (∃ child ∈ s.live.find? _, _))

/-- What the loop is given to do when it hears of the exit of `sender`: what
the policy returns if the sender has the key of a child. -/
def answer (s : SupervisorLoop Supervisor) (sender : Pid)
    (reason : ExitReason) : List Action :=
  match s.live.find? fun c => c.key = sender.display with
  | none => []
  | some child => (s.sup.onChildExit child.id reason s.nowMs).2

section Asked

variable {s t : SupervisorLoop Supervisor} {sender : Pid} {reason : ExitReason}
  {text : String}

theorem receive_eq {msg : MailboxMessage}
    (h : s.step supervisorPolicy me (.receive msg) = some t) :
    s.phase.parked = true ∧
      t = { s with reg := s.reg.popFront me, phase := .acting }.handle
        supervisorPolicy msg := by
  simp only [step] at h
  split at h
  · rename_i wake hphase
    split at h
    · cases h
      rw [hphase]
      exact ⟨rfl, rfl⟩
    · cases h
  · cases h

/-- After an exit signal the answer is all there is to do. -/
theorem waiting_of_receive (h : AtHome s)
    (hstep : s.step supervisorPolicy me (.receive (.exit sender reason)) =
      some t) :
    t.phase = .acting ∧ t.waiting = s.answer sender reason := by
  obtain ⟨hparked, rfl⟩ := receive_eq hstep
  obtain ⟨hbatch, hqueue⟩ := List.append_eq_nil_iff.1 (h.idle hparked)
  refine ⟨phase_handle _ _ _, ?_⟩
  show (SupervisorLoop.handleExit _ _ sender reason).waiting = _
  unfold handleExit answer
  cases hfind : s.live.find? fun c => c.key = sender.display with
  | none =>
    show s.batch ++ s.queue = []
    rw [hbatch, hqueue, List.nil_append]
  | some child =>
    show s.batch ++ (s.queue ++
      (s.sup.onChildExit child.id reason s.nowMs).2) = _
    rw [hbatch, hqueue, List.nil_append, List.nil_append]

/-- The answer begins with the stops of the running children and a `giveUp`
just if the signal is the last straw. -/
theorem prefix_answer_iff :
    Supervisor.stopsOf s.sup.children s.sup.running ++ [.giveUp] <+:
        s.answer sender (.shutdown text) ↔ s.LastStraw sender := by
  unfold answer LastStraw
  cases s.live.find? fun c => c.key = sender.display with
  | none => simp
  | some child =>
    cases hidx : Supervisor.indexOf s.sup.children child.id with
    | none => simp [Supervisor.onChildExit, hidx]
    | some idx =>
      have hmem : Action.giveUp ∈
          Supervisor.stopsOf s.sup.children s.sup.running ++ [.giveUp] :=
        List.mem_append_right _ (List.mem_singleton_self _)
      simp only [Option.mem_def, Option.some.injEq, exists_eq_left', hidx,
        Supervisor.onChildExit_shutdown hidx]
      split
      · rename_i hkept
        split
        · rename_i hbrake
          rw [Supervisor.stopsOf_prefix_iff]
          exact (and_iff_right hkept).symm.trans
            (and_congr_right' (and_iff_right hbrake).symm)
        · rename_i hbrake
          refine iff_of_false (fun h => ?_) fun h => hbrake h.2.1
          exact s.sup.giveUp_not_mem_restartActions idx (h.subset hmem)
      · rename_i hkept
        refine iff_of_false (fun h => ?_) fun h => hkept h.1
        exact List.not_mem_nil (h.subset hmem)

/-- The loop drains its subtree when the answer says so, and on no other
account. -/
theorem drains_iff (h : AtHome s)
    (hstep : s.step supervisorPolicy me (.receive (.exit sender reason)) =
      some t) :
    Drains me s t ↔
      s.sup.shutdown.2 ++ [.giveUp] <+: s.answer sender reason := by
  obtain ⟨hphase, hwaiting⟩ := waiting_of_receive h hstep
  have hstop : ∀ action ∈ s.sup.shutdown.2,
      ∃ id shutdown, action = .stop id shutdown := by
    rw [Supervisor.shutdown_eq_stopsOf]
    exact fun _ ha => Supervisor.stop_of_mem_stopsOf ha
  constructor
  · intro hdrains
    obtain ⟨-, ⟨actions, u, hperforms, hleft⟩, -⟩ := hdrains [] t .done
    obtain ⟨l, rfl, hl⟩ := (hdrains actions u hperforms).2.2 hleft
    have hstays : t.phase ≠ .left := by
      rw [hphase]
      rintro ⟨⟩
    have hmem : .giveUp ∈ s.sup.shutdown.2 ++ l :=
      hperforms.giveUp_mem hstays hleft
    have hstart : ∀ action ∈ s.sup.shutdown.2 ++ l,
        ∀ spec, action ≠ .start spec := by
      rintro action haction spec rfl
      rcases List.mem_append.1 haction with haction | haction
      · obtain ⟨id, shutdown, heq⟩ := hstop _ haction
        cases heq
      · cases hl _ haction
    have hperformed := hperforms.waiting hstart
    rw [hwaiting] at hperformed
    rcases List.mem_append.1 hmem with hmem | hmem
    · obtain ⟨id, shutdown, heq⟩ := hstop _ hmem
      cases heq
    · cases l with
      | nil => exact absurd hmem List.not_mem_nil
      | cons action l =>
        obtain rfl := hl action List.mem_cons_self
        rw [hperformed]
        exact ⟨l ++ u.waiting, by simp⟩
  · rintro ⟨rest, hrest⟩ actions u hperforms
    rw [← hrest, List.append_assoc] at hwaiting
    rcases hperforms.stops hphase hwaiting hstop with ⟨hleft, rfl⟩ |
      ⟨hacting, later, hlater, hmore⟩
    · refine ⟨by rw [hleft]; rfl, ⟨[], u, .done, hleft⟩, fun _ => ?_⟩
      exact ⟨[.giveUp], rfl, fun _ ha => List.mem_singleton.1 ha⟩
    · refine ⟨by rw [hacting]; rfl, ?_, fun hleft => ?_⟩
      · obtain ⟨v, hv, hleft⟩ := performs_of_waiting hacting hmore
          fun a ha => hstop a (hlater ▸ List.mem_append_right _ ha)
        exact ⟨_, v, hv, hleft⟩
      · rw [hacting] at hleft
        cases hleft

/-- A particle of the node that is not a child has the key of none. -/
theorem answer_of_stranger (h : AtHome s) (hnode : sender.node = s.reg.me)
    (hstranger : ∀ c ∈ s.live, c.pid ≠ sender) (reason : ExitReason) :
    s.answer sender reason = [] := by
  have hnone : (s.live.find? fun c => c.key = sender.display) = none := by
    rw [List.find?_eq_none]
    intro c hc hkey
    refine hstranger c hc (display_inj ?_ (of_decide_eq_true hkey))
    rw [h.liveLocal c hc, hnode]
  rw [answer, hnone]

/-- A particle of the node that is not a child asks in vain. -/
theorem ignores_stranger (h : AtHome s) (hnode : sender.node = s.reg.me)
    (hstranger : ∀ c ∈ s.live, c.pid ≠ sender)
    (hstep : s.step supervisorPolicy me (.receive (.exit sender reason)) =
      some t) {actions : List Action} {u : SupervisorLoop Supervisor}
    (hperforms : Performs supervisorPolicy me u t actions) :
    actions = [] ∧ u.phase ≠ .left := by
  obtain ⟨hphase, hwaiting⟩ := waiting_of_receive h hstep
  rw [answer_of_stranger h hnode hstranger] at hwaiting
  refine hperforms.of_idle ?_ hwaiting
  rw [hphase]
  rintro ⟨⟩

end Asked

end SupervisorLoop

/-- The supervisor is asked to stop by a particle that is none of its
children. -/
def askToStop (sender : Pid) : List LoopAction :=
  startTwo ++ [.spawn sound ⟨"worker", none, ""⟩,
    .world (.directedExit (particle 1) sender (.shutdown "shutdown"))]

end Plasmoid
