import Plasmoid.Lib.Broadcast
import Plasmoid.LocalCalls
import Plasmoid.Signals
import Plasmoid.Spawning

/-!
# Watching the root of an application

`plasmoid start --app` spawns the root that the manifest names and watches it:
when the root dies, the node exits, or goes on, as the restart type says.  The
root runs as a task of its own from the moment it is started.  The watcher
subscribes to the deaths after that, and the channel it reads keeps 1024 of
them.

`RootWatch` is the boot of a node next to everything else that its tasks do.
`DiesInSight` is the condition under which the root's death is never missed:
it is published while the watcher is subscribed, and no 1024 others overtake
it.
-/

namespace Plasmoid

open Machine

/-- What the node does when the root particle exits. -/
inductive RestartType where
  | permanent
  | transient
  | temporary
deriving DecidableEq

def RestartType.shouldStopNode : RestartType → Bool → Bool
  | .permanent, _ => true
  | .transient, abnormal => abnormal
  | .temporary, _ => false

/-- What a node runs. -/
structure Manifest where
  name : String
  root : String
  type : RestartType := .permanent
  initArgs : String := ""

/-- How far the boot is. -/
inductive BootPhase where
  | loading
  | spawning
  | starting (root : Pid)
  | started (root : Pid)
  | watching (root : Pid) (cursor : Nat)
  /-- The node shuts down and exits with the code. -/
  | exiting (code : Int)
  | running
  | failed
deriving DecidableEq

/-- What `watch_root` makes of the root's death. -/
def RestartType.verdict (type : RestartType) (reason : ExitReason) : BootPhase :=
  -- Only `normal` is clean here: `shutdown` is not.
  let abnormal : Bool := reason ≠ .normal
  if type.shouldStopNode abnormal then .exiting (if abnormal then 1 else 0)
  else .running

/-- A node at boot. -/
structure RootWatch where
  calls : CallsInProgress
  phase : BootPhase

inductive BootAction where
  /-- Any other task of the node acts. -/
  | other (a : LocalAction)
  | begin
  /-- The spawn of the root takes its next section. -/
  | spawn
  | start
  | subscribe
  | recv

namespace RootWatch

def boot (node : EndpointId) : RootWatch := ⟨.idle (.new node), .loading⟩

/-- The registry of the node. -/
def reg (s : RootWatch) : ParticleRegistry := s.calls.reg

/-- The phase after a section of the spawn. -/
def phaseAfter : Progress → BootPhase
  | .spawned (.ok pid) => .starting pid
  | .spawned (.error _) | .exited => .failed
  | .next _ => .spawning

/-- The node boots the application `m`, and the registry runs the spawn of the
root as call `id`. -/
def step (m : Manifest) (code : String → ComponentCode) (id : Nat)
    (s : RootWatch) : BootAction → Option RootWatch
  | .other a =>
    if a.callId = some id then none
    else (s.calls.nodeStep a).map fun calls => { s with calls }
  | .begin =>
    if s.phase = .loading then
      if m.root ∉ s.reg.components then some { s with phase := .failed }
      else
        (s.calls.step (.beginSpawn id m.root (some m.name))).map fun calls =>
          { calls, phase := if id ∈ calls.calls then .spawning else .failed }
    else none
  | .spawn =>
    if s.phase = .spawning then
      match s.calls.calls.lookup id with
      | some call =>
        (s.calls.step (.advance id)).map fun calls =>
          { calls, phase := phaseAfter (s.reg.critical call).2 }
      | none => none
    else none
  | .start =>
    match s.phase with
    | .starting root =>
      match startParticle (code m.root) m.initArgs with
      | .ok _ => some { s with phase := .started root }
      | .error _ => some { s with phase := .failed }
    | _ => none
  | .subscribe =>
    match s.phase with
    | .started root =>
      some { s with phase := .watching root s.reg.deaths.length }
    | _ => none
  | .recv =>
    match s.phase with
    | .watching root cursor =>
      -- The registry holds the sender, so the channel is never closed.
      match Broadcast.recv ParticleRegistry.deathBroadcastCapacity s.reg.deaths
        cursor with
      | (.waits, _) => none
      | (.lagged, cursor) => some { s with phase := .watching root cursor }
      | (.event death, cursor) =>
        if death.pid ≠ root then some { s with phase := .watching root cursor }
        else some { s with phase := m.type.verdict death.reason }
    | _ => none

end RootWatch

/-! ## Deaths still to come -/

namespace PendingCall

/-- The particle that an exit has removed and whose death is still to be
published. -/
def publishing : PendingCall → Option Pid
  | .exitEntry pid .. | .exitNames pid .. | .exitPublish pid .. => some pid
  | _ => none

/-- The particle whose death the next section publishes. -/
def publishes : PendingCall → Option Pid
  | .exitPublish pid .. => some pid
  | _ => none

end PendingCall

namespace CallsInProgress

/-- The particle whose death an action publishes. -/
def publishes (s : CallsInProgress) : LocalAction → Option Pid
  | .call (.advance id) => (s.calls.lookup id).bind PendingCall.publishes
  | _ => none

/-- The death of `x` is still to be published. -/
def Due (s : CallsInProgress) (x : Pid) : Prop :=
  s.reg.Alive x ∨
    ∃ id call, s.calls.lookup id = some call ∧ call.publishing = some x

end CallsInProgress

namespace RootWatch

/-- The root, once the spawn holds a pid for it. -/
def root (s : RootWatch) (id : Nat) : Option Pid :=
  match s.phase with
  | .spawning => (s.calls.calls.lookup id).bind PendingCall.spawning
  | .starting root | .started root | .watching root _ => some root
  | _ => none

/-- The root is dead, the watcher has read every death, the root's is not
about to be published, and the watcher waits. -/
def Missed (s : RootWatch) : Prop :=
  ∃ root cursor, s.phase = .watching root cursor ∧ ¬ s.calls.Due root ∧
    s.reg.deaths.length ≤ cursor

/-- The condition on the publication of a death.  Before the watcher has
subscribed it is not the root's.  Afterwards it pushes no unread death of the
root out of the channel. -/
def PublishedInSight (id : Nat) (s : RootWatch) (pid : Pid) : Prop :=
  match s.phase with
  | .watching root cursor =>
    cursor + ParticleRegistry.deathBroadcastCapacity ≤ s.reg.deaths.length →
      ∀ d ∈ s.reg.deaths[s.reg.deaths.length -
        ParticleRegistry.deathBroadcastCapacity]?, d.pid ≠ root
  | _ => s.root id ≠ some pid

instance (id : Nat) (s : RootWatch) : DecidablePred (PublishedInSight id s) :=
  fun pid => by
    unfold PublishedInSight
    split <;> infer_instance

/-- The condition on a step.  The pid counter does not wrap around. -/
def DiesInSight (id : Nat) (s : RootWatch) : BootAction → Prop
  | .other a =>
    s.calls.Counts a ∧ ∀ pid ∈ s.calls.publishes a, s.PublishedInSight id pid
  | .spawn => s.calls.Counts (.call (.advance id))
  | _ => True

instance (id : Nat) (s : RootWatch) : DecidablePred (DiesInSight id s) :=
  fun a => by
    unfold DiesInSight
    split <;> infer_instance

end RootWatch

/-! ## What an action does to the deaths -/

namespace ParticleRegistry

theorem deaths_critical (reg : ParticleRegistry) (call : PendingCall) :
    call.publishes = none ∧ (reg.critical call).1.deaths = reg.deaths ∨
      ∃ d, call.publishes = some d.pid ∧
        (reg.critical call).1.deaths = reg.deaths ++ [d] := by
  cases call with
  | exitPublish pid st name reason rest =>
    exact .inr ⟨deathOf reg.me pid st name reason, rfl, rfl⟩
  | spawnDraw component name =>
    rw [critical]
    split <;> exact .inl ⟨rfl, rfl⟩
  | spawnBind pid n =>
    rw [critical]
    split <;> exact .inl ⟨rfl, rfl⟩
  | exitTake pid reason rest =>
    rw [critical]
    split <;> exact .inl ⟨rfl, rfl⟩
  | exitSignal reason sends rest =>
    cases sends with
    | nil => exact .inl ⟨rfl, rfl⟩
    | cons d sends => exact .inl ⟨rfl, rfl⟩
  | spawnEntry | spawnState | spawnUndoState | spawnUndoEntry | exitEntry
  | exitNames | exitUnhook => exact .inl ⟨rfl, rfl⟩

theorem deaths_performSection (reg : ParticleRegistry) (op : SectionOp) :
    (reg.performSection op).deaths = reg.deaths := by
  cases op with
  | link a b =>
    rw [performSection, link]
    split
    · rfl
    · split <;> rfl
  | registerComponent | setTrapExit | linkRemote | unlinkRemote | monitorRemote
  | deliverExit | deliverDown | forgetNode => rfl

/-- No single action of the registry publishes a death. -/
theorem deaths_onRegistry (reg : ParticleRegistry) (a : LocalAction) :
    (a.onRegistry reg).deaths = reg.deaths := by
  cases a with
  | call a =>
    cases a with
    | register pid name =>
      rw [LocalAction.onRegistry, registerName]
      split <;> rfl
    | unregister pid name =>
      rw [LocalAction.onRegistry, unregisterName]
      split
      · split <;> rfl
      · rfl
    | atomic op => exact deaths_performSection reg op
    | beginSpawn | beginExit | advance => rfl
  | unlink | monitorWithRef => rfl
  | demonitor watcher refId =>
    rw [LocalAction.onRegistry, demonitor]
    split <;> rfl

end ParticleRegistry

namespace CallsInProgress

theorem publishes_of_begins {s : CallsInProgress} {a : LocalAction} {id : Nat}
    {call : PendingCall} (h : a.begins = some (id, call)) : s.publishes a = none := by
  unfold LocalAction.begins at h
  split at h <;> first | rfl | cases h

theorem publishes_of_isSingle {s : CallsInProgress} {a : LocalAction}
    (h : a.isSingle = true) : s.publishes a = none := by
  unfold publishes
  split
  · cases h
  · rfl

/-- An action publishes one death or none. -/
theorem deaths_nodeStep {s t : CallsInProgress} {a : LocalAction}
    (hstep : s.nodeStep a = some t) :
    s.publishes a = none ∧ t.reg.deaths = s.reg.deaths ∨
      ∃ d, s.publishes a = some d.pid ∧ t.reg.deaths = s.reg.deaths ++ [d] := by
  obtain ⟨id, call, rfl, hcall, rfl⟩ | ⟨id, call, hbegins, -, rfl⟩ |
    ⟨hsingle, rfl⟩ := nodeStep_cases hstep
  · rw [reg_settle, publishes, hcall]
    exact s.reg.deaths_critical call
  · exact .inl ⟨publishes_of_begins hbegins, rfl⟩
  · exact .inl ⟨publishes_of_isSingle hsingle, s.reg.deaths_onRegistry a⟩

/-- Whoever is alive before a section stays alive, or is on its way to the
publication of its death, or is rolled back. -/
theorem due_critical_of_alive {reg : ParticleRegistry} {call : PendingCall} {x : Pid}
    (hx : reg.Alive x) (hundo : ∀ n, call ≠ .spawnUndoState x n) :
    (reg.critical call).1.Alive x ∨
      (reg.critical call).2.pending.bind PendingCall.publishing = some x := by
  rcases ParticleRegistry.alive_or_taken call hx with
    hlive | ⟨st, reason, rest, hnext⟩ | ⟨n, hcall⟩
  · exact .inl hlive
  · exact .inr (by rw [hnext]; rfl)
  · exact absurd hcall (hundo n)

/-- A death to be published is published, or still to be published. -/
theorem publishing_critical (reg : ParticleRegistry) {call : PendingCall} {x : Pid}
    (h : call.publishing = some x) :
    (reg.critical call).2.pending.bind PendingCall.publishing = some x ∨
      call.publishes = some x := by
  cases call with
  | exitEntry | exitNames => exact .inl h
  | exitPublish => exact .inr h
  | spawnDraw | spawnEntry | spawnState | spawnBind | spawnUndoState
  | spawnUndoEntry | exitTake | exitUnhook | exitSignal => cases h

/-- A death that is due stays due until it is published, unless a spawn rolls
the particle back. -/
theorem Due.nodeStep {s t : CallsInProgress} {a : LocalAction} {x : Pid}
    (h : s.Due x)
    (hundo : ∀ id call n, a = .call (.advance id) →
      s.calls.lookup id = some call → call ≠ .spawnUndoState x n)
    (hpublish : s.publishes a ≠ some x) (hstep : s.nodeStep a = some t) :
    t.Due x := by
  obtain ⟨id, call, rfl, hcall, rfl⟩ | ⟨id, call, -, hnew, rfl⟩ | ⟨-, rfl⟩ :=
    nodeStep_cases hstep
  · have hlookup := lookup_settle s id
    have hpending : (s.reg.critical call).2.pending.bind PendingCall.publishing =
        some x →
        (s.settle id (s.reg.critical call).1 (s.reg.critical call).2).Due x := by
      intro hnext
      obtain ⟨next, hnext, hx⟩ := Option.bind_eq_some_iff.1 hnext
      exact .inr ⟨id, next, by rw [hlookup, if_pos rfl, hnext], hx⟩
    rcases h with halive | ⟨id', call', hcall', hx⟩
    · rcases due_critical_of_alive halive fun n => hundo id call n rfl hcall with
        halive | hnext
      · exact .inl (by rw [reg_settle]; exact halive)
      · exact hpending hnext
    · by_cases hid : id' = id
      · subst hid
        cases hcall.symm.trans hcall'
        rcases publishing_critical s.reg hx with hnext | hnow
        · exact hpending hnext
        · refine absurd ?_ hpublish
          rw [publishes, hcall]
          exact hnow
      · exact .inr ⟨id', call', by rw [hlookup, if_neg hid, hcall'], hx⟩
  · refine h.imp_right ?_
    rintro ⟨id', call', hcall', hx⟩
    refine ⟨id', call', ?_, hx⟩
    have hne : id' ≠ id := by
      rintro rfl
      rw [hnew] at hcall'
      cases hcall'
    exact (Table.lookup_insert_eq _ _ _ _).trans ((if_neg hne).trans hcall')
  · exact h.imp_left (s.reg.alive_onRegistry a x).2

/-- Whoever has been hosted by a spawn stays hosted. -/
theorem mem_hosted_nodeStep {s t : CallsInProgress} {a : LocalAction} {x : Pid}
    (hstep : s.nodeStep a = some t) (hx : x ∈ s.hosted) : x ∈ t.hosted := by
  obtain ⟨id, call, -, -, rfl⟩ | ⟨id, call, -, -, rfl⟩ | ⟨-, rfl⟩ :=
    nodeStep_cases hstep
  · exact mem_hosted_settle.2 (.inr hx)
  · exact hx
  · exact hx

/-- An action on another call leaves a call as it is. -/
theorem lookup_nodeStep {s t : CallsInProgress} {a : LocalAction} {id : Nat}
    (hstep : s.nodeStep a = some t) (ha : a.callId ≠ some id) :
    t.calls.lookup id = s.calls.lookup id := by
  obtain ⟨id', call, rfl, -, rfl⟩ | ⟨id', call, hbegins, -, rfl⟩ | ⟨-, rfl⟩ :=
    nodeStep_cases hstep
  · rw [lookup_settle, if_neg]
    rintro rfl
    exact ha rfl
  · refine (Table.lookup_insert_eq _ _ _ _).trans (if_neg ?_)
    rintro rfl
    refine ha ?_
    unfold LocalAction.begins at hbegins
    split at hbegins <;> cases hbegins <;> rfl
  · rfl

/-- The death of a hosted particle stays due until it is published: no spawn
rolls the particle back. -/
theorem Due.of_hosted {s t : CallsInProgress} {a : LocalAction} {x : Pid}
    (h : s.Due x) (hapart : s.SpawnsApart) (hx : x ∈ s.hosted)
    (hpublish : s.publishes a ≠ some x) (hstep : s.nodeStep a = some t) :
    t.Due x := by
  refine h.nodeStep ?_ hpublish hstep
  rintro id call n - hcall rfl
  exact hapart.fresh id _ x hcall rfl hx

end CallsInProgress

/-! ## Runs -/

namespace RootWatch

open ParticleRegistry (deathBroadcastCapacity)

/-- The root's death is the watcher's to read, as event `i`. -/
def Ahead (s : RootWatch) (root : Pid) (cursor i : Nat) : Prop :=
  ∃ d, Broadcast.AheadAt deathBroadcastCapacity s.reg.deaths cursor i d ∧
    d.pid = root

/-- What holds in a phase of the boot: the root's death is still to come, or
the watcher has it ahead. -/
def Safe (id : Nat) (s : RootWatch) : BootPhase → Prop
  | .spawning =>
    ∀ x n, s.calls.calls.lookup id = some (.spawnBind x n) → s.calls.Due x
  | .starting x | .started x => x ∈ s.calls.hosted ∧ s.calls.Due x
  | .watching x cursor =>
    x ∈ s.calls.hosted ∧ cursor ≤ s.reg.deaths.length ∧
      (s.calls.Due x ∨ ∃ i, s.Ahead x cursor i)
  | _ => True

structure WatchInv (id : Nat) (s : RootWatch) : Prop where
  apart : s.calls.SpawnsApart
  safe : s.Safe id s.phase

theorem watchInv_boot (id : Nat) (node : EndpointId) : WatchInv id (boot node) where
  apart := CallsInProgress.spawnsApart_idle node
  safe := trivial

/-- A death that is not the oldest unread one of a full channel leaves the
root's ahead. -/
theorem Ahead.publish {s : RootWatch} {calls : CallsInProgress} {id i cursor : Nat}
    {root : Pid} {d : ParticleDeath} (h : s.Ahead root cursor i)
    (hphase : s.phase = .watching root cursor) (hok : s.PublishedInSight id d.pid)
    (hdeaths : calls.reg.deaths = s.reg.deaths ++ [d]) :
    Ahead ⟨calls, s.phase⟩ root cursor i := by
  obtain ⟨e, hahead, he⟩ := h
  rw [PublishedInSight, hphase] at hok
  refine ⟨e, ?_, he⟩
  rw [show (⟨calls, s.phase⟩ : RootWatch).reg.deaths = s.reg.deaths ++ [d]
    from hdeaths]
  refine hahead.send (lt_of_le_of_ne hahead.kept fun hfull => ?_)
  have hi : s.reg.deaths.length - deathBroadcastCapacity = i :=
    Nat.sub_eq_of_eq_add hfull
  have hcursor : cursor + deathBroadcastCapacity ≤ s.reg.deaths.length := by
    rw [hfull]
    exact Nat.add_le_add_right hahead.unread _
  refine hok hcursor e ?_ he
  rw [hi, hahead.get]
  rfl

/-- The other tasks leave the root's death to the watcher: it is still to come,
or has just been published, or was ahead already. -/
theorem Safe.watching {s : RootWatch} {calls : CallsInProgress} {id : Nat}
    {a : LocalAction} {x : Pid} {cursor : Nat} (h : s.Safe id (.watching x cursor))
    (hphase : s.phase = .watching x cursor) (hapart : s.calls.SpawnsApart)
    (hpublish : ∀ pid ∈ s.calls.publishes a, s.PublishedInSight id pid)
    (hstep : s.calls.nodeStep a = some calls) :
    Safe id ⟨calls, s.phase⟩ (.watching x cursor) := by
  obtain ⟨hx, hcursor, hroot⟩ := h
  refine ⟨CallsInProgress.mem_hosted_nodeStep hstep hx, ?_⟩
  rcases CallsInProgress.deaths_nodeStep hstep with
    ⟨hnone, hdeaths⟩ | ⟨d, hsome, hdeaths⟩
  · refine ⟨hcursor.trans_eq (congrArg List.length hdeaths).symm, ?_⟩
    rcases hroot with hdue | ⟨i, d, hahead, hd⟩
    · refine .inl (hdue.of_hosted hapart hx ?_ hstep)
      rw [hnone]
      exact nofun
    · refine .inr ⟨i, d, ?_, hd⟩
      rw [reg, hdeaths]
      exact hahead
  · refine ⟨?_, ?_⟩
    · rw [reg, hdeaths, List.length_append]
      exact hcursor.trans (Nat.le_add_right _ _)
    · rcases hroot with hdue | ⟨i, hahead⟩
      · by_cases hd : d.pid = x
        · refine .inr ⟨s.reg.deaths.length, d, ?_, hd⟩
          rw [reg, hdeaths]
          exact Broadcast.aheadAt_sent (by decide) hcursor
        · refine .inl (hdue.of_hosted hapart hx ?_ hstep)
          rw [hsome]
          exact fun heq => hd (Option.some_inj.1 heq)
      · exact .inr ⟨i, hahead.publish hphase (hpublish d.pid hsome) hdeaths⟩

/-- Until the watcher has subscribed, the root's death is not published. -/
theorem not_publishes_root {s : RootWatch} {id : Nat} {a : LocalAction} {x : Pid}
    (hpublish : ∀ pid ∈ s.calls.publishes a, s.PublishedInSight id pid)
    (hx : s.root id = some x) (hphase : ∀ root cursor, s.phase ≠ .watching root cursor) :
    s.calls.publishes a ≠ some x := by
  intro hpub
  have hinsight := hpublish x hpub
  unfold PublishedInSight at hinsight
  split at hinsight
  · rename_i root cursor hwatching
    exact hphase root cursor hwatching
  · exact hinsight hx

/-- The other tasks of the node keep the invariant. -/
theorem WatchInv.other {s : RootWatch} {calls : CallsInProgress} {id : Nat}
    {a : LocalAction} (h : WatchInv id s) (ha : a.callId ≠ some id)
    (hok : DiesInSight id s (.other a)) (hstep : s.calls.nodeStep a = some calls) :
    WatchInv id ⟨calls, s.phase⟩ := by
  obtain ⟨hcounts, hpublish⟩ := hok
  refine ⟨h.apart.nodeStep hcounts hstep, ?_⟩
  have hsafe := h.safe
  cases hphase : s.phase with
  | spawning =>
    rw [hphase] at hsafe
    intro x n hbind
    rw [CallsInProgress.lookup_nodeStep hstep ha] at hbind
    refine (hsafe x n hbind).nodeStep ?_ (not_publishes_root hpublish ?_ ?_) hstep
    · -- No other spawn holds the pid.
      rintro id' call m rfl hcall rfl
      refine ha (congrArg some ?_)
      exact h.apart.distinct id' id _ _ x hcall hbind rfl rfl
    · rw [root, hphase, hbind]
      rfl
    · rw [hphase]
      exact nofun
  | starting x | started x =>
    rw [hphase] at hsafe
    refine ⟨CallsInProgress.mem_hosted_nodeStep hstep hsafe.1,
      hsafe.2.of_hosted h.apart hsafe.1 (not_publishes_root hpublish ?_ ?_) hstep⟩
    · rw [root, hphase]
    · rw [hphase]
      exact nofun
  | watching x cursor =>
    rw [hphase] at hsafe
    have hwatching := hsafe.watching hphase h.apart hpublish hstep
    rw [hphase] at hwatching
    exact hwatching
  | loading | exiting code | running | failed => trivial

/-- The spawn of the root takes its next section. -/
theorem WatchInv.spawn {s : RootWatch} {calls : CallsInProgress} {id : Nat}
    {call : PendingCall} (h : WatchInv id s) (hphase : s.phase = .spawning)
    (hcounts : s.calls.Counts (.call (.advance id)))
    (hcall : s.calls.calls.lookup id = some call)
    (hstep : s.calls.step (.advance id) = some calls) :
    WatchInv id ⟨calls, phaseAfter (s.reg.critical call).2⟩ := by
  have hstep' : s.calls.nodeStep (.call (.advance id)) = some calls := hstep
  refine ⟨h.apart.nodeStep hcounts hstep', ?_⟩
  have hsafe := h.safe
  rw [hphase] at hsafe
  have hsettle : calls = s.calls.settle id (s.reg.critical call).1
      (s.reg.critical call).2 := by
    rw [CallsInProgress.step, hcall] at hstep
    dsimp only at hstep
    split at hstep
    · cases hstep
    · exact (Option.some_inj.1 hstep).symm
  -- A particle whose state has just been inserted is alive.
  have hinserted : ∀ x name, call = .spawnState x name → calls.reg.Alive x := by
    rintro x name rfl
    rw [hsettle, CallsInProgress.reg_settle, ParticleRegistry.alive_iff]
    refine ⟨.new, ?_⟩
    rw [ParticleRegistry.state_critical]
    exact if_pos rfl
  cases hafter : (s.reg.critical call).2 with
  | next next =>
    intro x n hbind
    have hnext : (s.reg.critical call).2.pending = some (.spawnBind x n) := by
      have hlookup : calls.calls.lookup id = (s.reg.critical call).2.pending := by
        rw [hsettle, CallsInProgress.lookup_settle, if_pos rfl]
      exact hlookup.symm.trans hbind
    -- It comes to bind the name from the insertion of the state.
    cases ParticleRegistry.follows_critical hnext with
    | inserted => exact .inl (hinserted x (some n) rfl)
  | spawned result =>
    cases result with
    | error err => trivial
    | ok x =>
      have hborn : (s.reg.critical call).2.born = some x := by
        rw [hafter]
        rfl
      refine ⟨?_, ?_⟩
      · rw [hsettle]
        exact CallsInProgress.mem_hosted_settle.2 (.inl hborn)
      · cases ParticleRegistry.returns_critical hborn with
        | inserted => exact .inl (hinserted x none rfl)
        | bound hfree =>
          refine (hsafe x _ hcall).nodeStep ?_ ?_ hstep'
          · rintro id' call' m heq hcall' rfl
            cases heq
            cases hcall.symm.trans hcall'
          · rw [CallsInProgress.publishes, hcall]
            rintro ⟨⟩
  | exited => trivial

/-- The watcher reads a death that is not the root's, or is told that it lags:
the root's death is still ahead of it. -/
theorem Safe.recv {s : RootWatch} {id : Nat} {root : Pid} {cursor : Nat}
    (h : s.Safe id (.watching root cursor))
    (hother : ∀ d, (Broadcast.recv deathBroadcastCapacity s.reg.deaths
      cursor).1 = .event d → d.pid ≠ root) :
    s.Safe id (.watching root (Broadcast.recv deathBroadcastCapacity s.reg.deaths
      cursor).2) := by
  obtain ⟨hroot, hcursor, hdeath⟩ := h
  refine ⟨hroot, Broadcast.recv_le hcursor, hdeath.imp_right ?_⟩
  rintro ⟨i, d, hahead, hd⟩
  rcases hahead.recv with ⟨hread, -⟩ | ⟨-, -, hahead⟩
  · exact absurd hd (hother d (by rw [hread]))
  · exact ⟨i, d, hahead, hd⟩

theorem WatchInv.recv {s t : RootWatch} {m : Manifest}
    {code : String → ComponentCode} {id : Nat} (h : WatchInv id s)
    (hstep : step m code id s .recv = some t) : WatchInv id t := by
  rw [step] at hstep
  split at hstep
  swap
  · cases hstep
  rename_i root cursor hphase
  have hsafe := h.safe
  rw [hphase] at hsafe
  split at hstep
  · cases hstep
  · rename_i cursor' hrecv
    cases hstep
    refine ⟨h.apart, ?_⟩
    have hnext := hsafe.recv fun d hd => by
      rw [hrecv] at hd
      cases hd
    rw [hrecv] at hnext
    exact hnext
  · rename_i death cursor' hrecv
    split at hstep
    · rename_i hother
      cases hstep
      refine ⟨h.apart, ?_⟩
      have hnext := hsafe.recv fun d hd => by
        rw [hrecv] at hd
        cases hd
        exact hother
      rw [hrecv] at hnext
      exact hnext
    · cases hstep
      refine ⟨h.apart, ?_⟩
      show Safe id _ (m.type.verdict death.reason)
      unfold RestartType.verdict
      dsimp only
      split <;> trivial

/-- Every step of the boot keeps the invariant, under the condition. -/
theorem WatchInv.step {s t : RootWatch} {m : Manifest}
    {code : String → ComponentCode} {id : Nat} {a : BootAction} (h : WatchInv id s)
    (hok : DiesInSight id s a) (hstep : step m code id s a = some t) :
    WatchInv id t := by
  cases a with
  | other a =>
    rw [RootWatch.step] at hstep
    split at hstep
    · cases hstep
    · rename_i ha
      obtain ⟨calls, hcalls, rfl⟩ := Option.map_eq_some_iff.1 hstep
      exact h.other ha hok hcalls
  | begin =>
    rw [RootWatch.step] at hstep
    split at hstep
    swap
    · cases hstep
    split at hstep
    · cases hstep
      exact ⟨h.apart, trivial⟩
    · obtain ⟨calls, hcalls, rfl⟩ := Option.map_eq_some_iff.1 hstep
      have hstep' : s.calls.nodeStep (.call (.beginSpawn id m.root (some m.name))) =
          some calls := hcalls
      have hcounts : s.calls.Counts
          (.call (.beginSpawn id m.root (some m.name))) := trivial
      refine ⟨h.apart.nodeStep hcounts hstep', ?_⟩
      dsimp only
      split
      · -- The spawn has not drawn a pid yet.
        rename_i hmem
        intro x n hbind
        obtain ⟨id', call, heq, -⟩ | ⟨id', call, hbegins, -, rfl⟩ |
          ⟨-, rfl⟩ := CallsInProgress.nodeStep_cases hstep'
        · cases heq
        · cases hbegins
          rw [Table.lookup_insert_eq, if_pos rfl] at hbind
          cases hbind
        · rw [CallsInProgress.step] at hcalls
          split at hcalls
          · cases hcalls
          · rename_i hfree
            exact absurd (.inl hmem) hfree
      · trivial
  | spawn =>
    rw [RootWatch.step] at hstep
    split at hstep
    swap
    · cases hstep
    rename_i hphase
    split at hstep
    swap
    · cases hstep
    rename_i call hcall
    obtain ⟨calls, hcalls, rfl⟩ := Option.map_eq_some_iff.1 hstep
    exact h.spawn hphase hok hcall hcalls
  | start =>
    rw [RootWatch.step] at hstep
    split at hstep
    swap
    · cases hstep
    rename_i root hphase
    have hsafe := h.safe
    rw [hphase] at hsafe
    split at hstep
    · cases hstep
      exact ⟨h.apart, hsafe⟩
    · cases hstep
      exact ⟨h.apart, trivial⟩
  | subscribe =>
    rw [RootWatch.step] at hstep
    split at hstep
    swap
    · cases hstep
    rename_i root hphase
    have hsafe := h.safe
    rw [hphase] at hsafe
    cases hstep
    exact ⟨h.apart, hsafe.1, le_refl _, .inl hsafe.2⟩
  | recv => exact h.recv hstep

/-! ## The verdict -/

/-- The watcher has judged the root's death. -/
def Judged (m : Manifest) (root : Pid) (s : RootWatch) : Prop :=
  ∃ d ∈ s.reg.deaths, d.pid = root ∧ s.phase = m.type.verdict d.reason

/-- The watcher has judged the root's death, or comes to it within `n`
reads. -/
def JudgesWithin (m : Manifest) (root : Pid) (n : Nat) (s : RootWatch) : Prop :=
  (∃ cursor i, s.phase = .watching root cursor ∧ s.Ahead root cursor i ∧
    i < cursor + n) ∨ s.Judged m root

theorem Judged.step {s t : RootWatch} {m : Manifest}
    {code : String → ComponentCode} {id : Nat} {root : Pid} {a : BootAction}
    (h : s.Judged m root) (hstep : RootWatch.step m code id s a = some t) :
    t.Judged m root := by
  obtain ⟨d, hd, hroot, hphase⟩ := h
  have hfinal : s.phase = .running ∨ ∃ code, s.phase = .exiting code := by
    rw [hphase, RestartType.verdict]
    split
    · exact .inr ⟨_, rfl⟩
    · exact .inl rfl
  cases a with
  | other a =>
    rw [RootWatch.step] at hstep
    split at hstep
    · cases hstep
    · obtain ⟨calls, hcalls, rfl⟩ := Option.map_eq_some_iff.1 hstep
      refine ⟨d, ?_, hroot, hphase⟩
      rcases CallsInProgress.deaths_nodeStep hcalls with
        ⟨-, hdeaths⟩ | ⟨d', -, hdeaths⟩
      · rw [reg, hdeaths]
        exact hd
      · rw [reg, hdeaths]
        exact List.mem_append_left _ hd
  | begin | spawn | start | subscribe | recv =>
    rcases hfinal with hfinal | ⟨code, hfinal⟩ <;>
      simp [RootWatch.step, hfinal] at hstep

/-- A read takes the watcher to the root's death, or one read closer to it. -/
theorem JudgesWithin.recv {s t : RootWatch} {m : Manifest}
    {code : String → ComponentCode} {id n : Nat} {root : Pid}
    (h : s.JudgesWithin m root n)
    (hstep : RootWatch.step m code id s .recv = some t) :
    t.JudgesWithin m root (n - 1) := by
  rcases h with ⟨cursor, i, hphase, ⟨d, hahead, hd⟩, hi⟩ | hjudged
  swap
  · exact .inr (hjudged.step hstep)
  rw [RootWatch.step, hphase] at hstep
  dsimp only at hstep
  rcases hahead.recv with ⟨hread, rfl⟩ | ⟨hreads, hcloser, hahead'⟩
  · rw [hread] at hstep
    dsimp only at hstep
    rw [if_neg (not_not.2 hd)] at hstep
    cases hstep
    exact .inr ⟨d, List.mem_of_getElem? hahead.get, hd, rfl⟩
  · split at hstep
    · cases hstep
    · rename_i cursor' hrecv
      rw [hrecv] at hcloser hahead'
      cases hstep
      refine .inl ⟨cursor', i, rfl, ⟨d, hahead', hd⟩, ?_⟩
      dsimp only at hcloser
      omega
    · rename_i death cursor' hrecv
      rw [hrecv] at hcloser hahead'
      split at hstep
      · cases hstep
        refine .inl ⟨cursor', i, rfl, ⟨d, hahead', hd⟩, ?_⟩
        dsimp only at hcloser
        omega
      · rename_i hroot
        cases hstep
        have hmem : death ∈ s.reg.deaths :=
          Broadcast.mem_of_recv (by rw [hrecv])
        exact .inr ⟨death, hmem, not_not.1 hroot, rfl⟩

/-- The other steps of the boot bring the watcher no further from the root's
death. -/
theorem JudgesWithin.step {s t : RootWatch} {m : Manifest}
    {code : String → ComponentCode} {id n : Nat} {root : Pid} {a : BootAction}
    (h : s.JudgesWithin m root n) (hok : DiesInSight id s a) (ha : a ≠ .recv)
    (hstep : RootWatch.step m code id s a = some t) : t.JudgesWithin m root n := by
  rcases h with ⟨cursor, i, hphase, hahead, hi⟩ | hjudged
  swap
  · exact .inr (hjudged.step hstep)
  cases a with
  | other a =>
    rw [RootWatch.step] at hstep
    split at hstep
    · cases hstep
    obtain ⟨calls, hcalls, rfl⟩ := Option.map_eq_some_iff.1 hstep
    refine .inl ⟨cursor, i, hphase, ?_, hi⟩
    rcases CallsInProgress.deaths_nodeStep hcalls with
      ⟨-, hdeaths⟩ | ⟨d, hsome, hdeaths⟩
    · obtain ⟨d, hd, hroot⟩ := hahead
      refine ⟨d, ?_, hroot⟩
      rw [reg, hdeaths]
      exact hd
    · exact hahead.publish hphase (hok.2 d.pid hsome) hdeaths
  | recv => exact absurd rfl ha
  | begin | spawn | start | subscribe =>
    simp [RootWatch.step, hphase] at hstep

/-- The watcher can read while it has the root's death ahead. -/
theorem Ahead.reads {s : RootWatch} {root : Pid} {cursor i : Nat}
    (h : s.Ahead root cursor i) (hphase : s.phase = .watching root cursor)
    (m : Manifest) (code : String → ComponentCode) (id : Nat) :
    (step m code id s .recv).isSome := by
  obtain ⟨d, hahead, hd⟩ := h
  rw [step, hphase]
  dsimp only
  rcases hahead.recv with ⟨hread, -⟩ | ⟨hreads, -, -⟩
  · rw [hread]
    dsimp only
    rw [if_neg (not_not.2 hd)]
    rfl
  · split
    · rename_i hrecv
      exact absurd (congrArg Prod.fst hrecv) hreads
    · rfl
    · split <;> rfl

end RootWatch

/-- The watcher reads. -/
def BootAction.reads : BootAction → Bool
  | .recv => true
  | _ => false

namespace RootWatch

/-- Every schedule under the condition brings the watcher closer to the root's
death, by one for each of its reads. -/
theorem JudgesWithin.exec {m : Manifest} {code : String → ComponentCode}
    {id : Nat} {root : Pid} {as : List BootAction} :
    ∀ {s t : RootWatch} {n : Nat}, s.JudgesWithin m root n →
      exec (RootWatch.step m code id) (DiesInSight id) s as = some t →
      t.JudgesWithin m root (n - as.countP BootAction.reads) := by
  induction as with
  | nil =>
    intro s t n h hexec
    cases hexec
    exact h
  | cons a as ih =>
    intro s t n h hexec
    rw [Machine.exec] at hexec
    split at hexec
    swap
    · cases hexec
    rename_i hok
    obtain ⟨u, hu, hrest⟩ := Option.bind_eq_some_iff.1 hexec
    cases a with
    | recv =>
      have hnext := ih (h.recv hu) hrest
      rw [List.countP_cons_of_pos rfl, Nat.add_comm, Nat.sub_add_eq]
      exact hnext
    | other a =>
      rw [List.countP_cons_of_neg Bool.false_ne_true]
      exact ih (h.step hok (by rintro ⟨⟩) hu) hrest
    | begin | spawn | start | subscribe =>
      rw [List.countP_cons_of_neg (by decide)]
      exact ih (h.step hok (by rintro ⟨⟩) hu) hrest

/-- A permanent root takes the node down, with code zero for a normal exit
only. -/
theorem verdict_permanent (reason : ExitReason) :
    RestartType.permanent.verdict reason =
      .exiting (if reason = .normal then 0 else 1) := by
  unfold RestartType.verdict
  by_cases h : reason = .normal <;> simp [h, RestartType.shouldStopNode]

/-- In every run in which the root's death is published in sight of the
watcher, the watcher never waits for a death that it missed.  Once the root is
dead, whatever the other tasks do, the watcher has a death to read until it
has judged the root's, after so many reads at most as there were unread
deaths. -/
theorem root_is_never_missed (m : Manifest) (code : String → ComponentCode)
    (id : Nat) (node : EndpointId) {s : RootWatch}
    (h : Run (step m code id) (DiesInSight id) (boot node) s) :
    ¬ s.Missed ∧
      ∀ root cursor, s.phase = .watching root cursor → ¬ s.calls.Due root →
        ∀ as t, exec (step m code id) (DiesInSight id) s as = some t →
          ((∃ cursor', t.phase = .watching root cursor') ∧
              (step m code id t .recv).isSome ∧
              as.countP BootAction.reads < s.reg.deaths.length - cursor) ∨
            ∃ d ∈ t.reg.deaths, d.pid = root ∧
              t.phase = m.type.verdict d.reason ∧
              (m.type = .permanent →
                t.phase = .exiting (if d.reason = .normal then 0 else 1)) := by
  have hinv : WatchInv id s := h.invariant
    (fun hinv hok hstep => hinv.step hok hstep) (watchInv_boot id node)
  have hahead : ∀ root cursor, s.phase = .watching root cursor →
      ¬ s.calls.Due root → ∃ i, s.Ahead root cursor i := by
    intro root cursor hphase hdead
    have hsafe := hinv.safe
    rw [hphase] at hsafe
    exact hsafe.2.2.resolve_left hdead
  constructor
  · rintro ⟨root, cursor, hphase, hdead, hread⟩
    obtain ⟨i, d, hd, -⟩ := hahead root cursor hphase hdead
    exact absurd hd.cursor_lt (Nat.not_lt.2 hread)
  · intro root cursor hphase hdead as t hexec
    obtain ⟨i, hi⟩ := hahead root cursor hphase hdead
    have hlt : i < s.reg.deaths.length := by
      obtain ⟨d, hd, -⟩ := hi
      exact hd.lt_length
    have hwithin : s.JudgesWithin m root (s.reg.deaths.length - cursor) :=
      .inl ⟨cursor, i, hphase, hi, by omega⟩
    rcases hwithin.exec hexec with ⟨cursor', j, hphase', hj, hbound⟩ |
      ⟨d, hd, hroot, hverdict⟩
    · refine .inl ⟨⟨cursor', hphase'⟩, hj.reads hphase' m code id, ?_⟩
      obtain ⟨d, hd, -⟩ := hj
      have := hd.unread
      omega
    · refine .inr ⟨d, hd, hroot, hverdict, fun hpermanent => ?_⟩
      rw [hverdict, hpermanent, verdict_permanent]

/-- A component with a start function that takes no arguments. -/
def plainCode (_ : String) : ComponentCode := ⟨true, true, 0, fun _ => false⟩

def appManifest : Manifest := { name := "app", root := "root" }

/-- Load the root's component and spawn the root, in five sections. -/
def spawnRoot : List BootAction :=
  [.other (.call (.atomic (.registerComponent "root"))), .begin, .spawn, .spawn,
    .spawn, .spawn, .start]

/-- The root returns, and its exit takes its sections. -/
def rootReturns : List BootAction :=
  .other (.call (.beginExit 0 ⟨⟨1⟩, 1⟩ .normal)) ::
    List.replicate 6 (.other (.call (.advance 0)))

/-- Without calls in progress, no death of a dead particle is due. -/
theorem not_due_of_idle {s : RootWatch} {x : Pid} (hdead : ¬ s.reg.Alive x)
    (hidle : s.calls.calls.keys = []) : ¬ s.calls.Due x := by
  rintro (halive | ⟨id, call, hcall, -⟩)
  · exact hdead halive
  · exact CallsInProgress.lookup_ne_of_idle hidle id call hcall

/-- The root returns after the watcher has subscribed, and the node exits. -/
theorem root_is_never_missed_returns :
    ∃ s t, Run (step appManifest plainCode 9) (DiesInSight 9) (boot ⟨1⟩) s ∧
      ¬ s.reg.Alive ⟨⟨1⟩, 1⟩ ∧ ¬ s.Missed ∧
      exec (step appManifest plainCode 9) (DiesInSight 9) s [.recv] = some t ∧
      ∃ code, t.phase = .exiting code := by
  obtain ⟨s, h, hphase, hdead, hidle, hdeaths, hread⟩ : ∃ s,
      Run (step appManifest plainCode 9) (DiesInSight 9) (boot ⟨1⟩) s ∧
        s.phase = .watching ⟨⟨1⟩, 1⟩ 0 ∧ ¬ s.reg.Alive ⟨⟨1⟩, 1⟩ ∧
        s.calls.calls.keys = [] ∧ s.reg.deaths.length = 1 ∧
        (exec (step appManifest plainCode 9) (DiesInSight 9) s [.recv]).isSome :=
    exec_run_of_any (α := BootAction)
      (spawnRoot ++ [.subscribe] ++ rootReturns) (by decide +kernel)
  obtain ⟨t, ht⟩ := Option.isSome_iff_exists.1 hread
  obtain ⟨hmissed, hjudges⟩ := root_is_never_missed appManifest plainCode 9 ⟨1⟩ h
  refine ⟨s, t, h, hdead, hmissed, ht, ?_⟩
  rcases hjudges _ 0 hphase (not_due_of_idle hdead hidle) _ t ht with
    ⟨-, -, hreads⟩ | ⟨d, -, -, -, hexits⟩
  · rw [hdeaths] at hreads
    exact absurd hreads (by decide)
  · exact ⟨_, hexits rfl⟩

/-- The root returns before the watcher has subscribed.  Nothing is left on
the node, and the watcher waits. -/
theorem root_dies_unwatched :
    ∃ s, Run (step appManifest plainCode 9) anyStep (boot ⟨1⟩) s ∧ s.Missed ∧
      s.calls.calls.keys = [] ∧ s.reg.particleStates.keys = [] ∧
      step appManifest plainCode 9 s .recv = none := by
  obtain ⟨s, h, hphase, hdead, hidle, hdeaths, hnobody, hwaits⟩ : ∃ s,
      Run (step appManifest plainCode 9) anyStep (boot ⟨1⟩) s ∧
        s.phase = .watching ⟨⟨1⟩, 1⟩ 1 ∧ ¬ s.reg.Alive ⟨⟨1⟩, 1⟩ ∧
        s.calls.calls.keys = [] ∧ s.reg.deaths.length ≤ 1 ∧
        s.reg.particleStates.keys = [] ∧
        (step appManifest plainCode 9 s .recv).isNone = true :=
    exec_run_of_any (α := BootAction)
      (spawnRoot ++ rootReturns ++ [.subscribe]) (by decide +kernel)
  exact ⟨s, h, ⟨_, 1, hphase, not_due_of_idle hdead hidle, hdeaths⟩, hidle,
    hnobody, Option.isNone_iff_eq_none.1 hwaits⟩

end RootWatch

end Plasmoid
