import Plasmoid.Lib.Machine
import Plasmoid.Operations

/-!
# Registry calls, one critical section at a time

`spawn` and `exit_particle` take the locks of the registry one after the
other, so other calls run between their critical sections.  A `PendingCall`
is a call in progress, at the section it takes next.  `critical` is that
section, and `CallsInProgress` runs any number of calls side by side.

Left alone, the sections of a call compute `spawn` and `exitParticle`
(`spawn_alone` and `exit_alone`), so both levels describe one program.
-/

namespace Plasmoid

open Machine

/-- A call in progress, at the critical section that it takes next. -/
inductive PendingCall where
  /-- The name was free: look the component up and draw a pid. -/
  | spawnDraw (component : String) (name : Option String)
  | spawnEntry (pid : Pid) (component : String) (name : Option String)
  | spawnState (pid : Pid) (name : Option String)
  /-- Check the name again, and bind it. -/
  | spawnBind (pid : Pid) (name : String)
  /-- The name was taken: roll the state back, then the entry.  The name
  table stays locked meanwhile. -/
  | spawnUndoState (pid : Pid) (name : String)
  | spawnUndoEntry (pid : Pid) (name : String)
  /-- Exit `pid`, and afterwards the peers in `rest`. -/
  | exitTake (pid : Pid) (reason : ExitReason) (rest : List Pid)
  | exitEntry (pid : Pid) (st : ParticleState) (reason : ExitReason)
      (rest : List Pid)
  | exitNames (pid : Pid) (st : ParticleState) (reason : ExitReason)
      (rest : List Pid)
  | exitPublish (pid : Pid) (st : ParticleState) (name : Option String)
      (reason : ExitReason) (rest : List Pid)
  | exitUnhook (pid : Pid) (st : ParticleState) (reason : ExitReason)
      (rest : List Pid)
  /-- Deliver the signals, one mailbox at a time. -/
  | exitSignal (reason : ExitReason) (sends : List (Pid × SystemMessage))
      (rest : List Pid)

/-- How a call goes on after a critical section. -/
inductive Progress where
  | next (call : PendingCall)
  | spawned (result : Except String Pid)
  | exited

namespace PendingCall

/-- The call holds the lock of the name table between two sections. -/
def holdsNames : PendingCall → Bool
  | .spawnUndoState .. | .spawnUndoEntry .. => true
  | _ => false

/-- The next section of the call takes the lock of the name table. -/
def takesNames : PendingCall → Bool
  | .spawnBind .. | .exitNames .. => true
  | _ => false

/-- The pid that a spawn in progress has drawn. -/
def spawning : PendingCall → Option Pid
  | .spawnEntry pid .. | .spawnState pid .. | .spawnBind pid ..
  | .spawnUndoState pid .. | .spawnUndoEntry pid .. => some pid
  | _ => none

/-- The particle that has been removed and whose names are still to go. -/
def unnaming : PendingCall → Option Pid
  | .exitEntry pid .. | .exitNames pid .. => some pid
  | _ => none

end PendingCall

namespace Progress

/-- The call, if it is still in progress. -/
def pending : Progress → Option PendingCall
  | .next call => some call
  | _ => none

/-- The particle that a spawn has returned. -/
def born : Progress → Option Pid
  | .spawned (.ok pid) => some pid
  | _ => none

end Progress

namespace ParticleRegistry

/-- Go on to the next peer that the cascade kills. -/
def exitRest (reason : ExitReason) : List Pid → Progress
  | [] => .exited
  | pid :: rest => .next (.exitTake pid reason rest)

/-- The signals that `exit_particle` sends once the lock is released. -/
def signalsToSend (pid : Pid) (reason : ExitReason) (w : ExitWork) :
    List (Pid × SystemMessage) :=
  (w.exitDeliveries.map fun x => (x, .exit pid reason)) ++
    w.downDeliveries.map fun d => (d.1, .down pid d.2 reason)

/-- One critical section of a call. -/
def critical (reg : ParticleRegistry) :
    PendingCall → ParticleRegistry × Progress
  | .spawnDraw component name =>
    if component ∈ reg.components then
      (reg.drawPid.2, .next (.spawnEntry reg.drawPid.1 component name))
    else (reg, .spawned (.error s!"component '{component}' not registered"))
  | .spawnEntry pid component name =>
    (reg.insertEntry ⟨pid, component, name⟩, .next (.spawnState pid name))
  | .spawnState pid name =>
    (reg.insertState pid,
      match name with
      | none => .spawned (.ok pid)
      | some n => .next (.spawnBind pid n))
  | .spawnBind pid n =>
    if n ∈ reg.names then (reg, .next (.spawnUndoState pid n))
    else (reg.bindName n pid, .spawned (.ok pid))
  | .spawnUndoState pid n => (reg.removeState pid, .next (.spawnUndoEntry pid n))
  | .spawnUndoEntry pid n =>
    (reg.removeEntry pid,
      .spawned (.error s!"name '{n}' is already registered"))
  | .exitTake pid reason rest =>
    match reg.state pid with
    | none => (reg, exitRest reason rest)
    | some st => (reg.removeState pid, .next (.exitEntry pid st reason rest))
  | .exitEntry pid st reason rest =>
    (reg.removeEntry pid, .next (.exitNames pid st reason rest))
  | .exitNames pid st reason rest =>
    (reg.dropNames pid,
      .next (.exitPublish pid st (reg.namesHeld pid).head? reason rest))
  | .exitPublish pid st name reason rest =>
    (reg.publishDeath (deathOf reg.me pid st name reason),
      .next (.exitUnhook pid st reason rest))
  | .exitUnhook pid st reason rest =>
    let w := unhook reg.particleStates pid st reason
    ({ reg with particleStates := w.states },
      .next (.exitSignal reason (signalsToSend pid reason w)
        (w.cascadeKills ++ rest)))
  | .exitSignal reason [] rest => (reg, exitRest reason rest)
  | .exitSignal reason ((x, msg) :: sends) rest =>
    (reg.sendSystem x msg, .next (.exitSignal reason sends rest))

/-- The first check of `spawn`, under the read lock of the name table. -/
def nameTaken (reg : ParticleRegistry) (name : Option String) : Bool :=
  name.any fun n => n ∈ reg.names

end ParticleRegistry

/-! ## One call alone -/

/-- A single call, taking section after section. -/
def soloStep (s : ParticleRegistry × Progress) (_ : Unit) :
    Option (ParticleRegistry × Progress) :=
  match s.2 with
  | .next call => some (s.1.critical call)
  | _ => none

abbrev Solo := Run soloStep anyStep

private theorem solo_single {reg reg' : ParticleRegistry} {call : PendingCall}
    {p : Progress} (h : reg.critical call = (reg', p)) :
    Solo (reg, .next call) (reg', p) :=
  Run.single (a := ()) trivial (congrArg some h)

namespace ParticleRegistry

/-- Left alone, the sections of a spawn compute `spawn`. -/
theorem spawn_alone (reg : ParticleRegistry) (component : String)
    (name : Option String) (h : reg.nameTaken name = false) :
    Solo (reg, .next (.spawnDraw component name))
      ((reg.spawn component name).1,
        .spawned (reg.spawn component name).2) := by
  have hfree : ∀ n, name = some n → n ∉ reg.names := by
    rintro n rfl
    simpa [nameTaken] using h
  have hrefused : reg.spawnRefused component name =
      if component ∈ reg.components then none
      else some s!"component '{component}' not registered" := by
    cases name with
    | none => rfl
    | some n => exact if_neg (hfree n rfl)
  by_cases hc : component ∈ reg.components
  · rw [if_pos hc] at hrefused
    have hdraw : Solo (reg, .next (.spawnDraw component name)) _ :=
      solo_single (if_pos hc)
    refine hdraw.trans ((solo_single rfl).trans ?_)
    cases name with
    | none =>
      rw [spawn, hrefused]
      exact solo_single rfl
    | some n =>
      have hspawn : reg.spawn component (some n) =
          (((reg.drawPid.2.insertEntry ⟨reg.pidGen.peek, component, some n⟩
            ).insertState reg.pidGen.peek).bindName n reg.pidGen.peek,
            .ok reg.pidGen.peek) := by
        rw [spawn, hrefused]
        exact if_neg (hfree n rfl)
      rw [hspawn]
      exact (solo_single rfl).trans (solo_single (if_neg (hfree n rfl)))
  · rw [if_neg hc] at hrefused
    rw [spawn, hrefused]
    exact solo_single (if_neg hc)

theorem deliverSignals_eq (reg : ParticleRegistry) (pid : Pid)
    (reason : ExitReason) (w : ExitWork) :
    reg.deliverSignals pid reason w = (signalsToSend pid reason w).foldl
      (fun reg d => reg.sendSystem d.1 d.2) reg := by
  rw [deliverSignals, signalsToSend, List.foldl_append, List.foldl_map,
    List.foldl_map]

private theorem solo_signals (reason : ExitReason) (rest : List Pid) :
    ∀ (sends : List (Pid × SystemMessage)) (reg : ParticleRegistry),
      Solo (reg, .next (.exitSignal reason sends rest))
        (sends.foldl (fun reg d => reg.sendSystem d.1 d.2) reg,
          exitRest reason rest) := by
  intro sends
  induction sends with
  | nil =>
    intro reg
    exact solo_single rfl
  | cons d sends ih =>
    intro reg
    exact (solo_single rfl).trans (ih (reg.sendSystem d.1 d.2))

/-- The sections that exit one particle compute `exitOne`. -/
private theorem solo_exitOne {reg reg' : ParticleRegistry} {pid : Pid}
    {reason : ExitReason} {kills : List Pid} (rest : List Pid)
    (h : reg.exitOne pid reason = some (reg', kills)) :
    Solo (reg, .next (.exitTake pid reason rest))
      (reg', exitRest reason (kills ++ rest)) := by
  rw [exitOne] at h
  split at h
  · cases h
  · rename_i st hst
    cases h
    have htake : Solo (reg, .next (.exitTake pid reason rest))
        (reg.removeState pid, .next (.exitEntry pid st reason rest)) := by
      refine solo_single ?_
      rw [critical, hst]
    have hbury : Solo
        (reg.removeState pid, .next (.exitEntry pid st reason rest))
        (reg.bury pid st reason, .next (.exitUnhook pid st reason rest)) :=
      (solo_single rfl).trans ((solo_single rfl).trans (solo_single rfl))
    rw [settlePeers, deliverSignals_eq]
    exact htake.trans (hbury.trans
      ((solo_single rfl).trans (solo_signals reason _ _ _)))

private theorem solo_exitFuel (reason : ExitReason) :
    ∀ (fuel : Nat) (reg reg' : ParticleRegistry) (pid : Pid) (rest : List Pid),
      exitFuel fuel reg pid reason = some reg' →
      Solo (reg, .next (.exitTake pid reason rest))
        (reg', exitRest reason rest) := by
  intro fuel
  induction fuel with
  | zero =>
    intro reg reg' pid rest h
    cases h
  | succ fuel ih =>
    intro reg reg' pid rest h
    rw [exitFuel] at h
    split at h
    · rename_i hone
      cases h
      refine solo_single ?_
      rw [critical, exitOne_eq_none.1 hone]
    · rename_i reg₁ kills hone
      refine (solo_exitOne rest hone).trans ?_
      -- The peers of the cascade, one after the other.
      clear hone
      induction kills generalizing reg₁ with
      | nil =>
        cases h
        exact .refl
      | cons k kills ihkills =>
        rw [List.foldlM_cons] at h
        obtain ⟨reg₂, hk, hrest⟩ := Option.bind_eq_some_iff.1 h
        exact (ih reg₁ reg₂ k (kills ++ rest) hk).trans (ihkills reg₂ hrest)

/-- Left alone, the sections of an exit compute `exitParticle`. -/
theorem exit_alone (reg : ParticleRegistry) (pid : Pid) (reason : ExitReason) :
    Solo (reg, .next (.exitTake pid reason []))
      (reg.exitParticle pid reason, .exited) :=
  solo_exitFuel reason _ reg _ pid []
    (exitFuel_eq_exitParticle reg pid reason (Nat.lt_succ_self _))

end ParticleRegistry

/-! ## Many calls at once -/

/-- A registry with calls in progress.  `hosted` holds the particles whose
spawn has returned: their guest code runs, and it goes on running after the
particle was killed. -/
structure CallsInProgress where
  reg : ParticleRegistry
  calls : Table Nat PendingCall
  hosted : KeySet Pid

inductive CallAction where
  | beginSpawn (id : Nat) (component : String) (name : Option String)
  | beginExit (id : Nat) (pid : Pid) (reason : ExitReason)
  /-- The call takes its next critical section. -/
  | advance (id : Nat)
  /-- A guest claims a name for itself. -/
  | register (pid : Pid) (name : String)
  | unregister (pid : Pid) (name : String)
  | atomic (op : SectionOp)

namespace CallsInProgress

/-- A fresh registry with no calls. -/
def idle (reg : ParticleRegistry) : CallsInProgress := ⟨reg, ∅, ∅⟩

/-- Nobody holds the lock of the name table. -/
def namesFree (s : CallsInProgress) : Bool :=
  s.calls.entries.all fun e => !e.2.holdsNames

/-- Put a call where its section left it. -/
def settle (s : CallsInProgress) (id : Nat) (reg : ParticleRegistry) :
    Progress → CallsInProgress
  | .next call => { s with reg, calls := s.calls.insert id call }
  | .spawned (.ok pid) =>
    { reg, calls := s.calls.erase id, hosted := s.hosted.insert pid }
  | .spawned (.error _) | .exited =>
    { s with reg, calls := s.calls.erase id }

def step (s : CallsInProgress) : CallAction → Option CallsInProgress
  | .beginSpawn id component name =>
    if id ∈ s.calls ∨ (name.isSome ∧ ¬ s.namesFree) then none
    else if s.reg.nameTaken name then some s
    else some { s with calls := s.calls.insert id (.spawnDraw component name) }
  | .beginExit id pid reason =>
    if id ∈ s.calls then none
    else some { s with calls := s.calls.insert id (.exitTake pid reason []) }
  | .advance id =>
    match s.calls.lookup id with
    | none => none
    | some call =>
      if call.takesNames ∧ ¬ s.namesFree then none
      else some (s.settle id (s.reg.critical call).1 (s.reg.critical call).2)
  | .register pid name =>
    if pid ∈ s.hosted ∧ s.namesFree then
      some { s with reg := (s.reg.registerName pid name).1 }
    else none
  | .unregister pid name =>
    if pid ∈ s.hosted ∧ s.namesFree then
      some { s with reg := (s.reg.unregisterName pid name).1 }
    else none
  | .atomic op => some { s with reg := s.reg.performSection op }

theorem lookup_settle (s : CallsInProgress) (id id' : Nat)
    (reg : ParticleRegistry) (p : Progress) :
    (s.settle id reg p).calls.lookup id' =
      if id' = id then p.pending else s.calls.lookup id' := by
  unfold settle
  split
  · exact Table.lookup_insert_eq _ _ _ _
  · exact Table.lookup_erase_eq _ _ _
  · exact Table.lookup_erase_eq _ _ _
  · exact Table.lookup_erase_eq _ _ _

theorem mem_hosted_settle {s : CallsInProgress} {id : Nat}
    {reg : ParticleRegistry} {p : Progress} {q : Pid} :
    q ∈ (s.settle id reg p).hosted ↔ p.born = some q ∨ q ∈ s.hosted := by
  unfold settle
  split
  · simp [Progress.born]
  · rename_i pid
    rw [KeySet.mem_insert]
    simp [Progress.born, eq_comm]
  · simp [Progress.born]
  · simp [Progress.born]

@[simp] theorem reg_settle (s : CallsInProgress) (id : Nat)
    (reg : ParticleRegistry) (p : Progress) :
    (s.settle id reg p).reg = reg := by
  unfold settle
  split <;> rfl

end CallsInProgress

end Plasmoid
