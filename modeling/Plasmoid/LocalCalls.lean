import Plasmoid.Sections
import Plasmoid.Evolution
import Plasmoid.HostCalls

/-!
# The calls of the particles of one node

`LocalAction` is what the particles of one node do on its registry: the calls
of `CallsInProgress`, and the ones that withdraw a link or a monitor or make a
monitor.  Each of these is one critical section.  `nodeStep` performs them
all, and `localStep` the ones that concern no other node.

Between two sections a spawn holds a pid whose state is not yet in the table,
and an exit one whose state is no longer there.  `TransitInv` says that such a
pid is not alive and that no other call holds it.
-/

namespace Plasmoid

open Machine

/-- The action concerns no other node. -/
def CallAction.isLocal : CallAction → Bool
  | .atomic op => (RegistryOp.atomic op).isLocal
  | _ => true

/-- The call that an action of the registry begins or takes further. -/
def CallAction.callId : CallAction → Option Nat
  | .beginSpawn id _ _ | .beginExit id _ _ | .advance id => some id
  | _ => none

inductive LocalAction where
  | call (a : CallAction)
  | unlink (a b : Pid)
  | monitorWithRef (watcher target : Pid) (refId : UInt64)
  | demonitor (watcher : Pid) (refId : UInt64)

/-- The action concerns no other node. -/
def LocalAction.isLocal : LocalAction → Bool
  | .call a => a.isLocal
  | _ => true

/-- The call that the action begins or takes further. -/
def LocalAction.callId : LocalAction → Option Nat
  | .call a => a.callId
  | _ => none

namespace CallsInProgress

/-- Everything that the tasks of a node do on its registry. -/
def nodeStep (s : CallsInProgress) : LocalAction → Option CallsInProgress
  | .call a => s.step a
  | .unlink a b => some { s with reg := s.reg.unlink a b }
  | .monitorWithRef watcher target refId =>
    some { s with reg := s.reg.monitorWithRef watcher target refId }
  | .demonitor watcher refId =>
    some { s with reg := s.reg.demonitor watcher refId }

/-- The part of it that concerns no other node. -/
def localStep (s : CallsInProgress) : LocalAction → Option CallsInProgress
  | .call a => if a.isLocal then s.step a else none
  | .unlink a b => some { s with reg := s.reg.unlink a b }
  | .monitorWithRef watcher target refId =>
    some { s with reg := s.reg.monitorWithRef watcher target refId }
  | .demonitor watcher refId =>
    some { s with reg := s.reg.demonitor watcher refId }

/-- A pid is not drawn from a counter that wraps around. -/
def Counts (s : CallsInProgress) : LocalAction → Prop
  | .call (.advance id) => ∀ call ∈ s.calls.lookup id, call.draws = true →
    s.reg.pidGen.nextSeq.toNat + 1 < 2 ^ 64
  | _ => True

instance (s : CallsInProgress) : DecidablePred s.Counts := fun a => by
  unfold Counts
  split <;> infer_instance

end CallsInProgress

/-! ## Pids in transit -/

namespace PendingCall

/-- The pid whose state the call has yet to insert or has already removed. -/
def inTransit : PendingCall → Option Pid
  | .spawnEntry pid .. | .spawnState pid .. | .exitEntry pid ..
  | .exitNames pid .. | .exitPublish pid .. | .exitUnhook pid .. => some pid
  | _ => none

/-- The particle that an exit has removed and not yet unhooked, with its
state. -/
def unhooking : PendingCall → Option (Pid × ParticleState)
  | .exitEntry pid st .. | .exitNames pid st .. | .exitPublish pid st ..
  | .exitUnhook pid st .. => some (pid, st)
  | _ => none

theorem inTransit_of_unhooking {call : PendingCall} {b : Pid} {st : ParticleState}
    (h : call.unhooking = some (b, st)) : call.inTransit = some b := by
  cases call <;> simp_all [unhooking, inTransit]

end PendingCall

namespace CallsInProgress

/-- A pid in transit is not alive, and only one call holds it.  No pid in use
is still to be drawn. -/
structure TransitInv (s : CallsInProgress) : Prop where
  dead : ∀ id call p, s.calls.lookup id = some call →
    call.inTransit = some p → ¬ s.reg.Alive p
  single : ∀ id id' call call' p, s.calls.lookup id = some call →
    s.calls.lookup id' = some call' → call.inTransit = some p →
    call'.inTransit = some p → id = id'
  counted : ∀ p, (s.reg.Alive p ∨ ∃ id call, s.calls.lookup id = some call ∧
    call.inTransit = some p) → p.seq.toNat < s.reg.pidGen.nextSeq.toNat

theorem transitInv_idle (node : EndpointId) : TransitInv (idle (.new node)) := by
  have hnone : ∀ id, (idle (.new node)).calls.lookup id = none :=
    fun id => AList.lookup_empty id
  refine ⟨?_, ?_, ?_⟩
  · intro id call p h
    rw [hnone id] at h
    cases h
  · intro id id' call call' p h
    rw [hnone id] at h
    cases h
  · rintro p (h | ⟨id, call, h, -⟩)
    · cases h
    · rw [hnone id] at h
      cases h

/-- A step that brings nobody to life and no pid into transit. -/
theorem TransitInv.of_quiet {s t : CallsInProgress} (h : TransitInv s)
    (halive : ∀ p, t.reg.Alive p → s.reg.Alive p)
    (hgen : t.reg.pidGen = s.reg.pidGen)
    (hcalls : ∀ id call p, t.calls.lookup id = some call →
      call.inTransit = some p → s.calls.lookup id = some call) : TransitInv t where
  dead id call p hcall hp hlive :=
    h.dead id call p (hcalls id call p hcall hp) hp (halive p hlive)
  single id id' call call' p hcall hcall' hp hp' :=
    h.single id id' call call' p (hcalls id call p hcall hp)
      (hcalls id' call' p hcall' hp') hp hp'
  counted p hp := by
    rw [hgen]
    refine h.counted p (hp.imp (halive p) ?_)
    rintro ⟨id, call, hcall, hp⟩
    exact ⟨id, call, hcalls id call p hcall hp, hp⟩

/-- The pid that a call has in transit after a section: it was in transit, or
it was alive and was taken, or it is the next pid and was drawn. -/
theorem transit_critical {reg : ParticleRegistry} {call : PendingCall} {q : Pid}
    (h : (reg.critical call).2.pending.bind PendingCall.inTransit = some q) :
    (call.inTransit = some q ∧ ∀ name, call ≠ .spawnState q name) ∨
      (reg.Alive q ∧ ¬ (reg.critical call).1.Alive q) ∨
      q = reg.pidGen.peek ∧ call.draws = true ∧
        (reg.critical call).1.pidGen = reg.pidGen.next.2 := by
  obtain ⟨next, hnext, hq⟩ := Option.bind_eq_some_iff.1 h
  cases ParticleRegistry.follows_critical hnext with
  | drawn hloaded =>
    cases hq
    refine .inr (.inr ⟨rfl, rfl, ?_⟩)
    rw [ParticleRegistry.critical, if_pos hloaded]
    rfl
  | taken hst =>
    cases hq
    refine .inr (.inl ⟨ParticleRegistry.alive_iff.2 ⟨_, hst⟩, ?_⟩)
    rw [ParticleRegistry.not_alive_iff, ParticleRegistry.state_critical]
    exact if_pos rfl
  | entered | removed | unnamed | published =>
    refine .inl ⟨hq, fun name hcall => ?_⟩
    cases hcall
  | inserted | refused | undone | skipped | unhooked | signalled | cascaded =>
    cases hq

/-- The next section of a call keeps the invariant. -/
theorem TransitInv.settle {s : CallsInProgress} (h : TransitInv s) {id : Nat}
    {call : PendingCall} (hcall : s.calls.lookup id = some call)
    (hcount : call.draws = true →
      s.reg.pidGen.nextSeq.toNat + 1 < 2 ^ 64) :
    TransitInv (s.settle id (s.reg.critical call).1 (s.reg.critical call).2) := by
  have hgrows : ∀ {m : Nat}, m < s.reg.pidGen.nextSeq.toNat →
      m < (s.reg.critical call).1.pidGen.nextSeq.toNat :=
    ParticleRegistry.lt_nextSeq_critical hcount
  -- Nobody else holds the pid that this call has in transit afterwards.
  have hother : ∀ id' call' q, id' ≠ id → s.calls.lookup id' = some call' →
      call'.inTransit = some q →
      (s.reg.critical call).2.pending.bind PendingCall.inTransit ≠ some q := by
    intro id' call' q hne h' hq hnew
    rcases transit_critical hnew with ⟨hold, -⟩ | ⟨halive, -⟩ | ⟨hpeek, -, -⟩
    · exact hne (h.single id' id call' call q h' hcall hq hold)
    · exact h.dead id' call' q h' hq halive
    · have := h.counted q (.inr ⟨id', call', h', hq⟩)
      rw [hpeek] at this
      exact Nat.lt_irrefl _ this
  refine ⟨?_, ?_, ?_⟩
  · intro id' call' q h' hq hlive
    rw [reg_settle] at hlive
    rcases holds_settle h' hq with ⟨-, hnew⟩ | ⟨hne, h'⟩
    · rcases transit_critical hnew with ⟨hold, hnot⟩ | ⟨-, hdead⟩ | ⟨hpeek, hdraw, -⟩
      · rcases alive_critical hlive with halive | ⟨name, hinsert⟩
        · exact h.dead id call q hcall hold halive
        · exact hnot name hinsert
      · exact hdead hlive
      · rcases alive_critical hlive with halive | ⟨name, hinsert⟩
        · have := h.counted q (.inl halive)
          rw [hpeek] at this
          exact Nat.lt_irrefl _ this
        · rw [hinsert] at hdraw
          cases hdraw
    · rcases alive_critical hlive with halive | ⟨name, hinsert⟩
      · exact h.dead id' call' q h' hq halive
      · refine hne (h.single id' id call' call q h' hcall hq ?_)
        rw [hinsert]
        rfl
  · exact apart_settle h.single hother
  · intro q hq
    rw [reg_settle] at hq ⊢
    have hknown : (s.reg.Alive q ∨ ∃ id call, s.calls.lookup id = some call ∧
        call.inTransit = some q) →
        q.seq.toNat < (s.reg.critical call).1.pidGen.nextSeq.toNat :=
      fun hq => hgrows (h.counted q hq)
    rcases hq with hlive | ⟨id', call', h', hq⟩
    · rcases alive_critical hlive with halive | ⟨name, hinsert⟩
      · exact hknown (.inl halive)
      · refine hknown (.inr ⟨id, call, hcall, ?_⟩)
        rw [hinsert]
        rfl
    · rcases holds_settle h' hq with ⟨-, hnew⟩ | ⟨-, h'⟩
      · rcases transit_critical hnew with ⟨hold, -⟩ | ⟨halive, -⟩ | ⟨hpeek, hdraw, hgen⟩
        · exact hknown (.inr ⟨id, call, hcall, hold⟩)
        · exact hknown (.inl halive)
        · rw [hpeek, hgen]
          exact PidGenerator.peek_lt_next (hcount hdraw)
      · exact hknown (.inr ⟨id', call', h', hq⟩)

/-! ## Steps -/

end CallsInProgress

/-- The call that an action begins. -/
def LocalAction.begins : LocalAction → Option (Nat × PendingCall)
  | .call (.beginSpawn id component name) => some (id, .spawnDraw component name)
  | .call (.beginExit id pid reason) => some (id, .exitTake pid reason [])
  | _ => none

theorem LocalAction.inTransit_of_begins {a : LocalAction} {id : Nat}
    {call : PendingCall} (h : a.begins = some (id, call)) :
    call.inTransit = none := by
  unfold begins at h
  split at h <;> cases h <;> rfl

theorem LocalAction.spawning_of_begins {a : LocalAction} {id : Nat}
    {call : PendingCall} (h : a.begins = some (id, call)) :
    call.spawning = none := by
  unfold begins at h
  split at h <;> cases h <;> rfl

/-- The action takes place at once, or not at all. -/
def LocalAction.isSingle : LocalAction → Bool
  | .call (.advance _) | .call (.beginExit ..) => false
  | _ => true

/-- What an action other than those of the calls does to the registry. -/
def LocalAction.onRegistry (reg : ParticleRegistry) :
    LocalAction → ParticleRegistry
  | .call (.register pid name) => (reg.registerName pid name).1
  | .call (.unregister pid name) => (reg.unregisterName pid name).1
  | .call (.atomic op) => reg.performSection op
  | .call _ => reg
  | .unlink a b => reg.unlink a b
  | .monitorWithRef watcher target refId =>
    reg.monitorWithRef watcher target refId
  | .demonitor watcher refId => reg.demonitor watcher refId

namespace CallsInProgress

/-- A call takes its next section, or a call begins, or there is one action on
the registry. -/
theorem nodeStep_cases {s t : CallsInProgress} {a : LocalAction}
    (h : s.nodeStep a = some t) :
    (∃ id call, a = .call (.advance id) ∧ s.calls.lookup id = some call ∧
      t = s.settle id (s.reg.critical call).1 (s.reg.critical call).2) ∨
    (∃ id call, a.begins = some (id, call) ∧ s.calls.lookup id = none ∧
      t = { s with calls := s.calls.insert id call }) ∨
    a.isSingle = true ∧ t = { s with reg := a.onRegistry s.reg } := by
  cases a with
  | unlink a b => exact .inr (.inr ⟨rfl, (Option.some_inj.1 h).symm⟩)
  | monitorWithRef watcher target refId =>
    exact .inr (.inr ⟨rfl, (Option.some_inj.1 h).symm⟩)
  | demonitor watcher refId =>
    exact .inr (.inr ⟨rfl, (Option.some_inj.1 h).symm⟩)
  | call a =>
    rw [nodeStep] at h
    cases a with
    | beginSpawn id component name =>
      rw [step] at h
      split at h
      · cases h
      · rename_i hfree
        split at h
        · exact .inr (.inr ⟨rfl, (Option.some_inj.1 h).symm⟩)
        · have hnew : s.calls.lookup id = none :=
            AList.lookup_eq_none.2 fun hid => hfree (.inl hid)
          exact .inr (.inl ⟨id, .spawnDraw component name, rfl, hnew,
            (Option.some_inj.1 h).symm⟩)
    | beginExit id pid reason =>
      rw [step] at h
      split at h
      · cases h
      · rename_i hfree
        exact .inr (.inl ⟨id, .exitTake pid reason [], rfl,
          AList.lookup_eq_none.2 hfree, (Option.some_inj.1 h).symm⟩)
    | advance id =>
      rw [step] at h
      split at h
      · cases h
      · rename_i call hcall
        split at h
        · cases h
        · exact .inl ⟨id, call, rfl, hcall, (Option.some_inj.1 h).symm⟩
    | register pid name =>
      rw [step] at h
      split at h
      · exact .inr (.inr ⟨rfl, (Option.some_inj.1 h).symm⟩)
      · cases h
    | unregister pid name =>
      rw [step] at h
      split at h
      · exact .inr (.inr ⟨rfl, (Option.some_inj.1 h).symm⟩)
      · cases h
    | atomic op => exact .inr (.inr ⟨rfl, (Option.some_inj.1 h).symm⟩)

theorem nodeStep_of_localStep {s t : CallsInProgress} {a : LocalAction}
    (h : s.localStep a = some t) : a.isLocal = true ∧ s.nodeStep a = some t := by
  cases a with
  | unlink | monitorWithRef | demonitor => exact ⟨rfl, h⟩
  | call a =>
    rw [localStep] at h
    split at h
    · exact ⟨‹_›, h⟩
    · cases h

theorem localStep_cases {s t : CallsInProgress} {a : LocalAction}
    (h : s.localStep a = some t) :
    (∃ id call, a = .call (.advance id) ∧ s.calls.lookup id = some call ∧
      t = s.settle id (s.reg.critical call).1 (s.reg.critical call).2) ∨
    (∃ id call, a.begins = some (id, call) ∧ s.calls.lookup id = none ∧
      t = { s with calls := s.calls.insert id call }) ∨
    a.isSingle = true ∧ a.isLocal = true ∧
      t = { s with reg := a.onRegistry s.reg } := by
  obtain ⟨hlocal, hstep⟩ := nodeStep_of_localStep h
  obtain hadvance | hbegin | ⟨hsingle, ht⟩ := nodeStep_cases hstep
  · exact .inl hadvance
  · exact .inr (.inl hbegin)
  · exact .inr (.inr ⟨hsingle, hlocal, ht⟩)

end CallsInProgress

namespace ParticleRegistry

theorem state_registerName (reg : ParticleRegistry) (pid : Pid) (name : String)
    (x : Pid) : (reg.registerName pid name).1.state x = reg.state x := by
  unfold registerName
  split <;> rfl

theorem state_unregisterName (reg : ParticleRegistry) (pid : Pid) (name : String)
    (x : Pid) : (reg.unregisterName pid name).1.state x = reg.state x := by
  unfold unregisterName
  split
  · split <;> rfl
  · rfl

theorem sameLife_unlink (reg : ParticleRegistry) (a b : Pid) :
    SameLife reg (reg.unlink a b) :=
  ⟨rfl, rfl, fun _ => alive_modifyState.trans alive_modifyState⟩

theorem sameLife_monitorWithRef (reg : ParticleRegistry) (watcher target : Pid)
    (refId : UInt64) : SameLife reg (reg.monitorWithRef watcher target refId) :=
  ⟨rfl, rfl, fun _ => alive_modifyState.trans alive_modifyState⟩

theorem sameLife_demonitor (reg : ParticleRegistry) (watcher : Pid)
    (refId : UInt64) : SameLife reg (reg.demonitor watcher refId) := by
  unfold demonitor
  dsimp only
  split
  · exact sameLife_modifyState reg watcher _
  · exact ⟨rfl, rfl, fun _ => alive_modifyState.trans alive_modifyState⟩

/-- One action on the registry brings nobody to life, and kills nobody. -/
theorem alive_onRegistry (reg : ParticleRegistry) (a : LocalAction) (x : Pid) :
    (a.onRegistry reg).Alive x ↔ reg.Alive x := by
  cases a with
  | call a =>
    cases a with
    | register pid name =>
      rw [alive_iff, alive_iff, LocalAction.onRegistry, state_registerName]
    | unregister pid name =>
      rw [alive_iff, alive_iff, LocalAction.onRegistry, state_unregisterName]
    | atomic op => exact (sameLife_performSection reg op).alive x
    | beginSpawn | beginExit | advance => exact Iff.rfl
  | unlink a b => exact (sameLife_unlink reg a b).alive x
  | monitorWithRef watcher target refId =>
    exact (sameLife_monitorWithRef reg watcher target refId).alive x
  | demonitor watcher refId => exact (sameLife_demonitor reg watcher refId).alive x

/-- One action on the registry brings nobody to life. -/
theorem noBirth_onRegistry (reg : ParticleRegistry) (a : LocalAction) :
    NoBirth reg (a.onRegistry reg) := by
  cases a with
  | call a =>
    cases a with
    | register pid name => exact noBirth_perform reg (.registerName pid name)
    | unregister pid name => exact noBirth_perform reg (.unregisterName pid name)
    | atomic op => exact noBirth_perform reg (.atomic op)
    | beginSpawn | beginExit | advance => exact .refl reg
  | unlink a b => exact (sameLife_unlink reg a b).noBirth
  | monitorWithRef watcher target refId =>
    exact (sameLife_monitorWithRef reg watcher target refId).noBirth
  | demonitor watcher refId => exact (sameLife_demonitor reg watcher refId).noBirth

end ParticleRegistry

namespace CallsInProgress

theorem TransitInv.nodeStep {s t : CallsInProgress} {a : LocalAction}
    (h : TransitInv s) (hcounts : s.Counts a) (hstep : s.nodeStep a = some t) :
    TransitInv t := by
  obtain ⟨id, call, rfl, hcall, rfl⟩ | ⟨id, call, hbegins, -, rfl⟩ | ⟨-, rfl⟩ :=
    nodeStep_cases hstep
  · exact h.settle hcall (hcounts call hcall)
  · refine h.of_quiet (fun _ hp => hp) rfl fun id' call' p hcall' hp => ?_
    rw [show ({ s with calls := s.calls.insert id call } : CallsInProgress).calls =
      s.calls.insert id call from rfl, Table.lookup_insert_eq] at hcall'
    split at hcall'
    · cases hcall'
      rw [LocalAction.inTransit_of_begins hbegins] at hp
      cases hp
    · exact hcall'
  · have hbirth := s.reg.noBirth_onRegistry a
    exact h.of_quiet hbirth.alive hbirth.pidGen fun _ _ _ hcall _ => hcall

theorem TransitInv.localStep {s t : CallsInProgress} {a : LocalAction}
    (h : TransitInv s) (hcounts : s.Counts a) (hstep : s.localStep a = some t) :
    TransitInv t :=
  h.nodeStep hcounts (nodeStep_of_localStep hstep).2

theorem SpawnsApart.nodeStep {s t : CallsInProgress} {a : LocalAction}
    (h : SpawnsApart s) (hcounts : s.Counts a) (hstep : s.nodeStep a = some t) :
    SpawnsApart t := by
  obtain ⟨id, call, rfl, hcall, rfl⟩ | ⟨id, call, hbegins, -, rfl⟩ | ⟨-, rfl⟩ :=
    nodeStep_cases hstep
  · exact h.settle hcall (hcounts call hcall)
  · exact h.begin id (LocalAction.spawning_of_begins hbegins)
  · exact h.setReg (s.reg.noBirth_onRegistry a).pidGen

theorem SpawnsApart.localStep {s t : CallsInProgress} {a : LocalAction}
    (h : SpawnsApart s) (hcounts : s.Counts a) (hstep : s.localStep a = some t) :
    SpawnsApart t :=
  h.nodeStep hcounts (nodeStep_of_localStep hstep).2

end CallsInProgress

end Plasmoid
