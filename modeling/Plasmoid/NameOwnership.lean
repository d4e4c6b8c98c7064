import Plasmoid.Sections

/-!
# Who holds a name

A name should be held by a live particle, so that it can be claimed again
once its owner is dead.  `NamesInv` is the invariant behind that: the owner
of every name is alive, or its exit has yet to scan the name table.

Two operations insert into the name table without looking at the owner:
`register_name`, called by a guest that outlives its particle, and the bind
at the end of `spawn`.  `OwnerKept` is the condition that they find the owner
in place, and with it the invariant holds in every run.
-/

namespace Plasmoid.CallsInProgress

open Machine

/-- The exit of `pid` has removed its state and has yet to scan the names. -/
def scanAhead (s : CallsInProgress) (pid : Pid) : Bool :=
  s.calls.entries.any fun e => e.2.unnaming = some pid

theorem scanAhead_iff {s : CallsInProgress} {pid : Pid} :
    s.scanAhead pid = true ↔
      ∃ id call, s.calls.lookup id = some call ∧ call.unnaming = some pid := by
  simp only [scanAhead, List.any_eq_true, decide_eq_true_eq]
  constructor
  · rintro ⟨e, he, hpid⟩
    exact ⟨e.1, e.2, AList.mem_lookup_iff.2 he, hpid⟩
  · rintro ⟨id, call, hcall, hpid⟩
    exact ⟨⟨id, call⟩, AList.mem_lookup_iff.1 hcall, hpid⟩

/-- A name of `pid` is safe: it is alive, or its exit will still find the
name. -/
def Kept (s : CallsInProgress) (pid : Pid) : Prop :=
  s.reg.Alive pid ∨ s.scanAhead pid = true

instance (s : CallsInProgress) (pid : Pid) : Decidable (s.Kept pid) :=
  inferInstanceAs (Decidable (_ ∨ _))

/-- The condition on a call that takes its next section. -/
def callOk (s : CallsInProgress) : PendingCall → Prop
  | .spawnDraw _ _ => s.reg.pidGen.nextSeq.toNat + 1 < 2 ^ 64
  | .spawnBind pid name => name ∈ s.reg.names ∨ s.Kept pid
  | _ => True

instance (s : CallsInProgress) : DecidablePred s.callOk := fun call => by
  cases call <;> unfold callOk <;> infer_instance

/-- A name is only bound to a particle that is alive or whose exit will
still scan the names, and the pid counter does not wrap around. -/
def OwnerKept (s : CallsInProgress) : CallAction → Prop
  | .advance id => ∀ call ∈ s.calls.lookup id, s.callOk call
  | .register pid name => name ∈ s.reg.names ∨ s.Kept pid
  | _ => True

instance (s : CallsInProgress) (a : CallAction) :
    Decidable (s.OwnerKept a) := by
  cases a <;> unfold OwnerKept <;> infer_instance

theorem callOk_counts {s : CallsInProgress} {call : PendingCall}
    (h : s.callOk call) (hdraws : call.draws = true) :
    s.reg.pidGen.nextSeq.toNat + 1 < 2 ^ 64 := by
  cases call <;> first | exact h | cases hdraws

/-- The invariant. -/
structure NamesInv (s : CallsInProgress) : Prop where
  owners : ∀ n p, s.reg.names.lookup n = some p → p ∈ s.hosted ∧ s.Kept p
  /-- A spawn in progress has a pid of its own. -/
  apart : SpawnsApart s

theorem namesInv_idle (node : EndpointId) : NamesInv (idle (.new node)) where
  owners n p h := by
    rw [show (idle (.new node)).reg.names.lookup n = none from
      AList.lookup_empty n] at h
    cases h
  apart := spawnsApart_idle node

/-- What a critical section has to respect for the owners to stay in place. -/
structure SectionOk (s : CallsInProgress) (call : PendingCall)
    (reg : ParticleRegistry) (p : Progress) : Prop where
  names : ∀ n q, reg.names.lookup n = some q →
    s.reg.names.lookup n = some q ∨ p.born = some q ∧ s.Kept q
  /-- An owner that is no longer alive is on its way to the scan. -/
  alive : ∀ n q, reg.names.lookup n = some q → q ∈ s.hosted ∨ p.born = some q →
    s.reg.Alive q → reg.Alive q ∨ p.pending.bind PendingCall.unnaming = some q
  scan : ∀ n q, reg.names.lookup n = some q → call.unnaming = some q →
    p.pending.bind PendingCall.unnaming = some q

/-- A critical section of that kind keeps the owners in place. -/
theorem NamesInv.settle {s : CallsInProgress} (h : NamesInv s) {id : Nat}
    {call : PendingCall} (hcall : s.calls.lookup id = some call)
    {reg : ParticleRegistry} {p : Progress} (hok : SectionOk s call reg p)
    (hapart : SpawnsApart (s.settle id reg p)) : NamesInv (s.settle id reg p) := by
  refine ⟨?_, hapart⟩
  intro n q hq
  rw [reg_settle] at hq
  have hold : (q ∈ s.hosted ∨ p.born = some q) ∧ s.Kept q := by
    rcases hok.names n q hq with hold | ⟨hborn, hkept⟩
    · exact ⟨Or.inl (h.owners n q hold).1, (h.owners n q hold).2⟩
    · exact ⟨Or.inr hborn, hkept⟩
  refine ⟨mem_hosted_settle.2 hold.1.symm, ?_⟩
  have hpending : p.pending.bind PendingCall.unnaming = some q →
      (s.settle id reg p).Kept q := by
    intro hun
    obtain ⟨call', hp, hcall'⟩ := Option.bind_eq_some_iff.1 hun
    refine Or.inr (scanAhead_iff.2 ⟨id, call', ?_, hcall'⟩)
    rw [lookup_settle, if_pos rfl, hp]
  rcases hold.2 with halive | hscan
  · rcases hok.alive n q hq hold.1 halive with h' | h'
    · refine Or.inl ?_
      rw [reg_settle]
      exact h'
    · exact hpending h'
  · obtain ⟨id', call', hcall', hun⟩ := scanAhead_iff.1 hscan
    by_cases hid : id' = id
    · subst hid
      cases hcall.symm.trans hcall'
      exact hpending (hok.scan n q hq hun)
    · refine Or.inr (scanAhead_iff.2 ⟨id', call', ?_, hun⟩)
      rw [lookup_settle, if_neg hid, hcall']

/-! ## The critical sections -/

/-- A scan that is ahead stays ahead until it takes place. -/
theorem unnaming_critical (reg : ParticleRegistry) {call : PendingCall} {q : Pid}
    (h : call.unnaming = some q) :
    (reg.critical call).2.pending.bind PendingCall.unnaming = some q ∨
      ∃ st reason rest, call = .exitNames q st reason rest := by
  cases call with
  | exitEntry => exact Or.inl h
  | exitNames pid st reason rest =>
    cases h
    exact Or.inr ⟨st, reason, rest, rfl⟩
  | spawnDraw | spawnEntry | spawnState | spawnBind | spawnUndoState
  | spawnUndoEntry | exitTake | exitPublish | exitUnhook | exitSignal => cases h

/-- Every critical section respects the invariant, under the condition. -/
theorem NamesInv.critical {s : CallsInProgress} (h : NamesInv s) {id : Nat}
    {call : PendingCall} (hcall : s.calls.lookup id = some call)
    (hok : s.callOk call) :
    SectionOk s call (s.reg.critical call).1 (s.reg.critical call).2 := by
  refine ⟨?_, ?_, ?_⟩
  · intro n q hq
    rcases ParticleRegistry.lookup_names_critical hq with ⟨hold, -⟩ | ⟨hfree, rfl⟩
    · exact Or.inl hold
    · refine Or.inr ⟨?_, hok.resolve_left hfree⟩
      rw [ParticleRegistry.critical, if_neg hfree]
      rfl
  · intro n q hq hhosted halive
    rcases ParticleRegistry.alive_or_taken call halive with
      hlive | ⟨st, reason, rest, hnext⟩ | ⟨m, rfl⟩
    · exact Or.inl hlive
    · exact Or.inr (by rw [hnext]; rfl)
    · -- The rolled back particle was never hosted, so it owns no name.
      have hq' : q ∈ s.hosted :=
        hhosted.resolve_right fun hborn => by cases hborn
      exact absurd hq' (h.apart.fresh id _ q hcall rfl)
  · intro n q hq hun
    refine (unnaming_critical s.reg hun).resolve_right ?_
    rintro ⟨st, reason, rest, rfl⟩
    rcases ParticleRegistry.lookup_names_critical hq with ⟨-, hnot⟩ | ⟨-, heq⟩
    · exact hnot st reason rest rfl
    · cases heq

/-! ## Steps and runs -/

/-- A change of the registry between the calls. -/
private theorem NamesInv.setReg {s : CallsInProgress} (h : NamesInv s)
    {reg : ParticleRegistry} (hgen : reg.pidGen = s.reg.pidGen)
    (halive : ∀ q, s.reg.Alive q → reg.Alive q)
    (hnames : ∀ n q, reg.names.lookup n = some q →
      s.reg.names.lookup n = some q ∨ q ∈ s.hosted ∧ s.Kept q) :
    NamesInv { s with reg } where
  owners n q hq := by
    have hkept : q ∈ s.hosted ∧ s.Kept q :=
      (hnames n q hq).elim (h.owners n q) id
    exact ⟨hkept.1, hkept.2.imp (halive q) id⟩
  apart := h.apart.setReg hgen

/-- A call that begins has no pid yet. -/
private theorem NamesInv.begin {s : CallsInProgress} (h : NamesInv s) {id : Nat}
    {call : PendingCall} (hid : id ∉ s.calls) (hspawn : call.spawning = none) :
    NamesInv { s with calls := s.calls.insert id call } := by
  refine ⟨fun n q hq => ?_, h.apart.begin id hspawn⟩
  obtain ⟨hhosted, hkept⟩ := h.owners n q hq
  refine ⟨hhosted, hkept.imp (fun halive => halive) fun hscan => ?_⟩
  obtain ⟨id', call', hcall', hun⟩ := scanAhead_iff.1 hscan
  refine scanAhead_iff.2 ⟨id', call', ?_, hun⟩
  have hne : id' ≠ id := by
    rintro rfl
    exact hid (Table.lookup_some_mem hcall')
  show (s.calls.insert id call).lookup id' = some call'
  rw [Table.lookup_insert_eq, if_neg hne, hcall']

/-- Every step keeps the invariant, under the condition. -/
theorem NamesInv.step {s t : CallsInProgress} {a : CallAction}
    (h : NamesInv s) (hok : s.OwnerKept a) (hstep : s.step a = some t) :
    NamesInv t := by
  cases a with
  | beginSpawn id component name =>
    simp only [CallsInProgress.step] at hstep
    split at hstep
    · cases hstep
    · rename_i hid
      split at hstep
      · cases hstep
        exact h
      · cases hstep
        exact h.begin (fun hmem => hid (Or.inl hmem)) rfl
  | beginExit id pid reason =>
    simp only [CallsInProgress.step] at hstep
    split at hstep
    · cases hstep
    · rename_i hid
      cases hstep
      exact h.begin hid rfl
  | advance id =>
    simp only [CallsInProgress.step] at hstep
    split at hstep
    · cases hstep
    · rename_i call hcall
      split at hstep
      · cases hstep
      · cases hstep
        exact h.settle hcall (h.critical hcall (hok call hcall))
          (h.apart.settle hcall (callOk_counts (hok call hcall)))
  | register pid name =>
    simp only [CallsInProgress.step] at hstep
    split at hstep
    · rename_i hhosted
      cases hstep
      unfold ParticleRegistry.registerName
      by_cases hname : name ∈ s.reg.names
      · rw [if_pos hname]
        exact h
      · rw [if_neg hname]
        refine h.setReg rfl (fun q hq => hq) ?_
        intro n q hq
        rw [show (s.reg.bindName name pid).names = s.reg.names.insert name pid
          from rfl, Table.lookup_insert_eq] at hq
        split at hq
        · cases hq
          exact Or.inr ⟨hhosted.1, hok.resolve_left hname⟩
        · exact Or.inl hq
    · cases hstep
  | unregister pid name =>
    simp only [CallsInProgress.step] at hstep
    split at hstep
    · cases hstep
      unfold ParticleRegistry.unregisterName
      split
      · split
        · refine h.setReg rfl (fun q hq => hq) ?_
          intro n q hq
          rw [Table.lookup_erase_eq] at hq
          split at hq
          · cases hq
          · exact Or.inl hq
        · exact h
      · exact h
    · cases hstep
  | atomic op =>
    cases hstep
    have hop := ParticleRegistry.sameLife_performSection s.reg op
    exact h.setReg hop.pidGen (fun q hq => (hop.alive q).2 hq)
      fun n q hq => Or.inl (hop.names ▸ hq)

theorem namesInv_run {node : EndpointId} {s : CallsInProgress}
    (h : Run step OwnerKept (idle (.new node)) s) : NamesInv s :=
  h.invariant (fun hinv hok hstep => hinv.step hok hstep) (namesInv_idle node)

/-- Every name is held by a live particle. -/
def NamesHeldByLiving (s : CallsInProgress) : Prop :=
  ∀ n p, s.reg.names.lookup n = some p → s.reg.Alive p

/-- In every run that binds names to particles in place, a registry without
calls in progress has only live owners. -/
theorem names_held_by_living (node : EndpointId) (s : CallsInProgress)
    (h : Run step OwnerKept (idle (.new node)) s) (hidle : s.calls.keys = []) :
    s.NamesHeldByLiving := by
  intro n p hp
  rcases ((namesInv_run h).owners n p hp).2 with halive | hscan
  · exact halive
  · obtain ⟨id, call, hcall, -⟩ := scanAhead_iff.1 hscan
    exact absurd hcall (lookup_ne_of_idle hidle id call)

/-- Spawn a particle under a name, and let it register a second one. -/
def spawnNamed : List CallAction :=
  .atomic (.registerComponent "worker") ::
    .beginSpawn 0 "worker" (some "first") ::
    List.replicate 4 (.advance 0) ++ [.register ⟨⟨1⟩, 1⟩ "second"]

/-- Its exit, section by section. -/
def exitNamed : List CallAction :=
  .beginExit 0 ⟨⟨1⟩, 1⟩ .kill :: List.replicate 6 (.advance 0)

theorem names_held_by_living_spawnNamed :
    ∃ s, Run step OwnerKept (idle (.new ⟨1⟩)) s ∧
      (s.calls.keys = [] ∧ s.reg.names.keys = ["second", "first"]) ∧
      s.NamesHeldByLiving := by
  obtain ⟨s, hrun, hs⟩ : ∃ s, Run step OwnerKept (idle (.new ⟨1⟩)) s ∧
      (s.calls.keys = [] ∧ s.reg.names.keys = ["second", "first"]) :=
    exec_run_of_any spawnNamed (by decide)
  exact ⟨s, hrun, hs, names_held_by_living ⟨1⟩ s hrun hs.1⟩

/-- A guest that registers a name after its particle was killed holds it for
ever. -/
theorem dead_owner_of_late_register :
    ¬ ∀ (node : EndpointId) (s : CallsInProgress),
      Run step anyStep (idle (.new node)) s → s.calls.keys = [] →
      s.NamesHeldByLiving := by
  intro h
  obtain ⟨s, hrun, hidle, hname, hdead⟩ : ∃ s,
      Run step anyStep (idle (.new ⟨1⟩)) s ∧ s.calls.keys = [] ∧
        s.reg.names.lookup "late" = some ⟨⟨1⟩, 1⟩ ∧
        ¬ s.reg.Alive ⟨⟨1⟩, 1⟩ :=
    exec_run_of_any
      (spawnNamed ++ exitNamed ++ [.register ⟨⟨1⟩, 1⟩ "late"])
      (by decide)
  exact hdead (h ⟨1⟩ s hrun hidle "late" _ hname)

end Plasmoid.CallsInProgress
