import Plasmoid.LocalCalls

/-!
# Racing for a name

Any number of spawns and of `register_name` calls ask for one name.  A spawn
looks at the name table twice: once before it draws a pid and once, after it
has inserted its particle, when it binds the name.  Only the second look is
under the lock that binds.

`NameRace` keeps who got the name since it was last given up, and the pids of
the spawns that returned an error.  `NameStep` says what an action does
to the name, and `TablesHeld` to which spawn a particle in the tables belongs.
-/

namespace Plasmoid

open Machine

namespace CallsInProgress

/-- The particle that gets the name `n` by an action: its spawn, or its
`register_name`, succeeds. -/
def wins (n : String) (s : CallsInProgress) : LocalAction → Option Pid
  | .call (.register pid name) =>
    if name = n ∧ (s.reg.registerName pid name).2.isOk then some pid else none
  | .call (.advance id) =>
    match s.calls.lookup id with
    | some (.spawnBind pid name) =>
      if name = n then (s.reg.critical (.spawnBind pid name)).2.born else none
    | _ => none
  | _ => none

/-- The action gives the name `n` up: its owner unregisters it, or exits. -/
def givesUp (n : String) (s : CallsInProgress) : LocalAction → Bool
  | .call (.unregister pid name) => name = n ∧ s.reg.names.lookup n = some pid
  | .call (.advance id) =>
    match s.calls.lookup id with
    | some (.exitNames pid _ _ _) => s.reg.names.lookup n = some pid
    | _ => false
  | _ => false

/-- The pid of a spawn that returns an error. -/
def loses (s : CallsInProgress) : LocalAction → Option Pid
  | .call (.advance id) =>
    match s.calls.lookup id with
    | some call =>
      match (s.reg.critical call).2 with
      | .spawned (.error _) => call.spawning
      | _ => none
    | none => none
  | _ => none

end CallsInProgress

/-- The calls of a node, with those that raced for one name. -/
structure NameRace where
  calls : CallsInProgress
  winners : List Pid
  losers : List Pid

namespace NameRace

def start (node : EndpointId) : NameRace := ⟨.idle (.new node), [], []⟩

/-- The registry of the node. -/
def reg (s : NameRace) : ParticleRegistry := s.calls.reg

/-- An action, with who gets the name by it and who loses. -/
def step (n : String) (s : NameRace) (a : LocalAction) : Option NameRace :=
  (s.calls.nodeStep a).map fun calls =>
    { calls
      winners := if s.calls.givesUp n a then []
        else s.winners ++ (s.calls.wins n a).toList
      losers := s.losers ++ (s.calls.loses a).toList }

/-- The pid counter does not wrap around. -/
def CountsUp (s : NameRace) (a : LocalAction) : Prop := s.calls.Counts a

instance (s : NameRace) : DecidablePred s.CountsUp :=
  inferInstanceAs (DecidablePred s.calls.Counts)

end NameRace

/-! ## The name -/

namespace CallsInProgress

/-- What an action does to the name `n`. -/
inductive NameStep (n : String) (s t : CallsInProgress) (a : LocalAction) : Prop
  | kept (hwins : s.wins n a = none) (hgives : s.givesUp n a = false)
      (hsame : t.reg.names.lookup n = s.reg.names.lookup n)
  | won (p : Pid) (hwins : s.wins n a = some p) (hgives : s.givesUp n a = false)
      (hfree : s.reg.names.lookup n = none)
      (hbound : t.reg.names.lookup n = some p)
  | givenUp (hgives : s.givesUp n a = true)
      (hfree : t.reg.names.lookup n = none)

/-- The re-check of a spawn and the bind are one section: it gets the name
only if the name is free. -/
theorem nameStep_spawnBind {s : CallsInProgress} (n : String) {id : Nat} {pid : Pid}
    {name : String} (hcall : s.calls.lookup id = some (.spawnBind pid name)) :
    NameStep n s (s.settle id (s.reg.critical (.spawnBind pid name)).1
      (s.reg.critical (.spawnBind pid name)).2) (.call (.advance id)) := by
  have hgives : s.givesUp n (.call (.advance id)) = false := by
    rw [givesUp, hcall]
  have hwins : s.wins n (.call (.advance id)) =
      if name = n then (s.reg.critical (.spawnBind pid name)).2.born else none := by
    rw [wins, hcall]
  by_cases htaken : name ∈ s.reg.names
  · have hcritical : s.reg.critical (.spawnBind pid name) =
        (s.reg, .next (.spawnUndoState pid name)) := if_pos htaken
    refine .kept ?_ hgives ?_
    · rw [hwins, hcritical]
      exact ite_self _
    · rw [reg_settle, hcritical]
  · have hcritical : s.reg.critical (.spawnBind pid name) =
        (s.reg.bindName name pid, .spawned (.ok pid)) := if_neg htaken
    have hlookup := s.reg.lookup_bindName name pid n
    by_cases hname : name = n
    · subst hname
      refine .won pid ?_ hgives (AList.lookup_eq_none.2 htaken) ?_
      · rw [hwins, if_pos rfl, hcritical]
        rfl
      · rw [reg_settle, hcritical, hlookup, if_pos rfl]
    · refine .kept ?_ hgives ?_
      · rw [hwins, if_neg hname]
      · rw [reg_settle, hcritical, hlookup, if_neg (Ne.symm hname)]

/-- An exit gives up the names of its particle, and no others. -/
theorem nameStep_exitNames {s : CallsInProgress} (n : String) {id : Nat} {pid : Pid}
    {st : ParticleState} {reason : ExitReason} {rest : List Pid}
    (hcall : s.calls.lookup id = some (.exitNames pid st reason rest)) :
    NameStep n s (s.settle id (s.reg.critical (.exitNames pid st reason rest)).1
      (s.reg.critical (.exitNames pid st reason rest)).2) (.call (.advance id)) := by
  have hgives : s.givesUp n (.call (.advance id)) =
      decide (s.reg.names.lookup n = some pid) := by
    rw [givesUp, hcall]
  have hlookup : (s.settle id (s.reg.critical (.exitNames pid st reason rest)).1
      (s.reg.critical (.exitNames pid st reason rest)).2).reg.names.lookup n =
        (s.reg.names.lookup n).filter fun owner => owner ≠ pid := by
    rw [reg_settle]
    exact s.reg.lookup_dropNames pid n
  by_cases howner : s.reg.names.lookup n = some pid
  · refine .givenUp ?_ ?_
    · rw [hgives]
      exact decide_eq_true howner
    · rw [hlookup, howner]
      simp
  · refine .kept ?_ ?_ ?_
    · rw [wins, hcall]
    · rw [hgives]
      exact decide_eq_false howner
    · rw [hlookup]
      cases hn : s.reg.names.lookup n with
      | none => rfl
      | some owner =>
        rw [hn] at howner
        have hne : owner ≠ pid := fun heq => howner (congrArg some heq)
        simp [hne]

/-- The other sections leave the name alone. -/
theorem nameStep_advance {s : CallsInProgress} (n : String) {id : Nat}
    {call : PendingCall} (hcall : s.calls.lookup id = some call) :
    NameStep n s (s.settle id (s.reg.critical call).1 (s.reg.critical call).2)
      (.call (.advance id)) := by
  by_cases hbind : ∃ pid name, call = .spawnBind pid name
  · obtain ⟨pid, name, rfl⟩ := hbind
    exact nameStep_spawnBind n hcall
  by_cases hscan : ∃ pid st reason rest, call = .exitNames pid st reason rest
  · obtain ⟨pid, st, reason, rest, rfl⟩ := hscan
    exact nameStep_exitNames n hcall
  have hbind' : ∀ pid name, call ≠ .spawnBind pid name :=
    fun pid name heq => hbind ⟨pid, name, heq⟩
  have hscan' : ∀ pid st reason rest, call ≠ .exitNames pid st reason rest :=
    fun pid st reason rest heq => hscan ⟨pid, st, reason, rest, heq⟩
  refine .kept ?_ ?_ ?_
  · rw [wins, hcall]
    split
    · rename_i pid name heq
      exact absurd (Option.some_inj.1 heq) (hbind' pid name)
    · rfl
  · rw [givesUp, hcall]
    split
    · rename_i pid st reason rest heq
      exact absurd (Option.some_inj.1 heq) (hscan' pid st reason rest)
    · rfl
  · rw [reg_settle, s.reg.names_critical hbind' hscan']

theorem nameStep_register {s : CallsInProgress} (n : String) (pid : Pid)
    (name : String) :
    NameStep n s { s with reg := (s.reg.registerName pid name).1 }
      (.call (.register pid name)) := by
  by_cases htaken : name ∈ s.reg.names
  · have hregister : s.reg.registerName pid name =
        (s.reg, .error s!"name '{name}' is already registered") := if_pos htaken
    refine .kept ?_ rfl ?_
    · rw [wins, hregister]
      exact if_neg fun hand => Bool.false_ne_true hand.2
    · rw [hregister]
  · have hregister : s.reg.registerName pid name =
        (s.reg.bindName name pid, .ok ()) := if_neg htaken
    have hlookup := s.reg.lookup_bindName name pid n
    by_cases hname : name = n
    · subst hname
      refine .won pid ?_ rfl (AList.lookup_eq_none.2 htaken) ?_
      · rw [wins, hregister]
        exact if_pos ⟨rfl, rfl⟩
      · rw [hregister]
        exact hlookup.trans (if_pos rfl)
    · refine .kept ?_ rfl ?_
      · rw [wins]
        exact if_neg fun hand => hname hand.1
      · rw [hregister]
        exact hlookup.trans (if_neg (Ne.symm hname))

/-- Only the owner gives a name up. -/
theorem nameStep_unregister {s : CallsInProgress} (n : String) (pid : Pid)
    (name : String) :
    NameStep n s { s with reg := (s.reg.unregisterName pid name).1 }
      (.call (.unregister pid name)) := by
  by_cases howner : s.reg.names.lookup name = some pid
  · have hdropped : (s.reg.unregisterName pid name).1.names.lookup n =
        if n = name then none else s.reg.names.lookup n := by
      rw [ParticleRegistry.unregisterName, howner]
      dsimp only
      rw [if_pos rfl]
      exact Table.lookup_erase_eq _ _ _
    by_cases hname : name = n
    · subst hname
      refine .givenUp ?_ ?_
      · exact decide_eq_true ⟨rfl, howner⟩
      · exact hdropped.trans (if_pos rfl)
    · refine .kept rfl ?_ ?_
      · exact decide_eq_false fun hand => hname hand.1
      · exact hdropped.trans (if_neg (Ne.symm hname))
  · have hsame : (s.reg.unregisterName pid name).1 = s.reg := by
      rw [ParticleRegistry.unregisterName]
      split
      · rename_i owner hlookup
        split
        · rename_i heq
          subst heq
          exact absurd hlookup howner
        · rfl
      · rfl
    refine .kept rfl ?_ ?_
    · refine decide_eq_false fun hand => howner ?_
      rw [hand.1]
      exact hand.2
    · rw [hsame]

theorem nameStep_of_sameLife {s : CallsInProgress} {n : String} {a : LocalAction}
    {reg : ParticleRegistry} (h : ParticleRegistry.SameLife s.reg reg)
    (hwins : s.wins n a = none) (hgives : s.givesUp n a = false) :
    NameStep n s { s with reg } a := by
  refine .kept hwins hgives ?_
  show reg.names.lookup n = s.reg.names.lookup n
  rw [h.names]

theorem nameStep_nodeStep {s t : CallsInProgress} {a : LocalAction} (n : String)
    (hstep : s.nodeStep a = some t) : NameStep n s t a := by
  obtain ⟨id, call, rfl, hcall, rfl⟩ | ⟨id, call, hbegins, -, rfl⟩ |
    ⟨hsingle, rfl⟩ := nodeStep_cases hstep
  · exact nameStep_advance n hcall
  · have hkept : s.wins n a = none ∧ s.givesUp n a = false := by
      unfold LocalAction.begins at hbegins
      split at hbegins <;> first | exact ⟨rfl, rfl⟩ | cases hbegins
    exact .kept hkept.1 hkept.2 rfl
  · cases a with
    | call a =>
      cases a with
      | register pid name => exact nameStep_register n pid name
      | unregister pid name => exact nameStep_unregister n pid name
      | atomic op =>
        exact nameStep_of_sameLife (s.reg.sameLife_performSection op) rfl rfl
      | beginSpawn => exact .kept rfl rfl rfl
      | beginExit | advance => cases hsingle
    | unlink a b => exact nameStep_of_sameLife (s.reg.sameLife_unlink a b) rfl rfl
    | monitorWithRef watcher target refId =>
      exact nameStep_of_sameLife
        (s.reg.sameLife_monitorWithRef watcher target refId) rfl rfl
    | demonitor watcher refId =>
      exact nameStep_of_sameLife (s.reg.sameLife_demonitor watcher refId) rfl rfl

end CallsInProgress

/-! ## The particles in the tables -/

namespace PendingCall

/-- The particle whose state a spawn has inserted and not taken back. -/
def holdsState : PendingCall → Option Pid
  | .spawnBind pid _ | .spawnUndoState pid _ => some pid
  | _ => none

/-- The particle whose entry a spawn has inserted and not taken back. -/
def holdsEntry : PendingCall → Option Pid
  | .spawnState pid _ | .spawnBind pid _ | .spawnUndoState pid _
  | .spawnUndoEntry pid _ => some pid
  | _ => none

theorem spawning_of_holdsState {call : PendingCall} {p : Pid}
    (h : call.holdsState = some p) : call.spawning = some p := by
  unfold holdsState at h
  split at h
  · exact h
  · exact h
  · cases h

theorem spawning_of_holdsEntry {call : PendingCall} {p : Pid}
    (h : call.holdsEntry = some p) : call.spawning = some p := by
  unfold holdsEntry at h
  split at h
  · exact h
  · exact h
  · exact h
  · exact h
  · cases h

end PendingCall

namespace ParticleRegistry

/-- Only the insertion of a spawn adds an entry. -/
theorem mem_particles_critical {reg : ParticleRegistry} {call : PendingCall} {p : Pid}
    (h : p ∈ (reg.critical call).1.particles) :
    p ∈ reg.particles ∨
      ∃ component name, call = .spawnEntry p component name := by
  rw [Table.mem_iff_lookup] at h ⊢
  obtain ⟨entry, hentry⟩ := h
  have herase : ∀ pid, (reg.particles.erase pid).lookup p = some entry →
      ∃ entry, reg.particles.lookup p = some entry := by
    intro pid hlookup
    rw [Table.lookup_erase_eq] at hlookup
    split at hlookup
    · cases hlookup
    · exact ⟨entry, hlookup⟩
  cases call with
  | spawnEntry pid component name =>
    by_cases hp : p = pid
    · exact .inr ⟨component, name, by rw [hp]⟩
    · refine .inl ⟨entry, ?_⟩
      exact ((Table.lookup_insert_eq _ _ _ _).trans (if_neg hp)).symm.trans hentry
  | spawnUndoEntry pid n => exact .inl (herase pid hentry)
  | exitEntry pid st reason rest => exact .inl (herase pid hentry)
  | spawnDraw component name =>
    rw [critical] at hentry
    split at hentry <;> exact .inl ⟨entry, hentry⟩
  | spawnBind pid n =>
    rw [critical] at hentry
    split at hentry <;> exact .inl ⟨entry, hentry⟩
  | exitTake pid reason rest =>
    rw [critical] at hentry
    split at hentry <;> exact .inl ⟨entry, hentry⟩
  | exitSignal reason sends rest =>
    cases sends with
    | nil => exact .inl ⟨entry, hentry⟩
    | cons d sends => exact .inl ⟨entry, hentry⟩
  | spawnState | spawnUndoState | exitNames | exitPublish | exitUnhook =>
    exact .inl ⟨entry, hentry⟩

/-- No single action of the registry touches the entries. -/
theorem particles_onRegistry (reg : ParticleRegistry) (a : LocalAction) :
    (a.onRegistry reg).particles = reg.particles := by
  cases a with
  | call a =>
    cases a with
    | register pid name =>
      rw [LocalAction.onRegistry, registerName]
      split <;> rfl
    | unregister pid name =>
      rw [LocalAction.onRegistry, unregisterName]
      split
      · split <;> rfl
      · rfl
    | atomic op =>
      cases op with
      | link a b =>
        rw [LocalAction.onRegistry, performSection, link]
        split
        · rfl
        · split <;> rfl
      | registerComponent | setTrapExit | linkRemote | unlinkRemote
      | monitorRemote | deliverExit | deliverDown | forgetNode => rfl
    | beginSpawn | beginExit | advance => rfl
  | unlink | monitorWithRef => rfl
  | demonitor watcher refId =>
    rw [LocalAction.onRegistry, demonitor]
    split <;> rfl

end ParticleRegistry

namespace CallsInProgress

/-- The pid belongs to a spawn that has returned it, or to one in progress
that holds it. -/
def HeldBy (s : CallsInProgress) (holds : PendingCall → Option Pid) (p : Pid) :
    Prop :=
  p ∈ s.hosted ∨ ∃ id call, s.calls.lookup id = some call ∧ holds call = some p

variable {s : CallsInProgress} {holds : PendingCall → Option Pid} {p : Pid}

/-- The call that took a section holds the pid afterwards, or has returned
it. -/
theorem heldBy_of_next {id : Nat} {call : PendingCall}
    (h : (s.reg.critical call).2.born = some p ∨
      (s.reg.critical call).2.pending.bind holds = some p) :
    (s.settle id (s.reg.critical call).1 (s.reg.critical call).2).HeldBy holds p := by
  rcases h with hborn | hnext
  · exact .inl (mem_hosted_settle.2 (.inl hborn))
  · obtain ⟨next, hnext, hp⟩ := Option.bind_eq_some_iff.1 hnext
    exact .inr ⟨id, next, by rw [lookup_settle, if_pos rfl, hnext], hp⟩

/-- A section of a call takes a pid from nobody else. -/
theorem HeldBy.settle (h : s.HeldBy holds p) {id : Nat} {call : PendingCall}
    (hcall : s.calls.lookup id = some call)
    (hkeep : holds call = some p → (s.reg.critical call).2.born = some p ∨
      (s.reg.critical call).2.pending.bind holds = some p) :
    (s.settle id (s.reg.critical call).1 (s.reg.critical call).2).HeldBy holds p := by
  rcases h with hhosted | ⟨id', call', hcall', hp⟩
  · exact .inl (mem_hosted_settle.2 (.inr hhosted))
  · by_cases hid : id' = id
    · subst hid
      cases hcall.symm.trans hcall'
      exact heldBy_of_next (hkeep hp)
    · exact .inr ⟨id', call', by rw [lookup_settle, if_neg hid, hcall'], hp⟩

theorem HeldBy.begins (h : s.HeldBy holds p) {id : Nat} {call : PendingCall}
    (hnew : s.calls.lookup id = none) :
    HeldBy { s with calls := s.calls.insert id call } holds p := by
  refine h.imp_right ?_
  rintro ⟨id', call', hcall', hp⟩
  have hne : id' ≠ id := by
    rintro rfl
    rw [hnew] at hcall'
    cases hcall'
  exact ⟨id', call',
    (Table.lookup_insert_eq _ _ _ _).trans ((if_neg hne).trans hcall'), hp⟩

/-- Every particle in the tables belongs to a spawn that has not taken it
back. -/
structure TablesHeld (s : CallsInProgress) : Prop where
  states : ∀ p, s.reg.Alive p → s.HeldBy PendingCall.holdsState p
  entries : ∀ p, p ∈ s.reg.particles → s.HeldBy PendingCall.holdsEntry p

theorem tablesHeld_idle (node : EndpointId) : TablesHeld (idle (.new node)) :=
  ⟨nofun, nofun⟩

/-- A spawn that holds a state returns the particle, or goes on to take it
back, or has just taken it back. -/
theorem holdsState_critical {reg : ParticleRegistry} {call : PendingCall} {p : Pid}
    (h : call.holdsState = some p) (hlive : (reg.critical call).1.Alive p) :
    (reg.critical call).2.born = some p ∨
      (reg.critical call).2.pending.bind PendingCall.holdsState = some p := by
  cases call with
  | spawnBind pid n =>
    rw [ParticleRegistry.critical]
    split
    · exact .inr h
    · exact .inl h
  | spawnUndoState pid n =>
    cases h
    obtain ⟨st, hst⟩ := ParticleRegistry.alive_iff.1 hlive
    rw [ParticleRegistry.state_critical, PendingCall.onState, if_pos rfl] at hst
    cases hst
  | spawnDraw | spawnEntry | spawnState | spawnUndoEntry | exitTake | exitEntry
  | exitNames | exitPublish | exitUnhook | exitSignal => cases h

/-- The same for its entry. -/
theorem holdsEntry_critical {reg : ParticleRegistry} {call : PendingCall} {p : Pid}
    (h : call.holdsEntry = some p) (hmem : p ∈ (reg.critical call).1.particles) :
    (reg.critical call).2.born = some p ∨
      (reg.critical call).2.pending.bind PendingCall.holdsEntry = some p := by
  cases call with
  | spawnState pid name =>
    cases name with
    | none => exact .inl h
    | some n => exact .inr h
  | spawnBind pid n =>
    rw [ParticleRegistry.critical]
    split
    · exact .inr h
    · exact .inl h
  | spawnUndoState pid n => exact .inr h
  | spawnUndoEntry pid n =>
    cases h
    obtain ⟨entry, hentry⟩ := Table.mem_iff_lookup.1 hmem
    rw [show (reg.critical (.spawnUndoEntry p n)).1.particles.lookup p = none
      from AList.lookup_erase _ _] at hentry
    cases hentry
  | spawnDraw | spawnEntry | exitTake | exitEntry | exitNames | exitPublish
  | exitUnhook | exitSignal => cases h

theorem TablesHeld.settle (h : TablesHeld s) {id : Nat} {call : PendingCall}
    (hcall : s.calls.lookup id = some call) :
    TablesHeld (s.settle id (s.reg.critical call).1 (s.reg.critical call).2) where
  states p hp := by
    rw [reg_settle] at hp
    rcases alive_critical hp with hold | ⟨name, rfl⟩
    · exact (h.states p hold).settle hcall fun hholds =>
        holdsState_critical hholds hp
    · refine heldBy_of_next ?_
      cases name with
      | none => exact .inl rfl
      | some n => exact .inr rfl
  entries p hp := by
    rw [reg_settle] at hp
    rcases ParticleRegistry.mem_particles_critical hp with
      hold | ⟨component, name, rfl⟩
    · exact (h.entries p hold).settle hcall fun hholds =>
        holdsEntry_critical hholds hp
    · exact heldBy_of_next (.inr rfl)

theorem TablesHeld.nodeStep {t : CallsInProgress} {a : LocalAction}
    (h : TablesHeld s) (hstep : s.nodeStep a = some t) : TablesHeld t := by
  obtain ⟨id, call, rfl, hcall, rfl⟩ | ⟨id, call, -, hnew, rfl⟩ | ⟨-, rfl⟩ :=
    nodeStep_cases hstep
  · exact h.settle hcall
  · exact ⟨fun p hp => (h.states p hp).begins hnew,
      fun p hp => (h.entries p hp).begins hnew⟩
  · refine ⟨fun p hp => h.states p ((s.reg.alive_onRegistry a p).1 hp), ?_⟩
    intro p hp
    refine h.entries p ?_
    rw [← s.reg.particles_onRegistry a]
    exact hp

/-- In a run with a counter that does not wrap around, a pid that a spawn lost
is nobody's. -/
structure Retired (s : CallsInProgress) (p : Pid) : Prop where
  unhosted : p ∉ s.hosted
  unheld : ∀ id call, s.calls.lookup id = some call → call.spawning ≠ some p
  counted : p.seq.toNat < s.reg.pidGen.nextSeq.toNat

theorem Retired.nodeStep {t : CallsInProgress} {a : LocalAction} {p : Pid}
    (h : s.Retired p) (hcounts : s.Counts a) (hstep : s.nodeStep a = some t) :
    t.Retired p := by
  obtain ⟨id, call, rfl, hcall, rfl⟩ | ⟨id, call, hbegins, -, rfl⟩ | ⟨-, rfl⟩ :=
    nodeStep_cases hstep
  · refine ⟨?_, ?_, ?_⟩
    · rw [mem_hosted_settle, not_or]
      exact ⟨fun hborn => h.unheld id call hcall (born_critical hborn), h.unhosted⟩
    · intro id' call' hcall' hp
      rw [lookup_settle] at hcall'
      split at hcall'
      · have hnext : (s.reg.critical call).2.pending.bind PendingCall.spawning =
            some p := by
          rw [hcall']
          exact hp
        rcases spawning_critical hnext with hold | ⟨hpeek, -, -⟩
        · exact h.unheld id call hcall hold
        · have hlt := h.counted
          rw [hpeek] at hlt
          exact Nat.lt_irrefl _ hlt
      · exact h.unheld id' call' hcall' hp
    · rw [reg_settle]
      exact ParticleRegistry.lt_nextSeq_critical (hcounts call hcall) h.counted
  · refine ⟨h.unhosted, ?_, h.counted⟩
    intro id' call' hcall' hp
    rw [show ({ s with calls := s.calls.insert id call } : CallsInProgress).calls =
      s.calls.insert id call from rfl, Table.lookup_insert_eq] at hcall'
    split at hcall'
    · cases hcall'
      rw [LocalAction.spawning_of_begins hbegins] at hp
      cases hp
    · exact h.unheld id' call' hcall' hp
  · refine ⟨h.unhosted, h.unheld, ?_⟩
    rw [show ({ s with reg := a.onRegistry s.reg } : CallsInProgress).reg.pidGen =
      s.reg.pidGen from (s.reg.noBirth_onRegistry a).pidGen]
    exact h.counted

/-- The pid of a spawn that returns an error is nobody's from then on. -/
theorem retired_of_loses {t : CallsInProgress} {a : LocalAction} {p : Pid}
    (h : s.SpawnsApart) (hcounts : s.Counts a) (hloses : s.loses a = some p)
    (hstep : s.nodeStep a = some t) : t.Retired p := by
  obtain ⟨id, call, rfl, hcall, rfl⟩ | ⟨id, call, hbegins, -, rfl⟩ |
    ⟨hsingle, rfl⟩ := nodeStep_cases hstep
  · rw [loses, hcall] at hloses
    dsimp only at hloses
    split at hloses
    swap
    · cases hloses
    rename_i err hend
    refine ⟨?_, ?_, ?_⟩
    · rw [mem_hosted_settle, hend, not_or]
      refine ⟨fun hborn => ?_, h.fresh id call p hcall hloses⟩
      cases hborn
    · intro id' call' hcall' hp
      rw [lookup_settle, hend] at hcall'
      split at hcall'
      · cases hcall'
      · rename_i hne
        exact hne (h.distinct id' id call' call p hcall' hcall hp hloses)
    · rw [reg_settle]
      exact ParticleRegistry.lt_nextSeq_critical (hcounts call hcall)
        (h.counted p (.inr ⟨id, call, hcall, hloses⟩))
  · unfold LocalAction.begins at hbegins
    split at hbegins <;> first | cases hloses | cases hbegins
  · unfold loses at hloses
    split at hloses
    · cases hsingle
    · cases hloses

end CallsInProgress

/-! ## Runs -/

namespace NameRace

theorem step_eq_some {n : String} {s t : NameRace} {a : LocalAction}
    (h : step n s a = some t) :
    s.calls.nodeStep a = some t.calls ∧
      t.winners = (if s.calls.givesUp n a then []
        else s.winners ++ (s.calls.wins n a).toList) ∧
      t.losers = s.losers ++ (s.calls.loses a).toList := by
  obtain ⟨calls, hcalls, rfl⟩ := Option.map_eq_some_iff.1 h
  exact ⟨hcalls, rfl, rfl⟩

/-- The invariant of every run: the winner is whoever the name is bound to,
and every particle in the tables belongs to a spawn. -/
structure RaceInv (n : String) (s : NameRace) : Prop where
  winner : s.winners = (s.reg.names.lookup n).toList
  held : s.calls.TablesHeld

theorem raceInv_start (n : String) (node : EndpointId) : RaceInv n (start node) where
  winner := rfl
  held := CallsInProgress.tablesHeld_idle node

theorem RaceInv.step {n : String} {s t : NameRace} {a : LocalAction}
    (h : RaceInv n s) (hstep : NameRace.step n s a = some t) : RaceInv n t := by
  obtain ⟨hcalls, hwinners, -⟩ := step_eq_some hstep
  refine ⟨?_, h.held.nodeStep hcalls⟩
  rw [hwinners, h.winner]
  cases CallsInProgress.nameStep_nodeStep n hcalls with
  | kept hwins hgives hsame =>
    rw [hwins, hgives, reg, reg, hsame]
    exact List.append_nil _
  | won p hwins hgives hfree hbound =>
    rw [hwins, hgives, reg, reg, hfree, hbound]
    rfl
  | givenUp hgives hfree =>
    rw [hgives, if_pos rfl, reg, hfree]
    rfl

/-- What a counter that does not wrap around adds: the pids of the losers are
nobody's. -/
structure RetiredInv (s : NameRace) : Prop where
  apart : s.calls.SpawnsApart
  retired : ∀ p ∈ s.losers, s.calls.Retired p

theorem retiredInv_start (node : EndpointId) : RetiredInv (start node) where
  apart := CallsInProgress.spawnsApart_idle node
  retired := nofun

theorem RetiredInv.step {n : String} {s t : NameRace} {a : LocalAction}
    (h : RetiredInv s) (hok : s.CountsUp a) (hstep : NameRace.step n s a = some t) :
    RetiredInv t := by
  obtain ⟨hcalls, -, hlosers⟩ := step_eq_some hstep
  refine ⟨h.apart.nodeStep hok hcalls, ?_⟩
  rw [hlosers]
  intro p hp
  rcases List.mem_append.1 hp with hold | hnew
  · exact (h.retired p hold).nodeStep hok hcalls
  · exact CallsInProgress.retired_of_loses h.apart hok
      (Option.mem_toList.1 hnew) hcalls

/-- Since the name was last given up, at most one spawn or `register_name` has
got it, and the name is bound to that one.  A spawn that returned an error has
left nothing: what the tables hold under its pid belongs to another spawn,
which drew the same pid when the counter had come round, and they hold nothing
if it does not come round. -/
theorem name_races_have_one_winner (node : EndpointId) (n : String) {s : NameRace}
    (h : Run (step n) anyStep (start node) s) :
    s.winners.length ≤ 1 ∧ (∀ p ∈ s.winners, s.reg.names.lookup n = some p) ∧
      (∀ p ∈ s.losers, p ∈ s.reg.particles ∨ s.reg.Alive p →
        s.calls.HeldBy PendingCall.spawning p) ∧
      (Run (step n) CountsUp (start node) s →
        ∀ p ∈ s.losers, p ∉ s.reg.particles ∧ ¬ s.reg.Alive p) := by
  have hinv : RaceInv n s :=
    h.invariant (fun hinv _ hstep => hinv.step hstep) (raceInv_start n node)
  have hheld : ∀ p, p ∈ s.reg.particles ∨ s.reg.Alive p →
      s.calls.HeldBy PendingCall.spawning p := by
    rintro p (hentry | hstate)
    · refine (hinv.held.entries p hentry).imp_right ?_
      rintro ⟨id, call, hcall, hp⟩
      exact ⟨id, call, hcall, PendingCall.spawning_of_holdsEntry hp⟩
    · refine (hinv.held.states p hstate).imp_right ?_
      rintro ⟨id, call, hcall, hp⟩
      exact ⟨id, call, hcall, PendingCall.spawning_of_holdsState hp⟩
  refine ⟨?_, ?_, fun p _ => hheld p, ?_⟩
  · rw [hinv.winner]
    cases s.reg.names.lookup n with
    | none => exact Nat.zero_le 1
    | some p => exact le_refl 1
  · rw [hinv.winner]
    exact fun p hp => Option.mem_toList.1 hp
  · intro hcounts p hp
    have hretired : s.calls.Retired p := by
      have hinv' : RetiredInv s := hcounts.invariant
        (fun hinv hok hstep => hinv.step hok hstep) (retiredInv_start node)
      exact hinv'.retired p hp
    have hnobody : ¬ s.calls.HeldBy PendingCall.spawning p := by
      rintro (hhosted | ⟨id, call, hcall, hspawning⟩)
      · exact hretired.unhosted hhosted
      · exact hretired.unheld id call hcall hspawning
    exact ⟨fun hentry => hnobody (hheld p (.inl hentry)),
      fun hstate => hnobody (hheld p (.inr hstate))⟩

/-- Two spawns under one name, section by section, the second one behind. -/
def spawnTwice : List LocalAction :=
  ([.atomic (.registerComponent "worker"), .beginSpawn 0 "worker" (some "db"),
    .beginSpawn 1 "worker" (some "db"), .advance 0, .advance 1, .advance 0,
    .advance 1, .advance 0, .advance 1, .advance 0, .advance 1, .advance 1,
    .advance 1] : List CallAction).map .call

/-- Both spawns found the name free, and one of them got it. -/
theorem name_races_have_one_winner_spawnTwice :
    ∃ s, Run (step "db") CountsUp (start ⟨1⟩) s ∧ s.winners = [⟨⟨1⟩, 1⟩] ∧
      s.losers = [⟨⟨1⟩, 2⟩] ∧ s.reg.names.lookup "db" = some ⟨⟨1⟩, 1⟩ ∧
      ⟨⟨1⟩, 2⟩ ∉ s.reg.particles ∧ ¬ s.reg.Alive ⟨⟨1⟩, 2⟩ := by
  obtain ⟨s, h, hwinners, hlosers⟩ : ∃ s,
      Run (step "db") CountsUp (start ⟨1⟩) s ∧ s.winners = [⟨⟨1⟩, 1⟩] ∧
        s.losers = [⟨⟨1⟩, 2⟩] :=
    exec_run_of_any spawnTwice (by decide +kernel)
  obtain ⟨-, hbound, -, hclean⟩ :=
    name_races_have_one_winner ⟨1⟩ "db" (h.mono fun _ => trivial)
  have hlost : (⟨⟨1⟩, 2⟩ : Pid) ∈ s.losers := by
    rw [hlosers]
    exact List.mem_singleton.2 rfl
  refine ⟨s, h, hwinners, hlosers, hbound _ ?_, hclean h _ hlost⟩
  rw [hwinners]
  exact List.mem_singleton.2 rfl

end NameRace

end Plasmoid
