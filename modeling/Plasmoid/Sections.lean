import Plasmoid.Calls

/-!
# What a critical section does

`critical` performs one section of a call.  `Follows` and `Returns` say what
it leaves of the call: the section that comes next, and the particle that a
spawn returns.  The lemmas named after a table of the registry say what it does
to that table.

Every spawn in progress holds a pid of its own, as long as the pid counter does
not wrap around.  That is `SpawnsApart`.
-/

namespace Plasmoid

/-- The next section of the call draws a pid. -/
def PendingCall.draws : PendingCall → Bool
  | .spawnDraw .. => true
  | _ => false

/-! ## What a section leaves -/

namespace ParticleRegistry

/-- The call `call` goes on as the other one after its section. -/
inductive Follows (reg : ParticleRegistry) : PendingCall → PendingCall → Prop
  | drawn {component : String} {name : Option String}
      (hloaded : component ∈ reg.components) :
      Follows reg (.spawnDraw component name)
        (.spawnEntry reg.pidGen.peek component name)
  | entered {pid : Pid} {component : String} {name : Option String} :
      Follows reg (.spawnEntry pid component name) (.spawnState pid name)
  | inserted {pid : Pid} {n : String} :
      Follows reg (.spawnState pid (some n)) (.spawnBind pid n)
  | refused {pid : Pid} {n : String} (htaken : n ∈ reg.names) :
      Follows reg (.spawnBind pid n) (.spawnUndoState pid n)
  | undone {pid : Pid} {n : String} :
      Follows reg (.spawnUndoState pid n) (.spawnUndoEntry pid n)
  | taken {pid : Pid} {st : ParticleState} {reason : ExitReason} {rest : List Pid}
      (hst : reg.state pid = some st) :
      Follows reg (.exitTake pid reason rest) (.exitEntry pid st reason rest)
  | skipped {pid x : Pid} {reason : ExitReason} {rest : List Pid}
      (hst : reg.state pid = none) :
      Follows reg (.exitTake pid reason (x :: rest)) (.exitTake x reason rest)
  | removed {pid : Pid} {st : ParticleState} {reason : ExitReason} {rest : List Pid} :
      Follows reg (.exitEntry pid st reason rest) (.exitNames pid st reason rest)
  | unnamed {pid : Pid} {st : ParticleState} {reason : ExitReason} {rest : List Pid} :
      Follows reg (.exitNames pid st reason rest)
        (.exitPublish pid st (reg.namesHeld pid).head? reason rest)
  | published {pid : Pid} {st : ParticleState} {name : Option String}
      {reason : ExitReason} {rest : List Pid} :
      Follows reg (.exitPublish pid st name reason rest)
        (.exitUnhook pid st reason rest)
  | unhooked {pid : Pid} {st : ParticleState} {reason : ExitReason}
      {rest : List Pid} :
      Follows reg (.exitUnhook pid st reason rest)
        (.exitSignal reason
          (signalsToSend pid reason (unhook reg.particleStates pid st reason))
          ((unhook reg.particleStates pid st reason).cascadeKills ++ rest))
  | signalled {reason : ExitReason} {send : Pid × SystemMessage}
      {sends : List (Pid × SystemMessage)} {rest : List Pid} :
      Follows reg (.exitSignal reason (send :: sends) rest)
        (.exitSignal reason sends rest)
  | cascaded {x : Pid} {reason : ExitReason} {rest : List Pid} :
      Follows reg (.exitSignal reason [] (x :: rest)) (.exitTake x reason rest)

theorem follows_critical {reg : ParticleRegistry} {call next : PendingCall}
    (h : (reg.critical call).2.pending = some next) : reg.Follows call next := by
  cases call with
  | spawnDraw component name =>
    rw [critical] at h
    split at h
    · cases h
      exact .drawn ‹_›
    · cases h
  | spawnEntry pid component name =>
    cases h
    exact .entered
  | spawnState pid name =>
    cases name with
    | none => cases h
    | some n =>
      cases h
      exact .inserted
  | spawnBind pid n =>
    rw [critical] at h
    split at h
    · cases h
      exact .refused ‹_›
    · cases h
  | spawnUndoState pid n =>
    cases h
    exact .undone
  | spawnUndoEntry pid n => cases h
  | exitTake pid reason rest =>
    rw [critical] at h
    split at h
    · cases rest with
      | nil => cases h
      | cons x rest =>
        cases h
        exact .skipped ‹_›
    · cases h
      exact .taken ‹_›
  | exitEntry pid st reason rest =>
    cases h
    exact .removed
  | exitNames pid st reason rest =>
    cases h
    exact .unnamed
  | exitPublish pid st name reason rest =>
    cases h
    exact .published
  | exitUnhook pid st reason rest =>
    cases h
    exact .unhooked
  | exitSignal reason sends rest =>
    cases sends with
    | nil =>
      cases rest with
      | nil => cases h
      | cons x rest =>
        cases h
        exact .cascaded
    | cons send sends =>
      cases h
      exact .signalled

/-- A spawn returns a particle that it has just inserted, or bound. -/
inductive Returns (reg : ParticleRegistry) : PendingCall → Pid → Prop
  | inserted {pid : Pid} : Returns reg (.spawnState pid none) pid
  | bound {pid : Pid} {n : String} (hfree : n ∉ reg.names) :
      Returns reg (.spawnBind pid n) pid

theorem returns_critical {reg : ParticleRegistry} {call : PendingCall} {pid : Pid}
    (h : (reg.critical call).2.born = some pid) : reg.Returns call pid := by
  cases call with
  | spawnDraw component name =>
    rw [critical] at h
    split at h <;> cases h
  | spawnState pid name =>
    cases name with
    | none =>
      cases h
      exact .inserted
    | some n => cases h
  | spawnBind pid n =>
    rw [critical] at h
    split at h
    · cases h
    · cases h
      exact .bound ‹_›
  | exitTake pid reason rest =>
    rw [critical] at h
    split at h
    · cases rest <;> cases h
    · cases h
  | exitSignal reason sends rest =>
    cases sends with
    | nil => cases rest <;> cases h
    | cons send sends => cases h
  | spawnEntry | spawnUndoState | spawnUndoEntry | exitEntry | exitNames
  | exitPublish | exitUnhook => cases h

end ParticleRegistry

/-! ## What a section does to the tables -/

/-- The state of `x` once the dead `pid`, which had state `st`, is unhooked
from it. -/
def unhookFrom (pid : Pid) (st : ParticleState) (x : Pid) (s : ParticleState) :
    ParticleState :=
  { s with
    links := if x ∈ st.links then s.links.remove pid else s.links
    monitors := ParticleRegistry.dropRefs (ParticleRegistry.firedRefs st x)
      s.monitors }

namespace PendingCall

/-- What the next section of a call makes of the state of `x`. -/
def onState (call : PendingCall) (x : Pid) (o : Option ParticleState) :
    Option ParticleState :=
  match call with
  | .spawnState pid _ => if x = pid then some .new else o
  | .spawnUndoState pid _ | .exitTake pid _ _ => if x = pid then none else o
  | .exitUnhook pid st _ _ => o.map (unhookFrom pid st x)
  | .exitSignal _ ((y, msg) :: _) _ => o.map fun s =>
    if x = y then { s with mailbox := s.mailbox.pushSystem msg } else s
  | _ => o

end PendingCall

namespace ParticleRegistry

theorem state_critical (reg : ParticleRegistry) (call : PendingCall) (x : Pid) :
    (reg.critical call).1.state x = call.onState x (reg.state x) := by
  cases call with
  | spawnDraw component name =>
    rw [critical]
    split <;> rfl
  | spawnEntry pid component name => rfl
  | spawnState pid name => exact Table.lookup_insert_eq _ _ _ _
  | spawnBind pid n =>
    rw [critical]
    split <;> rfl
  | spawnUndoState pid n => exact state_removeState reg pid x
  | spawnUndoEntry pid n => rfl
  | exitTake pid reason rest =>
    cases hst : reg.state pid with
    | none =>
      have hsame : (reg.critical (.exitTake pid reason rest)).1 = reg := by
        rw [critical, hst]
      rw [hsame, PendingCall.onState]
      split
      · rename_i hx
        rw [hx, hst]
      · rfl
    | some st =>
      have htaken : (reg.critical (.exitTake pid reason rest)).1 =
          reg.removeState pid := by
        rw [critical, hst]
      rw [htaken]
      exact state_removeState reg pid x
  | exitEntry pid st reason rest => rfl
  | exitNames pid st reason rest => rfl
  | exitPublish pid st name reason rest => rfl
  | exitUnhook pid st reason rest => exact lookup_unhook _ pid st reason x
  | exitSignal reason sends rest =>
    cases sends with
    | nil => rfl
    | cons d sends => exact state_sendSystem reg d.1 x d.2

/-- Only the draw of a spawn moves the pid counter. -/
theorem pidGen_critical (reg : ParticleRegistry) (call : PendingCall) :
    (reg.critical call).1.pidGen = reg.pidGen ∨
      call.draws = true ∧
        (reg.critical call).1.pidGen = reg.pidGen.next.2 := by
  cases call with
  | spawnDraw component name =>
    rw [critical]
    split
    · exact .inr ⟨rfl, rfl⟩
    · exact .inl rfl
  | spawnBind pid n =>
    rw [critical]
    split <;> exact .inl rfl
  | exitTake pid reason rest =>
    rw [critical]
    split <;> exact .inl rfl
  | exitSignal reason sends rest =>
    cases sends with
    | nil => exact .inl rfl
    | cons d sends => exact .inl rfl
  | spawnEntry | spawnState | spawnUndoState | spawnUndoEntry | exitEntry
  | exitNames | exitPublish | exitUnhook => exact .inl rfl

end ParticleRegistry

/-- The next pid has been drawn before the counter of the next draw, unless
that wraps around. -/
theorem PidGenerator.peek_lt_next {gen : PidGenerator}
    (h : gen.nextSeq.toNat + 1 < 2 ^ 64) :
    gen.peek.seq.toNat < gen.next.2.nextSeq.toNat := by
  show gen.nextSeq.toNat < (gen.nextSeq + 1).toNat
  rw [UInt64.toNat_add]
  exact lt_of_lt_of_eq (Nat.lt_succ_self _) (Nat.mod_eq_of_lt h).symm

theorem ParticleRegistry.lt_nextSeq_critical {reg : ParticleRegistry}
    {call : PendingCall}
    (hcount : call.draws = true → reg.pidGen.nextSeq.toNat + 1 < 2 ^ 64) {m : Nat}
    (h : m < reg.pidGen.nextSeq.toNat) :
    m < (reg.critical call).1.pidGen.nextSeq.toNat := by
  rcases reg.pidGen_critical call with hgen | ⟨hdraw, hgen⟩
  · rwa [hgen]
  · rw [hgen]
    exact h.trans (PidGenerator.peek_lt_next (hcount hdraw))

namespace ParticleRegistry

theorem lookup_bindName (reg : ParticleRegistry) (name : String) (pid : Pid)
    (n : String) : (reg.bindName name pid).names.lookup n =
      if n = name then some pid else reg.names.lookup n :=
  Table.lookup_insert_eq _ _ _ _

/-- Only the bind of a spawn and the scan of an exit touch the name table. -/
theorem names_critical (reg : ParticleRegistry) {call : PendingCall}
    (hbind : ∀ pid n, call ≠ .spawnBind pid n)
    (hscan : ∀ pid st reason rest, call ≠ .exitNames pid st reason rest) :
    (reg.critical call).1.names = reg.names := by
  cases call with
  | spawnBind pid n => exact absurd rfl (hbind pid n)
  | exitNames pid st reason rest => exact absurd rfl (hscan pid st reason rest)
  | spawnDraw component name =>
    rw [critical]
    split <;> rfl
  | exitTake pid reason rest =>
    rw [critical]
    split <;> rfl
  | exitSignal reason sends rest =>
    cases sends with
    | nil => rfl
    | cons d sends => rfl
  | spawnEntry | spawnState | spawnUndoState | spawnUndoEntry | exitEntry
  | exitPublish | exitUnhook => rfl

/-- A name that is bound after a section was bound before it, and not scanned
by the exit of its owner, or the section is the bind. -/
theorem lookup_names_critical {reg : ParticleRegistry} {call : PendingCall}
    {n : String} {q : Pid}
    (h : (reg.critical call).1.names.lookup n = some q) :
    (reg.names.lookup n = some q ∧
        ∀ st reason rest, call ≠ .exitNames q st reason rest) ∨
      n ∉ reg.names ∧ call = .spawnBind q n := by
  by_cases hbind : ∃ pid m, call = .spawnBind pid m
  · obtain ⟨pid, m, rfl⟩ := hbind
    rw [critical] at h
    split at h
    · refine .inl ⟨h, fun st reason rest heq => ?_⟩
      cases heq
    · rename_i hfree
      rw [lookup_bindName] at h
      split at h
      · rename_i hm
        cases h
        subst hm
        exact .inr ⟨hfree, rfl⟩
      · refine .inl ⟨h, fun st reason rest heq => ?_⟩
        cases heq
  by_cases hscan : ∃ pid st reason rest, call = .exitNames pid st reason rest
  · obtain ⟨pid, st, reason, rest, rfl⟩ := hscan
    have hlookup := (reg.lookup_dropNames pid n).symm.trans h
    rw [Option.filter_eq_some_iff] at hlookup
    obtain ⟨hold, howner⟩ := hlookup
    refine .inl ⟨hold, ?_⟩
    rintro st' reason' rest' heq
    cases heq
    exact absurd rfl (of_decide_eq_true howner)
  · have hbind' : ∀ pid m, call ≠ .spawnBind pid m :=
      fun pid m heq => hbind ⟨pid, m, heq⟩
    have hscan' : ∀ pid st reason rest, call ≠ .exitNames pid st reason rest :=
      fun pid st reason rest heq => hscan ⟨pid, st, reason, rest, heq⟩
    rw [reg.names_critical hbind' hscan'] at h
    exact .inl ⟨h, hscan' q⟩

/-- Whoever is alive before a section stays alive, or is taken by an exit, or
is rolled back. -/
theorem alive_or_taken {reg : ParticleRegistry} (call : PendingCall) {x : Pid}
    (hx : reg.Alive x) :
    (reg.critical call).1.Alive x ∨
      (∃ st reason rest,
        (reg.critical call).2.pending = some (.exitEntry x st reason rest)) ∨
      ∃ n, call = .spawnUndoState x n := by
  obtain ⟨st, hst⟩ := alive_iff.1 hx
  by_cases htake : ∃ reason rest, call = .exitTake x reason rest
  · obtain ⟨reason, rest, rfl⟩ := htake
    refine .inr (.inl ⟨st, reason, rest, ?_⟩)
    rw [critical, hst]
    rfl
  by_cases hundo : ∃ n, call = .spawnUndoState x n
  · exact .inr (.inr hundo)
  refine .inl (alive_iff.2 ?_)
  rw [state_critical, hst]
  cases call with
  | spawnState pid name =>
    rw [PendingCall.onState]
    split <;> exact ⟨_, rfl⟩
  | spawnUndoState pid n =>
    refine ⟨st, if_neg ?_⟩
    rintro rfl
    exact hundo ⟨n, rfl⟩
  | exitTake pid reason rest =>
    refine ⟨st, if_neg ?_⟩
    rintro rfl
    exact htake ⟨reason, rest, rfl⟩
  | exitSignal reason sends rest =>
    cases sends with
    | nil => exact ⟨st, rfl⟩
    | cons d sends => exact ⟨_, rfl⟩
  | spawnDraw | spawnEntry | spawnBind | spawnUndoEntry | exitEntry | exitNames
  | exitPublish | exitUnhook => exact ⟨_, rfl⟩

end ParticleRegistry

namespace CallsInProgress

/-- No call is in progress. -/
theorem lookup_ne_of_idle {s : CallsInProgress} (h : s.calls.keys = []) (id : Nat)
    (call : PendingCall) : s.calls.lookup id ≠ some call := by
  intro hcall
  have hmem : id ∈ s.calls.keys := Table.lookup_some_mem hcall
  rw [h] at hmem
  cases hmem

/-- Only the insertion of a spawn brings somebody to life. -/
theorem alive_critical {reg : ParticleRegistry} {call : PendingCall} {q : Pid}
    (h : (reg.critical call).1.Alive q) :
    reg.Alive q ∨ ∃ name, call = .spawnState q name := by
  rw [ParticleRegistry.alive_iff] at h ⊢
  obtain ⟨s', hs'⟩ := h
  rw [ParticleRegistry.state_critical] at hs'
  cases call with
  | spawnState pid name =>
    by_cases hq : q = pid
    · exact .inr ⟨name, by rw [hq]⟩
    · rw [PendingCall.onState, if_neg hq] at hs'
      exact .inl ⟨s', hs'⟩
  | spawnUndoState pid name =>
    rw [PendingCall.onState] at hs'
    split at hs'
    · cases hs'
    · exact .inl ⟨s', hs'⟩
  | exitTake pid reason rest =>
    rw [PendingCall.onState] at hs'
    split at hs'
    · cases hs'
    · exact .inl ⟨s', hs'⟩
  | exitUnhook pid st reason rest =>
    obtain ⟨s₀, hs₀, -⟩ := Option.map_eq_some_iff.1 hs'
    exact .inl ⟨s₀, hs₀⟩
  | exitSignal reason sends rest =>
    cases sends with
    | nil => exact .inl ⟨s', hs'⟩
    | cons d sends =>
      obtain ⟨s₀, hs₀, -⟩ := Option.map_eq_some_iff.1 hs'
      exact .inl ⟨s₀, hs₀⟩
  | spawnDraw | spawnEntry | spawnBind | spawnUndoEntry | exitEntry | exitNames
  | exitPublish => exact .inl ⟨s', hs'⟩

/-- A call that holds a pid after a section is the one that took it, or held
the pid before. -/
theorem holds_settle {s : CallsInProgress} {id id' : Nat} {call' : PendingCall}
    {reg : ParticleRegistry} {p : Progress} {holds : PendingCall → Option Pid}
    {q : Pid} (h : (s.settle id reg p).calls.lookup id' = some call')
    (hq : holds call' = some q) :
    id' = id ∧ p.pending.bind holds = some q ∨
      id' ≠ id ∧ s.calls.lookup id' = some call' := by
  rw [lookup_settle] at h
  split at h
  · exact .inl ⟨‹_›, by rw [h, Option.bind_some, hq]⟩
  · exact .inr ⟨‹_›, h⟩

/-- Calls that hold pids of their own still do after a section that takes none
from another call. -/
theorem apart_settle {s : CallsInProgress} {id : Nat} {reg : ParticleRegistry}
    {p : Progress} {holds : PendingCall → Option Pid}
    (hapart : ∀ id id' call call' q, s.calls.lookup id = some call →
      s.calls.lookup id' = some call' → holds call = some q →
      holds call' = some q → id = id')
    (hother : ∀ id' call' q, id' ≠ id → s.calls.lookup id' = some call' →
      holds call' = some q → p.pending.bind holds ≠ some q)
    (id₁ id₂ : Nat) (call₁ call₂ : PendingCall) (q : Pid)
    (h₁ : (s.settle id reg p).calls.lookup id₁ = some call₁)
    (h₂ : (s.settle id reg p).calls.lookup id₂ = some call₂)
    (hq₁ : holds call₁ = some q) (hq₂ : holds call₂ = some q) : id₁ = id₂ := by
  rcases holds_settle h₁ hq₁ with ⟨hid₁, hnew₁⟩ | ⟨hne₁, h₁'⟩ <;>
    rcases holds_settle h₂ hq₂ with ⟨hid₂, hnew₂⟩ | ⟨hne₂, h₂'⟩
  · exact hid₁.trans hid₂.symm
  · exact absurd hnew₁ (hother id₂ call₂ q hne₂ h₂' hq₂)
  · exact absurd hnew₂ (hother id₁ call₁ q hne₁ h₁' hq₁)
  · exact hapart id₁ id₂ call₁ call₂ q h₁' h₂' hq₁ hq₂

/-! ## The pids of spawns -/

/-- The pid that a spawn holds after a section: it held it before, or it is
the next pid and was drawn. -/
theorem spawning_critical {reg : ParticleRegistry} {call : PendingCall} {q : Pid}
    (h : (reg.critical call).2.pending.bind PendingCall.spawning = some q) :
    call.spawning = some q ∨ q = reg.pidGen.peek ∧ call.draws = true ∧
      (reg.critical call).1.pidGen = reg.pidGen.next.2 := by
  obtain ⟨next, hnext, hq⟩ := Option.bind_eq_some_iff.1 h
  cases ParticleRegistry.follows_critical hnext with
  | drawn hloaded =>
    cases hq
    refine .inr ⟨rfl, rfl, ?_⟩
    rw [ParticleRegistry.critical, if_pos hloaded]
    rfl
  | entered | inserted | refused | undone => exact .inl hq
  | taken | skipped | removed | unnamed | published | unhooked | signalled
  | cascaded => cases hq

/-- A spawn returns the pid that it held. -/
theorem born_critical {reg : ParticleRegistry} {call : PendingCall} {q : Pid}
    (h : (reg.critical call).2.born = some q) : call.spawning = some q := by
  cases ParticleRegistry.returns_critical h with
  | inserted | bound => rfl

/-- Every spawn in progress holds a pid of its own, which no spawn has
returned. -/
structure SpawnsApart (s : CallsInProgress) : Prop where
  fresh : ∀ id call p, s.calls.lookup id = some call →
    call.spawning = some p → p ∉ s.hosted
  distinct : ∀ id id' call call' p, s.calls.lookup id = some call →
    s.calls.lookup id' = some call' → call.spawning = some p →
    call'.spawning = some p → id = id'
  counted : ∀ p, (p ∈ s.hosted ∨ ∃ id call, s.calls.lookup id = some call ∧
    call.spawning = some p) → p.seq.toNat < s.reg.pidGen.nextSeq.toNat

theorem spawnsApart_idle (node : EndpointId) : SpawnsApart (idle (.new node)) where
  fresh _ _ _ h := by cases h
  distinct _ _ _ _ _ h := by cases h
  counted p h := by
    rcases h with h | ⟨id, call, h, -⟩
    · exact absurd h (KeySet.not_mem_empty p)
    · cases h

/-- A call that begins holds no pid. -/
theorem SpawnsApart.begin {s : CallsInProgress} (h : SpawnsApart s) (id : Nat)
    {call : PendingCall} (hspawn : call.spawning = none) :
    SpawnsApart { s with calls := s.calls.insert id call } := by
  have hold : ∀ id' call' p, (s.calls.insert id call).lookup id' = some call' →
      call'.spawning = some p → s.calls.lookup id' = some call' := by
    intro id' call' p hcall' hp
    rw [Table.lookup_insert_eq] at hcall'
    split at hcall'
    · cases hcall'
      rw [hspawn] at hp
      cases hp
    · exact hcall'
  refine ⟨?_, ?_, ?_⟩
  · intro id' call' p hcall' hp
    exact h.fresh id' call' p (hold id' call' p hcall' hp) hp
  · intro id₁ id₂ call₁ call₂ p h₁ h₂ hp₁ hp₂
    exact h.distinct id₁ id₂ call₁ call₂ p (hold id₁ call₁ p h₁ hp₁)
      (hold id₂ call₂ p h₂ hp₂) hp₁ hp₂
  · intro p hp
    refine h.counted p (hp.imp_right ?_)
    rintro ⟨id', call', hcall', hp⟩
    exact ⟨id', call', hold id' call' p hcall' hp, hp⟩

/-- Only drawing a pid matters to whose it is. -/
theorem SpawnsApart.setReg {s : CallsInProgress} (h : SpawnsApart s)
    {reg : ParticleRegistry} (hgen : reg.pidGen = s.reg.pidGen) :
    SpawnsApart { s with reg } where
  fresh := h.fresh
  distinct := h.distinct
  counted p hp := by
    rw [hgen]
    exact h.counted p hp

/-- The next section of a call keeps the pids apart. -/
theorem SpawnsApart.settle {s : CallsInProgress} (h : SpawnsApart s) {id : Nat}
    {call : PendingCall} (hcall : s.calls.lookup id = some call)
    (hcount : call.draws = true →
      s.reg.pidGen.nextSeq.toNat + 1 < 2 ^ 64) :
    SpawnsApart (s.settle id (s.reg.critical call).1 (s.reg.critical call).2) := by
  have hgrows : ∀ {m : Nat}, m < s.reg.pidGen.nextSeq.toNat →
      m < (s.reg.critical call).1.pidGen.nextSeq.toNat :=
    ParticleRegistry.lt_nextSeq_critical hcount
  -- The next pid is not in use.
  have hpeek : ∀ q, (q ∈ s.hosted ∨ ∃ id call, s.calls.lookup id = some call ∧
      call.spawning = some q) → q ≠ s.reg.pidGen.peek := by
    rintro q hq rfl
    exact Nat.lt_irrefl _ (h.counted _ hq)
  have hother : ∀ id' call' q, id' ≠ id → s.calls.lookup id' = some call' →
      call'.spawning = some q →
      (s.reg.critical call).2.pending.bind PendingCall.spawning ≠ some q := by
    intro id' call' q hne h' hq hnew
    rcases spawning_critical hnew with hold | ⟨heq, -, -⟩
    · exact hne (h.distinct id' id call' call q h' hcall hq hold)
    · exact hpeek q (.inr ⟨id', call', h', hq⟩) heq
  refine ⟨?_, ?_, ?_⟩
  · intro id' call' q h' hq hhosted
    rw [mem_hosted_settle] at hhosted
    rcases holds_settle h' hq with ⟨-, hnew⟩ | ⟨hne, h'⟩
    · rcases hhosted with hborn | hhosted
      · -- A call that is still in progress has returned nothing.
        rcases hp : (s.reg.critical call).2 with next | result | _ <;>
          rw [hp] at hnew hborn <;> first | cases hnew | cases hborn
      · rcases spawning_critical hnew with hold | ⟨heq, -, -⟩
        · exact h.fresh id call q hcall hold hhosted
        · exact hpeek q (.inl hhosted) heq
    · rcases hhosted with hborn | hhosted
      · exact hne (h.distinct id' id call' call q h' hcall hq (born_critical hborn))
      · exact h.fresh id' call' q h' hq hhosted
  · exact apart_settle h.distinct hother
  · intro q hq
    rw [reg_settle]
    have hknown : (q ∈ s.hosted ∨ ∃ id call, s.calls.lookup id = some call ∧
        call.spawning = some q) →
        q.seq.toNat < (s.reg.critical call).1.pidGen.nextSeq.toNat :=
      fun hq => hgrows (h.counted q hq)
    rcases hq with hhosted | ⟨id', call', h', hq⟩
    · rw [mem_hosted_settle] at hhosted
      rcases hhosted with hborn | hhosted
      · exact hknown (.inr ⟨id, call, hcall, born_critical hborn⟩)
      · exact hknown (.inl hhosted)
    · rcases holds_settle h' hq with ⟨-, hnew⟩ | ⟨-, h'⟩
      · rcases spawning_critical hnew with hold | ⟨heq, hdraw, hgen⟩
        · exact hknown (.inr ⟨id, call, hcall, hold⟩)
        · rw [heq, hgen]
          exact PidGenerator.peek_lt_next (hcount hdraw)
      · exact hknown (.inr ⟨id', call', h', hq⟩)

end CallsInProgress

end Plasmoid
