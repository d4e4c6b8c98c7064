import Plasmoid.Sections
import Plasmoid.SpawnCalls

/-!
# What becomes of spawn calls

There are three groups.

* `KeepsReplies` says what the operations of a node do to the spawn replies in
  its mailboxes.  `keepsReplies_perform` covers all of them.
* `handler_runs_handleSpawn`: the steps of a handler, with nothing in between,
  are `handle_spawn`.
* `SpawnNetInv` is the invariant.  Every pid that a registry draws belongs to
  one spawn, a call has the particle that its phase says, and the replies that
  a living particle has or has received are the outcomes of its requests.
-/

namespace Plasmoid

open Machine

/-! ## Spawn replies in mailboxes -/

namespace Mailbox

/-- The spawn replies in the queue. -/
def replies (m : Mailbox) : List MailboxMessage :=
  m.queue.filter MailboxMessage.isSpawnReply

/-- The mailbox is as open, and holds the same spawn replies. -/
structure SameReplies (m m' : Mailbox) : Prop where
  closed : m'.closed = m.closed
  replies : m'.replies = m.replies

variable {m m' m'' : Mailbox}

theorem SameReplies.refl (m : Mailbox) : SameReplies m m := ⟨rfl, rfl⟩

theorem SameReplies.trans (h : SameReplies m m') (h' : SameReplies m' m'') :
    SameReplies m m'' :=
  ⟨h'.closed.trans h.closed, h'.replies.trans h.replies⟩

theorem isSpawnReply_toMailbox (msg : SystemMessage) :
    msg.toMailbox.isSpawnReply = false := by
  cases msg <;> rfl

theorem sameReplies_pushSystem (m : Mailbox) (msg : SystemMessage) :
    SameReplies m (m.pushSystem msg) := by
  refine ⟨rfl, ?_⟩
  show (msg.toMailbox :: m.queue).filter _ = _
  rw [List.filter_cons, isSpawnReply_toMailbox]
  rfl

theorem sameReplies_signals (m : Mailbox) (msgs : List SystemMessage) :
    SameReplies m
      { m with queue := (msgs.map SystemMessage.toMailbox).reverse ++ m.queue } := by
  refine ⟨rfl, ?_⟩
  have hnone : ((msgs.map SystemMessage.toMailbox).reverse).filter
      MailboxMessage.isSpawnReply = [] := by
    simp [isSpawnReply_toMailbox]
  show (_ ++ m.queue).filter _ = _
  rw [List.filter_append, hnone]
  rfl

theorem replies_pushSpawnReply (hopen : m.closed = false) (refId : UInt64)
    (outcome : Pid ⊕ SpawnFailure) :
    (m.pushSpawnReply refId outcome).replies =
      m.replies ++ [.spawnReply refId outcome] := by
  simp [pushSpawnReply, hopen, replies, MailboxMessage.isSpawnReply]

theorem closed_pushSpawnReply (m : Mailbox) (refId : UInt64)
    (outcome : Pid ⊕ SpawnFailure) :
    (m.pushSpawnReply refId outcome).closed = m.closed := by
  unfold pushSpawnReply
  split
  · rfl
  · rfl

/-- A receive moves at most one spawn reply out of the mailbox. -/
theorem replies_turn (m : Mailbox) (call : Receive) :
    (m.turn call).2.closed = m.closed ∧
      ((m.turn call).1.replies ++ (m.turn call).2.replies).Perm m.replies := by
  rw [turn_eq]
  cases htake : takeFirst call.accepts m.queue with
  | none =>
    refine ⟨rfl, ?_⟩
    cases hclosed : m.closed
    · exact .refl _
    · exact .refl _
  | some x =>
    obtain ⟨msg, rest⟩ := x
    obtain ⟨before, behind, hqueue, rfl, -, -⟩ := takeFirst_eq_some.1 htake
    refine ⟨rfl, ?_⟩
    show ([msg].filter _ ++ (before ++ behind).filter _).Perm (m.queue.filter _)
    rw [hqueue, ← List.filter_append]
    have hmiddle : (before ++ msg :: behind).Perm (msg :: (before ++ behind)) :=
      List.perm_middle
    exact hmiddle.symm.filter _

end Mailbox

namespace ParticleRegistry

/-- Whoever is alive was alive, with the same spawn replies. -/
def KeepsReplies (reg reg' : ParticleRegistry) : Prop :=
  ∀ p st', reg'.state p = some st' →
    ∃ st, reg.state p = some st ∧ st.mailbox.SameReplies st'.mailbox

variable {reg reg' reg'' : ParticleRegistry}

theorem KeepsReplies.of_state (h : ∀ p, reg'.state p = reg.state p) :
    KeepsReplies reg reg' := by
  intro p st' hst'
  exact ⟨st', (h p).symm.trans hst', .refl _⟩

theorem KeepsReplies.refl (reg : ParticleRegistry) : KeepsReplies reg reg :=
  .of_state fun _ => rfl

theorem KeepsReplies.trans (h : KeepsReplies reg reg')
    (h' : KeepsReplies reg' reg'') : KeepsReplies reg reg'' := by
  intro p st'' hst''
  obtain ⟨st', hst', hsame'⟩ := h' p st'' hst''
  obtain ⟨st, hst, hsame⟩ := h p st' hst'
  exact ⟨st, hst, hsame.trans hsame'⟩

theorem keepsReplies_modifyState (reg : ParticleRegistry) (pid : Pid)
    {f : ParticleState → ParticleState}
    (hf : ∀ st : ParticleState, st.mailbox.SameReplies (f st).mailbox) :
    KeepsReplies reg (reg.modifyState pid f) := by
  intro p st' hst'
  rw [state_modifyState] at hst'
  split at hst'
  · obtain ⟨st, hst, rfl⟩ := Option.map_eq_some_iff.1 hst'
    exact ⟨st, hst, hf st⟩
  · exact ⟨st', hst', .refl _⟩

/-- An update that leaves the mailbox alone. -/
theorem keepsReplies_of_mailbox (reg : ParticleRegistry) (pid : Pid)
    {f : ParticleState → ParticleState} (hf : ∀ st, (f st).mailbox = st.mailbox) :
    KeepsReplies reg (reg.modifyState pid f) := by
  apply keepsReplies_modifyState
  intro st
  rw [hf]
  exact .refl _

theorem keepsReplies_performSection (reg : ParticleRegistry) (op : SectionOp) :
    KeepsReplies reg (reg.performSection op) := by
  cases op with
  | registerComponent component => exact .of_state fun _ => rfl
  | link a b =>
    show KeepsReplies reg (reg.link a b).1
    unfold link
    split
    · exact .refl reg
    · split
      · exact .refl reg
      · refine (keepsReplies_of_mailbox reg a ?_).trans
          (keepsReplies_of_mailbox _ b ?_)
        · exact fun _ => rfl
        · exact fun _ => rfl
  | setTrapExit pid enabled => exact keepsReplies_of_mailbox reg pid fun _ => rfl
  | linkRemote loc remote => exact keepsReplies_of_mailbox reg loc fun _ => rfl
  | unlinkRemote loc remote => exact keepsReplies_of_mailbox reg loc fun _ => rfl
  | monitorRemote watcher target refId =>
    refine (keepsReplies_of_mailbox reg watcher ?_).trans
      (keepsReplies_of_mailbox _ target ?_)
    · exact fun _ => rfl
    · exact fun _ => rfl
  | deliverExit target source reason =>
    exact keepsReplies_modifyState reg target fun st =>
      Mailbox.sameReplies_pushSystem st.mailbox _
  | deliverDown target source refId reason =>
    exact keepsReplies_modifyState reg target fun st =>
      Mailbox.sameReplies_pushSystem st.mailbox _
  | forgetNode node =>
    intro p st' hst'
    have hstate : (reg.forgetNode node).state p = some st' := hst'
    rw [forgetNode, state, Table.lookup_mapValues] at hstate
    obtain ⟨st, hst, rfl⟩ := Option.map_eq_some_iff.1 hstate
    exact ⟨st, hst, .refl _⟩

theorem keepsReplies_exitParticle (reg : ParticleRegistry) (pid : Pid)
    (reason : ExitReason) : KeepsReplies reg (reg.exitParticle pid reason) := by
  by_cases hp : reg.Alive pid
  · obtain ⟨D, hD⟩ := exitParticle_exact reason hp
    intro p st' hst'
    obtain ⟨halive, hmem⟩ := (hD.alive p).1 (alive_iff.2 ⟨st', hst'⟩)
    obtain ⟨st, hst⟩ := alive_iff.1 halive
    obtain ⟨st'', hst'', hsurvives⟩ := hD.survivors p st hst hmem
    obtain rfl : st' = st'' := Option.some_inj.1 (hst'.symm.trans hst'')
    obtain ⟨msgs, hmailbox, -⟩ := hsurvives.received
    rw [hmailbox]
    exact ⟨st, hst, Mailbox.sameReplies_signals st.mailbox msgs⟩
  · rw [exitParticle_of_dead reason hp]
    exact .refl reg

theorem keepsReplies_applyInheritedExit (reg : ParticleRegistry)
    (target source : Pid) (reason : ExitReason) :
    KeepsReplies reg (reg.applyInheritedExit target source reason) := by
  cases hs : reg.state target with
  | none =>
    rw [applyInheritedExit_of_dead source reason hs]
    exact .refl reg
  | some st =>
    cases ht : st.trapExit with
    | true =>
      rw [applyInheritedExit_of_trapping source reason hs ht]
      exact keepsReplies_performSection reg (.deliverExit target source reason)
    | false =>
      rw [applyInheritedExit_of_not_trapping source reason hs ht]
      split
      · exact keepsReplies_exitParticle reg target reason
      · exact .refl reg

/-- No operation of a node touches the spawn replies. -/
theorem keepsReplies_perform (reg : ParticleRegistry) (op : RegistryOp) :
    KeepsReplies reg (reg.perform op) := by
  cases op with
  | atomic op => exact keepsReplies_performSection reg op
  | registerName pid name =>
    refine .of_state fun p => ?_
    show (reg.registerName pid name).1.state p = _
    unfold registerName
    split
    · rfl
    · rfl
  | unregisterName pid name =>
    refine .of_state fun p => ?_
    show (reg.unregisterName pid name).1.state p = _
    unfold unregisterName
    split
    · split
      · rfl
      · rfl
    · rfl
  | exit pid reason => exact keepsReplies_exitParticle reg pid reason
  | inheritedExit target source reason =>
    exact keepsReplies_applyInheritedExit reg target source reason
  | directedExit target source reason =>
    show KeepsReplies reg (reg.applyDirectedExit target source reason)
    by_cases h : reason = .kill
    · subst h
      rw [applyDirectedExit_kill]
      exact keepsReplies_exitParticle reg target .killed
    · rw [applyDirectedExit_of_ne_kill source h]
      exact keepsReplies_applyInheritedExit reg target source reason

/-- A spawn that fails leaves the living alone, and one that succeeds adds the
pid that was next. -/
theorem spawnIn_outcome (hfree : ¬ reg.Alive reg.pidGen.peek)
    (ctx : SpawnContext) (args : SpawnArgs) :
    (∃ reg' e, reg.spawnIn ctx args = (reg', .error e) ∧
      (reg'.pidGen = reg.pidGen ∨ reg'.pidGen = reg.pidGen.next.2) ∧
      ∀ p, reg'.state p = reg.state p) ∨
    ∃ reg', reg.spawnIn ctx args = (reg', .ok reg.pidGen.peek) ∧
      Spawns reg reg' := by
  have hspawn : ∀ name, (∃ reg' e, reg.spawn args.component name =
        (reg', .error e) ∧
        (reg'.pidGen = reg.pidGen ∨ reg'.pidGen = reg.pidGen.next.2) ∧
        ∀ p, reg'.state p = reg.state p) ∨
      ∃ reg', reg.spawn args.component name = (reg', .ok reg.pidGen.peek) ∧
        Spawns reg reg' := by
    intro name
    cases hrefused : reg.spawnRefused args.component name with
    | some e => exact Or.inl ⟨reg, e, spawn_of_refused hrefused, Or.inl rfl,
        fun _ => rfl⟩
    | none =>
      obtain ⟨hok, -⟩ := spawn_of_not_refused hrefused
      exact Or.inr ⟨_, Prod.ext rfl hok, (spawn_ok (Prod.ext rfl hok)).2⟩
  unfold spawnIn
  split
  · rename_i name _ _
    left
    cases hrefused : reg.spawnRefused args.component (some name) with
    | some e =>
      refine ⟨reg, e, ?_, Or.inl rfl, fun _ => rfl⟩
      rw [spawnOvertaken, hrefused]
    | none =>
      refine ⟨_, _, by rw [spawnOvertaken, hrefused], Or.inr rfl, ?_⟩
      intro p
      show ((reg.particleStates.insert _ _).erase _).lookup p = _
      rw [Table.lookup_erase_eq, Table.lookup_insert_eq]
      split
      · rename_i hp
        rw [hp]
        exact (not_alive_iff.1 hfree).symm
      · rfl
  · exact hspawn args.name

end ParticleRegistry

/-! ## The steps of a handler -/

namespace SpawnCall

variable {c : SpawnCall} {code : ComponentCode} {reg reg' : ParticleRegistry}

theorem look_of_mem (hc : c.spawn = .looking)
    (hcomponent : c.args.component ∈ reg.components) :
    c.look reg code = some { c with spawn := .entering code } := by
  simp [look, hc, hcomponent]

theorem look_of_not_mem (hc : c.spawn = .looking)
    (hcomponent : c.args.component ∉ reg.components) :
    c.look reg code =
      some { c with spawn := .answered (.error .componentNotFound) } := by
  simp [look, hc, hcomponent]

theorem enter_of_error {overtaken : Bool} {e : String}
    (hc : c.spawn = .entering code)
    (hin : reg.spawnIn ⟨fun _ => code, overtaken⟩ c.args = (reg', .error e)) :
    c.enter reg overtaken =
      some (reg', { c with spawn := .answered (.error .resourceLimit) }) := by
  simp [enter, hc, hin]

theorem enter_of_ok {overtaken : Bool} {pid : Pid} (hc : c.spawn = .entering code)
    (hin : reg.spawnIn ⟨fun _ => code, overtaken⟩ c.args = (reg', .ok pid)) :
    c.enter reg overtaken =
      some (reg', { c with spawn := .starting code pid, taken := some pid }) := by
  simp [enter, hc, hin]

theorem start_of_error {pid : Pid} {e : String} (hc : c.spawn = .starting code pid)
    (hstart : startParticle code c.args.initArgs = .error e) :
    c.start = some { c with spawn := .answered (.error .initFailed) } := by
  simp [start, hc, hstart]

theorem start_of_ok {pid : Pid} {u : Unit} (hc : c.spawn = .starting code pid)
    (hstart : startParticle code c.args.initArgs = .ok u) :
    c.start = some { c with spawn := .answered (.ok pid) } := by
  simp [start, hc, hstart]

end SpawnCall

namespace SpawnNet

variable {s t : SpawnNet} {i : ℕ} {c c' : SpawnCall} {node : EndpointId}

theorem getElem?_setCall (hi : s.calls[i]? = some c) (c' : SpawnCall) :
    (s.setCall i c').calls[i]? = some c' := by
  have hlt : i < s.calls.length := (List.getElem?_eq_some_iff.1 hi).1
  simp [setCall, hlt]

theorem step_look {code : ComponentCode} (hi : s.calls[i]? = some c)
    (htarget : c.target = some node)
    (hlook : c.look (s.regs node) code = some c') :
    s.step (.look i code) = some (s.setCall i c') := by
  simp [step, hi, htarget, hlook]

theorem step_enter {overtaken : Bool} {reg : ParticleRegistry}
    (hi : s.calls[i]? = some c) (htarget : c.target = some node)
    (henter : c.enter (s.regs node) overtaken = some (reg, c')) :
    s.step (.enter i overtaken) = some ((s.setReg node reg).setCall i c') := by
  simp [step, hi, htarget, henter]

theorem step_start (hi : s.calls[i]? = some c) (hstart : c.start = some c') :
    s.step (.start i) = some (s.setCall i c') := by
  simp [step, hi, hstart]

/-- A handler with nothing in between is `handle_spawn`, and a caller that
names its own node runs the same steps as `local_spawn`. -/
theorem handler_runs_handleSpawn (hi : s.calls[i]? = some c)
    (hlooking : c.spawn = .looking) (htarget : c.target = some node)
    (ctx : SpawnContext) :
    ∃ t, Run step anyStep s t ∧
      t.regs node = ((s.regs node).handleSpawn ctx c.args).1 ∧
      t.calls[i]?.map SpawnCall.spawn =
        some (.answered ((s.regs node).handleSpawn ctx c.args).2) := by
  rw [ParticleRegistry.handleSpawn, ParticleRegistry.reporting,
    ParticleRegistry.spawnAndStart]
  let code := ctx.code c.args.component
  by_cases hcomponent : c.args.component ∈ (s.regs node).components
  · rw [if_neg (not_not.2 hcomponent)]
    let looked : SpawnCall := { c with spawn := .entering code }
    have hlook : s.step (.look i code) = some (s.setCall i looked) :=
      step_look hi htarget (SpawnCall.look_of_mem hlooking hcomponent)
    have hi₁ := getElem?_setCall hi looked
    have hspawnIn : (s.regs node).spawnIn ⟨fun _ => code, ctx.overtaken⟩
        looked.args = (s.regs node).spawnIn ctx c.args := rfl
    rcases hin : (s.regs node).spawnIn ctx c.args with ⟨reg, e | pid⟩
    · have henter := step_enter (s := s.setCall i looked) hi₁ htarget
        (SpawnCall.enter_of_error rfl (hspawnIn.trans hin))
      refine ⟨_, (Run.single trivial hlook).trans (Run.single trivial henter),
        if_pos rfl, ?_⟩
      rw [getElem?_setCall (s := (s.setCall i looked).setReg node reg) hi₁]
      rfl
    · let entered : SpawnCall :=
        { looked with spawn := .starting code pid, taken := some pid }
      have henter := step_enter (s := s.setCall i looked) hi₁ htarget
        (SpawnCall.enter_of_ok rfl (hspawnIn.trans hin))
      have hi₂ := getElem?_setCall (s := (s.setCall i looked).setReg node reg)
        hi₁ entered
      have hentered : Run step anyStep s (((s.setCall i looked).setReg node
          reg).setCall i entered) :=
        (Run.single trivial hlook).trans (Run.single trivial henter)
      cases hstarts : startParticle code c.args.initArgs with
      | error e =>
        have hstart := step_start hi₂ (SpawnCall.start_of_error rfl hstarts)
        refine ⟨_, hentered.trans (Run.single trivial hstart), ?_, ?_⟩
        · simp [setCall, setReg]
        · rw [getElem?_setCall hi₂]
          simp [Except.mapError]
      | ok u =>
        have hstart := step_start hi₂ (SpawnCall.start_of_ok rfl hstarts)
        refine ⟨_, hentered.trans (Run.single trivial hstart), ?_, ?_⟩
        · simp [setCall, setReg]
        · rw [getElem?_setCall hi₂]
          simp [Except.mapError]
  · rw [if_pos hcomponent]
    have hlook : s.step (.look i code) = some _ :=
      step_look hi htarget (SpawnCall.look_of_not_mem hlooking hcomponent)
    refine ⟨_, Run.single trivial hlook, rfl, ?_⟩
    rw [getElem?_setCall hi]
    rfl

end SpawnNet

/-! ## One call -/

/-- The particle that a spawn has taken at a phase. -/
def SpawnPhase.Takes (taken : Option Pid) : SpawnPhase → Prop
  | .unasked | .requested | .looking | .entering _ => taken = none
  | .starting _ pid | .answered (.ok pid) => taken = some pid
  | .answered (.error .initFailed) => taken.isSome = true
  | .answered (.error .nodeUnreachable) => False
  | .answered (.error _) => taken = none

namespace SpawnCall

/-- The two sides of a call agree. -/
structure Coherent (c : SpawnCall) : Prop where
  dialling : c.caller = .dialling → c.spawn = .unasked
  outcome : ∀ o, c.outcome = some o → c.spawn = .answered o ∨
    o = .error .nodeUnreachable ∧ c.target ≠ some c.home
  takes : c.spawn.Takes c.taken
  node : ∀ pid, c.taken = some pid → c.target = some pid.node

/-- A step of a call that concerns nobody else. -/
structure Proceeds (c c' : SpawnCall) : Prop where
  coherent : c'.Coherent
  replyTo : c'.replyTo = c.replyTo
  taken : c'.taken = c.taken
  outcome : c'.outcome = c.outcome

variable {c c' : SpawnCall}

theorem coherent_begin (home : EndpointId) (replyTo : Option (Pid × UInt64))
    (target : Option EndpointId) (args : SpawnArgs) :
    (begin home replyTo target args).Coherent := by
  unfold begin
  split
  · refine ⟨fun h => ?_, fun o ho => ?_, rfl, fun pid h => ?_⟩
    · cases h
    · cases ho
    · cases h
  · refine ⟨fun _ => rfl, fun o ho => ?_, rfl, fun pid h => ?_⟩
    · cases ho
    · cases h

theorem begin_fields (home : EndpointId) (replyTo : Option (Pid × UInt64))
    (target : Option EndpointId) (args : SpawnArgs) :
    (begin home replyTo target args).replyTo = replyTo ∧
      (begin home replyTo target args).taken = none ∧
      (begin home replyTo target args).outcome = none := by
  unfold begin
  split
  · exact ⟨rfl, rfl, rfl⟩
  · exact ⟨rfl, rfl, rfl⟩

/-- The spawn goes on to another phase. -/
theorem Coherent.proceeds (h : c.Coherent) {phase : SpawnPhase}
    (hcaller : c.spawn ≠ .unasked) (hphase : ∀ o, c.spawn ≠ .answered o)
    (htakes : phase.Takes c.taken) : c.Proceeds { c with spawn := phase } := by
  refine ⟨⟨fun hd => absurd (h.dialling hd) hcaller, fun o ho => ?_, htakes, h.node⟩,
    rfl, rfl, rfl⟩
  exact Or.inr ((h.outcome o ho).resolve_left (hphase o))

theorem Coherent.connect (h : c.Coherent) (hc : c.connect = some c') :
    c.Proceeds c' := by
  unfold SpawnCall.connect at hc
  split at hc
  · rename_i hdialling _
    cases hc
    have htakes := h.takes
    rw [h.dialling hdialling] at htakes
    refine ⟨⟨fun hd => ?_, fun o ho => ?_, htakes, h.node⟩, rfl, rfl, ?_⟩
    · cases hd
    · cases ho
    · rw [SpawnCall.outcome, SpawnCall.outcome, hdialling]
  · cases hc

theorem Coherent.accept (h : c.Coherent) (hc : c.accept = some c') :
    c.Proceeds c' := by
  unfold SpawnCall.accept at hc
  split at hc
  · rename_i hrequested
    cases hc
    have htakes := h.takes
    rw [hrequested] at htakes
    exact h.proceeds (by simp [hrequested]) (by simp [hrequested]) htakes
  · cases hc

theorem Coherent.look (h : c.Coherent) {reg : ParticleRegistry}
    {code : ComponentCode} (hc : c.look reg code = some c') : c.Proceeds c' := by
  unfold SpawnCall.look at hc
  split at hc
  · rename_i hlooking
    have htakes := h.takes
    rw [hlooking] at htakes
    split at hc
    all_goals
      cases hc
      exact h.proceeds (by simp [hlooking]) (by simp [hlooking]) htakes
  · cases hc

theorem Coherent.start (h : c.Coherent) (hc : c.start = some c') :
    c.Proceeds c' := by
  unfold SpawnCall.start at hc
  split at hc
  · rename_i code pid hstarting
    have htakes := h.takes
    rw [hstarting] at htakes
    change c.taken = some pid at htakes
    split at hc
    · cases hc
      refine h.proceeds (by simp [hstarting]) (by simp [hstarting]) ?_
      show c.taken.isSome = true
      rw [htakes]
      rfl
    · cases hc
      exact h.proceeds (by simp [hstarting]) (by simp [hstarting]) htakes
  · cases hc

/-- A registry that refuses ends the spawn, and one that does not hands out its
next pid. -/
theorem Coherent.enter (h : c.Coherent) {reg reg' : ParticleRegistry}
    {overtaken : Bool} (hfree : ¬ reg.Alive reg.pidGen.peek)
    (htarget : c.target = some reg.me)
    (hc : c.enter reg overtaken = some (reg', c')) :
    (c.Proceeds c' ∧
      (reg'.pidGen = reg.pidGen ∨ reg'.pidGen = reg.pidGen.next.2) ∧
      ∀ p, reg'.state p = reg.state p) ∨
    c.taken = none ∧ c'.Coherent ∧ c'.replyTo = c.replyTo ∧
      c'.taken = some reg.pidGen.peek ∧ c'.outcome = c.outcome ∧
      ParticleRegistry.Spawns reg reg' := by
  unfold SpawnCall.enter at hc
  split at hc
  · rename_i code hentering
    have htakes := h.takes
    rw [hentering] at htakes
    change c.taken = none at htakes
    have hin := ParticleRegistry.spawnIn_outcome hfree ⟨fun _ => code, overtaken⟩
      c.args
    rcases hin with ⟨reg₁, e, hin, hgen, hstate⟩ | ⟨reg₁, hin, hspawns⟩
    · rw [hin] at hc
      cases hc
      exact Or.inl ⟨h.proceeds (by simp [hentering]) (by simp [hentering]) htakes,
        hgen, hstate⟩
    · rw [hin] at hc
      cases hc
      refine Or.inr ⟨htakes, ⟨fun hd => ?_, fun o ho => ?_, rfl, fun pid hpid => ?_⟩,
        rfl, rfl, rfl, hspawns⟩
      · have hunasked := h.dialling hd
        rw [hentering] at hunasked
        cases hunasked
      · have hanswered := h.outcome o ho
        rw [hentering] at hanswered
        exact Or.inr (hanswered.resolve_left (by simp))
      · cases hpid
        exact htarget
  · cases hc

/-- The caller returns. -/
theorem Coherent.returned (h : c.Coherent) {o : Except SpawnFailure Pid}
    (ho : c.answer = some o ∨ c.lose = some o) :
    c.outcome = none ∧ { c with caller := .returned o : SpawnCall }.Coherent := by
  have hcoherent : (c.spawn = .answered o ∨
      o = .error .nodeUnreachable ∧ c.target ≠ some c.home) →
      { c with caller := .returned o : SpawnCall }.Coherent := by
    intro hsides
    refine ⟨fun hd => ?_, fun o' ho' => ?_, h.takes, h.node⟩
    · cases hd
    · cases ho'
      exact hsides
  rcases ho with ho | ho
  · unfold answer at ho
    split at ho
    · rename_i hcaller hspawn
      cases ho
      exact ⟨by rw [SpawnCall.outcome, hcaller], hcoherent (Or.inl hspawn)⟩
    · cases ho
  · unfold lose at ho
    split at ho
    · cases ho
    · rename_i hnot
      cases ho
      push Not at hnot
      exact ⟨by simpa using hnot.2, hcoherent (Or.inr ⟨rfl, hnot.1⟩)⟩

end SpawnCall

/-! ## All calls -/

/-- An entry of a list and what replacing it does. -/
theorem exists_split_at {α : Type} {l : List α} {i : ℕ} {a : α}
    (h : l[i]? = some a) :
    ∃ before behind, l = before ++ a :: behind ∧
      ∀ b, l.set i b = before ++ b :: behind := by
  obtain ⟨hi, rfl⟩ := List.getElem?_eq_some_iff.1 h
  refine ⟨l.take i, l.drop (i + 1), ?_, fun b => ?_⟩
  · simp
  · rw [List.set_eq_take_append_cons_drop, if_pos hi]

/-- Replacing an entry adds what the new one gives. -/
theorem filterMap_set_perm {α β : Type} {f : α → Option β} {l : List α} {i : ℕ}
    {a b : α} (h : l[i]? = some a) (ha : f a = none) :
    ((l.set i b).filterMap f).Perm ((f b).toList ++ l.filterMap f) := by
  obtain ⟨before, behind, rfl, hset⟩ := exists_split_at h
  rw [hset, List.filterMap_append, List.filterMap_append, List.filterMap_cons,
    List.filterMap_cons, ha]
  cases f b with
  | none => exact .refl _
  | some y => exact List.perm_middle

theorem filterMap_set {α β : Type} {f : α → Option β} {l : List α} {i : ℕ}
    {a b : α} (h : l[i]? = some a) (hf : f b = f a) :
    (l.set i b).filterMap f = l.filterMap f := by
  obtain ⟨before, behind, rfl, hset⟩ := exists_split_at h
  rw [hset, List.filterMap_append, List.filterMap_append, List.filterMap_cons,
    List.filterMap_cons, hf]

/-- The spawn reply that the call owes a particle once it has returned. -/
def SpawnCall.telling (pid : Pid) (c : SpawnCall) : Option MailboxMessage :=
  match c.replyTo, c.outcome with
  | some (p, refId), some o =>
    if p = pid then some (.spawnReply refId (replyOf o)) else none
  | _, _ => none

theorem SpawnCall.telling_of_none {pid : Pid} {c : SpawnCall}
    (h : c.outcome = none) : c.telling pid = none := by
  unfold telling
  rw [h]
  split
  · rename_i heq
    cases heq
  · rfl

namespace SpawnNet

/-- The pids that registries have handed out. -/
def drawn (s : SpawnNet) : List Pid :=
  s.others ++ s.calls.filterMap SpawnCall.taken

/-- The outcomes of a particle's `spawn-request`s. -/
def tellings (s : SpawnNet) (pid : Pid) : List MailboxMessage :=
  s.calls.filterMap (SpawnCall.telling pid)

/-- The spawn replies that a particle has received. -/
def receivedBy (s : SpawnNet) (pid : Pid) : List MailboxMessage :=
  (s.received.filter fun r => r.1 = pid).map Prod.snd

end SpawnNet

/-- The invariant. -/
structure SpawnNetInv (s : SpawnNet) : Prop where
  me : ∀ n, (s.regs n).me = n
  alive : ∀ n p, (s.regs n).Alive p → p ∈ s.drawn ∧ p.node = n
  drawn : s.drawn.Nodup
  hosted : ∀ p ∈ s.drawn, s.hosted p = true
  calls : ∀ c ∈ s.calls, c.Coherent
  askers : ∀ c ∈ s.calls, ∀ r, c.replyTo = some r → s.hosted r.1 = true
  receivers : ∀ r ∈ s.received, s.hosted r.1 = true
  told : ∀ p st, (s.regs p.node).state p = some st →
    st.mailbox.closed = false ∧
      (st.mailbox.replies ++ s.receivedBy p).Perm (s.tellings p)

variable {s t : SpawnNet} {i : ℕ} {c c' : SpawnCall} {node : EndpointId}
  {reg : ParticleRegistry}

theorem spawnNetInv_start : SpawnNetInv .start where
  me := fun _ => rfl
  alive := by
    intro n p h
    cases h
  drawn := List.nodup_nil
  hosted := by
    intro p h
    cases h
  calls := by
    intro c h
    cases h
  askers := by
    intro c h
    cases h
  receivers := by
    intro r h
    cases h
  told := by
    intro p st h
    cases h

namespace SpawnNet

@[simp] theorem regs_setReg (s : SpawnNet) (node : EndpointId)
    (reg : ParticleRegistry) (n : EndpointId) :
    (s.setReg node reg).regs n = if n = node then reg else s.regs n := rfl

theorem hosted_iff {p : Pid} : s.hosted p = true ↔
    p.seq.toNat < (s.regs p.node).pidGen.nextSeq.toNat := by
  simp [hosted]

/-- Counters that go up keep what has been hosted. -/
theorem hosted_mono (h : ∀ n, (s.regs n).pidGen.nextSeq.toNat ≤
    (t.regs n).pidGen.nextSeq.toNat) {p : Pid} (hp : s.hosted p = true) :
    t.hosted p = true :=
  hosted_iff.2 ((hosted_iff.1 hp).trans_le (h p.node))

end SpawnNet

/-- The next pid of a node has not been handed out. -/
theorem SpawnNetInv.not_hosted_peek (h : SpawnNetInv s) (node : EndpointId) :
    ¬ s.hosted (s.regs node).pidGen.peek = true := by
  rw [SpawnNet.hosted_iff]
  have hnode : (s.regs node).pidGen.peek.node = node := h.me node
  rw [hnode]
  exact lt_irrefl _

theorem SpawnNetInv.peek_free (h : SpawnNetInv s) (node : EndpointId) :
    ¬ (s.regs node).Alive (s.regs node).pidGen.peek :=
  fun halive => h.not_hosted_peek node (h.hosted _ (h.alive _ _ halive).1)

/-- No registry hands out a pid. -/
theorem SpawnNetInv.transfer (h : SpawnNetInv s)
    (hme : ∀ n, (t.regs n).me = (s.regs n).me)
    (hcount : ∀ n, (s.regs n).pidGen.nextSeq.toNat ≤
      (t.regs n).pidGen.nextSeq.toNat)
    (halive : ∀ n p, (t.regs n).Alive p → (s.regs n).Alive p)
    (hdrawn : t.drawn = s.drawn) (hcalls : ∀ c ∈ t.calls, c.Coherent)
    (haskers : ∀ c ∈ t.calls, ∀ r, c.replyTo = some r → s.hosted r.1 = true)
    (hreceivers : ∀ r ∈ t.received, s.hosted r.1 = true)
    (htold : ∀ p st, (t.regs p.node).state p = some st →
      st.mailbox.closed = false ∧
        (st.mailbox.replies ++ t.receivedBy p).Perm (t.tellings p)) :
    SpawnNetInv t := by
  refine ⟨fun n => (hme n).trans (h.me n), ?_, ?_, ?_, hcalls,
    fun x hx r hr => SpawnNet.hosted_mono hcount (haskers x hx r hr),
    fun r hr => SpawnNet.hosted_mono hcount (hreceivers r hr), htold⟩
  · rw [hdrawn]
    exact fun n p hp => h.alive n p (halive n p hp)
  · rw [hdrawn]
    exact h.drawn
  · rw [hdrawn]
    exact fun p hp => SpawnNet.hosted_mono hcount (h.hosted p hp)

/-- Replacing a call by one that agrees with it about the asker. -/
theorem SpawnNetInv.askers_set (h : SpawnNetInv s) (hi : s.calls[i]? = some c)
    (hreply : c'.replyTo = c.replyTo) :
    ∀ x ∈ s.calls.set i c', ∀ r, x.replyTo = some r → s.hosted r.1 = true := by
  intro x hx r hr
  rcases List.mem_or_eq_of_mem_set hx with hx | rfl
  · exact h.askers x hx r hr
  · exact h.askers c (List.mem_of_getElem? hi) r (hreply ▸ hr)

theorem SpawnNetInv.coherent_set (h : SpawnNetInv s) (i : ℕ)
    (hc : c'.Coherent) : ∀ x ∈ s.calls.set i c', x.Coherent := by
  intro x hx
  rcases List.mem_or_eq_of_mem_set hx with hx | rfl
  · exact h.calls x hx
  · exact hc

/-- A call goes on by itself. -/
theorem SpawnNetInv.setCall (h : SpawnNetInv s) (hi : s.calls[i]? = some c)
    (hc : c.Proceeds c') : SpawnNetInv (s.setCall i c') := by
  have hdrawn : (s.setCall i c').drawn = s.drawn := by
    rw [SpawnNet.drawn, SpawnNet.setCall, filterMap_set hi hc.taken]
    rfl
  have htellings : ∀ p, (s.setCall i c').tellings p = s.tellings p := by
    intro p
    refine filterMap_set hi ?_
    rw [SpawnCall.telling, SpawnCall.telling, hc.replyTo, hc.outcome]
  refine h.transfer (fun _ => rfl) (fun _ => le_rfl) (fun _ _ hp => hp) hdrawn
    (h.coherent_set i hc.coherent) (h.askers_set hi hc.replyTo) h.receivers ?_
  intro p st hst
  rw [htellings]
  exact h.told p st hst

/-- A node does something that brings nobody to life. -/
theorem SpawnNetInv.setReg (h : SpawnNetInv s)
    (hgen : reg.pidGen = (s.regs node).pidGen ∨
      reg.pidGen = (s.regs node).pidGen.next.2 ∧
        (s.regs node).pidGen.nextSeq.toNat + 1 < 2 ^ 64)
    (hkeeps : ParticleRegistry.KeepsReplies (s.regs node) reg) :
    SpawnNetInv (s.setReg node reg) := by
  have hat : ∀ n, (s.setReg node reg).regs n = s.regs n ∨
      n = node ∧ (s.setReg node reg).regs n = reg := by
    intro n
    rw [SpawnNet.regs_setReg]
    split
    · rename_i hn
      exact Or.inr ⟨hn, rfl⟩
    · exact Or.inl rfl
  have hkeep : ∀ n, ParticleRegistry.KeepsReplies (s.regs n)
      ((s.setReg node reg).regs n) := by
    intro n
    rcases hat n with heq | ⟨rfl, heq⟩
    · rw [heq]
      exact .refl _
    · rw [heq]
      exact hkeeps
  refine h.transfer ?_ ?_ ?_ rfl h.calls h.askers h.receivers ?_
  · intro n
    rcases hat n with heq | ⟨rfl, heq⟩
    · rw [heq]
    · rw [heq, ParticleRegistry.me, ParticleRegistry.me]
      rcases hgen with hgen | ⟨hgen, -⟩
      · rw [hgen]
      · rw [hgen]
        rfl
  · intro n
    rcases hat n with heq | ⟨rfl, heq⟩
    · rw [heq]
    · rw [heq]
      rcases hgen with hgen | ⟨hgen, hlt⟩
      · rw [hgen]
      · rw [hgen]
        exact (PidGenerator.peek_lt_next hlt).le
  · intro n p hp
    obtain ⟨st', hst'⟩ := ParticleRegistry.alive_iff.1 hp
    obtain ⟨st, hst, -⟩ := hkeep n p st' hst'
    exact ParticleRegistry.alive_iff.2 ⟨st, hst⟩
  · intro p st' hst'
    obtain ⟨st, hst, hsame⟩ := hkeep p.node p st' hst'
    rw [hsame.closed, hsame.replies]
    exact h.told p st hst

/-- A registry hands out its next pid. -/
theorem SpawnNetInv.spawned (h : SpawnNetInv s)
    (hspawns : ParticleRegistry.Spawns (s.regs node) reg)
    (hcount : (s.regs node).pidGen.nextSeq.toNat + 1 < 2 ^ 64)
    (hregs : t.regs = (s.setReg node reg).regs)
    (hdrawn : t.drawn.Perm ((s.regs node).pidGen.peek :: s.drawn))
    (hreceived : t.received = s.received) (hcalls : ∀ c ∈ t.calls, c.Coherent)
    (haskers : ∀ c ∈ t.calls, ∀ r, c.replyTo = some r → s.hosted r.1 = true)
    (htellings : ∀ p, t.tellings p = s.tellings p) : SpawnNetInv t := by
  have hnode := h.me node
  have hat : ∀ n, t.regs n = if n = node then reg else s.regs n := by
    intro n
    rw [hregs, SpawnNet.regs_setReg]
  have hlt := PidGenerator.peek_lt_next hcount
  have hmono : ∀ n, (s.regs n).pidGen.nextSeq.toNat ≤
      (t.regs n).pidGen.nextSeq.toNat := by
    intro n
    rw [hat]
    split
    · rename_i hn
      subst hn
      rw [hspawns.pidGen]
      exact hlt.le
    · exact le_rfl
  have hpeek : t.hosted (s.regs node).pidGen.peek = true := by
    rw [SpawnNet.hosted_iff, show (s.regs node).pidGen.peek.node = node from hnode,
      hat, if_pos rfl, hspawns.pidGen]
    exact hlt
  refine ⟨fun n => ?_, fun n p halive => ?_, ?_, fun p hp => ?_, hcalls,
    fun x hx r hr => SpawnNet.hosted_mono hmono (haskers x hx r hr),
    fun r hr => ?_, fun p st hst => ?_⟩
  · rw [hat]
    split
    · rename_i hn
      rw [ParticleRegistry.me, hspawns.pidGen, hn]
      exact hnode
    · exact h.me n
  · rw [hdrawn.mem_iff, List.mem_cons]
    rw [hat] at halive
    split at halive
    · rename_i hn
      obtain ⟨st, hst⟩ := ParticleRegistry.alive_iff.1 halive
      rw [hspawns.state] at hst
      split at hst
      · rename_i hp
        rw [hp, hn]
        exact ⟨Or.inl rfl, hnode⟩
      · have hold := h.alive node p (ParticleRegistry.alive_iff.2 ⟨st, hst⟩)
        exact ⟨Or.inr hold.1, hold.2.trans hn.symm⟩
    · have hold := h.alive n p halive
      exact ⟨Or.inr hold.1, hold.2⟩
  · rw [hdrawn.nodup_iff, List.nodup_cons]
    exact ⟨fun hmem => h.not_hosted_peek node (h.hosted _ hmem), h.drawn⟩
  · rw [hdrawn.mem_iff, List.mem_cons] at hp
    rcases hp with rfl | hp
    · exact hpeek
    · exact SpawnNet.hosted_mono hmono (h.hosted p hp)
  · rw [hreceived] at hr
    exact SpawnNet.hosted_mono hmono (h.receivers r hr)
  · rw [SpawnNet.receivedBy, hreceived, htellings]
    rw [hat] at hst
    split at hst
    · rename_i hn
      rw [hspawns.state] at hst
      split at hst
      · -- The new particle has asked nobody and been told nothing.
        rename_i hp
        have hnew : ¬ s.hosted p = true := hp ▸ h.not_hosted_peek node
        have htold : s.tellings p = [] := by
          refine List.filterMap_eq_nil_iff.2 fun x hx => ?_
          unfold SpawnCall.telling
          split
          · rename_i q refId o hreply _
            refine if_neg fun hq => hnew ?_
            exact hq ▸ h.askers x hx _ hreply
          · rfl
        have hgot : s.received.filter (fun r => r.1 = p) = [] := by
          refine List.filter_eq_nil_iff.2 fun r hr hrp => hnew ?_
          have hrp : r.1 = p := by simpa using hrp
          exact hrp ▸ h.receivers r hr
        cases hst
        rw [htold, hgot]
        exact ⟨rfl, .refl _⟩
      · exact h.told p st (hn ▸ hst)
    · exact h.told p st hst

theorem SpawnCall.telling_returned (c : SpawnCall) (o : Except SpawnFailure Pid)
    (p : Pid) : { c with caller := .returned o : SpawnCall }.telling p =
      c.replyTo.bind fun r =>
        if r.1 = p then some (.spawnReply r.2 (replyOf o)) else none := by
  obtain ⟨home, replyTo, target, args, caller, spawn, taken⟩ := c
  cases replyTo <;> rfl

theorem SpawnNet.finish_of_none {o : Except SpawnFailure Pid}
    (h : c.replyTo = none) :
    s.finish i c o = s.setCall i { c with caller := .returned o } := by
  unfold SpawnNet.finish
  split
  · rfl
  · rename_i hsome
    rw [h] at hsome
    cases hsome

theorem SpawnNet.finish_of_some {o : Except SpawnFailure Pid} {pid : Pid}
    {refId : UInt64} (h : c.replyTo = some (pid, refId)) :
    s.finish i c o = (s.setCall i { c with caller := .returned o }).setReg pid.node
      ((s.regs pid.node).modifyState pid fun st =>
        { st with mailbox := st.mailbox.pushSpawnReply refId (replyOf o) }) := by
  unfold SpawnNet.finish
  split
  · rename_i hnone
    rw [h] at hnone
    cases hnone
  · rename_i hsome
    rw [h] at hsome
    cases hsome
    rfl

/-- The mailbox of one particle changes. -/
theorem SpawnNetInv.setMailbox (h : SpawnNetInv s) {pid : Pid}
    {f : Mailbox → Mailbox}
    (hregs : t.regs = (s.setReg pid.node ((s.regs pid.node).modifyState pid
      fun st => { st with mailbox := f st.mailbox })).regs)
    (hdrawn : t.drawn = s.drawn) (hcalls : ∀ c ∈ t.calls, c.Coherent)
    (haskers : ∀ c ∈ t.calls, ∀ r, c.replyTo = some r → s.hosted r.1 = true)
    (hreceivers : ∀ r ∈ t.received, s.hosted r.1 = true)
    (hown : ∀ st, (s.regs pid.node).state pid = some st →
      st.mailbox.closed = false →
      (st.mailbox.replies ++ s.receivedBy pid).Perm (s.tellings pid) →
      (f st.mailbox).closed = false ∧
        ((f st.mailbox).replies ++ t.receivedBy pid).Perm (t.tellings pid))
    (hothers : ∀ p, p ≠ pid → t.receivedBy p = s.receivedBy p ∧
      (t.tellings p).Perm (s.tellings p)) : SpawnNetInv t := by
  have hat : ∀ n, (t.regs n).pidGen = (s.regs n).pidGen ∧
      ∀ p, (t.regs n).state p = if n = pid.node ∧ p = pid then
        ((s.regs n).state p).map fun st => { st with mailbox := f st.mailbox }
      else (s.regs n).state p := by
    intro n
    rw [hregs, SpawnNet.regs_setReg]
    by_cases hn : n = pid.node
    · subst hn
      rw [if_pos rfl]
      refine ⟨rfl, fun p => ?_⟩
      rw [ParticleRegistry.state_modifyState]
      simp
    · rw [if_neg hn]
      exact ⟨rfl, fun p => (if_neg fun hnp => hn hnp.1).symm⟩
  refine h.transfer (fun n => ?_) (fun n => ?_) (fun n p hp => ?_) hdrawn hcalls
    haskers hreceivers fun p st hst => ?_
  · rw [ParticleRegistry.me, (hat n).1]
    rfl
  · rw [(hat n).1]
  · obtain ⟨st, hst⟩ := ParticleRegistry.alive_iff.1 hp
    rw [(hat n).2] at hst
    split at hst
    · obtain ⟨st₀, hst₀, -⟩ := Option.map_eq_some_iff.1 hst
      exact ParticleRegistry.alive_iff.2 ⟨st₀, hst₀⟩
    · exact ParticleRegistry.alive_iff.2 ⟨st, hst⟩
  · rw [(hat p.node).2] at hst
    split at hst
    · rename_i hp
      obtain ⟨-, rfl⟩ := hp
      obtain ⟨st₀, hst₀, rfl⟩ := Option.map_eq_some_iff.1 hst
      obtain ⟨hopen, htold⟩ := h.told p st₀ hst₀
      exact hown st₀ hst₀ hopen htold
    · rename_i hp
      have hne : p ≠ pid := fun heq => hp ⟨congrArg Pid.node heq, heq⟩
      obtain ⟨hreceived, htellings⟩ := hothers p hne
      rw [hreceived]
      exact ⟨(h.told p st hst).1, (h.told p st hst).2.trans htellings.symm⟩

/-- The outcome reaches the particle that asked for it. -/
theorem SpawnNetInv.finish (h : SpawnNetInv s) (hi : s.calls[i]? = some c)
    {o : Except SpawnFailure Pid} (houtcome : c.outcome = none)
    (hcoherent : { c with caller := .returned o : SpawnCall }.Coherent) :
    SpawnNetInv (s.finish i c o) := by
  let c' : SpawnCall := { c with caller := .returned o }
  have hdrawn : (s.setCall i c').drawn = s.drawn := by
    rw [SpawnNet.drawn, SpawnNet.drawn]
    exact congrArg (s.others ++ ·) (filterMap_set (b := c') hi rfl)
  have hcalls := h.coherent_set i hcoherent
  have haskers : ∀ x ∈ s.calls.set i c', ∀ r, x.replyTo = some r →
      s.hosted r.1 = true := h.askers_set hi rfl
  have htellings : ∀ p, ((s.setCall i c').tellings p).Perm
      ((c'.telling p).toList ++ s.tellings p) :=
    fun p => filterMap_set_perm hi (SpawnCall.telling_of_none houtcome)
  cases hreply : c.replyTo with
  | none =>
    rw [SpawnNet.finish_of_none hreply]
    refine h.transfer (fun _ => rfl) (fun _ => le_rfl) (fun _ _ hp => hp) hdrawn
      hcalls haskers h.receivers ?_
    intro p st hst
    have hperm := htellings p
    rw [SpawnCall.telling_returned, hreply] at hperm
    exact ⟨(h.told p st hst).1, (h.told p st hst).2.trans hperm.symm⟩
  | some r =>
    obtain ⟨pid, refId⟩ := r
    have htelling : ∀ p, c'.telling p =
        if pid = p then some (.spawnReply refId (replyOf o)) else none := by
      intro p
      rw [SpawnCall.telling_returned, hreply]
      rfl
    rw [SpawnNet.finish_of_some hreply]
    refine h.setMailbox (f := fun m => m.pushSpawnReply refId (replyOf o)) rfl hdrawn
      hcalls haskers h.receivers ?_ ?_
    · intro st hst hopen htold
      refine ⟨(Mailbox.closed_pushSpawnReply _ _ _).trans hopen, ?_⟩
      have hperm := htellings pid
      rw [htelling, if_pos rfl] at hperm
      rw [Mailbox.replies_pushSpawnReply hopen, List.append_assoc]
      exact (List.perm_middle.trans (htold.cons _)).trans hperm.symm
    · intro p hp
      have hperm := htellings p
      rw [htelling, if_neg (Ne.symm hp)] at hperm
      exact ⟨rfl, hperm⟩

theorem SpawnNetInv.receive (h : SpawnNetInv s) {pid : Pid} {call : Receive}
    (hreceive : s.receive pid call = some t) : SpawnNetInv t := by
  obtain ⟨st, hst, rfl⟩ := Option.map_eq_some_iff.1 hreceive
  have hhosted : s.hosted pid = true :=
    h.hosted pid (h.alive _ pid (ParticleRegistry.alive_iff.2 ⟨st, hst⟩)).1
  have hreceived : ∀ p, ((s.received ++ (st.mailbox.turn call).1.replies.map
      fun msg => (pid, msg)).filter fun r => r.1 = p).map Prod.snd =
      s.receivedBy p ++ if pid = p then (st.mailbox.turn call).1.replies else [] := by
    intro p
    rw [List.filter_append, List.map_append, List.filter_map]
    by_cases hp : pid = p
    · simp [SpawnNet.receivedBy, Function.comp_def, hp]
    · simp [SpawnNet.receivedBy, Function.comp_def, hp]
  refine h.setMailbox (f := fun m => (m.turn call).2) rfl rfl h.calls h.askers ?_ ?_ ?_
  · intro r hr
    rcases List.mem_append.1 hr with hr | hr
    · exact h.receivers r hr
    · obtain ⟨msg, -, rfl⟩ := List.mem_map.1 hr
      exact hhosted
  · intro st' hst' hopen htold
    obtain rfl : st = st' := Option.some_inj.1 (hst.symm.trans hst')
    obtain ⟨hclosed, hperm⟩ := st.mailbox.replies_turn call
    refine ⟨hclosed.trans hopen, ?_⟩
    rw [SpawnNet.receivedBy, hreceived, if_pos rfl]
    have hrotated : ((st.mailbox.turn call).2.replies ++ (s.receivedBy pid ++
        (st.mailbox.turn call).1.replies)).Perm ((st.mailbox.turn call).1.replies ++
          (st.mailbox.turn call).2.replies ++ s.receivedBy pid) := by
      rw [← List.append_assoc, List.append_assoc (st.mailbox.turn call).1.replies]
      exact List.perm_append_comm
    exact (hrotated.trans (hperm.append_right _)).trans htold
  · intro p hp
    refine ⟨?_, .refl _⟩
    rw [SpawnNet.receivedBy, hreceived, if_neg (Ne.symm hp), List.append_nil]

/-- The pid counters have not wrapped around. -/
def SpawnNet.CountsUp (s : SpawnNet) : SpawnNetAction → Prop
  | .enter i _ => ∀ node ∈ s.calls[i]?.bind SpawnCall.target,
      (s.regs node).pidGen.nextSeq.toNat + 1 < 2 ^ 64
  | .spawn node _ _ => (s.regs node).pidGen.nextSeq.toNat + 1 < 2 ^ 64
  | _ => True

instance (s : SpawnNet) : DecidablePred s.CountsUp := fun a => by
  unfold SpawnNet.CountsUp
  split <;> infer_instance

/-- A call makes a step by itself. -/
theorem SpawnNetInv.callTurn (h : SpawnNetInv s) {f : SpawnCall → Option SpawnCall}
    (hf : ∀ c ∈ s.calls, ∀ c', f c = some c' → c.Proceeds c')
    (hstep : (s.calls[i]?.bind fun c => (f c).map (s.setCall i)) = some t) :
    SpawnNetInv t := by
  obtain ⟨c, hi, hstep⟩ := Option.bind_eq_some_iff.1 hstep
  obtain ⟨c', hc', rfl⟩ := Option.map_eq_some_iff.1 hstep
  exact h.setCall hi (hf c (List.mem_of_getElem? hi) c' hc')

/-- A call begins, which has drawn no pid and has no outcome. -/
theorem SpawnNetInv.call (h : SpawnNetInv s) {home : EndpointId}
    {replyTo : Option (Pid × UInt64)} {target : Option EndpointId}
    {args : SpawnArgs}
    (hstep : s.step (.call home replyTo target args) = some t) :
    SpawnNetInv t := by
  rw [SpawnNet.step] at hstep
  split at hstep
  · rename_i hreply
    cases hstep
    obtain ⟨hreplyTo, htaken, houtcome⟩ :=
      SpawnCall.begin_fields home replyTo target args
    have htellings : ∀ p, (s.calls ++ [SpawnCall.begin home replyTo target
        args]).filterMap (SpawnCall.telling p) = s.tellings p := by
      intro p
      rw [List.filterMap_append, List.filterMap_cons,
        SpawnCall.telling_of_none houtcome]
      exact List.append_nil _
    refine h.transfer (fun _ => rfl) (fun _ => le_rfl) (fun _ _ hp => hp) ?_ ?_ ?_
      h.receivers ?_
    · rw [SpawnNet.drawn, SpawnNet.drawn, List.filterMap_append,
        List.filterMap_cons, htaken]
      simp
    · intro x hx
      rcases List.mem_append.1 hx with hx | hx
      · exact h.calls x hx
      · rw [List.mem_singleton.1 hx]
        exact SpawnCall.coherent_begin home replyTo target args
    · intro x hx r hr
      rcases List.mem_append.1 hx with hx | hx
      · exact h.askers x hx r hr
      · rw [List.mem_singleton.1 hx, hreplyTo] at hr
        rw [hr] at hreply
        simpa using (show _ ∧ _ by simpa using hreply).2
    · intro p st hst
      rw [SpawnNet.tellings, htellings]
      exact h.told p st hst
  · cases hstep

/-- The registry of the target spawns for a call, or refuses. -/
theorem SpawnNetInv.enter (h : SpawnNetInv s) {overtaken : Bool}
    (hcount : s.CountsUp (.enter i overtaken))
    (hstep : s.step (.enter i overtaken) = some t) : SpawnNetInv t := by
  obtain ⟨c, hi, hstep⟩ := Option.bind_eq_some_iff.1 hstep
  obtain ⟨node, htarget, hstep⟩ := Option.bind_eq_some_iff.1 hstep
  obtain ⟨⟨reg, c'⟩, hc', rfl⟩ := Option.map_eq_some_iff.1 hstep
  have hlt : (s.regs node).pidGen.nextSeq.toNat + 1 < 2 ^ 64 := by
    refine hcount node ?_
    rw [hi]
    exact htarget
  have hcoherent := h.calls c (List.mem_of_getElem? hi)
  rcases hcoherent.enter (h.peek_free node) (by rw [h.me]; exact htarget) hc' with
    ⟨hproceeds, hgen, hstate⟩ | ⟨htaken, hc'coherent, hreply, htakes, houtcome, hspawns⟩
  · have hreg : SpawnNetInv (s.setReg node reg) :=
      h.setReg (hgen.imp_right fun hgen => ⟨hgen, hlt⟩) (.of_state hstate)
    exact hreg.setCall hi hproceeds
  · refine h.spawned hspawns hlt rfl ?_ rfl (h.coherent_set i hc'coherent)
      (h.askers_set hi hreply) ?_
    · have hperm := filterMap_set_perm (f := SpawnCall.taken) (b := c') hi htaken
      rw [htakes] at hperm
      exact (hperm.append_left s.others).trans List.perm_middle
    · intro p
      refine filterMap_set hi ?_
      rw [SpawnCall.telling, SpawnCall.telling, hreply, houtcome]

/-- A registry spawns for nobody's call, or refuses. -/
theorem SpawnNetInv.spawn (h : SpawnNetInv s) {ctx : SpawnContext}
    {args : SpawnArgs} (hcount : s.CountsUp (.spawn node ctx args))
    (hstep : s.step (.spawn node ctx args) = some t) : SpawnNetInv t := by
  rw [SpawnNet.step] at hstep
  rcases ParticleRegistry.spawnIn_outcome (h.peek_free node) ctx args with
    ⟨reg, e, hin, hgen, hstate⟩ | ⟨reg, hin, hspawns⟩
  · rw [hin] at hstep
    cases hstep
    have hreg : SpawnNetInv (s.setReg node reg) :=
      h.setReg (hgen.imp_right fun hgen => ⟨hgen, hcount⟩) (.of_state hstate)
    have hsame : s.others ++ (Except.error e : Except String Pid).toOption.toList =
        s.others := List.append_nil _
    rw [hsame]
    exact hreg
  · rw [hin] at hstep
    cases hstep
    refine h.spawned hspawns hcount rfl ?_ rfl h.calls h.askers fun _ => rfl
    show ((s.others ++ [_]) ++ s.calls.filterMap SpawnCall.taken).Perm _
    rw [List.append_assoc]
    exact List.perm_middle

theorem SpawnNetInv.step (h : SpawnNetInv s) {a : SpawnNetAction}
    (hcount : s.CountsUp a) (hstep : s.step a = some t) : SpawnNetInv t := by
  cases a with
  | call home replyTo target args => exact h.call hstep
  | connect i => exact h.callTurn (fun c hc c' => (h.calls c hc).connect) hstep
  | accept i => exact h.callTurn (fun c hc c' => (h.calls c hc).accept) hstep
  | start i => exact h.callTurn (fun c hc c' => (h.calls c hc).start) hstep
  | look i code =>
    obtain ⟨c, hi, hstep⟩ := Option.bind_eq_some_iff.1 hstep
    obtain ⟨node, -, hstep⟩ := Option.bind_eq_some_iff.1 hstep
    obtain ⟨c', hc', rfl⟩ := Option.map_eq_some_iff.1 hstep
    exact h.setCall hi ((h.calls c (List.mem_of_getElem? hi)).look hc')
  | enter i overtaken => exact h.enter hcount hstep
  | answer i =>
    obtain ⟨c, hi, hstep⟩ := Option.bind_eq_some_iff.1 hstep
    obtain ⟨o, ho, rfl⟩ := Option.map_eq_some_iff.1 hstep
    obtain ⟨houtcome, hcoherent⟩ :=
      (h.calls c (List.mem_of_getElem? hi)).returned (Or.inl ho)
    exact h.finish hi houtcome hcoherent
  | lose i =>
    obtain ⟨c, hi, hstep⟩ := Option.bind_eq_some_iff.1 hstep
    obtain ⟨o, ho, rfl⟩ := Option.map_eq_some_iff.1 hstep
    obtain ⟨houtcome, hcoherent⟩ :=
      (h.calls c (List.mem_of_getElem? hi)).returned (Or.inr ho)
    exact h.finish hi houtcome hcoherent
  | operate node op =>
    cases hstep
    exact h.setReg (Or.inl (ParticleRegistry.noBirth_perform _ op).pidGen)
      (ParticleRegistry.keepsReplies_perform _ op)
  | spawn node ctx args => exact h.spawn hcount hstep
  | receive pid call => exact h.receive hstep

theorem spawnNetInv_run (h : Run SpawnNet.step SpawnNet.CountsUp .start s) :
    SpawnNetInv s :=
  h.invariant (fun hs hok hstep => hs.step hok hstep) spawnNetInv_start

/-- What becomes of the spawn calls of a cluster, in whatever order the callers,
the handlers and everybody else take their steps and whichever connections
break. -/
theorem SpawnNet.spawn_calls_accounted (h : Run step CountsUp start s) :
    (∀ c ∈ s.calls,
      -- A pid is that of a particle that the named node has spawned for the call.
      (∀ pid, c.outcome = some (.ok pid) →
        c.taken = some pid ∧ c.target = some pid.node) ∧
      -- A call that is refused has no particle, and its spawn is over.
      (c.outcome = some (.error .componentNotFound) ∨
        c.outcome = some (.error .resourceLimit) →
        c.taken = none ∧ ∃ e, c.spawn = .answered (.error e)) ∧
      -- A component that does not start has a particle all the same.
      (c.outcome = some (.error .initFailed) → c.taken.isSome = true) ∧
      -- Our own node is never out of reach.
      (c.outcome = some (.error .nodeUnreachable) → c.target ≠ some c.home)) ∧
    -- No two spawns get the same pid.
    s.drawn.Nodup ∧
    -- Nobody is alive without a spawn on that node.
    (∀ node pid, (s.regs node).Alive pid → pid ∈ s.drawn ∧ pid.node = node) ∧
    -- A particle is told of each of its requests that has come to an end, once.
    ∀ pid st, (s.regs pid.node).state pid = some st →
      (st.mailbox.replies ++ s.receivedBy pid).Perm (s.tellings pid) := by
  have hinv := spawnNetInv_run h
  refine ⟨fun c hc => ?_, hinv.drawn, hinv.alive, fun p st hst => (hinv.told p st hst).2⟩
  have hcoherent := hinv.calls c hc
  have htakes := hcoherent.takes
  have hanswered : ∀ o, c.outcome = some o → o ≠ .error .nodeUnreachable →
      c.spawn = .answered o :=
    fun o ho hne => (hcoherent.outcome o ho).resolve_right fun hlost => hne hlost.1
  refine ⟨fun pid ho => ?_, fun ho => ?_, fun ho => ?_, fun ho => ?_⟩
  · rw [hanswered _ ho (by simp)] at htakes
    exact ⟨htakes, hcoherent.node pid htakes⟩
  · rcases ho with ho | ho
    · have hspawn := hanswered _ ho (by simp)
      rw [hspawn] at htakes
      exact ⟨htakes, _, hspawn⟩
    · have hspawn := hanswered _ ho (by simp)
      rw [hspawn] at htakes
      exact ⟨htakes, _, hspawn⟩
  · rw [hanswered _ ho (by simp)] at htakes
    exact htakes
  · rcases hcoherent.outcome _ ho with hspawn | hlost
    · rw [hspawn] at htakes
      exact absurd htakes id
    · exact hlost.2

/-- A particle of one node asks another node for a particle, and the connection
breaks when the other registry has taken that in. -/
def spawnAway : List SpawnNetAction :=
  let code : ComponentCode := ⟨true, true, 0, fun _ => true⟩
  [.operate ⟨1⟩ (.atomic (.registerComponent "client")),
    .operate ⟨2⟩ (.atomic (.registerComponent "worker")),
    .spawn ⟨1⟩ ⟨fun _ => code, false⟩ ⟨"client", none, ""⟩,
    .call ⟨1⟩ (some (⟨⟨1⟩, 1⟩, 7)) (some ⟨2⟩) ⟨"worker", some "w", ""⟩,
    .connect 0, .accept 0, .look 0 code, .enter 0 false, .lose 0, .start 0]

/-- The particle is told that the node is unreachable, and the other one is
alive. -/
theorem SpawnNet.spawn_calls_accounted_away :
    ∃ s, Run step CountsUp start s ∧ (s.regs ⟨2⟩).Alive ⟨⟨2⟩, 1⟩ ∧
      ∃ st, (s.regs ⟨1⟩).state ⟨⟨1⟩, 1⟩ = some st ∧
        st.mailbox.replies = [.spawnReply 7 (.inr .nodeUnreachable)] := by
  obtain ⟨s, hrun, hfar, hnear, hreceived, htellings⟩ :
      ∃ s, Run step CountsUp start s ∧ (s.regs ⟨2⟩).Alive ⟨⟨2⟩, 1⟩ ∧
        (s.regs ⟨1⟩).Alive ⟨⟨1⟩, 1⟩ ∧ s.receivedBy ⟨⟨1⟩, 1⟩ = [] ∧
        s.tellings ⟨⟨1⟩, 1⟩ = [.spawnReply 7 (.inr .nodeUnreachable)] :=
    exec_run_of_any spawnAway (by decide +kernel)
  obtain ⟨st, hst⟩ := ParticleRegistry.alive_iff.1 hnear
  have htold := (spawn_calls_accounted hrun).2.2.2 _ st hst
  rw [hreceived, htellings, List.append_nil] at htold
  exact ⟨s, hrun, hfar, st, hst, List.perm_singleton.1 htold⟩

end Plasmoid
