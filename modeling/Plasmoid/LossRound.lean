import Plasmoid.FiresOnce
import Plasmoid.HostCalls

/-!
# One round of the node loss reactor

The reactor lists the relationships with the lost node under one lock, fires
them one after the other, and then forgets everything about the node under a
third lock.  Other calls run in between.  `forget_node` goes by the node and
not by the list, so it also removes what was recorded meanwhile, which nobody
has fired.

`loss_round_alone` says that the steps compute `loseNode` when nobody else
runs.
-/

namespace Plasmoid

open Machine ParticleRegistry

/-- The particle that a signal is about. -/
def SystemMessage.source : SystemMessage → Pid
  | .exit source _ => source
  | .down source _ _ => source

theorem SystemMessage.toMailbox_injective :
    Function.Injective SystemMessage.toMailbox := by
  intro m m' h
  cases m <;> cases m' <;> cases h <;> rfl

/-- What the reactor has to do, while it handles one lost node. -/
inductive LossPhase where
  | idle
  /-- The relationships that are still to be fired.  `base` is the registry in
  which the reactor found all of them. -/
  | firing (node : EndpointId) (base : ParticleRegistry) (links : List (Pid × Pid))
      (monitors : List (Pid × Pid × UInt64))

structure LossRound where
  reg : ParticleRegistry
  phase : LossPhase

inductive LossAction where
  /-- The reactor hears of a lost node and lists its relationships. -/
  | lose (node : EndpointId)
  /-- The reactor fires the next relationship, or forgets the node. -/
  | advance
  /-- Somebody else acts on the registry. -/
  | other (op : RegistryOp)

/-- What others do between the steps of the reactor. -/
def RegistryOp.amidLoss : RegistryOp → Bool
  | .atomic (.linkRemote _ _) | .atomic (.unlinkRemote _ _)
  | .atomic (.monitorRemote _ _ _) | .atomic (.setTrapExit _ _)
  | .exit _ _ => true
  | _ => false

namespace LossRound

def step (s : LossRound) (a : LossAction) : Option LossRound :=
  match a, s.phase with
  | .lose node, .idle =>
    -- A node is not among its own peers.
    if node = s.reg.me then none
    else
      match s.reg.relationshipsWithNode node with
      | ([], []) => some s
      | (links, monitors) => some ⟨s.reg, .firing node s.reg links monitors⟩
  | .advance, .firing node base (l :: links) monitors =>
    some ⟨s.reg.applyInheritedExit l.1 l.2 .noConnection,
      .firing node base links monitors⟩
  | .advance, .firing node base [] (m :: monitors) =>
    some ⟨s.reg.deliverDown m.1 m.2.1 m.2.2 .noConnection,
      .firing node base [] monitors⟩
  | .advance, .firing node _ [] [] => some ⟨s.reg.forgetNode node, .idle⟩
  | .other op, phase =>
    if op.amidLoss then some ⟨s.reg.perform op, phase⟩ else none
  | _, _ => none

/-! ## The reactor alone -/

theorem fire_links {ok : LossRound → LossAction → Prop}
    (hok : ∀ s, ok s .advance) (node : EndpointId) (base : ParticleRegistry)
    (monitors : List (Pid × Pid × UInt64)) :
    ∀ (links : List (Pid × Pid)) (reg : ParticleRegistry),
      Run step ok ⟨reg, .firing node base links monitors⟩
        ⟨links.foldl (fun reg l => reg.applyInheritedExit l.1 l.2 .noConnection) reg,
          .firing node base [] monitors⟩ := by
  intro links
  induction links with
  | nil =>
    intro reg
    exact .refl
  | cons l links ih =>
    intro reg
    have hstep : Run step ok ⟨reg, .firing node base (l :: links) monitors⟩
        ⟨reg.applyInheritedExit l.1 l.2 .noConnection,
          .firing node base links monitors⟩ :=
      Run.single (a := .advance) (hok _) rfl
    exact hstep.trans (ih _)

theorem fire_monitors {ok : LossRound → LossAction → Prop}
    (hok : ∀ s, ok s .advance) (node : EndpointId) (base : ParticleRegistry) :
    ∀ (monitors : List (Pid × Pid × UInt64)) (reg : ParticleRegistry),
      Run step ok ⟨reg, .firing node base [] monitors⟩
        ⟨monitors.foldl
            (fun reg m => reg.deliverDown m.1 m.2.1 m.2.2 .noConnection) reg,
          .firing node base [] []⟩ := by
  intro monitors
  induction monitors with
  | nil =>
    intro reg
    exact .refl
  | cons m monitors ih =>
    intro reg
    have hstep : Run step ok ⟨reg, .firing node base [] (m :: monitors)⟩
        ⟨reg.deliverDown m.1 m.2.1 m.2.2 .noConnection,
          .firing node base [] monitors⟩ :=
      Run.single (a := .advance) (hok _) rfl
    exact hstep.trans (ih _)

/-- The reactor finds something to fire. -/
theorem step_lose {reg : ParticleRegistry} {node : EndpointId} (h : node ≠ reg.me)
    {links : List (Pid × Pid)} {monitors : List (Pid × Pid × UInt64)}
    (hrel : reg.relationshipsWithNode node = (links, monitors))
    (hsome : links = [] → monitors ≠ []) :
    step ⟨reg, .idle⟩ (.lose node) =
      some ⟨reg, .firing node reg links monitors⟩ := by
  unfold step
  dsimp only
  rw [if_neg h, hrel]
  split
  · rename_i heq
    cases heq
    exact absurd rfl (hsome rfl)
  · rename_i heq
    cases heq
    rfl

/-- Left alone, the reactor computes `loseNode`. -/
theorem loss_round_alone (reg : ParticleRegistry) {node : EndpointId}
    (h : node ≠ reg.me) :
    Run step anyStep ⟨reg, .idle⟩ ⟨reg.loseNode node, .idle⟩ := by
  have hforget : ∀ reg' : ParticleRegistry, Run step anyStep
      ⟨reg', .firing node reg [] []⟩ ⟨reg'.forgetNode node, .idle⟩ :=
    fun reg' => Run.single (a := .advance) trivial rfl
  rw [loseNode]
  split
  · rename_i hnone
    refine Run.single (a := .lose node) trivial ?_
    unfold step
    dsimp only
    rw [if_neg h, hnone]
  · rename_i links monitors hsome hrel
    have hlose := step_lose h hrel fun hl hm => hsome (hl ▸ rfl) (hm ▸ rfl)
    exact (Run.single (a := .lose node) trivial hlose).trans
      ((fire_links (fun _ => trivial) node reg monitors links reg).trans
        ((fire_monitors (fun _ => trivial) node reg monitors _).trans (hforget _)))

end LossRound

/-! ## What waits in a mailbox -/

namespace ParticleRegistry

/-- How often the signal waits in the mailbox of a live particle. -/
def waiting (reg : ParticleRegistry) (x : Pid) (msg : SystemMessage) : Nat :=
  (reg.state x).elim 0 fun s => s.mailbox.queue.count msg.toMailbox

theorem waiting_of_state {reg : ParticleRegistry} {x : Pid} {s : ParticleState}
    (h : reg.state x = some s) (msg : SystemMessage) :
    reg.waiting x msg = s.mailbox.queue.count msg.toMailbox := by
  rw [waiting, h, Option.elim_some]

/-- Rewriting a state without its mailbox. -/
theorem waiting_modifyState {reg : ParticleRegistry} {pid : Pid}
    {f : ParticleState → ParticleState} (hf : ∀ s, (f s).mailbox = s.mailbox)
    (x : Pid) (msg : SystemMessage) :
    (reg.modifyState pid f).waiting x msg = reg.waiting x msg := by
  rw [waiting, waiting, state_modifyState]
  cases reg.state x with
  | none => split <;> rfl
  | some s =>
    split
    · rw [Option.map_some, Option.elim_some, Option.elim_some, hf]
    · rfl

/-- A signal arrives at a live particle. -/
theorem waiting_sendSystem {reg : ParticleRegistry} {x : Pid} (hx : reg.Alive x)
    (pid : Pid) (msg msg' : SystemMessage) :
    (reg.sendSystem pid msg).waiting x msg' =
      reg.waiting x msg' + if (x, msg') = (pid, msg) then 1 else 0 := by
  obtain ⟨s, hs⟩ := alive_iff.1 hx
  rw [waiting, waiting, state_sendSystem, hs, Option.map_some, Option.elim_some,
    Option.elim_some]
  by_cases hpid : x = pid
  · subst hpid
    rw [if_pos rfl]
    show (msg.toMailbox :: s.mailbox.queue).count msg'.toMailbox = _
    rw [List.count_cons]
    congr 1
    by_cases hmsg : msg' = msg
    · subst hmsg
      simp
    · have hne : msg.toMailbox ≠ msg'.toMailbox :=
        fun h => hmsg (SystemMessage.toMailbox_injective h).symm
      simp [hne, hmsg]
  · rw [if_neg hpid, if_neg fun h => hpid (Prod.mk.inj h).1]
    rfl

/-- An exit sends no signal about a particle of another node. -/
theorem waiting_exitParticle {reg : ParticleRegistry} (hl : reg.AllLocal)
    (pid : Pid) (reason : ExitReason) {x : Pid}
    (hx : (reg.exitParticle pid reason).Alive x) {msg : SystemMessage}
    (hmsg : msg.source.node ≠ reg.me) :
    (reg.exitParticle pid reason).waiting x msg = reg.waiting x msg := by
  by_cases hpid : reg.Alive pid
  swap
  · rw [exitParticle_of_dead reason hpid]
  obtain ⟨D, hD⟩ := exitParticle_exact reason hpid
  obtain ⟨halive, hnot⟩ := (hD.alive x).1 hx
  obtain ⟨s, hs⟩ := alive_iff.1 halive
  obtain ⟨s', hs', hsurvives⟩ := hD.survivors x s hs hnot
  obtain ⟨received, hmailbox, hexits, hdowns, hkinds⟩ := hsurvives.received
  have hremote : ∀ q ∈ D, q ≠ msg.source := by
    rintro q hq rfl
    -- The dead were alive here.
    have hq' : reg.Alive msg.source := by
      have hmem : {y | reg.Alive y} ∈
          {S : Set Pid | pid ∈ S ∧ reg.CascadeClosed reason S} := by
        refine ⟨hpid, fun _ y _ hy => ?_⟩
        obtain ⟨-, -, sy, hsy, -⟩ := hy
        exact alive_iff.2 ⟨sy, hsy⟩
      exact hD.least.2 hmem hq
    exact hmsg (hl _ hq')
  have hnone : msg ∉ received := by
    intro hmem
    have hpos := List.count_pos_iff.2 hmem
    rcases hkinds msg hmem with ⟨q, rfl⟩ | ⟨q, ref, rfl⟩
    · rw [hexits q, if_neg fun h => hremote q h.1 rfl] at hpos
      exact Nat.lt_irrefl _ hpos
    · rw [hdowns q ref, if_neg fun h => hremote q h rfl] at hpos
      exact Nat.lt_irrefl _ hpos
  rw [waiting_of_state hs', waiting_of_state hs, hmailbox]
  show ((received.map SystemMessage.toMailbox).reverse ++ s.mailbox.queue).count
    msg.toMailbox = _
  rw [List.count_append, List.count_reverse,
    List.count_map_of_injective received _ SystemMessage.toMailbox_injective,
    List.count_eq_zero_of_not_mem hnone, Nat.zero_add]

/-- A signal inherited from another node arrives as a message at every
particle that survives it. -/
theorem waiting_applyInheritedExit {reg : ParticleRegistry} (hl : reg.AllLocal)
    {target source : Pid} {reason : ExitReason}
    (habnormal : reason.isAbnormal = true) {x : Pid}
    (hx : (reg.applyInheritedExit target source reason).Alive x)
    {msg : SystemMessage} (hmsg : msg.source.node ≠ reg.me) :
    (reg.applyInheritedExit target source reason).waiting x msg =
      reg.waiting x msg +
        if (x, msg) = (target, .exit source reason) then 1 else 0 := by
  cases hs : reg.state target with
  | none =>
    rw [applyInheritedExit_of_dead source reason hs] at hx ⊢
    rw [if_neg, Nat.add_zero]
    intro h
    obtain ⟨sx, hsx⟩ := alive_iff.1 hx
    rw [(Prod.mk.inj h).1, hs] at hsx
    cases hsx
  | some s =>
    cases ht : s.trapExit with
    | true =>
      rw [applyInheritedExit_of_trapping source reason hs ht] at hx ⊢
      exact waiting_sendSystem (alive_modifyState.1 hx) target _ msg
    | false =>
      rw [applyInheritedExit_of_not_trapping source reason hs ht,
        if_pos habnormal] at hx ⊢
      rw [waiting_exitParticle hl target reason hx hmsg, if_neg, Nat.add_zero]
      -- The target is among the dead.
      intro h
      obtain ⟨D, hD⟩ := exitParticle_exact reason (alive_iff.2 ⟨s, hs⟩)
      refine ((hD.alive x).1 hx).2 ?_
      rw [(Prod.mk.inj h).1]
      exact hD.least.1.1

end ParticleRegistry

namespace LossRound

/-- The signals that the reactor has yet to send. -/
def due (links : List (Pid × Pid)) (monitors : List (Pid × Pid × UInt64)) :
    List (Pid × SystemMessage) :=
  (links.map fun l => (l.1, .exit l.2 .noConnection)) ++
    monitors.map fun m => (m.1, .down m.2.1 m.2.2 .noConnection)

/-- In a round, a live particle has got exactly the signals that were found
and are no longer due. -/
structure RoundInv (s : LossRound) : Prop where
  allLocal : s.reg.AllLocal
  round : ∀ node base links monitors, s.phase = .firing node base links monitors →
    node ≠ s.reg.me ∧ ∀ x msg, s.reg.Alive x → msg.source.node = node →
      s.reg.waiting x msg + (due links monitors).count (x, msg) =
        base.waiting x msg + (due (base.relationshipsWithNode node).1
          (base.relationshipsWithNode node).2).count (x, msg)

/-- What others do between the steps sends no signal about the lost node. -/
theorem waiting_perform {reg : ParticleRegistry} (hl : reg.AllLocal) {op : RegistryOp}
    (hop : op.amidLoss = true) {x : Pid} (hx : (reg.perform op).Alive x)
    {msg : SystemMessage} (hmsg : msg.source.node ≠ reg.me) :
    (reg.perform op).waiting x msg = reg.waiting x msg := by
  cases op with
  | exit pid reason => exact waiting_exitParticle hl pid reason hx hmsg
  | registerName | unregisterName | inheritedExit | directedExit => cases hop
  | atomic op =>
    cases op with
    | linkRemote | unlinkRemote | setTrapExit =>
      refine waiting_modifyState ?_ x msg
      intro st
      rfl
    | monitorRemote watcher target refId =>
      refine (waiting_modifyState ?_ x msg).trans (waiting_modifyState ?_ x msg)
      · intro st
        rfl
      · intro st
        rfl
    | registerComponent | link | deliverExit | deliverDown | forgetNode => cases hop

/-- A signal that has arrived is no longer due. -/
theorem count_fired {now before : Nat} {e d : Pid × SystemMessage}
    {rest : List (Pid × SystemMessage)}
    (h : now = before + if e = d then 1 else 0) :
    now + rest.count e = before + (d :: rest).count e := by
  rw [h, List.count_cons]
  by_cases hed : e = d
  · simp [hed]
    omega
  · have hde : ¬ d = e := fun heq => hed heq.symm
    simp [hed, hde]

/-- A step of the reactor or of somebody else in a round. -/
theorem RoundInv.amid {s : LossRound} (h : RoundInv s) {reg : ParticleRegistry}
    (hbirth : NoBirth s.reg reg) {node : EndpointId} {base : ParticleRegistry}
    {links links' : List (Pid × Pid)} {monitors monitors' : List (Pid × Pid × UInt64)}
    (hphase : s.phase = .firing node base links monitors)
    (hwaiting : ∀ x msg, reg.Alive x → msg.source.node = node →
      reg.waiting x msg + (due links' monitors').count (x, msg) =
        s.reg.waiting x msg + (due links monitors).count (x, msg)) :
    RoundInv ⟨reg, .firing node base links' monitors'⟩ where
  allLocal := hbirth.allLocal h.allLocal
  round node₁ base₁ links₁ monitors₁ heq := by
    cases heq
    obtain ⟨hne, hround⟩ := h.round node base links monitors hphase
    rw [hbirth.me]
    refine ⟨hne, fun x msg hx hmsg => ?_⟩
    rw [hwaiting x msg hx hmsg]
    exact hround x msg (hbirth.alive x hx) hmsg

theorem RoundInv.step {s t : LossRound} {a : LossAction} (h : RoundInv s)
    (hstep : s.step a = some t) : RoundInv t := by
  obtain ⟨reg, phase⟩ := s
  have hbirth : ∀ op, NoBirth reg (reg.perform op) := noBirth_perform reg
  cases phase with
  | idle =>
    cases a with
    | lose node =>
      unfold LossRound.step at hstep
      dsimp only at hstep
      split at hstep
      · cases hstep
      rename_i hne
      split at hstep
      · cases hstep
        exact h
      · rename_i links monitors _ hrel
        cases hstep
        refine ⟨h.allLocal, ?_⟩
        intro node₁ base₁ links₁ monitors₁ heq
        cases heq
        refine ⟨hne, fun x msg _ _ => ?_⟩
        rw [hrel]
    | advance => cases hstep
    | other op =>
      unfold LossRound.step at hstep
      dsimp only at hstep
      split at hstep
      · cases hstep
        exact ⟨(hbirth op).allLocal h.allLocal, nofun⟩
      · cases hstep
  | firing node base links monitors =>
    obtain ⟨hne, -⟩ := h.round node base links monitors rfl
    cases a with
    | lose node' => cases hstep
    | other op =>
      unfold LossRound.step at hstep
      dsimp only at hstep
      split at hstep
      · rename_i hop
        cases hstep
        refine h.amid (hbirth op) rfl fun x msg hx hmsg => ?_
        rw [waiting_perform h.allLocal hop hx (by rw [hmsg]; exact hne)]
      · cases hstep
    | advance =>
      cases links with
      | cons l links =>
        cases hstep
        refine h.amid (hbirth (.inheritedExit l.1 l.2 .noConnection)) rfl
          fun x msg hx hmsg => ?_
        exact count_fired (waiting_applyInheritedExit h.allLocal rfl hx
          (by rw [hmsg]; exact hne))
      | nil =>
        cases monitors with
        | cons m monitors =>
          cases hstep
          refine h.amid (hbirth (.atomic (.deliverDown m.1 m.2.1 m.2.2 .noConnection)))
            rfl fun x msg hx hmsg => ?_
          exact count_fired (waiting_sendSystem (alive_modifyState.1 hx) m.1 _ msg)
        | nil =>
          cases hstep
          exact ⟨(hbirth (.atomic (.forgetNode node))).allLocal h.allLocal, nofun⟩

/-! ## What is recorded at the end of a round -/

/-- Every link and every monitor towards the node that is recorded now has
fired exactly once since the reactor listed them. -/
def NothingSilent (s : LossRound) (node : EndpointId) (base : ParticleRegistry) :
    Prop :=
  (∀ x y, HasLink s.reg x y → y.node = node →
    s.reg.waiting x (.exit y .noConnection) =
      base.waiting x (.exit y .noConnection) + 1) ∧
  ∀ w y r, HasMonitor s.reg w y r → y.node = node →
    s.reg.waiting w (.down y r .noConnection) =
      base.waiting w (.down y r .noConnection) + 1

/-- Every link and every monitor towards the node that is recorded now was
there when the reactor listed them. -/
def Listed (s : LossRound) (node : EndpointId) (base : ParticleRegistry) : Prop :=
  (∀ x y, HasLink s.reg x y → y.node = node → HasLink base x y) ∧
  ∀ w y r, HasMonitor s.reg w y r → y.node = node → HasMonitor base w y r

/-- The condition on a step.  While the reactor is busy with a node, a living
particle records only relationships with it that are on the list. -/
def RecordsListed (s : LossRound) : LossAction → Prop
  | .other (.atomic (.linkRemote x y)) =>
    match s.phase with
    | .idle => True
    | .firing node base _ _ => y.node = node → s.reg.Alive x → HasLink base x y
  | .other (.atomic (.monitorRemote w y r)) =>
    match s.phase with
    | .idle => True
    | .firing node base _ _ => y.node = node → s.reg.Alive w → HasMonitor base w y r
  | _ => True

theorem count_due_exit (links : List (Pid × Pid))
    (monitors : List (Pid × Pid × UInt64)) (x y : Pid) :
    (due links monitors).count (x, .exit y .noConnection) = links.count (x, y) := by
  have hinj : Function.Injective fun l : Pid × Pid =>
      (l.1, SystemMessage.exit l.2 .noConnection) := by
    rintro ⟨a, b⟩ ⟨c, d⟩ h
    cases h
    rfl
  have hdowns : (x, SystemMessage.exit y .noConnection) ∉ monitors.map fun m =>
      (m.1, SystemMessage.down m.2.1 m.2.2 .noConnection) := by
    intro h
    obtain ⟨m, -, hm⟩ := List.mem_map.1 h
    cases hm
  rw [due, List.count_append, List.count_eq_zero_of_not_mem hdowns]
  exact List.count_map_of_injective links _ hinj (x, y)

theorem count_due_down (links : List (Pid × Pid))
    (monitors : List (Pid × Pid × UInt64)) (w y : Pid) (r : UInt64) :
    (due links monitors).count (w, .down y r .noConnection) =
      monitors.count (w, y, r) := by
  have hinj : Function.Injective fun m : Pid × Pid × UInt64 =>
      (m.1, SystemMessage.down m.2.1 m.2.2 .noConnection) := by
    rintro ⟨a, b, c⟩ ⟨d, e, f⟩ h
    cases h
    rfl
  have hexits : (w, SystemMessage.down y r .noConnection) ∉ links.map fun l =>
      (l.1, SystemMessage.exit l.2 .noConnection) := by
    intro h
    obtain ⟨l, -, hl⟩ := List.mem_map.1 h
    cases hl
  rw [due, List.count_append, List.count_eq_zero_of_not_mem hexits, Nat.zero_add]
  exact List.count_map_of_injective monitors _ hinj (w, y, r)

/-- When everything on the list has fired, a recorded relationship has fired
exactly if it was on the list. -/
theorem RoundInv.nothingSilent_iff {s : LossRound} (h : RoundInv s)
    {node : EndpointId} {base : ParticleRegistry}
    (hphase : s.phase = .firing node base [] []) :
    s.NothingSilent node base ↔ s.Listed node base := by
  obtain ⟨-, hround⟩ := h.round node base [] [] hphase
  have hlink : ∀ x y, HasLink s.reg x y → y.node = node →
      (s.reg.waiting x (.exit y .noConnection) =
        base.waiting x (.exit y .noConnection) + 1 ↔ HasLink base x y) := by
    rintro x y ⟨st, hst, -⟩ hy
    have hcount := hround x (.exit y .noConnection) (alive_iff.2 ⟨st, hst⟩) hy
    rw [count_due_exit, count_due_exit, List.count_nil, Nat.add_zero,
      (nodup_relationshipsWithNode_links base node).count] at hcount
    rw [hcount, Nat.add_left_cancel_iff]
    split
    · rename_i hmem
      obtain ⟨sb, hsb, hyb, -⟩ := mem_relationshipsWithNode_links.1 hmem
      exact iff_of_true rfl ⟨sb, hsb, hyb⟩
    · rename_i hmem
      refine iff_of_false (by omega) ?_
      rintro ⟨sb, hsb, hyb⟩
      exact hmem (mem_relationshipsWithNode_links.2 ⟨sb, hsb, hyb, hy⟩)
  have hmonitor : ∀ w y r, HasMonitor s.reg w y r → y.node = node →
      (s.reg.waiting w (.down y r .noConnection) =
        base.waiting w (.down y r .noConnection) + 1 ↔ HasMonitor base w y r) := by
    rintro w y r ⟨st, hst, -⟩ hy
    have hcount := hround w (.down y r .noConnection) (alive_iff.2 ⟨st, hst⟩) hy
    rw [count_due_down, count_due_down, List.count_nil, Nat.add_zero,
      (nodup_relationshipsWithNode_monitors base node).count] at hcount
    rw [hcount, Nat.add_left_cancel_iff]
    split
    · rename_i hmem
      obtain ⟨sb, hsb, hyb, -⟩ := mem_relationshipsWithNode_monitors.1 hmem
      exact iff_of_true rfl ⟨sb, hsb, hyb⟩
    · rename_i hmem
      refine iff_of_false (by omega) ?_
      rintro ⟨sb, hsb, hyb⟩
      exact hmem (mem_relationshipsWithNode_monitors.2 ⟨sb, hsb, hyb, hy⟩)
  exact and_congr
    (forall₂_congr fun x y => forall₂_congr fun hxy hy => hlink x y hxy hy)
    (forall₃_congr fun w y r => forall₂_congr fun hwy hy => hmonitor w y r hwy hy)

theorem hasLink_of_evolves {reg reg' : ParticleRegistry} (h : Evolves reg reg')
    {x y : Pid} (hy : y.node ≠ reg.me) (hlink : HasLink reg' x y) :
    HasLink reg x y := by
  obtain ⟨s', hs', hmem⟩ := hlink
  obtain ⟨s, hs, hsame⟩ := h.kept x s' hs'
  exact ⟨s, hs, (hsame.links y hy).1 hmem⟩

theorem hasMonitor_of_evolves {reg reg' : ParticleRegistry} (h : Evolves reg reg')
    {w y : Pid} {r : UInt64} (hmonitor : HasMonitor reg' w y r) :
    HasMonitor reg w y r := by
  obtain ⟨s', hs', hheld⟩ := hmonitor
  obtain ⟨s, hs, hsame⟩ := h.kept w s' hs'
  exact ⟨s, hs, hsame.monitors r y hheld⟩

/-- What is recorded after an action of others was recorded before, or the
action records it. -/
theorem hasLink_perform {reg : ParticleRegistry} (hl : reg.AllLocal)
    {op : RegistryOp} (hop : op.amidLoss = true) {x y : Pid} (hy : y.node ≠ reg.me)
    (hlink : HasLink (reg.perform op) x y) :
    HasLink reg x y ∨ op = .atomic (.linkRemote x y) ∧ reg.Alive x := by
  obtain ⟨s', hs', hmem⟩ := hlink
  cases op with
  | exit pid reason =>
    exact .inl (hasLink_of_evolves (evolves_exitParticle hl pid reason) hy
      ⟨s', hs', hmem⟩)
  | registerName | unregisterName | inheritedExit | directedExit => cases hop
  | atomic op =>
    cases op with
    | linkRemote loc remote =>
      have hs := (state_modifyState _ _ _ _).symm.trans hs'
      split at hs
      · rename_i hx
        obtain ⟨st, hst, rfl⟩ := Option.map_eq_some_iff.1 hs
        rcases KeySet.mem_insert.1 hmem with rfl | hmem
        · exact .inr ⟨by rw [hx], alive_iff.2 ⟨st, hst⟩⟩
        · exact .inl ⟨st, hst, hmem⟩
      · exact .inl ⟨s', hs, hmem⟩
    | unlinkRemote loc remote =>
      have hs := (state_modifyState _ _ _ _).symm.trans hs'
      split at hs
      · obtain ⟨st, hst, rfl⟩ := Option.map_eq_some_iff.1 hs
        exact .inl ⟨st, hst, (KeySet.mem_remove.1 hmem).2⟩
      · exact .inl ⟨s', hs, hmem⟩
    | setTrapExit pid enabled =>
      have hs := (state_modifyState _ _ _ _).symm.trans hs'
      split at hs
      · obtain ⟨st, hst, rfl⟩ := Option.map_eq_some_iff.1 hs
        exact .inl ⟨st, hst, hmem⟩
      · exact .inl ⟨s', hs, hmem⟩
    | monitorRemote watcher target refId =>
      obtain ⟨s, hs, rfl⟩ := Option.map_eq_some_iff.1
        ((state_monitorWithRef reg watcher target x refId).symm.trans hs')
      exact .inl ⟨s, hs, hmem⟩
    | registerComponent | link | deliverExit | deliverDown | forgetNode => cases hop

theorem hasMonitor_perform {reg : ParticleRegistry} (hl : reg.AllLocal)
    {op : RegistryOp} (hop : op.amidLoss = true) {w y : Pid} {r : UInt64}
    (hmonitor : HasMonitor (reg.perform op) w y r) :
    HasMonitor reg w y r ∨ op = .atomic (.monitorRemote w y r) ∧ reg.Alive w := by
  obtain ⟨s', hs', hheld⟩ := hmonitor
  cases op with
  | exit pid reason =>
    exact .inl (hasMonitor_of_evolves (evolves_exitParticle hl pid reason)
      ⟨s', hs', hheld⟩)
  | registerName | unregisterName | inheritedExit | directedExit => cases hop
  | atomic op =>
    cases op with
    | linkRemote | unlinkRemote | setTrapExit =>
      have hs := (state_modifyState _ _ _ _).symm.trans hs'
      split at hs
      · obtain ⟨st, hst, rfl⟩ := Option.map_eq_some_iff.1 hs
        exact .inl ⟨st, hst, hheld⟩
      · exact .inl ⟨s', hs, hheld⟩
    | monitorRemote watcher target refId =>
      obtain ⟨s, hs, rfl⟩ := Option.map_eq_some_iff.1
        ((state_monitorWithRef reg watcher target w refId).symm.trans hs')
      unfold withMonitor at hheld
      dsimp only at hheld
      split at hheld
      · rename_i hw
        rw [Table.lookup_insert_eq] at hheld
        split at hheld
        · rename_i hr
          cases hheld
          exact .inr ⟨by rw [hw, hr], alive_iff.2 ⟨s, hs⟩⟩
        · exact .inl ⟨s, hs, hheld⟩
      · exact .inl ⟨s, hs, hheld⟩
    | registerComponent | link | deliverExit | deliverDown | forgetNode => cases hop

/-- The invariant of runs that record only what is on the list. -/
structure ListedInv (s : LossRound) : Prop extends RoundInv s where
  listed : ∀ node base links monitors,
    s.phase = .firing node base links monitors → s.Listed node base

/-- A step of the reactor, or one of others that records nothing new. -/
theorem Listed.mono {s : LossRound} {node : EndpointId} {base reg : ParticleRegistry}
    (h : s.Listed node base)
    (hlink : ∀ x y, HasLink reg x y → y.node = node →
      HasLink s.reg x y ∨ HasLink base x y)
    (hmonitor : ∀ w y r, HasMonitor reg w y r → y.node = node →
      HasMonitor s.reg w y r ∨ HasMonitor base w y r) (phase : LossPhase) :
    Listed ⟨reg, phase⟩ node base :=
  ⟨fun x y hxy hy => (hlink x y hxy hy).elim (fun hold => h.1 x y hold hy) id,
    fun w y r hwy hy => (hmonitor w y r hwy hy).elim (fun hold => h.2 w y r hold hy) id⟩

theorem ListedInv.step {s t : LossRound} {a : LossAction} (h : ListedInv s)
    (hok : s.RecordsListed a) (hstep : s.step a = some t) : ListedInv t := by
  refine ⟨h.toRoundInv.step hstep, ?_⟩
  obtain ⟨reg, phase⟩ := s
  have hl : reg.AllLocal := h.allLocal
  intro node₁ base₁ links₁ monitors₁ hphase
  cases phase with
  | idle =>
    cases a with
    | lose node =>
      unfold LossRound.step at hstep
      dsimp only at hstep
      split at hstep
      · cases hstep
      split at hstep
      · cases hstep
        cases hphase
      · cases hstep
        cases hphase
        exact ⟨fun _ _ hxy _ => hxy, fun _ _ _ hwy _ => hwy⟩
    | advance => cases hstep
    | other op =>
      unfold LossRound.step at hstep
      dsimp only at hstep
      split at hstep
      · cases hstep
        cases hphase
      · cases hstep
  | firing node base links monitors =>
    have hne : node ≠ reg.me := (h.round node base links monitors rfl).1
    have hlisted := h.listed node base links monitors rfl
    -- What the reactor fires records nothing.
    have hfires : ∀ reg', Evolves reg reg' → ∀ phase,
        Listed ⟨reg', phase⟩ node base := fun reg' hevolves phase =>
      hlisted.mono
        (fun x y hxy hy => .inl (hasLink_of_evolves hevolves (hy.symm ▸ hne) hxy))
        (fun w y r hwy _ => .inl (hasMonitor_of_evolves hevolves hwy)) phase
    cases a with
    | lose node' => cases hstep
    | advance =>
      cases links with
      | cons l links =>
        cases hstep
        cases hphase
        exact hfires _ (evolves_applyInheritedExit hl l.1 l.2 .noConnection) _
      | nil =>
        cases monitors with
        | cons m monitors =>
          cases hstep
          cases hphase
          exact hfires _ (evolves_sendSystem reg m.1 _) _
        | nil =>
          cases hstep
          cases hphase
    | other op =>
      unfold LossRound.step at hstep
      dsimp only at hstep
      split at hstep
      swap
      · cases hstep
      rename_i hop
      cases hstep
      cases hphase
      refine hlisted.mono (fun x y hxy hy => ?_) (fun w y r hwy hy => ?_) _
      · rcases hasLink_perform hl hop (hy.symm ▸ hne) hxy with hold | ⟨rfl, halive⟩
        · exact .inl hold
        · exact .inr (hok hy halive)
      · rcases hasMonitor_perform hl hop hwy with hold | ⟨rfl, halive⟩
        · exact .inl hold
        · exact .inr (hok hy halive)

/-- When the reactor is about to forget the node, every relationship that this
removes has fired exactly once, if and only if it was on the list.  It was, if
nobody recorded one meanwhile. -/
theorem lost_node_is_not_silent {reg : ParticleRegistry} (hl : reg.AllLocal)
    {s : LossRound} {node : EndpointId} {base : ParticleRegistry}
    (hphase : s.phase = .firing node base [] []) :
    (Run step anyStep ⟨reg, .idle⟩ s →
      (s.NothingSilent node base ↔ s.Listed node base)) ∧
    (Run step RecordsListed ⟨reg, .idle⟩ s → s.NothingSilent node base) := by
  have hstart : RoundInv ⟨reg, .idle⟩ := ⟨hl, nofun⟩
  constructor
  · intro h
    have hinv : RoundInv s :=
      h.invariant (fun hinv _ hstep => hinv.step hstep) hstart
    exact hinv.nothingSilent_iff hphase
  · intro h
    have hinv : ListedInv s :=
      h.invariant (fun hinv hok hstep => hinv.step hok hstep) ⟨hstart, nofun⟩
    exact (hinv.nothingSilent_iff hphase).2 (hinv.listed node base [] [] hphase)

/-- A particle that traps exits.  It is linked to one particle of node 2 and
watches another. -/
def linkedAcross : ParticleRegistry :=
  (((((new ⟨1⟩).registerComponent "worker").spawn "worker" none).1.setTrapExit
    ⟨⟨1⟩, 1⟩ true).linkRemote ⟨⟨1⟩, 1⟩ ⟨⟨2⟩, 1⟩).monitorRemote ⟨⟨1⟩, 1⟩ ⟨⟨2⟩, 2⟩ 7

theorem allLocal_linkedAcross : linkedAcross.AllLocal := by
  have hkeys : ∀ x ∈ linkedAcross.particleStates.keys, x.node = linkedAcross.me := by
    decide
  exact fun x hx => hkeys x (AList.mem_keys.1 hx)

/-- The reactor has listed both relationships. -/
theorem lose_linkedAcross : step ⟨linkedAcross, .idle⟩ (.lose ⟨2⟩) =
    some ⟨linkedAcross, .firing ⟨2⟩ linkedAcross [(⟨⟨1⟩, 1⟩, ⟨⟨2⟩, 1⟩)]
      [(⟨⟨1⟩, 1⟩, ⟨⟨2⟩, 2⟩, 7)]⟩ :=
  step_lose (by decide) (by decide) (by decide)

/-- Both relationships fire. -/
theorem lost_node_is_not_silent_linkedAcross :
    ∃ s, Run step RecordsListed ⟨linkedAcross, .idle⟩ s ∧
      s.phase = .firing ⟨2⟩ linkedAcross [] [] ∧
      s.reg.waiting ⟨⟨1⟩, 1⟩ (.exit ⟨⟨2⟩, 1⟩ .noConnection) = 1 ∧
      s.NothingSilent ⟨2⟩ linkedAcross ∧ s.Listed ⟨2⟩ linkedAcross := by
  have hadvance : ∀ s, RecordsListed s .advance := fun _ => trivial
  have hlose : Run step RecordsListed ⟨linkedAcross, .idle⟩ _ :=
    Run.single (a := .lose ⟨2⟩) trivial lose_linkedAcross
  have hrun := hlose.trans ((fire_links hadvance ⟨2⟩ linkedAcross _ _ _).trans
    (fire_monitors hadvance ⟨2⟩ linkedAcross _ _))
  refine ⟨_, hrun, rfl, by decide, ?_, ?_⟩
  · exact (lost_node_is_not_silent allLocal_linkedAcross rfl).2 hrun
  · exact ((lost_node_is_not_silent allLocal_linkedAcross rfl).1
      (hrun.mono fun _ => trivial)).1
      ((lost_node_is_not_silent allLocal_linkedAcross rfl).2 hrun)

/-- The particle has linked to a third one after the reactor listed the
others, and the reactor has fired those. -/
def linkedLate : ParticleRegistry :=
  ((linkedAcross.linkRemote ⟨⟨1⟩, 1⟩ ⟨⟨2⟩, 3⟩).applyInheritedExit ⟨⟨1⟩, 1⟩
    ⟨⟨2⟩, 1⟩ .noConnection).deliverDown ⟨⟨1⟩, 1⟩ ⟨⟨2⟩, 2⟩ 7 .noConnection

/-- The third link has not fired, and is forgotten with the others. -/
theorem late_link_is_forgotten :
    ∃ s t, Run step anyStep ⟨linkedAcross, .idle⟩ s ∧
      s.phase = .firing ⟨2⟩ linkedAcross [] [] ∧
      HasLink s.reg ⟨⟨1⟩, 1⟩ ⟨⟨2⟩, 3⟩ ∧
      s.reg.waiting ⟨⟨1⟩, 1⟩ (.exit ⟨⟨2⟩, 3⟩ .noConnection) = 0 ∧
      s.step .advance = some t ∧ t.reg.linksOf ⟨⟨1⟩, 1⟩ = [] ∧
      ¬ s.NothingSilent ⟨2⟩ linkedAcross := by
  have hadvance : ∀ s, (anyStep : LossRound → LossAction → Prop) s .advance :=
    fun _ => trivial
  have hlose : Run step anyStep ⟨linkedAcross, .idle⟩ _ :=
    Run.single (a := .lose ⟨2⟩) trivial lose_linkedAcross
  have hlink : Run step anyStep ⟨linkedAcross, .firing ⟨2⟩ linkedAcross
      [(⟨⟨1⟩, 1⟩, ⟨⟨2⟩, 1⟩)] [(⟨⟨1⟩, 1⟩, ⟨⟨2⟩, 2⟩, 7)]⟩ _ :=
    Run.single (a := .other (.atomic (.linkRemote ⟨⟨1⟩, 1⟩ ⟨⟨2⟩, 3⟩))) trivial rfl
  have hrun : Run step anyStep ⟨linkedAcross, .idle⟩
      ⟨linkedLate, .firing ⟨2⟩ linkedAcross [] []⟩ :=
    hlose.trans (hlink.trans ((fire_links hadvance ⟨2⟩ linkedAcross _ _ _).trans
      (fire_monitors hadvance ⟨2⟩ linkedAcross _ _)))
  have hlinked : HasLink linkedLate ⟨⟨1⟩, 1⟩ ⟨⟨2⟩, 3⟩ :=
    ParticleRegistry.mem_linksOf.1 (by decide)
  have hunfired : linkedLate.waiting ⟨⟨1⟩, 1⟩ (.exit ⟨⟨2⟩, 3⟩ .noConnection) = 0 := by
    decide
  refine ⟨_, _, hrun, rfl, hlinked, hunfired, rfl, by decide, fun hsilent => ?_⟩
  have hfired := hsilent.1 _ _ hlinked rfl
  rw [hunfired] at hfired
  cases hfired

end LossRound

end Plasmoid
