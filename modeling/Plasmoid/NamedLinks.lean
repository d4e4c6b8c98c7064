import Plasmoid.RecordedHalves
import Plasmoid.FiresOnce

/-!
# Links made by name

A link across nodes should carry the death of either end, and the loss of
either node, to the other end.  What carries it is the half that the end which
goes away, or the end which loses the node, has recorded.  A link made by pid
records both halves.  A link made by name records only that of the target, so
the death of the linker is silent, and so is the loss of the target's node.
-/

namespace Plasmoid

open Machine

namespace ParticleRegistry

/-! ## What a death and a loss signal -/

/-- The deaths that the exit of a particle publishes. -/
def deathsOf (reg : ParticleRegistry) (x : Pid) (reason : ExitReason) :
    List ParticleDeath :=
  (reg.exitParticle x reason).deaths.drop reg.deaths.length

variable (codec : WireCodec PeerMessage)

/-- The exit signals of `x` for `y` that the forwarder hands to `send` when `x`
dies. -/
def exitsFor (reg : ParticleRegistry) (x y : Pid) (reason : ExitReason) :
    List PeerMessage :=
  (((reg.deathsOf x reason).flatMap forwardDeath).map Prod.snd).filter
    (PeerMessage.isExit x y)

/-- Those of them that are not refused. -/
def exitsTo (reg : ParticleRegistry) (x y : Pid) (reason : ExitReason) :
    List PeerMessage :=
  (reg.exitsFor x y reason).filter codec.accepts

/-- The links of `x` to `y` that the loss of the node of `y` fires. -/
def firedLinks (reg : ParticleRegistry) (x y : Pid) : List (Pid × Pid) :=
  (reg.relationshipsWithNode y.node).1.filter fun l => l = (x, y)

/-- The death of `x` reaches `y` on another node, whose registry is `there`
when the signals arrive: `y` inherits the exit, unless its signal is refused
by whoever sends it. -/
def DeathReaches (reg there : ParticleRegistry) (x y : Pid)
    (reason : ExitReason) : Prop :=
  (reg.exitsTo codec x y reason).foldl
      (fun g m => (g.handlePeerMessage m).1) there =
    if codec.accepts (.exit x y reason) then
      there.applyInheritedExit y x reason
    else there

/-- The loss of the node of `y` reaches `x`. -/
def LossReaches (reg : ParticleRegistry) (x y : Pid) : Prop :=
  (reg.firedLinks x y).foldl
      (fun g l => g.applyInheritedExit l.1 l.2 .noConnection) reg =
    reg.applyInheritedExit x y .noConnection

/-- An exit signal changes nothing for `y`: it is not there, or it does not
trap exits and the reason is normal. -/
def Ignores (reg : ParticleRegistry) (y : Pid) (reason : ExitReason) : Prop :=
  ∀ st, reg.state y = some st → st.trapExit = false ∧ reason = .normal

/-- The deaths of an exit: one for each of the dead, with its reason and its
relationships. -/
theorem deathsOf_spec {reg : ParticleRegistry} (hl : reg.AllLocal) {x : Pid}
    (hx : reg.Alive x) (reason : ExitReason) :
    ((reg.deathsOf x reason).map (·.pid)).Nodup ∧
      (∃ d ∈ reg.deathsOf x reason, d.pid = x) ∧
      ∀ d ∈ reg.deathsOf x reason, d.reason = reason ∧
        ∃ st, reg.state d.pid = some st ∧ Reports reg.me st d := by
  obtain ⟨D, hD⟩ := exitParticle_exact reason hx
  obtain ⟨ds, hds, hpids, hreasons⟩ := hD.deaths
  obtain ⟨ds', hds', -, hreports, -⟩ := (evolves_exitParticle hl x reason).deaths
  have heq : ds' = ds := List.append_cancel_left (hds'.symm.trans hds)
  subst heq
  have hdeaths : reg.deathsOf x reason = ds' := by
    rw [deathsOf, hds, List.drop_left]
  rw [hdeaths]
  refine ⟨?_, ?_, ?_⟩
  · rw [hpids]
    exact hD.nodup
  · have hmem : x ∈ ds'.map (·.pid) := by
      rw [hpids]
      exact hD.least.1.1
    obtain ⟨d, hd, hpid⟩ := List.mem_map.1 hmem
    exact ⟨d, hd, hpid⟩
  · intro d hd
    exact ⟨hreasons d hd, (hreports d hd).2⟩

/-- A death sends `y` one exit signal of `x` if it is that of `x` and `y` is
among its links, and none otherwise. -/
theorem exits_of_death {d : ParticleDeath} (hnodup : d.remoteLinks.Nodup)
    (x y : Pid) :
    ((forwardDeath d).map Prod.snd).filter (PeerMessage.isExit x y) =
      if d.pid = x ∧ y ∈ d.remoteLinks then [.exit x y d.reason] else [] := by
  have hlength : (((forwardDeath d).map Prod.snd).filter
      (PeerMessage.isExit x y)).length =
      if d.pid = x then d.remoteLinks.count y else 0 := by
    rw [← List.countP_eq_length_filter]
    exact exitsInFlight_forwardDeath d x y
  have hall : ∀ m ∈ ((forwardDeath d).map Prod.snd).filter
      (PeerMessage.isExit x y), m = .exit x y d.reason := by
    intro m hm
    obtain ⟨hm, hexit⟩ := List.mem_filter.1 hm
    obtain ⟨e, he, rfl⟩ := List.mem_map.1 hm
    rcases List.mem_append.1 he with he | he
    · obtain ⟨z, -, rfl⟩ := List.mem_map.1 he
      simp only [PeerMessage.isExit, decide_eq_true_eq] at hexit
      rw [hexit.1, hexit.2]
    · obtain ⟨w, -, rfl⟩ := List.mem_map.1 he
      cases hexit
  rw [List.eq_replicate_of_mem hall, hlength]
  by_cases hx : d.pid = x
  · by_cases hy : y ∈ d.remoteLinks
    · rw [if_pos hx, if_pos ⟨hx, hy⟩, List.count_eq_one_of_mem hnodup hy]
      rfl
    · rw [if_pos hx, if_neg fun h => hy h.2, List.count_eq_zero.2 hy]
      rfl
  · rw [if_neg hx, if_neg fun h => hx h.1]
    rfl

/-- What the death of `x` means for `y` is decided by the half of `x`. -/
theorem exitsFor_eq {reg : ParticleRegistry} (hl : reg.AllLocal) {x y : Pid}
    {st : ParticleState} (hst : reg.state x = some st) (hy : y.node ≠ reg.me)
    (reason : ExitReason) :
    reg.exitsFor x y reason =
      if y ∈ st.links then [.exit x y reason] else [] := by
  obtain ⟨hnodup, ⟨d, hd, hpid⟩, hall⟩ :=
    deathsOf_spec hl (alive_iff.2 ⟨st, hst⟩) reason
  obtain ⟨hreason, st', hst', hreports⟩ := hall d hd
  rw [hpid, hst, Option.some_inj] at hst'
  subst hst'
  -- The other deaths are those of other particles.
  have hnil : ∀ l : List ParticleDeath, (∀ e ∈ l, e ∈ reg.deathsOf x reason) →
      (∀ e ∈ l, e.pid ≠ x) → ((l.flatMap forwardDeath).map Prod.snd).filter
        (PeerMessage.isExit x y) = [] := by
    intro l hsub hne
    rw [List.map_flatMap, List.filter_flatMap, List.flatMap_eq_nil_iff]
    intro e he
    obtain ⟨-, st', -, hrep⟩ := hall e (hsub e he)
    rw [exits_of_death hrep.nodup, if_neg fun h => hne e he h.1]
  obtain ⟨before, after, hsplit⟩ := List.append_of_mem hd
  rw [hsplit, List.map_append, List.map_cons, List.nodup_append,
    List.nodup_cons, hpid] at hnodup
  obtain ⟨-, ⟨hafter, -⟩, hbefore⟩ := hnodup
  have hmem : (y ∈ d.remoteLinks) ↔ y ∈ st.links := by
    rw [hreports.links]
    exact and_iff_left hy
  rw [exitsFor, hsplit, List.flatMap_append, List.flatMap_cons, List.map_append,
    List.map_append, List.filter_append, List.filter_append,
    exits_of_death hreports.nodup, hnil before, hnil after, hreason]
  · simp only [hpid, hmem, true_and, List.nil_append, List.append_nil]
  · intro e he
    rw [hsplit]
    exact List.mem_append_right _ (List.mem_cons_of_mem _ he)
  · intro e he heq
    exact hafter (List.mem_map.2 ⟨e, he, heq⟩)
  · intro e he
    rw [hsplit]
    exact List.mem_append_left _ he
  · intro e he heq
    exact hbefore x (List.mem_map.2 ⟨e, he, heq⟩) x List.mem_cons_self rfl

/-- What the loss of the node of `y` fires at `x` is decided by the half of
`x` too. -/
theorem firedLinks_eq {reg : ParticleRegistry} {x y : Pid} {st : ParticleState}
    (hst : reg.state x = some st) :
    reg.firedLinks x y = if y ∈ st.links then [(x, y)] else [] := by
  have hmem : (x, y) ∈ (reg.relationshipsWithNode y.node).1 ↔ y ∈ st.links := by
    rw [mem_relationshipsWithNode_links, hst]
    simp
  have hnodup := nodup_relationshipsWithNode_links reg y.node
  rw [firedLinks, List.filter_eq]
  by_cases hy : y ∈ st.links
  · rw [if_pos hy, List.count_eq_one_of_mem hnodup (hmem.2 hy)]
    rfl
  · rw [if_neg hy, List.count_eq_zero.2 fun h => hy (hmem.1 h)]
    rfl

/-! ## When a signal changes something -/

theorem applyInheritedExit_eq_self_iff {reg : ParticleRegistry} {y x : Pid}
    {reason : ExitReason} :
    reg.applyInheritedExit y x reason = reg ↔ reg.Ignores y reason := by
  constructor
  · intro h st hst
    cases htrap : st.trapExit with
    | true =>
      -- The signal lies in the mailbox.
      rw [applyInheritedExit_of_trapping x reason hst htrap] at h
      have hstate := congrArg (fun g => g.state y) h
      simp only [sendSystem, state_modifyState, if_pos, hst, Option.map_some,
        Option.some_inj] at hstate
      have hlength := congrArg (fun s => s.mailbox.queue.length) hstate
      simp [Mailbox.pushSystem] at hlength
    | false =>
      refine ⟨rfl, ?_⟩
      by_contra hne
      rw [applyInheritedExit_of_not_trapping x reason hst htrap,
        if_pos (ExitReason.isAbnormal_iff.2 hne)] at h
      have hdead := not_alive_exitParticle reg y reason
      rw [h] at hdead
      exact hdead (alive_iff.2 ⟨st, hst⟩)
  · intro h
    cases hst : reg.state y with
    | none => exact applyInheritedExit_of_dead x reason hst
    | some st =>
      obtain ⟨htrap, rfl⟩ := h st hst
      rw [applyInheritedExit_of_not_trapping x .normal hst htrap]
      rfl

/-- A death reaches the other end just if the half of the dead is recorded, or
the signal would change nothing, or it is refused. -/
theorem deathReaches_iff {reg : ParticleRegistry} (hl : reg.AllLocal)
    {x y : Pid} {st : ParticleState} (hst : reg.state x = some st)
    (hy : y.node ≠ reg.me) (there : ParticleRegistry) (reason : ExitReason) :
    DeathReaches codec reg there x y reason ↔
      y ∈ st.links ∨ there.Ignores y reason ∨
        codec.accepts (.exit x y reason) = false := by
  rw [DeathReaches, exitsTo, exitsFor_eq hl hst hy]
  by_cases hlink : y ∈ st.links
  · rw [if_pos hlink, or_iff_left_of_imp fun _ => hlink]
    refine iff_of_true ?_ hlink
    cases haccepts : codec.accepts (.exit x y reason) with
    | true => rw [List.filter_cons_of_pos haccepts]; rfl
    | false => rw [List.filter_cons_of_neg (by simp [haccepts])]; rfl
  · rw [if_neg hlink, or_iff_right hlink, ← applyInheritedExit_eq_self_iff]
    cases codec.accepts (.exit x y reason) with
    | true =>
      rw [if_pos rfl, or_iff_left Bool.true_eq_false.mp]
      exact eq_comm
    | false =>
      rw [if_neg Bool.false_ne_true]
      exact iff_of_true rfl (Or.inr rfl)

theorem lossReaches_iff {reg : ParticleRegistry} {x y : Pid}
    {st : ParticleState} (hst : reg.state x = some st) :
    LossReaches reg x y ↔ y ∈ st.links := by
  rw [LossReaches, firedLinks_eq hst]
  by_cases hlink : y ∈ st.links
  · rw [if_pos hlink]
    exact iff_of_true rfl hlink
  · rw [if_neg hlink]
    refine iff_of_false (fun h => ?_) hlink
    obtain ⟨-, hreason⟩ := applyInheritedExit_eq_self_iff.1 h.symm st hst
    cases hreason

/-- A link made by pid records the half of the linker, so the death of the
linker and the loss of the target's node reach the other end. -/
theorem link_by_pid_reaches {reg : ParticleRegistry} (hl : reg.AllLocal)
    {x y : Pid} (hx : reg.Alive x) (hy : y.node ≠ reg.me) :
    (∀ there reason, DeathReaches codec (reg.hostLink x (.pid (some y))).1 there
      x y reason) ∧ LossReaches (reg.hostLink x (.pid (some y))).1 x y := by
  have hcall : (reg.hostLink x (.pid (some y))).1 = reg.linkRemote x y := by
    have hfar : y.isLocalTo reg.me = false := Pid.isLocalTo_eq_false_iff.2 hy
    simp only [hostLink, Destination.resolveLocal, hfar, linkHalf]
    rfl
  obtain ⟨st, hst⟩ := alive_iff.1 hx
  have hst' : (reg.linkRemote x y).state x =
      some { st with links := st.links.insert y } := by
    rw [linkRemote, state_modifyState, if_pos rfl, hst, Option.map_some]
  have hhalf : y ∈ st.links.insert y := KeySet.mem_insert.2 (Or.inl rfl)
  have hl' : (reg.linkRemote x y).AllLocal := fun z hz =>
    hl z (alive_modifyState.1 hz)
  rw [hcall]
  constructor
  · intro there reason
    exact (deathReaches_iff codec hl' hst' hy there reason).2 (Or.inl hhalf)
  · exact (lossReaches_iff hst').2 hhalf

end ParticleRegistry

/-! ## The other end of a link made by name -/

/-- What happens to an end of a link, or to its node.  `there` is the registry
of the other node when the signals of a death arrive. -/
inductive LinkEvent where
  | linkerDies (reason : ExitReason) (there : ParticleRegistry)
  | targetDies (reason : ExitReason) (there : ParticleRegistry)
  | linkerLost
  | targetLost

namespace PeerCalls

open ParticleRegistry

variable (codec : WireCodec PeerMessage)

/-- The event reaches the other end of the link. -/
def Reaches (s : PeerCalls) (l : NamedLink) : LinkEvent → Prop
  | .linkerDies reason there =>
    DeathReaches codec (s.nodes l.side).reg there l.linker l.target reason
  | .targetDies reason there =>
    DeathReaches codec (s.nodes l.side.other).reg there l.target l.linker reason
  | .linkerLost => LossReaches (s.nodes l.side.other).reg l.target l.linker
  | .targetLost => LossReaches (s.nodes l.side).reg l.linker l.target

/-- The linker has recorded its half, as it does when it links by pid. -/
def HalfRecorded (s : PeerCalls) (l : NamedLink) : Prop :=
  ∃ st, (s.nodes l.side).reg.state l.linker = some st ∧ l.target ∈ st.links

/-- The half that carries the event is recorded, or there is nothing to
carry, or a link by pid would not carry it either. -/
def Carried (s : PeerCalls) (l : NamedLink) : LinkEvent → Prop
  | .linkerDies reason there =>
    s.HalfRecorded l ∨ there.Ignores l.target reason ∨
      codec.accepts (.exit l.linker l.target reason) = false
  | .targetDies _ _ | .linkerLost => True
  | .targetLost => s.HalfRecorded l

/-- The death of the target of a link made by name, and the loss of the
linker's node, always reach the other end.  The death of the linker and the
loss of the target's node do so just if the linker has recorded its half,
which linking by name does not. -/
theorem named_link_reaches (left right : EndpointId) (hne : left ≠ right)
    (s : PeerCalls) (hrun : Run (step codec) anyStep (start left right) s)
    (l : NamedLink) (hl : l ∈ s.named) (e : LinkEvent) :
    s.Reaches codec l e ↔ s.Carried codec l e := by
  have hs := callsInv_run hne hrun
  obtain ⟨halive, stb, hstb, hhalf⟩ := hs.linked l hl
  obtain ⟨sta, hsta⟩ := alive_iff.1 halive
  have hlinker : l.linker.node ≠ (s.nodes l.side.other).reg.me := by
    rw [hs.nodes.allLocal l.side _ halive]
    exact (hs.nodes.apart l.side).symm
  have htarget : l.target.node ≠ (s.nodes l.side).reg.me := by
    rw [hs.nodes.allLocal l.side.other _ (alive_iff.2 ⟨stb, hstb⟩)]
    exact hs.nodes.apart l.side
  have hrecorded : s.HalfRecorded l ↔ l.target ∈ sta.links := by
    rw [HalfRecorded, hsta]
    simp
  cases e with
  | linkerDies reason there =>
    rw [Reaches, Carried, hrecorded]
    exact deathReaches_iff codec (hs.nodes.allLocal _) hsta htarget there reason
  | targetDies reason there =>
    refine iff_of_true ?_ trivial
    exact (deathReaches_iff codec (hs.nodes.allLocal _) hstb hlinker there
      reason).2 (Or.inl hhalf)
  | linkerLost =>
    refine iff_of_true ?_ trivial
    exact (lossReaches_iff hstb).2 hhalf
  | targetLost =>
    rw [Reaches, Carried, hrecorded]
    exact lossReaches_iff hsta

/-- A particle of the left node links to the name of one of the right node. -/
def linkByName : List (Side × HostAction) :=
  [(.left, .perform (.atomic (.registerComponent "worker"))),
    (.right, .perform (.atomic (.registerComponent "worker"))),
    (.left, .spawn "worker" none), (.right, .spawn "worker" (some "db")),
    (.left, .link ⟨⟨1⟩, 1⟩ (.named (some ⟨2⟩) "db")), (.right, .receive)]

theorem named_link_reaches_db :
    ∃ s, Run (step textWire) anyStep (start ⟨1⟩ ⟨2⟩) s ∧
      ⟨.left, ⟨⟨1⟩, 1⟩, ⟨⟨2⟩, 1⟩⟩ ∈ s.named ∧
      s.Reaches textWire ⟨.left, ⟨⟨1⟩, 1⟩, ⟨⟨2⟩, 1⟩⟩ .linkerLost := by
  obtain ⟨s, hrun, hl⟩ : ∃ s, Run (step textWire) anyStep (start ⟨1⟩ ⟨2⟩) s ∧
      ⟨.left, ⟨⟨1⟩, 1⟩, ⟨⟨2⟩, 1⟩⟩ ∈ s.named :=
    exec_run_of_any (α := Side × HostAction) linkByName (by decide +kernel)
  exact ⟨s, hrun, hl,
    (named_link_reaches textWire ⟨1⟩ ⟨2⟩ (by decide) s hrun _ hl .linkerLost).2 trivial⟩

/-- The linker crashes, and the target hears nothing. -/
theorem named_link_is_one_sided :
    ¬ ∀ (codec : WireCodec PeerMessage) (left right : EndpointId),
      left ≠ right → ∀ s : PeerCalls,
        Run (step codec) anyStep (start left right) s →
          ∀ l ∈ s.named, ∀ e, s.Reaches codec l e := by
  intro h
  obtain ⟨s, hrun, hl, hhalf, halive⟩ : ∃ s,
      Run (step textWire) anyStep (start ⟨1⟩ ⟨2⟩) s ∧
      ⟨.left, ⟨⟨1⟩, 1⟩, ⟨⟨2⟩, 1⟩⟩ ∈ s.named ∧
      ((s.nodes .left).reg.state ⟨⟨1⟩, 1⟩).any
        (fun st => ⟨⟨2⟩, 1⟩ ∉ st.links) = true ∧
      (s.nodes .right).reg.Alive ⟨⟨2⟩, 1⟩ :=
    exec_run_of_any (α := Side × HostAction) linkByName (by decide +kernel)
  have hs := callsInv_run (by decide) hrun
  cases hst : (s.nodes .left).reg.state ⟨⟨1⟩, 1⟩ with
  | none =>
    rw [hst] at hhalf
    cases hhalf
  | some st =>
    rw [hst, Option.any_some, decide_eq_true_eq] at hhalf
    obtain ⟨stb, hstb⟩ := alive_iff.1 halive
    have hfar : (⟨⟨2⟩, 1⟩ : Pid).node ≠ (s.nodes .left).reg.me := by
      rw [hs.nodes.allLocal .right _ halive]
      exact hs.nodes.apart .left
    have hreaches := h textWire ⟨1⟩ ⟨2⟩ (by decide) s hrun _ hl
      (.linkerDies (.exception "crash") (s.nodes .right).reg)
    rw [Reaches, deathReaches_iff textWire (hs.nodes.allLocal .left) hst hfar]
      at hreaches
    rcases hreaches with hlink | hignores | hrefused
    · exact hhalf hlink
    · obtain ⟨-, hreason⟩ := hignores stb hstb
      cases hreason
    · revert hrefused
      decide +kernel

end PeerCalls

end Plasmoid
