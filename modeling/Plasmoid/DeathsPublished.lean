import Plasmoid.NameRaces
import Plasmoid.RootWatch

/-!
# Every death is published once

`subscribe_deaths` promises that every death is published exactly once, the
cascaded ones included, since they all go through `exit_particle`.  That has
to hold when exits, spawns and their rollbacks run side by side and race for
one particle.

A particle that a spawn has returned is alive, or an exit has taken it and is
about to publish, or its death is published.  The three exclude each other:
the removal of the state is what decides which of several exits publishes.
-/

namespace Plasmoid

open Machine

namespace PendingCall

/-- The particle whose state a spawn has yet to insert. -/
def unborn : PendingCall → Option Pid
  | .spawnEntry pid .. | .spawnState pid .. => some pid
  | _ => none

/-- A particle in transit whose death is not published. -/
def unpublished (call : PendingCall) : Option Pid :=
  call.publishing.or call.unborn

theorem inTransit_of_unpublished {call : PendingCall} {p : Pid}
    (h : call.unpublished = some p) : call.inTransit = some p := by
  cases call <;> first | exact h | cases h

theorem publishing_of_publishes {call : PendingCall} {p : Pid}
    (h : call.publishes = some p) : call.publishing = some p := by
  cases call <;> first | exact h | cases h

theorem unpublished_of_publishing {call : PendingCall} {p : Pid}
    (h : call.publishing = some p) : call.unpublished = some p := by
  rw [unpublished, h]
  rfl

end PendingCall

namespace ParticleRegistry

/-- The particles whose deaths were published, oldest first. -/
def published (reg : ParticleRegistry) : List Pid :=
  reg.deaths.map ParticleDeath.pid

/-- Only the publication of an exit adds a death. -/
theorem published_critical (reg : ParticleRegistry) (call : PendingCall) :
    (reg.critical call).1.published = reg.published ++ call.publishes.toList := by
  rcases reg.deaths_critical call with ⟨hnone, hdeaths⟩ | ⟨d, hpublishes, hdeaths⟩
  · rw [published, hdeaths, hnone, Option.toList_none, List.append_nil, published]
  · rw [published, hdeaths, hpublishes, List.map_append]
    rfl

/-- Who is published after a section was published before it, or is the
particle that the call publishes. -/
theorem mem_published_critical {reg : ParticleRegistry} {call : PendingCall} {p : Pid} :
    p ∈ (reg.critical call).1.published ↔
      p ∈ reg.published ∨ call.publishes = some p := by
  simp [published_critical, eq_comm]

/-- One action on the registry publishes nothing. -/
theorem published_onRegistry (reg : ParticleRegistry) (a : LocalAction) :
    (a.onRegistry reg).published = reg.published := by
  rw [published, deaths_onRegistry, published]

end ParticleRegistry

namespace CallsInProgress

/-- An exit has taken `p` and has yet to publish its death. -/
def Dying (s : CallsInProgress) (p : Pid) : Prop :=
  ∃ id call, s.calls.lookup id = some call ∧ call.publishing = some p

/-! ## At most once -/

/-- Nobody is published who is alive, about to be published, or still to be
inserted or drawn. -/
structure PublishedInv (s : CallsInProgress) : Prop where
  once : s.reg.published.Nodup
  dead : ∀ p ∈ s.reg.published, ¬ s.reg.Alive p
  apart : ∀ id call p, s.calls.lookup id = some call →
    call.unpublished = some p → p ∉ s.reg.published
  counted : ∀ p ∈ s.reg.published, p.seq.toNat < s.reg.pidGen.nextSeq.toNat

theorem publishedInv_idle (node : EndpointId) :
    PublishedInv (idle (.new node)) where
  once := List.nodup_nil
  dead p h := by cases h
  apart _ _ _ h := by cases h
  counted p h := by cases h

/-- The unpublished pid of a call after a section: the call held it before
and has not published it, or it was alive and was taken, or it was drawn. -/
theorem unpublished_critical {reg : ParticleRegistry} {call : PendingCall} {q : Pid}
    (h : (reg.critical call).2.pending.bind PendingCall.unpublished = some q) :
    (call.unpublished = some q ∧ call.publishes = none) ∨
      reg.Alive q ∨ q = reg.pidGen.peek := by
  obtain ⟨next, hnext, hq⟩ := Option.bind_eq_some_iff.1 h
  cases ParticleRegistry.follows_critical hnext with
  | drawn hloaded =>
    cases hq
    exact .inr (.inr rfl)
  | taken hst =>
    cases hq
    exact .inr (.inl (ParticleRegistry.alive_iff.2 ⟨_, hst⟩))
  | entered | removed | unnamed => exact .inl ⟨hq, rfl⟩
  | inserted | refused | undone | skipped | published | unhooked | signalled
  | cascaded => cases hq

/-- The next section of a call keeps the invariant. -/
theorem PublishedInv.settle {s : CallsInProgress} (h : PublishedInv s)
    (htransit : TransitInv s) {id : Nat} {call : PendingCall}
    (hcall : s.calls.lookup id = some call)
    (hcount : call.draws = true → s.reg.pidGen.nextSeq.toNat + 1 < 2 ^ 64) :
    PublishedInv
      (s.settle id (s.reg.critical call).1 (s.reg.critical call).2) := by
  -- The particle that this call publishes was in transit until now.
  have hnew : ∀ {p}, call.publishes = some p → call.unpublished = some p ∧
      call.inTransit = some p := by
    intro p hp
    have hunpublished := PendingCall.unpublished_of_publishing
      (PendingCall.publishing_of_publishes hp)
    exact ⟨hunpublished, PendingCall.inTransit_of_unpublished hunpublished⟩
  have hcounted : ∀ {p}, p ∈ s.reg.published ∨ call.publishes = some p →
      p.seq.toNat < s.reg.pidGen.nextSeq.toNat := by
    rintro p (hp | hp)
    · exact h.counted p hp
    · exact htransit.counted p (.inr ⟨id, call, hcall, (hnew hp).2⟩)
  have hdead : ∀ {p}, p ∈ s.reg.published ∨ call.publishes = some p →
      ¬ s.reg.Alive p := by
    rintro p (hp | hp)
    · exact h.dead p hp
    · exact htransit.dead id call p hcall (hnew hp).2
  refine ⟨?_, ?_, ?_, ?_⟩
  · rw [reg_settle, ParticleRegistry.published_critical, List.nodup_append]
    refine ⟨h.once, ?_, fun a ha b hb hab => ?_⟩
    · cases call.publishes with
      | none => exact List.nodup_nil
      | some pid => exact List.nodup_singleton pid
    · rw [Option.mem_toList] at hb
      exact h.apart id call b hcall (hnew hb).1 (hab ▸ ha)
  · intro p hp hlive
    rw [reg_settle] at hp hlive
    rw [ParticleRegistry.mem_published_critical] at hp
    rcases alive_critical hlive with halive | ⟨name, rfl⟩
    · exact hdead hp halive
    · exact h.apart id _ p hcall rfl (hp.resolve_right fun heq => by cases heq)
  · intro id' call' p hcall' hp hmem
    rw [reg_settle, ParticleRegistry.mem_published_critical] at hmem
    rcases holds_settle hcall' hp with ⟨-, hheld⟩ | ⟨hne, hcall'⟩
    · rcases unpublished_critical hheld with ⟨hkept, hnone⟩ | halive | hdrawn
      · rw [hnone] at hmem
        exact h.apart id call p hcall hkept
          (hmem.resolve_right fun heq => by cases heq)
      · exact hdead hmem halive
      · have hlt := hcounted hmem
        rw [hdrawn] at hlt
        exact Nat.lt_irrefl _ hlt
    · rcases hmem with hmem | hmem
      · exact h.apart id' call' p hcall' hp hmem
      · -- Two calls would hold the published particle.
        exact hne (htransit.single id' id call' call p hcall' hcall
          (PendingCall.inTransit_of_unpublished hp) (hnew hmem).2)
  · intro p hp
    rw [reg_settle] at hp ⊢
    exact ParticleRegistry.lt_nextSeq_critical hcount
      (hcounted (ParticleRegistry.mem_published_critical.1 hp))

theorem PublishedInv.nodeStep {s t : CallsInProgress} {a : LocalAction}
    (h : PublishedInv s) (htransit : TransitInv s) (hcounts : s.Counts a)
    (hstep : s.nodeStep a = some t) : PublishedInv t := by
  obtain ⟨id, call, rfl, hcall, rfl⟩ | ⟨id, call, hbegins, -, rfl⟩ | ⟨-, rfl⟩ :=
    nodeStep_cases hstep
  · exact h.settle htransit hcall (hcounts call hcall)
  · refine ⟨h.once, h.dead, fun id' call' p hcall' hp => ?_, h.counted⟩
    rw [show ({ s with calls := s.calls.insert id call } : CallsInProgress).calls =
      s.calls.insert id call from rfl, Table.lookup_insert_eq] at hcall'
    split at hcall'
    · -- A call that has just begun holds nobody.
      cases hcall'
      have htransit := PendingCall.inTransit_of_unpublished hp
      rw [LocalAction.inTransit_of_begins hbegins] at htransit
      cases htransit
    · exact h.apart id' call' p hcall' hp
  · have hsame := s.reg.published_onRegistry a
    refine ⟨?_, ?_, ?_, ?_⟩
    · show (a.onRegistry s.reg).published.Nodup
      rw [hsame]
      exact h.once
    · intro p hp hlive
      exact h.dead p (hsame ▸ hp) ((s.reg.alive_onRegistry a p).1 hlive)
    · intro id call p hcall hp hmem
      exact h.apart id call p hcall hp (hsame ▸ hmem)
    · intro p hp
      show p.seq.toNat < (a.onRegistry s.reg).pidGen.nextSeq.toNat
      rw [(s.reg.noBirth_onRegistry a).pidGen]
      exact h.counted p (hsame ▸ hp)

/-! ## At least once -/

/-- The death of the particle is still to be published, or it was. -/
def AccountedFor (s : CallsInProgress) (p : Pid) : Prop :=
  s.Due p ∨ p ∈ s.reg.published

/-- Every particle whose spawn has inserted it and not taken it back is
accounted for. -/
def AccountInv (s : CallsInProgress) : Prop :=
  ∀ p, s.HeldBy PendingCall.holdsState p → s.AccountedFor p

theorem accountInv_idle (node : EndpointId) : AccountInv (idle (.new node)) := by
  rintro p (h | ⟨id, call, h, -⟩)
  · exact absurd h (KeySet.not_mem_empty p)
  · cases h

/-- An action publishes nobody, or the one that it says. -/
theorem published_nodeStep {s t : CallsInProgress} {a : LocalAction}
    (hstep : s.nodeStep a = some t) :
    t.reg.published = s.reg.published ++ (s.publishes a).toList := by
  rcases deaths_nodeStep hstep with ⟨hnone, hdeaths⟩ | ⟨d, hpublishes, hdeaths⟩
  · rw [ParticleRegistry.published, hdeaths, hnone, Option.toList_none,
      List.append_nil, ParticleRegistry.published]
  · rw [ParticleRegistry.published, hdeaths, hpublishes, List.map_append]
    rfl

/-- Who is accounted for stays so, unless a spawn takes it back. -/
theorem AccountedFor.nodeStep {s t : CallsInProgress} {a : LocalAction} {p : Pid}
    (h : s.AccountedFor p)
    (hback : ∀ id call n, a = .call (.advance id) →
      s.calls.lookup id = some call → call ≠ .spawnUndoState p n)
    (hstep : s.nodeStep a = some t) : t.AccountedFor p := by
  have hpublished := published_nodeStep hstep
  rcases h with hdue | hold
  · by_cases hnow : s.publishes a = some p
    · refine .inr ?_
      rw [hpublished, hnow]
      exact List.mem_append_right _ List.mem_cons_self
    · exact .inl (hdue.nodeStep hback hnow hstep)
  · refine .inr ?_
    rw [hpublished]
    exact List.mem_append_left _ hold

/-- Who a call holds after a section: it held it before and does not take it
back, or it has just inserted it. -/
theorem heldState_critical {reg : ParticleRegistry} {call : PendingCall} {q : Pid}
    (h : (reg.critical call).2.pending.bind PendingCall.holdsState = some q ∨
      (reg.critical call).2.born = some q) :
    (call.holdsState = some q ∧ ∀ n, call ≠ .spawnUndoState q n) ∨
      (reg.critical call).1.Alive q := by
  rcases h with h | h
  · obtain ⟨next, hnext, hq⟩ := Option.bind_eq_some_iff.1 h
    cases ParticleRegistry.follows_critical hnext with
    | inserted =>
      cases hq
      exact .inr (ParticleRegistry.alive_insertState.2 (.inl rfl))
    | refused htaken =>
      refine .inl ⟨hq, fun n hcall => ?_⟩
      cases hcall
    | drawn | entered | undone | taken | skipped | removed | unnamed | published
    | unhooked | signalled | cascaded => cases hq
  · cases ParticleRegistry.returns_critical h with
    | inserted => exact .inr (ParticleRegistry.alive_insertState.2 (.inl rfl))
    | bound hfree =>
      refine .inl ⟨rfl, fun n hcall => ?_⟩
      cases hcall

theorem AccountInv.nodeStep {s t : CallsInProgress} {a : LocalAction}
    (h : AccountInv s) (hspawns : SpawnsApart s) (hstep : s.nodeStep a = some t) :
    AccountInv t := by
  intro p hp
  -- Only the call that holds `p` could take it back.
  have hkept : s.HeldBy PendingCall.holdsState p →
      (∀ id call n, a = .call (.advance id) → s.calls.lookup id = some call →
        call ≠ .spawnUndoState p n) → t.AccountedFor p :=
    fun hheld hback => (h p hheld).nodeStep hback hstep
  obtain ⟨id, call, rfl, hcall, rfl⟩ | ⟨id, call, hbegins, -, rfl⟩ | ⟨hsingle, rfl⟩ :=
    nodeStep_cases hstep
  · have hsame : ∀ {id' call'}, LocalAction.call (.advance id) =
        .call (.advance id') → s.calls.lookup id' = some call' → call' = call := by
      intro id' call' heq hcall'
      cases heq
      exact Option.some_inj.1 (hcall'.symm.trans hcall)
    have hnew : (s.reg.critical call).2.pending.bind PendingCall.holdsState = some p ∨
        (s.reg.critical call).2.born = some p →
        (s.settle id (s.reg.critical call).1
          (s.reg.critical call).2).AccountedFor p := by
      intro hnew
      rcases heldState_critical hnew with ⟨hheld, hback⟩ | hlive
      · refine hkept (.inr ⟨id, call, hcall, hheld⟩) ?_
        intro id' call' n heq hcall'
        rw [hsame heq hcall']
        exact hback n
      · refine .inl (.inl ?_)
        rw [reg_settle]
        exact hlive
    rcases hp with hhosted | ⟨id', call', hcall', hp⟩
    · rcases mem_hosted_settle.1 hhosted with hborn | hhosted
      · exact hnew (.inr hborn)
      · refine hkept (.inl hhosted) fun id₁ call₁ n heq hcall₁ hundo => ?_
        subst hundo
        exact hspawns.fresh id₁ _ p hcall₁ rfl hhosted
    · rcases holds_settle hcall' hp with ⟨-, hheld⟩ | ⟨hne, hold⟩
      · exact hnew (.inl hheld)
      · refine hkept (.inr ⟨id', call', hold, hp⟩) fun id₁ call₁ n heq hcall₁ hundo => ?_
        cases heq
        subst hundo
        exact hne (hspawns.distinct id' id call' _ p hold hcall₁
          (PendingCall.spawning_of_holdsState hp) rfl)
  · refine hkept (hp.imp_right ?_) fun id₁ call₁ n heq => ?_
    · rintro ⟨id', call', hcall', hp⟩
      refine ⟨id', call', ?_, hp⟩
      rw [show ({ s with calls := s.calls.insert id call } : CallsInProgress).calls =
        s.calls.insert id call from rfl, Table.lookup_insert_eq] at hcall'
      split at hcall'
      · cases hcall'
        have hspawning := PendingCall.spawning_of_holdsState hp
        rw [LocalAction.spawning_of_begins hbegins] at hspawning
        cases hspawning
      · exact hcall'
    · rw [heq] at hbegins
      cases hbegins
  · refine hkept hp fun id₁ call₁ n heq => ?_
    rw [heq] at hsingle
    cases hsingle

/-! ## Runs -/

/-- What holds of the deaths in every state of every run. -/
structure DeathsInv (s : CallsInProgress) : Prop where
  transit : TransitInv s
  spawns : SpawnsApart s
  published : PublishedInv s
  account : AccountInv s

theorem deathsInv_run {node : EndpointId} {s : CallsInProgress}
    (h : Run nodeStep Counts (idle (.new node)) s) : DeathsInv s :=
  h.invariant
    (fun hinv hcounts hstep =>
      ⟨hinv.transit.nodeStep hcounts hstep, hinv.spawns.nodeStep hcounts hstep,
        hinv.published.nodeStep hinv.transit hcounts hstep,
        hinv.account.nodeStep hinv.spawns hstep⟩)
    ⟨transitInv_idle node, spawnsApart_idle node, publishedInv_idle node,
      accountInv_idle node⟩

/-- Exactly one of three. -/
def ExactlyOne (a b c : Prop) : Prop :=
  (a ∧ ¬ b ∧ ¬ c) ∨ (¬ a ∧ b ∧ ¬ c) ∨ (¬ a ∧ ¬ b ∧ c)

/-- In every run of a node, no death is published twice, and a particle that
a spawn has returned is in exactly one of three places: alive, taken by one
exit that is about to publish, or published. -/
theorem every_death_published_once (node : EndpointId) {s : CallsInProgress}
    (h : Run nodeStep Counts (idle (.new node)) s) :
    s.reg.published.Nodup ∧
    (∀ p ∈ s.hosted,
      ExactlyOne (s.reg.Alive p) (s.Dying p) (p ∈ s.reg.published)) ∧
    (∀ id id' call call' p, s.calls.lookup id = some call →
      s.calls.lookup id' = some call' → call.publishing = some p →
      call'.publishing = some p → id = id') ∧
    (s.calls.keys = [] → ∀ p ∈ s.hosted,
      (p ∈ s.reg.published ↔ ¬ s.reg.Alive p)) := by
  have hinv := deathsInv_run h
  have htransit : ∀ {call : PendingCall} {p : Pid}, call.publishing = some p →
      call.inTransit = some p := fun hp =>
    PendingCall.inTransit_of_unpublished (PendingCall.unpublished_of_publishing hp)
  have hdead : ∀ {p}, s.Dying p → ¬ s.reg.Alive p := by
    rintro p ⟨id, call, hcall, hp⟩
    exact hinv.transit.dead id call p hcall (htransit hp)
  have hnew : ∀ {p}, s.Dying p → p ∉ s.reg.published := by
    rintro p ⟨id, call, hcall, hp⟩
    exact hinv.published.apart id call p hcall (PendingCall.unpublished_of_publishing hp)
  refine ⟨hinv.published.once, fun p hp => ?_, ?_, fun hidle p hp => ?_⟩
  · rcases hinv.account p (.inl hp) with (halive | hdying) | hpublished
    · exact .inl ⟨halive, fun hd => hdead hd halive,
        fun hd => hinv.published.dead p hd halive⟩
    · exact .inr (.inl ⟨hdead hdying, hdying, hnew hdying⟩)
    · exact .inr (.inr ⟨hinv.published.dead p hpublished,
        fun hd => hnew hd hpublished, hpublished⟩)
  · intro id id' call call' p hcall hcall' hp hp'
    exact hinv.transit.single id id' call call' p hcall hcall' (htransit hp)
      (htransit hp')
  · refine ⟨hinv.published.dead p, fun hgone => ?_⟩
    rcases hinv.account p (.inl hp) with (halive | ⟨id, call, hcall, -⟩) | hpublished
    · exact absurd halive hgone
    · exact absurd hcall (lookup_ne_of_idle hidle id call)
    · exact hpublished

/-- Two exits race for one particle. -/
def exitTwice : List LocalAction :=
  [.call (.atomic (.registerComponent "worker")),
    .call (.beginSpawn 0 "worker" none)] ++
    List.replicate 3 (.call (.advance 0)) ++
    [.call (.beginExit 1 ⟨⟨1⟩, 1⟩ .kill), .call (.beginExit 2 ⟨⟨1⟩, 1⟩ .normal),
      .call (.advance 1), .call (.advance 2)] ++
    List.replicate 5 (.call (.advance 1))

theorem every_death_published_once_exitTwice :
    ∃ s, Run nodeStep Counts (idle (.new ⟨1⟩)) s ∧
      (s.calls.keys = [] ∧ s.reg.published = [⟨⟨1⟩, 1⟩]) ∧
      s.reg.published.Nodup := by
  obtain ⟨s, hrun, hs⟩ : ∃ s, Run nodeStep Counts (idle (.new ⟨1⟩)) s ∧
      (s.calls.keys = [] ∧ s.reg.published = [⟨⟨1⟩, 1⟩]) :=
    exec_run_of_any exitTwice (by decide)
  exact ⟨s, hrun, hs, (every_death_published_once ⟨1⟩ hrun).1⟩

end CallsInProgress

end Plasmoid
