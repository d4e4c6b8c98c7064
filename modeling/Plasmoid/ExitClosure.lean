import Mathlib.Order.Bounds.Basic
import Plasmoid.ExitOne

/-!
# Exit propagation computes the link closure

`exit_particle` recurses over a link graph that it changes as it goes.  The
invariant of the recursion, `CascadeInv`, is stated against the registry
`reg₀` before the exit: `D` is the list of the particles removed so far, in
order, and `stack` is the list of those the recursion still has to visit.

* Every survivor has settled with every member of `D`, where the links and
  the watchers of a member are those of `reg₀`.  The removals in between only
  took members of `D` out of its links, so a survivor sees no difference.
* Every member of `D` and of `stack` is in the closure, and `D` is closed up
  to `stack`.

When the stack is empty `D` is the closure.
-/

namespace Plasmoid.ParticleRegistry

/-! ## The closure -/

/-- The links of a particle. -/
def linksOf (reg : ParticleRegistry) (q : Pid) : List Pid :=
  (reg.state q).elim [] fun st => st.links.toList

/-- The watchers of a particle, with the ref each waits on. -/
def watchersOf (reg : ParticleRegistry) (q : Pid) : List (Pid × UInt64) :=
  (reg.state q).elim [] fun st => st.monitoredBy

/-- The death of `q` kills `x`: the reason is abnormal, `q` links to `x`, and
`x` is alive on this node and does not trap exits. -/
def Cascades (reg : ParticleRegistry) (reason : ExitReason) (q x : Pid) :
    Prop :=
  reason.isAbnormal = true ∧ x ∈ reg.linksOf q ∧
    ∃ s, reg.state x = some s ∧ s.trapExit = false

/-- A set of particles that no cascade leaves. -/
def CascadeClosed (reg : ParticleRegistry) (reason : ExitReason)
    (S : Set Pid) : Prop :=
  ∀ q x, q ∈ S → reg.Cascades reason q x → x ∈ S

theorem mem_linksOf {reg : ParticleRegistry} {q x : Pid} :
    x ∈ reg.linksOf q ↔ ∃ st, reg.state q = some st ∧ x ∈ st.links := by
  rw [linksOf]
  cases reg.state q <;> simp

/-! ## Settling with several deaths -/

/-- The state of `x` after the deaths of `D`, in order. -/
def settleAll (reg : ParticleRegistry) (reason : ExitReason) (D : List Pid)
    (x : Pid) (s : ParticleState) : ParticleState :=
  D.foldl (fun s q => (reg.state q).elim s fun st => settleOne reason q st x s) s

/-- The signals that the deaths of `D` send to `x`, in order. -/
def signalsOf (reg : ParticleRegistry) (reason : ExitReason) (D : List Pid)
    (x : Pid) (traps : Bool) : List SystemMessage :=
  D.flatMap fun q =>
    (reg.state q).elim [] fun st => signalsTo reason q st x traps

theorem settleAll_cons (reg : ParticleRegistry) (reason : ExitReason)
    (q : Pid) (D : List Pid) (x : Pid) (s : ParticleState) :
    reg.settleAll reason (q :: D) x s = reg.settleAll reason D x
      ((reg.state q).elim s fun st => settleOne reason q st x s) := rfl

theorem signalsOf_cons (reg : ParticleRegistry) (reason : ExitReason)
    (q : Pid) (D : List Pid) (x : Pid) (traps : Bool) :
    reg.signalsOf reason (q :: D) x traps =
      ((reg.state q).elim [] fun st => signalsTo reason q st x traps) ++
        reg.signalsOf reason D x traps := rfl

theorem settleAll_append (reg : ParticleRegistry) (reason : ExitReason)
    (D : List Pid) {q x : Pid} {st : ParticleState} (s : ParticleState)
    (hq : reg.state q = some st) :
    reg.settleAll reason (D ++ [q]) x s =
      settleOne reason q st x (reg.settleAll reason D x s) := by
  rw [settleAll, List.foldl_append, List.foldl_cons, List.foldl_nil, hq]
  rfl

@[simp] theorem settleAll_trapExit (reg : ParticleRegistry)
    (reason : ExitReason) (D : List Pid) (x : Pid) (s : ParticleState) :
    (reg.settleAll reason D x s).trapExit = s.trapExit := by
  induction D generalizing s with
  | nil => rfl
  | cons q D ih =>
    rw [settleAll_cons, ih]
    cases reg.state q <;> rfl

@[simp] theorem settleAll_monitoredBy (reg : ParticleRegistry)
    (reason : ExitReason) (D : List Pid) (x : Pid) (s : ParticleState) :
    (reg.settleAll reason D x s).monitoredBy = s.monitoredBy := by
  induction D generalizing s with
  | nil => rfl
  | cons q D ih =>
    rw [settleAll_cons, ih]
    cases reg.state q <;> rfl

/-- A settled particle lost exactly the links to the dead that linked to
it. -/
theorem mem_settleAll_links {reg : ParticleRegistry} {reason : ExitReason}
    {D : List Pid} {x y : Pid} {s : ParticleState} :
    y ∈ (reg.settleAll reason D x s).links ↔
      y ∈ s.links ∧ ¬ (y ∈ D ∧ x ∈ reg.linksOf y) := by
  induction D generalizing s with
  | nil => simp [settleAll]
  | cons q D ih =>
    rw [settleAll_cons, ih]
    cases hq : reg.state q with
    | none =>
      have hnot : x ∉ reg.linksOf q := by simp [linksOf, hq]
      simp only [Option.elim_none, List.mem_cons]
      constructor
      · rintro ⟨hy, hD⟩
        refine ⟨hy, ?_⟩
        rintro ⟨rfl | hyD, hx⟩
        · exact hnot hx
        · exact hD ⟨hyD, hx⟩
      · rintro ⟨hy, hD⟩
        exact ⟨hy, fun h => hD ⟨Or.inr h.1, h.2⟩⟩
    | some st =>
      have hlinks : x ∈ reg.linksOf q ↔ x ∈ st.links := by simp [linksOf, hq]
      simp only [Option.elim_some, mem_settleOne_links, List.mem_cons]
      constructor
      · rintro ⟨⟨hy, hone⟩, hD⟩
        refine ⟨hy, ?_⟩
        rintro ⟨rfl | hyD, hx⟩
        · exact hone ⟨rfl, hlinks.1 hx⟩
        · exact hD ⟨hyD, hx⟩
      · rintro ⟨hy, hD⟩
        refine ⟨⟨hy, ?_⟩, fun h => hD ⟨Or.inr h.1, h.2⟩⟩
        rintro ⟨rfl, hx⟩
        exact hD ⟨Or.inl rfl, hlinks.2 hx⟩

/-- A settled particle lost exactly the refs that fired. -/
theorem lookup_settleAll_monitors (reg : ParticleRegistry)
    (reason : ExitReason) (D : List Pid) (x : Pid) (s : ParticleState)
    (ref : UInt64) :
    (reg.settleAll reason D x s).monitors.lookup ref =
      if ∃ q ∈ D, (x, ref) ∈ reg.watchersOf q then none
      else s.monitors.lookup ref := by
  induction D generalizing s with
  | nil => simp [settleAll]
  | cons q D ih =>
    rw [settleAll_cons, ih]
    by_cases hD : ∃ q ∈ D, (x, ref) ∈ reg.watchersOf q
    · have hcons : ∃ q' ∈ q :: D, (x, ref) ∈ reg.watchersOf q' := by
        obtain ⟨q', hq', hw⟩ := hD
        exact ⟨q', List.mem_cons_of_mem q hq', hw⟩
      rw [if_pos hD, if_pos hcons]
    · have hcons : (∃ q' ∈ q :: D, (x, ref) ∈ reg.watchersOf q') ↔
          (x, ref) ∈ reg.watchersOf q := by
        constructor
        · rintro ⟨q', hq', hw⟩
          rcases List.mem_cons.1 hq' with rfl | hq'
          · exact hw
          · exact absurd ⟨q', hq', hw⟩ hD
        · exact fun hw => ⟨q, List.mem_cons_self, hw⟩
      rw [if_neg hD, if_congr hcons rfl rfl]
      cases hq : reg.state q with
      | none => simp [watchersOf, hq]
      | some st =>
        simp only [Option.elim_some, settleOne, lookup_dropRefs, mem_firedRefs,
          watchersOf, hq]

/-- A settled particle received the signals of the dead. -/
theorem settleAll_mailbox (reg : ParticleRegistry) (reason : ExitReason)
    (D : List Pid) (x : Pid) (s : ParticleState) :
    (reg.settleAll reason D x s).mailbox =
      s.mailbox.pushSystems (reg.signalsOf reason D x s.trapExit) := by
  induction D generalizing s with
  | nil => rfl
  | cons q D ih =>
    rw [settleAll_cons, ih, signalsOf_cons, Mailbox.pushSystems_append]
    cases reg.state q <;> rfl

/-- `settleOne` reads two things of the dead particle: whether it links to
`x`, and its watchers. -/
theorem settleOne_congr (reason : ExitReason) (pid : Pid)
    {st st' : ParticleState} {x : Pid} (s : ParticleState)
    (hlinks : x ∈ st.links ↔ x ∈ st'.links)
    (hwatch : st.monitoredBy = st'.monitoredBy) :
    settleOne reason pid st x s = settleOne reason pid st' x s := by
  simp only [settleOne, signalsTo, firedRefs, hlinks, hwatch]

/-! ## The invariant of the recursion -/

/-- After the removals `D`, with the visits `stack` still to make. -/
structure CascadeInv (reg₀ : ParticleRegistry) (p : Pid) (reason : ExitReason)
    (reg : ParticleRegistry) (D stack : List Pid) : Prop where
  nodup : D.Nodup
  wasAlive : ∀ x ∈ D, reg₀.Alive x
  states : ∀ x, reg.state x =
    if x ∈ D then none else (reg₀.state x).map (reg₀.settleAll reason D x)
  particles : ∀ x, reg.particles.lookup x =
    if x ∈ D then none else reg₀.particles.lookup x
  names : ∀ n, reg.names.lookup n =
    (reg₀.names.lookup n).filter fun owner => owner ∉ D
  deaths : ∃ ds, reg.deaths = reg₀.deaths ++ ds ∧ ds.map (·.pid) = D ∧
    ∀ d ∈ ds, d.reason = reason
  pidGen : reg.pidGen = reg₀.pidGen
  components : reg.components = reg₀.components
  nextRef : reg.nextRef = reg₀.nextRef
  start : p ∈ D ∨ p ∈ stack
  closed : ∀ q ∈ D, ∀ x, reg₀.Cascades reason q x → x ∈ D ∨ x ∈ stack
  sound : ∀ S : Set Pid, p ∈ S → reg₀.CascadeClosed reason S →
    ∀ x, x ∈ D ∨ x ∈ stack → x ∈ S

theorem cascadeInv_start (reg : ParticleRegistry) (p : Pid)
    (reason : ExitReason) : CascadeInv reg p reason reg [] [p] where
  nodup := List.nodup_nil
  wasAlive := by simp
  states := by
    intro x
    have hid : reg.settleAll reason [] x = id := rfl
    simp [hid]
  particles := by simp
  names := by
    intro n
    cases reg.names.lookup n <;> simp [Option.filter]
  deaths := ⟨[], by simp⟩
  pidGen := rfl
  components := rfl
  nextRef := rfl
  start := by simp
  closed := by simp
  sound := by
    intro S hp _ x hx
    have hxp : x = p := by simpa using hx
    exact hxp ▸ hp

/-- A visit to a particle that has already exited. -/
theorem CascadeInv.skip {reg₀ reg : ParticleRegistry} {p x : Pid}
    {reason : ExitReason} {D stack : List Pid} (hp : reg₀.Alive p)
    (h : CascadeInv reg₀ p reason reg D (x :: stack))
    (hx : reg.state x = none) : CascadeInv reg₀ p reason reg D stack := by
  -- A particle that was alive and is gone is in `D`.
  have hgone : reg₀.Alive x → x ∈ D := by
    intro halive
    obtain ⟨s, hs⟩ := alive_iff.1 halive
    have hstate := h.states x
    rw [hx, hs] at hstate
    by_contra hD
    rw [if_neg hD] at hstate
    cases hstate
  have hdrop : ∀ y, reg₀.Alive y → y ∈ D ∨ y ∈ x :: stack →
      y ∈ D ∨ y ∈ stack := by
    intro y halive hy
    rcases hy with hy | hy
    · exact Or.inl hy
    · rcases List.mem_cons.1 hy with rfl | hy
      · exact Or.inl (hgone halive)
      · exact Or.inr hy
  refine { h with start := hdrop p hp h.start, closed := ?_, sound := ?_ }
  · intro q hq y hqy
    obtain ⟨s, hs, -⟩ := hqy.2.2
    exact hdrop y (alive_iff.2 ⟨s, hs⟩) (h.closed q hq y hqy)
  · intro S hpS hS y hy
    refine h.sound S hpS hS y ?_
    rcases hy with hy | hy
    · exact Or.inl hy
    · exact Or.inr (List.mem_cons_of_mem x hy)

/-! ## A visit to a live particle -/

section Visit

variable {reg₀ reg reg' : ParticleRegistry} {p x : Pid} {reason : ExitReason}
variable {D stack kills : List Pid} {st st₀ : ParticleState}

/-- The state of a live particle is its first state, settled with `D`. -/
theorem CascadeInv.settled (h : CascadeInv reg₀ p reason reg D stack)
    (hst : reg.state x = some st) : x ∉ D ∧ ∃ st₀, reg₀.state x = some st₀ ∧
      reg₀.settleAll reason D x st₀ = st := by
  have hstate := h.states x
  have hxD : x ∉ D := by
    intro hD
    rw [hst, if_pos hD] at hstate
    cases hstate
  rw [hst, if_neg hxD] at hstate
  exact ⟨hxD, Option.map_eq_some_iff.1 hstate.symm⟩

/-- A particle that is settled with `D` links to the same particles outside. -/
theorem mem_settled_links (hsettle : reg₀.settleAll reason D x st₀ = st)
    {y : Pid} (hy : y ∉ D) : y ∈ st.links ↔ y ∈ st₀.links := by
  rw [← hsettle, mem_settleAll_links]
  exact ⟨fun hl => hl.1, fun hl => ⟨hl, fun hD => hy hD.1⟩⟩

/-- The cascade from `x` in the first registry is `D` and what the visit
stacks. -/
theorem CascadeInv.mem_kills (h : CascadeInv reg₀ p reason reg D stack)
    (hspec : ExitOneSpec reg x st reason reg' kills)
    (hst₀ : reg₀.state x = some st₀)
    (hsettle : reg₀.settleAll reason D x st₀ = st) {y : Pid} (hyD : y ∉ D)
    (hyx : y ≠ x) : y ∈ kills ↔ reg₀.Cascades reason x y := by
  rw [hspec.kills, mem_settled_links hsettle hyD, Cascades, mem_linksOf,
    h.states, if_neg hyD]
  constructor
  · rintro ⟨hr, hl, -, s, hs, ht⟩
    obtain ⟨s₀, hs₀, rfl⟩ := Option.map_eq_some_iff.1 hs
    exact ⟨hr, ⟨st₀, hst₀, hl⟩, s₀, hs₀, by simpa using ht⟩
  · rintro ⟨hr, ⟨st', hst', hl⟩, s₀, hs₀, ht⟩
    rw [hst₀, Option.some.injEq] at hst'
    subst hst'
    exact ⟨hr, hl, hyx, _, by rw [hs₀, Option.map_some], by simpa using ht⟩

theorem mem_concat_dead {y : Pid} : y ∈ D ++ [x] ↔ y ∈ D ∨ y = x := by simp

/-- The others are settled with `x` too. -/
theorem CascadeInv.visit_states (h : CascadeInv reg₀ p reason reg D stack)
    (hspec : ExitOneSpec reg x st reason reg' kills)
    (hst₀ : reg₀.state x = some st₀)
    (hsettle : reg₀.settleAll reason D x st₀ = st) (y : Pid) :
    reg'.state y = if y ∈ D ++ [x] then none
      else (reg₀.state y).map (reg₀.settleAll reason (D ++ [x]) y) := by
  rw [hspec.states, h.states]
  by_cases hyx : y = x
  · rw [if_pos hyx, if_pos (mem_concat_dead.2 (Or.inr hyx))]
  by_cases hyD : y ∈ D
  · rw [if_neg hyx, if_pos hyD, if_pos (mem_concat_dead.2 (Or.inl hyD))]
    rfl
  have hnot : y ∉ D ++ [x] := fun hy => (mem_concat_dead.1 hy).elim hyD hyx
  have hwatch : st.monitoredBy = st₀.monitoredBy := by
    rw [← hsettle, settleAll_monitoredBy]
  rw [if_neg hyx, if_neg hyD, if_neg hnot, Option.map_map]
  congr 1
  funext s
  rw [settleAll_append _ _ _ _ hst₀]
  exact settleOne_congr _ _ _ (mem_settled_links hsettle hyD) hwatch

theorem CascadeInv.visit_particles (h : CascadeInv reg₀ p reason reg D stack)
    (hspec : ExitOneSpec reg x st reason reg' kills) (y : Pid) :
    reg'.particles.lookup y =
      if y ∈ D ++ [x] then none else reg₀.particles.lookup y := by
  rw [hspec.particles, Table.lookup_erase_eq, h.particles]
  by_cases hyx : y = x
  · rw [if_pos hyx, if_pos (mem_concat_dead.2 (Or.inr hyx))]
  · rw [if_neg hyx]
    simp only [mem_concat_dead, hyx, or_false]

theorem CascadeInv.visit_names (h : CascadeInv reg₀ p reason reg D stack)
    (hspec : ExitOneSpec reg x st reason reg' kills) (n : String) :
    reg'.names.lookup n =
      (reg₀.names.lookup n).filter fun owner => owner ∉ D ++ [x] := by
  rw [hspec.names, h.names]
  cases reg₀.names.lookup n with
  | none => rfl
  | some owner =>
    by_cases ho : owner ∈ D
    · simp [Option.filter, ho]
    · by_cases hox : owner = x
      · subst hox
        simp [Option.filter, ho]
      · simp [Option.filter, ho, hox]

/-- The death of `x` is published after those of `D`. -/
theorem CascadeInv.visit_deaths (h : CascadeInv reg₀ p reason reg D stack)
    (hspec : ExitOneSpec reg x st reason reg' kills) :
    ∃ ds, reg'.deaths = reg₀.deaths ++ ds ∧ ds.map (·.pid) = D ++ [x] ∧
      ∀ d ∈ ds, d.reason = reason := by
  obtain ⟨ds, hds, hpids, hreason⟩ := h.deaths
  refine ⟨ds ++ [deathOf reg.me x st (reg.namesHeld x).head? reason], ?_, ?_, ?_⟩
  · rw [hspec.deaths, hds, List.append_assoc]
  · simp [hpids, deathOf]
  · intro d hd
    rcases List.mem_append.1 hd with hd | hd
    · exact hreason d hd
    · rw [List.mem_singleton.1 hd]
      rfl

/-- What was removed or stacked is so after the visit. -/
theorem covered_visit {y : Pid} (hy : y ∈ D ∨ y ∈ x :: stack) :
    y ∈ D ++ [x] ∨ y ∈ kills ++ stack := by
  rcases hy with hy | hy
  · exact Or.inl (mem_concat_dead.2 (Or.inl hy))
  · rcases List.mem_cons.1 hy with hy | hy
    · exact Or.inl (mem_concat_dead.2 (Or.inr hy))
    · exact Or.inr (List.mem_append_right kills hy)

/-- The cascade of what was removed was removed or is stacked. -/
theorem CascadeInv.visit_closed
    (h : CascadeInv reg₀ p reason reg D (x :: stack))
    (hkills : ∀ y, y ∉ D → y ≠ x → reg₀.Cascades reason x y → y ∈ kills)
    {q y : Pid} (hq : q ∈ D ++ [x]) (hqy : reg₀.Cascades reason q y) :
    y ∈ D ++ [x] ∨ y ∈ kills ++ stack := by
  rcases mem_concat_dead.1 hq with hq | rfl
  · exact covered_visit (h.closed q hq y hqy)
  · by_cases hyD : y ∈ D
    · exact covered_visit (Or.inl hyD)
    by_cases hyq : y = q
    · exact Or.inl (mem_concat_dead.2 (Or.inr hyq))
    · exact Or.inr (List.mem_append_left stack (hkills y hyD hyq hqy))

/-- A closed set with the first particle contains what the visit stacks. -/
theorem CascadeInv.visit_sound
    (h : CascadeInv reg₀ p reason reg D (x :: stack))
    (hkills : ∀ y, y ∉ D → y ≠ x → y ∈ kills → reg₀.Cascades reason x y)
    {S : Set Pid} (hpS : p ∈ S) (hS : reg₀.CascadeClosed reason S) {y : Pid}
    (hy : y ∈ D ++ [x] ∨ y ∈ kills ++ stack) : y ∈ S := by
  have hold := h.sound S hpS hS
  have hxS : x ∈ S := hold x (Or.inr List.mem_cons_self)
  rcases hy with hy | hy
  · rcases mem_concat_dead.1 hy with hy | rfl
    · exact hold y (Or.inl hy)
    · exact hxS
  · rcases List.mem_append.1 hy with hy | hy
    · by_cases hyD : y ∈ D
      · exact hold y (Or.inl hyD)
      by_cases hyx : y = x
      · exact hyx ▸ hxS
      · exact hS x y hxS (hkills y hyD hyx hy)
    · exact hold y (Or.inr (List.mem_cons_of_mem x hy))

/-- A visit to a live particle removes it and stacks its cascade. -/
theorem CascadeInv.visit (h : CascadeInv reg₀ p reason reg D (x :: stack))
    (hx : reg.exitOne x reason = some (reg', kills)) :
    CascadeInv reg₀ p reason reg' (D ++ [x]) (kills ++ stack) := by
  obtain ⟨st, hst, hspec⟩ := exitOne_spec hx
  obtain ⟨hxD, st₀, hst₀, hsettle⟩ := h.settled hst
  have hkills : ∀ y, y ∉ D → y ≠ x →
      (y ∈ kills ↔ reg₀.Cascades reason x y) :=
    fun _ => h.mem_kills hspec hst₀ hsettle
  exact
    { nodup := List.concat_eq_append ▸ h.nodup.concat hxD
      wasAlive := by
        intro y hy
        rcases mem_concat_dead.1 hy with hy | rfl
        · exact h.wasAlive y hy
        · exact alive_iff.2 ⟨st₀, hst₀⟩
      states := h.visit_states hspec hst₀ hsettle
      particles := h.visit_particles hspec
      names := h.visit_names hspec
      deaths := h.visit_deaths hspec
      pidGen := hspec.pidGen.trans h.pidGen
      components := hspec.components.trans h.components
      nextRef := hspec.nextRef.trans h.nextRef
      start := covered_visit h.start
      closed := fun _ hq _ => h.visit_closed (fun y hD hx => (hkills y hD hx).2) hq
      sound := fun _ hpS hS _ =>
        h.visit_sound (fun y hD hx => (hkills y hD hx).1) hpS hS }

end Visit

/-! ## The recursion -/

/-- The recursion keeps the invariant: it empties its own part of the stack. -/
theorem CascadeInv.exitFuel {reg₀ : ParticleRegistry} {p : Pid}
    {reason : ExitReason} (hp : reg₀.Alive p) :
    ∀ (fuel : Nat) (reg reg' : ParticleRegistry) (x : Pid) (D stack : List Pid),
      CascadeInv reg₀ p reason reg D (x :: stack) →
      ParticleRegistry.exitFuel fuel reg x reason = some reg' →
      ∃ D', CascadeInv reg₀ p reason reg' D' stack := by
  intro fuel
  induction fuel with
  | zero =>
    intro reg reg' x D stack _ hrun
    cases hrun
  | succ fuel ih =>
    intro reg reg' x D stack h hrun
    rw [ParticleRegistry.exitFuel] at hrun
    cases hone : reg.exitOne x reason with
    | none =>
      rw [hone] at hrun
      cases hrun
      exact ⟨D, h.skip hp (exitOne_eq_none.1 hone)⟩
    | some out =>
      obtain ⟨reg₁, kills⟩ := out
      rw [hone] at hrun
      -- The cascade visits `kills` from left to right.
      have hcascade : ∀ (kills : List Pid) (g g' : ParticleRegistry)
          (D : List Pid), CascadeInv reg₀ p reason g D (kills ++ stack) →
          kills.foldlM (fun g x => ParticleRegistry.exitFuel fuel g x reason) g
            = some g' →
          ∃ D', CascadeInv reg₀ p reason g' D' stack := by
        intro kills
        induction kills with
        | nil =>
          intro g g' D hg hfold
          cases hfold
          exact ⟨D, hg⟩
        | cons y kills ihk =>
          intro g g' D hg hfold
          rw [List.foldlM_cons] at hfold
          obtain ⟨g₁, hg₁, hrest⟩ := Option.bind_eq_some_iff.1 hfold
          obtain ⟨D₁, hD₁⟩ := ih g g₁ y D (kills ++ stack) hg hg₁
          exact ihk g₁ g' D₁ hD₁ hrest
      exact hcascade kills reg₁ reg' (D ++ [x]) (h.visit hone) hrun

/-! ## The recursion terminates -/

/-- One exit leaves fewer particles. -/
theorem length_lt_of_exitOne {reg reg' : ParticleRegistry} {x : Pid}
    {reason : ExitReason} {kills : List Pid}
    (h : reg.exitOne x reason = some (reg', kills)) :
    reg'.particleStates.keys.length < reg.particleStates.keys.length := by
  obtain ⟨st, hst, hspec⟩ := exitOne_spec h
  have hsub : ∀ y, reg'.Alive y → reg.Alive y := by
    intro y hy
    obtain ⟨s, hs⟩ := alive_iff.1 hy
    rw [hspec.states] at hs
    split at hs
    · cases hs
    · obtain ⟨s₀, hs₀, -⟩ := Option.map_eq_some_iff.1 hs
      exact alive_iff.2 ⟨s₀, hs₀⟩
  have hgone : ¬ reg'.Alive x := by
    rw [not_alive_iff, hspec.states, if_pos rfl]
  exact Table.length_keys_lt hsub hgone (alive_iff.2 ⟨st, hst⟩)

/-- Fuel above the number of particles is enough, and the number does not
grow. -/
theorem exitFuel_total (reason : ExitReason) :
    ∀ (fuel : Nat) (reg : ParticleRegistry) (x : Pid),
      reg.particleStates.keys.length < fuel →
      ∃ reg', exitFuel fuel reg x reason = some reg' ∧
        reg'.particleStates.keys.length ≤ reg.particleStates.keys.length := by
  intro fuel
  induction fuel with
  | zero =>
    intro reg x h
    omega
  | succ fuel ih =>
    intro reg x h
    rw [exitFuel]
    cases hone : reg.exitOne x reason with
    | none => exact ⟨reg, rfl, le_rfl⟩
    | some out =>
      obtain ⟨reg₁, kills⟩ := out
      have hlt := length_lt_of_exitOne hone
      have hcascade : ∀ (kills : List Pid) (g : ParticleRegistry),
          g.particleStates.keys.length < fuel →
          ∃ g', kills.foldlM (fun g x => exitFuel fuel g x reason) g = some g' ∧
            g'.particleStates.keys.length ≤ g.particleStates.keys.length := by
        intro kills
        induction kills with
        | nil =>
          intro g _
          exact ⟨g, rfl, le_rfl⟩
        | cons y kills ihk =>
          intro g hg
          obtain ⟨g₁, hg₁, hle₁⟩ := ih g y hg
          obtain ⟨g₂, hg₂, hle₂⟩ := ihk g₁ (by omega)
          refine ⟨g₂, ?_, by omega⟩
          rw [List.foldlM_cons, hg₁]
          exact hg₂
      obtain ⟨g, hg, hle⟩ := hcascade kills reg₁ (by omega)
      exact ⟨g, hg, by omega⟩

/-- Extra fuel changes nothing. -/
theorem exitFuel_mono (reason : ExitReason) :
    ∀ (fuel extra : Nat) (reg reg' : ParticleRegistry) (x : Pid),
      exitFuel fuel reg x reason = some reg' →
      exitFuel (fuel + extra) reg x reason = some reg' := by
  intro fuel
  induction fuel with
  | zero =>
    intro extra reg reg' x h
    cases h
  | succ fuel ih =>
    intro extra reg reg' x h
    rw [Nat.add_right_comm, exitFuel]
    rw [exitFuel] at h
    cases hone : reg.exitOne x reason with
    | none =>
      rw [hone] at h
      exact h
    | some out =>
      rw [hone] at h
      have hcascade : ∀ (kills : List Pid) (g g' : ParticleRegistry),
          kills.foldlM (fun g x => exitFuel fuel g x reason) g = some g' →
          kills.foldlM (fun g x => exitFuel (fuel + extra) g x reason) g
            = some g' := by
        intro kills
        induction kills with
        | nil =>
          intro g g' hfold
          exact hfold
        | cons y kills ihk =>
          intro g g' hfold
          rw [List.foldlM_cons] at hfold ⊢
          obtain ⟨g₁, hg₁, hrest⟩ := Option.bind_eq_some_iff.1 hfold
          rw [ih extra g g₁ y hg₁]
          exact ihk g₁ g' hrest
      exact hcascade _ _ _ h

/-- `exitParticle` is the run of the recursion with any fuel above the number
of particles. -/
theorem exitFuel_eq_exitParticle (reg : ParticleRegistry) (x : Pid)
    (reason : ExitReason) {fuel : Nat}
    (h : reg.particleStates.keys.length < fuel) :
    exitFuel fuel reg x reason = some (reg.exitParticle x reason) := by
  obtain ⟨reg', hreg', -⟩ := exitFuel_total reason
    (reg.particleStates.keys.length + 1) reg x (Nat.lt_succ_self _)
  obtain ⟨extra, rfl⟩ : ∃ extra,
      fuel = reg.particleStates.keys.length + 1 + extra :=
    ⟨fuel - (reg.particleStates.keys.length + 1), by omega⟩
  rw [exitParticle, hreg', exitFuel_mono _ _ extra _ _ _ hreg']
  rfl

/-- A particle that is not alive cannot exit. -/
theorem exitParticle_of_dead {reg : ParticleRegistry} {x : Pid}
    (reason : ExitReason) (h : ¬ reg.Alive x) : reg.exitParticle x reason = reg := by
  have hone : reg.exitOne x reason = none :=
    exitOne_eq_none.2 (not_alive_iff.1 h)
  rw [exitParticle, exitFuel, hone]
  rfl

/-- The invariant at the end of the run. -/
theorem exitParticle_inv {reg : ParticleRegistry} {p : Pid}
    (reason : ExitReason) (hp : reg.Alive p) :
    ∃ D, CascadeInv reg p reason (reg.exitParticle p reason) D [] :=
  CascadeInv.exitFuel hp _ _ _ _ [] [] (cascadeInv_start reg p reason)
    (exitFuel_eq_exitParticle reg p reason (Nat.lt_succ_self _))

end Plasmoid.ParticleRegistry
