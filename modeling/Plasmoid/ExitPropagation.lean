import Plasmoid.ExitClosure

/-!
# What an exit leaves behind

`ExitsExactly` says what `exit_particle` does to a registry in terms of the
registry before the call and of the set `D` of the particles that died, and
`exitParticle_exact` proves it for every registry.  The two exit signals are
then case distinctions in front of it.
-/

namespace Plasmoid.ParticleRegistry

/-- What the deaths of `D` leave of a survivor `x` with state `s`. -/
structure Survives (reg : ParticleRegistry) (reason : ExitReason)
    (D : List Pid) (x : Pid) (s s' : ParticleState) : Prop where
  /-- It loses exactly its links to the dead that linked to it. -/
  links : ∀ q, q ∈ s'.links ↔ q ∈ s.links ∧ ¬ (q ∈ D ∧ x ∈ reg.linksOf q)
  /-- It loses exactly the refs that fired. -/
  monitors : ∀ ref, s'.monitors.lookup ref =
    if ∃ q ∈ D, (x, ref) ∈ reg.watchersOf q then none else s.monitors.lookup ref
  monitoredBy : s'.monitoredBy = s.monitoredBy
  trapExit : s'.trapExit = s.trapExit
  /-- Its mailbox only gained the signals `received`, in front. -/
  received : ∃ received : List SystemMessage,
    s'.mailbox = { s.mailbox with
      queue := (received.map SystemMessage.toMailbox).reverse ++
        s.mailbox.queue } ∧
    (∀ q, received.count (.exit q reason) =
      if q ∈ D ∧ x ∈ reg.linksOf q ∧ s.trapExit = true then 1 else 0) ∧
    (∀ q ref, received.count (.down q ref reason) =
      if q ∈ D then (reg.watchersOf q).count (x, ref) else 0) ∧
    ∀ m ∈ received, (∃ q, m = .exit q reason) ∨ ∃ q ref, m = .down q ref reason

/-- The registry `reg'` is `reg` after `p` exited with `reason` and took
exactly the particles `D` with it. -/
structure ExitsExactly (reg : ParticleRegistry) (p : Pid) (reason : ExitReason)
    (D : List Pid) (reg' : ParticleRegistry) : Prop where
  nodup : D.Nodup
  /-- `D` is the least set that contains `p` and that no cascade leaves. -/
  least : IsLeast {S : Set Pid | p ∈ S ∧ reg.CascadeClosed reason S}
    {x | x ∈ D}
  /-- A normal exit removes `p` alone. -/
  normal : reason = .normal → D = [p]
  alive : ∀ x, reg'.Alive x ↔ reg.Alive x ∧ x ∉ D
  survivors : ∀ x s, reg.state x = some s → x ∉ D →
    ∃ s', reg'.state x = some s' ∧ Survives reg reason D x s s'
  particles : ∀ x, reg'.particles.lookup x =
    if x ∈ D then none else reg.particles.lookup x
  /-- The names of the dead are gone and the others are kept. -/
  names : ∀ n, reg'.names.lookup n =
    (reg.names.lookup n).filter fun owner => owner ∉ D
  /-- One death is published for each of the dead, and none for others. -/
  deaths : ∃ ds, reg'.deaths = reg.deaths ++ ds ∧ ds.map (·.pid) = D ∧
    ∀ d ∈ ds, d.reason = reason
  pidGen : reg'.pidGen = reg.pidGen
  components : reg'.components = reg.components
  nextRef : reg'.nextRef = reg.nextRef

/-! ## Counting the signals -/

/-- In a concatenation over distinct keys, an element that only one key
produces is counted there. -/
private theorem count_flatMap_unique {α β : Type} [DecidableEq α]
    [DecidableEq β] (f : α → List β) (a : α) (b : β)
    (hf : ∀ a', a' ≠ a → (f a').count b = 0) :
    ∀ D : List α, D.Nodup →
      (D.flatMap f).count b = if a ∈ D then (f a).count b else 0 := by
  intro D
  induction D with
  | nil => intro _; rfl
  | cons a' D ih =>
    intro hD
    obtain ⟨ha', hD'⟩ := List.nodup_cons.1 hD
    rw [List.flatMap_cons, List.count_append, ih hD']
    by_cases h : a' = a
    · subst h
      simp [ha']
    · rw [hf a' h]
      simp [Ne.symm h]

theorem count_exit_signalsTo (reason : ExitReason) (q q' : Pid)
    (st : ParticleState) (x : Pid) (traps : Bool) :
    (signalsTo reason q' st x traps).count (.exit q reason) =
      if q' = q ∧ x ∈ st.links ∧ traps = true then 1 else 0 := by
  have hdowns : ((firedRefs st x).map
      fun r => SystemMessage.down q' r reason).count (.exit q reason) = 0 := by
    rw [List.count_eq_zero]
    simp
  rw [signalsTo, List.count_append, hdowns]
  by_cases hx : x ∈ st.links ∧ traps = true
  · by_cases hq : q' = q <;> simp [hx, hq]
  · rw [if_neg hx, if_neg fun h => hx h.2]
    rfl

theorem count_down_signalsTo (reason : ExitReason) (q q' : Pid)
    (st : ParticleState) (x : Pid) (traps : Bool) (ref : UInt64) :
    (signalsTo reason q' st x traps).count (.down q ref reason) =
      if q' = q then st.monitoredBy.count (x, ref) else 0 := by
  have hexit : (if x ∈ st.links ∧ traps = true then
      [SystemMessage.exit q' reason] else []).count (.down q ref reason) = 0 := by
    split <;> simp
  have hcount : ∀ l : List (Pid × UInt64),
      (((l.filter fun w => w.1 = x).map Prod.snd).map
        fun r => SystemMessage.down q' r reason).count (.down q ref reason) =
      if q' = q then l.count (x, ref) else 0 := by
    intro l
    induction l with
    | nil => simp
    | cons w l ih =>
      obtain ⟨y, r⟩ := w
      by_cases hy : y = x
      · subst hy
        by_cases hr : r = ref <;> by_cases hq : q' = q <;>
          simp_all
      · simpa [hy, List.count_cons] using ih
  rw [signalsTo, List.count_append, hexit, firedRefs, hcount, Nat.zero_add]

theorem count_exit_signalsOf (reg : ParticleRegistry) (reason : ExitReason)
    {D : List Pid} (hD : D.Nodup) (x q : Pid) (traps : Bool) :
    (reg.signalsOf reason D x traps).count (.exit q reason) =
      if q ∈ D ∧ x ∈ reg.linksOf q ∧ traps = true then 1 else 0 := by
  rw [signalsOf, count_flatMap_unique _ q _ ?_ D hD]
  · by_cases hq : q ∈ D
    · rw [if_pos hq, linksOf]
      cases reg.state q with
      | none => simp
      | some st => simp [count_exit_signalsTo, hq]
    · rw [if_neg hq, if_neg fun h => hq h.1]
  · intro q' hne
    cases reg.state q' with
    | none => rfl
    | some st =>
      rw [Option.elim_some, count_exit_signalsTo, if_neg fun h => hne h.1]

theorem count_down_signalsOf (reg : ParticleRegistry) (reason : ExitReason)
    {D : List Pid} (hD : D.Nodup) (x q : Pid) (traps : Bool) (ref : UInt64) :
    (reg.signalsOf reason D x traps).count (.down q ref reason) =
      if q ∈ D then (reg.watchersOf q).count (x, ref) else 0 := by
  rw [signalsOf, count_flatMap_unique _ q _ ?_ D hD]
  · rw [watchersOf]
    cases reg.state q with
    | none => rfl
    | some st => simp [count_down_signalsTo]
  · intro q' hne
    cases reg.state q' with
    | none => rfl
    | some st => rw [Option.elim_some, count_down_signalsTo, if_neg hne]

theorem mem_signalsOf {reg : ParticleRegistry} {reason : ExitReason}
    {D : List Pid} {x : Pid} {traps : Bool} {m : SystemMessage}
    (h : m ∈ reg.signalsOf reason D x traps) :
    (∃ q, m = .exit q reason) ∨ ∃ q ref, m = .down q ref reason := by
  obtain ⟨q, -, hm⟩ := List.mem_flatMap.1 h
  cases hq : reg.state q with
  | none => simp [hq] at hm
  | some st =>
    rw [hq, Option.elim_some, signalsTo, List.mem_append] at hm
    rcases hm with hm | hm
    · split at hm
      · exact Or.inl ⟨q, List.mem_singleton.1 hm⟩
      · cases hm
    · obtain ⟨r, -, rfl⟩ := List.mem_map.1 hm
      exact Or.inr ⟨q, r, rfl⟩

/-! ## The result -/

/-- The settled state of a survivor. -/
theorem survives_settleAll (reg : ParticleRegistry) (reason : ExitReason)
    {D : List Pid} (hD : D.Nodup) (x : Pid) (s : ParticleState) :
    Survives reg reason D x s (reg.settleAll reason D x s) where
  links _ := mem_settleAll_links
  monitors := lookup_settleAll_monitors reg reason D x s
  monitoredBy := settleAll_monitoredBy reg reason D x s
  trapExit := settleAll_trapExit reg reason D x s
  received := by
    refine ⟨reg.signalsOf reason D x s.trapExit, ?_, ?_, ?_, ?_⟩
    · rw [settleAll_mailbox, Mailbox.pushSystems_eq]
    · intro q
      exact count_exit_signalsOf reg reason hD x q _
    · intro q ref
      exact count_down_signalsOf reg reason hD x q _ ref
    · intro m hm
      exact mem_signalsOf hm

/-- The invariant with an empty stack is the exact result. -/
theorem CascadeInv.exitsExactly {reg reg' : ParticleRegistry} {p : Pid}
    {reason : ExitReason} {D : List Pid}
    (h : CascadeInv reg p reason reg' D []) :
    ExitsExactly reg p reason D reg' := by
  have hp : p ∈ D := h.start.elim id fun hnil => absurd hnil List.not_mem_nil
  have hleast : IsLeast {S : Set Pid | p ∈ S ∧ reg.CascadeClosed reason S}
      {x | x ∈ D} := by
    refine ⟨⟨hp, ?_⟩, ?_⟩
    · intro q x hq hqx
      exact (h.closed q hq x hqx).elim id
        fun hnil => absurd hnil List.not_mem_nil
    · rintro S ⟨hpS, hS⟩ x hx
      exact h.sound S hpS hS x (Or.inl hx)
  refine
    { nodup := h.nodup, least := hleast, normal := ?_, alive := ?_
      survivors := ?_, particles := h.particles, names := h.names
      deaths := h.deaths, pidGen := h.pidGen, components := h.components
      nextRef := h.nextRef }
  · intro hnormal
    -- No cascade leaves `{p}`, so the least set is `{p}`.
    have hclosed : reg.CascadeClosed reason {p} := by
      intro q x _ hqx
      exact absurd hnormal (ExitReason.isAbnormal_iff.1 hqx.1)
    have hsub : ∀ x ∈ D, x = p := hleast.2 ⟨rfl, hclosed⟩
    exact List.Perm.eq_singleton
      ((List.perm_ext_iff_of_nodup h.nodup (List.nodup_singleton p)).2 fun x => by
        rw [List.mem_singleton]
        exact ⟨hsub x, fun hx => hx ▸ hp⟩)
  · intro x
    rw [alive_iff, h.states]
    by_cases hx : x ∈ D
    · simp [hx]
    · rw [if_neg hx, alive_iff]
      cases reg.state x <;> simp [hx]
  · intro x s hs hx
    refine ⟨reg.settleAll reason D x s, ?_,
      survives_settleAll reg reason h.nodup x s⟩
    rw [h.states, if_neg hx, hs]
    rfl

/-- `exit_particle` of a live particle removes exactly the closure. -/
theorem exitParticle_exact {reg : ParticleRegistry} {p : Pid}
    (reason : ExitReason) (hp : reg.Alive p) :
    ∃ D, ExitsExactly reg p reason D (reg.exitParticle p reason) := by
  obtain ⟨D, hD⟩ := exitParticle_inv reason hp
  exact ⟨D, hD.exitsExactly⟩

/-! ## Exit signals -/

theorem applyInheritedExit_of_dead {reg : ParticleRegistry} {target : Pid}
    (source : Pid) (reason : ExitReason) (h : reg.state target = none) :
    reg.applyInheritedExit target source reason = reg := by
  rw [applyInheritedExit, h]

/-- A trapping target only gets a message. -/
theorem applyInheritedExit_of_trapping {reg : ParticleRegistry} {target : Pid}
    {s : ParticleState} (source : Pid) (reason : ExitReason)
    (h : reg.state target = some s) (ht : s.trapExit = true) :
    reg.applyInheritedExit target source reason =
      reg.sendSystem target (.exit source reason) := by
  rw [applyInheritedExit, h]
  simp [ht, deliverExit]

/-- Any other target dies of an abnormal reason, with that reason, and does
nothing about a normal one. -/
theorem applyInheritedExit_of_not_trapping {reg : ParticleRegistry}
    {target : Pid} {s : ParticleState} (source : Pid) (reason : ExitReason)
    (h : reg.state target = some s) (ht : s.trapExit = false) :
    reg.applyInheritedExit target source reason =
      if reason.isAbnormal = true then reg.exitParticle target reason
      else reg := by
  rw [applyInheritedExit, h]
  simp [ht]

/-- A directed kill is not trappable. -/
theorem applyDirectedExit_kill {reg : ParticleRegistry} {target : Pid}
    (source : Pid) :
    reg.applyDirectedExit target source .kill =
      reg.exitParticle target .killed := by
  rw [applyDirectedExit, if_neg (by simp)]
  split
  · rename_i h
    exact (exitParticle_of_dead _ h).symm
  · rfl

theorem applyDirectedExit_of_ne_kill {reg : ParticleRegistry} {target : Pid}
    (source : Pid) {reason : ExitReason} (h : reason ≠ .kill) :
    reg.applyDirectedExit target source reason =
      reg.applyInheritedExit target source reason := by
  rw [applyDirectedExit, if_pos h]

/-- Exit propagation, whole.  For every registry and every live particle the
recursion terminates, and it removes exactly the link closure.  The two exit
signals reduce to it. -/
theorem exit_propagation (reg : ParticleRegistry) (p : Pid) (hp : reg.Alive p)
    (reason : ExitReason) :
    (∃ D, ExitsExactly reg p reason D (reg.exitParticle p reason) ∧
      ∀ fuel, reg.particleStates.keys.length < fuel →
        exitFuel fuel reg p reason = some (reg.exitParticle p reason)) ∧
    (∀ source s, reg.state p = some s →
      reg.applyInheritedExit p source reason =
        if s.trapExit = true then reg.sendSystem p (.exit source reason)
        else if reason ≠ .normal then reg.exitParticle p reason else reg) ∧
    (∀ source, reason ≠ .kill → reg.applyDirectedExit p source reason =
      reg.applyInheritedExit p source reason) ∧
    ∀ source, reg.applyDirectedExit p source .kill =
      reg.exitParticle p .killed := by
  refine ⟨?_, ?_, ?_, ?_⟩
  · obtain ⟨D, hD⟩ := exitParticle_exact reason hp
    exact ⟨D, hD, fun _ hfuel => exitFuel_eq_exitParticle reg p reason hfuel⟩
  · intro source s hs
    cases ht : s.trapExit with
    | true => exact applyInheritedExit_of_trapping source reason hs ht
    | false =>
      rw [applyInheritedExit_of_not_trapping source reason hs ht]
      simp
  · intro source hne
    exact applyDirectedExit_of_ne_kill source hne
  · intro source
    exact applyDirectedExit_kill source

/-- Two linked particles, neither of which traps exits. -/
def linkedPair : ParticleRegistry :=
  { new ⟨1⟩ with
    particleStates := ((∅ : Table Pid ParticleState).insert ⟨⟨1⟩, 1⟩
      { ParticleState.new with links := KeySet.insert ⟨⟨1⟩, 2⟩ ∅ }).insert
      ⟨⟨1⟩, 2⟩ { ParticleState.new with links := KeySet.insert ⟨⟨1⟩, 1⟩ ∅ } }

theorem exit_propagation_linkedPair :
    ∃ D, ExitsExactly linkedPair ⟨⟨1⟩, 1⟩ (.exception "crash") D
      (linkedPair.exitParticle ⟨⟨1⟩, 1⟩ (.exception "crash")) := by
  obtain ⟨⟨D, hD, -⟩, -⟩ :=
    exit_propagation linkedPair ⟨⟨1⟩, 1⟩ (by decide) (.exception "crash")
  exact ⟨D, hD⟩

example : (linkedPair.exitParticle ⟨⟨1⟩, 1⟩
    (.exception "crash")).particleStates.keys = [] := by decide

end Plasmoid.ParticleRegistry
