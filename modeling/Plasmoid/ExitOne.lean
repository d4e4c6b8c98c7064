import Plasmoid.Registry

/-!
# What one exit does

`exitOne` walks over the links and the watchers of the dead particle with two
folds and delivers with two more.  This module states the result pointwise:
`settleOne` is what the death of one particle does to the state of another,
and `exitOne_spec` says everything that `exitOne` does.  Later proofs cite
the spec and never unfold the folds.
-/

namespace Plasmoid.ParticleRegistry

/-! ## What a death does to another particle -/

/-- The refs under which `x` watches a particle with state `st`, in order. -/
def firedRefs (st : ParticleState) (x : Pid) : List UInt64 :=
  (st.monitoredBy.filter fun w => w.1 = x).map Prod.snd

/-- The signals that the death of `pid` sends to `x`, in the order of the
deliveries: the exit signal of the link first, then the down signals. -/
def signalsTo (reason : ExitReason) (pid : Pid) (st : ParticleState) (x : Pid)
    (traps : Bool) : List SystemMessage :=
  (if x ∈ st.links ∧ traps = true then [.exit pid reason] else []) ++
    (firedRefs st x).map fun r => .down pid r reason

/-- Drop several refs. -/
def dropRefs (refs : List UInt64) (t : Table UInt64 Pid) : Table UInt64 Pid :=
  refs.foldl (fun t r => t.erase r) t

/-- The state of `x` after the death of `pid`, which had state `st`. -/
def settleOne (reason : ExitReason) (pid : Pid) (st : ParticleState) (x : Pid)
    (s : ParticleState) : ParticleState :=
  { s with
    links := if x ∈ st.links then s.links.remove pid else s.links
    monitors := dropRefs (firedRefs st x) s.monitors
    mailbox := s.mailbox.pushSystems (signalsTo reason pid st x s.trapExit) }

@[simp] theorem settleOne_trapExit (reason : ExitReason) (pid : Pid)
    (st : ParticleState) (x : Pid) (s : ParticleState) :
    (settleOne reason pid st x s).trapExit = s.trapExit := rfl

@[simp] theorem settleOne_monitoredBy (reason : ExitReason) (pid : Pid)
    (st : ParticleState) (x : Pid) (s : ParticleState) :
    (settleOne reason pid st x s).monitoredBy = s.monitoredBy := rfl

theorem mem_settleOne_links {reason : ExitReason} {pid : Pid}
    {st : ParticleState} {x y : Pid} {s : ParticleState} :
    y ∈ (settleOne reason pid st x s).links ↔
      y ∈ s.links ∧ ¬ (y = pid ∧ x ∈ st.links) := by
  simp only [settleOne]
  split
  · rename_i hx
    rw [KeySet.mem_remove]
    constructor
    · rintro ⟨hne, hy⟩
      exact ⟨hy, fun h => hne h.1⟩
    · rintro ⟨hy, hnot⟩
      exact ⟨fun h => hnot ⟨h, hx⟩, hy⟩
  · rename_i hx
    exact ⟨fun hy => ⟨hy, fun h => hx h.2⟩, fun h => h.1⟩

theorem mem_firedRefs {st : ParticleState} {x : Pid} {r : UInt64} :
    r ∈ firedRefs st x ↔ (x, r) ∈ st.monitoredBy := by
  simp [firedRefs]

theorem lookup_dropRefs (refs : List UInt64) (t : Table UInt64 Pid)
    (r : UInt64) :
    (dropRefs refs t).lookup r = if r ∈ refs then none else t.lookup r := by
  induction refs generalizing t with
  | nil => simp [dropRefs]
  | cons a refs ih =>
    change (dropRefs refs (t.erase a)).lookup r = _
    rw [ih, Table.lookup_erase_eq]
    by_cases h : r = a <;> simp [h]

/-! ## The loop over the links -/

/-- Whether a particle of the table traps exits. -/
def trapsIn (states : Table Pid ParticleState) (x : Pid) : Bool :=
  (states.lookup x).any (·.trapExit)

/-- Whether a death with this reason kills the linked particle `x`. -/
def doomedIn (reason : ExitReason) (states : Table Pid ParticleState)
    (x : Pid) : Bool :=
  reason.isAbnormal && (states.lookup x).any (!·.trapExit)

theorem lookup_visitLink (pid : Pid) (reason : ExitReason) (w : ExitWork)
    (a x : Pid) :
    (visitLink pid reason w a).states.lookup x =
      (w.states.lookup x).map fun s =>
        if x = a then { s with links := s.links.remove pid } else s := by
  rw [visitLink]
  split
  · rename_i hnone
    by_cases h : x = a
    · subst h
      rw [hnone]
      rfl
    · simp [h]
  · rename_i peer hpeer
    have hmod : ∀ t, t = Table.modify a
        (fun s => { s with links := s.links.remove pid }) w.states →
        t.lookup x = (w.states.lookup x).map fun s =>
          if x = a then { s with links := s.links.remove pid } else s := by
      intro t ht
      rw [ht, Table.lookup_modify]
      by_cases h : x = a <;> simp [h]
    split
    · exact hmod _ rfl
    · split <;> exact hmod _ rfl

theorem exitDeliveries_visitLink (pid : Pid) (reason : ExitReason)
    (w : ExitWork) (a : Pid) :
    (visitLink pid reason w a).exitDeliveries =
      w.exitDeliveries ++ if trapsIn w.states a then [a] else [] := by
  rw [visitLink, trapsIn]
  cases h : w.states.lookup a with
  | none => simp
  | some peer =>
    cases ht : peer.trapExit <;> cases hr : reason.isAbnormal <;> simp [ht]

theorem cascadeKills_visitLink (pid : Pid) (reason : ExitReason)
    (w : ExitWork) (a : Pid) :
    (visitLink pid reason w a).cascadeKills =
      w.cascadeKills ++ if doomedIn reason w.states a then [a] else [] := by
  rw [visitLink, doomedIn]
  cases h : w.states.lookup a with
  | none => simp
  | some peer =>
    cases ht : peer.trapExit <;> cases hr : reason.isAbnormal <;> simp [ht]

theorem downDeliveries_visitLink (pid : Pid) (reason : ExitReason)
    (w : ExitWork) (a : Pid) :
    (visitLink pid reason w a).downDeliveries = w.downDeliveries := by
  rw [visitLink]
  split
  · rfl
  · split
    · rfl
    · split <;> rfl

theorem trapsIn_visitLink (pid : Pid) (reason : ExitReason) (w : ExitWork)
    (a : Pid) :
    trapsIn (visitLink pid reason w a).states = trapsIn w.states := by
  funext x
  rw [trapsIn, trapsIn, lookup_visitLink]
  cases w.states.lookup x with
  | none => rfl
  | some s => by_cases h : x = a <;> simp [h]

theorem doomedIn_visitLink (pid : Pid) (reason : ExitReason) (w : ExitWork)
    (a : Pid) :
    doomedIn reason (visitLink pid reason w a).states =
      doomedIn reason w.states := by
  funext x
  rw [doomedIn, doomedIn, lookup_visitLink]
  cases w.states.lookup x with
  | none => rfl
  | some s => by_cases h : x = a <;> simp [h]

theorem lookup_foldl_visitLink (pid : Pid) (reason : ExitReason) :
    ∀ (l : List Pid) (w : ExitWork) (x : Pid), l.Nodup →
      (l.foldl (visitLink pid reason) w).states.lookup x =
        (w.states.lookup x).map fun s =>
          if x ∈ l then { s with links := s.links.remove pid } else s := by
  intro l
  induction l with
  | nil => intro w x _; simp
  | cons a l ih =>
    intro w x hl
    obtain ⟨ha, hl'⟩ := List.nodup_cons.1 hl
    rw [List.foldl_cons, ih _ _ hl', lookup_visitLink, Option.map_map]
    congr 1
    funext s
    by_cases h : x = a
    · subst h
      simp [ha]
    · simp [h]

theorem exitDeliveries_foldl_visitLink (pid : Pid) (reason : ExitReason)
    (l : List Pid) (w : ExitWork) :
    (l.foldl (visitLink pid reason) w).exitDeliveries =
      w.exitDeliveries ++ l.filter (trapsIn w.states) := by
  induction l generalizing w with
  | nil => simp
  | cons a l ih =>
    rw [List.foldl_cons, ih, exitDeliveries_visitLink, trapsIn_visitLink,
      List.filter_cons]
    split <;> simp

theorem cascadeKills_foldl_visitLink (pid : Pid) (reason : ExitReason)
    (l : List Pid) (w : ExitWork) :
    (l.foldl (visitLink pid reason) w).cascadeKills =
      w.cascadeKills ++ l.filter (doomedIn reason w.states) := by
  induction l generalizing w with
  | nil => simp
  | cons a l ih =>
    rw [List.foldl_cons, ih, cascadeKills_visitLink, doomedIn_visitLink,
      List.filter_cons]
    split <;> simp

theorem downDeliveries_foldl_visitLink (pid : Pid) (reason : ExitReason)
    (l : List Pid) (w : ExitWork) :
    (l.foldl (visitLink pid reason) w).downDeliveries = w.downDeliveries := by
  induction l generalizing w with
  | nil => rfl
  | cons a l ih => rw [List.foldl_cons, ih, downDeliveries_visitLink]

/-! ## The loop over the watchers -/

theorem lookup_visitWatcher (w : ExitWork) (watch : Pid × UInt64) (x : Pid) :
    (visitWatcher w watch).states.lookup x =
      (w.states.lookup x).map fun s =>
        if x = watch.1 then { s with monitors := s.monitors.erase watch.2 }
        else s := by
  rw [visitWatcher]
  split
  · rename_i hnone
    by_cases h : x = watch.1
    · subst h
      rw [hnone]
      rfl
    · simp [h]
  · change (Table.modify _ _ _).lookup x = _
    rw [Table.lookup_modify]
    by_cases h : x = watch.1 <;> simp [h]

theorem downDeliveries_visitWatcher (w : ExitWork) (watch : Pid × UInt64) :
    (visitWatcher w watch).downDeliveries =
      w.downDeliveries ++ if watch.1 ∈ w.states then [watch] else [] := by
  rw [visitWatcher]
  split
  · rename_i hnone
    rw [if_neg (AList.lookup_eq_none.1 hnone)]
    simp
  · rename_i s hs
    rw [if_pos (Table.lookup_some_mem hs)]

theorem mem_visitWatcher {w : ExitWork} {watch : Pid × UInt64} {x : Pid} :
    x ∈ (visitWatcher w watch).states ↔ x ∈ w.states := by
  rw [← AList.lookup_isSome, ← AList.lookup_isSome, lookup_visitWatcher,
    Option.isSome_map]

theorem exitDeliveries_visitWatcher (w : ExitWork) (watch : Pid × UInt64) :
    (visitWatcher w watch).exitDeliveries = w.exitDeliveries := by
  rw [visitWatcher]
  split <;> rfl

theorem cascadeKills_visitWatcher (w : ExitWork) (watch : Pid × UInt64) :
    (visitWatcher w watch).cascadeKills = w.cascadeKills := by
  rw [visitWatcher]
  split <;> rfl

theorem lookup_foldl_visitWatcher (mb : List (Pid × UInt64)) (w : ExitWork)
    (x : Pid) :
    (mb.foldl visitWatcher w).states.lookup x =
      (w.states.lookup x).map fun s => { s with
        monitors := dropRefs ((mb.filter fun d => d.1 = x).map Prod.snd)
          s.monitors } := by
  induction mb generalizing w with
  | nil => simp [dropRefs]
  | cons d mb ih =>
    rw [List.foldl_cons, ih, lookup_visitWatcher, Option.map_map]
    congr 1
    funext s
    by_cases h : d.1 = x
    · subst h
      simp [dropRefs]
    · simp [h, Ne.symm h]

theorem downDeliveries_foldl_visitWatcher (mb : List (Pid × UInt64))
    (w : ExitWork) :
    (mb.foldl visitWatcher w).downDeliveries =
      w.downDeliveries ++ mb.filter fun d => d.1 ∈ w.states := by
  induction mb generalizing w with
  | nil => simp
  | cons d mb ih =>
    have hmem : (fun e : Pid × UInt64 =>
        decide (e.1 ∈ (visitWatcher w d).states)) =
        fun e => decide (e.1 ∈ w.states) := by
      funext e
      simp only [mem_visitWatcher]
    rw [List.foldl_cons, ih, downDeliveries_visitWatcher, hmem,
      List.filter_cons]
    by_cases h : d.1 ∈ w.states <;> simp [h]

theorem exitDeliveries_foldl_visitWatcher (mb : List (Pid × UInt64))
    (w : ExitWork) :
    (mb.foldl visitWatcher w).exitDeliveries = w.exitDeliveries := by
  induction mb generalizing w with
  | nil => rfl
  | cons d mb ih => rw [List.foldl_cons, ih, exitDeliveries_visitWatcher]

theorem cascadeKills_foldl_visitWatcher (mb : List (Pid × UInt64))
    (w : ExitWork) :
    (mb.foldl visitWatcher w).cascadeKills = w.cascadeKills := by
  induction mb generalizing w with
  | nil => rfl
  | cons d mb ih => rw [List.foldl_cons, ih, cascadeKills_visitWatcher]

/-! ## The deliveries -/

theorem state_sendSystem (reg : ParticleRegistry) (pid x : Pid)
    (msg : SystemMessage) :
    (reg.sendSystem pid msg).state x =
      (reg.state x).map fun s =>
        if x = pid then { s with mailbox := s.mailbox.pushSystem msg }
        else s := by
  rw [sendSystem, state_modifyState]
  by_cases h : x = pid <;> simp [h]

private theorem state_foldl_exits (pid : Pid) (reason : ExitReason) :
    ∀ (l : List Pid) (reg : ParticleRegistry) (x : Pid), l.Nodup →
      (l.foldl (fun reg x => reg.sendSystem x (.exit pid reason)) reg).state x =
        (reg.state x).map fun s => { s with
          mailbox := s.mailbox.pushSystems
            (if x ∈ l then [.exit pid reason] else []) } := by
  intro l
  induction l with
  | nil => intro reg x _; simp
  | cons a l ih =>
    intro reg x hl
    obtain ⟨ha, hl'⟩ := List.nodup_cons.1 hl
    rw [List.foldl_cons, ih _ _ hl', state_sendSystem, Option.map_map]
    congr 1
    funext s
    by_cases h : x = a
    · subst h
      simp [ha]
    · simp [h]

private theorem state_foldl_downs (pid : Pid) (reason : ExitReason)
    (l : List (Pid × UInt64)) (reg : ParticleRegistry) (x : Pid) :
    (l.foldl (fun reg d => reg.sendSystem d.1 (.down pid d.2 reason))
        reg).state x =
      (reg.state x).map fun s => { s with
        mailbox := s.mailbox.pushSystems
          (((l.filter fun d => d.1 = x).map Prod.snd).map
            fun r => .down pid r reason) } := by
  induction l generalizing reg with
  | nil => simp
  | cons d l ih =>
    rw [List.foldl_cons, ih, state_sendSystem, Option.map_map]
    congr 1
    funext s
    by_cases h : d.1 = x
    · subst h
      simp
    · simp [h, Ne.symm h]

/-- The parts of a registry that a signal leaves alone. -/
structure SameButStates (reg reg' : ParticleRegistry) : Prop where
  pidGen : reg'.pidGen = reg.pidGen
  particles : reg'.particles = reg.particles
  names : reg'.names = reg.names
  components : reg'.components = reg.components
  nextRef : reg'.nextRef = reg.nextRef
  deaths : reg'.deaths = reg.deaths

theorem SameButStates.refl (reg : ParticleRegistry) :
    SameButStates reg reg := ⟨rfl, rfl, rfl, rfl, rfl, rfl⟩

private theorem sameButStates_foldl {α : Type}
    (f : ParticleRegistry → α → ParticleRegistry)
    (hf : ∀ reg a, SameButStates reg (f reg a)) (l : List α)
    (reg : ParticleRegistry) : SameButStates reg (l.foldl f reg) := by
  induction l generalizing reg with
  | nil => exact .refl reg
  | cons a l ih =>
    have h1 := hf reg a
    have h2 := ih (f reg a)
    exact ⟨h2.pidGen.trans h1.pidGen, h2.particles.trans h1.particles,
      h2.names.trans h1.names, h2.components.trans h1.components,
      h2.nextRef.trans h1.nextRef, h2.deaths.trans h1.deaths⟩

theorem sameButStates_deliverSignals (reg : ParticleRegistry) (pid : Pid)
    (reason : ExitReason) (w : ExitWork) :
    SameButStates reg (reg.deliverSignals pid reason w) := by
  have h1 := sameButStates_foldl
    (fun reg x => reg.sendSystem x (.exit pid reason))
    (fun _ _ => ⟨rfl, rfl, rfl, rfl, rfl, rfl⟩) w.exitDeliveries reg
  have h2 := sameButStates_foldl
    (fun reg (d : Pid × UInt64) => reg.sendSystem d.1 (.down pid d.2 reason))
    (fun _ _ => ⟨rfl, rfl, rfl, rfl, rfl, rfl⟩) w.downDeliveries
    (w.exitDeliveries.foldl
      (fun reg x => reg.sendSystem x (.exit pid reason)) reg)
  exact ⟨h2.pidGen.trans h1.pidGen, h2.particles.trans h1.particles,
    h2.names.trans h1.names, h2.components.trans h1.components,
    h2.nextRef.trans h1.nextRef, h2.deaths.trans h1.deaths⟩

theorem state_deliverSignals (reg : ParticleRegistry) (pid : Pid)
    (reason : ExitReason) (w : ExitWork) (x : Pid)
    (hnodup : w.exitDeliveries.Nodup) :
    (reg.deliverSignals pid reason w).state x =
      (reg.state x).map fun s => { s with
        mailbox := s.mailbox.pushSystems
          ((if x ∈ w.exitDeliveries then [.exit pid reason] else []) ++
            ((w.downDeliveries.filter fun d => d.1 = x).map Prod.snd).map
              fun r => .down pid r reason) } := by
  rw [deliverSignals, state_foldl_downs, state_foldl_exits _ _ _ _ _ hnodup,
    Option.map_map]
  congr 1
  funext s
  simp only [Function.comp_apply, Mailbox.pushSystems_append]

/-! ## The names of a dead particle -/

private theorem lookup_foldl_erase (l : List String) (t : Table String Pid)
    (n : String) :
    (l.foldl (fun t n => t.erase n) t).lookup n =
      if n ∈ l then none else t.lookup n := by
  induction l generalizing t with
  | nil => simp
  | cons a l ih =>
    rw [List.foldl_cons, ih, Table.lookup_erase_eq]
    by_cases h : n = a <;> simp [h]

/-- Exactly the names of `pid` are gone. -/
theorem lookup_dropNames (reg : ParticleRegistry) (pid : Pid) (n : String) :
    (reg.dropNames pid).names.lookup n =
      (reg.names.lookup n).filter fun owner => owner ≠ pid := by
  rw [dropNames, lookup_foldl_erase]
  cases h : reg.names.lookup n with
  | none =>
    split <;> rfl
  | some owner =>
    have hmem : n ∈ reg.namesHeld pid ↔ owner = pid := by
      simp [namesHeld, Table.mem_keysWhere, h]
    by_cases ho : owner = pid
    · rw [if_pos (hmem.2 ho)]
      simp [Option.filter, ho]
    · rw [if_neg (fun hm => ho (hmem.1 hm))]
      simp [Option.filter, ho]

/-! ## The specification -/

/-- Everything that the exit of `pid`, which had state `st`, does to the
registry before it cascades to `kills`. -/
structure ExitOneSpec (reg : ParticleRegistry) (pid : Pid) (st : ParticleState)
    (reason : ExitReason) (reg' : ParticleRegistry) (kills : List Pid) :
    Prop where
  /-- The particle is gone and every other one has settled. -/
  states : ∀ x, reg'.state x =
    if x = pid then none else (reg.state x).map (settleOne reason pid st x)
  /-- The cascade takes the live linked peers that an abnormal reason kills. -/
  kills : ∀ x, x ∈ kills ↔ reason.isAbnormal = true ∧ x ∈ st.links ∧ x ≠ pid ∧
    ∃ s, reg.state x = some s ∧ s.trapExit = false
  particles : reg'.particles = reg.particles.erase pid
  names : ∀ n, reg'.names.lookup n =
    (reg.names.lookup n).filter fun owner => owner ≠ pid
  deaths : reg'.deaths = reg.deaths ++
    [deathOf reg.me pid st (reg.namesHeld pid).head? reason]
  pidGen : reg'.pidGen = reg.pidGen
  components : reg'.components = reg.components
  nextRef : reg'.nextRef = reg.nextRef

theorem state_removeState (reg : ParticleRegistry) (pid x : Pid) :
    (reg.removeState pid).state x = if x = pid then none else reg.state x :=
  Table.lookup_erase_eq _ _ _

theorem lookup_unhook (states : Table Pid ParticleState) (pid : Pid)
    (st : ParticleState) (reason : ExitReason) (x : Pid) :
    (unhook states pid st reason).states.lookup x =
      (states.lookup x).map fun s => { s with
        links := if x ∈ st.links then s.links.remove pid else s.links
        monitors := dropRefs (firedRefs st x) s.monitors } := by
  rw [unhook, lookup_foldl_visitWatcher,
    lookup_foldl_visitLink _ _ _ _ _ st.links.nodup, Option.map_map]
  congr 1
  funext s
  by_cases h : x ∈ st.links <;> simp [h, firedRefs]

theorem exitDeliveries_unhook (states : Table Pid ParticleState)
    (pid : Pid) (st : ParticleState) (reason : ExitReason) :
    (unhook states pid st reason).exitDeliveries =
      st.links.toList.filter (trapsIn states) := by
  rw [unhook, exitDeliveries_foldl_visitWatcher,
    exitDeliveries_foldl_visitLink, List.nil_append]

theorem cascadeKills_unhook (states : Table Pid ParticleState)
    (pid : Pid) (st : ParticleState) (reason : ExitReason) :
    (unhook states pid st reason).cascadeKills =
      st.links.toList.filter (doomedIn reason states) := by
  rw [unhook, cascadeKills_foldl_visitWatcher,
    cascadeKills_foldl_visitLink, List.nil_append]

theorem downDeliveries_unhook (states : Table Pid ParticleState)
    (pid : Pid) (st : ParticleState) (reason : ExitReason) :
    (unhook states pid st reason).downDeliveries =
      st.monitoredBy.filter fun d => d.1 ∈ states := by
  have hmem : (fun d : Pid × UInt64 => decide (d.1 ∈
      (st.links.toList.foldl (visitLink pid reason) ⟨states, [], [], []⟩).states)) =
      fun d => decide (d.1 ∈ states) := by
    funext d
    rw [decide_eq_decide, ← AList.lookup_isSome, ← AList.lookup_isSome,
      lookup_foldl_visitLink _ _ _ _ _ st.links.nodup, Option.isSome_map]
  rw [unhook, downDeliveries_foldl_visitWatcher,
    downDeliveries_foldl_visitLink, List.nil_append, hmem]

theorem exitOne_eq_none {reg : ParticleRegistry} {pid : Pid}
    {reason : ExitReason} :
    reg.exitOne pid reason = none ↔ reg.state pid = none := by
  rw [exitOne]
  cases reg.state pid <;> simp

theorem state_bury (reg : ParticleRegistry) (pid : Pid) (st : ParticleState)
    (reason : ExitReason) (x : Pid) :
    (reg.bury pid st reason).state x = if x = pid then none else reg.state x :=
  state_removeState reg pid x

theorem sameButStates_settlePeers (reg : ParticleRegistry) (pid : Pid)
    (st : ParticleState) (reason : ExitReason) :
    SameButStates reg (reg.settlePeers pid st reason) := by
  have h := sameButStates_deliverSignals
    { reg with
      particleStates := (unhook reg.particleStates pid st reason).states }
    pid reason (unhook reg.particleStates pid st reason)
  exact ⟨h.pidGen, h.particles, h.names, h.components, h.nextRef, h.deaths⟩

/-- The unhooking and the deliveries together settle every particle. -/
theorem state_settlePeers (reg : ParticleRegistry) (pid : Pid)
    (st : ParticleState) (reason : ExitReason) (x : Pid) :
    (reg.settlePeers pid st reason).state x =
      (reg.state x).map (settleOne reason pid st x) := by
  rw [settlePeers, state_deliverSignals _ _ _ _ _ (by
    rw [exitDeliveries_unhook]
    exact st.links.nodup.filter _)]
  change Option.map _ ((unhook reg.particleStates pid st reason).states.lookup x)
    = _
  rw [lookup_unhook, Option.map_map]
  change Option.map _ (reg.state x) = _
  cases hs : reg.state x with
  | none => rfl
  | some s =>
    have hlook : reg.particleStates.lookup x = some s := hs
    -- The deliveries to `x` are the signals of `settleOne`.
    have hexit : x ∈ (unhook reg.particleStates pid st reason).exitDeliveries ↔
        x ∈ st.links ∧ s.trapExit = true := by
      rw [exitDeliveries_unhook, List.mem_filter, trapsIn, hlook]
      simp
    have hdown : ((unhook reg.particleStates pid st reason).downDeliveries.filter
        fun d => d.1 = x) = st.monitoredBy.filter fun d => d.1 = x := by
      rw [downDeliveries_unhook, List.filter_filter]
      refine List.filter_congr fun d _ => ?_
      by_cases hd : d.1 = x
      · simp [hd, Table.lookup_some_mem hlook]
      · simp [hd]
    simp only [Option.map_some, Function.comp_apply, hexit, hdown, settleOne,
      signalsTo, firedRefs]

/-- The specification of one exit. -/
theorem exitOne_spec {reg reg' : ParticleRegistry} {pid : Pid}
    {reason : ExitReason} {kills : List Pid}
    (h : reg.exitOne pid reason = some (reg', kills)) :
    ∃ st, reg.state pid = some st ∧
      ExitOneSpec reg pid st reason reg' kills := by
  rw [exitOne] at h
  cases hst : reg.state pid with
  | none =>
    rw [hst] at h
    cases h
  | some st =>
    rw [hst] at h
    simp only [Option.some.injEq, Prod.mk.injEq] at h
    rcases h with ⟨rfl, rfl⟩
    have hsame := sameButStates_settlePeers (reg.bury pid st reason) pid st reason
    refine ⟨st, rfl, ?_, ?_, hsame.particles, ?_, hsame.deaths, hsame.pidGen,
      hsame.components, hsame.nextRef⟩
    · intro x
      rw [state_settlePeers, state_bury]
      split <;> rfl
    · intro x
      have hlook : (reg.bury pid st reason).particleStates.lookup x =
          if x = pid then none else reg.state x := state_bury reg pid st reason x
      rw [cascadeKills_unhook, List.mem_filter, doomedIn, hlook,
        KeySet.mem_toList]
      by_cases hx : x = pid
      · simp [hx]
      · cases hs : reg.state x with
        | none => simp [hx]
        | some s =>
          simp only [hx, if_false, Option.any_some, Bool.and_eq_true,
            Bool.not_eq_true', Option.some.injEq, exists_eq_left', ne_eq,
            not_false_eq_true, true_and]
          tauto
    · intro n
      rw [hsame.names]
      exact lookup_dropNames _ _ _

end Plasmoid.ParticleRegistry
