import Plasmoid.HostCalls
import Plasmoid.Lib.Machine

/-!
# Monitors between the particles of one node

A monitor is stored at the watcher, under its ref, and at the target.  The two
must say the same, and neither may name a particle that is gone.  The death
of a target takes the monitors on it from their watchers.  The death of a
watcher leaves its entries at the targets that survive it.
-/

namespace Plasmoid

open Machine

/-- The operations on monitors, each run to completion. -/
inductive MonitorOp where
  | registerComponent (component : String)
  | spawn (component : String) (name : Option String)
  | monitor (watcher target : Pid)
  | monitorWithRef (watcher target : Pid) (refId : UInt64)
  | demonitor (watcher : Pid) (refId : UInt64)
  | exit (pid : Pid) (reason : ExitReason)

namespace ParticleRegistry

/-- Draw the next monitor ref. -/
def drawRef (reg : ParticleRegistry) : UInt64 × ParticleRegistry :=
  (reg.nextRef, { reg with nextRef := reg.nextRef + 1 })

/-- `monitor`, with a ref of the registry.  A missing watcher is noticed only
after the target has recorded it. -/
def monitor (reg : ParticleRegistry) (watcher target : Pid) :
    ParticleRegistry × Except String UInt64 :=
  let (refId, reg) := reg.drawRef
  if ¬ reg.Alive target then
    (reg.deliverDown watcher target refId .normal, .ok refId)
  else
    let reg := reg.modifyState target fun s =>
      { s with monitoredBy := s.monitoredBy ++ [(watcher, refId)] }
    if ¬ reg.Alive watcher then (reg, .error "watcher particle not found")
    else
      (reg.modifyState watcher fun s =>
        { s with monitors := s.monitors.insert refId target }, .ok refId)

def performMonitorOp (reg : ParticleRegistry) : MonitorOp → ParticleRegistry
  | .registerComponent component => reg.registerComponent component
  | .spawn component name => (reg.spawn component name).1
  | .monitor watcher target => (reg.monitor watcher target).1
  | .monitorWithRef watcher target refId =>
    reg.monitorWithRef watcher target refId
  | .demonitor watcher refId => reg.demonitor watcher refId
  | .exit pid reason => reg.exitParticle pid reason

def monitorStep (reg : ParticleRegistry) (op : MonitorOp) :
    Option ParticleRegistry := some (reg.performMonitorOp op)

/-- The tables of watchers and targets say the same, and name only the
living. -/
structure MonitorsMirror (reg : ParticleRegistry) : Prop where
  mirror : ∀ w t r sw st, reg.state w = some sw → reg.state t = some st →
    ((w, r) ∈ st.monitoredBy ↔ sw.monitors.lookup r = some t)
  watchers : ∀ w t r st, reg.state t = some st → (w, r) ∈ st.monitoredBy →
    reg.Alive w
  targets : ∀ w t r sw, reg.state w = some sw →
    sw.monitors.lookup r = some t → reg.Alive t

/-- The watcher does not hold the ref for another target. -/
def RefFree (reg : ParticleRegistry) (watcher target : Pid) (refId : UInt64) :
    Prop :=
  ∀ t ∈ reg.watched watcher refId, t = target

instance (reg : ParticleRegistry) (watcher target : Pid) (refId : UInt64) :
    Decidable (reg.RefFree watcher target refId) :=
  inferInstanceAs (Decidable (∀ t ∈ reg.watched watcher refId, t = target))

/-- `x` dies when `pid` exits. -/
def DiesWith (reg : ParticleRegistry) (pid : Pid) (reason : ExitReason)
    (x : Pid) : Prop :=
  Relation.ReflTransGen (reg.Cascades reason) pid x

/-- The condition on an operation.  A monitor is recorded at both ends or at
none, under a ref that is not in use, and whoever dies watches only particles
that die as well.  A spawn draws a pid that is not in use. -/
def MonitorsBothEnds (reg : ParticleRegistry) : MonitorOp → Prop
  | .registerComponent _ | .demonitor _ _ => True
  | .spawn component name =>
    reg.spawnRefused component name = none → ¬ reg.Alive reg.pidGen.peek
  | .monitor watcher target =>
    reg.Alive target →
      reg.Alive watcher ∧ reg.RefFree watcher target reg.nextRef
  | .monitorWithRef watcher target refId =>
    (reg.Alive watcher ↔ reg.Alive target) ∧ reg.RefFree watcher target refId
  | .exit pid reason => reg.Alive pid → ∀ w t r,
    reg.DiesWith pid reason w → reg.watched w r = some t →
      reg.DiesWith pid reason t

theorem watched_eq_some {reg : ParticleRegistry} {w t : Pid} {r : UInt64} :
    reg.watched w r = some t ↔
      ∃ sw, reg.state w = some sw ∧ sw.monitors.lookup r = some t :=
  Option.bind_eq_some_iff

/-- The dead of an exit. -/
theorem ExitsExactly.mem_iff {reg reg' : ParticleRegistry} {p x : Pid}
    {reason : ExitReason} {D : List Pid} (h : ExitsExactly reg p reason D reg') :
    x ∈ D ↔ reg.DiesWith p reason x := by
  constructor
  · intro hx
    refine h.least.2 ⟨?_, ?_⟩ hx
    · exact Relation.ReflTransGen.refl
    · intro q y hq hcascade
      exact Relation.ReflTransGen.tail hq hcascade
  · intro hx
    induction hx with
    | refl => exact h.least.1.1
    | tail _ hcascade ih => exact h.least.1.2 _ _ ih hcascade

/-! ## Steps -/

/-- The states are rewritten, and nobody is born or dies. -/
theorem MonitorsMirror.of_map {reg reg' : ParticleRegistry}
    (h : MonitorsMirror reg) {f : Pid → ParticleState → ParticleState}
    (hstate : ∀ x, reg'.state x = (reg.state x).map (f x))
    (hmirror : ∀ w t r sw st, reg.state w = some sw → reg.state t = some st →
      ((w, r) ∈ (f t st).monitoredBy ↔ (f w sw).monitors.lookup r = some t))
    (hwatchers : ∀ w t r st, reg.state t = some st →
      (w, r) ∈ (f t st).monitoredBy → (w, r) ∈ st.monitoredBy ∨ reg.Alive w)
    (htargets : ∀ w t r sw, reg.state w = some sw →
      (f w sw).monitors.lookup r = some t →
      sw.monitors.lookup r = some t ∨ reg.Alive t) : MonitorsMirror reg' := by
  have halive : ∀ x, reg.Alive x → reg'.Alive x := by
    intro x hx
    obtain ⟨sx, hsx⟩ := alive_iff.1 hx
    exact alive_iff.2 ⟨f x sx, by rw [hstate, hsx, Option.map_some]⟩
  have hold : ∀ x s', reg'.state x = some s' →
      ∃ s, reg.state x = some s ∧ f x s = s' := by
    intro x s' hs'
    exact Option.map_eq_some_iff.1 ((hstate x).symm.trans hs')
  constructor
  · intro w t r sw' st' hw ht
    obtain ⟨sw, hsw, rfl⟩ := hold w sw' hw
    obtain ⟨st, hst, rfl⟩ := hold t st' ht
    exact hmirror w t r sw st hsw hst
  · intro w t r st' ht hmem
    obtain ⟨st, hst, rfl⟩ := hold t st' ht
    rcases hwatchers w t r st hst hmem with hmem | hw
    · exact halive w (h.watchers w t r st hst hmem)
    · exact halive w hw
  · intro w t r sw' hw hlookup
    obtain ⟨sw, hsw, rfl⟩ := hold w sw' hw
    rcases htargets w t r sw hsw hlookup with hlookup | ht
    · exact halive t (h.targets w t r sw hsw hlookup)
    · exact halive t ht

/-- A message arrives at `pid`. -/
theorem MonitorsMirror.of_message {reg reg' : ParticleRegistry}
    (h : MonitorsMirror reg) {pid : Pid} {msg : SystemMessage}
    (hstate : ∀ x, reg'.state x = (reg.state x).map fun s =>
      if x = pid then { s with mailbox := s.mailbox.pushSystem msg } else s) :
    MonitorsMirror reg' := by
  have hby : ∀ x (s : ParticleState), (if x = pid then
      { s with mailbox := s.mailbox.pushSystem msg } else s).monitoredBy =
        s.monitoredBy := by
    intro x s
    split <;> rfl
  have hmonitors : ∀ x (s : ParticleState), (if x = pid then
      { s with mailbox := s.mailbox.pushSystem msg } else s).monitors =
        s.monitors := by
    intro x s
    split <;> rfl
  refine h.of_map hstate ?_ ?_ ?_
  · intro w t r sw st hsw hst
    rw [hby, hmonitors]
    exact h.mirror w t r sw st hsw hst
  · intro w t r st _ hmem
    rw [hby] at hmem
    exact .inl hmem
  · intro w t r sw _ hheld
    rw [hmonitors] at hheld
    exact .inl hheld

/-- A monitor is recorded at both ends, or at none. -/
theorem MonitorsMirror.record {reg reg' : ParticleRegistry}
    (h : MonitorsMirror reg) {watcher target : Pid} {refId : UInt64}
    (hboth : reg.Alive watcher ↔ reg.Alive target)
    (hfree : reg.RefFree watcher target refId)
    (hstate : ∀ x, reg'.state x =
      (reg.state x).map (withMonitor watcher target refId x)) :
    MonitorsMirror reg' := by
  have hby : ∀ w t r st, (w, r) ∈ (withMonitor watcher target refId t st).monitoredBy ↔
      (w, r) ∈ st.monitoredBy ∨ t = target ∧ w = watcher ∧ r = refId := by
    intro w t r st
    unfold withMonitor
    dsimp only
    split
    · rename_i ht
      simp [ht]
    · rename_i ht
      simp [ht]
  have hlookup : ∀ w r sw,
      (withMonitor watcher target refId w sw).monitors.lookup r =
        if w = watcher ∧ r = refId then some target else sw.monitors.lookup r := by
    intro w r sw
    unfold withMonitor
    dsimp only
    split
    · rename_i hw
      rw [Table.lookup_insert_eq]
      simp [hw]
    · rename_i hw
      rw [if_neg fun hand => hw hand.1]
  refine h.of_map hstate ?_ ?_ ?_
  · intro w t r sw st hsw hst
    rw [hby, hlookup]
    by_cases hnew : w = watcher ∧ r = refId
    · obtain ⟨rfl, rfl⟩ := hnew
      rw [if_pos ⟨rfl, rfl⟩, h.mirror w t r sw st hsw hst]
      constructor
      · rintro (hheld | ⟨rfl, -⟩)
        · rw [hfree t (watched_eq_some.2 ⟨sw, hsw, hheld⟩)]
        · rfl
      · intro ht
        exact .inr ⟨(Option.some_inj.1 ht).symm, rfl, rfl⟩
    · rw [if_neg hnew, h.mirror w t r sw st hsw hst]
      exact ⟨fun hor => hor.resolve_right fun hand => hnew hand.2, .inl⟩
  · intro w t r st hst hmem
    rcases (hby w t r st).1 hmem with hmem | ⟨rfl, rfl, -⟩
    · exact .inl hmem
    · exact .inr (hboth.2 (alive_iff.2 ⟨st, hst⟩))
  · intro w t r sw hsw hheld
    rw [hlookup] at hheld
    split at hheld
    · rename_i hnew
      cases hheld
      exact .inr (hboth.1 (hnew.1 ▸ alive_iff.2 ⟨sw, hsw⟩))
    · exact .inl hheld

theorem MonitorsMirror.demonitor {reg : ParticleRegistry} (h : MonitorsMirror reg)
    (watcher : Pid) (refId : UInt64) :
    MonitorsMirror (reg.demonitor watcher refId) := by
  have hby : ∀ w t r st, (w, r) ∈ (withoutMonitor watcher refId
      (reg.watched watcher refId) t st).monitoredBy ↔ (w, r) ∈ st.monitoredBy ∧
        ¬ (reg.watched watcher refId = some t ∧ w = watcher ∧ r = refId) := by
    intro w t r st
    unfold withoutMonitor
    dsimp only
    split
    · rename_i ht
      simp [← ht, imp_iff_not_or]
    · rename_i ht
      simp [Ne.symm ht]
  have hlookup : ∀ w r sw, (withoutMonitor watcher refId
      (reg.watched watcher refId) w sw).monitors.lookup r =
        if w = watcher ∧ r = refId then none else sw.monitors.lookup r := by
    intro w r sw
    unfold withoutMonitor
    dsimp only
    split
    · rename_i hw
      rw [Table.lookup_erase_eq]
      simp [hw]
    · rename_i hw
      rw [if_neg fun hand => hw hand.1]
  refine h.of_map (fun x => reg.state_demonitor watcher x refId) ?_ ?_ ?_
  · intro w t r sw st hsw hst
    rw [hby, hlookup, h.mirror w t r sw st hsw hst]
    split
    · rename_i hgone
      obtain ⟨rfl, rfl⟩ := hgone
      refine iff_of_false (fun hand => hand.2 ⟨?_, rfl, rfl⟩) nofun
      exact watched_eq_some.2 ⟨sw, hsw, hand.1⟩
    · rename_i hkept
      exact ⟨And.left, fun hheld => ⟨hheld, fun hand => hkept hand.2⟩⟩
  · intro w t r st _ hmem
    exact .inl ((hby w t r st).1 hmem).1
  · intro w t r sw _ hheld
    rw [hlookup] at hheld
    split at hheld
    · cases hheld
    · exact .inl hheld

theorem MonitorsMirror.spawn {reg : ParticleRegistry} (h : MonitorsMirror reg)
    {component : String} {name : Option String}
    (hnew : reg.spawnRefused component name = none →
      ¬ reg.Alive reg.pidGen.peek) :
    MonitorsMirror (reg.spawn component name).1 := by
  cases hr : reg.spawnRefused component name with
  | some err =>
    rw [spawn_of_refused hr]
    exact h
  | none =>
    obtain ⟨-, hs⟩ := spawn_ok (Prod.ext rfl (spawn_of_not_refused hr).1)
    have hdead := hnew hr
    have halive : ∀ x, reg.Alive x → (reg.spawn component name).1.Alive x := by
      intro x hx
      obtain ⟨sx, hsx⟩ := alive_iff.1 hx
      refine alive_iff.2 ⟨sx, ?_⟩
      rw [hs.state, if_neg, hsx]
      rintro rfl
      exact hdead hx
    have hstate : ∀ x s', (reg.spawn component name).1.state x = some s' →
        x = reg.pidGen.peek ∧ s' = .new ∨
          x ≠ reg.pidGen.peek ∧ reg.state x = some s' := by
      intro x s' hs'
      rw [hs.state] at hs'
      split at hs'
      · exact .inl ⟨‹_›, (Option.some_inj.1 hs').symm⟩
      · exact .inr ⟨‹_›, hs'⟩
    have hempty : ∀ r t, ParticleState.new.monitors.lookup r ≠ some t := nofun
    constructor
    · intro w t r sw st hw ht
      rcases hstate w sw hw with ⟨rfl, rfl⟩ | ⟨-, hw'⟩
      · refine iff_of_false (fun hmem => ?_) (hempty r t)
        rcases hstate t st ht with ⟨rfl, rfl⟩ | ⟨-, ht'⟩
        · cases hmem
        · exact hdead (h.watchers _ t r st ht' hmem)
      · rcases hstate t st ht with ⟨rfl, rfl⟩ | ⟨-, ht'⟩
        · exact iff_of_false nofun fun hheld => hdead (h.targets w _ r sw hw' hheld)
        · exact h.mirror w t r sw st hw' ht'
    · intro w t r st ht hmem
      rcases hstate t st ht with ⟨rfl, rfl⟩ | ⟨-, ht'⟩
      · cases hmem
      · exact halive w (h.watchers w t r st ht' hmem)
    · intro w t r sw hw hheld
      rcases hstate w sw hw with ⟨rfl, rfl⟩ | ⟨-, hw'⟩
      · exact absurd hheld (hempty r t)
      · exact halive t (h.targets w t r sw hw' hheld)

theorem MonitorsMirror.exit {reg : ParticleRegistry} (h : MonitorsMirror reg)
    {pid : Pid} {reason : ExitReason}
    (hall : reg.Alive pid → ∀ w t r, reg.DiesWith pid reason w →
      reg.watched w r = some t → reg.DiesWith pid reason t) :
    MonitorsMirror (reg.exitParticle pid reason) := by
  by_cases hpid : reg.Alive pid
  swap
  · rw [exitParticle_of_dead reason hpid]
    exact h
  obtain ⟨D, hD⟩ := exitParticle_exact reason hpid
  have hold : ∀ x s', (reg.exitParticle pid reason).state x = some s' →
      x ∉ D ∧ ∃ s, reg.state x = some s ∧ Survives reg reason D x s s' := by
    intro x s' hs'
    obtain ⟨hx, hnot⟩ := (hD.alive x).1 (alive_iff.2 ⟨s', hs'⟩)
    obtain ⟨s, hs⟩ := alive_iff.1 hx
    obtain ⟨s'', hs'', hsurvives⟩ := hD.survivors x s hs hnot
    cases hs'.symm.trans hs''
    exact ⟨hnot, s, hs, hsurvives⟩
  -- A ref that fired led to one of the dead.
  have hfired : ∀ w r sw, reg.state w = some sw →
      (∃ q ∈ D, (w, r) ∈ reg.watchersOf q) →
      ∃ q ∈ D, sw.monitors.lookup r = some q := by
    rintro w r sw hsw ⟨q, hq, hmem⟩
    obtain ⟨sq, hsq, hmem⟩ : ∃ sq, reg.state q = some sq ∧ (w, r) ∈ sq.monitoredBy := by
      rw [watchersOf] at hmem
      cases hsq : reg.state q with
      | none =>
        rw [hsq] at hmem
        cases hmem
      | some sq =>
        rw [hsq] at hmem
        exact ⟨sq, rfl, hmem⟩
    exact ⟨q, hq, (h.mirror w q r sw sq hsw hsq).1 hmem⟩
  constructor
  · intro w t r sw' st' hw ht
    obtain ⟨-, sw, hsw, hsurvw⟩ := hold w sw' hw
    obtain ⟨htD, st, hst, hsurvt⟩ := hold t st' ht
    rw [hsurvt.monitoredBy, hsurvw.monitors, h.mirror w t r sw st hsw hst]
    split
    · rename_i hgone
      obtain ⟨q, hq, hheld⟩ := hfired w r sw hsw hgone
      refine iff_of_false (fun hheld' => htD ?_) fun hnone => ?_
      · cases hheld.symm.trans hheld'
        exact hq
      · cases hnone
    · exact Iff.rfl
  · intro w t r st' ht hmem
    obtain ⟨htD, st, hst, hsurvt⟩ := hold t st' ht
    rw [hsurvt.monitoredBy] at hmem
    have hw := h.watchers w t r st hst hmem
    refine (hD.alive w).2 ⟨hw, fun hwD => htD ?_⟩
    obtain ⟨sw, hsw⟩ := alive_iff.1 hw
    exact hD.mem_iff.2 (hall hpid w t r (hD.mem_iff.1 hwD)
      (watched_eq_some.2 ⟨sw, hsw, (h.mirror w t r sw st hsw hst).1 hmem⟩))
  · intro w t r sw' hw hheld
    obtain ⟨-, sw, hsw, hsurvw⟩ := hold w sw' hw
    rw [hsurvw.monitors] at hheld
    split at hheld
    · cases hheld
    · rename_i hkept
      have ht := h.targets w t r sw hsw hheld
      refine (hD.alive t).2 ⟨ht, fun htD => hkept ⟨t, htD, ?_⟩⟩
      obtain ⟨st, hst⟩ := alive_iff.1 ht
      rw [watchersOf, hst]
      exact (h.mirror w t r sw st hsw hst).2 hheld

/-- A `monitor` of a live target by a live watcher. -/
theorem state_monitor {reg : ParticleRegistry} {watcher target : Pid}
    (hw : reg.Alive watcher) (ht : reg.Alive target) (x : Pid) :
    (reg.monitor watcher target).1.state x =
      (reg.state x).map (withMonitor watcher target reg.nextRef x) := by
  have hboth : (reg.monitor watcher target).1 =
      (reg.drawRef.2.modifyState target fun s =>
        { s with monitoredBy := s.monitoredBy ++ [(watcher, reg.nextRef)] }).modifyState
      watcher fun s => { s with monitors := s.monitors.insert reg.nextRef target } := by
    rw [monitor]
    exact congrArg Prod.fst ((if_neg (not_not.2 ht)).trans
      (if_neg (not_not.2 (alive_modifyState.2 hw))))
  have hstate : reg.drawRef.2.state x = reg.state x := rfl
  rw [hboth, state_modifyState, state_modifyState, hstate]
  cases reg.state x with
  | none => split_ifs <;> rfl
  | some s =>
    simp only [withMonitor, Option.map_some]
    split_ifs <;> rfl

/-- A monitor of a target that is gone only sends a message. -/
theorem monitor_of_dead {reg : ParticleRegistry} {watcher target : Pid}
    (ht : ¬ reg.Alive target) :
    (reg.monitor watcher target).1 =
      reg.drawRef.2.deliverDown watcher target reg.nextRef .normal := by
  rw [monitor]
  exact congrArg Prod.fst (if_pos ht)

theorem MonitorsMirror.step {reg reg' : ParticleRegistry} {op : MonitorOp}
    (h : MonitorsMirror reg) (hok : reg.MonitorsBothEnds op)
    (hstep : reg.monitorStep op = some reg') : MonitorsMirror reg' := by
  cases hstep
  cases op with
  | registerComponent component => exact ⟨h.mirror, h.watchers, h.targets⟩
  | spawn component name => exact h.spawn hok
  | monitorWithRef watcher target refId =>
    exact h.record hok.1 hok.2 fun x =>
      reg.state_monitorWithRef watcher target x refId
  | demonitor watcher refId => exact h.demonitor watcher refId
  | exit pid reason => exact h.exit hok
  | monitor watcher target =>
    show MonitorsMirror (reg.monitor watcher target).1
    by_cases ht : reg.Alive target
    · obtain ⟨hw, hfree⟩ := hok ht
      exact h.record (iff_of_true hw ht) hfree (state_monitor hw ht)
    · rw [monitor_of_dead ht]
      exact h.of_message fun x => state_sendSystem reg.drawRef.2 watcher x _

/-! ## Runs -/

/-- In every run whose operations record and forget both ends, the tables
mirror each other. -/
theorem monitors_mirror (node : EndpointId) {reg : ParticleRegistry}
    (h : Run monitorStep MonitorsBothEnds (.new node) reg) :
    MonitorsMirror reg :=
  h.invariant (fun hinv hok hstep => hinv.step hok hstep) ⟨nofun, nofun, nofun⟩

/-- Who has no links takes nobody along. -/
theorem diesWith_of_unlinked {reg : ParticleRegistry} {pid x : Pid}
    {reason : ExitReason} (hlinks : reg.linksOf pid = [])
    (h : reg.DiesWith pid reason x) : x = pid := by
  rcases Relation.ReflTransGen.cases_head h with heq | ⟨y, ⟨-, hy, -⟩, -⟩
  · exact heq.symm
  · rw [hlinks] at hy
    cases hy

/-- The condition, where only particles without links and monitors exit. -/
def LeavesAlone (reg : ParticleRegistry) : MonitorOp → Prop
  | .exit pid _ =>
    reg.linksOf pid = [] ∧ ∀ st ∈ reg.state pid, st.monitors.keys = []
  | .registerComponent _ | .demonitor _ _ => True
  | .spawn _ _ => ¬ reg.Alive reg.pidGen.peek
  | .monitor watcher target =>
    reg.Alive watcher ∧ reg.RefFree watcher target reg.nextRef
  | .monitorWithRef watcher target refId =>
    (reg.Alive watcher ↔ reg.Alive target) ∧ reg.RefFree watcher target refId

instance (reg : ParticleRegistry) : DecidablePred reg.LeavesAlone := fun op => by
  cases op <;> unfold LeavesAlone <;> infer_instance

theorem LeavesAlone.monitorsBothEnds {reg : ParticleRegistry} {op : MonitorOp}
    (h : reg.LeavesAlone op) : reg.MonitorsBothEnds op := by
  cases op with
  | registerComponent component => trivial
  | demonitor watcher refId => trivial
  | spawn component name => exact fun _ => h
  | monitor watcher target => exact fun _ => h
  | monitorWithRef watcher target refId => exact h
  | exit pid reason =>
    intro _ w t r hw hheld
    rw [diesWith_of_unlinked h.1 hw] at hheld
    obtain ⟨sw, hsw, hheld⟩ := watched_eq_some.1 hheld
    have hmem : r ∈ sw.monitors.keys := Table.lookup_some_mem hheld
    rw [h.2 sw hsw] at hmem
    cases hmem

/-- Three particles.  The first one watches the others. -/
def watchTwo : List MonitorOp :=
  [.registerComponent "worker", .spawn "worker" none, .spawn "worker" none,
    .spawn "worker" none, .monitor ⟨⟨1⟩, 1⟩ ⟨⟨1⟩, 2⟩,
    .monitorWithRef ⟨⟨1⟩, 1⟩ ⟨⟨1⟩, 3⟩ 7]

/-- One of the watched dies. -/
theorem monitors_mirror_watchTwo :
    ∃ reg, Run monitorStep MonitorsBothEnds (.new ⟨1⟩) reg ∧
      reg.watched ⟨⟨1⟩, 1⟩ 1 = none ∧
      reg.watched ⟨⟨1⟩, 1⟩ 7 = some ⟨⟨1⟩, 3⟩ ∧ MonitorsMirror reg := by
  obtain ⟨reg, h, hgone, hkept⟩ : ∃ reg,
      Run monitorStep LeavesAlone (.new ⟨1⟩) reg ∧
        reg.watched ⟨⟨1⟩, 1⟩ 1 = none ∧
        reg.watched ⟨⟨1⟩, 1⟩ 7 = some ⟨⟨1⟩, 3⟩ :=
    exec_run_of_any (α := MonitorOp) (watchTwo ++ [.exit ⟨⟨1⟩, 2⟩ .kill])
      (by decide +kernel)
  have hrun : Run monitorStep MonitorsBothEnds (.new ⟨1⟩) reg :=
    h.mono fun hok => hok.monitorsBothEnds
  exact ⟨reg, hrun, hgone, hkept, monitors_mirror ⟨1⟩ hrun⟩

/-- The watcher dies, and both targets keep its monitors. -/
theorem dead_watcher_stays_recorded :
    ∃ reg, Run monitorStep anyStep (.new ⟨1⟩) reg ∧
      reg.watchersOf ⟨⟨1⟩, 2⟩ = [(⟨⟨1⟩, 1⟩, 1)] ∧ ¬ reg.Alive ⟨⟨1⟩, 1⟩ ∧
      ¬ MonitorsMirror reg := by
  obtain ⟨reg, h, hwatched, hdead⟩ : ∃ reg,
      Run monitorStep anyStep (.new ⟨1⟩) reg ∧
        reg.watchersOf ⟨⟨1⟩, 2⟩ = [(⟨⟨1⟩, 1⟩, 1)] ∧ ¬ reg.Alive ⟨⟨1⟩, 1⟩ :=
    exec_run_of_any (α := MonitorOp) (watchTwo ++ [.exit ⟨⟨1⟩, 1⟩ .normal])
      (by decide +kernel)
  refine ⟨reg, h, hwatched, hdead, fun hmirror => hdead ?_⟩
  cases hst : reg.state ⟨⟨1⟩, 2⟩ with
  | none =>
    rw [watchersOf, hst] at hwatched
    cases hwatched
  | some st =>
    rw [watchersOf, hst, Option.elim_some] at hwatched
    refine hmirror.watchers _ _ 1 st hst ?_
    rw [hwatched]
    exact List.mem_singleton.2 rfl

end ParticleRegistry

end Plasmoid
