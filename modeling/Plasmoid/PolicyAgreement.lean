import Plasmoid.DynamicLoop
import Plasmoid.FanOut

/-!
# Two policies for one strategy

A supervisor with the strategy `one_for_one` marks the children of a fixed
list.  The supervisor of a pool keeps a list of those that are alive.  Given
the same children they take the same decisions: the list of the pool is what
the marks leave of the fixed list, until both give up.
-/

namespace Plasmoid

open Machine

namespace DynamicSupervisor

/-- Start the children one after the other. -/
def startChildren (sup : DynamicSupervisor) : List ChildSpec →
    DynamicSupervisor × List (Except StartChildError Action)
  | [] => (sup, [])
  | spec :: specs =>
    let started := sup.startChild spec
    let rest := started.1.startChildren specs
    (rest.1, started.2 :: rest.2)

theorem startChildren_eq {sup : DynamicSupervisor} {specs : List ChildSpec}
    (hids : ((sup.children ++ specs).map (·.id)).Nodup) :
    sup.startChildren specs =
      ({ sup with children := sup.children ++ specs },
        specs.map fun spec => .ok (.start spec)) := by
  induction specs generalizing sup with
  | nil =>
    rw [List.append_nil]
    rfl
  | cons spec specs ih =>
    have hfree : ¬ sup.contains spec.id = true := by
      rw [contains_iff]
      rintro ⟨c, hc, hid⟩
      rw [List.map_append, List.map_cons] at hids
      exact List.nodup_append.1 hids |>.2.2 _ (List.mem_map_of_mem hc) _
        List.mem_cons_self hid
    rw [startChildren, startChild, if_neg hfree]
    dsimp only
    rw [List.append_cons] at hids
    rw [ih hids, List.append_assoc]
    rfl

/-- A pool that takes in distinct children from the start. -/
theorem startChildren_new (flags : SupFlags) {specs : List ChildSpec}
    (hids : (specs.map (·.id)).Nodup) :
    (new flags).startChildren specs =
      ({ new flags with children := specs },
        specs.map fun spec => .ok (.start spec)) :=
  @startChildren_eq (new flags) specs hids

end DynamicSupervisor

/-- Removing the child with an id, when no two share one. -/
theorem eraseP_id {specs : List ChildSpec} (hids : (specs.map (·.id)).Nodup)
    (id : String) :
    (specs.eraseP fun c => c.id = id) = specs.filter fun c => c.id ≠ id := by
  induction specs with
  | nil => rfl
  | cons c specs ih =>
    rw [List.map_cons, List.nodup_cons] at hids
    by_cases hc : c.id = id
    · rw [List.eraseP_cons_of_pos (by simpa using hc),
        List.filter_cons_of_neg (by simpa using hc), eq_comm,
        List.filter_eq_self]
      intro d hd
      have hne : d.id ≠ id := by
        rintro rfl
        exact hids.1 (hc ▸ List.mem_map_of_mem hd)
      simpa using hne
    · rw [List.eraseP_cons_of_neg (by simpa using hc),
        List.filter_cons_of_pos (by simpa using hc), ih hids.2]

theorem find?_id {specs : List ChildSpec} (hids : (specs.map (·.id)).Nodup)
    {spec : ChildSpec} (hspec : spec ∈ specs) :
    (specs.find? fun c => c.id = spec.id) = some spec := by
  induction specs with
  | nil => cases hspec
  | cons c specs ih =>
    rw [List.map_cons, List.nodup_cons] at hids
    rcases List.mem_cons.1 hspec with rfl | hspec
    · exact List.find?_cons_of_pos (by simp)
    · have hne : c.id ≠ spec.id := by
        intro hid
        exact hids.1 (hid ▸ List.mem_map_of_mem hspec)
      rw [List.find?_cons_of_neg (by simpa using hne)]
      exact ih hids.2 hspec

namespace Supervisor

variable {sup : Supervisor}

/-- The children that are marked as running, in start order. -/
def liveSpecs (sup : Supervisor) : List ChildSpec :=
  ((positions sup.children).filter fun i => sup.running i = true).map
    fun i => sup.children.get i

theorem mem_liveSpecs {spec : ChildSpec} :
    spec ∈ sup.liveSpecs ↔
      ∃ i, sup.running i = true ∧ sup.children.get i = spec := by
  simp [liveSpecs, mem_positions]

theorem liveSpecs_sublist (sup : Supervisor) :
    sup.liveSpecs.Sublist sup.children := by
  have h := map_positions id sup.children
  rw [List.map_id] at h
  conv_rhs => rw [← h]
  exact List.filter_sublist.map _

theorem nodup_liveSpecs (hids : (sup.children.map (·.id)).Nodup) :
    (sup.liveSpecs.map (·.id)).Nodup :=
  hids.sublist (sup.liveSpecs_sublist.map _)

theorem liveSpecs_update (hids : (sup.children.map (·.id)).Nodup)
    (idx : Fin sup.children.length) :
    ({ sup with running := Function.update sup.running idx false } :
      Supervisor).liveSpecs =
      sup.liveSpecs.filter fun c => c.id ≠ (sup.children.get idx).id := by
  rw [liveSpecs, liveSpecs, List.filter_map, List.filter_filter]
  congr 1
  refine List.filter_congr fun i _ => ?_
  by_cases hi : i = idx
  · rw [hi]
    simp
  · have hne : (sup.children.get i).id ≠ (sup.children.get idx).id :=
      fun hid => hi (eq_of_id_eq hids hid)
    have hne' : sup.children[(i : ℕ)].id ≠ sup.children[(idx : ℕ)].id := hne
    simp [Function.update_of_ne hi, hne']

/-! ## A restart of one child -/

variable {idx : Fin sup.children.length} {nowMs : UInt64}

theorem affected_oneForOne (hone : sup.flags.strategy = .oneForOne)
    (idx : Fin sup.children.length) :
    affected sup.flags.strategy sup.children idx = [idx] := by
  rw [hone]
  rfl

theorem restartActions_oneForOne (hone : sup.flags.strategy = .oneForOne)
    (hkept : (sup.children.get idx).restart ≠ .temporary) :
    sup.restartActions idx = [.start (sup.children.get idx)] := by
  have hstops : sup.stoppedSiblings idx = [] := by
    rw [stoppedSiblings, affected_oneForOne hone]
    simp
  have hstarts : sup.restartedChildren idx = [idx] := by
    rw [restartedChildren, affected_oneForOne hone]
    exact List.filter_cons_of_pos (by simpa using hkept)
  rw [restartActions, hstops, hstarts]
  rfl

/-- The child that exits is marked as stopped and then as running again. -/
theorem disturbed_oneForOne (hone : sup.flags.strategy = .oneForOne)
    (hkept : (sup.children.get idx).restart ≠ .temporary)
    (hrunning : sup.running idx = true) : sup.disturbed idx = sup.running := by
  funext j
  by_cases hj : j = idx
  · subst hj
    rw [hrunning, disturbed_iff hkept, hone]
    exact .inl ⟨rfl, hkept⟩
  · refine disturbed_of_not_disturbs ?_
    rw [hone]
    exact hj

theorem liveSpecs_afterRestart (hone : sup.flags.strategy = .oneForOne)
    (hkept : (sup.children.get idx).restart ≠ .temporary)
    (hrunning : sup.running idx = true) :
    (sup.afterRestart idx nowMs).liveSpecs = sup.liveSpecs := by
  rw [afterRestart, disturbed_oneForOne hone hkept hrunning]
  rfl

theorem restartTimes_oneForOne (hone : sup.flags.strategy = .oneForOne)
    (hkept : (sup.children.get idx).restart ≠ .temporary) :
    sup.restartTimes idx nowMs =
      forgetRestartsBefore (saturatingSub nowMs sup.flags.periodMs)
        (sup.restarts ++ [nowMs]) := by
  have hcount : (sup.restartLoops idx).2.2 = 1 := by
    rw [restartLoops, count_foldl_restartTurn, affected_oneForOne hone,
      List.filter_cons_of_pos (by simpa using hkept)]
    rfl
  rw [restartTimes, hcount]
  rfl

/-- The stops for all that is marked as running, the last one first. -/
theorem giveUp_eq (sup : Supervisor) :
    sup.giveUp.2 =
      (sup.liveSpecs.map fun c => .stop c.id c.shutdown).reverse ++
        [.giveUp] := by
  rw [giveUp, shutdown_eq, liveSpecs, List.map_map, ← List.map_reverse,
    ← List.filter_reverse]
  rfl

end Supervisor

/-! ## Both policies side by side -/

/-- The policy with marks and the policy of a pool, fed the same exits. -/
structure PolicyPair where
  fixed : Supervisor
  pool : DynamicSupervisor

namespace PolicyPair

open Supervisor

def start (flags : SupFlags) (children : List ChildSpec) : PolicyPair where
  fixed := (new flags children).init.1
  pool := ((DynamicSupervisor.new flags).startChildren children).1

/-- A live child exits. -/
def step (t : PolicyPair) (e : ChildExit) : Option PolicyPair :=
  if t.fixed.isRunning e.id ∨ t.pool.contains e.id then
    some ⟨t.fixed.exited e, (t.pool.onChildExit e.id e.reason e.nowMs).1⟩
  else none

/-- The pool is what the marks leave of the fixed list. -/
structure Alike (t : PolicyPair) : Prop where
  nodup : (t.fixed.children.map (·.id)).Nodup
  oneForOne : t.fixed.flags.strategy = .oneForOne
  intensity : t.pool.intensity = t.fixed.flags.intensity
  periodMs : t.pool.periodMs = t.fixed.flags.periodMs
  restarts : t.pool.restarts = t.fixed.restarts
  live : t.pool.children = t.fixed.liveSpecs

variable {t u : PolicyPair}

theorem alike_start {flags : SupFlags} {children : List ChildSpec}
    (hids : (children.map (·.id)).Nodup)
    (hone : flags.strategy = .oneForOne) : (start flags children).Alike where
  nodup := hids
  oneForOne := hone
  intensity := by
    rw [start, DynamicSupervisor.startChildren_new flags hids]
    rfl
  periodMs := by
    rw [start, DynamicSupervisor.startChildren_new flags hids]
    rfl
  restarts := by
    rw [start, DynamicSupervisor.startChildren_new flags hids]
    rfl
  live := by
    rw [start, DynamicSupervisor.startChildren_new flags hids]
    show children = liveSpecs (new flags children).init.1
    have hall := map_positions id children
    rw [List.map_id] at hall
    have hmarked : (positions children).filter
        (fun i => (new flags children).init.1.running i = true) =
        positions children := List.filter_eq_self.2 fun _ _ => rfl
    exact hall.symm.trans (congrArg (List.map _) hmarked.symm)

theorem Alike.contains (h : t.Alike) (id : String) :
    t.fixed.isRunning id = t.pool.contains id := by
  rw [Bool.eq_iff_iff, isRunning_iff h.nodup, DynamicSupervisor.contains_iff,
    h.live]
  constructor
  · rintro ⟨i, rfl, hi⟩
    exact ⟨_, mem_liveSpecs.2 ⟨i, hi, rfl⟩, rfl⟩
  · rintro ⟨spec, hspec, rfl⟩
    obtain ⟨i, hi, rfl⟩ := mem_liveSpecs.1 hspec
    exact ⟨i, rfl, hi⟩

/-- The policies decide alike about the exit of a live child. -/
inductive Decides (t : PolicyPair) (e : ChildExit) : Prop where
  | together (alike : Alike ⟨t.fixed.exited e,
        (t.pool.onChildExit e.id e.reason e.nowMs).1⟩)
      (keeps : ¬ t.fixed.GivesUp e)
      (same : (t.fixed.onChildExit e.id e.reason e.nowMs).2 =
        (t.pool.onChildExit e.id e.reason e.nowMs).2)
  | giveUp (fixed : (t.fixed.onChildExit e.id e.reason e.nowMs).2 =
        (t.fixed.liveSpecs.map fun c => .stop c.id c.shutdown).reverse ++
          [.giveUp])
      (pool : (t.pool.onChildExit e.id e.reason e.nowMs).2 =
        (t.fixed.liveSpecs.map fun c => .stop c.id c.shutdown) ++ [.giveUp])

/-- The pool makes the same two tests, on the same window. -/
theorem Alike.onChildExit_pool (h : t.Alike)
    {idx : Fin t.fixed.children.length} (hrunning : t.fixed.running idx = true)
    (reason : ExitReason) (nowMs : UInt64) :
    t.pool.onChildExit (t.fixed.children.get idx).id reason nowMs =
      if ¬ (t.fixed.children.get idx).restart.restarts reason then
        ({ t.pool with children := t.fixed.liveSpecs.filter fun c =>
            c.id ≠ (t.fixed.children.get idx).id }, [])
      else
        let restarts := forgetRestartsBefore
          (saturatingSub nowMs t.fixed.flags.periodMs)
          (t.fixed.restarts ++ [nowMs])
        if t.fixed.flags.intensity < UInt32.ofNat restarts.length then
          ({ t.pool with restarts, children := [] },
            (t.fixed.liveSpecs.map fun c => .stop c.id c.shutdown) ++ [.giveUp])
        else ({ t.pool with restarts }, [.start (t.fixed.children.get idx)]) := by
  have hfind : (t.pool.children.find? fun c =>
      c.id = (t.fixed.children.get idx).id) =
        some (t.fixed.children.get idx) := by
    rw [h.live]
    exact find?_id (nodup_liveSpecs h.nodup)
      (mem_liveSpecs.2 ⟨idx, hrunning, rfl⟩)
  rw [DynamicSupervisor.onChildExit, hfind, h.intensity, h.periodMs,
    h.restarts, h.live, eraseP_id (nodup_liveSpecs h.nodup)]
  simp only [DynamicSupervisor.shutdown, h.intensity, h.periodMs, h.restarts,
    h.live]

theorem Alike.decides (h : t.Alike) {e : ChildExit}
    (hlive : t.fixed.isRunning e.id = true) : t.Decides e := by
  obtain ⟨idx, hidx, hrunning⟩ := (isRunning_iff h.nodup).1 hlive
  obtain ⟨id, reason, nowMs⟩ := e
  obtain rfl : (t.fixed.children.get idx).id = id := hidx
  have hpool := h.onChildExit_pool hrunning reason nowMs
  obtain ⟨hstays, hfixed⟩ | ⟨hrestarts, hboth⟩ :=
    onChildExit_idx h.nodup idx reason nowMs
  · rw [hstays, if_pos Bool.false_ne_true] at hpool
    refine .together ?_ ?_ ?_
    · rw [exited, hfixed, hpool]
      exact ⟨h.nodup, h.oneForOne, h.intensity, h.periodMs, h.restarts,
        (liveSpecs_update h.nodup idx).symm⟩
    · rw [GivesUp, hfixed]
      exact List.not_mem_nil
    · rw [hfixed, hpool]
  · have hkept := ne_temporary_of_restarts hrestarts
    have htimes : t.fixed.restartTimes idx nowMs = _ :=
      restartTimes_oneForOne h.oneForOne hkept
    rw [hrestarts, if_neg (not_not.2 rfl)] at hpool
    dsimp only at hpool
    rw [← htimes] at hpool
    obtain ⟨hfull, hfixed⟩ | ⟨hroom, hfixed⟩ := hboth
    · rw [if_pos hfull] at hpool
      refine .giveUp ?_ (by rw [hpool])
      rw [hfixed, giveUp_eq, liveSpecs_afterRestart h.oneForOne hkept hrunning]
    · rw [if_neg hroom] at hpool
      refine .together ?_ ?_ ?_
      · rw [exited, hfixed, hpool]
        refine ⟨h.nodup, h.oneForOne, h.intensity, h.periodMs, rfl, ?_⟩
        exact h.live.trans
          (liveSpecs_afterRestart h.oneForOne hkept hrunning).symm
      · rw [GivesUp, hfixed]
        exact giveUp_not_mem_restartActions t.fixed idx
      · rw [hfixed, hpool, restartActions_oneForOne h.oneForOne hkept]

/-- As long as neither has given up, the policies are alike. -/
theorem alike_of_run {s : PolicyPair} (h : s.Alike)
    (hrun : Run step (fun t e => ¬ t.fixed.GivesUp e) s t) : t.Alike := by
  refine hrun.invariant (fun {t u e} ht hkeeps hnext => ?_) h
  rw [step] at hnext
  split at hnext
  · rename_i hlive
    rw [← ht.contains, or_self] at hlive
    cases hnext
    cases ht.decides hlive with
    | together alike _ _ => exact alike
    | giveUp fixed _ =>
      refine absurd ?_ hkeeps
      rw [GivesUp, fixed]
      simp
  · cases hnext

/-- A pool decides as a supervisor with the strategy `one_for_one` does, until
both give up. -/
theorem policies_agree (intensity : UInt32) (periodMs : UInt64)
    (children : List ChildSpec) (hids : (children.map (·.id)).Nodup) :
    let flags : SupFlags := ⟨.oneForOne, intensity, periodMs⟩
    ((DynamicSupervisor.new flags).startChildren children).2 =
        (new flags children).init.2.map .ok ∧
    ∀ t, Run step (fun t e => ¬ t.fixed.GivesUp e) (start flags children) t →
      (∀ id, t.fixed.isRunning id = t.pool.contains id) ∧
      ∀ e : ChildExit, t.pool.contains e.id = true →
        let fixed := (t.fixed.onChildExit e.id e.reason e.nowMs).2
        let pool := (t.pool.onChildExit e.id e.reason e.nowMs).2
        (.giveUp ∈ fixed ↔ .giveUp ∈ pool) ∧
        (.giveUp ∉ fixed → fixed = pool) ∧
        (.giveUp ∈ fixed → ∃ stops : List ChildSpec,
          fixed = (stops.map fun c => .stop c.id c.shutdown).reverse ++
            [.giveUp] ∧
          pool = (stops.map fun c => .stop c.id c.shutdown) ++ [.giveUp]) := by
  intro flags
  refine ⟨?_, fun t hrun => ?_⟩
  · rw [DynamicSupervisor.startChildren_new flags hids]
    have hstarts : (new flags children).init.2 = children.map .start :=
      map_positions Action.start children
    rw [hstarts, List.map_map]
    rfl
  have halike : t.Alike := alike_of_run (alike_start hids rfl) hrun
  refine ⟨halike.contains, fun e hlive => ?_⟩
  intro fixed pool
  rw [← halike.contains] at hlive
  cases halike.decides hlive with
  | together _ keeps same =>
    have heq : fixed = pool := same
    exact ⟨by rw [heq], fun _ => heq, fun hgives => absurd hgives keeps⟩
  | giveUp hfixed hpool =>
    have hfixed' : fixed = _ := hfixed
    have hpool' : pool = _ := hpool
    refine ⟨?_, fun hkeeps => ?_, fun _ => ⟨_, hfixed', hpool'⟩⟩
    · rw [hfixed', hpool']
      simp
    · refine absurd ?_ hkeeps
      rw [hfixed']
      simp

/-- Neither tolerates a restart. -/
theorem policies_agree_twoTogether :
    ∃ stops : List ChildSpec,
      ((start ⟨.oneForOne, 0, 5000⟩ twoTogether).pool.onChildExit "a" .kill
        0).2 = (stops.map fun c => .stop c.id c.shutdown) ++ [.giveUp] :=
  have hgives : .giveUp ∈ ((start ⟨.oneForOne, 0, 5000⟩
      twoTogether).fixed.onChildExit "a" .kill 0).2 := by decide
  let ⟨stops, _, hpool⟩ := (((policies_agree 0 5000 twoTogether (by decide)).2 _
    .refl).2 ⟨"a", .kill, 0⟩ (by decide)).2.2 hgives
  ⟨stops, hpool⟩

end PolicyPair

end Plasmoid
