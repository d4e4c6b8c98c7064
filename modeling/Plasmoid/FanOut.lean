import Plasmoid.Lib.Machine
import Plasmoid.RestartWindow

/-!
# What a batch does to the children

A supervisor marks its children as running and as stopped while it decides
which actions to return.  A `Tree` keeps next to the supervisor the children
that are left when every batch so far is carried out, and nothing else.  The
marks follow the tree through every batch that does not give up.

A supervisor gives up only after the loops of the restart have marked the dead
child as running again.  So the batch that gives up stops a child that is
already gone.
-/

namespace Plasmoid

open Machine Plan

/-- The children that are running once a batch has been carried out. -/
def carriedOut (up : Set String) (batch : List Action) : Set String :=
  after ∅ up (batch.map Action.command)

/-- Carrying out the batch starts no running child and stops no stopped one. -/
def Orderly (up : Set String) (batch : List Action) : Prop :=
  Exact up (batch.map Action.command)

namespace Supervisor

/-- Whether a strategy disturbs the child at `j` when the one at `idx` exits. -/
def Disturbs (strategy : Strategy) {n : ℕ} (idx j : Fin n) : Prop :=
  match strategy with
  | .oneForOne => j = idx
  | .oneForAll => True
  | .restForOne => idx ≤ j

/-- The running children that a strategy disturbs are stopped, the last one
first.  Then those that come back are started, the first one first. -/
def FansOut (sup : Supervisor) (idx : Fin sup.children.length)
    (batch : List Action) : Prop :=
  ∃ stops starts : List (Fin sup.children.length),
    batch = stops.map
        (fun j =>
          .stop (sup.children.get j).id (sup.children.get j).shutdown) ++
      starts.map (fun j => .start (sup.children.get j)) ∧
    stops.Pairwise (· > ·) ∧
    (∀ j, j ∈ stops ↔ Disturbs sup.flags.strategy idx j ∧ j ≠ idx ∧
      sup.running j = true) ∧
    starts.Pairwise (· < ·) ∧
    ∀ j, j ∈ starts ↔ Disturbs sup.flags.strategy idx j ∧
      (sup.children.get j).restart ≠ .temporary

/-- The children that were running when the one at `idx` exited are stopped,
the last one first, and then the supervisor gives up. -/
def StopsSurvivors (sup : Supervisor) (idx : Fin sup.children.length)
    (batch : List Action) : Prop :=
  ∃ stops : List (Fin sup.children.length),
    batch = stops.map
        (fun j =>
          .stop (sup.children.get j).id (sup.children.get j).shutdown) ++
      [.giveUp] ∧
    stops.Pairwise (· > ·) ∧
    ∀ j, j ∈ stops ↔ j ≠ idx ∧ sup.running j = true

/-! ## The order of the children -/

theorem map_positions {β : Type} (f : ChildSpec → β)
    (children : List ChildSpec) :
    (positions children).map (fun i => f (children.get i)) = children.map f := by
  refine List.ext_getElem (by simp [positions]) fun i h₁ h₂ => ?_
  simp [positions]

theorem sortedLT_positions (children : List ChildSpec) :
    (positions children).Pairwise (· < ·) :=
  List.pairwise_lt_finRange _

theorem sorted_affected (strategy : Strategy) (children : List ChildSpec)
    (idx : Fin children.length) :
    (affected strategy children idx).Pairwise (· < ·) := by
  cases strategy with
  | oneForOne => exact List.pairwise_singleton _ idx
  | oneForAll => exact sortedLT_positions children
  | restForOne =>
    exact (sortedLT_positions children).sublist (List.drop_sublist _ _)

theorem mem_affected_iff {strategy : Strategy} {children : List ChildSpec}
    {idx j : Fin children.length} :
    j ∈ affected strategy children idx ↔ Disturbs strategy idx j := by
  cases strategy with
  | oneForOne => simp [affected, Disturbs]
  | oneForAll => simp [affected, Disturbs, mem_positions]
  | restForOne =>
    show j ∈ (List.finRange children.length).drop idx ↔ idx ≤ j
    rw [List.mem_drop_iff_getElem]
    constructor
    · rintro ⟨i, hi, rfl⟩
      rw [List.getElem_finRange, Fin.le_def]
      simp
    · intro hle
      have hlt : (j : ℕ) < children.length := j.isLt
      refine ⟨j - idx, ?_, ?_⟩
      · rw [List.length_finRange]
        omega
      · ext
        rw [List.getElem_finRange]
        simp only [Fin.val_cast]
        omega

theorem sorted_stoppedSiblings (sup : Supervisor)
    (idx : Fin sup.children.length) :
    (sup.stoppedSiblings idx).Pairwise (· > ·) :=
  (List.pairwise_reverse.2 (sorted_affected _ _ idx)).sublist
    List.filter_sublist

theorem sorted_restartedChildren (sup : Supervisor)
    (idx : Fin sup.children.length) :
    (sup.restartedChildren idx).Pairwise (· < ·) :=
  (sorted_affected _ _ idx).sublist List.filter_sublist

theorem restartActions_fansOut (sup : Supervisor)
    (idx : Fin sup.children.length) :
    sup.FansOut idx (sup.restartActions idx) := by
  refine ⟨sup.stoppedSiblings idx, sup.restartedChildren idx, rfl,
    sorted_stoppedSiblings sup idx, fun j => ?_,
    sorted_restartedChildren sup idx, fun j => ?_⟩
  · rw [mem_stoppedSiblings, mem_affected_iff]
  · rw [mem_restartedChildren, mem_affected_iff]

theorem disturbs_self (strategy : Strategy) {n : ℕ} (idx : Fin n) :
    Disturbs strategy idx idx := by
  cases strategy with
  | oneForOne => exact rfl
  | oneForAll => trivial
  | restForOne => exact le_rfl

/-! ## The marks by position and by id -/

theorem indexOf_id {children : List ChildSpec}
    (hids : (children.map (·.id)).Nodup) (i : Fin children.length) :
    indexOf children (children.get i).id = some i := by
  cases h : indexOf children (children.get i).id with
  | none =>
    have hno := List.find?_eq_none.1 h i (mem_positions i)
    simp at hno
  | some j => rw [eq_of_id_eq hids (indexOf_some h)]

variable {sup : Supervisor}

theorem isRunning_id (hids : (sup.children.map (·.id)).Nodup)
    (i : Fin sup.children.length) :
    sup.isRunning (sup.children.get i).id = sup.running i := by
  rw [isRunning, indexOf_id hids]

theorem isRunning_iff (hids : (sup.children.map (·.id)).Nodup) {id : String} :
    sup.isRunning id = true ↔ id ∈ sup.runningIds := by
  constructor
  · intro h
    rw [isRunning] at h
    cases hidx : indexOf sup.children id with
    | none =>
      rw [hidx] at h
      cases h
    | some i =>
      rw [hidx] at h
      exact ⟨i, indexOf_some hidx, h⟩
  · rintro ⟨i, rfl, hi⟩
    rw [isRunning_id hids, hi]

/-- The ids that are running, of children with these marks. -/
theorem setOf_isRunning (hids : (sup.children.map (·.id)).Nodup) :
    {id | sup.isRunning id = true} = sup.runningIds :=
  Set.ext fun _ => isRunning_iff hids

/-! ## One exit -/

variable {idx : Fin sup.children.length} {reason : ExitReason} {nowMs : UInt64}

/-- The window of recent restarts after the loops of a restart. -/
def restartTimes (sup : Supervisor) (idx : Fin sup.children.length)
    (nowMs : UInt64) : List UInt64 :=
  forgetRestartsBefore (saturatingSub nowMs sup.flags.periodMs)
    (sup.restarts ++ List.replicate (sup.restartLoops idx).2.2.toNat nowMs)

/-- The supervisor after the loops of a restart. -/
def afterRestart (sup : Supervisor) (idx : Fin sup.children.length)
    (nowMs : UInt64) : Supervisor :=
  { sup with running := sup.disturbed idx, restarts := sup.restartTimes idx nowMs }

/-- What the exit of a child can do: nothing more, a restart, or the end. -/
theorem onChildExit_idx (hids : (sup.children.map (·.id)).Nodup)
    (idx : Fin sup.children.length) (reason : ExitReason) (nowMs : UInt64) :
    ((sup.children.get idx).restart.restarts reason = false ∧
      sup.onChildExit (sup.children.get idx).id reason nowMs =
        ({ sup with running := Function.update sup.running idx false }, [])) ∨
    ((sup.children.get idx).restart.restarts reason = true ∧
      ((sup.flags.intensity < UInt32.ofNat (sup.restartTimes idx nowMs).length ∧
        sup.onChildExit (sup.children.get idx).id reason nowMs =
          (sup.afterRestart idx nowMs).giveUp) ∨
      (¬ sup.flags.intensity <
          UInt32.ofNat (sup.restartTimes idx nowMs).length ∧
        sup.onChildExit (sup.children.get idx).id reason nowMs =
          (sup.afterRestart idx nowMs, sup.restartActions idx)))) := by
  obtain ⟨hrunning, hactions⟩ := sup.restartLoops_eq idx
  rw [onChildExit, indexOf_id hids]
  dsimp only
  rw [hrunning, hactions]
  cases hrestarts : (sup.children.get idx).restart.restarts reason with
  | false => exact .inl ⟨rfl, rfl⟩
  | true =>
    refine .inr ⟨rfl, ?_⟩
    rw [if_neg (not_not.2 rfl)]
    by_cases hfull : sup.flags.intensity <
        UInt32.ofNat (sup.restartTimes idx nowMs).length
    · exact .inl ⟨hfull, if_pos hfull⟩
    · exact .inr ⟨hfull, if_neg hfull⟩

theorem planOf_all (batch : List Action) :
    planOf (fun _ => true) batch = batch.map Action.command := by
  refine List.filter_eq_self.2 fun c _ => ?_
  cases c with
  | start id => rfl
  | stop id => rfl
  | quit => rfl

theorem giveUp_mem_giveUp (sup : Supervisor) : .giveUp ∈ sup.giveUp.2 := by
  simp [giveUp]

theorem ne_temporary_of_restarts {spec : ChildSpec}
    (h : spec.restart.restarts reason = true) : spec.restart ≠ .temporary := by
  intro htemp
  rw [htemp] at h
  cases h

theorem runningIds_update (hids : (sup.children.map (·.id)).Nodup)
    (idx : Fin sup.children.length) :
    ({ sup with running := Function.update sup.running idx false } :
      Supervisor).runningIds = sup.runningIds \ {(sup.children.get idx).id} := by
  ext id
  constructor
  · rintro ⟨i, rfl, hi⟩
    have hne : i ≠ idx := by
      intro heq
      rw [heq] at hi
      simp at hi
    refine ⟨⟨i, rfl, ?_⟩, fun hid => hne (eq_of_id_eq hids hid)⟩
    simpa [Function.update_of_ne hne] using hi
  · rintro ⟨⟨i, rfl, hi⟩, hne⟩
    refine ⟨i, rfl, ?_⟩
    have hne : i ≠ idx := by
      rintro rfl
      exact hne rfl
    simpa [Function.update_of_ne hne] using hi

theorem command_restartActions (sup : Supervisor)
    (idx : Fin sup.children.length) :
    (sup.restartActions idx).map Action.command =
      ((sup.stoppedSiblings idx).map fun j => (sup.children.get j).id).map .stop ++
        ((sup.restartedChildren idx).map fun j => (sup.children.get j).id).map
          .start := by
  simp only [restartActions, List.map_append, List.map_map]
  rfl

/-- The marks after a restart are what its batch leaves running. -/
theorem carriedOut_restartActions (hids : (sup.children.map (·.id)).Nodup)
    (idx : Fin sup.children.length) :
    carriedOut (sup.runningIds \ {(sup.children.get idx).id})
        (sup.restartActions idx) =
      {id | ∃ j, (sup.children.get j).id = id ∧ sup.disturbed idx j = true} := by
  rw [carriedOut, command_restartActions, after_stops, after_starts]
  ext id
  simp only [Set.mem_ofPred_eq, List.mem_map, Set.mem_empty_iff_false]
  constructor
  · rintro (⟨⟨⟨j, rfl, hj⟩, hne⟩, hstopped⟩ | ⟨j, hj, rfl⟩)
    · refine ⟨j, rfl, disturbed_of_running ?_ hj fun h => hstopped ⟨j, h, rfl⟩⟩
      rintro rfl
      exact hne rfl
    · exact ⟨j, rfl, disturbed_of_restarted hj⟩
  · rintro ⟨j, rfl, hj⟩
    by_cases hstarted : j ∈ sup.restartedChildren idx
    · exact .inr ⟨j, hstarted, rfl⟩
    · left
      rw [mem_restartedChildren] at hstarted
      rw [disturbed, if_neg hstarted] at hj
      split at hj
      · cases hj
      · rename_i hspared
        have hne : j ≠ idx := by
          rintro rfl
          simp at hj
        rw [Function.update_of_ne hne] at hj
        refine ⟨⟨⟨j, rfl, hj⟩, fun hid => hne (eq_of_id_eq hids hid)⟩, ?_⟩
        rintro ⟨k, hk, hid⟩
        obtain rfl := eq_of_id_eq hids hid
        obtain ⟨haffected, -, -⟩ := mem_stoppedSiblings.1 hk
        exact hspared ⟨haffected, hne⟩

/-- The batch of a restart stops running children only and starts stopped ones
only. -/
theorem orderly_restartActions (hids : (sup.children.map (·.id)).Nodup)
    (idx : Fin sup.children.length) :
    Orderly (sup.runningIds \ {(sup.children.get idx).id})
      (sup.restartActions idx) := by
  have hnodup : ∀ is : List (Fin sup.children.length), is.Nodup →
      (is.map fun j => (sup.children.get j).id).Nodup := by
    intro is his
    refine his.map_on ?_
    intro i _ j _ hid
    exact eq_of_id_eq hids hid
  rw [Orderly, command_restartActions]
  refine exact_stops (hnodup _ ?_) ?_ (exact_starts (hnodup _ ?_) ?_)
  · exact (List.nodup_reverse.2 (nodup_affected _ _ _)).filter _
  · intro id hid
    obtain ⟨j, hj, rfl⟩ := List.mem_map.1 hid
    obtain ⟨-, hne, hrunning⟩ := mem_stoppedSiblings.1 hj
    exact ⟨⟨j, rfl, hrunning⟩, fun hid => hne (eq_of_id_eq hids hid)⟩
  · exact (nodup_affected _ _ _).filter _
  · intro id hid
    obtain ⟨j, hj, rfl⟩ := List.mem_map.1 hid
    rintro ⟨⟨⟨k, hk, hrunning⟩, hne⟩, hstopped⟩
    obtain rfl := eq_of_id_eq hids hk
    refine hstopped (List.mem_map.2 ⟨k, mem_stoppedSiblings.2 ⟨?_, ?_, ?_⟩, rfl⟩)
    · exact (mem_restartedChildren.1 hj).1
    · rintro rfl
      exact hne rfl
    · exact hrunning

/-- The batch that gives up stops all that the loops of the restart have marked
as running. -/
theorem giveUp_afterRestart (sup : Supervisor) (idx : Fin sup.children.length)
    (nowMs : UInt64) :
    (sup.afterRestart idx nowMs).giveUp =
      ({ sup.afterRestart idx nowMs with running := fun _ => false },
        ((positions sup.children).reverse.filter fun j =>
          sup.disturbed idx j = true).map
            (fun j =>
              .stop (sup.children.get j).id (sup.children.get j).shutdown) ++
          [.giveUp]) := by
  rw [giveUp, shutdown_eq]
  rfl

theorem disturbed_iff {j : Fin sup.children.length}
    (hkept : (sup.children.get idx).restart ≠ .temporary) :
    sup.disturbed idx j = true ↔
      (Disturbs sup.flags.strategy idx j ∧
        (sup.children.get j).restart ≠ .temporary) ∨
        (¬ Disturbs sup.flags.strategy idx j ∧ sup.running j = true) := by
  rw [← mem_affected_iff, disturbed]
  by_cases hj : j ∈ affected sup.flags.strategy sup.children idx
  · by_cases htemp : (sup.children.get j).restart = .temporary
    · have hne : j ≠ idx := by
        rintro rfl
        exact hkept htemp
      rw [if_neg fun h => h.2 htemp, if_pos ⟨hj, hne⟩]
      constructor
      · intro h
        cases h
      · rintro (⟨-, h⟩ | ⟨h, -⟩)
        · exact absurd htemp h
        · exact absurd hj h
    · rw [if_pos ⟨hj, htemp⟩]
      exact iff_of_true rfl (.inl ⟨hj, htemp⟩)
  · have hne : j ≠ idx := by
      rintro rfl
      exact hj (mem_affected_iff.2 (disturbs_self _ _))
    rw [if_neg fun h => hj h.1, if_neg fun h => hj h.1,
      Function.update_of_ne hne]
    simp [hj]

/-- The marks that the loops of a restart leave outside its reach. -/
theorem disturbed_of_not_disturbs {j : Fin sup.children.length}
    (hj : ¬ Disturbs sup.flags.strategy idx j) :
    sup.disturbed idx j = sup.running j := by
  have hne : j ≠ idx := by
    rintro rfl
    exact hj (disturbs_self _ _)
  rw [← mem_affected_iff] at hj
  rw [disturbed, if_neg fun h => hj h.1, if_neg fun h => hj h.1,
    Function.update_of_ne hne]

/-! ## One exit that does not give up -/

/-- What an exit can do when the supervisor carries on. -/
theorem keeps_cases (hids : (sup.children.map (·.id)).Nodup)
    (hkeeps : ¬ sup.GivesUp ⟨(sup.children.get idx).id, reason, nowMs⟩) :
    ((sup.children.get idx).restart.restarts reason = false ∧
      sup.onChildExit (sup.children.get idx).id reason nowMs =
        ({ sup with running := Function.update sup.running idx false }, [])) ∨
    ((sup.children.get idx).restart.restarts reason = true ∧
      sup.onChildExit (sup.children.get idx).id reason nowMs =
        (sup.afterRestart idx nowMs, sup.restartActions idx)) := by
  obtain hstays | ⟨hrestarts, ⟨-, h⟩ | ⟨-, h⟩⟩ :=
    onChildExit_idx hids idx reason nowMs
  · exact .inl hstays
  · refine absurd ?_ hkeeps
    rw [GivesUp, h]
    exact giveUp_mem_giveUp _
  · exact .inr ⟨hrestarts, h⟩

theorem batch_of_stays (hids : (sup.children.map (·.id)).Nodup)
    (hstays : (sup.children.get idx).restart.restarts reason = false) :
    (sup.onChildExit (sup.children.get idx).id reason nowMs).2 = [] := by
  obtain ⟨-, h⟩ | ⟨hrestarts, -⟩ := onChildExit_idx hids idx reason nowMs
  · rw [h]
  · rw [hstays] at hrestarts
    cases hrestarts

theorem batch_of_restarts (hids : (sup.children.map (·.id)).Nodup)
    (hrestarts : (sup.children.get idx).restart.restarts reason = true)
    (hkeeps : ¬ sup.GivesUp ⟨(sup.children.get idx).id, reason, nowMs⟩) :
    (sup.onChildExit (sup.children.get idx).id reason nowMs).2 =
      sup.restartActions idx := by
  obtain ⟨hstays, -⟩ | ⟨-, h⟩ := keeps_cases hids hkeeps
  · rw [hrestarts] at hstays
    cases hstays
  · rw [h]

theorem isRunning_exited (hids : (sup.children.map (·.id)).Nodup)
    (hkeeps : ¬ sup.GivesUp ⟨(sup.children.get idx).id, reason, nowMs⟩)
    {j : Fin sup.children.length}
    (hj : ¬ Disturbs sup.flags.strategy idx j) :
    (sup.exited ⟨(sup.children.get idx).id, reason, nowMs⟩).isRunning
        (sup.children.get j).id =
      sup.isRunning (sup.children.get j).id := by
  have hne : j ≠ idx := by
    rintro rfl
    exact hj (disturbs_self _ _)
  rw [isRunning_id hids, exited]
  obtain ⟨-, h⟩ | ⟨-, h⟩ := keeps_cases hids hkeeps
  · rw [h, isRunning, indexOf_id hids]
    exact Function.update_of_ne hne _ _
  · rw [h]
    have hafter : (sup.afterRestart idx nowMs).isRunning (sup.children.get j).id =
        sup.disturbed idx j := @isRunning_id (sup.afterRestart idx nowMs) hids j
    exact hafter.trans (disturbed_of_not_disturbs hj)

theorem orderly_onChildExit (hids : (sup.children.map (·.id)).Nodup)
    (hkeeps : ¬ sup.GivesUp ⟨(sup.children.get idx).id, reason, nowMs⟩) :
    Orderly (sup.runningIds \ {(sup.children.get idx).id})
      (sup.onChildExit (sup.children.get idx).id reason nowMs).2 := by
  obtain ⟨-, h⟩ | ⟨-, h⟩ := keeps_cases hids hkeeps
  · rw [h]
    trivial
  · rw [h]
    exact orderly_restartActions hids idx

/-! ## One exit that gives up -/

theorem givesUp_cases (hids : (sup.children.map (·.id)).Nodup)
    (hgives : sup.GivesUp ⟨(sup.children.get idx).id, reason, nowMs⟩) :
    (sup.children.get idx).restart ≠ .temporary ∧
      sup.onChildExit (sup.children.get idx).id reason nowMs =
        (sup.afterRestart idx nowMs).giveUp := by
  rw [GivesUp] at hgives
  obtain ⟨-, h⟩ | ⟨hrestarts, ⟨-, h⟩ | ⟨-, h⟩⟩ :=
    onChildExit_idx hids idx reason nowMs
  · rw [h] at hgives
    cases hgives
  · exact ⟨ne_temporary_of_restarts hrestarts, h⟩
  · rw [h] at hgives
    exact absurd hgives (giveUp_not_mem_restartActions sup idx)

/-- The dead child is marked as running when the supervisor decides to give
up. -/
theorem stop_idx_mem (hids : (sup.children.map (·.id)).Nodup)
    (hgives : sup.GivesUp ⟨(sup.children.get idx).id, reason, nowMs⟩) :
    .stop (sup.children.get idx).id (sup.children.get idx).shutdown ∈
      (sup.onChildExit (sup.children.get idx).id reason nowMs).2 := by
  obtain ⟨hkept, h⟩ := givesUp_cases hids hgives
  rw [h, giveUp_afterRestart]
  refine List.mem_append_left _ (List.mem_map.2 ⟨idx, ?_, rfl⟩)
  refine List.mem_filter.2 ⟨List.mem_reverse.2 (mem_positions idx), ?_⟩
  exact decide_eq_true ((disturbed_iff hkept).2 (.inl ⟨disturbs_self _ _, hkept⟩))

theorem not_stopsSurvivors (hids : (sup.children.map (·.id)).Nodup)
    (hgives : sup.GivesUp ⟨(sup.children.get idx).id, reason, nowMs⟩) :
    ¬ sup.StopsSurvivors idx
      (sup.onChildExit (sup.children.get idx).id reason nowMs).2 := by
  rintro ⟨stops, hbatch, -, hstops⟩
  have hmem := stop_idx_mem hids hgives
  rw [hbatch] at hmem
  rcases List.mem_append.1 hmem with hmem | hmem
  · obtain ⟨j, hj, hstop⟩ := List.mem_map.1 hmem
    injection hstop with hid _
    exact ((hstops j).1 hj).1 (eq_of_id_eq hids hid)
  · simp at hmem

end Supervisor

/-! ## The tree of a supervisor -/

/-- A supervisor, and the children that are running when all its batches have
been carried out. -/
structure Tree where
  sup : Supervisor
  up : Set String

namespace Tree

open Supervisor

/-- All children have been started. -/
def start (flags : SupFlags) (children : List ChildSpec) : Tree where
  sup := (new flags children).init.1
  up := carriedOut ∅ (new flags children).init.2

/-- A running child exits. -/
def step (t : Tree) (e : ChildExit) : Option Tree :=
  if t.sup.isRunning e.id then
    some ⟨t.sup.exited e, carriedOut (t.up \ {e.id})
      (t.sup.onChildExit e.id e.reason e.nowMs).2⟩
  else none

/-- The marks follow the tree. -/
structure Follows (children : List ChildSpec) (t : Tree) : Prop where
  sameChildren : t.sup.children = children
  marks : t.up = t.sup.runningIds

theorem command_init (flags : SupFlags) (children : List ChildSpec) :
    (new flags children).init.2.map Action.command =
      (children.map (·.id)).map .start := by
  have hstarts : (new flags children).init.2 = children.map .start :=
    map_positions Action.start children
  rw [hstarts, List.map_map, List.map_map]
  rfl

variable {children : List ChildSpec} {t u : Tree}

theorem follows_start (flags : SupFlags) (children : List ChildSpec) :
    (start flags children).Follows children where
  sameChildren := rfl
  marks := by
    show carriedOut ∅ (new flags children).init.2 = _
    rw [carriedOut, command_init, after_starts]
    ext id
    simp only [Set.mem_ofPred_eq, Set.mem_empty_iff_false, false_or]
    constructor
    · intro hid
      obtain ⟨spec, hspec, rfl⟩ := List.mem_map.1 hid
      obtain ⟨i, hi, rfl⟩ := List.mem_iff_getElem.1 hspec
      exact ⟨⟨i, hi⟩, rfl, rfl⟩
    · rintro ⟨i, rfl, -⟩
      exact List.mem_map_of_mem (List.getElem_mem i.isLt)

theorem step_eq {e : ChildExit} (h : t.step e = some u) :
    t.sup.isRunning e.id = true ∧
      u = ⟨t.sup.exited e, carriedOut (t.up \ {e.id})
        (t.sup.onChildExit e.id e.reason e.nowMs).2⟩ := by
  rw [step] at h
  split at h
  · rename_i hrunning
    cases h
    exact ⟨hrunning, rfl⟩
  · cases h

/-- What a batch does to the marks it does to the tree, also when it gives
up. -/
theorem marks_onChildExit {sup : Supervisor}
    (hids : (sup.children.map (·.id)).Nodup) (idx : Fin sup.children.length)
    (reason : ExitReason) (nowMs : UInt64) :
    (sup.onChildExit (sup.children.get idx).id reason nowMs).1.runningIds =
      carriedOut (sup.runningIds \ {(sup.children.get idx).id})
        (sup.onChildExit (sup.children.get idx).id reason nowMs).2 := by
  obtain ⟨-, h⟩ | ⟨-, ⟨-, h⟩ | ⟨-, h⟩⟩ := onChildExit_idx hids idx reason nowMs
  · rw [h]
    exact runningIds_update hids idx
  · rw [h, carriedOut]
    have hquits : after ∅ (sup.runningIds \ {(sup.children.get idx).id})
        ((sup.afterRestart idx nowMs).giveUp.2.map Action.command) = ∅ := by
      have hplan := after_giveUp (sup.afterRestart idx nowMs) (fun _ => true) ∅
        (sup.runningIds \ {(sup.children.get idx).id})
      rwa [planOf_all] at hplan
    rw [hquits, giveUp_afterRestart]
    ext id
    simp [runningIds]
  · rw [h, carriedOut_restartActions hids]
    rfl

theorem Follows.step (hids : (children.map (·.id)).Nodup)
    (h : t.Follows children) {e : ChildExit} (hnext : t.step e = some u) :
    u.Follows children := by
  obtain ⟨hrunning, rfl⟩ := step_eq hnext
  obtain ⟨rfl, hmarks⟩ := h
  obtain ⟨idx, hidx, -⟩ := (isRunning_iff hids).1 hrunning
  refine ⟨children_onChildExit .., ?_⟩
  show carriedOut (t.up \ {e.id}) _ = (t.sup.onChildExit _ _ _).1.runningIds
  rw [hmarks, ← hidx, marks_onChildExit hids]

theorem follows_of_run (hids : (children.map (·.id)).Nodup) {flags : SupFlags}
    (h : Run step anyStep (start flags children) t) : t.Follows children :=
  h.invariant (fun ht _ hnext => ht.step hids hnext) (follows_start ..)

/-- The batches of a supervisor fan out as its strategy says, and its marks are
what they leave running.  No batch starts a running child or stops a stopped
one. -/
theorem fan_out_is_exact (flags : SupFlags) (children : List ChildSpec)
    (hids : (children.map (·.id)).Nodup) :
    Orderly ∅ (new flags children).init.2 ∧
    ∀ t, Run step anyStep (start flags children) t →
      t.sup.children = children ∧
      t.up = {id | t.sup.isRunning id = true} ∧
      ∀ (idx : Fin t.sup.children.length) (reason : ExitReason)
        (nowMs : UInt64),
        let e : ChildExit := ⟨(t.sup.children.get idx).id, reason, nowMs⟩
        let batch := (t.sup.onChildExit e.id e.reason e.nowMs).2
        t.sup.running idx = true → ¬ t.sup.GivesUp e →
        ((t.sup.children.get idx).restart.restarts reason = false → batch = []) ∧
        ((t.sup.children.get idx).restart.restarts reason = true →
          t.sup.FansOut idx batch) ∧
        {id | (t.sup.exited e).isRunning id = true} =
          carriedOut ({id | t.sup.isRunning id = true} \ {e.id}) batch ∧
        (∀ j, ¬ Disturbs t.sup.flags.strategy idx j →
          (t.sup.exited e).isRunning (t.sup.children.get j).id =
            t.sup.isRunning (t.sup.children.get j).id) ∧
        Orderly (t.up \ {e.id}) batch := by
  refine ⟨?_, fun t hrun => ?_⟩
  · rw [Orderly, command_init]
    exact exact_starts hids fun _ _ => Set.notMem_empty _
  obtain ⟨rfl, hmarks⟩ := follows_of_run hids hrun
  refine ⟨rfl, hmarks.trans (setOf_isRunning hids).symm, ?_⟩
  intro idx reason nowMs e batch hrunning hkeeps
  have hids' : ((t.sup.exited e).children.map (·.id)).Nodup := by
    rwa [exited, children_onChildExit]
  refine ⟨?_, ?_, ?_, ?_, ?_⟩
  · intro hstays
    exact batch_of_stays hids hstays
  · intro hrestarts
    have hbatch := batch_of_restarts hids hrestarts hkeeps
    show t.sup.FansOut idx (t.sup.onChildExit _ _ _).2
    rw [hbatch]
    exact restartActions_fansOut t.sup idx
  · rw [setOf_isRunning hids, setOf_isRunning hids']
    exact marks_onChildExit hids idx reason nowMs
  · intro j hj
    exact isRunning_exited hids hkeeps hj
  · rw [hmarks]
    exact orderly_onChildExit hids hkeeps

/-- A worker, a helper that is never restarted, and another worker. -/
def workersAndHelper : List ChildSpec :=
  [.new "a" "worker", { ChildSpec.new "h" "helper" with restart := .temporary },
    .new "b" "worker"]

/-- The first worker crashes and takes the others with it. -/
theorem fan_out_is_exact_workersAndHelper :
    (start ⟨.oneForAll, 9, 5000⟩ workersAndHelper).sup.FansOut
      ⟨0, by decide⟩ [.stop "b" (.timeout 5000), .stop "h" (.timeout 5000),
        .start (.new "a" "worker"), .start (.new "b" "worker")] :=
  (((fan_out_is_exact ⟨.oneForAll, 9, 5000⟩ workersAndHelper (by decide)).2 _
    .refl).2.2 ⟨0, by decide⟩ .kill 0 rfl (by decide)).2.1 rfl

/-- A supervisor that gives up stops the child that is already gone, so it
never stops exactly the survivors.  What it stops is what the loops of the
restart have marked as running. -/
theorem dead_child_is_stopped_on_give_up (flags : SupFlags)
    (children : List ChildSpec) (hids : (children.map (·.id)).Nodup) (t : Tree)
    (hrun : Run step anyStep (start flags children) t)
    (idx : Fin t.sup.children.length) (reason : ExitReason) (nowMs : UInt64)
    (hgives : t.sup.GivesUp ⟨(t.sup.children.get idx).id, reason, nowMs⟩) :
    let exited := t.sup.onChildExit (t.sup.children.get idx).id reason nowMs
    ¬ t.sup.StopsSurvivors idx exited.2 ∧
    (∀ id, exited.1.isRunning id = false) ∧
    ∃ stops : List (Fin t.sup.children.length),
      exited.2 = stops.map (fun j =>
        .stop (t.sup.children.get j).id (t.sup.children.get j).shutdown) ++
          [.giveUp] ∧
      stops.Pairwise (· > ·) ∧
      ∀ j, j ∈ stops ↔
        (Disturbs t.sup.flags.strategy idx j ∧
          (t.sup.children.get j).restart ≠ .temporary) ∨
        (¬ Disturbs t.sup.flags.strategy idx j ∧ t.sup.running j = true) := by
  obtain ⟨rfl, -⟩ := follows_of_run hids hrun
  intro exited
  obtain ⟨hkept, hexited⟩ := givesUp_cases hids hgives
  refine ⟨not_stopsSurvivors hids hgives, fun id => ?_, ?_⟩
  · show (t.sup.onChildExit _ _ _).1.isRunning id = false
    rw [hexited, giveUp_afterRestart, isRunning]
    split
    · rfl
    · rfl
  · refine ⟨(positions t.sup.children).reverse.filter fun j =>
      t.sup.disturbed idx j = true, ?_, ?_, fun j => ?_⟩
    · show (t.sup.onChildExit _ _ _).2 = _
      rw [hexited, giveUp_afterRestart]
    · exact (List.pairwise_reverse.2 (sortedLT_positions _)).sublist
        List.filter_sublist
    · simp [mem_positions, disturbed_iff hkept]

/-- A worker crashes, and its supervisor tolerates no restart. -/
theorem dead_child_is_stopped_on_give_up_twoTogether :
    ¬ (start ⟨.oneForOne, 0, 5000⟩ twoTogether).sup.StopsSurvivors
      ⟨0, by decide⟩ [.stop "b" (.timeout 5000), .stop "a" (.timeout 5000), .giveUp] :=
  (dead_child_is_stopped_on_give_up ⟨.oneForOne, 0, 5000⟩ twoTogether (by decide)
    _ .refl ⟨0, by decide⟩ .kill 0 (by decide)).1

/-- The batch that gives up is not always the stops of the survivors. -/
theorem survivors_only_fails :
    ((start ⟨.oneForOne, 0, 5000⟩ twoTogether).sup.onChildExit "a" .kill 0).2 =
        [.stop "b" (.timeout 5000), .stop "a" (.timeout 5000), .giveUp] ∧
    ¬ ∀ (flags : SupFlags) (children : List ChildSpec),
      (children.map (·.id)).Nodup →
      ∀ t, Run step anyStep (start flags children) t →
      ∀ (idx : Fin t.sup.children.length) (reason : ExitReason)
        (nowMs : UInt64),
        t.sup.running idx = true →
        t.sup.GivesUp ⟨(t.sup.children.get idx).id, reason, nowMs⟩ →
        let exited := t.sup.onChildExit (t.sup.children.get idx).id reason nowMs
        t.sup.StopsSurvivors idx exited.2 ∧
          ∀ id, exited.1.isRunning id = false := by
  refine ⟨by decide, fun h => ?_⟩
  have hgives : (start ⟨.oneForOne, 0, 5000⟩ twoTogether).sup.GivesUp
      ⟨"a", .kill, 0⟩ := by decide
  have hids : (twoTogether.map (·.id)).Nodup := by decide
  exact not_stopsSurvivors hids hgives
    (h _ twoTogether hids _ .refl ⟨0, by decide⟩ .kill 0 rfl hgives).1

end Tree

end Plasmoid
