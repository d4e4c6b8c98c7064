import Plasmoid.Supervisor

/-!
# What a policy asks for

The actions of a policy are a plan over the ids of its children.  The policy
keeps no record of which instance is alive, only of which child it believes to
be running.  As long as that belief covers every child that is occupied, and
the child reported as gone really is, the actions returned for its exit never
start an occupied child, and the belief covers what they leave occupied.

A `temporary` child is never started a second time, so it may stay where it is
when it is stopped.
-/

namespace Plasmoid

open Plan

/-- The command that an action is for the slot of a child. -/
def Action.command : Action → Command String
  | .start spec => .start spec.id
  | .stop id _ => .stop id
  | .giveUp => .quit

/-- Whether a command concerns one of the children we care about. -/
def concerns (care : String → Bool) : Command String → Bool
  | .start id | .stop id => care id
  | .quit => true

/-- The plan that a batch is for the children we care about. -/
def planOf (care : String → Bool) (actions : List Action) :
    List (Command String) :=
  (actions.map Action.command).filter (concerns care)

@[simp] theorem planOf_nil (care : String → Bool) : planOf care [] = [] := rfl

@[simp] theorem planOf_append (care : String → Bool) (l₁ l₂ : List Action) :
    planOf care (l₁ ++ l₂) = planOf care l₁ ++ planOf care l₂ := by
  simp [planOf]

@[simp] theorem planOf_giveUp (care : String → Bool) :
    planOf care [.giveUp] = [.quit] := rfl

theorem planOf_cons (care : String → Bool) (a : Action) (l : List Action) :
    planOf care (a :: l) =
      if concerns care a.command = true then a.command :: planOf care l
      else planOf care l :=
  List.filter_cons

theorem start_mem_planOf {care : String → Bool} {actions : List Action}
    {id : String} :
    Command.start id ∈ planOf care actions ↔
      care id = true ∧ ∃ spec, .start spec ∈ actions ∧ spec.id = id := by
  simp only [planOf, List.mem_filter, List.mem_map]
  constructor
  · rintro ⟨⟨a, ha, hcommand⟩, hcare⟩
    refine ⟨hcare, ?_⟩
    cases a with
    | start spec =>
      cases hcommand
      exact ⟨spec, ha, rfl⟩
    | stop id shutdown => cases hcommand
    | giveUp => cases hcommand
  · rintro ⟨hcare, spec, hspec, rfl⟩
    exact ⟨⟨_, hspec, rfl⟩, hcare⟩

namespace Supervisor

variable {children : List ChildSpec}

theorem planOf_stops (care : String → Bool)
    (is : List (Fin children.length)) :
    planOf care
        (is.map fun i => .stop (children.get i).id (children.get i).shutdown) =
      ((is.map fun i => (children.get i).id).filter care).map .stop := by
  rw [planOf, List.map_map, List.filter_map, List.filter_map, List.map_map]
  rfl

theorem planOf_starts (care : String → Bool)
    (is : List (Fin children.length)) :
    planOf care (is.map fun i => .start (children.get i)) =
      ((is.map fun i => (children.get i).id).filter care).map .start := by
  rw [planOf, List.map_map, List.filter_map, List.filter_map, List.map_map]
  rfl

theorem mem_planned {care : String → Bool} {is : List (Fin children.length)}
    {id : String} :
    id ∈ (is.map fun i => (children.get i).id).filter care ↔
      care id = true ∧ ∃ i ∈ is, (children.get i).id = id := by
  rw [List.mem_filter, List.mem_map, and_comm]

/-- The children believed to be running. -/
def runningIds (sup : Supervisor) : Set String :=
  {id | ∃ i, (sup.children.get i).id = id ∧ sup.running i = true}

/-- The children that are never restarted. -/
def temporaryIds (children : List ChildSpec) : Set String :=
  {id | ∃ i : Fin children.length, (children.get i).id = id ∧
    (children.get i).restart = .temporary}

theorem eq_of_id_eq (hids : (children.map (·.id)).Nodup)
    {i j : Fin children.length}
    (h : (children.get i).id = (children.get j).id) :
    i = j := by
  have hi : (i : ℕ) < (children.map (·.id)).length := by simp
  have hj : (j : ℕ) < (children.map (·.id)).length := by simp
  have hget : (children.map (·.id))[(i : ℕ)] =
      (children.map (·.id))[(j : ℕ)] := by
    simpa using h
  exact Fin.ext (hids.getElem_inj_iff.1 hget)

/-! ## One exit -/

/-- The beliefs after the loops of a restart. -/
def disturbed (sup : Supervisor) (idx : Fin sup.children.length) :
    Fin sup.children.length → Bool := fun j =>
  let affected := affected sup.flags.strategy sup.children idx
  if j ∈ affected ∧ (sup.children.get j).restart ≠ .temporary then true
  else if j ∈ affected ∧ j ≠ idx then false
  else Function.update sup.running idx false j

/-- The children that run after a restart on account of the one at `idx`. -/
def runsAfter (sup : Supervisor) (idx j : Fin sup.children.length) : Bool :=
  if j ∈ affected sup.flags.strategy sup.children idx then
    (sup.children.get j).restart ≠ .temporary
  else sup.running j

/-- The siblings that a restart stops, in the order of the stops. -/
def stoppedSiblings (sup : Supervisor) (idx : Fin sup.children.length) :
    List (Fin sup.children.length) :=
  (affected sup.flags.strategy sup.children idx).reverse.filter fun i =>
    i ≠ idx ∧ sup.running i = true

/-- The children that a restart starts. -/
def restartedChildren (sup : Supervisor) (idx : Fin sup.children.length) :
    List (Fin sup.children.length) :=
  (affected sup.flags.strategy sup.children idx).filter fun i =>
    (sup.children.get i).restart ≠ .temporary

/-- The actions of a restart: the stops, then the starts. -/
def restartActions (sup : Supervisor) (idx : Fin sup.children.length) :
    List Action :=
  (sup.stoppedSiblings idx).map
      (fun i => .stop (sup.children.get i).id (sup.children.get i).shutdown) ++
    (sup.restartedChildren idx).map fun i => .start (sup.children.get i)

theorem giveUp_not_mem_restartActions (sup : Supervisor)
    (idx : Fin sup.children.length) : .giveUp ∉ sup.restartActions idx := by
  simp [restartActions]

theorem restartLoops_eq (sup : Supervisor) (idx : Fin sup.children.length) :
    (sup.restartLoops idx).1 = sup.disturbed idx ∧
      (sup.restartLoops idx).2.1 = sup.restartActions idx := by
  have hnodup := List.nodup_reverse.2
    (nodup_affected sup.flags.strategy sup.children idx)
  unfold restartLoops
  dsimp only
  rw [foldl_stopTurn sup.children (some idx) _ hnodup, List.nil_append]
  obtain ⟨hrunning, hactions⟩ := foldl_restartTurn sup.children
    (affected sup.flags.strategy sup.children idx) _ _ 0
  rw [hrunning, hactions]
  constructor
  · funext j
    simp [disturbed]
  · have hstopped : ((affected sup.flags.strategy sup.children idx
        ).reverse.filter fun i => some i ≠ some idx ∧
          Function.update sup.running idx false i = true) =
        sup.stoppedSiblings idx := by
      apply List.filter_congr
      intro i _
      by_cases hi : i = idx
      · simp [hi]
      · simp [hi]
    rw [hstopped]
    rfl

/-- Everything that `onChildExit` can do. -/
theorem onChildExit_cases (sup : Supervisor) (id : String)
    (reason : ExitReason) (nowMs : UInt64) :
    (indexOf sup.children id = none ∧
      sup.onChildExit id reason nowMs = (sup, [])) ∨
    ∃ idx, indexOf sup.children id = some idx ∧
      ((sup.onChildExit id reason nowMs =
          ({ sup with running := Function.update sup.running idx false }, [])) ∨
        ∃ restarts,
          let sup' : Supervisor :=
            { sup with running := sup.disturbed idx, restarts }
          sup.onChildExit id reason nowMs = (sup', sup.restartActions idx) ∨
            sup.onChildExit id reason nowMs = sup'.giveUp) := by
  unfold onChildExit
  cases hidx : indexOf sup.children id with
  | none => exact .inl ⟨rfl, rfl⟩
  | some idx =>
    refine .inr ⟨idx, rfl, ?_⟩
    dsimp only
    split
    · exact .inl rfl
    · right
      obtain ⟨hrunning, hactions⟩ := sup.restartLoops_eq idx
      rw [hrunning, hactions]
      split
      · exact ⟨_, .inr rfl⟩
      · exact ⟨_, .inl rfl⟩

theorem mem_restartedChildren {sup : Supervisor}
    {idx i : Fin sup.children.length} :
    i ∈ sup.restartedChildren idx ↔
      i ∈ affected sup.flags.strategy sup.children idx ∧
        (sup.children.get i).restart ≠ .temporary := by
  simp [restartedChildren]

theorem mem_stoppedSiblings {sup : Supervisor}
    {idx i : Fin sup.children.length} :
    i ∈ sup.stoppedSiblings idx ↔
      i ∈ affected sup.flags.strategy sup.children idx ∧ i ≠ idx ∧
        sup.running i = true := by
  simp [stoppedSiblings]

/-- What was running and is not stopped is running still. -/
theorem disturbed_of_running {sup : Supervisor}
    {idx i : Fin sup.children.length} (hne : i ≠ idx)
    (hrunning : sup.running i = true) (hi : i ∉ sup.stoppedSiblings idx) :
    sup.disturbed idx i = true := by
  have haffected : i ∉ affected sup.flags.strategy sup.children idx :=
    fun h => hi (mem_stoppedSiblings.2 ⟨h, hne, hrunning⟩)
  simp [disturbed, haffected, Function.update_of_ne hne, hrunning]

/-- What was running is running still, or it is `temporary`. -/
theorem disturbed_or_temporary {sup : Supervisor}
    {idx i : Fin sup.children.length} (hne : i ≠ idx)
    (hrunning : sup.running i = true) :
    sup.disturbed idx i = true ∨ (sup.children.get i).restart = .temporary := by
  by_cases htemp : (sup.children.get i).restart = .temporary
  · exact .inr htemp
  · left
    by_cases haffected : i ∈ affected sup.flags.strategy sup.children idx
    · unfold disturbed
      exact if_pos ⟨haffected, htemp⟩
    · refine disturbed_of_running hne hrunning fun h => ?_
      exact haffected (mem_stoppedSiblings.1 h).1

theorem disturbed_of_restarted {sup : Supervisor}
    {idx i : Fin sup.children.length} (hi : i ∈ sup.restartedChildren idx) :
    sup.disturbed idx i = true := by
  unfold disturbed
  exact if_pos (mem_restartedChildren.1 hi)

variable {sup : Supervisor} {care : String → Bool} {up : Set String}
  {idx : Fin sup.children.length}

/-- A restart starts nothing that is occupied. -/
theorem restartActions_sound (hids : (sup.children.map (·.id)).Nodup)
    (hup : up ⊆ sup.runningIds ∪ temporaryIds sup.children)
    (hidx : (sup.children.get idx).id ∉ up) (hcare : ∀ id ∈ up, care id = true) :
    Sound (temporaryIds sup.children) up
      (planOf care (sup.restartActions idx)) := by
  rw [restartActions, planOf_append, planOf_stops, planOf_starts]
  apply sound_stops
  apply sound_starts
  · refine List.Nodup.filter _ (List.Nodup.map_on ?_ ?_)
    · intro i _ j _ h
      exact eq_of_id_eq hids h
    · exact (nodup_affected _ _ _).filter _
  · intro id hid hmem
    obtain ⟨hmem, hstopped⟩ := hmem
    obtain ⟨-, i, hi, rfl⟩ := mem_planned.1 hid
    obtain ⟨haffected, hkept⟩ := mem_restartedChildren.1 hi
    have htemp : (sup.children.get i).id ∉ temporaryIds sup.children := by
      rintro ⟨j, hj, hjtemp⟩
      obtain rfl := eq_of_id_eq hids hj
      exact hkept hjtemp
    obtain ⟨j, hj, hrunning⟩ := (hup hmem).resolve_right htemp
    obtain rfl := eq_of_id_eq hids hj
    -- It was running, so it is among the stopped ones.
    refine htemp (hstopped (mem_planned.2 ⟨hcare _ hmem, j, ?_, rfl⟩))
    refine mem_stoppedSiblings.2 ⟨haffected, ?_, hrunning⟩
    rintro rfl
    exact hidx hmem

/-- What a restart leaves occupied the policy believes to be running, or it is
`temporary`. -/
theorem after_restartActions
    (hup : up ⊆ sup.runningIds ∪ temporaryIds sup.children)
    (hidx : (sup.children.get idx).id ∉ up) (hcare : ∀ id ∈ up, care id = true)
    {id : String}
    (hid : id ∈ after (temporaryIds sup.children) up
      (planOf care (sup.restartActions idx))) :
    (∃ i, (sup.children.get i).id = id ∧ sup.disturbed idx i = true) ∨
      id ∈ temporaryIds sup.children := by
  rw [restartActions, planOf_append, planOf_stops, planOf_starts, after_stops,
    after_starts] at hid
  rcases hid with ⟨hmem, hstopped⟩ | hstarted
  · by_cases htemp : id ∈ temporaryIds sup.children
    · exact .inr htemp
    · left
      obtain ⟨i, rfl, hrunning⟩ := (hup hmem).resolve_right htemp
      refine ⟨i, rfl, disturbed_of_running ?_ hrunning ?_⟩
      · rintro rfl
        exact hidx hmem
      · intro hi
        exact htemp (hstopped (mem_planned.2 ⟨hcare _ hmem, i, hi, rfl⟩))
  · obtain ⟨-, i, hi, rfl⟩ := mem_planned.1 hstarted
    exact .inl ⟨i, rfl, disturbed_of_restarted hi⟩

/-- The actions of a shutdown. -/
theorem shutdown_eq (sup : Supervisor) :
    sup.shutdown = ({ sup with running := fun _ => false },
      ((positions sup.children).reverse.filter fun i =>
        sup.running i = true).map
        fun i => .stop (sup.children.get i).id (sup.children.get i).shutdown) := by
  unfold shutdown
  rw [foldl_stopTurn _ _ _ (List.nodup_reverse.2 (nodup_positions _))]
  simp [mem_positions]

/-- Giving up stops all that is believed to be running. -/
theorem giveUp_sound (hup : up ⊆ sup.runningIds ∪ temporaryIds sup.children)
    (hcare : ∀ id ∈ up, care id = true) :
    Sound (temporaryIds sup.children) up (planOf care sup.giveUp.2) := by
  rw [giveUp, shutdown_eq, planOf_append, planOf_stops]
  apply sound_stops
  rintro id ⟨hmem, hstopped⟩
  rcases hup hmem with ⟨i, rfl, hrunning⟩ | htemp
  · refine hstopped (mem_planned.2 ⟨hcare _ hmem, i, ?_, rfl⟩)
    simp [mem_positions, hrunning]
  · exact htemp

theorem after_giveUp (sup : Supervisor) (care : String → Bool)
    (spared up : Set String) : after spared up (planOf care sup.giveUp.2) = ∅ := by
  rw [giveUp, shutdown_eq, planOf_append, planOf_stops, after_stops]
  rfl

@[simp] theorem children_onChildExit (sup : Supervisor) (id : String)
    (reason : ExitReason) (nowMs : UInt64) :
    (sup.onChildExit id reason nowMs).1.children = sup.children := by
  obtain ⟨-, h⟩ | ⟨idx, -, h | ⟨restarts, h | h⟩⟩ :=
    sup.onChildExit_cases id reason nowMs
  · rw [h]
  · rw [h]
  · rw [h]
  · rw [h]
    rfl

/-- The actions for an exit never start an occupied child, and what they
leave occupied is believed to be running, or it is `temporary`. -/
theorem onChildExit_sound (hids : (sup.children.map (·.id)).Nodup)
    (hup : up ⊆ sup.runningIds ∪ temporaryIds sup.children)
    (hcare : ∀ id ∈ up, care id = true) {id : String} (hid : id ∉ up)
    (reason : ExitReason) (nowMs : UInt64) :
    Sound (temporaryIds sup.children) up
        (planOf care (sup.onChildExit id reason nowMs).2) ∧
      after (temporaryIds sup.children) up
          (planOf care (sup.onChildExit id reason nowMs).2) ⊆
        (sup.onChildExit id reason nowMs).1.runningIds ∪
          temporaryIds sup.children := by
  obtain ⟨-, h⟩ | ⟨idx, hidx, hcases⟩ := sup.onChildExit_cases id reason nowMs
  · rw [h]
    exact ⟨trivial, hup⟩
  · have hgone : (sup.children.get idx).id ∉ up := by
      rw [indexOf_some hidx]
      exact hid
    have hne : ∀ {i : Fin sup.children.length}, (sup.children.get i).id ∈ up →
        i ≠ idx := by
      rintro i hi rfl
      exact hgone hi
    obtain h | ⟨restarts, h | h⟩ := hcases
    · rw [h]
      refine ⟨trivial, ?_⟩
      intro k hk
      rcases hup hk with ⟨i, rfl, hrunning⟩ | htemp
      · refine .inl ⟨i, rfl, ?_⟩
        show Function.update sup.running idx false i = true
        rw [Function.update_of_ne (hne hk), hrunning]
      · exact .inr htemp
    · rw [h]
      exact ⟨restartActions_sound hids hup hgone hcare,
        fun k hk => after_restartActions hup hgone hcare hk⟩
    · rw [h]
      let sup' : Supervisor :=
        { sup with running := sup.disturbed idx, restarts }
      have hup' : up ⊆ sup'.runningIds ∪ temporaryIds sup'.children := by
        intro k hk
        rcases hup hk with ⟨i, rfl, hrunning⟩ | htemp
        · rcases disturbed_or_temporary (hne hk) hrunning with hi | htemp
          · exact .inl ⟨i, rfl, hi⟩
          · exact .inr ⟨i, rfl, htemp⟩
        · exact .inr htemp
      refine ⟨giveUp_sound hup' hcare, ?_⟩
      rw [after_giveUp]
      exact Set.empty_subset _

end Supervisor

end Plasmoid
