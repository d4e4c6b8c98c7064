import Plasmoid.PatienceDeadlines
import Plasmoid.SupervisorPlans

/-!
# The instances of a child

The loop performs a batch without waiting for the children it stops.  What it
has still to perform is a plan over the ids of its children, and the plan is
sound as long as every stop ends its instance and the policy hears of an exit
only when the instance is gone.  Then no child is started while an instance of
it is alive, and when the supervisor gives up, what it leaves alive are
children that are never restarted.

`care` selects the children that a result is about.  A child that is not
selected is free to ignore every stop, and so is a `temporary` one, which is
never started again.
-/

namespace Plasmoid

open Machine ParticleRegistry Plan

/-- Nothing but stops stands before a `giveUp`. -/
def quits : List Action → Bool
  | .giveUp :: _ => true
  | .stop _ _ :: l => quits l
  | _ => false

/-- The loop is not performing actions. -/
def LoopPhase.parked : LoopPhase → Bool
  | .waiting _ | .reaping _ => true
  | _ => false

namespace SupervisorLoop

variable {σ : Type} {P : Policy σ} {me : Pid} {s t : SupervisorLoop σ}

/-- The actions that are still to be performed. -/
def waiting (s : SupervisorLoop σ) : List Action := s.batch ++ s.queue

/-- The children with a living instance. -/
def occupied (care : String → Bool) (s : SupervisorLoop σ) : Set String :=
  {id | care id = true ∧ ∃ c ∈ s.started, c.id = id ∧ s.reg.Alive c.pid}

/-- Stopping the instance ends it: it is gone already, or its key is its own
and it is killed or does not trap the request. -/
def Ends (s : SupervisorLoop σ) (c : Child) (shutdown : Shutdown) : Prop :=
  ¬ s.reg.Alive c.pid ∨
    s.reg.Unshadowed c.pid ∧
      (shutdown = .brutalKill ∨ s.reg.traps c.pid = false)

instance (s : SupervisorLoop σ) (c : Child) (shutdown : Shutdown) :
    Decidable (s.Ends c shutdown) :=
  inferInstanceAs (Decidable (_ ∨ _))

/-- Whatever the setting is, the signal finds nobody or ends the instance. -/
theorem Ends.not_alive {c : Child} {shutdown : Shutdown}
    (h : s.Ends c shutdown) (hl : s.reg.AllLocal) {reason : ExitReason}
    (hreason : reason = .kill ∨ shutdown ≠ .brutalKill ∧ reason ≠ .normal) :
    ¬ (s.reg.signal me c.key reason).Alive c.pid := by
  rcases h with hgone | ⟨hkey, hhow⟩
  · exact fun halive => hgone ((noBirth_signal s.reg me _ _).alive _ halive)
  · apply not_alive_signal hl hkey
    rcases hreason with hkill | ⟨hnot, hnormal⟩
    · exact .inl hkill
    · exact .inr ⟨hnormal, hhow.resolve_left hnot⟩

/-- No pid is drawn a second time for an instance. -/
def freshPid (s : SupervisorLoop σ) (a : LoopAction) : Bool :=
  s.drawsPid a = true → s.reg.pidGen.peek ∉ s.started.map (·.pid)

/-- The children do as they are told.  A stop of an `obliged` child ends its
instance, and so does a kill of any, though not under `lenient` when the
supervisor is about to give up.  An exit signal comes from an instance that is
gone, and an overdue kill reaches its instance.  No child fails to start while
another start of it is waiting. -/
def orderly (care obliged : String → Bool) (lenient : Bool)
    (s : SupervisorLoop σ) : LoopAction → Bool
  | .act ctx =>
    match s.batch with
    | .start spec :: rest =>
      care spec.id = true → ¬ s.reg.Spawnable ctx (spawnArgs spec) →
        ∀ a ∈ rest ++ s.queue, a.command ≠ .start spec.id
    | .stop id shutdown :: rest =>
      (lenient && quits (rest ++ s.queue)) ||
        decide (obliged id = true ∨ care id = true ∧ shutdown = .brutalKill →
          (s.find id).all fun c => s.Ends c shutdown)
    | _ => true
  | .receive (.exit sender _) =>
    (s.live.find? fun c => c.key = sender.display).all fun c =>
      care c.id = true → ¬ s.reg.Alive c.pid
  | .reap =>
    match s.phase with
    | .reaping (d :: _) => (s.find d.id).all fun c =>
      care c.id = true → s.reg.Unshadowed c.pid
    | _ => true
  | _ => true

/-- An instance that is alive after a step was alive before. -/
theorem survivors_step {a : LoopAction} (hfresh : s.freshPid a = true)
    (h : s.step P me a = some t) {c : Child} (hc : c ∈ s.started)
    (halive : t.reg.Alive c.pid) : s.reg.Alive c.pid := by
  obtain ⟨hlives, hnoBirth⟩ := lives_step h
  cases hdraws : s.drawsPid a with
  | false => exact (hnoBirth hdraws).alive _ halive
  | true =>
    refine (hlives.alive _ halive).resolve_left fun hpid => ?_
    have hnew : s.reg.pidGen.peek ∉ s.started.map (·.pid) :=
      of_decide_eq_true hfresh hdraws
    exact hnew (hpid ▸ List.mem_map_of_mem hc)

theorem occupied_subset {care : String → Bool}
    (hstarted : t.started = s.started)
    (hsurvive : ∀ c ∈ s.started, t.reg.Alive c.pid → s.reg.Alive c.pid) :
    t.occupied care ⊆ s.occupied care := by
  rintro id ⟨hcare, c, hc, hid, halive⟩
  rw [hstarted] at hc
  exact ⟨hcare, c, hc, hid, hsurvive c hc halive⟩

/-! ## The invariant -/

/-- The loop knows every living instance, what it has still to perform is
sound, and the policy believes to be running what that leaves alive. -/
structure Tidy (children : List ChildSpec) (care : String → Bool)
    (s : SupervisorLoop Supervisor) : Prop where
  allLocal : s.reg.AllLocal
  policy : s.sup.children = children
  liveNodup : (s.live.map (·.id)).Nodup
  liveStarted : ∀ c ∈ s.live, c ∈ s.started
  covered : ∀ c ∈ s.started, care c.id = true → s.reg.Alive c.pid → c ∈ s.live
  sound : Sound (Supervisor.temporaryIds children) (s.occupied care)
    (planOf care s.waiting)
  believed : after (Supervisor.temporaryIds children) (s.occupied care)
      (planOf care s.waiting) ⊆
    s.sup.runningIds ∪ Supervisor.temporaryIds children
  idle : s.phase.parked = true → s.waiting = []

variable {children : List ChildSpec} {care : String → Bool} {lenient : Bool}

theorem tidy_start (node : EndpointId) (flags : SupFlags)
    (hids : (children.map (·.id)).Nodup) :
    Tidy children care (runSupervisor node flags children) := by
  have hoccupied : (runSupervisor node flags children).occupied care = ∅ := by
    ext id
    simp [occupied, runSupervisor, start]
  have hwaiting : planOf care (runSupervisor node flags children).waiting =
      (((Supervisor.positions children).map fun i => (children.get i).id).filter
        care).map .start :=
    Supervisor.planOf_starts care _
  refine ⟨fun x h => absurd h (AList.notMem_empty x), rfl, List.nodup_nil,
    fun _ hc => absurd hc List.not_mem_nil,
    fun _ hc => absurd hc List.not_mem_nil, ?_, ?_,
    fun hparked => by cases hparked⟩
  · rw [hoccupied, hwaiting]
    refine sound_starts (List.Nodup.filter _ (List.Nodup.map_on ?_
      (Supervisor.nodup_positions children))) fun _ _ => Set.notMem_empty _
    intro i _ j _ h
    exact Supervisor.eq_of_id_eq hids h
  · rw [hoccupied, hwaiting, after_starts]
    rintro id (hid | hid)
    · exact absurd hid (Set.notMem_empty id)
    · obtain ⟨-, i, -, rfl⟩ := Supervisor.mem_planned.1 hid
      exact .inl ⟨i, rfl, rfl⟩

section Step

variable {s t : SupervisorLoop Supervisor}

/-- A step that starts nobody and leaves the plan alone. -/
theorem Tidy.keep (h : Tidy children care s) (hreg : Lives s.reg t.reg)
    (hsurvive : ∀ c ∈ s.started, t.reg.Alive c.pid → s.reg.Alive c.pid)
    (hsup : t.sup = s.sup) (hstarted : t.started = s.started)
    (hlive : t.live.Sublist s.live)
    (hkept : ∀ c ∈ s.live, care c.id = true → t.reg.Alive c.pid → c ∈ t.live)
    (hwaiting : t.waiting = s.waiting)
    (hidle : t.phase.parked = true → t.waiting = []) :
    Tidy children care t where
  allLocal := hreg.allLocal h.allLocal
  policy := by rw [hsup, h.policy]
  liveNodup := h.liveNodup.sublist (hlive.map _)
  liveStarted c hc := by
    rw [hstarted]
    exact h.liveStarted c (hlive.subset hc)
  covered c hc hcare halive := by
    rw [hstarted] at hc
    exact hkept c (h.covered c hc hcare (hsurvive c hc halive)) hcare halive
  sound := by
    rw [hwaiting]
    exact h.sound.anti (occupied_subset hstarted hsurvive)
  believed := by
    rw [hwaiting, hsup]
    exact (after_mono (occupied_subset hstarted hsurvive) _).trans h.believed
  idle := hidle

/-- There is one living instance of a child, and the loop knows it. -/
theorem Tidy.eq_of_find (h : Tidy children care s) {id : String}
    {child c : Child} (hfind : s.find id = some child) (hc : c ∈ s.live)
    (hid : c.id = id) : c = child := by
  obtain ⟨hmem, hchild⟩ := find_some hfind
  exact List.inj_on_of_nodup_map h.liveNodup hc hmem (hid.trans hchild.symm)

theorem Tidy.not_occupied (h : Tidy children care s) {child : Child}
    (hmem : child ∈ s.live)
    (hdead : care child.id = true → ¬ s.reg.Alive child.pid) :
    child.id ∉ s.occupied care := by
  rintro ⟨hcare, c, hc, hid, halive⟩
  have heq : c = child :=
    List.inj_on_of_nodup_map h.liveNodup
      (h.covered c hc (hid ▸ hcare) halive) hmem hid
  exact hdead hcare (heq ▸ halive)

/-- The plan when the next action is performed. -/
theorem planOf_waiting {action : Action} {rest : List Action}
    (hbatch : s.batch = action :: rest) :
    planOf care s.waiting =
      if concerns care action.command = true then
        action.command :: planOf care (rest ++ s.queue)
      else planOf care (rest ++ s.queue) := by
  rw [waiting, hbatch, List.cons_append, planOf_cons]

/-- The children with a living instance once a child is started. -/
def occupiedWith (care : String → Bool) (s : SupervisorLoop σ) (id : String) :
    Set String :=
  {k | k ∈ s.occupied care ∨ care k = true ∧ k = id}

/-- What the plan says about a start that is performed next. -/
theorem Tidy.start_sound (h : Tidy children care s) {spec : ChildSpec}
    {rest : List Action} (hbatch : s.batch = .start spec :: rest) :
    spec.id ∉ s.occupied care ∧
      Sound (Supervisor.temporaryIds children) (s.occupiedWith care spec.id)
        (planOf care (rest ++ s.queue)) ∧
      after (Supervisor.temporaryIds children) (s.occupiedWith care spec.id)
          (planOf care (rest ++ s.queue)) ⊆
        s.sup.runningIds ∪ Supervisor.temporaryIds children := by
  have hsound := h.sound
  have hafter := h.believed
  rw [planOf_waiting hbatch] at hsound hafter
  by_cases hcare : care spec.id = true
  · have hconcerns : concerns care (Action.start spec).command = true := hcare
    rw [if_pos hconcerns] at hsound hafter
    have hinsert : s.occupiedWith care spec.id ⊆
        insert spec.id (s.occupied care) := by
      rintro id (hid | ⟨-, rfl⟩)
      · exact .inr hid
      · exact .inl rfl
    exact ⟨hsound.1, hsound.2.anti hinsert, (after_mono hinsert _).trans hafter⟩
  · have hconcerns : ¬ concerns care (Action.start spec).command = true := hcare
    rw [if_neg hconcerns] at hsound hafter
    have hsub : s.occupiedWith care spec.id ⊆ s.occupied care := by
      rintro id (hid | ⟨hid, rfl⟩)
      · exact hid
      · exact absurd hid hcare
    exact ⟨fun hid => hcare hid.1, hsound.anti hsub,
      (after_mono hsub _).trans hafter⟩

/-- The child is started. -/
theorem Tidy.started (h : Tidy children care s) {spec : ChildSpec}
    {rest : List Action} (hphase : s.phase = .acting)
    (hbatch : s.batch = .start spec :: rest) {reg : ParticleRegistry}
    (hlives : Lives s.reg reg)
    (hsurvive : ∀ c ∈ s.started, reg.Alive c.pid → s.reg.Alive c.pid) {pid : Pid} :
    Tidy children care { s with
      batch := rest, reg := reg
      live := s.dropLive spec.id ++ [⟨spec.id, pid, s.started.length⟩]
      started := s.started ++ [⟨spec.id, pid, s.started.length⟩] } := by
  obtain ⟨hunoccupied, hsound, hafter⟩ := h.start_sound hbatch
  have hold : ∀ {c : Child}, c ∈ s.started ++
      [⟨spec.id, pid, s.started.length⟩] → reg.Alive c.pid →
        (c ∈ s.started ∧ s.reg.Alive c.pid) ∨
          c = ⟨spec.id, pid, s.started.length⟩ := by
    intro c hc halive
    rcases List.mem_append.1 hc with hc | hc
    · exact .inl ⟨hc, hsurvive c hc halive⟩
    · exact .inr (List.mem_singleton.1 hc)
  have hsub : ({ s with
        batch := rest, reg := reg
        live := s.dropLive spec.id ++ [⟨spec.id, pid, s.started.length⟩]
        started := s.started ++ [⟨spec.id, pid, s.started.length⟩] } :
        SupervisorLoop Supervisor).occupied care ⊆
      s.occupiedWith care spec.id := by
    rintro id ⟨hcare, c, hc, hid, halive⟩
    rcases hold hc halive with ⟨hc, halive⟩ | rfl
    · exact .inl ⟨hcare, c, hc, hid, halive⟩
    · exact .inr ⟨hcare, hid.symm⟩
  refine ⟨hlives.allLocal h.allLocal, h.policy,
    nodup_replace h.liveNodup ⟨spec.id, pid, s.started.length⟩, ?_, ?_,
    hsound.anti hsub, (after_mono hsub _).trans hafter, ?_⟩
  · intro c hc
    rcases List.mem_append.1 hc with hc | hc
    · exact List.mem_append_left _ (h.liveStarted c (mem_dropLive.1 hc).1)
    · exact List.mem_append_right _ hc
  · intro c hc hcare halive
    rcases hold hc halive with ⟨hc, halive⟩ | rfl
    · refine List.mem_append_left _ (mem_dropLive.2
        ⟨h.covered c hc hcare halive, fun hid => ?_⟩)
      exact hunoccupied ⟨hid ▸ hcare, c, hc, hid, halive⟩
    · exact List.mem_append_right _ (List.mem_singleton_self _)
  · intro hparked
    rw [hphase] at hparked
    cases hparked

/-- The child does not start, and the policy hears of it. -/
theorem Tidy.startFailed (h : Tidy children care s)
    (hids : (children.map (·.id)).Nodup) {spec : ChildSpec} {rest : List Action}
    (hphase : s.phase = .acting) (hbatch : s.batch = .start spec :: rest)
    {reg : ParticleRegistry} (hlives : Lives s.reg reg)
    (hsurvive : ∀ c ∈ s.started, reg.Alive c.pid → s.reg.Alive c.pid)
    (hfail : care spec.id = true →
      ∀ a ∈ rest ++ s.queue, a.command ≠ .start spec.id) :
    Tidy children care { s with
      batch := rest, reg := reg
      sup := (supervisorPolicy.startFailed s.sup spec s.nowMs).1
      queue := s.queue ++
        (supervisorPolicy.startFailed s.sup spec s.nowMs).2 } := by
  obtain ⟨hunoccupied, hsound, hafter⟩ := h.start_sound hbatch
  have hgone : spec.id ∉ after (Supervisor.temporaryIds children)
      (s.occupied care) (planOf care (rest ++ s.queue)) := by
    apply not_mem_after hunoccupied
    intro hmem
    obtain ⟨hcare, spec', hspec', hid⟩ := start_mem_planOf.1 hmem
    exact hfail hcare _ hspec' (congrArg Command.start hid)
  have hsub : s.occupied care ⊆ s.occupiedWith care spec.id :=
    fun _ hid => .inl hid
  have hrunning := (after_mono hsub _).trans hafter
  have hafterCare : ∀ id ∈ after (Supervisor.temporaryIds children)
      (s.occupied care) (planOf care (rest ++ s.queue)), care id = true := by
    intro id hid
    by_contra hcare
    refine not_mem_after (fun hmem => hcare hmem.1) (fun hmem => ?_) hid
    exact hcare (start_mem_planOf.1 hmem).1
  have hids' : (s.sup.children.map (·.id)).Nodup := by
    rw [h.policy]
    exact hids
  have hpolicy := h.policy
  rw [← hpolicy] at hrunning hafterCare hgone
  obtain ⟨hnext, hnextAfter⟩ := Supervisor.onChildExit_sound hids' hrunning
    hafterCare hgone (.exception "start failed") s.nowMs
  rw [hpolicy] at hnext hnextAfter
  have hmono : ({ s with batch := rest, reg := reg } :
      SupervisorLoop Supervisor).occupied care ⊆ s.occupied care :=
    occupied_subset rfl hsurvive
  refine ⟨hlives.allLocal h.allLocal, ?_, h.liveNodup, h.liveStarted, ?_, ?_,
    ?_, ?_⟩
  · rw [← h.policy]
    exact Supervisor.children_onChildExit _ _ _ _
  · intro c hc hcare halive
    exact h.covered c hc hcare (hsurvive c hc halive)
  · rw [waiting, ← List.append_assoc, planOf_append]
    exact (hsound.anti hsub).append hnext |>.anti hmono
  · rw [waiting, ← List.append_assoc, planOf_append]
    exact (after_mono hmono _).trans
      ((after_append_subset _ _ _ _).trans hnextAfter)
  · intro hparked
    rw [hphase] at hparked
    cases hparked

/-- A start of a child that nobody occupies. -/
theorem Tidy.performStart (h : Tidy children care s)
    (hids : (children.map (·.id)).Nodup) {spec : ChildSpec} {rest : List Action}
    {ctx : SpawnContext} (hphase : s.phase = .acting)
    (hbatch : s.batch = .start spec :: rest)
    (hfresh : s.reg.pidGen.peek ∉ s.started.map (·.pid))
    (hfail : care spec.id = true → ¬ s.reg.Spawnable ctx (spawnArgs spec) →
      ∀ a ∈ rest ++ s.queue, a.command ≠ .start spec.id) :
    Tidy children care
      ({ s with batch := rest }.performStart supervisorPolicy me ctx spec) := by
  have hsurvive : ∀ {reg}, Lives s.reg reg → ∀ c ∈ s.started,
      reg.Alive c.pid → s.reg.Alive c.pid := by
    intro reg hreg c hc halive
    refine (hreg.alive _ halive).resolve_left fun hpid => ?_
    exact hfresh (hpid ▸ List.mem_map_of_mem hc)
  unfold SupervisorLoop.performStart
  obtain ⟨-, reg, heq, hlives⟩ | ⟨hspawn, reg, e, heq, hlives⟩ :=
    hostSpawnLink_cases s.reg me ctx (spawnArgs spec) rfl
  · rw [heq]
    exact h.started hphase hbatch hlives (hsurvive hlives)
  · rw [heq]
    exact h.startFailed hids hphase hbatch hlives (hsurvive hlives)
      fun hcare => hfail hcare hspawn

/-- A stop that leaves no instance of a child we care about. -/
theorem Tidy.clears (h : Tidy children care s) (hlives : Lives s.reg t.reg)
    (hsurvive : ∀ c ∈ s.started, t.reg.Alive c.pid → s.reg.Alive c.pid)
    {id : String} {shutdown : Shutdown} {rest : List Action}
    (hbatch : s.batch = .stop id shutdown :: rest)
    (hsup : t.sup = s.sup) (hstarted : t.started = s.started)
    (hlive : t.live.Sublist s.live)
    (hkept : ∀ c ∈ s.live, care c.id = true → t.reg.Alive c.pid → c ∈ t.live)
    (hwaiting : t.waiting = rest ++ s.queue)
    (hphase : t.phase = .acting)
    (hgone : ∀ c ∈ s.live, c.id = id → care id = true →
      id ∉ Supervisor.temporaryIds children → ¬ t.reg.Alive c.pid) :
    Tidy children care t := by
  have hsub : t.occupied care ⊆
      cleared (Supervisor.temporaryIds children) (s.occupied care) id := by
    rintro k ⟨hcare, c, hc, hid, halive⟩
    rw [hstarted] at hc
    refine ⟨⟨hcare, c, hc, hid, hsurvive c hc halive⟩, ?_⟩
    rintro rfl
    by_contra htemp
    have hmem := h.covered c hc (hid ▸ hcare) (hsurvive c hc halive)
    exact hgone c hmem hid hcare htemp halive
  have hplan : Sound (Supervisor.temporaryIds children) (t.occupied care)
        (planOf care (rest ++ s.queue)) ∧
      after (Supervisor.temporaryIds children) (t.occupied care)
          (planOf care (rest ++ s.queue)) ⊆
        s.sup.runningIds ∪ Supervisor.temporaryIds children := by
    have hsound := h.sound
    have hbelieved := h.believed
    rw [planOf_waiting hbatch] at hsound hbelieved
    by_cases hcare : care id = true
    · have hconcerns : concerns care (Action.stop id shutdown).command = true :=
        hcare
      rw [if_pos hconcerns] at hsound hbelieved
      have hsound' : Sound (Supervisor.temporaryIds children)
          (cleared (Supervisor.temporaryIds children) (s.occupied care) id)
          (planOf care (rest ++ s.queue)) := hsound
      exact ⟨hsound'.anti hsub, (after_mono hsub _).trans hbelieved⟩
    · have hconcerns : ¬ concerns care (Action.stop id shutdown).command = true :=
        hcare
      rw [if_neg hconcerns] at hsound hbelieved
      have hsub' : t.occupied care ⊆ s.occupied care := fun _ hk => (hsub hk).1
      exact ⟨hsound.anti hsub', (after_mono hsub' _).trans hbelieved⟩
  refine ⟨hlives.allLocal h.allLocal, by rw [hsup, h.policy],
    h.liveNodup.sublist (hlive.map _), ?_, ?_, ?_, ?_, ?_⟩
  · intro c hc
    rw [hstarted]
    exact h.liveStarted c (hlive.subset hc)
  · intro c hc hcare halive
    rw [hstarted] at hc
    exact hkept c (h.covered c hc hcare (hsurvive c hc halive)) hcare halive
  · rw [hwaiting]
    exact hplan.1
  · rw [hwaiting, hsup]
    exact hplan.2
  · intro hparked
    rw [hphase] at hparked
    cases hparked

/-- A stop that ends its instance. -/
theorem Tidy.performStop (h : Tidy children care s) {id : String}
    {shutdown : Shutdown} {rest : List Action}
    (hphase : s.phase = .acting)
    (hbatch : s.batch = .stop id shutdown :: rest)
    (hends : care id = true →
      id ∉ Supervisor.temporaryIds children ∨ shutdown = .brutalKill →
      ∀ c, s.find id = some c → s.Ends c shutdown) :
    Tidy children care
      ({ s with batch := rest }.performStop me id shutdown) := by
  have hnoBirth := noBirth_performStop me { s with batch := rest } id
    shutdown
  have hsurvive : ∀ c ∈ s.started,
      ({ s with batch := rest }.performStop me id shutdown).reg.Alive c.pid →
        s.reg.Alive c.pid := fun c _ halive => hnoBirth.alive _ halive
  have hfindEq : ({ s with batch := rest } : SupervisorLoop Supervisor).find id =
      s.find id := rfl
  unfold SupervisorLoop.performStop at hnoBirth hsurvive ⊢
  rw [hfindEq] at hnoBirth hsurvive ⊢
  cases hfind : s.find id with
  | none =>
    simp only [hfind] at hnoBirth hsurvive
    refine h.clears hnoBirth.lives hsurvive hbatch rfl rfl
      (List.Sublist.refl _) (fun c hc _ _ => hc) rfl hphase ?_
    intro c hc hid
    have hnone := List.find?_eq_none.1 hfind c hc
    simp [hid] at hnone
  | some child =>
    simp only [hfind] at hnoBirth hsurvive
    have hclear : ∀ reason,
        (reason = .kill ∨ shutdown ≠ .brutalKill ∧ reason ≠ .normal) →
        ∀ c ∈ s.live, c.id = id → care id = true →
          id ∉ Supervisor.temporaryIds children ∨ shutdown = .brutalKill →
          ¬ (s.reg.signal me child.key reason).Alive c.pid := by
      intro reason hreason c hc hid hcare hmust
      rw [h.eq_of_find hfind hc hid]
      exact (hends hcare hmust child hfind).not_alive h.allLocal hreason
    cases shutdown with
    | brutalKill =>
      refine h.clears hnoBirth.lives hsurvive hbatch rfl rfl
        List.filter_sublist ?_ rfl hphase ?_
      · intro c hc hcare halive
        refine mem_dropLive.2 ⟨hc, fun hid => ?_⟩
        exact hclear .kill (.inl rfl) c hc hid (hid ▸ hcare) (.inr rfl) halive
      · intro c hc hid hcare _
        exact hclear .kill (.inl rfl) c hc hid hcare (.inr rfl)
    | timeout ms =>
      refine h.clears hnoBirth.lives hsurvive hbatch rfl rfl
        (List.Sublist.refl _) (fun c hc _ _ => hc) rfl hphase ?_
      intro c hc hid hcare htemp
      exact hclear (.shutdown "shutdown") (.inr ⟨nofun, nofun⟩) c hc hid hcare
        (.inl htemp)
    | infinity =>
      refine h.clears hnoBirth.lives hsurvive hbatch rfl rfl
        (List.Sublist.refl _) (fun c hc _ _ => hc) rfl hphase ?_
      intro c hc hid hcare htemp
      exact hclear (.shutdown "shutdown") (.inr ⟨nofun, nofun⟩) c hc hid hcare
        (.inl htemp)

/-- The policy hears of an exit when the instance is gone. -/
theorem Tidy.handleExit (h : Tidy children care s)
    (hids : (children.map (·.id)).Nodup) (hwaiting : s.waiting = [])
    {reg : ParticleRegistry} (hnoBirth : NoBirth s.reg reg) {sender : Pid}
    {reason : ExitReason}
    (hgone : ∀ c, (s.live.find? fun c => c.key = sender.display) = some c →
      care c.id = true → ¬ s.reg.Alive c.pid) :
    Tidy children care ({ s with reg := reg, phase := .acting }.handleExit
      supervisorPolicy sender reason) := by
  have hsurvive : ∀ c ∈ s.started, reg.Alive c.pid → s.reg.Alive c.pid :=
    fun c _ halive => hnoBirth.alive _ halive
  unfold SupervisorLoop.handleExit
  cases hfind : (s.live.find? fun c => c.key = sender.display) with
  | none =>
    exact h.keep (t := { s with reg := reg, phase := .acting })
      hnoBirth.lives hsurvive rfl rfl (List.Sublist.refl _)
      (fun c hc _ _ => hc) rfl nofun
  | some child =>
    have hmem : child ∈ s.live := List.mem_of_find?_eq_some hfind
    have hunoccupied := h.not_occupied hmem (hgone child hfind)
    have hpolicy := h.policy
    have hbelieved : s.occupied care ⊆
        s.sup.runningIds ∪ Supervisor.temporaryIds s.sup.children := by
      have hafter := h.believed
      rw [hwaiting] at hafter
      rw [hpolicy]
      exact hafter
    have hids' : (s.sup.children.map (·.id)).Nodup := by
      rw [hpolicy]
      exact hids
    obtain ⟨hnext, hnextAfter⟩ := Supervisor.onChildExit_sound hids' hbelieved
      (fun _ hid => hid.1) hunoccupied reason s.nowMs
    rw [hpolicy] at hnext hnextAfter
    have hqueue : s.queue = [] := (List.append_eq_nil_iff.1 hwaiting).2
    have hbatch : s.batch = [] := (List.append_eq_nil_iff.1 hwaiting).1
    have hmono : ({ s with reg := reg } : SupervisorLoop Supervisor).occupied
        care ⊆ s.occupied care := occupied_subset rfl hsurvive
    refine ⟨hnoBirth.lives.allLocal h.allLocal, ?_,
      nodup_dropLive h.liveNodup _, ?_, ?_, ?_, ?_, nofun⟩
    · rw [← h.policy]
      exact Supervisor.children_onChildExit _ _ _ _
    · intro c hc
      exact h.liveStarted c (mem_dropLive.1 hc).1
    · intro c hc hcare halive
      refine mem_dropLive.2 ⟨h.covered c hc hcare (hsurvive c hc halive), ?_⟩
      intro hid
      exact hunoccupied ⟨hid ▸ hcare, c, hc, hid, hsurvive c hc halive⟩
    · rw [waiting, hqueue, hbatch]
      exact hnext.anti hmono
    · rw [waiting, hqueue, hbatch]
      exact (after_mono hmono _).trans hnextAfter

/-- A kill of the overdue branch ends its instance. -/
theorem Tidy.reapOne (h : Tidy children care s) {d : Deadline}
    {rest : List Deadline} (hphase : s.phase = .reaping (d :: rest))
    (hkey : ∀ c, s.find d.id = some c → care c.id = true →
      s.reg.Unshadowed c.pid) :
    Tidy children care ({ s with phase := .reaping rest }.reapOne me d) := by
  have hnoBirth := noBirth_reapOne me
    { s with phase := .reaping rest } d
  have hidle : s.waiting = [] := h.idle (by rw [hphase]; rfl)
  have hfindEq : ({ s with phase := .reaping rest } :
      SupervisorLoop Supervisor).find d.id = s.find d.id := rfl
  unfold SupervisorLoop.reapOne at hnoBirth ⊢
  rw [hfindEq] at hnoBirth ⊢
  cases hfind : s.find d.id with
  | none =>
    simp only [hfind] at hnoBirth
    exact h.keep hnoBirth.lives (fun c _ halive => hnoBirth.alive _ halive) rfl
      rfl (List.Sublist.refl _) (fun c hc _ _ => hc) rfl fun _ => hidle
  | some child =>
    simp only [hfind] at hnoBirth
    refine h.keep hnoBirth.lives (fun c _ halive => hnoBirth.alive _ halive) rfl
      rfl List.filter_sublist ?_ rfl fun _ => hidle
    intro c hc hcare halive
    refine mem_dropLive.2 ⟨hc, fun hid => ?_⟩
    obtain rfl := h.eq_of_find hfind hc hid
    exact not_alive_signal h.allLocal (hkey c hfind hcare) (.inl rfl) halive

/-- A step of children that do as they are told, up to the one that gives
up. -/
theorem Tidy.step {obliged : String → Bool} (h : Tidy children care s)
    (hids : (children.map (·.id)).Nodup)
    (hobliged : ∀ id, care id = true →
      id ∉ Supervisor.temporaryIds children → obliged id = true)
    {a : LoopAction} (hfresh : s.freshPid a = true)
    (hok : s.orderly care obliged false a = true)
    (hstep : s.step supervisorPolicy me a = some t) :
    Tidy children care t ∨
      t.phase = .left ∧ ∃ ctx rest, a = .act ctx ∧ s.batch = .giveUp :: rest := by
  have hsurvive : ∀ c ∈ s.started, t.reg.Alive c.pid → s.reg.Alive c.pid :=
    fun c hc halive => survivors_step hfresh hstep hc halive
  obtain ⟨hlives, hnoBirth⟩ := lives_step hstep
  obtain ⟨ctx, action, rest, rfl, hphase, hbatch, rfl⟩ |
    ⟨msg, wake, rfl, hphase, -, rfl⟩ | ⟨wake, rfl, hphase, rfl⟩ |
    ⟨d, rest, rfl, hphase, rfl⟩ | ⟨hquiet, -⟩ := step_cases hstep
  · cases action with
    | start spec =>
      left
      have hdraws : s.drawsPid (.act ctx) = true := by
        rw [drawsPid, hbatch]
      simp only [orderly, hbatch, decide_eq_true_eq] at hok
      exact h.performStart hids hphase hbatch (of_decide_eq_true hfresh hdraws)
        hok
    | stop id shutdown =>
      left
      simp only [orderly, hbatch, Bool.false_and, Bool.false_or,
        decide_eq_true_eq] at hok
      refine h.performStop hphase hbatch ?_
      intro hcare hmust c hc
      have hends := hok (hmust.imp (hobliged id hcare) fun hkill => ⟨hcare, hkill⟩)
      rw [hc] at hends
      exact of_decide_eq_true hends
    | giveUp => exact .inr ⟨rfl, ctx, rest, rfl, hbatch⟩
  · left
    have hidle : s.waiting = [] := h.idle (by rw [hphase]; rfl)
    cases msg with
    | exit sender reason =>
      refine h.handleExit hids hidle (sameLife_modifyState s.reg me _).noBirth ?_
      intro c hc hcare
      simp only [orderly, hc, Option.all_some, decide_eq_true_eq] at hok
      exact hok hcare
    | tagged refId payload =>
      refine h.keep hlives hsurvive rfl rfl (List.Sublist.refl _)
        (fun c hc _ _ => hc) ?_ fun hparked => by cases hparked
      show s.batch ++ (s.queue ++ []) = s.batch ++ s.queue
      rw [List.append_nil]
    | data payload | down source refId reason | spawnReply refId outcome =>
      exact h.keep hlives hsurvive rfl rfl (List.Sublist.refl _)
        (fun c hc _ _ => hc) rfl fun hparked => by cases hparked
  · left
    have hidle : s.waiting = [] := h.idle (by rw [hphase]; rfl)
    exact h.keep hlives hsurvive rfl rfl (List.Sublist.refl _)
      (fun c hc _ _ => hc) rfl fun _ => hidle
  · left
    refine h.reapOne hphase ?_
    intro c hc hcare
    simp only [orderly, hphase, hc, Option.all_some, decide_eq_true_eq] at hok
    exact hok hcare
  · left
    refine h.keep hlives hsurvive hquiet.sup hquiet.started
      (hquiet.live ▸ List.Sublist.refl _) (fun c hc _ _ => hquiet.live ▸ hc)
      hquiet.actions ?_
    intro hparked
    obtain hsame | ⟨-, hacting⟩ | ⟨-, hidle, -⟩ := hquiet.phase
    · rw [hsame] at hparked
      exact hquiet.actions.trans (h.idle hparked)
    · rw [hacting] at hparked
      cases hparked
    · exact hquiet.actions.trans hidle

end Step

/-! ## What was started and what was stopped -/

/-- A stop is a matter of `reg`, `live`, `pending` and `stopped`. -/
theorem performStop_frame (me : Pid) (s : SupervisorLoop σ) (id : String)
    (shutdown : Shutdown) :
    (s.performStop me id shutdown).started = s.started ∧
      (s.performStop me id shutdown).phase = s.phase ∧
      (s.performStop me id shutdown).batch = s.batch ∧
      (s.performStop me id shutdown).waiting = s.waiting := by
  unfold performStop
  split
  · exact ⟨rfl, rfl, rfl, rfl⟩
  · cases shutdown <;> exact ⟨rfl, rfl, rfl, rfl⟩

theorem stopped_performStop (s : SupervisorLoop σ) (id : String)
    (shutdown : Shutdown) :
    (s.performStop me id shutdown).stopped =
      s.stopped ++ (s.find id).toList := by
  unfold performStop
  split
  · rename_i hfind
    rw [hfind]
    exact (List.append_nil _).symm
  · rename_i child hfind
    rw [hfind]
    cases shutdown <;> rfl

/-- Only a successful start adds an instance. -/
theorem started_step {a : LoopAction} (h : s.step P me a = some t) :
    ∃ l, t.started = s.started ++ l := by
  obtain ⟨ctx, action, rest, rfl, hphase, hbatch, rfl⟩ |
    ⟨msg, wake, rfl, hphase, -, rfl⟩ | ⟨wake, rfl, hphase, rfl⟩ |
    ⟨d, rest, rfl, hphase, rfl⟩ | ⟨hquiet, -⟩ := step_cases h
  · cases action with
    | start spec =>
      show ∃ l, (SupervisorLoop.performStart P me ctx _ spec).started = _
      unfold performStart
      obtain ⟨-, reg, heq, -⟩ | ⟨-, reg, e, heq, -⟩ :=
        hostSpawnLink_cases s.reg me ctx (spawnArgs spec) rfl
      · rw [heq]
        exact ⟨_, rfl⟩
      · rw [heq]
        exact ⟨[], (List.append_nil _).symm⟩
    | stop id shutdown =>
      exact ⟨[], (performStop_frame me { s with batch := rest } id
        shutdown).1.trans (List.append_nil _).symm⟩
    | giveUp => exact ⟨[], (List.append_nil _).symm⟩
  · refine ⟨[], ?_⟩
    rw [List.append_nil]
    cases msg with
    | exit sender reason =>
      show (SupervisorLoop.handleExit P _ sender reason).started = _
      unfold handleExit
      split <;> rfl
    | tagged refId payload => rfl
    | data payload | down source refId reason | spawnReply refId outcome => rfl
  · exact ⟨[], (List.append_nil _).symm⟩
  · refine ⟨[], ?_⟩
    rw [List.append_nil]
    unfold reapOne
    split <;> rfl
  · exact ⟨[], hquiet.started.trans (List.append_nil _).symm⟩

/-- Only a stop adds to what was stopped: the instance that the loop knows. -/
theorem stopped_step {a : LoopAction} (h : s.step P me a = some t) :
    t.stopped = s.stopped ∨
      ∃ ctx id shutdown rest child, a = .act ctx ∧
        s.batch = .stop id shutdown :: rest ∧ s.find id = some child ∧
        t.stopped = s.stopped ++ [child] := by
  obtain ⟨ctx, action, rest, rfl, hphase, hbatch, rfl⟩ |
    ⟨msg, wake, rfl, hphase, -, rfl⟩ | ⟨wake, rfl, hphase, rfl⟩ |
    ⟨d, rest, rfl, hphase, rfl⟩ | ⟨hquiet, -⟩ := step_cases h
  · cases action with
    | start spec =>
      left
      show (SupervisorLoop.performStart P me ctx _ spec).stopped = _
      unfold performStart
      obtain ⟨-, reg, heq, -⟩ | ⟨-, reg, e, heq, -⟩ :=
        hostSpawnLink_cases s.reg me ctx (spawnArgs spec) rfl
      · rw [heq]
      · rw [heq]
    | stop id shutdown =>
      have hstopped : (SupervisorLoop.performStop me { s with batch := rest } id
          shutdown).stopped = s.stopped ++ (s.find id).toList :=
        stopped_performStop _ id shutdown
      cases hfind : s.find id with
      | none =>
        left
        rw [hfind] at hstopped
        exact hstopped.trans (List.append_nil _)
      | some child =>
        rw [hfind] at hstopped
        exact .inr ⟨ctx, id, shutdown, rest, child, rfl, hbatch, hfind, hstopped⟩
    | giveUp => exact .inl rfl
  · left
    cases msg with
    | exit sender reason =>
      show (SupervisorLoop.handleExit P _ sender reason).stopped = _
      unfold handleExit
      split <;> rfl
    | tagged refId payload => rfl
    | data payload | down source refId reason | spawnReply refId outcome => rfl
  · exact .inl rfl
  · left
    unfold reapOne
    split <;> rfl
  · exact .inl hquiet.stopped

/-- A stop that ends its instance leaves it dead. -/
theorem not_alive_performStop (hl : s.reg.AllLocal) {id : String}
    {shutdown : Shutdown} {child : Child} (hfind : s.find id = some child)
    (hends : s.Ends child shutdown) :
    ¬ (s.performStop me id shutdown).reg.Alive child.pid := by
  unfold performStop
  rw [hfind]
  cases shutdown with
  | brutalKill => exact hends.not_alive hl (.inl rfl)
  | timeout ms => exact hends.not_alive hl (.inr ⟨nofun, nofun⟩)
  | infinity => exact hends.not_alive hl (.inr ⟨nofun, nofun⟩)

/-! ## One instance of a child -/

/-- The child that is about to be started. -/
def nextStart (s : SupervisorLoop σ) : Option ChildSpec :=
  match s.phase, s.batch with
  | .acting, .start spec :: _ => some spec
  | _, _ => none

/-- A child is about to be started only when no instance of it is alive, and,
where siblings are restarted together, only when every instance that was ever
stopped is gone. -/
def StartsAlone (flags : SupFlags) (s : SupervisorLoop σ) : Prop :=
  ∀ spec ∈ s.nextStart,
    (∀ c ∈ s.started, c.id = spec.id → ¬ s.reg.Alive c.pid) ∧
    (flags.strategy ≠ .oneForOne → ∀ c ∈ s.stopped, ¬ s.reg.Alive c.pid)

instance (flags : SupFlags) (s : SupervisorLoop σ) :
    Decidable (s.StartsAlone flags) :=
  inferInstanceAs (Decidable (∀ spec ∈ s.nextStart, _))

/-- The living instances of a child. -/
def instances (s : SupervisorLoop σ) (id : String) : List Child :=
  s.started.filter fun c => c.id = id ∧ s.reg.Alive c.pid

theorem nextStart_eq {spec : ChildSpec} (h : s.nextStart = some spec) :
    ∃ rest, s.phase = .acting ∧ s.batch = .start spec :: rest := by
  unfold nextStart at h
  split at h
  · rename_i spec' rest hphase hbatch
    cases h
    exact ⟨rest, hphase, hbatch⟩
  · cases h

/-- Every child, whatever it is. -/
def everyone : String → Bool := fun _ => true

/-- Where the loop is on its way: it has left, it is about to give up, or its
plan is sound and all that it stopped is gone. -/
inductive OneEach (children : List ChildSpec) (s : SupervisorLoop Supervisor) :
    Prop where
  | left (phase : s.phase = .left)
  | quits (phase : s.phase = .acting) (quits : quits s.waiting = true)
  | tidy (tidy : Tidy children everyone s)
      (stopped : ∀ c ∈ s.stopped, c ∈ s.started ∧ ¬ s.reg.Alive c.pid)

/-- Actions are performed while the loop drains them. -/
theorem phase_of_act {ctx : SpawnContext}
    (h : s.step P me (.act ctx) = some t) : s.phase = .acting := by
  simp only [step] at h
  split at h
  · assumption
  · cases h

theorem step_act {ctx : SpawnContext} {action : Action} {rest : List Action}
    (hphase : s.phase = .acting) (hbatch : s.batch = action :: rest) :
    s.step P me (.act ctx) =
      some ({ s with batch := rest }.perform P me ctx action) := by
  simp only [step, hphase, hbatch]

/-- A supervisor that has left does nothing more. -/
theorem phase_of_left {a : LoopAction} (hphase : s.phase = .left)
    (h : s.step P me a = some t) :
    t.phase = .left ∧ t.started = s.started := by
  obtain ⟨ctx, action, rest, rfl, hacting, -⟩ | ⟨msg, wake, rfl, hwaiting, -⟩ |
    ⟨wake, rfl, hwaiting, -⟩ | ⟨d, rest, rfl, hreaping, -⟩ | ⟨hquiet, -⟩ :=
    step_cases h
  · rw [hphase] at hacting
    cases hacting
  · rw [hphase] at hwaiting
    cases hwaiting
  · rw [hphase] at hwaiting
    cases hwaiting
  · rw [hphase] at hreaping
    cases hreaping
  · refine ⟨?_, hquiet.started⟩
    obtain hsame | ⟨hasleep | hreaping, -⟩ | ⟨hacting, -⟩ := hquiet.phase
    · rw [hsame, hphase]
    · rw [hphase] at hasleep
      cases hasleep
    · rw [hphase] at hreaping
      cases hreaping
    · rw [hphase] at hacting
      cases hacting

section GivingUp

variable {s t : SupervisorLoop Supervisor}

/-- A supervisor that is about to give up stops children until it leaves. -/
theorem OneEach.of_quits {a : LoopAction} (hphase : s.phase = .acting)
    (hquits : Plasmoid.quits s.waiting = true)
    (h : s.step supervisorPolicy me a = some t) : OneEach children t := by
  obtain ⟨ctx, action, rest, rfl, -, hbatch, rfl⟩ | ⟨msg, wake, rfl, hwaiting, -⟩ |
    ⟨wake, rfl, hwaiting, -⟩ | ⟨d, rest, rfl, hreaping, -⟩ | ⟨hquiet, -⟩ :=
    step_cases h
  · rw [waiting, hbatch, List.cons_append] at hquits
    cases action with
    | start spec => cases hquits
    | stop id shutdown =>
      have hquits' : Plasmoid.quits (rest ++ s.queue) = true := hquits
      obtain ⟨-, hacting, -, hwaiting⟩ := performStop_frame me
        { s with batch := rest } id shutdown
      exact .quits (hacting.trans hphase) (hwaiting ▸ hquits')
    | giveUp => exact .left rfl
  · rw [hphase] at hwaiting
    cases hwaiting
  · rw [hphase] at hwaiting
    cases hwaiting
  · rw [hphase] at hreaping
    cases hreaping
  · have hwaiting : t.waiting = s.waiting := hquiet.actions
    obtain hsame | ⟨hasleep | hreaping, -⟩ | ⟨-, hidle, -⟩ := hquiet.phase
    · exact .quits (hsame.trans hphase) (hwaiting ▸ hquits)
    · rw [hphase] at hasleep
      cases hasleep
    · rw [hphase] at hreaping
      cases hreaping
    · rw [waiting, hidle] at hquits
      cases hquits

/-- What `lenient` permits is a stop on the way to giving up. -/
theorem orderly_of_lenient {care obliged : String → Bool} {a : LoopAction}
    (h : s.orderly care obliged true a = true) :
    s.orderly care obliged false a = true ∨
      Plasmoid.quits s.waiting = true ∧ ∃ ctx, a = .act ctx := by
  cases a with
  | act ctx =>
    cases hbatch : s.batch with
    | nil => exact .inl (by simp [orderly, hbatch])
    | cons action rest =>
      cases action with
      | start spec =>
        left
        simpa only [orderly, hbatch] using h
      | stop id shutdown =>
        cases hquits : Plasmoid.quits (rest ++ s.queue) with
        | true =>
          refine .inr ⟨?_, ctx, rfl⟩
          rw [waiting, hbatch]
          exact hquits
        | false =>
          left
          simpa only [orderly, hbatch, hquits, Bool.and_false,
            Bool.false_and] using h
      | giveUp => exact .inl (by simp [orderly, hbatch])
  | receive msg =>
    left
    cases msg with
    | exit sender reason => exact h
    | tagged refId payload | data payload | down source refId reason
    | spawnReply refId outcome => rfl
  | reap => exact .inl h
  | enter | drain | park | timeout | tick => exact .inl rfl
  | world op => exact .inl rfl
  | spawn ctx args => exact .inl rfl
  | send pid payload => exact .inl rfl
  | sendTagged pid refId payload => exact .inl rfl

theorem OneEach.step (h : OneEach children s)
    (hids : (children.map (·.id)).Nodup) {a : LoopAction}
    (hfresh : s.freshPid a = true)
    (hok : s.orderly everyone everyone true a = true)
    (hstep : s.step supervisorPolicy me a = some t) : OneEach children t := by
  cases h with
  | left phase => exact .left (phase_of_left phase hstep).1
  | quits phase hquits => exact .of_quits phase hquits hstep
  | tidy htidy hstopped =>
    rcases orderly_of_lenient hok with hstrict | ⟨hquits, ctx, rfl⟩
    · rcases htidy.step hids (fun _ _ _ => rfl) hfresh hstrict hstep with
        htidy' | ⟨hleft, -⟩
      · refine .tidy htidy' fun c hc => ?_
        obtain ⟨l, hstarted⟩ := started_step hstep
        have hmono : ∀ c ∈ s.started, c ∈ t.started := by
          intro c hc
          rw [hstarted]
          exact List.mem_append_left l hc
        have hold : ∀ c ∈ s.stopped, c ∈ t.started ∧ ¬ t.reg.Alive c.pid := by
          intro c hc
          obtain ⟨hc, hdead⟩ := hstopped c hc
          exact ⟨hmono c hc,
            fun halive => hdead (survivors_step hfresh hstep hc halive)⟩
        rcases stopped_step hstep with hsame |
          ⟨ctx, id, shutdown, rest, child, rfl, hbatch, hfind, hnew⟩
        · exact hold c (hsame ▸ hc)
        · rw [hnew] at hc
          rcases List.mem_append.1 hc with hc | hc
          · exact hold c hc
          · obtain rfl := List.mem_singleton.1 hc
            refine ⟨hmono c (htidy.liveStarted c (find_some hfind).1), ?_⟩
            simp only [orderly, hbatch, hfind, Bool.false_and, Bool.false_or,
              Option.all_some, decide_eq_true_eq] at hstrict
            have hends : s.Ends c shutdown := hstrict (.inl rfl)
            rw [step_act (phase_of_act hstep) hbatch, Option.some_inj] at hstep
            rw [← hstep]
            exact not_alive_performStop (s := { s with batch := rest })
              htidy.allLocal hfind hends
      · exact .left hleft
    · exact .of_quits (phase_of_act hstep) hquits hstep

end GivingUp

/-! ## Giving up -/

/-- The children with a bound on how long they may take to stop. -/
def bounded (children : List ChildSpec) (id : String) : Bool :=
  !children.any fun c => c.id = id ∧ c.shutdown = .infinity

def isTemporary (children : List ChildSpec) (id : String) : Bool :=
  children.any fun c => c.id = id ∧ c.restart = .temporary

theorem mem_temporaryIds {id : String} :
    id ∈ Supervisor.temporaryIds children ↔ isTemporary children id = true := by
  rw [isTemporary, List.any_eq_true]
  constructor
  · rintro ⟨i, rfl, htemp⟩
    exact ⟨(children.get i), List.getElem_mem i.2, by simpa using htemp⟩
  · rintro ⟨c, hc, hid⟩
    obtain ⟨i, hi, rfl⟩ := List.getElem_of_mem hc
    have hboth := of_decide_eq_true hid
    exact ⟨⟨i, hi⟩, hboth.1, hboth.2⟩

/-- The supervisor leaves no instance of a bounded child alive. -/
def LeavesNobody (children : List ChildSpec) (s : SupervisorLoop σ) : Prop :=
  s.phase = .left →
    ∀ c ∈ s.started, bounded children c.id = true → ¬ s.reg.Alive c.pid

instance (children : List ChildSpec) (s : SupervisorLoop σ) :
    Decidable (s.LeavesNobody children) :=
  inferInstanceAs (Decidable (_ → _))

/-- The bounded children do as they are told.  A `temporary` one, which is
never started again, may ignore a request to stop. -/
def obeys (children : List ChildSpec) (s : SupervisorLoop σ)
    (a : LoopAction) : Bool :=
  s.freshPid a && s.orderly (bounded children)
    (fun id => bounded children id && !isTemporary children id) false a

/-- Where the supervisor gives up, the bounded `temporary` children that are
still alive die of its own exit. -/
def FallsTogether (children : List ChildSpec) (me : Pid)
    (s : SupervisorLoop σ) (a : LoopAction) : Prop :=
  ∀ ctx rest, a = .act ctx → s.batch = .giveUp :: rest →
    ∀ c ∈ s.live, bounded children c.id = true →
      isTemporary children c.id = true → s.reg.Alive c.pid →
        Relation.TransGen (s.reg.Cascades (.shutdown "shutdown")) me c.pid

theorem phase_performStart (s : SupervisorLoop σ) (ctx : SpawnContext)
    (spec : ChildSpec) : (s.performStart P me ctx spec).phase = s.phase := by
  unfold performStart
  obtain ⟨-, reg, heq, -⟩ | ⟨-, reg, e, heq, -⟩ :=
    hostSpawnLink_cases s.reg me ctx (spawnArgs spec) rfl
  · rw [heq]
  · rw [heq]

theorem phase_handle (P : Policy σ) (s : SupervisorLoop σ)
    (msg : MailboxMessage) : (s.handle P msg).phase = s.phase := by
  cases msg with
  | exit sender reason =>
    show (s.handleExit P sender reason).phase = s.phase
    unfold handleExit
    split <;> rfl
  | tagged refId payload => rfl
  | data payload | down source refId reason | spawnReply refId outcome => rfl

/-- The loop is left only by giving up. -/
theorem giveUp_of_left {a : LoopAction} (h : s.step P me a = some t)
    (hleft : t.phase = .left) :
    s.phase = .left ∨ ∃ ctx rest, a = .act ctx ∧ s.batch = .giveUp :: rest ∧
      t.started = s.started ∧
      t.reg = s.reg.exitParticle me (.shutdown "shutdown") := by
  obtain ⟨ctx, action, rest, rfl, hphase, hbatch, rfl⟩ |
    ⟨msg, wake, rfl, hphase, -, rfl⟩ | ⟨wake, rfl, hphase, rfl⟩ |
    ⟨d, rest, rfl, hphase, rfl⟩ | ⟨hquiet, -⟩ := step_cases h
  · cases action with
    | start spec =>
      left
      exact (phase_performStart { s with batch := rest } ctx spec).symm.trans
        hleft
    | stop id shutdown =>
      left
      exact (performStop_frame me { s with batch := rest } id
        shutdown).2.1.symm.trans hleft
    | giveUp => exact .inr ⟨ctx, rest, rfl, hbatch, rfl, rfl⟩
  · have hsame := phase_handle P
      { s with reg := s.reg.popFront me, phase := .acting } msg
    cases hsame.symm.trans hleft
  · cases hleft
  · exfalso
    have hsame : (SupervisorLoop.reapOne me { s with phase := .reaping rest }
        d).phase = .reaping rest := by
      unfold reapOne
      split <;> rfl
    cases hsame.symm.trans hleft
  · left
    obtain hsame | ⟨-, hacting⟩ | ⟨-, -, hwaiting⟩ := hquiet.phase
    · exact hsame.symm.trans hleft
    · cases hacting.symm.trans hleft
    · cases hwaiting.symm.trans hleft

section LeavingNobody

variable {s t : SupervisorLoop Supervisor}

/-- Either the loop runs and knows all its instances, or it has left and none
is alive. -/
inductive NobodyLost (children : List ChildSpec)
    (s : SupervisorLoop Supervisor) : Prop where
  | running (phase : s.phase ≠ .left)
      (tidy : Tidy children (bounded children) s)
  | left (phase : s.phase = .left)
      (gone : ∀ c ∈ s.started, bounded children c.id = true →
        ¬ s.reg.Alive c.pid)

theorem NobodyLost.step (h : NobodyLost children s)
    (hids : (children.map (·.id)).Nodup) {a : LoopAction}
    (hobeys : s.obeys children a = true)
    (hfalls : s.FallsTogether children me a)
    (hstep : s.step supervisorPolicy me a = some t) :
    NobodyLost children t := by
  obtain ⟨hfresh, hok⟩ := Bool.and_eq_true_iff.1 hobeys
  cases h with
  | left phase gone =>
    obtain ⟨hleft, hstarted⟩ := phase_of_left phase hstep
    refine .left hleft fun c hc hbounded halive => ?_
    rw [hstarted] at hc
    exact gone c hc hbounded (survivors_step hfresh hstep hc halive)
  | running phase tidy =>
    by_cases hleft : t.phase = .left
    · obtain hleft' | ⟨ctx, rest, rfl, hbatch, hstarted, hreg⟩ :=
        giveUp_of_left hstep hleft
      · exact absurd hleft' phase
      · refine .left hleft fun c hc hbounded halive => ?_
        rw [hstarted] at hc
        have hbefore := survivors_step hfresh hstep hc halive
        have hsound := tidy.sound
        have hquit : concerns (bounded children) Action.giveUp.command = true :=
          rfl
        rw [planOf_waiting hbatch, if_pos hquit] at hsound
        have hspared : s.occupied (bounded children) ⊆
            Supervisor.temporaryIds children := hsound
        have htemp : c.id ∈ Supervisor.temporaryIds children :=
          hspared ⟨hbounded, c, hc, rfl, hbefore⟩
        have hcascade := hfalls ctx rest rfl hbatch c
          (tidy.covered c hc hbounded hbefore) hbounded
          (mem_temporaryIds.1 htemp) hbefore
        rw [hreg] at halive
        exact not_alive_of_cascades hcascade halive
    · have hobliged : ∀ id, bounded children id = true →
          id ∉ Supervisor.temporaryIds children →
          (bounded children id && !isTemporary children id) = true := by
        intro id hbounded htemp
        rw [mem_temporaryIds] at htemp
        simp [hbounded, htemp]
      rcases tidy.step hids hobliged hfresh hok hstep with htidy | ⟨hgone, -⟩
      · exact .running hleft htidy
      · exact absurd hgone hleft

end LeavingNobody

end SupervisorLoop

/-- In a run of a supervisor whose children do as they are told, no child is
started while an instance of it is alive, and siblings are restarted together
only when all that was stopped is gone. -/
theorem starts_leave_one_instance (node : EndpointId) (me : Pid)
    (flags : SupFlags) (children : List ChildSpec)
    (hids : (children.map (·.id)).Nodup) {s : SupervisorLoop Supervisor}
    (h : Run (SupervisorLoop.step supervisorPolicy me)
      (fun s a => s.freshPid a = true ∧
        s.orderly SupervisorLoop.everyone SupervisorLoop.everyone true a = true)
      (runSupervisor node flags children) s) : s.StartsAlone flags := by
  have hinv : s.OneEach children := h.invariant
    (fun hs hok hstep => hs.step hids hok.1 hok.2 hstep)
    (.tidy (SupervisorLoop.tidy_start node flags hids)
      fun _ hc => absurd hc List.not_mem_nil)
  intro spec hnext
  obtain ⟨rest, hphase, hbatch⟩ := SupervisorLoop.nextStart_eq hnext
  have hwaiting : s.waiting = .start spec :: (rest ++ s.queue) := by
    rw [SupervisorLoop.waiting, hbatch, List.cons_append]
  cases hinv with
  | left phase =>
    rw [hphase] at phase
    cases phase
  | quits phase hquits =>
    rw [hwaiting] at hquits
    cases hquits
  | tidy htidy hstopped =>
    refine ⟨?_, fun _ c hc => (hstopped c hc).2⟩
    intro c hc hid halive
    have hsound := htidy.sound
    rw [hwaiting] at hsound
    exact hsound.1 ⟨rfl, c, hc, hid, halive⟩

def twoWorkers : List ChildSpec :=
  [worker "a" .permanent, worker "b" .permanent]

/-- The second child is told to stop, and does, before the first one is
started again. -/
theorem starts_leave_one_instance_twoWorkers :
    ∃ s, Run (SupervisorLoop.step supervisorPolicy (particle 1))
        (fun s a => s.freshPid a = true ∧ s.orderly SupervisorLoop.everyone
          SupervisorLoop.everyone true a = true)
        (runSupervisor ⟨1⟩ oneForAll twoWorkers) s ∧
      s.stopped ≠ [] ∧ s.nextStart ≠ none ∧ s.StartsAlone oneForAll := by
  have hrun : ∃ s, Run (SupervisorLoop.step supervisorPolicy (particle 1))
      (fun s a => s.freshPid a = true ∧ s.orderly SupervisorLoop.everyone
        SupervisorLoop.everyone true a = true)
      (runSupervisor ⟨1⟩ oneForAll twoWorkers) s ∧
      s.stopped ≠ [] ∧ s.nextStart ≠ none :=
    exec_run_of_any (α := LoopAction)
      (.flatten [startTwo, crashFirst, [.act sound]]) (by decide +kernel)
  obtain ⟨s, h, hstopped, hnext⟩ := hrun
  exact ⟨s, h, hstopped, hnext,
    starts_leave_one_instance _ _ _ _ (by decide) h⟩

/-- The second child ignores the request to stop, and is started again all
the same. -/
theorem restart_leaves_two_instances :
    ∃ s, Run (SupervisorLoop.step supervisorPolicy (particle 1)) anyStep
        (runSupervisor ⟨1⟩ oneForAll twoWorkers) s ∧
      ¬ s.StartsAlone oneForAll ∧
      (s.step supervisorPolicy (particle 1) (.act sound)).any
        (fun t => (t.instances "b").length = 2) = true :=
  exec_run_of_any (α := LoopAction) (.flatten [startTwo,
    [.world (.atomic (.setTrapExit (particle 3) true))], crashFirst,
    [.act sound, .act sound]])
    (by decide +kernel)

/-- A supervisor whose bounded children do as they are told leaves none of
them alive when it gives up. -/
theorem giving_up_leaves_nobody (node : EndpointId) (me : Pid)
    (flags : SupFlags) (children : List ChildSpec)
    (hids : (children.map (·.id)).Nodup) {s : SupervisorLoop Supervisor}
    (h : Run (SupervisorLoop.step supervisorPolicy me)
      (fun s a => s.obeys children a = true ∧ s.FallsTogether children me a)
      (runSupervisor node flags children) s) :
    s.LeavesNobody children := by
  have hinv : s.NobodyLost children := h.invariant
    (fun hs hok hstep => hs.step hids hok.1 hok.2 hstep)
    (.running nofun (SupervisorLoop.tidy_start node flags hids))
  intro hleft
  cases hinv with
  | running phase tidy => exact absurd hleft phase
  | left phase gone => exact gone

/-- No restart is permitted. -/
def noRestarts : SupFlags := ⟨.oneForAll, 0, 5000⟩

/-- The second child stops when it is told to. -/
theorem giving_up_leaves_nobody_twoWorkers :
    ∃ s, Run (SupervisorLoop.step supervisorPolicy (particle 1))
        (fun s a => s.obeys twoWorkers a = true ∧
          s.FallsTogether twoWorkers (particle 1) a)
        (runSupervisor ⟨1⟩ noRestarts twoWorkers) s ∧
      s.phase = .left ∧ s.started.length = 2 ∧ s.LeavesNobody twoWorkers := by
  have hrun : ∃ s, Run (SupervisorLoop.step supervisorPolicy (particle 1))
      (fun s a => s.obeys twoWorkers a = true)
      (runSupervisor ⟨1⟩ noRestarts twoWorkers) s ∧
      s.phase = .left ∧ s.started.length = 2 :=
    exec_run_of_any (α := LoopAction) (.flatten [startTwo, crashFirst,
      [.act sound, .act sound, .act sound]]) (by decide +kernel)
  obtain ⟨s, h, hleft, hstarted⟩ := hrun
  have hnone : ∀ id, SupervisorLoop.isTemporary twoWorkers id = false := by
    intro id
    simp [SupervisorLoop.isTemporary, twoWorkers, worker]
  have h' : Run (SupervisorLoop.step supervisorPolicy (particle 1))
      (fun s a => s.obeys twoWorkers a = true ∧
        s.FallsTogether twoWorkers (particle 1) a)
      (runSupervisor ⟨1⟩ noRestarts twoWorkers) s := by
    apply h.mono
    intro s a hok
    refine ⟨hok, fun ctx rest _ _ c _ _ htemp => ?_⟩
    rw [hnone] at htemp
    cases htemp
  exact ⟨s, h', hleft, hstarted,
    giving_up_leaves_nobody _ _ _ _ (by decide) h'⟩

/-- The second child ignores the request to stop, and nobody stays behind to
kill it. -/
theorem giving_up_leaves_a_child :
    ∃ s, Run (SupervisorLoop.step supervisorPolicy (particle 1)) anyStep
        (runSupervisor ⟨1⟩ noRestarts twoWorkers) s ∧
      ¬ s.LeavesNobody twoWorkers :=
  exec_run_of_any (α := LoopAction) (.flatten [startTwo,
    [.world (.atomic (.setTrapExit (particle 3) true))], crashFirst,
    [.act sound, .act sound, .act sound]])
    (by decide +kernel)

end Plasmoid
