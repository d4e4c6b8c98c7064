import Plasmoid.SupervisorLoop

/-!
# Patience deadlines

A child that is asked to stop gets a deadline, and the loop kills it when the
deadline passes.  The deadline is kept under the child's id, and so is the
instance it is for.  It reaches the right instance at the right time as long
as no other instance is started under the id while the deadline stands, the
deadline does not wrap around, and nobody holds the key of the instance as a
name.
-/

namespace Plasmoid

open Machine ParticleRegistry

/-- The kill reaches the instance that was asked to stop, after all the
patience it was given, and not one that was started later. -/
structure OverdueKill.Timely (k : OverdueKill) : Prop where
  child : k.child = k.deadline.asked
  target : k.target = k.deadline.asked.pid
  patience : k.deadline.askedAt + k.deadline.patience.toNat ≤ k.time
  early : k.child.nth < k.deadline.startedBy

instance (k : OverdueKill) : Decidable k.Timely :=
  decidable_of_iff (k.child = k.deadline.asked ∧
      k.target = k.deadline.asked.pid ∧
      k.deadline.askedAt + k.deadline.patience.toNat ≤ k.time ∧
      k.child.nth < k.deadline.startedBy)
    ⟨fun h => ⟨h.1, h.2.1, h.2.2.1, h.2.2.2⟩,
      fun h => ⟨h.child, h.target, h.patience, h.early⟩⟩

namespace SupervisorLoop

variable {σ : Type} {P : Policy σ} {me : Pid} {s t : SupervisorLoop σ}

/-- No instance is started under an id with a standing deadline, no deadline
wraps around, and no kill is sent to a key that another particle holds as a
name. -/
def inTime (s : SupervisorLoop σ) : LoopAction → Bool
  | .act ctx =>
    match s.batch with
    | .start spec :: _ =>
      s.reg.Spawnable ctx (spawnArgs spec) → ∀ d ∈ s.pending, d.id ≠ spec.id
    | .stop id (.timeout ms) :: _ =>
      (s.find id).isSome → s.clock + ms.toNat < 2 ^ 64
    | _ => true
  | .reap =>
    match s.phase with
    | .reaping (d :: _) => (s.find d.id).all fun c => s.reg.Unshadowed c.pid
    | _ => true
  | _ => true

/-- A deadline is for the instance that `live` holds, if it holds one. -/
structure Stands (live : List Child) (d : Deadline) : Prop where
  id : d.asked.id = d.id
  same : ∀ c ∈ live, c.id = d.id → c = d.asked
  deadline : d.deadline.toNat = d.askedAt + d.patience.toNat
  early : d.asked.nth < d.startedBy

theorem Stands.mono {live live' : List Child} {d : Deadline}
    (h : Stands live d) (hsub : ∀ c ∈ live', c ∈ live) : Stands live' d :=
  { h with same := fun c hc => h.same c (hsub c hc) }

structure PatienceInv (s : SupervisorLoop σ) : Prop where
  allLocal : s.reg.AllLocal
  liveLocal : ∀ c ∈ s.live, c.pid.node = s.reg.me
  liveNodup : (s.live.map (·.id)).Nodup
  counted : ∀ c ∈ s.live, c.nth < s.started.length
  pending : ∀ d ∈ s.pending, Stands s.live d
  overdue : ∀ l, s.phase = .reaping l →
    ∀ d ∈ l, Stands s.live d ∧ d.deadline.toNat ≤ s.clock
  kills : ∀ k ∈ s.kills, k.Timely

theorem patienceInv_start (node : EndpointId) (init : σ × List Action) :
    PatienceInv (start node init) where
  allLocal x h := absurd h (AList.notMem_empty x)
  liveLocal _ hc := absurd hc List.not_mem_nil
  liveNodup := List.nodup_nil
  counted _ hc := absurd hc List.not_mem_nil
  pending _ hd := absurd hd List.not_mem_nil
  overdue _ h := nomatch h
  kills _ hk := absurd hk List.not_mem_nil

/-- Dropping entries, with no deadline to come, keeps the invariant. -/
theorem PatienceInv.shrink (h : PatienceInv s) (hreg : Lives s.reg t.reg)
    (hlive : t.live.Sublist s.live) (hstarted : t.started = s.started)
    (hpending : ∀ d ∈ t.pending, d ∈ s.pending)
    (hphase : ∀ l, t.phase = .reaping l →
      ∀ d ∈ l, Stands s.live d ∧ d.deadline.toNat ≤ t.clock)
    (hkills : ∀ k ∈ t.kills, k.Timely) : PatienceInv t where
  allLocal := hreg.allLocal h.allLocal
  liveLocal c hc := by
    rw [hreg.me]
    exact h.liveLocal c (hlive.subset hc)
  liveNodup := h.liveNodup.sublist (hlive.map _)
  counted c hc := by
    rw [hstarted]
    exact h.counted c (hlive.subset hc)
  pending d hd := (h.pending d (hpending d hd)).mono hlive.subset
  overdue l hl d hd := by
    obtain ⟨hstands, hdue⟩ := hphase l hl d hd
    exact ⟨hstands.mono hlive.subset, hdue⟩
  kills := hkills

theorem toNat_le_clock {d : UInt64} (h : d ≤ s.nowMs) : d.toNat ≤ s.clock := by
  have hle : d.toNat ≤ s.nowMs.toNat := UInt64.le_iff_toNat_le.1 h
  rw [nowMs, UInt64.toNat_ofNat'] at hle
  exact hle.trans (Nat.mod_le _ _)

/-- A new instance may be started when no deadline stands under its id. -/
theorem PatienceInv.performStart (h : PatienceInv s) (hphase : s.phase = .acting)
    {ctx : SpawnContext} {spec : ChildSpec}
    (hfree : s.reg.Spawnable ctx (spawnArgs spec) →
      ∀ d ∈ s.pending, d.id ≠ spec.id) :
    PatienceInv (s.performStart P me ctx spec) := by
  have hnotReaping : ∀ l, s.phase ≠ .reaping l := by
    intro l hl
    rw [hphase] at hl
    cases hl
  unfold SupervisorLoop.performStart
  obtain ⟨hspawn, reg, heq, hlives⟩ | ⟨-, reg, e, heq, hlives⟩ :=
    hostSpawnLink_cases s.reg me ctx (spawnArgs spec) rfl
  · rw [heq]
    refine ⟨hlives.allLocal h.allLocal, ?_, ?_, ?_, ?_,
      fun l hl => absurd hl (hnotReaping l), h.kills⟩
    · intro c hc
      show c.pid.node = reg.me
      rw [hlives.me]
      rcases List.mem_append.1 hc with hc | hc
      · exact h.liveLocal c (mem_dropLive.1 hc).1
      · cases List.mem_singleton.1 hc
        rfl
    · exact nodup_replace h.liveNodup
        ⟨spec.id, s.reg.pidGen.peek, s.started.length⟩
    · intro c hc
      rw [List.length_append]
      rcases List.mem_append.1 hc with hc | hc
      · exact Nat.lt_add_right _ (h.counted c (mem_dropLive.1 hc).1)
      · cases List.mem_singleton.1 hc
        exact Nat.lt_succ_self _
    · intro d hd
      have hstands := h.pending d hd
      refine { hstands with same := fun c hc hid => ?_ }
      rcases List.mem_append.1 hc with hc | hc
      · exact hstands.same c (mem_dropLive.1 hc).1 hid
      · cases List.mem_singleton.1 hc
        exact absurd hid.symm (hfree hspawn d hd)
  · rw [heq]
    exact h.shrink hlives (List.Sublist.refl _) rfl (fun _ hd => hd)
      (fun l hl => absurd hl (hnotReaping l)) h.kills

/-- A child asked to stop gets a deadline for its instance. -/
theorem PatienceInv.performStop (h : PatienceInv s) (hphase : s.phase = .acting)
    {id : String} {shutdown : Shutdown}
    (hfits : ∀ ms, shutdown = .timeout ms → (s.find id).isSome = true →
      s.clock + ms.toNat < 2 ^ 64) :
    PatienceInv (s.performStop me id shutdown) := by
  have hnotReaping : ∀ l, s.phase ≠ .reaping l := by
    intro l hl
    rw [hphase] at hl
    cases hl
  have hreg := (noBirth_performStop me s id shutdown).lives
  unfold SupervisorLoop.performStop at hreg ⊢
  cases hfind : s.find id with
  | none => exact h
  | some child =>
    simp only [hfind] at hreg
    obtain ⟨hmem, hid⟩ := find_some hfind
    cases shutdown with
    | brutalKill =>
      exact h.shrink hreg List.filter_sublist rfl (fun _ hd => hd)
        (fun l hl => absurd hl (hnotReaping l)) h.kills
    | infinity =>
      exact h.shrink hreg (List.Sublist.refl _) rfl (fun _ hd => hd)
        (fun l hl => absurd hl (hnotReaping l)) h.kills
    | timeout ms =>
      have hfit := hfits ms rfl (by rw [hfind]; rfl)
      refine ⟨hreg.allLocal h.allLocal, ?_, h.liveNodup, h.counted, ?_,
        fun l hl => absurd hl (hnotReaping l), h.kills⟩
      · intro c hc
        rw [hreg.me]
        exact h.liveLocal c hc
      · intro d hd
        rcases List.mem_append.1 hd with hd | hd
        · exact h.pending d hd
        · cases List.mem_singleton.1 hd
          refine ⟨hid, ?_, ?_, h.counted child hmem⟩
          · intro c hc hcid
            exact List.inj_on_of_nodup_map h.liveNodup hc hmem
              (hcid.trans hid.symm)
          · show (s.nowMs + ms).toNat = s.clock + ms.toNat
            have hclock : s.clock % 2 ^ 64 = s.clock :=
              Nat.mod_eq_of_lt (by omega)
            rw [UInt64.toNat_add, nowMs, UInt64.toNat_ofNat', hclock,
              Nat.mod_eq_of_lt hfit]

/-- A kill reaches the instance that its deadline stands for. -/
theorem PatienceInv.reapOne (h : PatienceInv s) {d : Deadline}
    {rest : List Deadline} (hphase : s.phase = .reaping (d :: rest))
    (hkey : ∀ c, s.find d.id = some c → s.reg.Unshadowed c.pid) :
    PatienceInv ({ s with phase := .reaping rest }.reapOne me d) := by
  have hreg := (noBirth_reapOne me
    { s with phase := .reaping rest } d).lives
  have hrest : ∀ l, LoopPhase.reaping rest = .reaping l →
      ∀ d ∈ l, Stands s.live d ∧ d.deadline.toNat ≤ s.clock := by
    intro l hl d' hd'
    cases hl
    exact h.overdue _ hphase d' (List.mem_cons_of_mem _ hd')
  have hfindEq : ({ s with phase := .reaping rest } : SupervisorLoop σ).find
      d.id = s.find d.id := rfl
  unfold SupervisorLoop.reapOne at hreg ⊢
  rw [hfindEq] at hreg ⊢
  cases hfind : s.find d.id with
  | none =>
    simp only [hfind] at hreg
    exact h.shrink hreg (List.Sublist.refl _) rfl
      (fun _ hd => (mem_dropPending.1 hd).1) hrest h.kills
  | some child =>
    simp only [hfind] at hreg
    refine h.shrink hreg List.filter_sublist rfl
      (fun _ hd => (mem_dropPending.1 hd).1) hrest ?_
    intro k hk
    rcases List.mem_append.1 hk with hk | hk
    · exact h.kills k hk
    · obtain ⟨target, htarget, rfl⟩ := List.mem_map.1 hk
      obtain ⟨hmem, hid⟩ := find_some hfind
      obtain ⟨hstands, hdue⟩ := h.overdue _ hphase d List.mem_cons_self
      have hsame := hstands.same child hmem hid
      rw [hstands.deadline] at hdue
      have hresolve : s.reg.resolveTarget child.pid.display = some target :=
        Option.mem_toList.1 htarget
      have hresolved : target = child.pid :=
        eq_of_resolveTarget h.allLocal (h.liveLocal child hmem)
          (hkey child hfind) hresolve
      refine ⟨hsame, ?_, hdue, ?_⟩
      · rw [← hsame]
        exact hresolved
      · rw [hsame]
        exact hstands.early

theorem PatienceInv.step {a : LoopAction} (h : PatienceInv s)
    (hok : s.inTime a = true) (hstep : s.step P me a = some t) :
    PatienceInv t := by
  obtain ⟨hlives, -⟩ := lives_step hstep
  obtain ⟨ctx, action, rest, rfl, hphase, hbatch, rfl⟩ |
    ⟨msg, wake, rfl, hphase, -, rfl⟩ | ⟨wake, rfl, hphase, rfl⟩ |
    ⟨d, rest, rfl, hphase, rfl⟩ | ⟨hquiet, -⟩ := step_cases hstep
  · have h' : PatienceInv { s with batch := rest } :=
      ⟨h.allLocal, h.liveLocal, h.liveNodup, h.counted, h.pending, h.overdue,
        h.kills⟩
    cases action with
    | start spec =>
      simp only [inTime, hbatch, decide_eq_true_eq] at hok
      exact h'.performStart hphase hok
    | stop id shutdown =>
      refine h'.performStop hphase ?_
      rintro ms rfl hsome
      simp only [inTime, hbatch, decide_eq_true_eq] at hok
      exact hok hsome
    | giveUp =>
      exact h.shrink hlives (List.Sublist.refl _) rfl (fun _ hd => hd) nofun
        h.kills
  · cases msg with
    | exit sender reason =>
      show PatienceInv (SupervisorLoop.handleExit P _ sender reason)
      have hlives' : Lives s.reg (SupervisorLoop.handleExit P
        { s with reg := s.reg.popFront me, phase := .acting } sender
        reason).reg := hlives
      unfold handleExit at hlives' ⊢
      split
      · exact h.shrink (t := { s with
          reg := s.reg.popFront me, phase := .acting })
          (sameLife_modifyState s.reg me _).noBirth.lives (List.Sublist.refl _)
          rfl (fun _ hd => hd) nofun h.kills
      · exact h.shrink (sameLife_modifyState s.reg me _).noBirth.lives
          List.filter_sublist rfl (fun _ hd => (mem_dropPending.1 hd).1) nofun
          h.kills
    | tagged refId payload =>
      exact h.shrink hlives (List.Sublist.refl _) rfl (fun _ hd => hd) nofun
        h.kills
    | data payload | down source refId reason | spawnReply refId outcome =>
      exact h.shrink hlives (List.Sublist.refl _) rfl (fun _ hd => hd) nofun
        h.kills
  · refine h.shrink hlives (List.Sublist.refl _) rfl (fun _ hd => hd) ?_ h.kills
    intro l hl d hd
    cases hl
    obtain ⟨hd, hdue⟩ := List.mem_filter.1 hd
    have hdue' : d.deadline ≤ s.nowMs := of_decide_eq_true hdue
    exact ⟨h.pending d hd, toNat_le_clock hdue'⟩
  · refine h.reapOne hphase ?_
    intro c hc
    simpa [inTime, hphase, hc] using hok
  · refine h.shrink hlives (hquiet.live ▸ List.Sublist.refl _) hquiet.started
      (fun d hd => hquiet.pending ▸ hd) ?_ (hquiet.kills ▸ h.kills)
    intro l hl d hd
    obtain hsame | ⟨-, hacting⟩ | ⟨-, -, hwaiting⟩ := hquiet.phase
    · obtain ⟨hstands, hdue⟩ := h.overdue l (hsame ▸ hl) d hd
      exact ⟨hstands, hdue.trans hquiet.clock⟩
    · rw [hacting] at hl
      cases hl
    · rw [hwaiting] at hl
      cases hl

end SupervisorLoop

/-- In a run of a supervisor whose steps keep the patience deadlines apart,
every overdue kill reaches the instance that was asked to stop, and in time. -/
theorem overdue_kills_are_timely (node : EndpointId) (me : Pid)
    (flags : SupFlags) (children : List ChildSpec)
    {s : SupervisorLoop Supervisor}
    (h : Run (SupervisorLoop.step supervisorPolicy me)
      (fun s a => s.inTime a = true) (runSupervisor node flags children) s) :
    ∀ k ∈ s.kills, k.Timely := by
  have hinv : s.PatienceInv := h.invariant
    (fun hs hok hstep => hs.step hok hstep)
    (SupervisorLoop.patienceInv_start node _)
  exact hinv.kills

/-! ## Two children under `one_for_all` -/

/-- Components that start. -/
def sound : SpawnContext where
  code _ := ⟨true, true, 0, fun _ => true⟩
  overtaken := false

/-- The particle with the given number on the only node. -/
def particle (n : UInt64) : Pid := ⟨⟨1⟩, n⟩

/-- A worker that is given one millisecond to stop. -/
def worker (id : String) (restart : Restart) : ChildSpec :=
  { ChildSpec.new id "worker" with restart := restart, shutdown := .timeout 1 }

def oneForAll : SupFlags := ⟨.oneForAll, 5, 5000⟩

/-- The supervisor, particle 1, starts particles 2 and 3. -/
def startTwo : List LoopAction :=
  [.world (.atomic (.registerComponent "worker")),
    .spawn sound ⟨"worker", none, ""⟩, .enter, .drain, .act sound, .act sound,
    .park]

/-- The first child crashes, and the supervisor hears of it. -/
def crashFirst : List LoopAction :=
  [.world (.exit (particle 2) (.exception "boom")),
    .receive (.exit (particle 2) (.exception "boom")), .drain]

/-- The second child is `temporary` and ignores the request to stop. -/
theorem overdue_kills_are_timely_temporary :
    ∃ s, Run (SupervisorLoop.step supervisorPolicy (particle 1))
        (fun s a => s.inTime a = true)
        (runSupervisor ⟨1⟩ oneForAll
          [worker "a" .permanent, worker "b" .temporary]) s ∧
      s.kills ≠ [] ∧ ∀ k ∈ s.kills, k.Timely := by
  have hrun : ∃ s, Run (SupervisorLoop.step supervisorPolicy (particle 1))
      (fun s a => s.inTime a = true)
      (runSupervisor ⟨1⟩ oneForAll
        [worker "a" .permanent, worker "b" .temporary]) s ∧ s.kills ≠ [] :=
    exec_run_of_any (α := LoopAction) (.flatten [startTwo,
      [.world (.atomic (.setTrapExit (particle 3) true))], crashFirst,
      [.act sound, .act sound, .park, .tick, .timeout, .reap]])
      (by decide +kernel)
  obtain ⟨s, h, hkills⟩ := hrun
  exact ⟨s, h, hkills, overdue_kills_are_timely _ _ _ _ h⟩

/-- The second child stops when asked and is started again, and the deadline
of its first instance kills the second one. -/
theorem stale_deadline_kills_restarted_child :
    ∃ s, Run (SupervisorLoop.step supervisorPolicy (particle 1)) anyStep
        (runSupervisor ⟨1⟩ oneForAll
          [worker "a" .permanent, worker "b" .permanent]) s ∧
      ∃ k ∈ s.kills, ¬ k.Timely :=
  exec_run_of_any (α := LoopAction) (.flatten [startTwo, crashFirst,
    [.act sound, .act sound, .act sound, .park,
      .receive (.exit (particle 3) (.shutdown "shutdown")), .park, .tick, .timeout,
      .reap]])
    (by decide +kernel)

end Plasmoid
