import Plasmoid.RingBenchmark

/-!
# How the ring runs

`RingInv` says of every worker what it is doing and what is in its mailbox, from
two things: where the orchestrator is, and how many hops were handled.  The hop
is in the mailbox of the worker next on the route.  When the last one has
handled it `Finished` is with the orchestrator, and then every worker has or
gets its `Stop`.

A worker that the hop has not visited may still wait for its `Setup` when its
neighbour is already gone.
-/

namespace Plasmoid

open Machine

namespace RingBenchmark

variable {n m : ℕ} {s t : RingState} {i : ℕ} {w : RingWorker}

/-! ## The invariant -/

namespace BossPhase

/-- To how many workers `Setup` was sent. -/
def setups (n : ℕ) : BossPhase → ℕ
  | .spawning => 0
  | .settingUp i => i
  | _ => n

/-- To how many workers `Stop` was sent. -/
def stops (n : ℕ) : BossPhase → ℕ
  | .stopping i => i
  | .returned _ | .exited _ => n
  | _ => 0

/-- The hop was sent. -/
def launched : BossPhase → Bool
  | .awaiting | .stopping _ | .returned _ | .exited _ => true
  | _ => false

/-- `Finished` was received. -/
def finished : BossPhase → Bool
  | .stopping _ | .returned _ | .exited _ => true
  | _ => false

/-- The phases of an orchestrator that has not failed. -/
def Proper (n : ℕ) : BossPhase → Prop
  | .settingUp i | .stopping i => i ≤ n
  | .returned r | .exited r => r = .ok
  | .trapped => False
  | _ => True

end BossPhase

/-- The `Setup` that was sent to worker `i`. -/
def setupFor (n : ℕ) (s : RingState) (i : ℕ) : List RingMsg :=
  if i < s.boss.setups n then [.setup (.worker ((i + 1) % n))] else []

/-- The hop, if it is on its way to worker `i`. -/
def hopFor (n m : ℕ) (s : RingState) (i : ℕ) : List RingMsg :=
  if s.boss.launched = true ∧ s.hops.length ≤ m ∧ (n - 1 + s.hops.length) % n = i
  then [.hop (m - s.hops.length) .orchestrator] else []

/-- The `Stop` that was sent to worker `i`. -/
def stopFor (n : ℕ) (s : RingState) (i : ℕ) : List RingMsg :=
  if i < s.boss.stops n then [.stop] else []

/-- Worker `i` has handled no hop. -/
def Unvisited (s : RingState) (i : ℕ) : Prop := ∀ h ∈ s.hops, h.1 ≠ i

/-- What worker `i` has returned. -/
def ResultInv (n : ℕ) (s : RingState) (i : ℕ) (r : RingResult) : Prop :=
  s.boss.finished = true ∧ (r = .ok ∨
    r = .badPid (.worker ((i + 1) % n)) ∧ Unvisited s i)

/-- What worker `i` is and has in its mailbox. -/
def WorkerInv (n m : ℕ) (s : RingState) (i : ℕ) (w : RingWorker) : Prop :=
  match w.phase with
  | .waiting => Unvisited s i ∧
      w.mailbox = setupFor n s i ++ (hopFor n m s i ++ stopFor n s i)
  | .forwarding next => next = .worker ((i + 1) % n) ∧ i < s.boss.setups n ∧
      w.mailbox = hopFor n m s i ++ stopFor n s i
  | .returned r => ResultInv n s i r
  | .exited r => ResultInv n s i r

structure RingInv (n m : ℕ) (s : RingState) : Prop where
  proper : s.boss.Proper n
  count : s.workers.length ≤ n
  full : s.boss ≠ .spawning → s.workers.length = n
  hops : s.hops = (route n m).take s.hops.length
  early : s.boss.launched = false → s.hops = []
  late : s.boss.finished = true → s.hops.length = m + 1
  inbox : s.inbox =
    if s.boss = .awaiting ∧ s.hops.length = m + 1 then [.finished] else []
  workers : ∀ i w, s.workers[i]? = some w → WorkerInv n m s i w

theorem ringInv_start : RingInv n m start where
  proper := trivial
  count := Nat.zero_le n
  full h := absurd rfl h
  hops := by simp [start]
  early _ := rfl
  late h := by cases h
  inbox := by simp [start]
  workers := by simp [start]

theorem length_route (n m : ℕ) : (route n m).length = m + 1 := by
  simp [route]

theorem RingInv.length_hops_le (h : RingInv n m s) : s.hops.length ≤ m + 1 := by
  have hlen := congrArg List.length h.hops
  rw [List.length_take, length_route] at hlen
  omega

theorem getElem?_send_worker (j : ℕ) (msg : RingMsg) (i : ℕ) :
    (s.send (.worker j) msg).workers[i]? = s.workers[i]?.map fun w =>
      if i = j ∧ w.gone = false then { w with mailbox := w.mailbox ++ [msg] }
      else w := by
  rw [RingState.send, List.getElem?_modify]
  cases s.workers[i]? with
  | none => rfl
  | some w =>
    by_cases hij : j = i
    · subst hij
      cases hw : w.gone <;> simp [hw]
    · simp [hij, Ne.symm hij]

/-- After a send a worker is as before, or it is the receiver. -/
theorem send_worker_cases {j : ℕ} {msg : RingMsg}
    (h : (s.send (.worker j) msg).workers[i]? = some w) :
    ∃ w₀, s.workers[i]? = some w₀ ∧ (w = w₀ ∧ (i = j → w₀.gone = true) ∨
      i = j ∧ w₀.gone = false ∧ w = ⟨w₀.phase, w₀.mailbox ++ [msg]⟩) := by
  rw [getElem?_send_worker] at h
  obtain ⟨w₀, hw₀, rfl⟩ := Option.map_eq_some_iff.1 h
  refine ⟨w₀, hw₀, ?_⟩
  split
  · rename_i hij
    exact Or.inr ⟨hij.1, hij.2, rfl⟩
  · rename_i hij
    exact Or.inl ⟨rfl, fun heq => by simpa [heq] using hij⟩

@[simp] theorem hops_send (p : RingPid) (msg : RingMsg) :
    (s.send p msg).hops = s.hops := by
  cases p with
  | orchestrator => by_cases h : s.boss.gone = true <;> simp [RingState.send, h]
  | worker i => rfl

@[simp] theorem inbox_send_worker (j : ℕ) (msg : RingMsg) :
    (s.send (.worker j) msg).inbox = s.inbox := rfl

theorem setupFor_congr (h : t.boss.setups n = s.boss.setups n) (i : ℕ) :
    setupFor n t i = setupFor n s i := by
  rw [setupFor, setupFor, h]

/-- A worker's invariant reads little of the state. -/
theorem WorkerInv.congr (h : WorkerInv n m s i w)
    (hsetup : setupFor n t i = setupFor n s i)
    (hle : s.boss.setups n ≤ t.boss.setups n)
    (hhop : hopFor n m t i = hopFor n m s i)
    (hstop : stopFor n t i = stopFor n s i)
    (hfinished : s.boss.finished = true → t.boss.finished = true)
    (hunvisited : Unvisited s i → Unvisited t i) : WorkerInv n m t i w := by
  obtain ⟨phase, mailbox⟩ := w
  cases phase with
  | waiting => exact ⟨hunvisited h.1, by rw [hsetup, hhop, hstop]; exact h.2⟩
  | forwarding next =>
    exact ⟨h.1, lt_of_lt_of_le h.2.1 hle, by rw [hhop, hstop]; exact h.2.2⟩
  | returned r => exact ⟨hfinished h.1, h.2.imp_right (And.imp_right hunvisited)⟩
  | exited r => exact ⟨hfinished h.1, h.2.imp_right (And.imp_right hunvisited)⟩

/-! ## The steps of the orchestrator -/

@[simp] theorem boss_goTo (b : BossPhase) : (s.goTo b).boss = b := rfl

@[simp] theorem inbox_goTo (b : BossPhase) : (s.goTo b).inbox = s.inbox := rfl

@[simp] theorem workers_goTo (b : BossPhase) :
    (s.goTo b).workers = s.workers := rfl

@[simp] theorem hops_goTo (b : BossPhase) : (s.goTo b).hops = s.hops := rfl

/-- The orchestrator goes on without a message to a worker. -/
theorem RingInv.boss_goes_on (h : RingInv n m s) {b : BossPhase}
    {inbox : List RingMsg} (hproper : b.Proper n)
    (hfull : s.workers.length = n) (hsetups : b.setups n = s.boss.setups n)
    (hstops : b.stops n = s.boss.stops n)
    (hlaunched : b.launched = s.boss.launched)
    (hfinished : s.boss.finished = true → b.finished = true)
    (hlate : b.finished = true → s.hops.length = m + 1)
    (hinbox : inbox =
      if b = .awaiting ∧ s.hops.length = m + 1 then [.finished] else []) :
    RingInv n m ({ s with inbox := inbox }.goTo b) where
  proper := hproper
  count := h.count
  full _ := hfull
  hops := h.hops
  early hb := h.early (hlaunched ▸ hb)
  late := hlate
  inbox := hinbox
  workers := by
    intro i w hw
    refine (h.workers i w hw).congr ?_ hsetups.ge ?_ ?_ hfinished id
    · exact setupFor_congr hsetups i
    · simp only [hopFor, boss_goTo, hops_goTo, hlaunched]
    · simp only [stopFor, boss_goTo, hstops]

theorem RingInv.spawn (h : RingInv n m s) (hb : s.boss = .spawning)
    (hlt : s.workers.length < n) :
    RingInv n m { s with workers := s.workers ++ [⟨.waiting, []⟩] } where
  proper := h.proper
  count := by simpa using hlt
  full hne := absurd hb hne
  hops := h.hops
  early := h.early
  late := h.late
  inbox := h.inbox
  workers := by
    intro i w hw
    rw [List.getElem?_append] at hw
    split at hw
    · exact (h.workers i w hw).congr rfl le_rfl rfl rfl id id
    · have hwait : w = ⟨.waiting, []⟩ := by
        rw [List.getElem?_singleton] at hw
        split at hw
        · exact (Option.some.inj hw).symm
        · cases hw
      have hhops : s.hops = [] := h.early (by simp [hb, BossPhase.launched])
      subst hwait
      refine ⟨?_, ?_⟩
      · intro x hx
        simp [hhops] at hx
      · simp [setupFor, hopFor, stopFor, hb, BossPhase.setups,
          BossPhase.launched, BossPhase.stops]

/-- The orchestrator sends a message to worker `j` and goes on. -/
theorem RingInv.boss_sends (h : RingInv n m s) {b : BossPhase} {j : ℕ}
    {msg : RingMsg} (hproper : b.Proper n) (hfull : s.workers.length = n)
    (hlaunched : b.launched = false → s.boss.launched = false)
    (hlate : b.finished = true → s.hops.length = m + 1)
    (hinbox : s.inbox =
      if b = .awaiting ∧ s.hops.length = m + 1 then [.finished] else [])
    (hothers : ∀ i w, s.workers[i]? = some w → (i = j → w.gone = true) →
      WorkerInv n m ((s.send (.worker j) msg).goTo b) i w)
    (hreceiver : ∀ w, s.workers[j]? = some w → w.gone = false →
      WorkerInv n m ((s.send (.worker j) msg).goTo b) j
        ⟨w.phase, w.mailbox ++ [msg]⟩) :
    RingInv n m ((s.send (.worker j) msg).goTo b) where
  proper := hproper
  count := by simpa [length_send] using h.count
  full _ := by simpa [length_send] using hfull
  hops := by simpa using h.hops
  early hb := by simpa using h.early (hlaunched hb)
  late hb := by simpa using hlate hb
  inbox := by simpa using hinbox
  workers := by
    intro i w hw
    obtain ⟨w₀, hw₀, ⟨rfl, hgone⟩ | ⟨rfl, hgone, rfl⟩⟩ :=
      send_worker_cases (by simpa using hw)
    · exact hothers i w hw₀ hgone
    · exact hreceiver w₀ hw₀ hgone

theorem RingInv.set_up (h : RingInv n m s) {j : ℕ}
    (hb : s.boss = .settingUp j) (hj : j < n) :
    RingInv n m ((s.send (.worker j) (.setup (.worker
      ((j + 1) % s.workers.length)))).goTo (.settingUp (j + 1))) := by
  have hfull : s.workers.length = n := h.full (by simp [hb])
  have hhops : s.hops = [] := h.early (by simp [hb, BossPhase.launched])
  rw [hfull]
  apply h.boss_sends
  · exact hj
  · exact hfull
  · simp [hb, BossPhase.launched]
  · simp [BossPhase.finished]
  · simp [h.inbox, hb]
  · intro i w hw hgone
    have hold := h.workers i w hw
    by_cases hij : i = j
    · -- Nobody is gone yet.
      have hgone := hgone hij
      obtain ⟨phase, mailbox⟩ := w
      cases phase with
      | waiting | forwarding _ | returned _ => simp [RingWorker.gone] at hgone
      | exited r => simp [WorkerInv, ResultInv, hb, BossPhase.finished] at hold
    · have hlt : i < j + 1 ↔ i < j := by omega
      refine hold.congr ?_ ?_ ?_ ?_ ?_ ?_
      · simp [setupFor, hb, BossPhase.setups, hlt]
      · simp [hb, BossPhase.setups]
      · simp [hopFor, hb, BossPhase.launched]
      · simp [stopFor, hb, BossPhase.stops]
      · simp [hb, BossPhase.finished]
      · simp [Unvisited]
  · intro w hw hgone
    have hold := h.workers j w hw
    obtain ⟨phase, mailbox⟩ := w
    cases phase with
    | waiting =>
      obtain ⟨hun, hbox⟩ := hold
      refine ⟨by simpa [Unvisited] using hun, ?_⟩
      simp only [setupFor, hopFor, stopFor, hb, BossPhase.setups,
        BossPhase.launched, BossPhase.stops] at hbox
      simp [setupFor, hopFor, stopFor, BossPhase.setups, BossPhase.launched,
        BossPhase.stops, hbox]
    | forwarding next =>
      obtain ⟨-, hlt, -⟩ := hold
      simp [hb, BossPhase.setups] at hlt
    | returned r => simp [WorkerInv, ResultInv, hb, BossPhase.finished] at hold
    | exited r => simp [RingWorker.gone] at hgone

theorem RingInv.launch (hn : 0 < n) (h : RingInv n m s)
    (hb : s.boss = .launching) :
    RingInv n m ((s.send (.worker (n - 1)) (.hop m .orchestrator)).goTo
      .awaiting) := by
  have hfull : s.workers.length = n := h.full (by simp [hb])
  have hhops : s.hops = [] := h.early (by simp [hb, BossPhase.launched])
  have hlast : (n - 1) % n = n - 1 := Nat.mod_eq_of_lt (by omega)
  apply h.boss_sends
  · trivial
  · exact hfull
  · simp [BossPhase.launched]
  · simp [BossPhase.finished]
  · simp [h.inbox, hb, hhops]
  · intro i w hw hgone
    have hold := h.workers i w hw
    by_cases hij : i = n - 1
    · have hgone := hgone hij
      obtain ⟨phase, mailbox⟩ := w
      cases phase with
      | waiting | forwarding _ | returned _ => simp [RingWorker.gone] at hgone
      | exited r => simp [WorkerInv, ResultInv, hb, BossPhase.finished] at hold
    · refine hold.congr ?_ ?_ ?_ ?_ ?_ ?_
      · exact setupFor_congr (by simp [hb, BossPhase.setups]) i
      · simp [hb, BossPhase.setups]
      · simp [hopFor, hb, BossPhase.launched, hhops, hlast, Ne.symm hij]
      · simp [stopFor, hb, BossPhase.stops]
      · simp [hb, BossPhase.finished]
      · simp [Unvisited]
  · intro w hw hgone
    have hold := h.workers (n - 1) w hw
    obtain ⟨phase, mailbox⟩ := w
    cases phase with
    | waiting =>
      obtain ⟨hun, hbox⟩ := hold
      refine ⟨by simpa [Unvisited] using hun, ?_⟩
      rw [setupFor_congr (s := s) (by simp [hb, BossPhase.setups])]
      simp only [hopFor, stopFor, hb, BossPhase.launched,
        BossPhase.stops] at hbox
      simp [hopFor, stopFor, BossPhase.launched, BossPhase.stops, hhops, hlast,
        hbox]
    | forwarding next =>
      obtain ⟨hnext, hlt, hbox⟩ := hold
      refine ⟨hnext, by simpa [hb, BossPhase.setups] using hlt, ?_⟩
      simp only [hopFor, stopFor, hb, BossPhase.launched,
        BossPhase.stops] at hbox
      simp [hopFor, stopFor, BossPhase.launched, BossPhase.stops, hhops, hlast,
        hbox]
    | returned r => simp [WorkerInv, ResultInv, hb, BossPhase.finished] at hold
    | exited r => simp [RingWorker.gone] at hgone

/-- After the last hop none is on its way. -/
theorem hopFor_of_done (h : s.hops.length = m + 1) (i : ℕ) :
    hopFor n m s i = [] := by
  rw [hopFor, if_neg]
  rintro ⟨-, hle, -⟩
  omega

theorem RingInv.stop_worker (h : RingInv n m s) {j : ℕ}
    (hb : s.boss = .stopping j) (hj : j < n) :
    RingInv n m ((s.send (.worker j) .stop).goTo (.stopping (j + 1))) := by
  have hfull : s.workers.length = n := h.full (by simp [hb])
  have hdone : s.hops.length = m + 1 := h.late (by simp [hb, BossPhase.finished])
  have hdone' : ((s.send (.worker j) .stop).goTo
      (.stopping (j + 1))).hops.length = m + 1 := by simpa using hdone
  apply h.boss_sends
  · exact hj
  · exact hfull
  · simp [BossPhase.launched]
  · exact fun _ => hdone
  · simp [h.inbox, hb]
  · intro i w hw hgone
    have hold := h.workers i w hw
    by_cases hij : i = j
    · have hgone := hgone hij
      obtain ⟨phase, mailbox⟩ := w
      cases phase with
      | waiting | forwarding _ | returned _ => simp [RingWorker.gone] at hgone
      | exited r =>
        exact ⟨rfl, hold.2.imp_right (And.imp_right (by simp [Unvisited]))⟩
    · have hlt : i < j + 1 ↔ i < j := by omega
      refine hold.congr ?_ ?_ ?_ ?_ ?_ ?_
      · exact setupFor_congr (by simp [hb, BossPhase.setups]) i
      · simp [hb, BossPhase.setups]
      · rw [hopFor_of_done hdone, hopFor_of_done hdone']
      · simp [stopFor, hb, BossPhase.stops, hlt]
      · simp [BossPhase.finished]
      · simp [Unvisited]
  · intro w hw hgone
    have hold := h.workers j w hw
    obtain ⟨phase, mailbox⟩ := w
    cases phase with
    | waiting =>
      obtain ⟨hun, hbox⟩ := hold
      refine ⟨by simpa [Unvisited] using hun, ?_⟩
      rw [hopFor_of_done hdone] at hbox
      rw [hopFor_of_done hdone',
        setupFor_congr (s := s) (by simp [hb, BossPhase.setups])]
      simp only [stopFor, hb, BossPhase.stops] at hbox
      simp [stopFor, BossPhase.stops, hbox]
    | forwarding next =>
      obtain ⟨hnext, hlt, hbox⟩ := hold
      refine ⟨hnext, hj, ?_⟩
      rw [hopFor_of_done hdone] at hbox
      rw [hopFor_of_done hdone']
      simp only [stopFor, hb, BossPhase.stops] at hbox
      simp [stopFor, BossPhase.stops, hbox]
    | returned r =>
      exact ⟨rfl, hold.2.imp_right (And.imp_right (by simp [Unvisited]))⟩
    | exited r => simp [RingWorker.gone] at hgone

theorem RingInv.bossStep (hn : 0 < n) (h : RingInv n m s)
    (hstep : s.bossStep n m true = some t) : RingInv n m t := by
  unfold RingState.bossStep at hstep
  split at hstep
  · rename_i hb
    split at hstep
    · rename_i hlt
      obtain rfl := Option.some.inj hstep
      exact h.spawn hb hlt
    · rename_i hlt
      obtain rfl := Option.some.inj hstep
      have hcount := h.count
      apply h.boss_goes_on
      · exact Nat.zero_le n
      · omega
      · simp [hb, BossPhase.setups]
      · simp [hb, BossPhase.stops]
      · simp [hb, BossPhase.launched]
      · simp [hb, BossPhase.finished]
      · simp [BossPhase.finished]
      · simp [h.inbox, hb]
  · rename_i j hb
    have hfull : s.workers.length = n := h.full (by simp [hb])
    have hle : j ≤ n := by simpa [hb, BossPhase.Proper] using h.proper
    split at hstep
    · rename_i hlt
      obtain rfl := Option.some.inj hstep
      exact h.set_up hb hlt
    · obtain rfl := Option.some.inj hstep
      apply h.boss_goes_on
      · trivial
      · exact hfull
      · simp [hb, BossPhase.setups]
        omega
      · simp [hb, BossPhase.stops]
      · simp [hb, BossPhase.launched]
      · simp [hb, BossPhase.finished]
      · simp [BossPhase.finished]
      · simp [h.inbox, hb]
  · rename_i hb
    rw [if_neg (by omega)] at hstep
    obtain rfl := Option.some.inj hstep
    exact h.launch hn hb
  · rename_i hb
    have hfull : s.workers.length = n := h.full (by simp [hb])
    split at hstep
    · cases hstep
    · rename_i msg rest hbox
      obtain rfl := Option.some.inj hstep
      -- Nothing but `Finished` reaches the orchestrator.
      have hin := h.inbox
      rw [hbox] at hin
      split at hin
      · rename_i hdone
        obtain ⟨rfl, rfl⟩ := List.cons.inj hin
        apply h.boss_goes_on
        · exact Nat.zero_le n
        · exact hfull
        · simp [hb, BossPhase.setups]
        · simp [hb, BossPhase.stops]
        · simp [hb, BossPhase.launched]
        · simp [BossPhase.finished]
        · exact fun _ => hdone.2
        · simp
      · cases hin
  · rename_i j hb
    have hfull : s.workers.length = n := h.full (by simp [hb])
    have hle : j ≤ n := by simpa [hb, BossPhase.Proper] using h.proper
    rw [hfull] at hstep
    split at hstep
    · rename_i hlt
      obtain rfl := Option.some.inj hstep
      exact h.stop_worker hb hlt
    · obtain rfl := Option.some.inj hstep
      apply h.boss_goes_on
      · rfl
      · exact hfull
      · simp [hb, BossPhase.setups]
      · simp [hb, BossPhase.stops]
        omega
      · simp [hb, BossPhase.launched]
      · simp [BossPhase.finished]
      · exact fun _ => h.late (by simp [hb, BossPhase.finished])
      · simp [h.inbox, hb]
  · rename_i r hb
    obtain rfl := Option.some.inj hstep
    have hfull : s.workers.length = n := h.full (by simp [hb])
    apply h.boss_goes_on
    · simpa [hb, BossPhase.Proper] using h.proper
    · exact hfull
    · simp [hb, BossPhase.setups]
    · simp [hb, BossPhase.stops]
    · simp [hb, BossPhase.launched]
    · simp [BossPhase.finished]
    · exact fun _ => h.late (by simp [hb, BossPhase.finished])
    · simp [h.inbox, hb]
  · cases hstep
  · cases hstep

/-! ## The steps of a worker -/

theorem setups_of_launched (h : s.boss.launched = true) :
    s.boss.setups n = n := by
  cases hb : s.boss <;> simp [hb, BossPhase.launched, BossPhase.setups] at h ⊢

theorem launched_of_finished (h : s.boss.finished = true) :
    s.boss.launched = true := by
  cases hb : s.boss <;> simp [hb, BossPhase.finished, BossPhase.launched] at h ⊢

theorem finished_of_stops (h : i < s.boss.stops n) :
    s.boss.finished = true := by
  cases hb : s.boss <;> simp [hb, BossPhase.finished, BossPhase.stops] at h ⊢

theorem awaiting_of_launched (h : s.boss.launched = true)
    (hfinished : s.boss.finished = false) : s.boss = .awaiting := by
  cases hb : s.boss <;>
    simp [hb, BossPhase.finished, BossPhase.launched] at h hfinished ⊢

theorem stopFor_of_not_finished (h : s.boss.finished = false) (i : ℕ) :
    stopFor n s i = [] := by
  rw [stopFor, if_neg]
  intro hi
  rw [finished_of_stops hi] at h
  cases h

theorem hopFor_of_not_launched (h : s.boss.launched = false) (i : ℕ) :
    hopFor n m s i = [] := by
  simp [hopFor, h]

/-- Nobody is gone before the hop has come to its end. -/
theorem RingInv.finished_of_gone (h : RingInv n m s)
    (hw : s.workers[i]? = some w) (hgone : w.gone = true) :
    s.boss.finished = true := by
  have hold := h.workers i w hw
  obtain ⟨phase, mailbox⟩ := w
  cases phase with
  | waiting | forwarding _ | returned _ => simp [RingWorker.gone] at hgone
  | exited r => exact hold.1

theorem RingInv.set_worker (h : RingInv n m s) (hw : WorkerInv n m s i w) :
    RingInv n m (s.setWorker i w) where
  proper := h.proper
  count := by simpa [RingState.setWorker] using h.count
  full hne := by simpa [RingState.setWorker] using h.full hne
  hops := h.hops
  early := h.early
  late := h.late
  inbox := h.inbox
  workers := by
    intro j w' hw'
    rw [RingState.setWorker, List.getElem?_set] at hw'
    have hstay : ∀ w, WorkerInv n m s j w →
        WorkerInv n m (s.setWorker i w) j w := fun _ hold => hold
    split at hw'
    · rename_i hij
      subst hij
      split at hw'
      · obtain rfl := Option.some.inj hw'
        exact hw
      · cases hw'
    · exact h.workers j w' hw'

theorem RingInv.wait (h : RingInv n m s) {msg : RingMsg} {rest : List RingMsg}
    (hw : s.workers[i]? = some ⟨.waiting, msg :: rest⟩) :
    WorkerInv n m s i ⟨s.onWaiting msg, rest⟩ := by
  obtain ⟨hun, hbox⟩ := h.workers i _ hw
  have hlt : i < s.workers.length := (List.getElem?_eq_some_iff.1 hw).1
  by_cases hsetup : i < s.boss.setups n
  · rw [setupFor, if_pos hsetup] at hbox
    obtain ⟨rfl, rfl⟩ := List.cons.inj hbox
    cases hres : s.resolves (.worker ((i + 1) % n)) with
    | true =>
      have hphase : s.onWaiting (.setup (.worker ((i + 1) % n))) =
          .forwarding (.worker ((i + 1) % n)) := by simp [RingState.onWaiting, hres]
      rw [hphase]
      exact ⟨rfl, hsetup, rfl⟩
    | false =>
      have hphase : s.onWaiting (.setup (.worker ((i + 1) % n))) =
          .returned (.badPid (.worker ((i + 1) % n))) := by
        simp [RingState.onWaiting, hres]
      rw [hphase]
      -- The neighbour is gone, so the hop has come to its end.
      have hfull : s.workers.length = n := h.full fun hb => by
        simp [hb, BossPhase.setups] at hsetup
      have hj : (i + 1) % n < s.workers.length := by
        rw [hfull]
        exact Nat.mod_lt _ (by omega)
      have hget := List.getElem?_eq_getElem hj
      rw [RingState.resolves, hget] at hres
      exact ⟨h.finished_of_gone hget (by simpa using hres), Or.inr ⟨rfl, hun⟩⟩
  · -- Without a `Setup` the mailbox is empty.
    have hlaunched : s.boss.launched = false := by
      by_contra hl
      rw [Bool.not_eq_false] at hl
      rw [setups_of_launched hl] at hsetup
      have hcount := h.count
      omega
    have hfinished : s.boss.finished = false := by
      by_contra hf
      rw [Bool.not_eq_false] at hf
      rw [launched_of_finished hf] at hlaunched
      cases hlaunched
    rw [setupFor, if_neg hsetup, hopFor_of_not_launched hlaunched,
      stopFor_of_not_finished hfinished] at hbox
    cases hbox

theorem getElem?_route {k : ℕ} (h : k ≤ m) :
    (route n m)[k]? = some ((n - 1 + k) % n, m - k) := by
  have hk : k < m + 1 := by omega
  simp [route, hk]

/-- Worker `i` has passed the hop on, to its neighbour or to the
orchestrator. -/
theorem RingInv.passed_on (h : RingInv n m s) {next : RingPid}
    {mailbox : List RingMsg}
    (hw : s.workers[i]? = some ⟨.forwarding next, mailbox⟩)
    (hb : s.boss = .awaiting) (hlen : s.hops.length ≤ m)
    (hi : (n - 1 + s.hops.length) % n = i) (htboss : t.boss = .awaiting)
    (htlen : t.workers.length = s.workers.length)
    (hthops : t.hops = s.hops ++ [(i, m - s.hops.length)])
    (htinbox : t.inbox = if t.hops.length = m + 1 then [.finished] else [])
    (htworkers : ∀ j w, t.workers[j]? = some w → ∃ w₀,
      (j = i ∧ w₀ = ⟨.forwarding next, []⟩ ∨ j ≠ i ∧ s.workers[j]? = some w₀) ∧
      w = ⟨w₀.phase, w₀.mailbox ++ hopFor n m t j⟩) :
    RingInv n m t where
  proper := by rw [htboss]; trivial
  count := htlen ▸ h.count
  full _ := htlen.trans (h.full (by simp [hb]))
  hops := by
    have hlength : t.hops.length = s.hops.length + 1 := by simp [hthops]
    rw [hlength, List.take_add_one, ← h.hops, getElem?_route hlen, hi, hthops]
    rfl
  early hl := by simp [htboss, BossPhase.launched] at hl
  late hf := by simp [htboss, BossPhase.finished] at hf
  inbox := by simpa [htboss] using htinbox
  workers := by
    intro j w hw'
    obtain ⟨w₀, hw₀, rfl⟩ := htworkers j w hw'
    have hstop : ∀ s : RingState, s.boss = .awaiting → stopFor n s j = [] := by
      intro s hs
      exact stopFor_of_not_finished (by simp [hs, BossPhase.finished]) j
    obtain ⟨hnext, hsetup, -⟩ := h.workers i _ hw
    rcases hw₀ with ⟨rfl, rfl⟩ | ⟨hne, hw₀⟩
    · refine ⟨hnext, by simpa [hb, htboss] using hsetup, ?_⟩
      simp [hstop t htboss]
    · have hold := h.workers j w₀ hw₀
      have hnone : hopFor n m s j = [] := by
        rw [hopFor, if_neg]
        exact fun hx => hne (hx.2.2.symm.trans hi)
      obtain ⟨phase, mailbox⟩ := w₀
      cases phase with
      | waiting =>
        obtain ⟨hun, hbox⟩ := hold
        rw [hnone, hstop s hb] at hbox
        refine ⟨?_, ?_⟩
        · intro x hx
          rw [hthops, List.mem_append, List.mem_singleton] at hx
          rcases hx with hx | rfl
          · exact hun x hx
          · exact Ne.symm hne
        · rw [hstop t htboss, setupFor_congr (s := s) (by simp [hb, htboss])]
          simpa using hbox
      | forwarding next' =>
        obtain ⟨hnext', hsetup', hbox⟩ := hold
        rw [hnone, hstop s hb] at hbox
        refine ⟨hnext', by simpa [hb, htboss] using hsetup', ?_⟩
        rw [hstop t htboss]
        simpa using hbox
      | returned r => simp [WorkerInv, ResultInv, hb, BossPhase.finished] at hold
      | exited r => simp [WorkerInv, ResultInv, hb, BossPhase.finished] at hold

theorem getElem?_setWorker (w : RingWorker) {j : ℕ} {w' : RingWorker}
    (h : (s.setWorker i w).workers[j]? = some w') :
    j = i ∧ w' = w ∨ j ≠ i ∧ s.workers[j]? = some w' := by
  rw [RingState.setWorker, List.getElem?_set] at h
  split at h
  · rename_i hij
    split at h
    · exact Or.inl ⟨hij.symm, (Option.some.inj h).symm⟩
    · cases h
  · rename_i hij
    exact Or.inr ⟨Ne.symm hij, h⟩

/-- The last hop: `Finished` goes to the orchestrator. -/
theorem RingInv.forward_last (h : RingInv n m s) {next : RingPid}
    {mailbox : List RingMsg}
    (hw : s.workers[i]? = some ⟨.forwarding next, mailbox⟩)
    (hb : s.boss = .awaiting) (hlen : s.hops.length ≤ m)
    (hi : (n - 1 + s.hops.length) % n = i) (hk : m - s.hops.length = 0) :
    RingInv n m (s.forwarded i next (.hop 0 .orchestrator) []) := by
  have hstep : s.forwarded i next (.hop 0 .orchestrator) [] =
      ((s.setWorker i ⟨.forwarding next, []⟩).note [(i, 0)]).send
        .orchestrator .finished := by
    simp [RingState.forwarded, RingState.onForwarding, RingState.hopOf,
      RingState.resolves, hb, BossPhase.gone]
  have hinbox : s.inbox = [] := by
    rw [h.inbox, if_neg]
    omega
  rw [hstep]
  apply h.passed_on hw hb hlen hi
  · rw [boss_send]
    exact hb
  · simp [length_send, RingState.note, RingState.setWorker]
  · simp [RingState.note, RingState.setWorker, hk]
  · have hlen : s.hops.length = m := by omega
    simp [RingState.send, RingState.note, RingState.setWorker, hb,
      BossPhase.gone, hinbox, hlen]
  · intro j w hj
    have hj' : (s.setWorker i ⟨.forwarding next, []⟩).workers[j]? =
        some w := by
      simpa [RingState.send, RingState.note, RingState.setWorker, hb,
        BossPhase.gone] using hj
    refine ⟨w, getElem?_setWorker _ hj', ?_⟩
    rw [hopFor_of_done, List.append_nil]
    simp [RingState.note, RingState.setWorker]
    omega

/-- A hop that has some way to go is sent to the neighbour. -/
theorem RingInv.forward_next (h : RingInv n m s) {next : RingPid} {k : ℕ}
    {mailbox : List RingMsg}
    (hw : s.workers[i]? = some ⟨.forwarding next, mailbox⟩)
    (hnext : next = .worker ((i + 1) % n)) (hb : s.boss = .awaiting)
    (hlen : s.hops.length ≤ m) (hi : (n - 1 + s.hops.length) % n = i)
    (hk : m - s.hops.length = k + 1) :
    RingInv n m (s.forwarded i next (.hop (k + 1) .orchestrator) []) := by
  have hstep : s.forwarded i next (.hop (k + 1) .orchestrator) [] =
      ((s.setWorker i ⟨.forwarding next, []⟩).note [(i, k + 1)]).send
        (.worker ((i + 1) % n)) (.hop k .orchestrator) := by
    subst hnext
    rfl
  have hinbox : s.inbox = [] := by
    rw [h.inbox, if_neg]
    omega
  have hround : (n - 1 + (s.hops.length + 1)) % n = (i + 1) % n := by
    rw [← Nat.add_assoc, Nat.add_mod, hi, Nat.add_mod_mod]
  rw [hstep]
  apply h.passed_on hw hb hlen hi
  · rw [boss_send]
    exact hb
  · simp [length_send, RingState.note, RingState.setWorker]
  · simp [RingState.note, RingState.setWorker, hk]
  · have hlen : s.hops.length ≠ m := by omega
    simp [RingState.note, RingState.setWorker, hinbox, hlen]
  · intro j w hj
    obtain ⟨w₀, hw₀, hcase⟩ := send_worker_cases hj
    have hw₀' : (s.setWorker i ⟨.forwarding next, []⟩).workers[j]? =
        some w₀ := hw₀
    refine ⟨w₀, getElem?_setWorker _ hw₀', ?_⟩
    have hfor : hopFor n m
        (((s.setWorker i ⟨.forwarding next, []⟩).note [(i, k + 1)]).send
          (.worker ((i + 1) % n)) (.hop k .orchestrator)) j =
        if (i + 1) % n = j then [.hop k .orchestrator] else [] := by
      have hle : s.hops.length + 1 ≤ m := by omega
      have hrest : m - (s.hops.length + 1) = k := by omega
      simp [hopFor, boss_send, RingState.note, RingState.setWorker, hb,
        BossPhase.launched, hle, hround, hrest]
    rw [hfor]
    rcases hcase with ⟨rfl, hgone⟩ | ⟨rfl, -, rfl⟩
    · by_cases hj : j = (i + 1) % n
      · -- Nobody is gone while the hop is on its way.
        exfalso
        have hgone := hgone hj
        rcases getElem?_setWorker _ hw₀' with ⟨-, rfl⟩ | ⟨-, hold⟩
        · cases hgone
        · have hfinished := h.finished_of_gone hold hgone
          rw [hb] at hfinished
          cases hfinished
      · rw [if_neg (Ne.symm hj), List.append_nil]
    · rw [if_pos rfl]

/-- A worker that waits for a message has got the hop, or is told to stop. -/
theorem RingInv.forward (h : RingInv n m s) {next : RingPid} {msg : RingMsg}
    {rest : List RingMsg}
    (hw : s.workers[i]? = some ⟨.forwarding next, msg :: rest⟩) :
    RingInv n m (s.forwarded i next msg rest) := by
  obtain ⟨hnext, hsetup, hbox⟩ := h.workers i _ hw
  by_cases hhop : s.boss.launched = true ∧ s.hops.length ≤ m ∧
      (n - 1 + s.hops.length) % n = i
  · have hfinished : s.boss.finished = false := by
      by_contra hf
      rw [Bool.not_eq_false] at hf
      have hdone := h.late hf
      omega
    have hb : s.boss = .awaiting := awaiting_of_launched hhop.1 hfinished
    rw [hopFor, if_pos hhop, stopFor_of_not_finished hfinished,
      List.append_nil] at hbox
    obtain ⟨rfl, rfl⟩ := List.cons.inj hbox
    cases hk : m - s.hops.length with
    | zero => exact h.forward_last hw hb hhop.2.1 hhop.2.2 hk
    | succ k => exact h.forward_next hw hnext hb hhop.2.1 hhop.2.2 hk
  · rw [hopFor, if_neg hhop, List.nil_append, stopFor] at hbox
    split at hbox
    · rename_i hstop
      obtain ⟨rfl, rfl⟩ := List.cons.inj hbox
      have hstep : s.forwarded i next .stop [] =
          s.setWorker i ⟨.returned .ok, []⟩ := by
        simp [RingState.forwarded, RingState.onForwarding, RingState.hopOf,
          RingState.note, RingState.setWorker]
      rw [hstep]
      exact h.set_worker ⟨finished_of_stops hstop, Or.inl rfl⟩
    · cases hbox

theorem RingInv.workerStep (h : RingInv n m s)
    (hstep : s.workerStep i = some t) : RingInv n m t := by
  unfold RingState.workerStep at hstep
  split at hstep
  · cases hstep
  · rename_i w hw
    have hold := h.workers i w hw
    obtain ⟨phase, mailbox⟩ := w
    cases phase with
    | returned r =>
      obtain rfl := Option.some.inj hstep
      exact h.set_worker hold
    | exited r => cases hstep
    | waiting =>
      cases mailbox with
      | nil => cases hstep
      | cons msg rest =>
        obtain rfl := Option.some.inj hstep
        exact h.set_worker (h.wait hw)
    | forwarding next =>
      cases mailbox with
      | nil => cases hstep
      | cons msg rest =>
        obtain rfl := Option.some.inj hstep
        exact h.forward hw

theorem ringInv_step (hn : 0 < n) {a : RingAction} (h : RingInv n m s)
    (ha : Spawns s a) (hstep : step n m s a = some t) : RingInv n m t := by
  cases a with
  | boss spawned =>
    cases spawned with
    | false => exact absurd rfl ha
    | true => exact h.bossStep hn hstep
  | worker i => exact h.workerStep hstep

theorem ringInv_run (hn : 0 < n) (h : Run (step n m) Spawns start s) :
    RingInv n m s :=
  h.invariant (fun hs ha hnext => ringInv_step hn hs ha hnext) ringInv_start

/-! ## How a run ends -/

/-- What the worker has returned. -/
def RingWorker.result (w : RingWorker) : Option RingResult :=
  match w.phase with
  | .returned r | .exited r => some r
  | _ => none

theorem workerStep_of_mailbox {phase : WorkerPhase} {msg : RingMsg}
    {rest : List RingMsg} (hw : s.workers[i]? = some ⟨phase, msg :: rest⟩)
    (hphase : (phase = .waiting) ∨ ∃ next, phase = .forwarding next) :
    s.workerStep i ≠ none := by
  unfold RingState.workerStep
  rw [hw]
  rcases hphase with rfl | ⟨next, rfl⟩ <;> simp

/-- A worker that has a message, or that has returned, is not stuck. -/
theorem exited_of_stuck {mailbox : List RingMsg} {phase : WorkerPhase}
    (hw : s.workers[i]? = some ⟨phase, mailbox⟩) (hstuck : s.workerStep i = none)
    (hmail : phase = .waiting ∨ (∃ next, phase = .forwarding next) →
      mailbox ≠ []) : ∃ r, phase = .exited r := by
  have htake : phase = .waiting ∨ (∃ next, phase = .forwarding next) → False := by
    intro hphase
    obtain ⟨msg, rest, rfl⟩ := List.exists_cons_of_ne_nil (hmail hphase)
    exact workerStep_of_mailbox hw hphase hstuck
  cases phase with
  | waiting => exact absurd (Or.inl rfl) htake
  | forwarding next => exact absurd (Or.inr ⟨next, rfl⟩) htake
  | returned r =>
    rw [RingState.workerStep, hw] at hstuck
    cases hstuck
  | exited r => exact ⟨r, rfl⟩

/-- If only workers that the hop does not visit are held back, everybody else
comes to an end. -/
theorem RingInv.stuck (hn : 0 < n) (h : RingInv n m s) (held : ℕ → Prop)
    (hroute : ∀ k, k ≤ m → ¬ held ((n - 1 + k) % n))
    (hboss : s.bossStep n m true = none)
    (hworkers : ∀ i, ¬ held i → s.workerStep i = none) :
    s.boss = .exited .ok ∧
      ∀ i w, ¬ held i → s.workers[i]? = some w → ∃ r, w.phase = .exited r := by
  have hnever : s.boss ≠ .awaiting := by
    intro hb
    have hempty : s.inbox = [] := by
      cases hin : s.inbox with
      | nil => rfl
      | cons msg rest =>
        simp [RingState.bossStep, hb, hin] at hboss
    have hlen : s.hops.length ≤ m := by
      have hle := h.length_hops_le
      have hin := h.inbox
      rw [hempty, hb] at hin
      by_contra hlt
      rw [if_pos ⟨rfl, by omega⟩] at hin
      cases hin
    -- The hop waits at a worker that is not held back.
    have hfull : s.workers.length = n := h.full (by simp [hb])
    have hj : (n - 1 + s.hops.length) % n < s.workers.length := by
      rw [hfull]
      exact Nat.mod_lt _ hn
    obtain ⟨⟨phase, mailbox⟩, hget⟩ :
        ∃ w, s.workers[(n - 1 + s.hops.length) % n]? = some w :=
      ⟨_, List.getElem?_eq_getElem hj⟩
    have hold := h.workers _ _ hget
    have hhop : hopFor n m s ((n - 1 + s.hops.length) % n) ≠ [] := by
      simp [hopFor, hb, BossPhase.launched, hlen]
    obtain ⟨r, rfl⟩ := exited_of_stuck hget
      (hworkers _ (hroute _ hlen)) (by
        rintro (rfl | ⟨next, rfl⟩)
        · have hbox : mailbox = _ := hold.2
          simp [hbox, hhop]
        · have hbox : mailbox = _ := hold.2.2
          simp [hbox, hhop])
    simp [WorkerInv, ResultInv, hb, BossPhase.finished] at hold
  have hexited : s.boss = .exited .ok := by
    have hproper := h.proper
    unfold RingState.bossStep at hboss
    cases hb : s.boss with
    | awaiting => exact absurd hb hnever
    | exited r =>
      rw [hb] at hproper
      rw [show r = .ok from hproper]
    | trapped =>
      rw [hb] at hproper
      exact absurd hproper id
    | spawning =>
      rw [hb] at hboss
      simp only at hboss
      split at hboss <;> simp at hboss
    | settingUp i =>
      rw [hb] at hboss
      simp only at hboss
      split at hboss <;> cases hboss
    | launching =>
      rw [hb] at hboss
      simp only at hboss
      split at hboss <;> cases hboss
    | stopping i =>
      rw [hb] at hboss
      simp only at hboss
      split at hboss <;> cases hboss
    | returned r =>
      rw [hb] at hboss
      cases hboss
  refine ⟨hexited, ?_⟩
  intro i w hi hw
  have hold := h.workers i w hw
  have hlt : i < n := by
    have hlen := (List.getElem?_eq_some_iff.1 hw).1
    rwa [h.full (by simp [hexited])] at hlen
  obtain ⟨phase, mailbox⟩ := w
  refine exited_of_stuck hw (hworkers i hi) ?_
  rintro (rfl | ⟨next, rfl⟩)
  · have hbox : mailbox = _ := hold.2
    simp [hbox, setupFor, hexited, BossPhase.setups, hlt]
  · have hbox : mailbox = _ := hold.2.2
    simp [hbox, stopFor, hexited, BossPhase.stops, hlt]

/-- The hop has visited every worker if it has made a round. -/
theorem mem_route (hi : i < n) (hm : n ≤ m + 1) : ∃ h ∈ route n m, h.1 = i := by
  have hround : (n - 1 + (i + 1) % n) % n = i := by
    rw [Nat.add_mod_mod]
    have hsum : n - 1 + (i + 1) = i + n := by omega
    rw [hsum, Nat.add_mod_right, Nat.mod_eq_of_lt hi]
  have hlt : (i + 1) % n < n := Nat.mod_lt _ (by omega)
  refine ⟨(i, m - (i + 1) % n), ?_, rfl⟩
  rw [route, List.mem_map]
  exact ⟨(i + 1) % n, List.mem_range.2 (by omega), by rw [hround]⟩

theorem RingInv.hops_of_finished (h : RingInv n m s)
    (hfinished : s.boss.finished = true) : s.hops = route n m := by
  have hhops := h.hops
  rwa [h.late hfinished, ← length_route n m, List.take_length] at hhops

theorem RingInv.result (h : RingInv n m s) (hw : s.workers[i]? = some w)
    {r : RingResult} (hr : w.result = some r) :
    r = .ok ∨ r = .badPid (.worker ((i + 1) % n)) ∧
      ∀ x ∈ route n m, x.1 ≠ i := by
  have hold := h.workers i w hw
  have hresult : ResultInv n s i r := by
    obtain ⟨phase, mailbox⟩ := w
    cases phase with
    | waiting | forwarding _ => cases hr
    | returned r' | exited r' =>
      obtain rfl := Option.some.inj hr
      exact hold
  rw [← h.hops_of_finished hresult.1]
  exact hresult.2

theorem forwarded_cases (i : ℕ) (next : RingPid) (msg : RingMsg)
    (rest : List RingMsg) :
    s.forwarded i next msg rest =
        (s.setWorker i ⟨(s.onForwarding next msg).1, rest⟩).note
          (RingState.hopOf i msg) ∨
      ∃ p out, s.forwarded i next msg rest =
        ((s.setWorker i ⟨(s.onForwarding next msg).1, rest⟩).note
          (RingState.hopOf i msg)).send p out := by
  unfold RingState.forwarded
  cases (s.onForwarding next msg).2 with
  | none => exact Or.inl rfl
  | some out => exact Or.inr ⟨out.1, out.2, rfl⟩

/-- The phase of a worker that takes no step is as it began. -/
theorem waiting_step {a : RingAction} {j : ℕ} (ha : a ≠ .worker j)
    (h : ∀ w, s.workers[j]? = some w → w.phase = .waiting)
    (hstep : step n m s a = some t) :
    ∀ w, t.workers[j]? = some w → w.phase = .waiting := by
  have hsend : ∀ s : RingState, (∀ w, s.workers[j]? = some w →
      w.phase = .waiting) → ∀ p msg w, (s.send p msg).workers[j]? = some w →
      w.phase = .waiting := by
    intro s hs p msg w hw
    cases p with
    | orchestrator =>
      refine hs w ?_
      unfold RingState.send at hw
      simp only at hw
      split at hw <;> exact hw
    | worker i =>
      obtain ⟨w₀, hw₀, ⟨rfl, -⟩ | ⟨-, -, rfl⟩⟩ := send_worker_cases hw
      · exact hs w hw₀
      · exact hs w₀ hw₀
  cases a with
  | boss spawned =>
    have hstep : s.bossStep n m spawned = some t := hstep
    unfold RingState.bossStep at hstep
    split at hstep
    · split at hstep
      · split at hstep
        · obtain rfl := Option.some.inj hstep
          intro w hw
          rw [List.getElem?_append] at hw
          split at hw
          · exact h w hw
          · rw [List.getElem?_singleton] at hw
            split at hw
            · rw [← Option.some.inj hw]
            · cases hw
        · obtain rfl := Option.some.inj hstep
          exact h
      · obtain rfl := Option.some.inj hstep
        exact h
    · split at hstep <;> obtain rfl := Option.some.inj hstep
      · exact hsend s h _ _
      · exact h
    · split at hstep <;> obtain rfl := Option.some.inj hstep
      · exact h
      · exact hsend s h _ _
    · split at hstep
      · cases hstep
      · obtain rfl := Option.some.inj hstep
        exact h
    · split at hstep <;> obtain rfl := Option.some.inj hstep
      · exact hsend s h _ _
      · exact h
    · obtain rfl := Option.some.inj hstep
      exact h
    · cases hstep
    · cases hstep
  | worker i =>
    have hne : j ≠ i := fun hji => ha (hji ▸ rfl)
    have hset : ∀ w', ∀ w, (s.setWorker i w').workers[j]? = some w →
        w.phase = .waiting := by
      intro w' w hw
      rcases getElem?_setWorker w' hw with ⟨heq, -⟩ | ⟨-, hw⟩
      · exact absurd heq hne
      · exact h w hw
    have hstep : s.workerStep i = some t := hstep
    unfold RingState.workerStep at hstep
    split at hstep
    · cases hstep
    · split at hstep
      · obtain rfl := Option.some.inj hstep
        exact hset _
      · cases hstep
      · split at hstep
        · cases hstep
        · obtain rfl := Option.some.inj hstep
          exact hset _
      · rename_i next hphase
        split at hstep
        · cases hstep
        · rename_i msg rest hbox
          obtain rfl := Option.some.inj hstep
          rcases forwarded_cases (s := s) i next msg rest with heq | ⟨p, out, heq⟩
          · rw [heq]
            exact hset _
          · rw [heq]
            refine hsend _ ?_ p out
            exact hset ⟨(s.onForwarding next msg).1, rest⟩

/-- A worker that the hop does not reach, and that is slow, finds its neighbour
gone. -/
theorem exists_badPid (hn : 0 < n) (hm : m + 1 < n) :
    ∃ s, Run (step n m) Spawns start s ∧ ∃ w ∈ s.workers,
      w.result = some (.badPid (.worker (n - 1))) := by
  -- Everybody but worker `n - 2` runs to the end.
  obtain ⟨t, hrun, hstuck⟩ : ∃ t, Run (step n m)
      (fun _ a => a ≠ .boss false ∧ a ≠ .worker (n - 2)) start t ∧
      ∀ a, a ≠ .boss false ∧ a ≠ .worker (n - 2) → step n m t a = none :=
    Run.exists_stuck (RingState.weight n m) (fun hnext => weight_step hnext) start
  have hspawns : Run (step n m) Spawns start t := hrun.mono fun ha => ha.1
  have h := ringInv_run hn hspawns
  have hwait : ∀ w, t.workers[n - 2]? = some w → w.phase = .waiting := by
    have hstep : ∀ {s s' : RingState} {a : RingAction},
        (∀ w, s.workers[n - 2]? = some w → w.phase = .waiting) →
        (a ≠ .boss false ∧ a ≠ .worker (n - 2)) → step n m s a = some s' →
        ∀ w, s'.workers[n - 2]? = some w → w.phase = .waiting :=
      fun hs ha hnext => waiting_step ha.2 hs hnext
    exact hrun.invariant hstep (by simp [start])
  obtain ⟨hboss, hothers⟩ := h.stuck hn (fun i => i = n - 2) (by
      intro k hk hheld
      rcases Nat.eq_zero_or_pos k with rfl | hpos
      · rw [Nat.add_zero, Nat.mod_eq_of_lt (by omega)] at hheld
        omega
      · have hwrap : n - 1 + k = k - 1 + n := by omega
        rw [hwrap, Nat.add_mod_right, Nat.mod_eq_of_lt (by omega)] at hheld
        omega)
    (hstuck (.boss true) (by simp)) (fun i hi => hstuck (.worker i) (by simpa using hi))
  have hfull : t.workers.length = n := h.full (by simp [hboss])
  obtain ⟨⟨phase, mailbox⟩, hslow⟩ : ∃ w, t.workers[n - 2]? = some w :=
    ⟨_, List.getElem?_eq_getElem (by omega)⟩
  obtain ⟨last, hlast⟩ : ∃ w, t.workers[n - 1]? = some w :=
    ⟨_, List.getElem?_eq_getElem (by omega)⟩
  obtain rfl : phase = .waiting := hwait _ hslow
  obtain ⟨-, hbox⟩ := h.workers _ _ hslow
  obtain ⟨r, hgone⟩ := hothers _ _ (by omega) hlast
  have hround : (n - 2 + 1) % n = n - 1 := by
    rw [Nat.mod_eq_of_lt (by omega)]
    omega
  have hlt : n - 2 < n := by omega
  rw [setupFor, if_pos (by simpa [hboss, BossPhase.setups] using hlt),
    hround] at hbox
  subst hbox
  -- Now it reads its `Setup`.
  have hres : t.onWaiting (.setup (.worker (n - 1))) =
      .returned (.badPid (.worker (n - 1))) := by
    simp [RingState.onWaiting, RingState.resolves, hlast, RingWorker.gone, hgone]
  have hnext : step n m t (.worker (n - 2)) = some (t.setWorker (n - 2)
      ⟨.returned (.badPid (.worker (n - 1))),
        hopFor n m t (n - 2) ++ stopFor n t (n - 2)⟩) := by
    show t.workerStep (n - 2) = _
    rw [RingState.workerStep, hslow]
    simp [hres]
  refine ⟨_, hspawns.tail (by simp [Spawns]) hnext,
    ⟨.returned (.badPid (.worker (n - 1))),
      hopFor n m t (n - 2) ++ stopFor n t (n - 2)⟩, ?_, rfl⟩
  refine List.mem_of_getElem? (i := n - 2) ?_
  rw [RingState.setWorker, List.getElem?_set_self (by omega)]

/-- The ring, whole.  In every order of the particles' steps the hop goes along
its route, every run ends, and at its end the orchestrator has returned `Ok` and
everybody is gone.  All workers return `Ok` in every run exactly if the hop
makes a round. -/
theorem ring_runs (n m : ℕ) (hn : 0 < n) :
    (∀ s, Run (step n m) Spawns start s → s.hops <+: route n m ∧
      (s.boss.finished = true → s.hops = route n m) ∧
      ∀ i w r, s.workers[i]? = some w → w.result = some r → r = .ok ∨
        r = .badPid (.worker ((i + 1) % n)) ∧ ∀ x ∈ route n m, x.1 ≠ i) ∧
    (∀ s, Run (step n m) Spawns start s →
      (∀ a, Spawns s a → step n m s a = none) →
      s.boss = .exited .ok ∧ s.workers.length = n ∧
        ∀ w ∈ s.workers, ∃ r, w.phase = .exited r) ∧
    ((∀ s, Run (step n m) Spawns start s → ∀ w ∈ s.workers, ∀ r,
      w.result = some r → r = .ok) ↔ n ≤ m + 1) ∧
    ¬ ∃ r : InfiniteRun (step n m), r.state 0 = start := by
  refine ⟨?_, ?_, ⟨?_, ?_⟩, ?_⟩
  · intro s hs
    have h := ringInv_run hn hs
    refine ⟨?_, h.hops_of_finished, fun i w r hw hr => h.result hw hr⟩
    rw [h.hops]
    exact List.take_prefix _ _
  · intro s hs hstuck
    have h := ringInv_run hn hs
    obtain ⟨hboss, hall⟩ := h.stuck hn (fun _ => False) (fun _ _ => id)
      (hstuck (.boss true) (by simp [Spawns]))
      (fun i _ => hstuck (.worker i) (by simp [Spawns]))
    refine ⟨hboss, h.full (by simp [hboss]), ?_⟩
    intro w hw
    obtain ⟨i, hi⟩ := List.getElem?_of_mem hw
    exact hall i w id hi
  · intro hok
    by_contra hm
    obtain ⟨s, hs, w, hw, hr⟩ := exists_badPid hn (by omega : m + 1 < n)
    cases hok s hs w hw _ hr
  · intro hm s hs w hw r hr
    have h := ringInv_run hn hs
    obtain ⟨i, hi⟩ := List.getElem?_of_mem hw
    rcases h.result hi hr with hok | ⟨-, hnot⟩
    · exact hok
    · have hlt : i < n := by
        have hlen := (List.getElem?_eq_some_iff.1 hi).1
        have hcount := h.count
        omega
      obtain ⟨x, hx, rfl⟩ := mem_route hlt hm
      exact absurd rfl (hnot x hx)
  · rintro ⟨r, hr⟩
    have hstep : ∀ {s t : RingState} {a : RingAction}, True →
        step n m s a = some t → True := fun _ _ => trivial
    exact r.elim_of_measure (RingState.weight n m) hstep
      (fun _ hnext => weight_step hnext) trivial

/-- Three workers and two hops: a worker may find its neighbour gone. -/
theorem ring_runs_short : ¬ ∀ s, Run (step 3 1) Spawns start s →
    ∀ w ∈ s.workers, ∀ r, w.result = some r → r = .ok := by
  intro hok
  have hround := (ring_runs 3 1 (by decide)).2.2.1.1 hok
  omega

/-- Without workers the orchestrator traps. -/
example : (exec (step 0 5) Spawns start (List.replicate 3 (.boss true))).map
    RingState.boss = some .trapped := by decide

end RingBenchmark

end Plasmoid
