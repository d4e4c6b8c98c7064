import Plasmoid.NameSpread

/-!
# Does a name have one agreed owner?

A claim that overlaps a join may leave two tables that differ, and nobody
compares them again (`joins_leave_two_tables`).  In runs with orderly steps all
tables agree in the end, and an owner loses its name only in a conflict that
condemns it (`names_have_one_owner`).
-/

namespace Plasmoid

open Machine

/-! ## What is where -/

namespace CallPhase

/-- A claim from `home` locks nodes of `N`, its home among them. -/
def Locks (N : Finset EndpointId) (home : EndpointId) : CallPhase → Prop
  | locking _ held node rest | taking _ held node rest =>
    home ∈ held ++ node :: rest ∧ ∀ e ∈ held ++ node :: rest, e ∈ N
  | committing _ held node rest =>
    (home ∈ held ∧ ∀ e ∈ held, e ∈ N) ∧ ∀ e ∈ node :: rest, e ∈ held
  | settling | checking | sorting _ | releasing .. | returned _ => True

variable {N : Finset EndpointId} {home : EndpointId}

theorem locks_of_idle {phase : CallPhase} (h : phase.idle = true) :
    phase.Locks N home := by
  cases phase <;> trivial

theorem locks_commitAll {attempts : Nat} {held rest : List EndpointId}
    (hhome : home ∈ held ∧ ∀ e ∈ held, e ∈ N) (hrest : ∀ e ∈ rest, e ∈ held) :
    (commitAll attempts held rest).Locks N home := by
  cases rest with
  | nil => exact locks_of_idle (idle_releaseLocks ..)
  | cons node rest => exact ⟨hhome, hrest⟩

theorem locks_lockAll {attempts : Nat} {held rest : List EndpointId}
    (hhome : home ∈ held ++ rest) (hall : ∀ e ∈ held ++ rest, e ∈ N) :
    (lockAll attempts held rest).Locks N home := by
  cases rest with
  | nil =>
    rw [List.append_nil] at hhome hall
    exact locks_commitAll ⟨hhome, hall⟩ fun _ he => he
  | cons node rest => exact ⟨hhome, hall⟩

end CallPhase

theorem Call.Next.locks {N : Finset EndpointId}
    {nodes : EndpointId → List EndpointId} {s : GlobalClaims} {c : Call}
    {phase : CallPhase} {node : EndpointId → GlobalNames}
    (h : c.Next nodes s phase node) (hlocks : c.phase.Locks N c.home)
    (hhome : c.home ∈ N) (hnodes : ∀ e ∈ nodes c.home, e ∈ N) :
    phase.Locks N c.home := by
  cases h with
  | sorted hphase =>
    refine CallPhase.locks_lockAll (mem_claimMembers.2 (Or.inr rfl))
      fun e he => ?_
    rcases mem_claimMembers.1 he with he | rfl
    · exact hnodes e he
    · exact hhome
  | looked hphase =>
    rw [hphase] at hlocks
    exact hlocks
  | @locked _ held rest u _ hphase _ =>
    rw [hphase] at hlocks
    obtain ⟨hmem, hall⟩ := hlocks
    rw [List.append_cons] at hmem hall
    exact CallPhase.locks_lockAll hmem hall
  | committed hphase =>
    rw [hphase] at hlocks
    obtain ⟨hheld, hrest⟩ := hlocks
    exact CallPhase.locks_commitAll hheld fun e he =>
      hrest e (List.mem_cons_of_mem _ he)
  | rested _ hidle _ _ => exact CallPhase.locks_of_idle hidle

namespace NameCluster

/-- Nothing concerns any but the nodes of `N`. -/
structure Placed (N : Finset EndpointId) (s : NameCluster) : Prop where
  mesh : s.mesh.env.Within N
  meshJobs : ∀ j ∈ s.mesh.jobs, j.Within N
  jobs : ∀ j ∈ s.sync.jobs, j.Within N ∧
    ∀ msg ∈ j.messages, SyncEnv.OnePerName msg
  calls : ∀ c ∈ s.calls, (c.pid.node = c.home ∧ c.home ∈ N) ∧
    c.phase.Locks N c.home

/-- Every release is of a name that its pid has given up, or of a death that was
heard of.  A particle does one thing at a time. -/
structure Accounted (s : NameCluster) : Prop where
  releases : ∀ r ∈ s.releases,
    r.reactor = false ∧ (r.name, r.pid) ∈ s.released ∨
      r.pid ∈ s.died ∧ r.pid ∉ s.deaths
  busy : ∀ r ∈ s.releases, r.reactor = false →
    ∀ c ∈ s.calls, c.phase.active = true → c.pid ≠ r.pid
  once : s.deaths.Nodup
  deaths : ∀ p ∈ s.deaths, p ∈ s.died

variable {N : Finset EndpointId} {s t : NameCluster}

theorem Accounted.gone (h : s.Accounted) {r : Release}
    (hr : r ∈ s.releases) : s.Gone r.name r.pid :=
  (h.releases r hr).imp_left And.right

theorem mem_roster {e x : EndpointId} :
    x ∈ s.roster e ↔ x ∈ (s.mesh.env e).cluster.members :=
  KeySet.mem_toList

/-- A release drops its own name from the tables and goes on as itself. -/
theorem releaseNext_spec (s : NameCluster) (r : Release) : ∃ node next,
    s.releaseNext r = (s.setNode node, next) ∧
      (∀ e name, (node e).names.lookup name = s.bound e name ∨
        (name = r.name ∧ s.bound e name = some r.pid) ∧
          (node e).names.lookup name = none) ∧
      ∀ x ∈ next, x.reactor = r.reactor ∧ x.name = r.name ∧ x.pid = r.pid := by
  have hdrop : ∀ node e name,
      (s.drop node r.name r.pid).bound e name = s.bound e name ∨
        (name = r.name ∧ s.bound e name = some r.pid) ∧
          (s.drop node r.name r.pid).bound e name = none := by
    intro node e name
    rw [bound_drop]
    split
    · rename_i h
      obtain ⟨⟨rfl, rfl⟩, hbound⟩ := h
      exact Or.inr ⟨⟨rfl, hbound⟩, rfl⟩
    · exact Or.inl rfl
  have hnext : ∀ phase, ∀ x ∈ [{ r with phase }],
      x.reactor = r.reactor ∧ x.name = r.name ∧ x.pid = r.pid := by
    intro phase x hx
    rw [List.mem_singleton.1 hx]
    exact ⟨rfl, rfl, rfl⟩
  have hnone : ∀ x ∈ ([] : List Release),
      x.reactor = r.reactor ∧ x.name = r.name ∧ x.pid = r.pid :=
    fun x hx => nomatch hx
  unfold releaseNext
  split
  · split
    · exact ⟨_, _, rfl, hdrop _, hnext _⟩
    · exact ⟨s.sync.env.node, _, rfl, fun _ _ => Or.inl rfl, hnone⟩
  · exact ⟨s.sync.env.node, _, rfl, fun _ _ => Or.inl rfl, hnext _⟩
  · exact ⟨_, _, rfl, hdrop _, hnext _⟩
  · exact ⟨s.sync.env.node, _, rfl, fun _ _ => Or.inl rfl, hnone⟩

theorem Placed.more_jobs (h : s.Placed N) {jobs : List SyncJob}
    (hjobs : ∀ k ∈ jobs, k.Within N ∧ k.messages = []) :
    ∀ j ∈ s.sync.jobs ++ jobs, j.Within N ∧
      ∀ msg ∈ j.messages, SyncEnv.OnePerName msg := by
  intro j hj
  rcases List.mem_append.1 hj with hj | hj
  · exact h.jobs j hj
  · refine ⟨(hjobs j hj).1, fun msg hmsg => ?_⟩
    rw [(hjobs j hj).2] at hmsg
    cases hmsg

theorem Placed.sync (h : s.Placed N) {i : Nat}
    (hnext : s.step (.sync i) = some t) : t.Placed N := by
  obtain ⟨sync, hwork, rfl⟩ := Option.map_eq_some_iff.1 hnext
  obtain ⟨j, hj, rfl⟩ := Pool.work_cases hwork
  obtain ⟨hwithin, hmsg⟩ := h.jobs j (List.mem_of_getElem? hj)
  refine ⟨h.mesh, h.meshJobs, fun k hk => ?_, h.calls⟩
  rcases Pool.mem_before_or_new hk with hk | hk
  · exact h.jobs k hk
  · exact ⟨SyncEnv.handle_within hwithin k hk,
      SyncEnv.handle_onePerName hmsg k hk⟩

/-- A call moves on. -/
theorem Placed.set (h : s.Placed N) {i : Nat} {c : Call}
    (hc : s.calls[i]? = some c) {phase : CallPhase}
    {node : EndpointId → GlobalNames}
    (hnext : c.Next s.roster s.claims phase node) :
    ∀ d ∈ s.calls.set i { c with phase },
      (d.pid.node = d.home ∧ d.home ∈ N) ∧ d.phase.Locks N d.home := by
  intro d hd
  rcases List.mem_or_eq_of_mem_set hd with hd | rfl
  · exact h.calls d hd
  · obtain ⟨hhome, hlocks⟩ := h.calls c (List.mem_of_getElem? hc)
    exact ⟨hhome, hnext.locks hlocks hhome.2 fun e he =>
      h.mesh.members _ hhome.2 e (mem_roster.1 he)⟩

theorem placed_step {a : NameAction} (h : s.Placed N) (hok : Reliable N a)
    (hnext : s.step a = some t) : t.Placed N := by
  cases a with
  | join now node peer =>
    obtain rfl := Option.some_inj.1 hnext
    obtain ⟨henv, hjobs⟩ := Mesh.within_join h.mesh now hok.1 hok.2
    refine ⟨henv, fun j hj => (hjobs j hj).elim (h.meshJobs j) id,
      h.more_jobs fun k hk => ?_, h.calls⟩
    rw [List.mem_singleton.1 hk]
    exact ⟨hok, rfl⟩
  | connect node peer =>
    simp only [step] at hnext
    split at hnext
    · cases hnext
    · obtain rfl := Option.some_inj.1 hnext
      refine ⟨h.mesh, fun j hj => ?_, h.jobs, h.calls⟩
      rcases List.mem_append.1 hj with hj | hj
      · exact h.meshJobs j hj
      · rw [List.mem_singleton.1 hj]
        exact hok.symm
  | announce i now =>
    obtain ⟨j, hj, hrest⟩ := Option.bind_eq_some_iff.1 hnext
    obtain ⟨mesh, hwork, rfl⟩ := Option.map_eq_some_iff.1 hrest
    obtain ⟨j', hj', rfl⟩ := Pool.work_cases hwork
    obtain rfl : j = j' := Option.some_inj.1 (hj.symm.trans hj')
    have hwithin := h.meshJobs j (List.mem_of_getElem? hj)
    obtain ⟨henv, hjobs⟩ := h.mesh.handle hwithin now
    refine ⟨henv, fun k hk => ?_, h.more_jobs fun k hk => ?_, h.calls⟩
    · exact (Pool.mem_before_or_new hk).elim (h.meshJobs k) (hjobs k)
    · obtain ⟨node, peer, rfl, hends⟩ := MeshNodes.mem_syncs hk
      exact ⟨hends N hwithin, rfl⟩
  | sync i => exact h.sync hnext
  | register name pid =>
    simp only [step] at hnext
    split at hnext
    · obtain rfl := Option.some_inj.1 hnext
      refine ⟨h.mesh, h.meshJobs, h.jobs, fun c hc => ?_⟩
      rcases List.mem_append.1 hc with hc | hc
      · exact h.calls c hc
      · rw [List.mem_singleton.1 hc]
        exact ⟨⟨rfl, hok⟩, trivial⟩
    · cases hnext
  | advance i =>
    obtain ⟨c, hc, hrest⟩ := Option.bind_eq_some_iff.1 hnext
    obtain ⟨u, hu, rfl⟩ := Option.map_eq_some_iff.1 hrest
    obtain ⟨phase, hcalls, hphase⟩ := GlobalClaims.advance_next hu
    have hset : ∀ d ∈ u.calls,
        (d.pid.node = d.home ∧ d.home ∈ N) ∧ d.phase.Locks N d.home := by
      rw [hcalls]
      exact h.set hc hphase
    split
    · exact ⟨h.mesh, h.meshJobs, h.jobs, hset⟩
    · exact ⟨h.mesh, h.meshJobs, h.jobs, hset⟩
  | unregister name pid =>
    simp only [step] at hnext
    split at hnext
    · obtain rfl := Option.some_inj.1 hnext
      exact ⟨h.mesh, h.meshJobs, h.jobs, h.calls⟩
    · cases hnext
  | release i =>
    obtain ⟨r, hr, rfl⟩ := Option.map_eq_some_iff.1 hnext
    obtain ⟨node, next, heq, -⟩ := s.releaseNext_spec r
    rw [heq]
    exact ⟨h.mesh, h.meshJobs, h.jobs, h.calls⟩
  | die pid =>
    simp only [step] at hnext
    split at hnext
    · cases hnext
    · obtain rfl := Option.some_inj.1 hnext
      exact ⟨h.mesh, h.meshJobs, h.jobs, h.calls⟩
  | react node =>
    obtain ⟨dead, -, hnext⟩ := Option.bind_eq_some_iff.1 hnext
    split at hnext
    · cases hnext
    · obtain rfl := Option.some_inj.1 hnext
      exact ⟨h.mesh, h.meshJobs, h.jobs, h.calls⟩
  | syncFails i => exact hok.elim
  | unanswered i carriedOut => exact hok.elim
  | releaseFails i => exact hok.elim
  | lose node peer => exact hok.elim

theorem Accounted.advance (h : s.Accounted) {i : Nat}
    (hnext : s.step (.advance i) = some t) : t.Accounted := by
  obtain ⟨c, hc, hrest⟩ := Option.bind_eq_some_iff.1 hnext
  obtain ⟨u, hu, rfl⟩ := Option.map_eq_some_iff.1 hrest
  obtain ⟨phase, hcalls, -⟩ := GlobalClaims.advance_next hu
  have hactive := GlobalClaims.active_of_advance hu
  have hbusy : ∀ r ∈ s.releases, r.reactor = false →
      ∀ d ∈ u.calls, d.phase.active = true → d.pid ≠ r.pid := by
    intro r hr hreactor d hd hd'
    rw [hcalls] at hd
    rcases List.mem_or_eq_of_mem_set hd with hd | rfl
    · exact h.busy r hr hreactor d hd hd'
    · exact h.busy r hr hreactor c (List.mem_of_getElem? hc) hactive
  split
  · refine ⟨fun r hr => ?_, hbusy, h.once, h.deaths⟩
    refine (h.releases r hr).imp_left fun ⟨hreactor, hmem⟩ => ⟨hreactor, ?_⟩
    refine List.mem_filter.2 ⟨hmem, decide_eq_true fun heq => ?_⟩
    exact h.busy r hr hreactor c (List.mem_of_getElem? hc) hactive
      (congrArg Prod.snd heq).symm
  · exact ⟨h.releases, hbusy, h.once, h.deaths⟩

theorem Accounted.die (h : s.Accounted) {dead : Pid}
    (hheard : s.Heard N (.die dead)) (hnext : s.step (.die dead) = some t) :
    t.Accounted := by
  obtain ⟨hnew, rfl⟩ := die_cases hheard hnext
  refine ⟨fun r hr => ?_, h.busy, ?_, fun p hp => ?_⟩
  · refine (h.releases r hr).imp_right fun ⟨hdied, hnot⟩ => ?_
    refine ⟨List.mem_cons_of_mem _ hdied, fun hmem => ?_⟩
    rcases List.mem_append.1 hmem with hmem | hmem
    · exact hnot hmem
    · rw [List.mem_singleton.1 hmem] at hdied
      exact hnew hdied
  · refine List.nodup_append'.2 ⟨h.once, List.nodup_singleton _, ?_⟩
    rw [List.disjoint_singleton]
    exact fun hmem => hnew (h.deaths dead hmem)
  · rcases List.mem_append.1 hp with hp | hp
    · exact List.mem_cons_of_mem _ (h.deaths p hp)
    · rw [List.mem_singleton.1 hp]
      exact List.mem_cons_self ..

theorem mem_of_deathsAt {node : EndpointId} {pid : Pid}
    (h : pid ∈ (s.deathsAt node).head?) : pid ∈ s.deaths :=
  List.mem_of_mem_filter (List.mem_of_mem_head? h)

theorem Accounted.react (h : s.Accounted) {node : EndpointId}
    (hnext : s.step (.react node) = some t) : t.Accounted := by
  obtain ⟨dead, hdead, hnext⟩ := Option.bind_eq_some_iff.1 hnext
  split at hnext
  · cases hnext
  · obtain rfl := Option.some_inj.1 hnext
    refine ⟨fun r hr => ?_, fun r hr hreactor => ?_, h.once.erase dead,
      fun p hp => h.deaths p (List.mem_of_mem_erase hp)⟩
    · rcases List.mem_append.1 hr with hr | hr
      · refine (h.releases r hr).imp_right fun ⟨hdied, hnot⟩ => ?_
        exact ⟨hdied, fun hmem => hnot (List.mem_of_mem_erase hmem)⟩
      · obtain ⟨name, -, rfl⟩ := List.mem_map.1 hr
        exact Or.inr ⟨h.deaths dead (mem_of_deathsAt hdead),
          h.once.not_mem_erase⟩
    · rcases List.mem_append.1 hr with hr | hr
      · exact h.busy r hr hreactor
      · obtain ⟨name, -, rfl⟩ := List.mem_map.1 hr
        cases hreactor

theorem accounted_step {a : NameAction} (h : s.Accounted) (hok : Reliable N a)
    (hheard : s.Heard N a) (hnext : s.step a = some t) : t.Accounted := by
  cases a with
  | join now node peer =>
    obtain rfl := Option.some_inj.1 hnext
    exact ⟨h.releases, h.busy, h.once, h.deaths⟩
  | connect node peer =>
    simp only [step] at hnext
    split at hnext
    · cases hnext
    · obtain rfl := Option.some_inj.1 hnext
      exact ⟨h.releases, h.busy, h.once, h.deaths⟩
  | announce i now =>
    obtain ⟨j, -, hrest⟩ := Option.bind_eq_some_iff.1 hnext
    obtain ⟨mesh, -, rfl⟩ := Option.map_eq_some_iff.1 hrest
    exact ⟨h.releases, h.busy, h.once, h.deaths⟩
  | sync i =>
    obtain ⟨sync, -, rfl⟩ := Option.map_eq_some_iff.1 hnext
    exact ⟨h.releases, h.busy, h.once, h.deaths⟩
  | register name pid =>
    simp only [step] at hnext
    split at hnext
    · rename_i hidle
      obtain rfl := Option.some_inj.1 hnext
      refine ⟨h.releases, fun r hr hreactor c hc hactive => ?_, h.once, h.deaths⟩
      rcases List.mem_append.1 hc with hc | hc
      · exact h.busy r hr hreactor c hc hactive
      · rw [List.mem_singleton.1 hc]
        exact (hidle.2 r hr hreactor).symm
    · cases hnext
  | advance i => exact h.advance hnext
  | unregister name pid =>
    simp only [step] at hnext
    split at hnext
    · rename_i hidle
      obtain rfl := Option.some_inj.1 hnext
      refine ⟨fun r hr => ?_, fun r hr hreactor c hc hactive => ?_, h.once,
        h.deaths⟩
      · rcases List.mem_append.1 hr with hr | hr
        · exact (h.releases r hr).imp_left fun hbusy =>
            ⟨hbusy.1, List.mem_cons_of_mem _ hbusy.2⟩
        · rw [List.mem_singleton.1 hr]
          exact Or.inl ⟨rfl, List.mem_cons_self ..⟩
      · rcases List.mem_append.1 hr with hr | hr
        · exact h.busy r hr hreactor c hc hactive
        · rw [List.mem_singleton.1 hr]
          exact hidle.1 c hc hactive
    · cases hnext
  | release i =>
    obtain ⟨r, hr, rfl⟩ := Option.map_eq_some_iff.1 hnext
    obtain ⟨node, next, heq, -, hsame⟩ := s.releaseNext_spec r
    rw [heq]
    have hold : ∀ x ∈ s.releases.eraseIdx i ++ next, ∃ y ∈ s.releases,
        x.reactor = y.reactor ∧ x.name = y.name ∧ x.pid = y.pid := by
      intro x hx
      rcases List.mem_append.1 hx with hx | hx
      · exact ⟨x, List.mem_of_mem_eraseIdx hx, rfl, rfl, rfl⟩
      · exact ⟨r, List.mem_of_getElem? hr, hsame x hx⟩
    refine ⟨fun x hx => ?_, fun x hx hreactor c hc hactive => ?_, h.once,
      h.deaths⟩
    · obtain ⟨y, hy, hreactor, hname, hpid⟩ := hold x hx
      rw [hreactor, hname, hpid]
      exact h.releases y hy
    · obtain ⟨y, hy, hreactor', -, hpid⟩ := hold x hx
      rw [hpid]
      exact h.busy y hy (hreactor'.symm.trans hreactor) c hc hactive
  | die pid => exact h.die hheard hnext
  | react node => exact h.react hnext
  | syncFails i => exact hok.elim
  | unanswered i carriedOut => exact hok.elim
  | releaseFails i => exact hok.elim
  | lose node peer => exact hok.elim

/-! ## Every pid spreads -/

/-- Under every name the pids spread. -/
def Spreads (N : Finset EndpointId) (s : NameCluster) : Prop :=
  ∀ name, Spread.Inv (N : Set EndpointId) (s.view name)

variable {name : String}

/-- Whoever is learned will be introduced, or exchanges tables already. -/
theorem Reads.grow {f e : EndpointId} (h : s.Reads f e)
    (hroster : ∀ f e, e ∈ t.roster f → e ∈ s.roster f ∨
      (∃ k ∈ t.mesh.jobs, k.Introduces f e) ∨ .begin f e ∈ t.sync.jobs)
    (hjobs : ∀ j ∈ s.sync.jobs, j ∈ t.sync.jobs)
    (hmesh : ∀ k ∈ s.mesh.jobs, ∀ f e, k.Introduces f e →
      k ∈ t.mesh.jobs ∨ .begin f e ∈ t.sync.jobs) : t.Reads f e := by
  have hbegin : ∀ {x y : EndpointId}, SyncJob.begin x y ∈ t.sync.jobs →
      x = f ∧ y = e ∨ x = e ∧ y = f → t.Reads f e :=
    fun hmem hends => Or.inr (Or.inl ⟨_, hmem, hends⟩)
  rcases h with hnot | ⟨j, hj, hreads⟩ | ⟨k, hk, hintro⟩
  · by_cases hboth : e ∉ t.roster f ∨ f ∉ t.roster e
    · exact Or.inl hboth
    · rw [not_or, not_not, not_not] at hboth
      rcases hnot with hnot | hnot
      · rcases (hroster f e hboth.1).resolve_left hnot with ⟨k, hk, h⟩ | h
        · exact Or.inr (Or.inr ⟨k, hk, Or.inl h⟩)
        · exact hbegin h (Or.inl ⟨rfl, rfl⟩)
      · rcases (hroster e f hboth.2).resolve_left hnot with ⟨k, hk, h⟩ | h
        · exact Or.inr (Or.inr ⟨k, hk, Or.inr h⟩)
        · exact hbegin h (Or.inr ⟨rfl, rfl⟩)
  · exact Or.inr (Or.inl ⟨j, hjobs j hj, hreads⟩)
  · rcases hintro with h | h
    · rcases hmesh k hk f e h with hk | hmem
      · exact Or.inr (Or.inr ⟨k, hk, Or.inl h⟩)
      · exact hbegin hmem (Or.inl ⟨rfl, rfl⟩)
    · rcases hmesh k hk e f h with hk | hmem
      · exact Or.inr (Or.inr ⟨k, hk, Or.inr h⟩)
      · exact hbegin hmem (Or.inr ⟨rfl, rfl⟩)

/-- Nothing happens to the name but that more is to be read. -/
theorem spread_frame (h : Spread.Inv (N : Set EndpointId) (s.view name))
    (hbound : ∀ e, t.bound e name = s.bound e name)
    (hclaims : ∀ pid held left, (t.view name).claims pid held left ↔
      (s.view name).claims pid held left)
    (houtdone : ∀ pid, (name, pid) ∈ t.outdone ↔ (name, pid) ∈ s.outdone)
    (hgone : ∀ pid, t.Gone name pid ↔ s.Gone name pid)
    (hkept : ∀ j ∈ s.sync.jobs, j ∈ t.sync.jobs)
    (hnew : ∀ j ∈ t.sync.jobs, j ∈ s.sync.jobs ∨ ∀ e pid, ¬ j.Brings e name pid)
    (hreads : ∀ f e, s.Reads f e → t.Reads f e) :
    Spread.Inv (N : Set EndpointId) (t.view name) := by
  refine h.move (fun e _ => hbound e) ?_ ?_ ?_ ?_ ?_ ?_
  · exact funext fun pid => funext fun held => funext fun left =>
      propext (hclaims pid held left)
  · exact funext fun pid => propext (houtdone pid)
  · exact funext fun pid => propext (hgone pid)
  · rintro e - pid ⟨j, hj, hbrings⟩
    exact ⟨j, hkept j hj, hbrings⟩
  · rintro e he pid ⟨j, hj, hbrings⟩
    rcases hnew j hj with hj | hnot
    · exact Or.inr (Or.inl ⟨e, he, j, hj, hbrings⟩)
    · exact absurd hbrings (hnot e pid)
  · exact fun f _ e _ _ hread => Or.inl (hreads f e hread)

/-- A new exchange brings nothing yet. -/
theorem spawned_brings {jobs : List SyncJob}
    (hjobs : ∀ k ∈ jobs, ∃ node peer, k = .begin node peer) :
    ∀ j ∈ s.sync.jobs ++ jobs, j ∈ s.sync.jobs ∨
      ∀ e pid, ¬ j.Brings e name pid := by
  intro j hj
  refine (List.mem_append.1 hj).imp_right fun hj e pid hbrings => ?_
  obtain ⟨node, peer, rfl⟩ := hjobs j hj
  exact hbrings

theorem Spreads.join (h : s.Spreads N) {now : Nat} {node : EndpointId}
    {peer : EndpointAddr} (hnext : s.step (.join now node peer) = some t) :
    t.Spreads N := by
  obtain rfl := Option.some_inj.1 hnext
  have hroster : ∀ f e, e ∈ ((s.mesh.join now node peer).env f).cluster.members →
      e ∈ (s.mesh.env f).cluster.members ∨ f = node ∧ e = peer.id := by
    intro f e he
    simp only [Mesh.join, MeshNode.cluster_remember] at he
    by_cases hf : f = node
    · subst hf
      rw [Function.update_self] at he
      have hlearn := (s.mesh.env f).cluster.learn_spec now [peer.id]
      refine ((hlearn.members e).1 he).imp_right fun hfresh => ⟨rfl, ?_⟩
      exact List.mem_singleton.1 ((hlearn.fresh e).1 hfresh).1
    · rw [Function.update_of_ne hf] at he
      exact Or.inl he
  intro name
  refine spread_frame (h name) (fun _ => rfl) (fun _ _ _ => Iff.rfl)
    (fun _ => Iff.rfl) (fun _ => Iff.rfl)
    (fun j hj => List.mem_append_left _ hj) (spawned_brings fun k hk => ?_)
    fun f e hread => hread.grow (fun f e he => ?_)
      (fun j hj => List.mem_append_left _ hj) fun k hk f e _ => ?_
  · exact ⟨node, peer.id, List.mem_singleton.1 hk⟩
  · refine (hroster f e (mem_roster.1 he)).imp mem_roster.2 fun hends => ?_
    obtain ⟨rfl, rfl⟩ := hends
    exact Or.inr (List.mem_append_right _ (List.mem_singleton_self _))
  · exact Or.inl (List.mem_append_left _ hk)

theorem Spreads.announce (h : s.Spreads N) {i now : Nat}
    (hnext : s.step (.announce i now) = some t) : t.Spreads N := by
  obtain ⟨j, hj, hrest⟩ := Option.bind_eq_some_iff.1 hnext
  obtain ⟨mesh, hwork, rfl⟩ := Option.map_eq_some_iff.1 hrest
  obtain ⟨j', hj', rfl⟩ := Pool.work_cases hwork
  obtain rfl : j = j' := Option.some_inj.1 (hj.symm.trans hj')
  intro name
  refine spread_frame (h name) (fun _ => rfl) (fun _ _ _ => Iff.rfl)
    (fun _ => Iff.rfl) (fun _ => Iff.rfl)
    (fun j hj => List.mem_append_left _ hj) (spawned_brings fun k hk => ?_)
    fun f e hread => hread.grow (fun f e he => ?_)
      (fun j hj => List.mem_append_left _ hj) fun k hk f e hintro => ?_
  · obtain ⟨node, peer, rfl, -⟩ := MeshNodes.mem_syncs hk
    exact ⟨node, peer, rfl⟩
  · refine (s.mesh.env.learned now j (mem_roster.1 he)).imp mem_roster.2 ?_
    rintro (⟨k, hk, hintro⟩ | hbegin)
    · exact Or.inl ⟨k, List.mem_append_right _ hk, hintro⟩
    · exact Or.inr (List.mem_append_right _ hbegin)
  · refine (Pool.mem_kept hj hk _).imp_right fun heq => ?_
    subst heq
    exact List.mem_append_right _ (hintro.syncs s.mesh.env now)

/-- A table is read, or passed on. -/
theorem spread_pass (h : Spread.Inv (N : Set EndpointId) (s.view name)) {i : Nat}
    {j : SyncJob} (hj : s.sync.jobs[i]? = some j) (hwithin : j.Within N)
    (hnot : ∀ node theirs back, j ≠ .merge node theirs back)
    (hbound : ∀ e, t.bound e name = s.bound e name) (hmesh : t.mesh = s.mesh)
    (hcalls : t.calls = s.calls) (houtdone : t.outdone = s.outdone)
    (hgone : t.Gone = s.Gone) (hjobs : t.sync.jobs =
      s.sync.jobs.eraseIdx i ++ (s.sync.env.handle () j).2) :
    Spread.Inv (N : Set EndpointId) (t.view name) := by
  have hkept : ∀ k ∈ s.sync.jobs, k ∈ t.sync.jobs ∨ k = j := by
    rw [hjobs]
    exact fun k hk => Pool.mem_kept hj hk _
  have hnext : ∀ k ∈ (s.sync.env.handle () j).2, k ∈ t.sync.jobs := by
    rw [hjobs]
    exact fun k hk => List.mem_append_right _ hk
  refine h.move (fun e _ => hbound e) ?_ ?_ ?_ ?_ ?_ ?_
  · funext pid held left
    simp only [view, hcalls]
  · simp only [view, houtdone]
  · simp only [view, hgone]
  · rintro e - pid ⟨k, hk, hbrings⟩
    rcases hkept k hk with hk | rfl
    · exact ⟨k, hk, hbrings⟩
    · rcases SyncEnv.handle_brings (s := s.sync.env) hbrings with
        ⟨k', hk', hbrings'⟩ | ⟨theirs, back, heq, -⟩
      · exact ⟨k', hnext k' hk', hbrings'⟩
      · exact absurd heq (hnot e theirs back)
  · rintro e he pid ⟨k, hk, hbrings⟩
    rw [hjobs] at hk
    rcases Pool.mem_before_or_new hk with hk | hk
    · exact Or.inr (Or.inl ⟨e, he, k, hk, hbrings⟩)
    · rcases SyncEnv.brings_of_handle hwithin hk hbrings with hbrings | hhas
      · exact Or.inr (Or.inl ⟨e, he, j, List.mem_of_getElem? hj, hbrings⟩)
      · exact Or.inl hhas
  · intro f _ e _ hne hread
    have hroster : t.roster = s.roster := by
      unfold roster
      rw [hmesh]
    rcases hread with hread | ⟨k, hk, hread⟩ | hread
    · refine Or.inl (Or.inl ?_)
      rw [hroster]
      exact hread
    · rcases hkept k hk with hk | rfl
      · exact Or.inl (Or.inr (Or.inl ⟨k, hk, hread⟩))
      · rcases SyncEnv.handle_reads (s := s.sync.env) hne hread with
          ⟨k', hk', hread'⟩ | hall
        · exact Or.inl (Or.inr (Or.inl ⟨k', hnext k' hk', hread'⟩))
        · refine Or.inr fun pid hpid => ?_
          obtain ⟨k', hk', hbrings⟩ := hall name pid hpid
          exact ⟨k', hnext k' hk', hbrings⟩
    · refine Or.inl (Or.inr (Or.inr ?_))
      rw [hmesh]
      exact hread

/-- A table is merged into another one. -/
theorem spread_merge (h : Spread.Inv (N : Set EndpointId) (s.view name)) {i : Nat}
    {node : EndpointId} {theirs : NameMessage}
    {back : Option (EndpointId × NameMessage)}
    (hj : s.sync.jobs[i]? = some (.merge node theirs back)) (hnode : node ∈ N)
    (hone : SyncEnv.OnePerName theirs)
    (hfair : s.MergeFair (.merge node theirs back))
    (hnext : s.step (.sync i) = some t) :
    Spread.Inv (N : Set EndpointId) (t.view name) := by
  obtain ⟨sync, hwork, rfl⟩ := Option.map_eq_some_iff.1 hnext
  obtain ⟨j, hj', rfl⟩ := Pool.work_cases hwork
  obtain rfl : SyncJob.merge node theirs back = j :=
    Option.some_inj.1 (hj.symm.trans hj')
  have hverdicts : (s.sync.env.mergeAt node theirs).verdicts.drop
      s.sync.env.verdicts.length =
        (GlobalNames.mergeAll (s.sync.env.node node).names theirs.names).2 :=
    List.drop_left ..
  -- What comes out of the merge is on its way already.
  have hclose : ∀ e pid losers,
      (SyncJob.close node losers back).Brings e name pid →
        (SyncJob.merge node theirs back).Brings e name pid :=
    fun e pid losers hbrings => Or.inr hbrings
  refine h.merge node (fun pid => (name, pid) ∈ theirs.names) {
    node := hnode
    others := fun f _ hf => ?_
    value := fun pid hpid => ?_
    least := fun pid hpid => ?_
    outdone := fun pid => ?_
    claims := rfl
    gone := rfl
    came := fun pid hpid => ?_
    coming := ?_
    old := ?_
    reads := ?_
    conflict := ?_ }
  · show ((s.sync.env.mergeAt node theirs).node f).names.lookup name = _
    rw [s.sync.env.node_mergeAt_ne theirs hf]
    rfl
  · exact (SyncEnv.lookup_mergeAt hpid).imp_right fun ⟨_, hmem, _⟩ => hmem
  · show ∃ m, ((s.sync.env.mergeAt node theirs).node node).names.lookup name =
      some m ∧ m ≤ pid
    rw [SyncEnv.names_mergeAt_self]
    exact GlobalNames.lookup_mergeAll_le hpid
  · show (name, pid) ∈ s.outdone ++ ((s.sync.env.mergeAt node theirs).verdicts.drop
      s.sync.env.verdicts.length).map _ ↔ _
    rw [hverdicts, List.mem_append, List.mem_map]
    refine or_congr_right ?_
    show _ ↔ _ ∧ ((s.sync.env.mergeAt node theirs).node node).names.lookup name ≠
      some pid
    rw [SyncEnv.names_mergeAt_self]
    refine Iff.trans ?_ (GlobalNames.lost_mergeAll_iff
      (s.sync.env.node node).names theirs.names name pid)
    simp only [Prod.mk.injEq]
  · exact ⟨_, List.mem_of_getElem? hj, Or.inl ⟨rfl, hpid⟩⟩
  · rintro f - pid ⟨k, hk, hbrings⟩
    rcases Pool.mem_kept hj hk _ with hk | rfl
    · exact Or.inl ⟨k, hk, hbrings⟩
    · rcases SyncEnv.handle_brings (s := s.sync.env) hbrings with
        ⟨k', hk', hbrings'⟩ | ⟨_, _, heq, hmem⟩
      · exact Or.inl ⟨k', List.mem_append_right _ hk', hbrings'⟩
      · cases heq
        exact Or.inr ⟨rfl, hmem⟩
  · rintro f - pid ⟨k, hk, hbrings⟩
    rcases Pool.mem_before_or_new hk with hk | hk
    · exact ⟨k, hk, hbrings⟩
    · rw [List.mem_singleton.1 hk] at hbrings
      exact ⟨_, List.mem_of_getElem? hj, hclose f pid _ hbrings⟩
  · rintro f - e - (hread | ⟨k, hk, hread⟩ | hread)
    · exact Or.inl hread
    · rcases Pool.mem_kept hj hk _ with hk | rfl
      · exact Or.inr (Or.inl ⟨k, hk, hread⟩)
      · exact hread.elim
    · exact Or.inr (Or.inr hread)
  · rintro v w (hv | hv) (hw | hw) hne
    · exact absurd (Option.some_inj.1 (hv.symm.trans hw)) hne
    · exact (hfair _ hw v hv hne).2
    · exact (hfair _ hv w hw hne.symm).1
    · exact absurd (List.inj_on_of_nodup_map hone hv hw rfl) fun heq =>
        hne (congrArg Prod.snd heq)

theorem Spreads.sync (h : s.Spreads N) (hplaced : s.Placed N) {i : Nat}
    (hfair : s.Fair N (.sync i)) (hnext : s.step (.sync i) = some t) :
    t.Spreads N := by
  intro name
  obtain ⟨sync, hwork, heq⟩ := Option.map_eq_some_iff.1 hnext
  obtain ⟨j, hj, rfl⟩ := Pool.work_cases hwork
  obtain ⟨hwithin, hone⟩ := hplaced.jobs j (List.mem_of_getElem? hj)
  by_cases hmerge : ∃ node theirs back, j = .merge node theirs back
  · obtain ⟨node, theirs, back, rfl⟩ := hmerge
    exact spread_merge (h name) hj hwithin.1 (hone _ (List.mem_cons_self ..))
      (hfair _ hj) hnext
  · subst heq
    obtain ⟨hnames, hverdicts, -⟩ :=
      (s.sync.env.handle_names j).resolve_right hmerge
    refine spread_pass (h name) hj hwithin
      (fun node theirs back heq => hmerge ⟨node, theirs, back, heq⟩)
      (fun e => ?_) rfl rfl ?_ rfl rfl
    · show ((s.sync.env.handle () j).1.node e).names.lookup name = _
      rw [hnames e]
      rfl
    · show s.outdone ++ List.map _ _ = _
      rw [hverdicts, List.drop_length, List.map_nil, List.append_nil]

section Calls

variable {i : Nat} {c : Call} {phase : CallPhase} {pid : Pid}
variable {held left : List EndpointId}

theorem claims_old (hcalls : t.calls = s.calls.set i { c with phase })
    (h : (t.view name).claims pid held left) :
    (s.view name).claims pid held left ∨
      (c.name = name ∧ c.pid = pid) ∧ phase.commits = some (held, left) := by
  obtain ⟨d, hd, hdname, hcommits⟩ := h
  rw [hcalls] at hd
  rcases List.mem_or_eq_of_mem_set hd with hd | rfl
  · exact Or.inl ⟨d, hd, hdname, hcommits⟩
  · exact Or.inr ⟨hdname, hcommits⟩

theorem claims_kept (hcalls : t.calls = s.calls.set i { c with phase })
    (hc : s.calls[i]? = some c) (h : (s.view name).claims pid held left) :
    (t.view name).claims pid held left ∨
      (c.name = name ∧ c.pid = pid) ∧ c.phase.commits = some (held, left) := by
  obtain ⟨d, hd, hdname, hcommits⟩ := h
  obtain ⟨k, hk⟩ := List.mem_iff_getElem?.1 hd
  by_cases hki : k = i
  · subst hki
    obtain rfl : c = d := Option.some_inj.1 (hc.symm.trans hk)
    exact Or.inr ⟨hdname, hcommits⟩
  · refine Or.inl ⟨d, ?_, hdname, hcommits⟩
    rw [hcalls]
    refine List.mem_iff_getElem?.2 ⟨k, ?_⟩
    rw [List.getElem?_set_ne (Ne.symm hki)]
    exact hk

theorem claims_new (hcalls : t.calls = s.calls.set i { c with phase })
    (hc : s.calls[i]? = some c) (h : phase.commits = some (held, left)) :
    (t.view c.name).claims c.pid held left := by
  obtain ⟨hlt, -⟩ := List.getElem?_eq_some_iff.1 hc
  refine ⟨{ c with phase }, ?_, ⟨rfl, rfl⟩, h⟩
  rw [hcalls]
  exact List.mem_set hlt ..

/-- Another name, or a step that has nothing to do with commits. -/
theorem claims_iff (hcalls : t.calls = s.calls.set i { c with phase })
    (hc : s.calls[i]? = some c) (h : c.name = name →
      c.phase.commits = none ∧ phase.commits = none) :
    (t.view name).claims pid held left ↔ (s.view name).claims pid held left := by
  constructor
  · intro hclaim
    refine (claims_old hcalls hclaim).resolve_right fun hnew => ?_
    rw [(h hnew.1.1).2] at hnew
    cases hnew.2
  · intro hclaim
    refine (claims_kept hcalls hc hclaim).resolve_right fun hold => ?_
    rw [(h hold.1.1).1] at hold
    cases hold.2

variable {u : GlobalClaims}

theorem decides_advance (hc : s.calls[i]? = some c)
    (hcalls : u.calls = s.calls.set i { c with phase }) :
    (u.calls[i]?.any fun d => c.decides d.phase) = c.decides phase := by
  obtain ⟨hlt, -⟩ := List.getElem?_eq_some_iff.1 hc
  rw [hcalls, List.getElem?_set_self hlt]
  rfl

/-- A claim has taken its last lock. -/
theorem Spreads.decided (h : s.Spreads N) (hc : s.calls[i]? = some c)
    (hcalls : u.calls = s.calls.set i { c with phase })
    (hbefore : c.phase.commits = none)
    (hphase : phase.commits = some (held, held))
    (hnames : ∀ e name, (u.node e).names.lookup name = s.bound e name) :
    ((s.setClaims u).claimed c.name c.pid).Spreads N := by
  have hfilter : ∀ (l : List (String × Pid)) (x : String × Pid),
      x ∈ l.filter (fun y => y ≠ (c.name, c.pid)) ↔
        x ∈ l ∧ x ≠ (c.name, c.pid) := by
    intro l x
    rw [List.mem_filter, decide_eq_true_iff]
  intro name
  by_cases hname : name = c.name
  · subst hname
    refine (h c.name).claim c.pid held
      (funext fun e => hnames e c.name) rfl rfl (fun pid l left => ?_)
      (fun pid => ?_) (fun pid hgone => ?_) fun pid hne hgone => ?_
    · constructor
      · intro hclaim
        refine (claims_old hcalls hclaim).imp_right fun ⟨heq, hcommits⟩ => ?_
        rw [hphase] at hcommits
        cases hcommits
        exact ⟨heq.2.symm, rfl, rfl⟩
      · rintro (hclaim | ⟨rfl, rfl, rfl⟩)
        · refine (claims_kept hcalls hc hclaim).resolve_right fun hold => ?_
          rw [hbefore] at hold
          cases hold.2
        · exact claims_new hcalls hc hphase
    · refine (hfilter s.outdone _).trans (and_congr_right fun _ => ?_)
      simp
    · exact hgone.imp_left fun hmem => List.mem_of_mem_filter hmem
    · refine hgone.imp_left fun hmem => (hfilter s.released _).2 ⟨hmem, ?_⟩
      exact fun heq => hne (congrArg Prod.snd heq)
  · have hother : ∀ (l : List (String × Pid)) (pid : Pid),
        (name, pid) ∈ l.filter (fun y => y ≠ (c.name, c.pid)) ↔
          (name, pid) ∈ l :=
      fun l pid => (hfilter l _).trans (and_iff_left fun heq =>
        hname (congrArg Prod.fst heq))
    exact spread_frame (h name) (fun e => hnames e name)
      (fun pid held left => claims_iff hcalls hc fun heq =>
        absurd heq.symm hname)
      (hother s.outdone) (fun pid => or_congr_left (hother s.released pid))
      (fun _ hj => hj) (fun _ hj => Or.inl hj) fun _ _ hread => hread

/-- A claim commits at one more node. -/
theorem Spreads.committed (h : s.Spreads N) (hplaced : s.Placed N)
    (hc : s.calls[i]? = some c) (hfair : s.CommitFair N c)
    (hcalls : u.calls = s.calls.set i { c with phase }) {attempts : Nat}
    {node : EndpointId} {rest : List EndpointId}
    (hbefore : c.phase = .committing attempts held node rest)
    (hphase : phase = .commitAll attempts held rest)
    (hnames : ∀ e name, (u.node e).names.lookup name =
      if e = node ∧ name = c.name then some c.pid else s.bound e name) :
    (s.setClaims u).Spreads N := by
  intro name
  by_cases hname : name = c.name
  · subst hname
    have hcommits : phase.commits =
        if rest = [] then none else some (held, rest) := by
      rw [hphase]
      exact CallPhase.commits_commitAll ..
    have hvalue : ∀ f, f = node ∨ s.bound f c.name = some c.pid →
        (u.node f).names.lookup c.name = some c.pid := by
      intro f hf
      rw [hnames]
      by_cases hnode : f = node
      · exact if_pos ⟨hnode, rfl⟩
      · rw [if_neg fun heq => hnode heq.1]
        exact hf.resolve_left hnode
    rw [CommitFair, hbefore] at hfair
    obtain ⟨-, hlocks⟩ := hplaced.calls c (List.mem_of_getElem? hc)
    rw [hbefore] at hlocks
    obtain ⟨⟨-, hheld⟩, hrest⟩ := hlocks
    refine (h c.name).commit c.pid held node rest {
        node := hheld node (hrest node (List.mem_cons_self ..))
        claim := ⟨c, List.mem_of_getElem? hc, ⟨rfl, rfl⟩, by rw [hbefore]; rfl⟩
        free := hfair.1
        value := hvalue node (Or.inl rfl)
        others := fun f _ hf =>
          (hnames f c.name).trans (if_neg fun heq => hf heq.1)
        next := fun hne => claims_new hcalls hc (hcommits.trans (if_neg hne))
        kept := fun pid l left hclaim => ?_
        old := fun pid l left hclaim => ?_
        coming := rfl
        reads := rfl
        outdone := rfl
        gone := rfl
        last := fun hnil hgone houtdone f hf hnot => ?_ }
    · refine (claims_kept hcalls hc hclaim).imp_right fun ⟨heq, hcom⟩ => ?_
      rw [hbefore] at hcom
      cases hcom
      exact ⟨heq.2.symm, rfl, rfl⟩
    · exact (claims_old hcalls hclaim).imp_right fun hnew => hnew.1.2.symm
    · rcases hfair.2 hnil hgone houtdone f hf hnot with
        hhas | hbrings | ⟨g, hg, hne, hhas, hread⟩
      · exact Or.inl (hvalue f (Or.inr hhas))
      · exact Or.inr (Or.inl hbrings)
      · exact Or.inr (Or.inr ⟨g, hg, hne, hvalue g hhas, hread⟩)
  · exact spread_frame (h name)
      (fun e => (hnames e name).trans (if_neg fun heq => hname heq.2))
      (fun pid held left => claims_iff hcalls hc fun heq =>
        absurd heq.symm hname)
      (fun _ => Iff.rfl) (fun _ => Iff.rfl) (fun _ hj => hj)
      (fun _ hj => Or.inl hj) fun _ _ hread => hread

end Calls

theorem Spreads.advance (h : s.Spreads N) (hplaced : s.Placed N) {i : Nat}
    (hfair : s.Fair N (.advance i)) (hnext : s.step (.advance i) = some t) :
    t.Spreads N := by
  obtain ⟨c, hc, hrest⟩ := Option.bind_eq_some_iff.1 hnext
  obtain ⟨u, hu, rfl⟩ := Option.map_eq_some_iff.1 hrest
  obtain ⟨phase, hcalls, hphase⟩ := GlobalClaims.advance_next hu
  rw [decides_advance hc hcalls]
  cases hphase.progress with
  | quiet hbefore hphase hdecides _ hnames =>
    rw [if_neg (by rw [hdecides]; exact Bool.false_ne_true)]
    intro name
    exact spread_frame (h name) (fun e => hnames e name)
      (fun pid held left => claims_iff hcalls hc fun _ => ⟨hbefore, hphase⟩)
      (fun _ => Iff.rfl) (fun _ => Iff.rfl) (fun _ hj => hj)
      (fun _ hj => Or.inl hj) fun _ _ hread => hread
  | decided hbefore hphase hdecides hnames =>
    rw [if_pos hdecides]
    exact h.decided hc hcalls hbefore hphase hnames
  | committed hbefore hphase hdecides hnames =>
    rw [if_neg (by rw [hdecides]; exact Bool.false_ne_true)]
    exact h.committed hplaced hc (hfair c hc) hcalls hbefore hphase hnames

/-- Names are given up when their conflicts are resolved. -/
theorem Spreads.give_up (h : s.Spreads N) {gone : List (String × Pid)}
    {deaths : List Pid} {releases : List Release}
    (hgone : ∀ name pid, s.Gone name pid →
      (name, pid) ∈ gone ∨ pid ∈ s.died ∧ pid ∉ deaths)
    (hresolved : ∀ name pid, s.Present N name pid →
      ((name, pid) ∈ gone ∨ pid ∈ s.died ∧ pid ∉ deaths) →
        s.Gone name pid ∨ ∀ v, pid < v → (name, v) ∈ s.outdone →
          ¬ s.Gone name v → ¬ s.Present N name v) :
    Spreads N { s with
      released := gone, deaths := deaths, releases := releases } := by
  intro name
  refine (h name).give_up rfl rfl rfl rfl rfl (hgone name)
    fun w hw hgone' hnot v hlt houtdone hgv hv => ?_
  rcases hresolved name w (present_view.1 hw) hgone' with hgw | hall
  · exact hnot hgw
  · exact hall v hlt houtdone (fun hgs => hgv (hgone name v hgs))
      (present_view.1 hv)

theorem Spreads.unregister (h : s.Spreads N) {name : String} {pid : Pid}
    (hfair : s.Fair N (.unregister name pid))
    (hnext : s.step (.unregister name pid) = some t) : t.Spreads N := by
  simp only [step] at hnext
  split at hnext
  · obtain rfl := Option.some_inj.1 hnext
    refine h.give_up (fun name' v hgone => ?_) fun name' v hv hgone => ?_
    · exact hgone.imp_left fun hmem => List.mem_cons_of_mem _ hmem
    · rcases hgone with hmem | hdead
      · rcases List.mem_cons.1 hmem with heq | hmem
        · cases heq
          exact Or.inr fun w hlt houtdone => hfair hv (name, w) houtdone rfl hlt
        · exact Or.inl (Or.inl hmem)
      · exact Or.inl (Or.inr hdead)
  · cases hnext

theorem Spreads.react (h : s.Spreads N) {node : EndpointId}
    (hfair : s.Fair N (.react node)) (hnext : s.step (.react node) = some t) :
    t.Spreads N := by
  obtain ⟨dead, hdead, hnext⟩ := Option.bind_eq_some_iff.1 hnext
  split at hnext
  · cases hnext
  · obtain rfl := Option.some_inj.1 hnext
    refine h.give_up (fun name v hgone => ?_) fun name v hv hgone => ?_
    · exact hgone.imp_right fun ⟨hdied, hnot⟩ =>
        ⟨hdied, fun hmem => hnot (List.mem_of_mem_erase hmem)⟩
    · rcases hgone with hmem | ⟨hdied, hnot⟩
      · exact Or.inl (Or.inl hmem)
      · by_cases heq : v = dead
        · subst heq
          exact Or.inr fun w hlt houtdone =>
            hfair v hdead (name, w) houtdone hv (name, w) houtdone rfl hlt
        · refine Or.inl (Or.inr ⟨hdied, fun hmem => hnot ?_⟩)
          exact (List.mem_erase_of_ne heq).2 hmem

theorem Spreads.release (h : s.Spreads N) (haccounted : s.Accounted) {i : Nat}
    (hnext : s.step (.release i) = some t) : t.Spreads N := by
  obtain ⟨r, hr, rfl⟩ := Option.map_eq_some_iff.1 hnext
  obtain ⟨node, next, heq, hnames, -⟩ := s.releaseNext_spec r
  rw [heq]
  intro name
  refine (h name).drop (fun e _ pid hpid => ?_) (fun e _ pid hpid => ?_)
    rfl rfl rfl rfl rfl
  · rcases hnames e name with hsame | ⟨-, hnone⟩
    · exact hsame.symm.trans hpid
    · cases hnone.symm.trans hpid
  · rcases hnames e name with hsame | ⟨⟨rfl, hhas⟩, -⟩
    · exact Or.inl (hsame.trans hpid)
    · obtain rfl : r.pid = pid := Option.some_inj.1 (hhas.symm.trans hpid)
      exact Or.inr (haccounted.gone (List.mem_of_getElem? hr))

theorem spreads_step {a : NameAction} (h : s.Spreads N) (hplaced : s.Placed N)
    (haccounted : s.Accounted) (hok : s.Orderly N a)
    (hnext : s.step a = some t) : t.Spreads N := by
  obtain ⟨hreliable, hheard, hfair⟩ := hok
  cases a with
  | join now node peer => exact h.join hnext
  | connect node peer =>
    simp only [step] at hnext
    split at hnext
    · cases hnext
    · obtain rfl := Option.some_inj.1 hnext
      intro name
      exact spread_frame (h name) (fun _ => rfl) (fun _ _ _ => Iff.rfl)
        (fun _ => Iff.rfl) (fun _ => Iff.rfl) (fun _ hj => hj)
        (fun _ hj => Or.inl hj) fun _ _ hread => hread.grow
          (fun _ _ he => Or.inl he) (fun _ hj => hj)
          fun k hk _ _ _ => Or.inl (List.mem_append_left _ hk)
  | announce i now => exact h.announce hnext
  | sync i => exact h.sync hplaced hfair hnext
  | register name' pid' =>
    simp only [step] at hnext
    split at hnext
    · obtain rfl := Option.some_inj.1 hnext
      intro name
      refine spread_frame (h name) (fun _ => rfl) (fun pid held left => ?_)
        (fun _ => Iff.rfl) (fun _ => Iff.rfl) (fun _ hj => hj)
        (fun _ hj => Or.inl hj) fun _ _ hread => hread
      constructor
      · rintro ⟨c, hc, hname, hcommits⟩
        rcases List.mem_append.1 hc with hc | hc
        · exact ⟨c, hc, hname, hcommits⟩
        · rw [List.mem_singleton.1 hc] at hcommits
          cases hcommits
      · rintro ⟨c, hc, hname, hcommits⟩
        exact ⟨c, List.mem_append_left _ hc, hname, hcommits⟩
    · cases hnext
  | advance i => exact h.advance hplaced hfair hnext
  | unregister name pid => exact h.unregister hfair hnext
  | release i => exact h.release haccounted hnext
  | die pid =>
    have hgone : ∀ name v, t.Gone name v ↔ s.Gone name v :=
      fun _ _ => gone_die hheard hnext
    obtain ⟨-, rfl⟩ := die_cases hheard hnext
    intro name
    exact spread_frame (h name) (fun _ => rfl) (fun _ _ _ => Iff.rfl)
      (fun _ => Iff.rfl) (hgone name) (fun _ hj => hj) (fun _ hj => Or.inl hj)
      fun _ _ hread => hread
  | react node => exact h.react hfair hnext
  | syncFails i => exact hreliable.elim
  | unanswered i carriedOut => exact hreliable.elim
  | releaseFails i => exact hreliable.elim
  | lose node peer => exact hreliable.elim

/-! ## Owners are at home -/

/-- The pid lost a conflict over the name and was put on a kill list. -/
def Condemned (s : NameCluster) (name : String) (pid : Pid) : Prop :=
  ∃ k ∈ s.sync.env.kills, k.2.name = name ∧ k.2.loser = pid

instance (s : NameCluster) (name : String) (pid : Pid) :
    Decidable (s.Condemned name pid) :=
  inferInstanceAs (Decidable (∃ k ∈ _, _))

/-- Unless it has lost the name, the pid has it at home, or will when its claim
commits there. -/
def Secure (s : NameCluster) (name : String) (pid : Pid) : Prop :=
  (name, pid) ∈ s.released ∨ pid ∈ s.died ∨ s.Condemned name pid ∨
    s.bound pid.node name = some pid ∨
      ∃ held left, (s.view name).claims pid held left ∧ pid.node ∈ left

/-- Whoever has won a name, or commits, has it. -/
def Owners (s : NameCluster) : Prop :=
  ∀ c ∈ s.calls, c.phase.won = true ∨ c.phase.commits.isSome = true →
    s.Secure c.name c.pid

theorem Secure.imp {pid : Pid} (h : s.Secure name pid)
    (hreleased : (name, pid) ∈ s.released → t.Secure name pid)
    (hdied : ∀ p ∈ s.died, p ∈ t.died)
    (hkills : ∀ k ∈ s.sync.env.kills, k ∈ t.sync.env.kills)
    (hbound : s.bound pid.node name = some pid → t.Secure name pid)
    (hclaims : ∀ held left, (s.view name).claims pid held left →
      pid.node ∈ left → t.Secure name pid) : t.Secure name pid := by
  rcases h with h | h | ⟨k, hk, hlost⟩ | h | ⟨held, left, hclaim, hmem⟩
  · exact hreleased h
  · exact Or.inr (Or.inl (hdied pid h))
  · exact Or.inr (Or.inr (Or.inl ⟨k, hkills k hk, hlost⟩))
  · exact hbound h
  · exact hclaims held left hclaim hmem

theorem Secure.of_bound {pid : Pid} (h : s.bound pid.node name = some pid) :
    s.Secure name pid :=
  Or.inr (Or.inr (Or.inr (Or.inl h)))

theorem Secure.of_claims {pid : Pid} {held left : List EndpointId}
    (h : (s.view name).claims pid held left) (hmem : pid.node ∈ left) :
    s.Secure name pid :=
  Or.inr (Or.inr (Or.inr (Or.inr ⟨held, left, h, hmem⟩)))

/-- A merge takes a name from a particle of its node only by condemning it. -/
theorem Owners.sync (h : s.Owners) {i : Nat}
    (hnext : s.step (.sync i) = some t) : t.Owners := by
  obtain ⟨sync, hwork, rfl⟩ := Option.map_eq_some_iff.1 hnext
  obtain ⟨j, hj, rfl⟩ := Pool.work_cases hwork
  intro c hc hwon
  have hsecure := h c hc hwon
  rcases s.sync.env.handle_names j with
    ⟨hnames, -, hkills⟩ | ⟨node, theirs, back, rfl⟩
  · refine hsecure.imp Or.inl (fun _ hp => hp) (fun k hk => ?_)
      (fun hbound => .of_bound ?_) fun held left hclaim hmem =>
        .of_claims hclaim hmem
    · show k ∈ (s.sync.env.handle () j).1.kills
      rw [hkills]
      exact hk
    · show ((s.sync.env.handle () j).1.node c.pid.node).names.lookup c.name = _
      rw [hnames]
      exact hbound
  · refine hsecure.imp Or.inl (fun _ hp => hp)
      (fun k hk => List.mem_append_left _ hk)
      (fun hbound => ?_) fun held left hclaim hmem => .of_claims hclaim hmem
    by_cases hnode : c.pid.node = node
    · subst hnode
      by_cases hsame : (GlobalNames.mergeAll (s.sync.env.node c.pid.node).names
          theirs.names).1.lookup c.name = some c.pid
      · refine .of_bound ?_
        show ((s.sync.env.mergeAt c.pid.node theirs).node
          c.pid.node).names.lookup c.name = _
        rw [SyncEnv.names_mergeAt_self]
        exact hsame
      · obtain ⟨v, hv, hname, hloser⟩ := (GlobalNames.lost_mergeAll_iff
          (s.sync.env.node c.pid.node).names theirs.names c.name c.pid).2
            ⟨Or.inl hbound, hsame⟩
        refine Or.inr (Or.inr (Or.inl ⟨(c.pid.node, v), ?_, hname, hloser⟩))
        refine List.mem_append_right _ (List.mem_map_of_mem ?_)
        refine List.mem_filter.2 ⟨hv, Pid.isLocalTo_iff.2 ?_⟩
        rw [hloser]
    · refine .of_bound ?_
      show ((s.sync.env.mergeAt node theirs).node
        c.pid.node).names.lookup c.name = _
      rw [s.sync.env.node_mergeAt_ne theirs hnode]
      exact hbound

/-- A claim that commits has its home among the nodes that it has locked. -/
theorem home_mem_of_commits {phase : CallPhase} {home : EndpointId}
    (h : phase.Locks N home) {held left : List EndpointId}
    (hcommits : phase.commits = some (held, left)) : home ∈ held := by
  cases phase with
  | committing attempts l node rest =>
    cases hcommits
    exact h.1.1
  | _ => cases hcommits

theorem Owners.advance (h : s.Owners) (hplaced : s.Placed N) {i : Nat}
    (hfair : s.Fair N (.advance i)) (hnext : s.step (.advance i) = some t) :
    t.Owners := by
  obtain ⟨c, hc, hrest⟩ := Option.bind_eq_some_iff.1 hnext
  obtain ⟨u, hu, rfl⟩ := Option.map_eq_some_iff.1 hrest
  obtain ⟨phase, hcalls, hphase⟩ := GlobalClaims.advance_next hu
  have hmem := List.mem_of_getElem? hc
  obtain ⟨hhome, hlocks⟩ := hplaced.calls c hmem
  have hlocks := hphase.locks hlocks hhome.2 fun e he =>
    hplaced.mesh.members _ hhome.2 e (mem_roster.1 he)
  rw [decides_advance hc hcalls]
  cases hphase.progress with
  | quiet hbefore hphase hdecides hwon hnames =>
    rw [if_neg (by rw [hdecides]; exact Bool.false_ne_true)]
    have hsecure : ∀ name pid, s.Secure name pid →
        (s.setClaims u).Secure name pid := by
      intro name pid hsecure
      refine hsecure.imp Or.inl (fun _ hp => hp) (fun _ hk => hk)
        (fun hbound => .of_bound ((hnames _ _).trans hbound))
        fun held left hclaim hleft => ?_
      refine .of_claims ((claims_iff hcalls hc ?_).2 hclaim) hleft
      exact fun _ => ⟨hbefore, hphase⟩
    intro d hd hdwon
    rw [show (s.setClaims u).calls = u.calls from rfl, hcalls] at hd
    rcases List.mem_or_eq_of_mem_set hd with hd | rfl
    · exact hsecure _ _ (h d hd hdwon)
    · refine hsecure _ _ (h c hmem (Or.inl (hdwon.elim hwon fun hcom => ?_)))
      rw [hphase] at hcom
      cases hcom
  | @decided held hbefore hphase hdecides hnames =>
    rw [if_pos hdecides]
    have hown : ((s.setClaims u).claimed c.name c.pid).Secure c.name c.pid := by
      refine .of_claims (claims_new hcalls hc hphase) ?_
      rw [hhome.1]
      exact home_mem_of_commits hlocks hphase
    have hsecure : ∀ name pid, s.Secure name pid →
        ((s.setClaims u).claimed c.name c.pid).Secure name pid := by
      intro name pid hsecure
      refine hsecure.imp (fun hmem => ?_) (fun _ hp => hp) (fun _ hk => hk)
        (fun hbound => .of_bound ((hnames _ _).trans hbound))
        fun held left hclaim hleft => ?_
      · by_cases heq : (name, pid) = (c.name, c.pid)
        · cases heq
          exact hown
        · exact Or.inl (List.mem_filter.2 ⟨hmem, decide_eq_true heq⟩)
      · rcases claims_kept (t := (s.setClaims u).claimed c.name c.pid) hcalls hc
          hclaim with hclaim | ⟨-, hcom⟩
        · exact .of_claims hclaim hleft
        · rw [hbefore] at hcom
          cases hcom
    intro d hd hdwon
    rw [show ((s.setClaims u).claimed c.name c.pid).calls = u.calls from rfl,
      hcalls] at hd
    rcases List.mem_or_eq_of_mem_set hd with hd | rfl
    · exact hsecure _ _ (h d hd hdwon)
    · exact hown
  | @committed attempts held rest node hbefore hphase hdecides hnames =>
    rw [if_neg (by rw [hdecides]; exact Bool.false_ne_true)]
    have hfair : s.CommitFair N c := hfair c hc
    rw [CommitFair, hbefore] at hfair
    have hsecure : ∀ name pid, s.Secure name pid →
        (s.setClaims u).Secure name pid := by
      intro name pid hsecure
      refine hsecure.imp Or.inl (fun _ hp => hp) (fun _ hk => hk)
        (fun hbound => .of_bound ((hnames _ _).trans ?_))
        fun l left hclaim hleft => ?_
      · split
        · rename_i heq
          rw [heq.1, heq.2] at hbound
          rw [hfair.1 pid hbound]
        · exact hbound
      · rcases claims_kept (t := s.setClaims u) hcalls hc hclaim with
          hclaim | ⟨⟨rfl, rfl⟩, hcom⟩
        · exact .of_claims hclaim hleft
        · rw [hbefore] at hcom
          cases hcom
          rcases List.mem_cons.1 hleft with heq | hleft
          · exact .of_bound ((hnames _ _).trans (if_pos ⟨heq, rfl⟩))
          · have hcommits : phase.commits = some (held, rest) := by
              rw [hphase, CallPhase.commits_commitAll,
                if_neg (List.ne_nil_of_mem hleft)]
            exact .of_claims (claims_new hcalls hc hcommits) hleft
    intro d hd hdwon
    rw [show (s.setClaims u).calls = u.calls from rfl, hcalls] at hd
    rcases List.mem_or_eq_of_mem_set hd with hd | rfl
    · exact hsecure _ _ (h d hd hdwon)
    · refine hsecure _ _ (h c hmem (Or.inr ?_))
      rw [hbefore]
      rfl

theorem Owners.release (h : s.Owners) (haccounted : s.Accounted) {i : Nat}
    (hnext : s.step (.release i) = some t) : t.Owners := by
  obtain ⟨r, hr, rfl⟩ := Option.map_eq_some_iff.1 hnext
  obtain ⟨node, next, heq, hnames, -⟩ := s.releaseNext_spec r
  rw [heq]
  intro c hc hwon
  refine (h c hc hwon).imp Or.inl (fun _ hp => hp) (fun _ hk => hk)
    (fun hbound => ?_) fun held left hclaim hmem => .of_claims hclaim hmem
  rcases hnames c.pid.node c.name with hsame | ⟨⟨hname, hhas⟩, -⟩
  · exact .of_bound (hsame.trans hbound)
  · have hpid : r.pid = c.pid := Option.some_inj.1 (hhas.symm.trans hbound)
    rcases haccounted.gone (List.mem_of_getElem? hr) with hmem | ⟨hdied, -⟩
    · rw [← hname, hpid] at hmem
      exact Or.inl hmem
    · rw [hpid] at hdied
      exact Or.inr (Or.inl hdied)

theorem owners_step {a : NameAction} (h : s.Owners) (hplaced : s.Placed N)
    (haccounted : s.Accounted) (hok : s.Orderly N a)
    (hnext : s.step a = some t) : t.Owners := by
  obtain ⟨hreliable, hheard, hfair⟩ := hok
  cases a with
  | join now node peer =>
    obtain rfl := Option.some_inj.1 hnext
    exact h
  | connect node peer =>
    simp only [step] at hnext
    split at hnext
    · cases hnext
    · obtain rfl := Option.some_inj.1 hnext
      exact h
  | announce i now =>
    obtain ⟨j, -, hrest⟩ := Option.bind_eq_some_iff.1 hnext
    obtain ⟨mesh, -, rfl⟩ := Option.map_eq_some_iff.1 hrest
    exact h
  | sync i => exact h.sync hnext
  | register name pid =>
    simp only [step] at hnext
    split at hnext
    · obtain rfl := Option.some_inj.1 hnext
      intro c hc hwon
      rcases List.mem_append.1 hc with hc | hc
      · refine (h c hc hwon).imp Or.inl (fun _ hp => hp) (fun _ hk => hk)
          (fun hbound => .of_bound hbound)
          fun held left hclaims hmem => ?_
        obtain ⟨d, hd, hclaim⟩ := hclaims
        exact .of_claims ⟨d, List.mem_append_left _ hd, hclaim⟩ hmem
      · rw [List.mem_singleton.1 hc] at hwon
        rcases hwon with hwon | hwon <;> cases hwon
    · cases hnext
  | advance i => exact h.advance hplaced hfair hnext
  | unregister name pid =>
    simp only [step] at hnext
    split at hnext
    · obtain rfl := Option.some_inj.1 hnext
      intro c hc hwon
      exact (h c hc hwon).imp (fun hmem => Or.inl (List.mem_cons_of_mem _ hmem))
        (fun _ hp => hp) (fun _ hk => hk) (fun hbound => .of_bound hbound)
        fun held left hclaim hmem => .of_claims hclaim hmem
    · cases hnext
  | release i => exact h.release haccounted hnext
  | die pid =>
    obtain ⟨-, rfl⟩ := die_cases hheard hnext
    intro c hc hwon
    exact (h c hc hwon).imp Or.inl (fun _ hp => List.mem_cons_of_mem _ hp)
      (fun _ hk => hk) (fun hbound => .of_bound hbound)
      fun held left hclaim hmem => .of_claims hclaim hmem
  | react node =>
    obtain ⟨dead, -, hnext⟩ := Option.bind_eq_some_iff.1 hnext
    split at hnext
    · cases hnext
    · obtain rfl := Option.some_inj.1 hnext
      exact h
  | syncFails i => exact hreliable.elim
  | unanswered i carriedOut => exact hreliable.elim
  | releaseFails i => exact hreliable.elim
  | lose node peer => exact hreliable.elim

/-! ## Runs -/

/-- What holds along an orderly run. -/
structure OwnerInv (N : Finset EndpointId) (s : NameCluster) : Prop where
  placed : s.Placed N
  accounted : s.Accounted
  spreads : s.Spreads N
  owners : s.Owners
  releases : ReleaseInv N s

theorem ownerInv_start (N : Finset EndpointId)
    (addrs : EndpointId → List TransportAddr) : OwnerInv N (start addrs) where
  placed := {
    mesh := ⟨fun e _ x hx => (nomatch hx), fun e _ x hx => (nomatch hx)⟩
    meshJobs := fun j hj => nomatch hj
    jobs := fun j hj => nomatch hj
    calls := fun c hc => nomatch hc }
  accounted := {
    releases := fun r hr => nomatch hr
    busy := fun r hr => nomatch hr
    once := List.nodup_nil
    deaths := fun p hp => nomatch hp }
  spreads := fun name => Spread.inv_empty fun v hv => by
    rcases hv with ⟨e, -, h⟩ | ⟨e, -, j, hj, -⟩ | ⟨held, left, c, hc, -⟩
    · cases h
    · cases hj
    · cases hc
  owners := fun c hc => nomatch hc
  releases := fun e _ name pid h => nomatch h

theorem ownerInv_step {a : NameAction} (h : OwnerInv N s)
    (hok : s.Orderly N a) (hnext : s.step a = some t) : OwnerInv N t where
  placed := placed_step h.placed hok.1 hnext
  accounted := accounted_step h.accounted hok.1 hok.2.1 hnext
  spreads := spreads_step h.spreads h.placed h.accounted hok hnext
  owners := owners_step h.owners h.placed h.accounted hok hnext
  releases := releaseInv_step h.releases hok.2.1 hnext

/-- No claim, no exchange, no release and no message is in progress. -/
def Resting (s : NameCluster) : Prop :=
  s.mesh.jobs.length = 0 ∧ s.sync.jobs.length = 0 ∧
    (∀ c ∈ s.calls, c.phase.active = false) ∧ s.releases = []

/-- All nodes of `N` are members of each other. -/
def Acquainted (N : Finset EndpointId) (s : NameCluster) : Prop :=
  ∀ e ∈ N, ∀ f ∈ N, e ≠ f → f ∈ s.roster e

/-- All tables are equal, and they have the names of all particles that claimed
one, live, have not given it up and were not condemned. -/
structure Agreed (N : Finset EndpointId) (s : NameCluster) : Prop where
  tables : ∀ e ∈ N, ∀ f ∈ N, ∀ name, s.bound e name = s.bound f name
  owners : ∀ c ∈ s.calls, c.phase = .returned (.ok ()) → c.pid ∉ s.died →
    (c.name, c.pid) ∉ s.released → ¬ s.Condemned c.name c.pid →
      ∀ e ∈ N, s.bound e c.name = some c.pid

instance (s : NameCluster) : Decidable s.Resting :=
  inferInstanceAs (Decidable (_ ∧ _))

instance (N : Finset EndpointId) (s : NameCluster) :
    Decidable (s.Acquainted N) :=
  inferInstanceAs (Decidable (∀ e ∈ N, ∀ f ∈ N, _))

theorem no_claims_of_resting (h : s.Resting) (name : String) (pid : Pid)
    (held left : List EndpointId) :
    ¬ (s.view name).claims pid held left := by
  rintro ⟨c, hc, -, hcommits⟩
  have hactive := h.2.2.1 c hc
  cases hphase : c.phase with
  | committing attempts l node rest =>
    rw [hphase] at hactive
    cases hactive
  | _ =>
    rw [hphase] at hcommits
    cases hcommits

theorem tables_agree (h : OwnerInv N s) (hrest : s.Resting)
    (hmesh : s.Acquainted N) :
    ∀ e ∈ N, ∀ f ∈ N, ∀ name, s.bound e name = s.bound f name := by
  have hmeshJobs : s.mesh.jobs = [] := List.eq_nil_of_length_eq_zero hrest.1
  have hjobs : s.sync.jobs = [] := List.eq_nil_of_length_eq_zero hrest.2.1
  intro e he f hf name
  refine (h.spreads name).agree (fun x _ pid hcoming => ?_)
    (no_claims_of_resting hrest name) (fun x hx y hy hne hread => ?_)
    (fun x hx pid hpid hgone => ?_) e he f hf
  · obtain ⟨j, hj, -⟩ := hcoming
    rw [hjobs] at hj
    cases hj
  · rcases hread with hnot | ⟨j, hj, -⟩ | ⟨k, hk, -⟩
    · rcases hnot with hnot | hnot
      · exact hnot (hmesh x hx y hy hne)
      · exact hnot (hmesh y hy x hx hne.symm)
    · rw [hjobs] at hj
      cases hj
    · rw [hmeshJobs] at hk
      cases hk
  · obtain ⟨r, hr, -⟩ := (h.releases x hx name pid hpid).1 hgone
    rw [hrest.2.2.2] at hr
    cases hr

/-- When nothing is in progress and all nodes are members of each other, every
name has one owner that all nodes agree on. -/
theorem names_have_one_owner (N : Finset EndpointId)
    (addrs : EndpointId → List TransportAddr)
    (hrun : Run step (Orderly N) (start addrs) s) (hrest : s.Resting)
    (hmesh : s.Acquainted N) : s.Agreed N := by
  have hinv : OwnerInv N s :=
    hrun.invariant ownerInv_step (ownerInv_start N addrs)
  have htables := tables_agree hinv hrest hmesh
  refine ⟨htables, fun c hc hok hlive hkept hspared e he => ?_⟩
  obtain ⟨⟨hhome, hN⟩, -⟩ := hinv.placed.calls c hc
  have hwon : c.phase.won = true := by
    rw [hok]
    rfl
  rw [← hhome] at hN
  rw [htables e he c.pid.node hN c.name]
  rcases hinv.owners c hc (Or.inl hwon) with
    h | h | h | h | ⟨held, left, h, -⟩
  · exact absurd h hkept
  · exact absurd h hlive
  · exact absurd h hspared
  · exact h
  · exact absurd h (no_claims_of_resting hrest _ _ held left)

/-- Both nodes claim the same name, and then node 2 joins node 1. -/
theorem names_have_one_owner_conflict :
    ∃ s, Run step (Orderly {⟨1⟩, ⟨2⟩}) (start fun _ => ["udp"]) s ∧
      ((s.Resting ∧ s.Acquainted {⟨1⟩, ⟨2⟩}) ∧
        s.bound ⟨2⟩ "svc" = some ⟨⟨1⟩, 1⟩ ∧ s.Condemned "svc" ⟨⟨2⟩, 1⟩) ∧
      s.Agreed {⟨1⟩, ⟨2⟩} := by
  have hrun : ∃ s, Run step (Orderly {⟨1⟩, ⟨2⟩}) (start fun _ => ["udp"]) s ∧
      ((s.Resting ∧ s.Acquainted {⟨1⟩, ⟨2⟩}) ∧
        s.bound ⟨2⟩ "svc" = some ⟨⟨1⟩, 1⟩ ∧ s.Condemned "svc" ⟨⟨2⟩, 1⟩) :=
    exec_run_of_any (α := NameAction) (.flatten
      [[.register "svc" ⟨⟨1⟩, 1⟩], .replicate 7 (.advance 0),
        [.register "svc" ⟨⟨2⟩, 1⟩], .replicate 7 (.advance 1),
        [.join 5 ⟨2⟩ ⟨⟨1⟩, ["udp"]⟩], .replicate 10 (.announce 0 5),
        .replicate 23 (.sync 0)]) (by decide)
  obtain ⟨s, hrun, hend⟩ := hrun
  exact ⟨s, hrun, hend,
    names_have_one_owner _ _ hrun hend.1.1 hend.1.2⟩

/-- Nodes of `N` join each other and claim names, one claimant on each node. -/
def JoinsAndClaims (N : Finset EndpointId) (s : NameCluster) :
    NameAction → Prop
  | .join _ node peer => node ∈ N ∧ peer.id ∈ N
  | .register _ pid => pid.node ∈ N ∧ ∀ c ∈ s.calls, c.pid.node ≠ pid.node
  | .announce .. | .sync _ | .advance _ => True
  | _ => False

instance (N : Finset EndpointId) (s : NameCluster) :
    DecidablePred (s.JoinsAndClaims N)
  | .join .. => inferInstanceAs (Decidable (_ ∈ N ∧ _ ∈ N))
  | .register .. => inferInstanceAs (Decidable (_ ∈ N ∧ ∀ c ∈ s.calls, _))
  | .announce .. | .sync _ | .advance _ => isTrue trivial
  | .connect .. | .syncFails _ | .unanswered .. | .unregister .. | .release _
  | .releaseFails _ | .die _ | .react _ | .lose .. => isFalse id

/-- Node 1 has read its members and holds all its locks when node 2 joins.  The
tables are exchanged before node 1 commits, so that node 2 never hears of the
name. -/
theorem joins_leave_two_tables : ¬ ∀ addrs s,
    Run step (JoinsAndClaims {⟨1⟩, ⟨2⟩}) (start addrs) s → s.Resting →
      s.Acquainted {⟨1⟩, ⟨2⟩} → s.Agreed {⟨1⟩, ⟨2⟩} := by
  have hrun : ∃ s, Run step (JoinsAndClaims {⟨1⟩, ⟨2⟩})
      (start fun _ => ["udp"]) s ∧ (s.Resting ∧ s.Acquainted {⟨1⟩, ⟨2⟩}) ∧
        s.bound ⟨1⟩ "svc" ≠ s.bound ⟨2⟩ "svc" :=
    exec_run_of_any (α := NameAction) (.flatten
      [[.register "svc" ⟨⟨1⟩, 1⟩], .replicate 5 (.advance 0),
        [.join 5 ⟨2⟩ ⟨⟨1⟩, ["udp"]⟩], .replicate 10 (.announce 0 5),
        .replicate 22 (.sync 0), .replicate 2 (.advance 0)]) (by decide)
  obtain ⟨s, hrun, ⟨hrest, hmesh⟩, hne⟩ := hrun
  intro hall
  exact hne ((hall _ s hrun hrest hmesh).tables ⟨1⟩ (by decide) ⟨2⟩ (by decide)
    "svc")

end NameCluster

end Plasmoid
