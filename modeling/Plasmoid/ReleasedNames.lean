import Plasmoid.NameCluster

/-!
# Do released names stay released?

A name is released by its owner, or by the death reactor of its owner's node.
The release asks the members of that moment, once each.  So a table keeps a name
for good if it gets it behind the release: from a table that was read before, or
from a claim that commits later.  And nothing releases the names of a lost node.

`Heard` is what a step must look out for.  As long as every step does, a table
binds a name to a pid that is gone only while a release is still on its way to
it (`releaseInv_step`).
-/

namespace Plasmoid

open Machine

/-- The release will still drop the name at the node. -/
def Release.Reaches (r : Release) (node : EndpointId) : Prop :=
  match r.phase with
  | .start | .roster => True
  | .asking rest => node ∈ rest

instance (r : Release) (node : EndpointId) : Decidable (r.Reaches node) := by
  unfold Release.Reaches
  split <;> infer_instance

namespace NameCluster

/-- A release of the name will still reach the node. -/
def Releasing (s : NameCluster) (node : EndpointId) (name : String)
    (pid : Pid) : Prop :=
  ∃ r ∈ s.releases, (r.name = name ∧ r.pid = pid) ∧ r.Reaches node

/-- The pid has given up the name, or its death has been heard of. -/
def Gone (s : NameCluster) (name : String) (pid : Pid) : Prop :=
  (name, pid) ∈ s.released ∨ pid ∈ s.died ∧ pid ∉ s.deaths

instance (s : NameCluster) (node : EndpointId) (name : String) (pid : Pid) :
    Decidable (s.Releasing node name pid) :=
  inferInstanceAs (Decidable (∃ r ∈ s.releases, _))

instance (s : NameCluster) (name : String) (pid : Pid) :
    Decidable (s.Gone name pid) :=
  inferInstanceAs (Decidable (_ ∨ _ ∧ _))

/-- The pid is alive, its node is not lost to the given one, and it has not
given up the name. -/
def Holds (s : NameCluster) (node : EndpointId) (name : String)
    (pid : Pid) : Prop :=
  pid ∉ s.died ∧ (node, pid.node) ∉ s.lost ∧ (name, pid) ∉ s.released

/-- Nothing is in progress, and every death has been heard of. -/
def Settled (s : NameCluster) : Prop :=
  s.mesh.jobs.length = 0 ∧ s.sync.jobs.length = 0 ∧
    (∀ c ∈ s.calls, c.phase.active = false) ∧ s.releases = [] ∧ s.deaths = []

instance (s : NameCluster) (node : EndpointId) (name : String) (pid : Pid) :
    Decidable (s.Holds node name pid) :=
  inferInstanceAs (Decidable (_ ∧ _))

instance (s : NameCluster) : Decidable s.Settled :=
  inferInstanceAs (Decidable (_ ∧ _ ∧ _))

/-! ## The condition -/

/-- The node may bind the name to the pid: a release will still reach it if the
pid is gone, and it has not lost the pid's node. -/
def MayBind (s : NameCluster) (node : EndpointId) (name : String)
    (pid : Pid) : Prop :=
  (s.Gone name pid → s.Releasing node name pid) ∧ (node, pid.node) ∉ s.lost

instance (s : NameCluster) (node : EndpointId) (name : String) (pid : Pid) :
    Decidable (s.MayBind node name pid) :=
  inferInstanceAs (Decidable ((_ → _) ∧ _))

/-- A claim that commits does so where its pid may be bound. -/
def CommitHeard (N : Finset EndpointId) (s : NameCluster) (c : Call) : Prop :=
  match c.phase with
  | .committing _ _ node _ => node ∈ N → s.MayBind node c.name c.pid
  | _ => True

/-- A merge takes up only what may be bound. -/
def MergeHeard (N : Finset EndpointId) (s : NameCluster) : SyncJob → Prop
  | .merge node theirs _ => node ∈ N → ∀ e ∈ theirs.names,
    (∀ p ∈ s.bound node e.1, e.2 < p) → s.MayBind node e.1 e.2
  | _ => True

/-- The release finds the name at home if any node has it, and asks every node
that has it. -/
def ReleaseHeard (N : Finset EndpointId) (s : NameCluster) (r : Release) :
    Prop :=
  match r.phase with
  | .start => s.bound r.pid.node r.name ≠ some r.pid →
    ∀ x ∈ N, s.bound x r.name ≠ some r.pid
  | .roster => ∀ x ∈ N, s.bound x r.name = some r.pid →
    x ∈ s.roster r.pid.node
  | .asking _ => True

/-- The lost request was for a node without the name. -/
def LossHarmless (N : Finset EndpointId) (s : NameCluster) (r : Release) :
    Prop :=
  match r.phase with
  | .asking (node :: _) => node ∈ N → s.bound node r.name ≠ some r.pid
  | _ => True

/-- Nothing is bound behind a release, and every release reaches all who have
the name.  A death finds room in the queue, and the reactor finds the dead
particle's name.  No table names a particle of a node that its own node loses. -/
def Heard (N : Finset EndpointId) (s : NameCluster) : NameAction → Prop
  | .sync i => ∀ j ∈ s.sync.jobs[i]?, s.MergeHeard N j
  | .advance i | .unanswered i true => ∀ c ∈ s.calls[i]?, s.CommitHeard N c
  | .release i => ∀ r ∈ s.releases[i]?, s.ReleaseHeard N r
  | .releaseFails i => ∀ r ∈ s.releases[i]?, s.LossHarmless N r
  | .die pid => (s.deathsAt pid.node).length <
    ParticleRegistry.deathBroadcastCapacity
  | .react node => ∀ pid ∈ (s.deathsAt node).head?, ∀ x ∈ N,
    ∀ e ∈ (s.sync.env.node x).snapshot, e.2 = pid →
      (s.sync.env.node node).nameOf pid = some e.1
  | .lose node peer => node ∈ N → ∀ e ∈ (s.sync.env.node node).snapshot,
    e.2.node ≠ peer
  | _ => True

instance (N : Finset EndpointId) (s : NameCluster) :
    DecidablePred (s.CommitHeard N)
  | ⟨_, _, _, .committing ..⟩ => inferInstanceAs (Decidable (_ ∈ N → _))
  | ⟨_, _, _, .settling⟩ | ⟨_, _, _, .checking⟩ | ⟨_, _, _, .sorting _⟩
  | ⟨_, _, _, .locking ..⟩ | ⟨_, _, _, .taking ..⟩ | ⟨_, _, _, .releasing ..⟩
  | ⟨_, _, _, .returned _⟩ => isTrue trivial

instance (N : Finset EndpointId) (s : NameCluster) :
    DecidablePred (s.MergeHeard N)
  | .merge .. => inferInstanceAs (Decidable
      (_ ∈ N → ∀ e ∈ _, (∀ p ∈ _, _ < p) → _))
  | .begin .. | .snapshot .. | .request .. | .answer .. | .close .. | .kill ..
  | .reply .. | .settling .. | .peeking .. => isTrue trivial

instance (N : Finset EndpointId) (s : NameCluster) (r : Release) :
    Decidable (s.ReleaseHeard N r) := by
  unfold ReleaseHeard
  split <;> infer_instance

instance (N : Finset EndpointId) (s : NameCluster) (r : Release) :
    Decidable (s.LossHarmless N r) := by
  unfold LossHarmless
  split <;> infer_instance

instance (N : Finset EndpointId) (s : NameCluster) :
    DecidablePred (s.Heard N)
  | .sync i => inferInstanceAs (Decidable (∀ j ∈ s.sync.jobs[i]?, _))
  | .advance i | .unanswered i true =>
    inferInstanceAs (Decidable (∀ c ∈ s.calls[i]?, _))
  | .release i => inferInstanceAs (Decidable (∀ r ∈ s.releases[i]?, _))
  | .releaseFails i => inferInstanceAs (Decidable (∀ r ∈ s.releases[i]?, _))
  | .die _ => inferInstanceAs (Decidable (_ < _))
  | .react node => inferInstanceAs (Decidable
      (∀ pid ∈ (s.deathsAt node).head?, ∀ x ∈ N, ∀ e ∈ _, _ → _))
  | .lose _ _ => inferInstanceAs (Decidable (_ → ∀ e ∈ _, _))
  | .join .. | .connect .. | .announce .. | .syncFails _ | .register ..
  | .unanswered _ false | .unregister .. => isTrue trivial

/-! ## The invariant -/

/-- A table binds a name to a pid that is gone only while a release is on its
way. -/
def ReleaseInv (N : Finset EndpointId) (s : NameCluster) : Prop :=
  ∀ e ∈ N, ∀ name pid, s.bound e name = some pid → s.MayBind e name pid

variable {N : Finset EndpointId} {s t : NameCluster} {e : EndpointId}
variable {name : String} {pid : Pid}

theorem MayBind.mono (h : s.MayBind e name pid)
    (hgone : t.Gone name pid → s.Gone name pid)
    (hreleasing : s.Releasing e name pid → t.Releasing e name pid)
    (hlost : ∀ x ∈ t.lost, x ∈ s.lost) : t.MayBind e name pid :=
  ⟨fun ht => hreleasing (h.1 (hgone ht)), fun ht => h.2 (hlost _ ht)⟩

/-- Tables get what they may have, and no pid goes without a release. -/
theorem ReleaseInv.change (h : ReleaseInv N s)
    (hbound : ∀ e ∈ N, ∀ name pid, t.bound e name = some pid →
      s.bound e name = some pid ∨ s.MayBind e name pid)
    (hgone : ∀ name pid, t.Gone name pid → s.Gone name pid)
    (hreleases : ∀ r ∈ s.releases, r ∈ t.releases)
    (hlost : ∀ x ∈ t.lost, x ∈ s.lost) : ReleaseInv N t := by
  intro e he name pid hpid
  have hmay : s.MayBind e name pid :=
    (hbound e he name pid hpid).elim (h e he name pid) id
  refine hmay.mono (hgone name pid) ?_ hlost
  rintro ⟨r, hr, hreaches⟩
  exact ⟨r, hreleases r hr, hreaches⟩

/-- Nothing happens to tables, releases and the dead. -/
theorem ReleaseInv.frame (h : ReleaseInv N s)
    (hbound : ∀ e name, t.bound e name = s.bound e name)
    (hreleased : t.released = s.released) (hdied : t.died = s.died)
    (hdeaths : t.deaths = s.deaths) (hreleases : t.releases = s.releases)
    (hlost : ∀ x ∈ t.lost, x ∈ s.lost) : ReleaseInv N t := by
  refine h.change (fun e _ name pid hpid => Or.inl ?_) (fun name pid hgone => ?_)
    (fun r hr => ?_) hlost
  · rw [← hbound]
    exact hpid
  · rw [Gone, hreleased, hdied, hdeaths] at hgone
    exact hgone
  · rw [hreleases]
    exact hr

theorem lost_setMesh (s : NameCluster) (mesh : Mesh) :
    ∀ x ∈ (s.setMesh mesh).lost, x ∈ s.lost :=
  fun _ hx => List.mem_of_mem_filter hx

theorem ReleaseInv.sync (h : ReleaseInv N s) {i : Nat}
    (hheard : s.Heard N (.sync i)) (hnext : s.step (.sync i) = some t) :
    ReleaseInv N t := by
  obtain ⟨sync, hwork, rfl⟩ := Option.map_eq_some_iff.1 hnext
  obtain ⟨j, hj, rfl⟩ := Pool.work_cases hwork
  rcases s.sync.env.handle_names j with ⟨hnames, -⟩ | ⟨node, theirs, reply, rfl⟩
  · refine h.frame (fun e name => ?_) rfl rfl rfl rfl fun x hx => hx
    show ((s.sync.env.handle () j).1.node e).names.lookup name = _
    rw [hnames e]
    rfl
  · refine h.change (fun e he name pid hpid => ?_) (fun name pid hgone => hgone)
      (fun r hr => hr) fun x hx => hx
    rcases SyncEnv.lookup_mergeAt hpid with hbefore | ⟨rfl, hmem, hlower⟩
    · exact Or.inl hbefore
    · exact Or.inr (hheard _ hj he _ hmem hlower)

/-- A claim binds what may be bound. -/
theorem bound_next {c : Call} {phase : CallPhase}
    {node : EndpointId → GlobalNames}
    (hnext : c.Next s.roster s.claims phase node) (hheard : s.CommitHeard N c) :
    ∀ e ∈ N, ∀ name pid, (node e).names.lookup name = some pid →
      s.bound e name = some pid ∨ s.MayBind e name pid := by
  intro e he name pid hpid
  rcases hnext.names with hsame | ⟨_, _, u, _, hphase, -, hcommit⟩
  · rw [hsame] at hpid
    exact Or.inl hpid
  · rw [hcommit] at hpid
    split at hpid
    · rename_i heq
      obtain ⟨rfl, rfl⟩ := heq
      obtain rfl : c.pid = pid := Option.some_inj.1 hpid
      rw [CommitHeard, hphase] at hheard
      exact Or.inr (hheard he)
    · exact Or.inl hpid

theorem ReleaseInv.advance (h : ReleaseInv N s) {i : Nat}
    (hheard : s.Heard N (.advance i)) (hnext : s.step (.advance i) = some t) :
    ReleaseInv N t := by
  obtain ⟨c, hc, hrest⟩ := Option.bind_eq_some_iff.1 hnext
  obtain ⟨u, hu, rfl⟩ := Option.map_eq_some_iff.1 hrest
  obtain ⟨phase, -, hphase⟩ := GlobalClaims.advance_next hu
  have hbound := bound_next hphase (hheard c hc)
  split
  · refine h.change hbound (fun name pid hgone => ?_) (fun r hr => hr)
      fun x hx => hx
    exact hgone.imp_left fun hmem => List.mem_of_mem_filter hmem
  · exact h.change hbound (fun name pid hgone => hgone) (fun r hr => hr)
      fun x hx => hx

theorem ReleaseInv.unanswered (h : ReleaseInv N s) {i : Nat} {carriedOut : Bool}
    (hheard : s.Heard N (.unanswered i carriedOut))
    (hnext : s.step (.unanswered i carriedOut) = some t) : ReleaseInv N t := by
  obtain ⟨c, hc, hrest⟩ := Option.bind_eq_some_iff.1 hnext
  obtain ⟨phase, -, hrest⟩ := Option.bind_eq_some_iff.1 hrest
  obtain ⟨u, hu, rfl⟩ := Option.map_eq_some_iff.1 hrest
  obtain ⟨_, -, hphase⟩ := GlobalClaims.advance_next hu
  cases carriedOut with
  | false => exact h.frame (fun e name => rfl) rfl rfl rfl rfl fun x hx => hx
  | true =>
    exact h.change (bound_next hphase (hheard c hc)) (fun name pid hgone => hgone)
      (fun r hr => hr) fun x hx => hx

/-- A release that goes on reaches all that it reached, but for the node that it
has just asked. -/
theorem ReleaseInv.replace (h : ReleaseInv N s) {i : Nat} {r : Release}
    (hr : s.releases[i]? = some r) {next : List Release}
    {node : EndpointId → GlobalNames}
    (hbound : ∀ e ∈ N, ∀ name pid, (node e).names.lookup name = some pid →
      s.bound e name = some pid)
    (hkept : ∀ e ∈ N, (node e).names.lookup r.name = some r.pid →
      r.Reaches e → ∃ r' ∈ next, (r'.name = r.name ∧ r'.pid = r.pid) ∧
        r'.Reaches e) : ReleaseInv N ((s.setNode node).setReleases i next) := by
  intro e he name pid hpid
  obtain ⟨hgone, hlost⟩ := h e he name pid (hbound e he name pid hpid)
  refine ⟨fun hg => ?_, hlost⟩
  obtain ⟨r', hr', ⟨rfl, rfl⟩, hreaches⟩ := hgone hg
  rcases mem_eraseIdx_or_eq hr hr' with hmem | rfl
  · exact ⟨r', List.mem_append_left _ hmem, ⟨rfl, rfl⟩, hreaches⟩
  · obtain ⟨r'', hnext, hsame, hreaches''⟩ := hkept e he hpid hreaches
    exact ⟨r'', List.mem_append_right _ hnext, hsame, hreaches''⟩

theorem bound_of_drop {node : EndpointId} {name' : String} {pid' : Pid}
    (h : (s.drop node name pid).bound e name' = some pid') :
    s.bound e name' = some pid' := by
  rw [bound_drop] at h
  split at h
  · cases h
  · exact h

/-- Nothing is left of a binding that was dropped. -/
theorem not_bound_drop {node : EndpointId} :
    (s.drop node name pid).bound node name ≠ some pid := by
  rw [bound_drop]
  split
  · exact fun h => nomatch h
  · rename_i hnot
    exact fun h => hnot ⟨⟨rfl, rfl⟩, h⟩

theorem ReleaseInv.release (h : ReleaseInv N s) {i : Nat}
    (hheard : s.Heard N (.release i)) (hnext : s.step (.release i) = some t) :
    ReleaseInv N t := by
  obtain ⟨r, hr, rfl⟩ := Option.map_eq_some_iff.1 hnext
  have hheard : s.ReleaseHeard N r := hheard r hr
  cases hphase : r.phase with
  | start =>
    simp only [releaseNext, hphase]
    split
    · refine h.replace hr (fun e _ name pid hpid => bound_of_drop hpid)
        fun e _ _ _ => ?_
      exact ⟨_, List.mem_singleton_self _, ⟨rfl, rfl⟩, trivial⟩
    · rename_i hnot
      rw [ReleaseHeard, hphase] at hheard
      exact h.replace hr (fun e _ name pid hpid => hpid) fun e he hpid _ =>
        absurd hpid (hheard hnot e he)
  | roster =>
    simp only [releaseNext, hphase]
    rw [ReleaseHeard, hphase] at hheard
    refine h.replace hr (fun e _ name pid hpid => hpid) fun e he hpid _ => ?_
    exact ⟨_, List.mem_singleton_self _, ⟨rfl, rfl⟩, hheard e he hpid⟩
  | asking rest =>
    cases rest with
    | nil =>
      simp only [releaseNext, hphase]
      refine h.replace hr (fun e _ name pid hpid => hpid)
        fun e _ _ hreaches => ?_
      rw [Release.Reaches, hphase] at hreaches
      cases hreaches
    | cons node rest =>
      simp only [releaseNext, hphase]
      refine h.replace hr (fun e _ name pid hpid => bound_of_drop hpid)
        fun e _ hpid hreaches => ?_
      rw [Release.Reaches, hphase] at hreaches
      refine ⟨_, List.mem_singleton_self _, ⟨rfl, rfl⟩, ?_⟩
      refine (List.mem_cons.1 hreaches).resolve_left ?_
      rintro rfl
      exact not_bound_drop hpid

theorem ReleaseInv.releaseFails (h : ReleaseInv N s) {i : Nat}
    (hheard : s.Heard N (.releaseFails i))
    (hnext : s.step (.releaseFails i) = some t) : ReleaseInv N t := by
  obtain ⟨r, hr, hnext⟩ := Option.bind_eq_some_iff.1 hnext
  have hheard : s.LossHarmless N r := hheard r hr
  split at hnext
  · rename_i node rest hphase
    obtain rfl := Option.some_inj.1 hnext
    rw [LossHarmless, hphase] at hheard
    refine h.replace hr (fun e _ name pid hpid => hpid)
      fun e he hpid hreaches => ?_
    rw [Release.Reaches, hphase] at hreaches
    refine ⟨_, List.mem_singleton_self _, ⟨rfl, rfl⟩, ?_⟩
    refine (List.mem_cons.1 hreaches).resolve_left ?_
    rintro rfl
    exact hheard he hpid
  · cases hnext

/-- One more release, and one more pid that is gone. -/
theorem ReleaseInv.give_up (h : ReleaseInv N s) {gone : List (String × Pid)}
    {deaths : List Pid} {more : List Release}
    (hmore : ∀ e ∈ N, ∀ name pid, s.bound e name = some pid →
      ((name, pid) ∈ gone ∨ pid ∈ s.died ∧ pid ∉ deaths) →
        s.Gone name pid ∨ ∃ r ∈ more, (r.name = name ∧ r.pid = pid) ∧
          r.Reaches e) :
    ReleaseInv N { s with
      released := gone, deaths := deaths, releases := s.releases ++ more } := by
  intro e he name pid hpid
  obtain ⟨hreleasing, hlost⟩ := h e he name pid hpid
  refine ⟨fun hgone => ?_, hlost⟩
  rcases hmore e he name pid hpid hgone with hbefore | ⟨r, hr, hreaches⟩
  · obtain ⟨r, hr, hreaches⟩ := hreleasing hbefore
    exact ⟨r, List.mem_append_left _ hr, hreaches⟩
  · exact ⟨r, List.mem_append_right _ hr, hreaches⟩

theorem mem_snapshot_of_bound (h : s.bound e name = some pid) :
    (name, pid) ∈ (s.sync.env.node e).snapshot :=
  mem_snapshot.2 (held_eq_coe.2 h)

theorem ReleaseInv.react (h : ReleaseInv N s) {node : EndpointId}
    (hheard : s.Heard N (.react node)) (hnext : s.step (.react node) = some t) :
    ReleaseInv N t := by
  obtain ⟨dead, hdead, hnext⟩ := Option.bind_eq_some_iff.1 hnext
  split at hnext
  · cases hnext
  · obtain rfl := Option.some_inj.1 hnext
    refine h.give_up fun e he name pid hpid hgone => ?_
    rcases hgone with hreleased | ⟨hdied, hnot⟩
    · exact Or.inl (Or.inl hreleased)
    · by_cases heq : pid = dead
      · subst heq
        have hname := hheard pid hdead e he (name, pid)
          (mem_snapshot_of_bound hpid) rfl
        refine Or.inr ⟨⟨name, pid, true, .start⟩, ?_, ⟨rfl, rfl⟩, trivial⟩
        rw [hname]
        exact List.mem_singleton_self _
      · refine Or.inl (Or.inr ⟨hdied, fun hmem => hnot ?_⟩)
        exact (List.mem_erase_of_ne heq).2 hmem

/-- A death finds room in the queue. -/
theorem die_cases {dead : Pid} (hheard : s.Heard N (.die dead))
    (hnext : s.step (.die dead) = some t) : dead ∉ s.died ∧
      t = { s with died := dead :: s.died, deaths := s.deaths ++ [dead] } := by
  simp only [step] at hnext
  split at hnext
  · cases hnext
  · rename_i hnew
    obtain rfl := Option.some_inj.1 hnext
    have hzero : (s.deathsAt dead.node).length + 1 -
        ParticleRegistry.deathBroadcastCapacity = 0 :=
      Nat.sub_eq_zero_of_le hheard
    rw [hzero, List.take_zero, List.diff_nil]
    exact ⟨hnew, rfl⟩

theorem gone_die {dead : Pid} (hheard : s.Heard N (.die dead))
    (hnext : s.step (.die dead) = some t) :
    t.Gone name pid ↔ s.Gone name pid := by
  obtain ⟨hnew, rfl⟩ := die_cases hheard hnext
  refine or_congr_right ?_
  show pid ∈ dead :: s.died ∧ pid ∉ s.deaths ++ [dead] ↔ _
  rw [List.mem_cons, List.mem_append, List.mem_singleton, not_or]
  constructor
  · rintro ⟨hdied, hnot, hne⟩
    exact ⟨hdied.resolve_left hne, hnot⟩
  · rintro ⟨hdied, hnot⟩
    refine ⟨Or.inr hdied, hnot, ?_⟩
    rintro rfl
    exact hnew hdied

theorem ReleaseInv.die (h : ReleaseInv N s) {dead : Pid}
    (hheard : s.Heard N (.die dead)) (hnext : s.step (.die dead) = some t) :
    ReleaseInv N t := by
  have hgone : ∀ name pid, t.Gone name pid → s.Gone name pid :=
    fun _ _ => (gone_die hheard hnext).1
  obtain ⟨-, rfl⟩ := die_cases hheard hnext
  exact h.change (fun e _ name pid hpid => Or.inl hpid) hgone (fun r hr => hr)
    fun x hx => hx

theorem releaseInv_step {a : NameAction} (h : ReleaseInv N s)
    (hheard : s.Heard N a) (hnext : s.step a = some t) : ReleaseInv N t := by
  cases a with
  | join now node peer =>
    obtain rfl := Option.some_inj.1 hnext
    exact h.frame (fun e name => rfl) rfl rfl rfl rfl (lost_setMesh s _)
  | connect node peer =>
    simp only [step] at hnext
    split at hnext
    · cases hnext
    · obtain rfl := Option.some_inj.1 hnext
      exact h.frame (fun e name => rfl) rfl rfl rfl rfl fun x hx => hx
  | announce i now =>
    obtain ⟨j, -, hrest⟩ := Option.bind_eq_some_iff.1 hnext
    obtain ⟨mesh, -, rfl⟩ := Option.map_eq_some_iff.1 hrest
    exact h.frame (fun e name => rfl) rfl rfl rfl rfl (lost_setMesh s _)
  | sync i => exact h.sync hheard hnext
  | syncFails i =>
    obtain ⟨sync, hsync, rfl⟩ := Option.map_eq_some_iff.1 hnext
    obtain ⟨j, -, hclose⟩ := Option.bind_eq_some_iff.1 hsync
    obtain ⟨close, -, rfl⟩ := Option.map_eq_some_iff.1 hclose
    exact h.frame (fun e name => rfl) rfl rfl rfl rfl fun x hx => hx
  | register name pid =>
    simp only [step] at hnext
    split at hnext
    · obtain rfl := Option.some_inj.1 hnext
      exact h.frame (fun e name => rfl) rfl rfl rfl rfl fun x hx => hx
    · cases hnext
  | advance i => exact h.advance hheard hnext
  | unanswered i carriedOut => exact h.unanswered hheard hnext
  | unregister name pid =>
    simp only [step] at hnext
    split at hnext
    · obtain rfl := Option.some_inj.1 hnext
      refine h.give_up fun e _ name' pid' _ hgone => ?_
      rcases hgone with hreleased | hdead
      · rcases List.mem_cons.1 hreleased with heq | hreleased
        · cases heq
          exact Or.inr ⟨_, List.mem_singleton_self _, ⟨rfl, rfl⟩, trivial⟩
        · exact Or.inl (Or.inl hreleased)
      · exact Or.inl (Or.inr hdead)
    · cases hnext
  | release i => exact h.release hheard hnext
  | releaseFails i => exact h.releaseFails hheard hnext
  | die pid => exact h.die hheard hnext
  | react node => exact h.react hheard hnext
  | lose node peer =>
    obtain rfl := Option.some_inj.1 hnext
    intro e he name pid hpid
    obtain ⟨hgone, hlost⟩ := h e he name pid hpid
    refine ⟨hgone, fun hmem => ?_⟩
    rcases List.mem_cons.1 hmem with heq | hmem
    · cases heq
      exact hheard he (name, pid) (mem_snapshot_of_bound hpid) rfl
    · exact hlost hmem

/-- When nothing is in progress, names are bound to living particles only, that
have not given them up and whose nodes are not lost.  So `Taken` is answered for
such a holder only. -/
theorem released_names_stay_released (N : Finset EndpointId)
    (addrs : EndpointId → List TransportAddr)
    (hrun : Run step (Heard N) (start addrs) s) (hsettled : s.Settled) :
    (∀ e ∈ N, ∀ name pid, s.bound e name = some pid → s.Holds e name pid) ∧
      ∀ e ∈ N, ∀ name holder pid,
        ((s.sync.env.node e).lock name holder).2 = .taken pid →
          s.Holds e name pid := by
  have hinv : ReleaseInv N s := by
    refine hrun.invariant releaseInv_step fun e _ name pid hpid => ?_
    cases hpid
  obtain ⟨-, -, -, hreleases, hdeaths⟩ := hsettled
  have hholds : ∀ e ∈ N, ∀ name pid, s.bound e name = some pid →
      s.Holds e name pid := by
    intro e he name pid hpid
    obtain ⟨hgone, hlost⟩ := hinv e he name pid hpid
    have hnot : ¬ s.Gone name pid := by
      intro hg
      obtain ⟨r, hr, -⟩ := hgone hg
      rw [hreleases] at hr
      cases hr
    refine ⟨fun hdied => hnot (Or.inr ⟨hdied, ?_⟩), hlost,
      fun hreleased => hnot (Or.inl hreleased)⟩
    rw [hdeaths]
    exact List.not_mem_nil
  refine ⟨hholds, fun e he name holder pid htaken => hholds e he name pid ?_⟩
  unfold GlobalNames.lock at htaken
  split at htaken
  · rename_i p hcheck
    cases htaken
    exact hcheck
  · split at htaken <;> cases htaken

/-- Both nodes claim a name, node 2 joins node 1, and its particle dies. -/
theorem released_names_stay_released_twoClaims :
    ∃ s, Run step (Heard {⟨1⟩, ⟨2⟩}) (start fun _ => ["udp"]) s ∧
      (s.Settled ∧ s.died = [⟨⟨2⟩, 1⟩] ∧
        s.bound ⟨2⟩ "db" = some ⟨⟨1⟩, 1⟩ ∧ s.bound ⟨1⟩ "svc" = none) ∧
      (∀ e ∈ ({⟨1⟩, ⟨2⟩} : Finset EndpointId), ∀ name pid,
        s.bound e name = some pid → s.Holds e name pid) ∧
      ∀ e ∈ ({⟨1⟩, ⟨2⟩} : Finset EndpointId), ∀ name holder pid,
        ((s.sync.env.node e).lock name holder).2 = .taken pid →
          s.Holds e name pid := by
  have hrun : ∃ s, Run step (Heard {⟨1⟩, ⟨2⟩}) (start fun _ => ["udp"]) s ∧
      (s.Settled ∧ s.died = [⟨⟨2⟩, 1⟩] ∧
        s.bound ⟨2⟩ "db" = some ⟨⟨1⟩, 1⟩ ∧ s.bound ⟨1⟩ "svc" = none) :=
    exec_run_of_any (α := NameAction) (.flatten
      [[.register "db" ⟨⟨1⟩, 1⟩], .replicate 7 (.advance 0),
        [.register "svc" ⟨⟨2⟩, 1⟩], .replicate 7 (.advance 1),
        [.join 5 ⟨2⟩ ⟨⟨1⟩, ["udp"]⟩], .replicate 10 (.announce 0 5),
        .replicate 22 (.sync 0), [.die ⟨⟨2⟩, 1⟩, .react ⟨2⟩],
        .replicate 4 (.release 0)]) (by decide)
  obtain ⟨s, hrun, hend⟩ := hrun
  exact ⟨s, hrun, hend, released_names_stay_released _ _ hrun hend.1⟩

/-- A claim commits for a particle that has died since it took the locks.  A lost
node keeps its names.  A table that was read before a release brings the name
back. -/
theorem released_names_come_back :
    (¬ ∀ addrs s, Run step anyStep (start addrs) s → s.Settled →
      ∀ e name pid, s.bound e name = some pid → pid ∉ s.died) ∧
    (¬ ∀ addrs s, Run step anyStep (start addrs) s → s.Settled →
      ∀ e name pid, s.bound e name = some pid → (e, pid.node) ∉ s.lost) ∧
    ¬ ∀ addrs s, Run step anyStep (start addrs) s → s.Settled →
      ∀ e name pid, s.bound e name = some pid → (name, pid) ∉ s.released := by
  have hdead : ∃ s, Run step anyStep (start fun _ => ["udp"]) s ∧ (s.Settled ∧
      s.bound ⟨1⟩ "svc" = some ⟨⟨1⟩, 1⟩ ∧ ⟨⟨1⟩, 1⟩ ∈ s.died) :=
    exec_run_of_any (α := NameAction) (.flatten
      [[.register "svc" ⟨⟨1⟩, 1⟩], .replicate 5 (.advance 0),
        [.die ⟨⟨1⟩, 1⟩, .react ⟨1⟩], .replicate 2 (.advance 0)]) (by decide)
  have hlost : ∃ s, Run step anyStep (start fun _ => ["udp"]) s ∧ (s.Settled ∧
      s.bound ⟨1⟩ "svc" = some ⟨⟨2⟩, 1⟩ ∧ (⟨1⟩, ⟨2⟩) ∈ s.lost) :=
    exec_run_of_any (α := NameAction) (.flatten
      [[.register "svc" ⟨⟨2⟩, 1⟩], .replicate 7 (.advance 0),
        [.join 5 ⟨2⟩ ⟨⟨1⟩, ["udp"]⟩], .replicate 10 (.announce 0 5),
        .replicate 22 (.sync 0), [.lose ⟨1⟩ ⟨2⟩]]) (by decide)
  have hreleased : ∃ s, Run step anyStep (start fun _ => ["udp"]) s ∧
      (s.Settled ∧ s.bound ⟨1⟩ "svc" = some ⟨⟨2⟩, 1⟩ ∧
        ("svc", ⟨⟨2⟩, 1⟩) ∈ s.released) :=
    exec_run_of_any (α := NameAction) (.flatten
      [[.register "svc" ⟨⟨2⟩, 1⟩], .replicate 7 (.advance 0),
        [.join 5 ⟨2⟩ ⟨⟨1⟩, ["udp"]⟩], .replicate 10 (.announce 0 5),
        .replicate 3 (.sync 0), [.unregister "svc" ⟨⟨2⟩, 1⟩],
        .replicate 4 (.release 0), .replicate 19 (.sync 0)]) (by decide)
  refine ⟨fun hall => ?_, fun hall => ?_, fun hall => ?_⟩
  · obtain ⟨s, hrun, hsettled, hbound, hdied⟩ := hdead
    exact hall _ s hrun hsettled _ _ _ hbound hdied
  · obtain ⟨s, hrun, hsettled, hbound, hmem⟩ := hlost
    exact hall _ s hrun hsettled _ _ _ hbound hmem
  · obtain ⟨s, hrun, hsettled, hbound, hmem⟩ := hreleased
    exact hall _ s hrun hsettled _ _ _ hbound hmem

end NameCluster

end Plasmoid
