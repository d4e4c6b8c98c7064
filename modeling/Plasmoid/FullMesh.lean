import Plasmoid.AnnouncementsDieOut

/-!
# One introduction joins a node to everyone

Nodes introduce themselves to one another (`join_at`) at any time, and jobs are
done in any order.  Nobody is lost and nobody is barred.  When nothing is left
to do, all nodes that introductions connect are members of each other
(`mesh_is_full`).

A node announces itself to each of its members, so that membership becomes
symmetric.  Two members of one node hear of each other from it: if the node
cannot name the second when it announces to the first, then the announcement of
the first is yet to come, and it will be answered.
-/

namespace Plasmoid

open Machine

/-- Nodes that introduce themselves.  `joins` says who did it with whom, which the
code does not keep. -/
structure Introductions where
  mesh : Mesh
  joins : List (EndpointId × EndpointId)

inductive IntroAction where
  | join (now : Nat) (node : EndpointId) (peer : EndpointAddr)
  /-- One of the jobs is done. -/
  | work (i now : Nat)

namespace Introductions

def step (s : Introductions) : IntroAction → Option Introductions
  | .join now node peer =>
    some ⟨s.mesh.join now node peer, (node, peer.id) :: s.joins⟩
  | .work i now => (s.mesh.work MeshNodes.handle i now).map fun mesh =>
    { s with mesh }

/-- Only the nodes of `N` introduce themselves, and only to each other. -/
def Among (N : Finset EndpointId) (_ : Introductions) : IntroAction → Prop
  | .join _ node peer => node ∈ N ∧ peer.id ∈ N
  | .work _ _ => True

instance (N : Finset EndpointId) (s : Introductions) :
    DecidablePred (s.Among N)
  | .join .. => inferInstanceAs (Decidable (_ ∧ _))
  | .work .. => isTrue trivial

/-- Nobody has met anybody, and the nodes of `N` have addresses of their own. -/
structure Start (N : Finset EndpointId) (s : Introductions) : Prop where
  members : ∀ e, (s.mesh.env e).cluster.members = ∅
  free : ∀ e, (s.mesh.env e).cluster.quarantined = ∅
  known : ∀ e ∈ N, ∀ x, (s.mesh.env e).Knows x → x ∈ N
  addrs : ∀ e ∈ N, (s.mesh.env e).addrs ≠ []
  jobs : s.mesh.jobs = []
  joins : s.joins = []

/-- The introductions connect all nodes of `N`. -/
def Connect (N : Finset EndpointId) (s : Introductions) : Prop :=
  ∀ x ∈ N, ∀ y ∈ N, Relation.EqvGen (fun a b => (a, b) ∈ s.joins) x y

end Introductions

/-! ## What is pending -/

namespace MeshJob

variable (e x y : EndpointId)

/-- `e` is about to announce to `x`. -/
def Greets : MeshJob → Prop
  | greet node target => node = e ∧ target = x
  | introduce node learned _ => node = e ∧ x ∈ learned
  | message .. | accept .. | answer .. => False

/-- An announcement of `e` is on its way to `x`. -/
def Carries : MeshJob → Prop
  | message node nodes => node = x ∧ (nodes.map (·.id)).head? = some e
  | accept .. | greet .. | introduce .. | answer .. => False

/-- An announcement that names `y` is on its way to `x`. -/
def Names : MeshJob → Prop
  | message node nodes => node = x ∧ ∃ a ∈ nodes, a.id = y
  | accept .. | greet .. | introduce .. | answer .. => False

/-- `e` is about to compare its roster with an announcement of `x` that did not
name `y`. -/
def Compares : MeshJob → Prop
  | introduce node _ announced | answer node announced =>
    node = e ∧ announced.head? = some x ∧ y ∉ announced
  | message .. | accept .. | greet .. => False

/-- An announcement of `e` to `x` is yet to come. -/
def Announces (j : MeshJob) : Prop := j.Greets e x ∨ j.Carries e x

/-- The sender of an announcement has an address, and names none but its
members. -/
def Honest (s : MeshNodes) : MeshJob → Prop
  | message _ nodes => ∃ a rest, nodes = a :: rest ∧ a.addrs ≠ [] ∧
    ∀ b ∈ rest, b.id ∈ (s a.id).cluster.members
  | accept .. | greet .. | introduce .. | answer .. => True

end MeshJob

namespace Mesh

open MeshJob

/-- Some job of the kind is left. -/
def Pending (s : Mesh) (p : MeshJob → Prop) : Prop := ∃ j ∈ s.jobs, p j

theorem Pending.of_mem {s : Mesh} {p : MeshJob → Prop} {j : MeshJob}
    (hj : j ∈ s.jobs) (hp : p j) : s.Pending p :=
  ⟨j, hj, hp⟩

theorem Pending.mono {s : Mesh} {p q : MeshJob → Prop} (h : s.Pending p)
    (hpq : ∀ j, p j → q j) : s.Pending q := by
  obtain ⟨j, hj, hp⟩ := h
  exact ⟨j, hj, hpq j hp⟩

/-- What holds of the nodes and jobs among `N`. -/
structure Sound (N : Finset EndpointId) (s : Mesh) : Prop where
  env : s.env.Within N
  jobs : ∀ j ∈ s.jobs, j.Within N
  addrs : ∀ e ∈ N, (s.env e).addrs ≠ []
  free : ∀ e x, (s.env e).cluster.quarantined.lookup x = none
  honest : ∀ j ∈ s.jobs, j.Honest s.env

/-- What a step may do to the rosters and to the announcements. -/
structure Advances (s t : Mesh) : Prop where
  members : ∀ e, ∀ x ∈ (s.env e).cluster.members, x ∈ (t.env e).cluster.members
  knows : ∀ e x, (s.env e).Knows x → (t.env e).Knows x
  /-- A new member is greeted. -/
  learned : ∀ e, ∀ x ∈ (t.env e).cluster.members,
    x ∉ (s.env e).cluster.members → t.Pending (Greets e x)
  /-- Who is greeted is told of all that can be named. -/
  greeted : ∀ e x, x ≠ e → s.Pending (Greets e x) → t.Pending (Greets e x) ∨
    t.Pending (Carries e x) ∧ ∀ y ∈ (s.env e).cluster.members,
      (s.env e).Knows y → y ≠ x → t.Pending (Names x y)
  /-- Whoever receives an announcement knows its sender, and compares its
  roster. -/
  carried : ∀ e x, x ≠ e → s.Pending (Carries e x) →
    t.Pending (Carries e x) ∨ e ∈ (t.env x).cluster.members ∧
      (t.env x).Knows e ∧ ∀ y ∈ (t.env x).cluster.members, y ≠ e →
        y ∈ (t.env e).cluster.members ∨ t.Pending (Compares x e y)
  named : ∀ x y, y ≠ x → s.Pending (Names x y) →
    t.Pending (Names x y) ∨ y ∈ (t.env x).cluster.members
  compared : ∀ e x y, y ≠ x → y ∈ (s.env e).cluster.members →
    s.Pending (Compares e x y) →
      t.Pending (Compares e x y) ∨ t.Pending (Greets e x)
  /-- The address of a member that was unknown comes from the member, from
  somebody who introduces it, or from a third node. -/
  told : ∀ e, ∀ x ∈ (s.env e).cluster.members, (t.env e).Knows x →
    ¬ (s.env e).Knows x → t.Pending (Greets e x) ∨
      (∀ y ∈ (t.env e).cluster.members, y ≠ x →
        y ∈ (t.env x).cluster.members ∨ t.Pending (Compares e x y)) ∨
      (s.Pending (Announces x e) → t.Pending (Announces x e)) ∧
        (s.Pending (Announces e x) → t.Pending (Announces e x)) ∧
        (e ∈ (t.env x).cluster.members → e ∈ (s.env x).cluster.members)

end Mesh

/-! ## What one job does -/

/-- With nobody barred, a node learns all others that it hears of. -/
theorem Cluster.learn_free {me : EndpointId} {c : Cluster me}
    (hfree : ∀ x, c.quarantined.lookup x = none) (now : Nat)
    (nodes : List EndpointId) :
    (∀ x, x ∈ (c.learn now nodes).1.members ↔
      x ∈ c.members ∨ x ∈ nodes ∧ x ≠ me) ∧
    (∀ x, x ∈ (c.learn now nodes).2 ↔
      x ∈ nodes ∧ x ≠ me ∧ x ∉ c.members) ∧
    ∀ x, (c.learn now nodes).1.quarantined.lookup x = none := by
  have hlearn := c.learn_spec now nodes
  have hfresh : ∀ x, x ∈ (c.learn now nodes).2 ↔
      x ∈ nodes ∧ x ≠ me ∧ x ∉ c.members := by
    intro x
    rw [hlearn.fresh]
    simp [isQuarantined, hfree]
  refine ⟨fun x => ?_, hfresh, fun x => ?_⟩
  · rw [hlearn.members, hfresh]
    tauto
  · cases hx : (c.learn now nodes).1.quarantined.lookup x with
    | none => rfl
    | some deadline =>
      have hbefore := hlearn.expires.kept x deadline hx
      rw [hfree x] at hbefore
      cases hbefore

namespace MeshJob

/-- The node at which the job is done. -/
def place : MeshJob → EndpointId
  | message node _ | accept node _ | greet node _ | introduce node _ _
  | answer node _ => node

variable {j : MeshJob} {e x y : EndpointId}

theorem Greets.place (h : j.Greets e x) : j.place = e := by
  cases j <;> first | exact h.1 | cases h

theorem Carries.place (h : j.Carries e x) : j.place = x := by
  cases j <;> first | exact h.1 | cases h

theorem Names.place (h : j.Names x y) : j.place = x := by
  cases j <;> first | exact h.1 | cases h

theorem Compares.place (h : j.Compares e x y) : j.place = e := by
  cases j <;> first | exact h.1 | cases h

/-- What is left of a job when it is done: the node is now `n`, and `new` was
caused. -/
structure Done (s : MeshNodes) (j : MeshJob) (n : MeshNode j.place)
    (new : List MeshJob) : Prop where
  members : ∀ x ∈ (s j.place).cluster.members, x ∈ n.cluster.members
  knows : ∀ x, (s j.place).Knows x → n.Knows x
  learned : ∀ x ∈ n.cluster.members, x ∉ (s j.place).cluster.members →
    ∃ k ∈ new, k.Greets j.place x
  greeted : ∀ x, x ≠ j.place → j.Greets j.place x →
    ∃ k ∈ new, k.Carries j.place x ∧ ∀ y ∈ (s j.place).cluster.members,
      (s j.place).Knows y → y ≠ x → k.Names x y
  carried : ∀ e, e ≠ j.place → j.Carries e j.place →
    e ∈ n.cluster.members ∧ n.Knows e ∧ ∀ y ∈ n.cluster.members, y ≠ e →
      y ∈ (s e).cluster.members ∨ ∃ k ∈ new, k.Compares j.place e y
  named : ∀ y, y ≠ j.place → j.Names j.place y → y ∈ n.cluster.members
  compared : ∀ x y, y ≠ x → y ∈ (s j.place).cluster.members →
    j.Compares j.place x y →
      ∃ k ∈ new, k.Compares j.place x y ∨ k.Greets j.place x
  told : ∀ x, x ≠ j.place → n.Knows x → ¬ (s j.place).Knows x →
    j.Carries x j.place ∨ ¬ j.Announces x j.place ∧ ¬ j.Announces j.place x
  addrs : n.addrs = (s j.place).addrs
  free : ∀ x, n.cluster.quarantined.lookup x = none
  honest : ∀ k ∈ new, k.Honest s

end MeshJob

namespace MeshNode

variable {me : EndpointId} {n : MeshNode me}

/-- An announcement names all members with a known address but the recipient. -/
theorem announcement_names (target : EndpointId) :
    MeshJob.Carries me target (.message target (n.announcement target)) ∧
      ∀ y ∈ n.cluster.members, n.Knows y → y ≠ target →
        MeshJob.Names target y (.message target (n.announcement target)) :=
  ⟨⟨rfl, rfl⟩, fun _ hmem hknown hne =>
    ⟨rfl, named_in_announcement hmem hknown hne⟩⟩

theorem announcement_honest {s : MeshNodes} {e target : EndpointId}
    (haddrs : (s e).addrs ≠ []) :
    MeshJob.Honest s (.message target ((s e).announcement target)) := by
  refine ⟨(s e).ourAddr, _, rfl, haddrs, fun b hb => ?_⟩
  obtain ⟨x, hx, hb⟩ := List.mem_filterMap.1 hb
  obtain ⟨hmem, -⟩ := List.mem_filter.1 hx
  obtain ⟨rfl, -⟩ := (s e).known_ok x b hb
  exact hmem

end MeshNode

namespace MeshJob

variable {s : MeshNodes} {now : Nat}

/-- A job that only announces. -/
theorem Done.announces (j : MeshJob) (targets : List EndpointId)
    (more : List MeshJob)
    (hfree : ∀ x, (s j.place).cluster.quarantined.lookup x = none)
    (haddrs : (s j.place).addrs ≠ [])
    (hgreets : ∀ x, j.Greets j.place x → x ∈ targets)
    (hcarries : ∀ e, ¬ j.Carries e j.place)
    (hnames : ∀ y, ¬ j.Names j.place y)
    (hcompares : ∀ x y, j.Compares j.place x y →
      ∃ k ∈ more, k.Compares j.place x y)
    (hhonest : ∀ k ∈ more, k.Honest s) :
    Done s j ((s j.place).announceTo targets).1
      (((s j.place).announceTo targets).2 ++ more) := by
  obtain ⟨hsame, hsent, honly⟩ := (s j.place).announceTo_spec targets
  have hknown : ∀ x, ((s j.place).announceTo targets).1.Knows x ↔
      (s j.place).Knows x := by
    intro x
    rw [AddressBook.Knows, AddressBook.Knows, hsame.known]
  refine ⟨fun x hx => ?_, fun x hx => (hknown x).2 hx, fun x hx hnot => ?_,
    fun x hne hx => ?_, fun e _ he => absurd he (hcarries e),
    fun y _ hy => absurd hy (hnames y), fun x y _ _ hxy => ?_,
    fun x _ hx hnot => absurd ((hknown x).1 hx) hnot, hsame.addrs, fun x => ?_,
    fun k hk => ?_⟩
  · rw [hsame.cluster]
    exact hx
  · rw [hsame.cluster] at hx
    exact absurd hx hnot
  · obtain ⟨hcarry, hname⟩ := MeshNode.announcement_names (n := s j.place) x
    exact ⟨_, List.mem_append_left _ (hsent x (hgreets x hx) hne), hcarry, hname⟩
  · obtain ⟨k, hk, hcompare⟩ := hcompares x y hxy
    exact ⟨k, List.mem_append_right _ hk, Or.inl hcompare⟩
  · rw [hsame.cluster]
    exact hfree x
  · rcases List.mem_append.1 hk with hk | hk
    · obtain ⟨t, -, -, rfl | rfl⟩ := honly k hk
      · exact MeshNode.announcement_honest haddrs
      · exact trivial
    · exact hhonest k hk

theorem honest_dial {me : EndpointId} {nodes : List EndpointId} :
    ∀ k ∈ MeshNode.dial me nodes, k.Honest s := by
  intro k hk
  obtain ⟨x, -, -, rfl⟩ := MeshNode.mem_dial.1 hk
  exact trivial

theorem handle_message (node : EndpointId) (nodes : List EndpointAddr)
    (hfree : ∀ x, (s node).cluster.quarantined.lookup x = none)
    (hhonest : (message node nodes).Honest s) :
    ∃ n, (s.handle now (message node nodes)).1 = Function.update s node n ∧
      Done s (message node nodes) n (s.handle now (message node nodes)).2 := by
  obtain ⟨hcluster, haddrs, hknows⟩ := MeshNode.foldl_remember nodes (s node)
  obtain ⟨hmem, hfresh, hfree'⟩ :=
    Cluster.learn_free hfree now (nodes.map (·.id))
  -- Either way the roster will be compared with the announcement.
  have hnew : ∃ k ∈ (s.handle now (message node nodes)).2,
      (∀ x y, (nodes.map (·.id)).head? = some x → y ∉ nodes.map (·.id) →
        k.Compares node x y) ∧
      ∀ x ∈ ((s node).cluster.learn now (nodes.map (·.id))).2,
        k.Greets node x := by
    simp only [MeshNodes.handle, hcluster]
    split
    · rename_i hnone
      refine ⟨_, List.mem_singleton_self _, fun x y hx hy => ⟨rfl, hx, hy⟩,
        fun x hx => ?_⟩
      rw [hnone] at hx
      cases hx
    · exact ⟨_, List.mem_singleton_self _, fun x y hx hy => ⟨rfl, hx, hy⟩,
        fun x hx => ⟨rfl, hx⟩⟩
  obtain ⟨k, hk, hcompare, hgreet⟩ := hnew
  refine ⟨{ nodes.foldl MeshNode.remember (s node) with
    cluster := ((s node).cluster.learn now (nodes.map (·.id))).1 },
    by simp only [MeshNodes.handle, hcluster], fun x hx => (hmem x).2 (Or.inl hx),
    fun x hx => (hknows x).2 (Or.inl hx), fun x hx hnot => ?_,
    fun x _ hx => hx.elim, fun e hne he => ?_, fun y hne hy => ?_,
    fun x y _ _ hxy => hxy.elim, fun x hne hx hnot => ?_, haddrs, hfree',
    fun k hk => ?_⟩
  · have hheard := ((hmem x).1 hx).resolve_left hnot
    exact ⟨k, hk, hgreet x ((hfresh x).2 ⟨hheard.1, hheard.2, hnot⟩)⟩
  · obtain ⟨a, rest, rfl, haddr, hrest⟩ := hhonest
    obtain rfl : a.id = e := Option.some_inj.1 he.2
    refine ⟨(hmem a.id).2 (Or.inr ⟨List.mem_cons_self .., hne⟩),
      (hknows a.id).2 (Or.inr ⟨a, List.mem_cons_self .., rfl, haddr⟩),
      fun y _ hya => ?_⟩
    by_cases hy : y ∈ (a :: rest).map (·.id)
    · obtain ⟨b, hb, rfl⟩ := List.mem_map.1 hy
      rcases List.mem_cons.1 hb with rfl | hb
      · exact absurd rfl hya
      · exact Or.inl (hrest b hb)
    · exact Or.inr ⟨k, hk, hcompare a.id y rfl hy⟩
  · obtain ⟨a, ha, rfl⟩ := hy.2
    exact (hmem a.id).2 (Or.inr ⟨List.mem_map_of_mem ha, hne⟩)
  · by_cases hcarry : (message node nodes).Carries x node
    · exact Or.inl hcarry
    · refine Or.inr ⟨?_, ?_⟩
      · rintro (h | h)
        · exact h
        · exact hcarry h
      · rintro (h | h)
        · exact h
        · exact hne h.1.symm
  · simp only [MeshNodes.handle] at hk
    split at hk
    · cases List.mem_singleton.1 hk
      exact trivial
    · cases List.mem_singleton.1 hk
      exact trivial

theorem handle_accept (node remote : EndpointId)
    (hfree : ∀ x, (s node).cluster.quarantined.lookup x = none) :
    ∃ n, (s.handle now (accept node remote)).1 = Function.update s node n ∧
      Done s (accept node remote) n
        (s.handle now (accept node remote)).2 := by
  obtain ⟨hmem, hfresh, hfree'⟩ := Cluster.learn_free hfree now [remote]
  refine ⟨_, rfl, fun x hx => (hmem x).2 (Or.inl hx), fun x hx => hx,
    fun x hx hnot => ?_, fun x _ hx => hx.elim, fun e _ he => he.elim,
    fun y _ hy => hy.elim, fun x y _ _ hxy => hxy.elim,
    fun x _ hx hnot => absurd hx hnot, rfl, hfree', fun k hk => ?_⟩
  · have hheard := ((hmem x).1 hx).resolve_left hnot
    have hx := (hfresh x).2 ⟨hheard.1, hheard.2, hnot⟩
    obtain rfl := List.mem_singleton.1 hheard.1
    simp only [MeshNodes.handle, List.ne_nil_of_mem hx, if_false]
    exact ⟨_, List.mem_cons_self .., rfl, rfl⟩
  · simp only [MeshNodes.handle] at hk
    split at hk
    · cases hk
    · rcases List.mem_cons.1 hk with rfl | hk
      · exact trivial
      · exact honest_dial k hk

theorem handle_answer (node : EndpointId) (announced : List EndpointId)
    (hfree : ∀ x, (s node).cluster.quarantined.lookup x = none) :
    Done s (answer node announced) (s node)
      (s.handle now (answer node announced)).2 := by
  refine ⟨fun x hx => hx, fun x hx => hx, fun x hx hnot => absurd hx hnot,
    fun x _ hx => hx.elim, fun e _ he => he.elim, fun y _ hy => hy.elim,
    fun x y hne hy hxy => ?_, fun x _ hx hnot => absurd hx hnot, rfl, hfree,
    fun k hk => ?_⟩
  · obtain ⟨-, hsender, hnot⟩ := hxy
    have hmissing : (s node).missing x announced = true :=
      MeshNode.missing_iff.2 ⟨y, hy, hne, hnot⟩
    simp only [MeshNodes.handle, hsender, hmissing, if_true]
    exact ⟨_, List.mem_singleton_self _, Or.inr ⟨rfl, rfl⟩⟩
  · simp only [MeshNodes.handle] at hk
    split at hk
    · split at hk
      · cases List.mem_singleton.1 hk
        exact trivial
      · cases hk
    · cases hk

/-- What each job does. -/
theorem handle_done (now : Nat) {j : MeshJob}
    (hfree : ∀ x, (s j.place).cluster.quarantined.lookup x = none)
    (haddrs : (s j.place).addrs ≠ []) (hhonest : j.Honest s) :
    ∃ n, (s.handle now j).1 = Function.update s j.place n ∧
      Done s j n (s.handle now j).2 := by
  cases j with
  | message node nodes => exact handle_message node nodes hfree hhonest
  | accept node remote => exact handle_accept node remote hfree
  | greet node target =>
    refine ⟨_, rfl, ?_⟩
    have hdone := Done.announces (greet node target) [target] [] hfree haddrs
      (fun x hx => List.mem_singleton.2 hx.2.symm) (fun e he => he)
      (fun y hy => hy) (fun x y hxy => hxy.elim) (fun k hk => nomatch hk)
    rw [List.append_nil] at hdone
    exact hdone
  | introduce node learned announced =>
    refine ⟨_, rfl, ?_⟩
    have hdone := Done.announces (introduce node learned announced) learned
      (MeshNode.dial node learned ++ [.answer node announced]) hfree haddrs
      (fun x hx => hx.2) (fun e he => he) (fun y hy => hy)
      (fun x y hxy => ⟨_, List.mem_append_right _ (List.mem_singleton_self _),
        hxy⟩)
      (fun k hk => ?_)
    · rw [← List.append_assoc] at hdone
      exact hdone
    · rcases List.mem_append.1 hk with hk | hk
      · exact honest_dial k hk
      · cases List.mem_singleton.1 hk
        exact trivial
  | answer node announced =>
    refine ⟨s node, ?_, handle_answer node announced hfree⟩
    exact (Function.update_eq_self node s).symm

end MeshJob

namespace Mesh

open MeshJob

/-- A job that is done advances the mesh. -/
theorem advances_of_done {s t : Mesh} {i : Nat} {j : MeshJob}
    {new : List MeshJob} (hj : s.jobs[i]? = some j)
    (h : Done s.env j (t.env j.place) new)
    (hother : ∀ e, e ≠ j.place → t.env e = s.env e)
    (hjobs : t.jobs = s.jobs.eraseIdx i ++ new) : Advances s t := by
  have hmembers : ∀ e, ∀ x ∈ (s.env e).cluster.members,
      x ∈ (t.env e).cluster.members := by
    intro e x hx
    by_cases he : e = j.place
    · subst he
      exact h.members x hx
    · rw [hother e he]
      exact hx
  have hnew : ∀ {p : MeshJob → Prop}, (∃ k ∈ new, p k) → t.Pending p := by
    rintro p ⟨k, hk, hp⟩
    refine ⟨k, ?_, hp⟩
    rw [hjobs]
    exact List.mem_append_right _ hk
  have hkept : ∀ {p : MeshJob → Prop}, s.Pending p → t.Pending p ∨ p j := by
    rintro p ⟨k, hk, hp⟩
    rcases Pool.mem_kept hj hk new with hk | rfl
    · rw [← hjobs] at hk
      exact Or.inl ⟨k, hk, hp⟩
    · exact Or.inr hp
  refine ⟨hmembers, fun e x hx => ?_, fun e x hx hnot => ?_,
    fun e x hne hpend => ?_, fun e x hne hpend => ?_, fun x y hne hpend => ?_,
    fun e x y hne hy hpend => ?_, fun e x hx hknows hnot => ?_⟩
  · by_cases he : e = j.place
    · subst he
      exact h.knows x hx
    · rw [hother e he]
      exact hx
  · by_cases he : e = j.place
    · subst he
      exact hnew (h.learned x hx hnot)
    · rw [hother e he] at hx
      exact absurd hx hnot
  · refine (hkept hpend).imp_right fun hgreets => ?_
    obtain rfl := hgreets.place
    obtain ⟨k, hk, hcarries, hnames⟩ := h.greeted x hne hgreets
    exact ⟨hnew ⟨k, hk, hcarries⟩, fun y hy hknows hyx =>
      hnew ⟨k, hk, hnames y hy hknows hyx⟩⟩
  · refine (hkept hpend).imp_right fun hcarries => ?_
    obtain rfl := hcarries.place
    obtain ⟨hmem, hknows, hrest⟩ := h.carried e hne.symm hcarries
    refine ⟨hmem, hknows, fun y hy hye => ?_⟩
    exact (hrest y hy hye).imp (hmembers e y) hnew
  · refine (hkept hpend).imp_right fun hnames => ?_
    obtain rfl := hnames.place
    exact h.named y hne hnames
  · rcases hkept hpend with hpend | hdone
    · exact Or.inl hpend
    · obtain rfl := hdone.place
      obtain ⟨k, hk, hcompares | hgreets⟩ := h.compared x y hne hy hdone
      · exact Or.inl (hnew ⟨k, hk, hcompares⟩)
      · exact Or.inr (hnew ⟨k, hk, hgreets⟩)
  · have he : e = j.place := by
      by_contra he
      rw [hother e he] at hknows
      exact hnot hknows
    subst he
    have hne : x ≠ j.place := fun heq =>
      (s.env j.place).cluster.me_not_mem (heq ▸ hx)
    rw [hother x hne]
    rcases h.told x hne hknows hnot with hcarries | ⟨hleft, hright⟩
    · obtain ⟨-, -, hrest⟩ := h.carried x hne hcarries
      refine Or.inr (Or.inl fun y hy hyx => ?_)
      exact (hrest y hy hyx).imp_right hnew
    · refine Or.inr (Or.inr ⟨fun hpend => ?_, fun hpend => ?_, fun hx => hx⟩)
      · exact (hkept hpend).resolve_right hleft
      · exact (hkept hpend).resolve_right hright

section Sound

variable {N : Finset EndpointId} {s : Mesh}

theorem Sound.handle_done (h : Sound N s) {i : Nat} {j : MeshJob}
    (hj : s.jobs[i]? = some j) (now : Nat) :
    ∃ n, (s.env.handle now j).1 = Function.update s.env j.place n ∧
      Done s.env j n (s.env.handle now j).2 := by
  have hmem := List.mem_of_getElem? hj
  have hplace : j.place ∈ N := by
    have hwithin := h.jobs j hmem
    cases j <;> exact hwithin.1
  exact MeshJob.handle_done now (h.free j.place) (h.addrs _ hplace)
    (h.honest j hmem)

/-- An honest announcement stays so while rosters grow. -/
theorem Honest.grow {s t : MeshNodes} {j : MeshJob} (h : j.Honest s)
    (hgrow : ∀ e, ∀ x ∈ (s e).cluster.members, x ∈ (t e).cluster.members) :
    j.Honest t := by
  cases j with
  | message node nodes =>
    obtain ⟨a, rest, heq, haddr, hrest⟩ := h
    exact ⟨a, rest, heq, haddr, fun b hb => hgrow a.id b.id (hrest b hb)⟩
  | _ => exact trivial

/-- A change of one node, with addresses and jobs that are sound. -/
theorem Sound.change (h : Sound N s) {t : Mesh} {node : EndpointId}
    (hadvances : Advances s t) (henv : t.env.Within N)
    (hother : ∀ e, e ≠ node → t.env e = s.env e)
    (haddrs : (t.env node).addrs = (s.env node).addrs)
    (hfree : ∀ x, (t.env node).cluster.quarantined.lookup x = none)
    (hjobs : ∀ k ∈ t.jobs, k ∈ s.jobs ∨ k.Within N ∧ k.Honest s.env) :
    Sound N t := by
  refine ⟨henv, fun k hk => ?_, fun e he => ?_, fun e x => ?_, fun k hk => ?_⟩
  · rcases hjobs k hk with hk | ⟨hk, -⟩
    · exact h.jobs k hk
    · exact hk
  · by_cases heq : e = node
    · subst heq
      rw [haddrs]
      exact h.addrs e he
    · rw [hother e heq]
      exact h.addrs e he
  · by_cases heq : e = node
    · subst heq
      exact hfree x
    · rw [hother e heq]
      exact h.free e x
  · refine Honest.grow ?_ hadvances.members
    rcases hjobs k hk with hk | ⟨-, hk⟩
    · exact h.honest k hk
    · exact hk

/-- What a job leaves is sound, and further ahead. -/
theorem Sound.work (h : Sound N s) {t : Mesh} {i now : Nat}
    (hwork : s.work MeshNodes.handle i now = some t) :
    Sound N t ∧ Advances s t := by
  obtain ⟨j, hj, rfl⟩ := Pool.work_cases hwork
  obtain ⟨n, henv, hdone⟩ := h.handle_done hj now
  have hwithin := h.env.handle (h.jobs j (List.mem_of_getElem? hj)) now
  have hself : (s.env.handle now j).1 j.place = n := by
    rw [henv]
    exact Function.update_self ..
  have hother : ∀ e, e ≠ j.place → (s.env.handle now j).1 e = s.env e := by
    intro e he
    rw [henv]
    exact Function.update_of_ne he ..
  rw [← hself] at hdone
  have hadvances := advances_of_done (t := ⟨_, _⟩) hj hdone hother rfl
  refine ⟨h.change hadvances hwithin.1 hother hdone.addrs hdone.free
    fun k hk => ?_, hadvances⟩
  exact (Pool.mem_before_or_new hk).imp_right fun hk =>
    ⟨hwithin.2 k hk, hdone.honest k hk⟩

/-- An introduction among `N` leads to nothing outside. -/
theorem within_join (h : s.env.Within N) (now : Nat) {node : EndpointId}
    {peer : EndpointAddr} (hnode : node ∈ N) (hpeer : peer.id ∈ N) :
    (s.join now node peer).env.Within N ∧
      ∀ k ∈ (s.join now node peer).jobs, k ∈ s.jobs ∨ k.Within N := by
  have hlearn := (s.env node).cluster.learn_spec now [peer.id]
  refine ⟨h.update (fun x hx => ?_) (fun x hx => ?_), fun k hk => ?_⟩
  · rw [MeshNode.cluster_remember] at hx
    refine ((hlearn.members x).1 hx).imp_right fun hx => ?_
    rw [List.mem_singleton.1 ((hlearn.fresh x).1 hx).1]
    exact hpeer
  · refine (MeshNode.knows_remember.1 hx).imp_right fun hx => ?_
    rw [hx.1]
    exact hpeer
  · refine (List.mem_append.1 hk).imp_right fun hk => ?_
    rcases List.mem_cons.1 hk with rfl | hk
    · exact ⟨hnode, hpeer⟩
    · refine MeshNodes.within_dial hnode (fun x hx => ?_) k hk
      rw [List.mem_singleton.1 hx]
      exact hpeer

/-- So is what an introduction leaves.  The peer is a member from now on. -/
theorem Sound.join (h : Sound N s) (now : Nat) {node : EndpointId}
    {peer : EndpointAddr} (hnode : node ∈ N) (hpeer : peer.id ∈ N) :
    (Sound N (s.join now node peer) ∧ Advances s (s.join now node peer)) ∧
      (node ≠ peer.id →
        peer.id ∈ ((s.join now node peer).env node).cluster.members) := by
  obtain ⟨hmem, -, hfree⟩ := Cluster.learn_free (h.free node) now [peer.id]
  have hself : (s.join now node peer).env node =
      { (s.env node).remember peer with
        cluster := ((s.env node).cluster.learn now [peer.id]).1 } := by
    simp only [Mesh.join, MeshNode.cluster_remember, Function.update_self]
  have hother : ∀ e, e ≠ node → (s.join now node peer).env e = s.env e :=
    fun e he => Function.update_of_ne he ..
  have hkept : ∀ {p : MeshJob → Prop}, s.Pending p →
      (s.join now node peer).Pending p := by
    rintro p ⟨k, hk, hp⟩
    exact ⟨k, List.mem_append_left _ hk, hp⟩
  have hgreet : (s.join now node peer).Pending (Greets node peer.id) :=
    ⟨_, List.mem_append_right _ (List.mem_cons_self ..), rfl, rfl⟩
  have hmembers : ∀ x, x ∈ ((s.join now node peer).env node).cluster.members ↔
      x ∈ (s.env node).cluster.members ∨ x ∈ [peer.id] ∧ x ≠ node := by
    rw [hself]
    exact hmem
  have hknows : ∀ x, ((s.join now node peer).env node).Knows x ↔
      (s.env node).Knows x ∨ x = peer.id ∧ peer.addrs ≠ [] := by
    rw [hself]
    exact fun x => MeshNode.knows_remember
  have hgrow : ∀ e, ∀ x ∈ (s.env e).cluster.members,
      x ∈ ((s.join now node peer).env e).cluster.members := by
    intro e x hx
    by_cases he : e = node
    · subst he
      exact (hmembers x).2 (Or.inl hx)
    · rw [hother e he]
      exact hx
  have hadvances : Advances s (s.join now node peer) := by
    refine ⟨hgrow, fun e x hx => ?_, fun e x hx hnot => ?_,
      fun e x _ hpend => Or.inl (hkept hpend),
      fun e x _ hpend => Or.inl (hkept hpend),
      fun x y _ hpend => Or.inl (hkept hpend),
      fun e x y _ _ hpend => Or.inl (hkept hpend), fun e x hx hknown hnot => ?_⟩
    · by_cases he : e = node
      · subst he
        exact (hknows x).2 (Or.inl hx)
      · rw [hother e he]
        exact hx
    · by_cases he : e = node
      · subst he
        obtain rfl := List.mem_singleton.1 (((hmembers x).1 hx).resolve_left
          hnot).1
        exact hgreet
      · rw [hother e he] at hx
        exact absurd hx hnot
    · by_cases he : e = node
      · subst he
        obtain rfl := (((hknows x).1 hknown).resolve_left hnot).1
        exact Or.inl hgreet
      · rw [hother e he] at hknown
        exact absurd hknown hnot
  obtain ⟨henv, hjobs⟩ := within_join h.env now hnode hpeer
  refine ⟨⟨h.change hadvances henv hother ?_ ?_ fun k hk => ?_, hadvances⟩,
    fun hne => (hmembers peer.id).2 (Or.inr ⟨List.mem_singleton_self _, hne.symm⟩)⟩
  · rw [hself]
    exact (s.env node).addrs_remember peer
  · rw [hself]
    exact hfree
  · rcases List.mem_append.1 hk with hold | hnew
    · exact Or.inl hold
    · refine (hjobs k hk).imp_right fun hwithin => ⟨hwithin, ?_⟩
      rcases List.mem_cons.1 hnew with rfl | hnew
      · exact trivial
      · exact honest_dial k hnew

end Sound

/-! ## What holds until the mesh is full -/

/-- The node can name the other one. -/
def Nameable (s : Mesh) (e x : EndpointId) : Prop :=
  x ∈ (s.env e).cluster.members ∧ (s.env e).Knows x

/-- `e` will tell `x` of `y`: when it announces to `x`, or when an announcement
of `x` reaches it. -/
def Owes (s : Mesh) (e x y : EndpointId) : Prop :=
  s.Pending (Greets e x) ∨ s.Pending (Compares e x y) ∨
    s.Pending (Announces x e) ∨
    e ∉ (s.env x).cluster.members ∧ s.Pending (Announces e x)

/-- `x` has learned `y`, or will learn it, if nobody else tells it then from
`e`. -/
def Reaches (s : Mesh) (e x y : EndpointId) : Prop :=
  y ∈ (s.env x).cluster.members ∨ s.Pending (Names x y) ∨ s.Owes e x y

/-- Every member is told of the node, and two members of one node hear of each
other. -/
structure Closes (s : Mesh) : Prop where
  announced : ∀ e, ∀ x ∈ (s.env e).cluster.members,
    s.Pending (Announces e x) ∨ s.Nameable x e
  linked : ∀ e x y, s.Nameable e x → s.Nameable e y → x ≠ y →
    s.Reaches e x y ∨ s.Reaches e y x

section Closes

variable {s t : Mesh} {e x y : EndpointId}

theorem ne_of_mem (h : x ∈ (s.env e).cluster.members) : x ≠ e := by
  rintro rfl
  exact (s.env x).cluster.me_not_mem h

/-- An announcement reaches the other one in the end. -/
theorem Advances.announces (h : Advances s t) (hne : x ≠ e)
    (hpend : s.Pending (Announces e x)) :
    t.Pending (Announces e x) ∨ t.Nameable x e := by
  obtain ⟨j, hj, hgreets | hcarries⟩ := hpend
  · rcases h.greeted e x hne (.of_mem hj hgreets) with hgreets | ⟨hcarries, -⟩
    · exact Or.inl (hgreets.mono fun _ => Or.inl)
    · exact Or.inl (hcarries.mono fun _ => Or.inr)
  · rcases h.carried e x hne (.of_mem hj hcarries) with hcarries | hknown
    · exact Or.inl (hcarries.mono fun _ => Or.inr)
    · exact Or.inr ⟨hknown.1, hknown.2.1⟩

theorem Closes.announced_step (h : Closes s) (hstep : Advances s t)
    (hx : x ∈ (t.env e).cluster.members) :
    t.Pending (Announces e x) ∨ t.Nameable x e := by
  by_cases hbefore : x ∈ (s.env e).cluster.members
  · rcases h.announced e x hbefore with hpend | ⟨hmem, hknown⟩
    · exact hstep.announces (ne_of_mem hbefore) hpend
    · exact Or.inr ⟨hstep.members x e hmem, hstep.knows x e hknown⟩
  · exact Or.inl ((hstep.learned e x hx hbefore).mono fun _ => Or.inl)

/-- What is owed is handed over or still owed. -/
theorem Advances.reaches (h : Advances s t) (hx : s.Nameable e x)
    (hy : s.Nameable e y) (hne : x ≠ y) (hreach : s.Reaches e x y) :
    t.Reaches e x y := by
  have hxe := ne_of_mem hx.1
  rcases hreach with hmem | hnames | hgreets | hcompares | hpend | ⟨hnot, hpend⟩
  · exact Or.inl (h.members x y hmem)
  · rcases h.named x y hne.symm hnames with hnames | hmem
    · exact Or.inr (Or.inl hnames)
    · exact Or.inl hmem
  · rcases h.greeted e x hxe hgreets with hgreets | ⟨-, hnames⟩
    · exact Or.inr (Or.inr (Or.inl hgreets))
    · exact Or.inr (Or.inl (hnames y hy.1 hy.2 hne.symm))
  · rcases h.compared e x y hne.symm hy.1 hcompares with hcompares | hgreets
    · exact Or.inr (Or.inr (Or.inr (Or.inl hcompares)))
    · exact Or.inr (Or.inr (Or.inl hgreets))
  · -- The announcement of `x` names `y`, or `e` answers it.
    obtain ⟨j, hj, hgreets | hcarries⟩ := hpend
    · have hpend := h.greeted x e hxe.symm (.of_mem hj hgreets)
      refine Or.inr (Or.inr (Or.inr (Or.inr (Or.inl ?_))))
      rcases hpend with hgreets | ⟨hcarries, -⟩
      · exact hgreets.mono fun _ => Or.inl
      · exact hcarries.mono fun _ => Or.inr
    · rcases h.carried x e hxe.symm (.of_mem hj hcarries) with hcarries | hknown
      · exact Or.inr (Or.inr (Or.inr (Or.inr (Or.inl
          (hcarries.mono fun _ => Or.inr)))))
      · rcases hknown.2.2 y (h.members e y hy.1) hne.symm with hmem | hcompares
        · exact Or.inl hmem
        · exact Or.inr (Or.inr (Or.inr (Or.inl hcompares)))
  · -- When `x` learns `e`, it will announce to `e`.
    refine Or.inr (Or.inr (Or.inr (Or.inr ?_)))
    by_cases hmem : e ∈ (t.env x).cluster.members
    · exact Or.inl ((h.learned x e hmem hnot).mono fun _ => Or.inl)
    · refine Or.inr ⟨hmem, ?_⟩
      exact (h.announces hxe hpend).resolve_right fun hknown => hmem hknown.1

/-- A node that could not be named before will hear of all other members. -/
theorem Closes.reaches_new (h : Closes s) (hstep : Advances s t)
    (hx : t.Nameable e x) (hbefore : ¬ s.Nameable e x)
    (hy : y ∈ (t.env e).cluster.members) (hne : x ≠ y) : t.Reaches e x y := by
  by_cases hmem : x ∈ (s.env e).cluster.members
  · have hnot : ¬ (s.env e).Knows x := fun hknows => hbefore ⟨hmem, hknows⟩
    rcases hstep.told e x hmem hx.2 hnot with hgreets | hall | ⟨hback, hto, hsame⟩
    · exact Or.inr (Or.inr (Or.inl hgreets))
    · rcases hall y hy hne.symm with hmem | hcompares
      · exact Or.inl hmem
      · exact Or.inr (Or.inr (Or.inr (Or.inl hcompares)))
    · refine Or.inr (Or.inr (Or.inr (Or.inr ?_)))
      by_cases hmem' : e ∈ (s.env x).cluster.members
      · exact Or.inl (hback
          ((h.announced x e hmem').resolve_right hbefore))
      · have hpend := (h.announced e x hmem).resolve_right fun hknown =>
          hmem' hknown.1
        exact Or.inr ⟨fun hnow => hmem' (hsame hnow), hto hpend⟩
  · exact Or.inr (Or.inr (Or.inl (hstep.learned e x hx.1 hmem)))

theorem Closes.step (h : Closes s) (hstep : Advances s t) : Closes t := by
  refine ⟨fun e x hx => h.announced_step hstep hx, fun e x y hx hy hne => ?_⟩
  by_cases hbx : s.Nameable e x
  · by_cases hby : s.Nameable e y
    · rcases h.linked e x y hbx hby hne with hreach | hreach
      · exact Or.inl (hstep.reaches hbx hby hne hreach)
      · exact Or.inr (hstep.reaches hby hbx hne.symm hreach)
    · exact Or.inr (h.reaches_new hstep hy hby hx.1 hne.symm)
  · exact Or.inl (h.reaches_new hstep hx hbx hy.1 hne)

/-- When nothing is left, membership is symmetric and transitive. -/
theorem Closes.quiet (h : Closes s) (hjobs : s.jobs = []) :
    (∀ e, ∀ x ∈ (s.env e).cluster.members,
      e ∈ (s.env x).cluster.members) ∧
    ∀ e, ∀ x ∈ (s.env e).cluster.members, ∀ y ∈ (s.env e).cluster.members,
      x ≠ y → y ∈ (s.env x).cluster.members := by
  have hnone : ∀ {p : MeshJob → Prop}, ¬ s.Pending p := by
    rintro p ⟨j, hj, -⟩
    rw [hjobs] at hj
    cases hj
  have hback : ∀ e, ∀ x ∈ (s.env e).cluster.members, s.Nameable x e :=
    fun e x hx => (h.announced e x hx).resolve_left hnone
  have hreach : ∀ e x y, s.Reaches e x y → y ∈ (s.env x).cluster.members := by
    intro e x y hreach
    refine hreach.resolve_right ?_
    rintro (hpend | hpend | hpend | hpend | ⟨-, hpend⟩) <;> exact hnone hpend
  refine ⟨fun e x hx => (hback e x hx).1, fun e x hx y hy hne => ?_⟩
  have hnamed : ∀ z ∈ (s.env e).cluster.members, s.Nameable e z :=
    fun z hz => hback z e (hback e z hz).1
  rcases h.linked e x y (hnamed x hx) (hnamed y hy) hne with hxy | hyx
  · exact hreach e x y hxy
  · exact (hback y x (hreach e y x hyx)).1

end Closes

end Mesh

namespace Introductions

open Mesh

variable {N : Finset EndpointId} {s : Introductions}

/-- What holds all along. -/
structure Inv (N : Finset EndpointId) (s : Introductions) : Prop where
  sound : s.mesh.Sound N
  closes : s.mesh.Closes
  joined : ∀ a b, (a, b) ∈ s.joins → a ≠ b →
    b ∈ (s.mesh.env a).cluster.members

theorem Start.inv (h : Start N s) : Inv N s := by
  have hmembers : ∀ e x, x ∉ (s.mesh.env e).cluster.members := by
    intro e x hx
    rw [h.members e] at hx
    exact KeySet.not_mem_empty x hx
  refine ⟨⟨⟨fun e _ x hx => absurd hx (hmembers e x), h.known⟩, fun j hj => ?_,
    h.addrs, fun e x => ?_, fun j hj => ?_⟩,
    ⟨fun e x hx => absurd hx (hmembers e x),
      fun e x y hx => absurd hx.1 (hmembers e x)⟩, fun a b hab => ?_⟩
  · rw [h.jobs] at hj
    cases hj
  · rw [h.free e]
    rfl
  · rw [h.jobs] at hj
    cases hj
  · rw [h.joins] at hab
    cases hab

theorem inv_step {t : Introductions} {a : IntroAction} (h : Inv N s)
    (hamong : s.Among N a) (hnext : step s a = some t) : Inv N t := by
  cases a with
  | join now node peer =>
    obtain rfl := Option.some_inj.1 hnext
    obtain ⟨⟨hsound, hstep⟩, hpeer⟩ := h.sound.join now hamong.1 hamong.2
    refine ⟨hsound, h.closes.step hstep, fun a b hab hne => ?_⟩
    rcases List.mem_cons.1 hab with heq | hab
    · cases heq
      exact hpeer hne
    · exact hstep.members a b (h.joined a b hab hne)
  | work i now =>
    obtain ⟨mesh, hwork, rfl⟩ := Option.map_eq_some_iff.1 hnext
    obtain ⟨hsound, hstep⟩ := h.sound.work hwork
    exact ⟨hsound, h.closes.step hstep, fun a b hab hne =>
      hstep.members a b (h.joined a b hab hne)⟩

/-- When nothing is pending and the introductions connect all nodes, each is a
member of all others, and there are no other members. -/
theorem mesh_is_full {start : Introductions} (hstart : start.Start N)
    (hrun : Run step (Among N) start s) (hquiet : s.mesh.jobs = [])
    (hconnect : s.Connect N) : ∀ e ∈ N, ∀ x,
      x ∈ (s.mesh.env e).cluster.members ↔ x ∈ N ∧ x ≠ e := by
  have hinv := hrun.invariant inv_step hstart.inv
  obtain ⟨hsymm, htrans⟩ := hinv.closes.quiet hquiet
  -- Whoever is connected is the same node or a member.
  have hclique : ∀ x y, Relation.EqvGen (fun a b => (a, b) ∈ s.joins) x y →
      x = y ∨ y ∈ (s.mesh.env x).cluster.members := by
    intro x y hxy
    induction hxy with
    | rel a b hab =>
      by_cases heq : a = b
      · exact Or.inl heq
      · exact Or.inr (hinv.joined a b hab heq)
    | refl a => exact Or.inl rfl
    | symm a b _ ih => exact ih.imp Eq.symm (hsymm a b)
    | trans a b c _ _ ih₁ ih₂ =>
      rcases ih₁ with rfl | hab
      · exact ih₂
      · rcases ih₂ with rfl | hbc
        · exact Or.inr hab
        · by_cases heq : a = c
          · exact Or.inl heq
          · exact Or.inr (htrans b a (hsymm a b hab) c hbc heq)
  intro e he x
  constructor
  · exact fun hx => ⟨hinv.sound.env.members e he x hx, ne_of_mem hx⟩
  · rintro ⟨hx, hne⟩
    exact (hclique e x (hconnect e he x hx)).resolve_left hne.symm

/-- Three nodes that have not met. -/
def strangers : Introductions := ⟨⟨fun e => .new e ["udp"], []⟩, []⟩

theorem strangers_start (N : Finset EndpointId) : strangers.Start N where
  members _ := rfl
  free _ := rfl
  known _ _ x hx := absurd hx (AList.notMem_empty x)
  addrs _ _ := List.cons_ne_nil "udp" []
  jobs := rfl
  joins := rfl

/-- Nodes 1 and 3 are introduced to node 2, and all three are members of each
other. -/
theorem mesh_is_full_strangers :
    ∃ s, Run step (Among {⟨1⟩, ⟨2⟩, ⟨3⟩}) strangers s ∧
      ∀ e ∈ ({⟨1⟩, ⟨2⟩, ⟨3⟩} : Finset EndpointId), ∀ x,
        x ∈ (s.mesh.env e).cluster.members ↔
          x ∈ ({⟨1⟩, ⟨2⟩, ⟨3⟩} : Finset EndpointId) ∧ x ≠ e := by
  have hrun : ∃ s, Run step (Among {⟨1⟩, ⟨2⟩, ⟨3⟩}) strangers s ∧
      (s.mesh.jobs = [] ∧ s.joins = [(⟨3⟩, ⟨2⟩), (⟨1⟩, ⟨2⟩)]) :=
    exec_run_of_any (.join 5 ⟨1⟩ ⟨⟨2⟩, ["udp"]⟩ ::
      .join 5 ⟨3⟩ ⟨⟨2⟩, ["udp"]⟩ :: List.replicate 36 (.work 0 5)) (by decide)
  obtain ⟨s, hrun, hquiet, hjoins⟩ := hrun
  refine ⟨s, hrun, mesh_is_full (strangers_start _) hrun hquiet ?_⟩
  have hseed : ∀ x ∈ ({⟨1⟩, ⟨2⟩, ⟨3⟩} : Finset EndpointId),
      Relation.EqvGen (fun a b => (a, b) ∈ s.joins) x ⟨2⟩ := by
    rw [hjoins]
    intro x hx
    simp only [Finset.mem_insert, Finset.mem_singleton] at hx
    rcases hx with rfl | rfl | rfl
    · exact .rel _ _ (by decide)
    · exact .refl _
    · exact .rel _ _ (by decide)
  exact fun x hx y hy => .trans _ _ _ (hseed x hx) (.symm _ _ (hseed y hy))

end Introductions

end Plasmoid
