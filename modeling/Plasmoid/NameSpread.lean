import Plasmoid.FullMesh
import Plasmoid.Lib.Spread
import Plasmoid.ReleasedNames
import Plasmoid.SyncConvergence

/-!
# How a name spreads

Under each name the nodes have a pid each, which spreads as the tables are
exchanged: `view` is what one name sees of the cluster, a state of `Spread`.
Each pair of nodes exchanges its tables once, when one of them learns the other.
A claim commits at those members that it has read before, and a commit replaces
what is there.

`Orderly` is what a step must look out for, so that every pid reaches every node
or meets a lower one.
-/

namespace Plasmoid

open Machine

/-! ## What is under way -/

namespace SyncJob

/-- The reply that is held back binds the name to the pid. -/
def Returns (e : EndpointId) (name : String) (pid : Pid)
    (back : Option (EndpointId × NameMessage)) : Prop :=
  ∃ r ∈ back, r.1 = e ∧ (name, pid) ∈ r.2.names

/-- A table that will be merged at `e` binds the name to the pid. -/
def Brings (e : EndpointId) (name : String) (pid : Pid) : SyncJob → Prop
  | request node peer msg => (peer = e ∧ node ≠ e) ∧ (name, pid) ∈ msg.names
  | answer node theirs back | merge node theirs back =>
    node = e ∧ (name, pid) ∈ theirs.names ∨ Returns e name pid back
  | close _ _ back | kill _ _ back => Returns e name pid back
  | reply node msg => node = e ∧ (name, pid) ∈ msg.names
  | begin .. | snapshot .. | settling .. | peeking .. => False

/-- The table of `f` will be read for `e`. -/
def Reads (f e : EndpointId) : SyncJob → Prop
  | begin node peer | snapshot node peer =>
    node = f ∧ peer = e ∨ node = e ∧ peer = f
  | request node peer _ => node = e ∧ peer = f
  | answer .. | merge .. | close .. | kill .. | reply .. | settling ..
  | peeking .. => False

/-- The job concerns none but nodes of `N`. -/
def Within (N : Finset EndpointId) : SyncJob → Prop
  | begin node peer | snapshot node peer | request node peer _ =>
    node ∈ N ∧ peer ∈ N
  | answer node _ back | merge node _ back | close node _ back
  | kill node _ back => node ∈ N ∧ ∀ r ∈ back, r.1 ∈ N
  | reply node _ | settling node _ | peeking node _ => node ∈ N

instance (e : EndpointId) (name : String) (pid : Pid)
    (back : Option (EndpointId × NameMessage)) :
    Decidable (Returns e name pid back) :=
  inferInstanceAs (Decidable (∃ r ∈ back, _))

instance (e : EndpointId) (name : String) (pid : Pid) :
    DecidablePred (Brings e name pid)
  | request .. => inferInstanceAs (Decidable ((_ ∧ _) ∧ _))
  | answer .. | merge .. => inferInstanceAs (Decidable (_ ∧ _ ∨ _))
  | close _ _ back | kill _ _ back =>
    inferInstanceAs (Decidable (Returns e name pid back))
  | reply .. => inferInstanceAs (Decidable (_ ∧ _))
  | begin .. | snapshot .. | settling .. | peeking .. => isFalse id

instance (f e : EndpointId) : DecidablePred (Reads f e)
  | begin .. | snapshot .. => inferInstanceAs (Decidable (_ ∧ _ ∨ _ ∧ _))
  | request .. => inferInstanceAs (Decidable (_ ∧ _))
  | answer .. | merge .. | close .. | kill .. | reply .. | settling ..
  | peeking .. => isFalse id

end SyncJob

namespace MeshJob

/-- `f` has learned `e` and is about to exchange tables with it. -/
def Introduces (f e : EndpointId) : MeshJob → Prop
  | introduce node learned _ => node = f ∧ e ∈ learned
  | message .. | accept .. | greet .. | answer .. => False

instance (f e : EndpointId) : DecidablePred (Introduces f e) := fun j => by
  cases j <;> unfold Introduces <;> infer_instance

end MeshJob

/-- The nodes that a committing claim has locked, and those that are left. -/
def CallPhase.commits : CallPhase → Option (List EndpointId × List EndpointId)
  | committing _ held node rest => some (held, node :: rest)
  | settling | checking | sorting _ | locking .. | taking .. | releasing ..
  | returned _ => none

namespace NameCluster

/-- The table of `f` will be read for `e`: they exchange tables, or one of them
has yet to learn the other and will do so then. -/
def Reads (s : NameCluster) (f e : EndpointId) : Prop :=
  (e ∉ s.roster f ∨ f ∉ s.roster e) ∨ (∃ j ∈ s.sync.jobs, j.Reads f e) ∨
    ∃ j ∈ s.mesh.jobs, j.Introduces f e ∨ j.Introduces e f

instance (s : NameCluster) (f e : EndpointId) : Decidable (s.Reads f e) :=
  inferInstanceAs (Decidable (_ ∨ (∃ j ∈ _, _) ∨ ∃ j ∈ _, _))

/-- What there is to see of one name. -/
def view (s : NameCluster) (name : String) : Spread.State EndpointId Pid where
  value e := s.bound e name
  coming e pid := ∃ j ∈ s.sync.jobs, j.Brings e name pid
  reads := s.Reads
  claims pid held left := ∃ c ∈ s.calls, (c.name = name ∧ c.pid = pid) ∧
    c.phase.commits = some (held, left)
  outdone pid := (name, pid) ∈ s.outdone
  gone := s.Gone name

/-- A node has the name, or a message or a claim brings it. -/
def Present (N : Finset EndpointId) (s : NameCluster) (name : String)
    (pid : Pid) : Prop :=
  (∃ e ∈ N, s.bound e name = some pid) ∨
    (∃ e ∈ N, ∃ j ∈ s.sync.jobs, j.Brings e name pid) ∨
    ∃ c ∈ s.calls, (c.name = name ∧ c.pid = pid) ∧ c.phase.commits.isSome

instance (N : Finset EndpointId) (s : NameCluster) (name : String) (pid : Pid) :
    Decidable (s.Present N name pid) :=
  inferInstanceAs (Decidable ((∃ e ∈ N, _) ∨ (∃ e ∈ N, ∃ j ∈ _, _) ∨
    ∃ c ∈ s.calls, _))

theorem present_view {N : Finset EndpointId} {s : NameCluster} {name : String}
    {pid : Pid} : (s.view name).Present N pid ↔ s.Present N name pid := by
  refine or_congr_right (or_congr_right ?_)
  constructor
  · rintro ⟨held, left, c, hc, hname, hcommits⟩
    refine ⟨c, hc, hname, ?_⟩
    rw [hcommits]
    rfl
  · rintro ⟨c, hc, hname, hcommits⟩
    obtain ⟨⟨held, left⟩, hcommits⟩ := Option.isSome_iff_exists.1 hcommits
    exact ⟨held, left, c, hc, hname, hcommits⟩

/-! ## The condition -/

/-- The node will have the name without the claim that now commits at `node`:
it has it, a table brings it, or a table that has it will be read for it. -/
def Supplied (N : Finset EndpointId) (s : NameCluster) (node : EndpointId)
    (name : String) (pid : Pid) (e : EndpointId) : Prop :=
  s.bound e name = some pid ∨ (∃ j ∈ s.sync.jobs, j.Brings e name pid) ∨
    ∃ f ∈ N, f ≠ e ∧ (f = node ∨ s.bound f name = some pid) ∧ s.Reads f e

/-- A commit replaces no other pid.  The last one leaves no node behind that the
claim has not locked. -/
def CommitFair (N : Finset EndpointId) (s : NameCluster) (c : Call) : Prop :=
  match c.phase with
  | .committing _ held node rest =>
    (∀ p ∈ s.bound node c.name, p = c.pid) ∧
      (rest = [] → ¬ s.Gone c.name c.pid → (c.name, c.pid) ∉ s.outdone →
        ∀ e ∈ N, e ∉ held → s.Supplied N node c.name c.pid e)
  | _ => True

/-- No side of a conflict has given up the name. -/
def MergeFair (s : NameCluster) : SyncJob → Prop
  | .merge node theirs _ => ∀ e ∈ theirs.names, ∀ p ∈ s.bound node e.1,
    p ≠ e.2 → ¬ s.Gone e.1 e.2 ∧ ¬ s.Gone e.1 p
  | _ => True

/-- No other pid that lost a conflict over the name is still around. -/
def Resolved (N : Finset EndpointId) (s : NameCluster) (name : String)
    (pid : Pid) : Prop :=
  ∀ x ∈ s.outdone, x.1 = name → pid < x.2 → ¬ s.Gone name x.2 →
    ¬ s.Present N name x.2

/-- Only the nodes of `N` take part, and all messages arrive. -/
def Reliable (N : Finset EndpointId) : NameAction → Prop
  | .join _ node peer => node ∈ N ∧ peer.id ∈ N
  | .connect node peer => node ∈ N ∧ peer ∈ N
  | .register _ pid => pid.node ∈ N
  | .syncFails _ | .unanswered .. | .releaseFails _ | .lose .. => False
  | .announce .. | .sync _ | .advance _ | .unregister .. | .release _ | .die _
  | .react _ => True

/-- A claim that overlaps joins leaves nobody behind, conflicts are between
owners, and a name is given up only when its conflicts are resolved. -/
def Fair (N : Finset EndpointId) (s : NameCluster) : NameAction → Prop
  | .sync i => ∀ j ∈ s.sync.jobs[i]?, s.MergeFair j
  | .advance i => ∀ c ∈ s.calls[i]?, s.CommitFair N c
  | .unregister name pid => s.Present N name pid → s.Resolved N name pid
  | .react node => ∀ pid ∈ (s.deathsAt node).head?, ∀ x ∈ s.outdone,
    s.Present N x.1 pid → s.Resolved N x.1 pid
  | _ => True

/-- The steps of a reliable run that looks out for joins and releases. -/
def Orderly (N : Finset EndpointId) (s : NameCluster) (a : NameAction) : Prop :=
  Reliable N a ∧ s.Heard N a ∧ s.Fair N a

instance (N : Finset EndpointId) (s : NameCluster) (node : EndpointId)
    (name : String) (pid : Pid) (e : EndpointId) :
    Decidable (s.Supplied N node name pid e) :=
  inferInstanceAs (Decidable (_ ∨ (∃ j ∈ _, _) ∨ ∃ f ∈ N, _))

instance (N : Finset EndpointId) (s : NameCluster) :
    DecidablePred (s.CommitFair N)
  | ⟨_, _, _, .committing ..⟩ => inferInstanceAs (Decidable
      ((∀ p ∈ _, _) ∧ (_ = [] → ¬ _ → _ ∉ _ → ∀ e ∈ N, _ → _)))
  | ⟨_, _, _, .settling⟩ | ⟨_, _, _, .checking⟩ | ⟨_, _, _, .sorting _⟩
  | ⟨_, _, _, .locking ..⟩ | ⟨_, _, _, .taking ..⟩ | ⟨_, _, _, .releasing ..⟩
  | ⟨_, _, _, .returned _⟩ => isTrue trivial

instance (s : NameCluster) : DecidablePred s.MergeFair
  | .merge .. => inferInstanceAs (Decidable
      (∀ e ∈ _, ∀ p ∈ _, _ ≠ _ → ¬ _ ∧ ¬ _))
  | .begin .. | .snapshot .. | .request .. | .answer .. | .close .. | .kill ..
  | .reply .. | .settling .. | .peeking .. => isTrue trivial

instance (N : Finset EndpointId) (s : NameCluster) (name : String)
    (pid : Pid) : Decidable (s.Resolved N name pid) :=
  inferInstanceAs (Decidable (∀ x ∈ s.outdone, _))

instance (N : Finset EndpointId) : DecidablePred (Reliable N) := fun a => by
  cases a <;> unfold Reliable <;> infer_instance

instance (N : Finset EndpointId) (s : NameCluster) :
    DecidablePred (s.Fair N)
  | .sync i => inferInstanceAs (Decidable (∀ j ∈ s.sync.jobs[i]?, _))
  | .advance i => inferInstanceAs (Decidable (∀ c ∈ s.calls[i]?, _))
  | .unregister .. => inferInstanceAs (Decidable (_ → _))
  | .react node => inferInstanceAs (Decidable
      (∀ pid ∈ (s.deathsAt node).head?, ∀ x ∈ s.outdone, _ → _))
  | .join .. | .connect .. | .announce .. | .syncFails _ | .register ..
  | .unanswered .. | .release _ | .releaseFails _ | .die _ | .lose .. =>
    isTrue trivial

instance (N : Finset EndpointId) (s : NameCluster) :
    DecidablePred (s.Orderly N) :=
  fun _ => inferInstanceAs (Decidable (_ ∧ _ ∧ _))

end NameCluster

/-! ## What one job of an exchange does -/

namespace SyncEnv

variable {s : SyncEnv} {j : SyncJob} {N : Finset EndpointId}
variable {e f : EndpointId} {name : String} {pid : Pid}

/-- A table on its way arrives. -/
theorem handle_brings (h : j.Brings e name pid) :
    (∃ k ∈ (s.handle () j).2, k.Brings e name pid) ∨
      ∃ theirs back, j = .merge e theirs back ∧
        (name, pid) ∈ theirs.names := by
  have hnext : ∀ k, s.Causes j k → k.Brings e name pid →
      ∃ k ∈ (s.handle () j).2, k.Brings e name pid :=
    fun k hk hbrings => ⟨k, mem_handle_iff.2 hk, hbrings⟩
  cases j with
  | begin node peer => exact h.elim
  | snapshot node peer => exact h.elim
  | settling node name => exact h.elim
  | peeking node name => exact h.elim
  | request node peer msg =>
    obtain ⟨⟨rfl, hne⟩, hmem⟩ := h
    exact Or.inl (hnext _ (.request hne) (Or.inl ⟨rfl, hmem⟩))
  | answer node theirs back => exact Or.inl (hnext _ .answer h)
  | merge node theirs back =>
    rcases h with ⟨rfl, hmem⟩ | hback
    · exact Or.inr ⟨theirs, back, rfl, hmem⟩
    · exact Or.inl (hnext _ .merge hback)
  | close node losers back => exact Or.inl (hnext _ .close h)
  | kill node losers back =>
    cases losers with
    | nil =>
      obtain ⟨⟨caller, mine⟩, rfl, hmem⟩ := h
      exact Or.inl (hnext _ .respond hmem)
    | cons v rest => exact Or.inl (hnext _ .kill h)
  | reply node msg => exact Or.inl (hnext _ .reply (Or.inl h))

/-- What comes is what came, or what a table has. -/
theorem brings_of_handle (hwithin : j.Within N) {k : SyncJob}
    (hk : k ∈ (s.handle () j).2) (h : k.Brings e name pid) :
    j.Brings e name pid ∨
      ∃ f ∈ N, (s.node f).names.lookup name = some pid := by
  have hread : ∀ f ∈ N, (name, pid) ∈ (s.message f).names →
      ∃ f ∈ N, (s.node f).names.lookup name = some pid :=
    fun f hf hmem => ⟨f, hf, held_eq_coe.1 (mem_snapshot.1 hmem)⟩
  cases mem_handle_iff.1 hk with
  | begin => exact h.elim
  | snapshot => exact Or.inr (hread _ hwithin.1 h.2)
  | refuse =>
    obtain ⟨r, hr, -⟩ := h
    cases hr
  | request hne =>
    rcases h with ⟨rfl, hmem⟩ | ⟨r, hr, -, hmem⟩
    · exact Or.inl ⟨⟨rfl, hne⟩, hmem⟩
    · cases hr
      exact Or.inr (hread _ hwithin.2 hmem)
  | answer => exact Or.inl h
  | merge => exact Or.inl (Or.inr h)
  | close => exact Or.inl h
  | kill => exact Or.inl h
  | respond => exact Or.inl ⟨_, rfl, h⟩
  | reply => exact Or.inl (h.elim id fun ⟨r, hr, _⟩ => nomatch hr)
  | settle hmerges => exact h.elim

/-- A table that is to be read is read, and then it is on its way. -/
theorem handle_reads (hne : f ≠ e) (h : j.Reads f e) :
    (∃ k ∈ (s.handle () j).2, k.Reads f e) ∨
      ∀ name pid, (s.node f).names.lookup name = some pid →
        ∃ k ∈ (s.handle () j).2, k.Brings e name pid := by
  have htell : ∀ name pid, (s.node f).names.lookup name = some pid →
      (name, pid) ∈ (s.message f).names :=
    fun name pid hpid => mem_snapshot.2 (held_eq_coe.2 hpid)
  cases j with
  | begin node peer => exact Or.inl ⟨_, List.mem_singleton_self _, h⟩
  | snapshot node peer =>
    rcases h with ⟨rfl, rfl⟩ | ⟨rfl, rfl⟩
    · exact Or.inr fun name pid hpid =>
        ⟨_, List.mem_singleton_self _, ⟨rfl, hne⟩, htell name pid hpid⟩
    · exact Or.inl ⟨_, List.mem_singleton_self _, rfl, rfl⟩
  | request node peer msg =>
    obtain ⟨rfl, rfl⟩ := h
    exact Or.inr fun name pid hpid => ⟨_, mem_handle_iff.2 (.request hne.symm),
      Or.inr ⟨_, rfl, rfl, htell name pid hpid⟩⟩
  | answer node theirs back => exact h.elim
  | merge node theirs back => exact h.elim
  | close node losers back => exact h.elim
  | kill node losers back => exact h.elim
  | reply node msg => exact h.elim
  | settling node name => exact h.elim
  | peeking node name => exact h.elim

theorem handle_within (h : j.Within N) :
    ∀ k ∈ (s.handle () j).2, k.Within N := by
  intro k hk
  cases mem_handle_iff.1 hk with
  | refuse => exact ⟨h.1, fun r hr => nomatch hr⟩
  | request hne =>
    refine ⟨h.2, fun r hr => ?_⟩
    cases hr
    exact h.1
  | respond => exact h.2 _ rfl
  | reply => exact ⟨h, fun r hr => nomatch hr⟩
  | _ => exact h

theorem names_mergeAt_self (s : SyncEnv) (node : EndpointId)
    (msg : NameMessage) : ((s.mergeAt node msg).node node).names =
      (GlobalNames.mergeAll (s.node node).names msg.names).1 := by
  show (Function.update s.node node _ node).names = _
  rw [Function.update_self]
  rfl

theorem node_mergeAt_ne (s : SyncEnv) {node : EndpointId} (msg : NameMessage)
    (h : e ≠ node) : (s.mergeAt node msg).node e = s.node e :=
  Function.update_of_ne h ..

/-- No table has two entries for a name. -/
def OnePerName (msg : NameMessage) : Prop := (msg.names.map Prod.fst).Nodup

theorem message_onePerName (s : SyncEnv) (e : EndpointId) :
    OnePerName (s.message e) := by
  have hkeys : ((s.node e).snapshot).map Prod.fst = (s.node e).names.keys := by
    rw [GlobalNames.snapshot, List.map_map]
    rfl
  show ((s.node e).snapshot.map Prod.fst).Nodup
  rw [hkeys]
  exact (s.node e).names.keys_nodup

theorem handle_onePerName (h : ∀ msg ∈ j.messages, OnePerName msg) :
    ∀ k ∈ (s.handle () j).2, ∀ msg ∈ k.messages, OnePerName msg := by
  intro k hk msg hmsg
  rcases (mem_handle_iff.1 hk).messages hmsg with hold | ⟨f, rfl⟩
  · exact h msg hold
  · exact s.message_onePerName f

end SyncEnv

/-! ## Who is learned, and what a merge drops -/

/-- A node that is learned will be introduced, or tables are exchanged with it
right away. -/
theorem MeshNodes.learned (s : MeshNodes) (now : Nat) (j : MeshJob)
    {f e : EndpointId}
    (h : e ∈ ((s.handle now j).1 f).cluster.members) :
    e ∈ (s f).cluster.members ∨ (∃ k ∈ (s.handle now j).2, k.Introduces f e) ∨
      SyncJob.begin f e ∈ s.syncs now j := by
  have hsend : ∀ (node : EndpointId) (targets : List EndpointId),
      e ∈ (Function.update s node ((s node).announceTo targets).1
        f).cluster.members → e ∈ (s f).cluster.members := by
    intro node targets hmem
    by_cases hf : f = node
    · subst hf
      rw [Function.update_self,
        ((s f).announceTo_spec targets).1.cluster] at hmem
      exact hmem
    · rw [Function.update_of_ne hf] at hmem
      exact hmem
  cases j with
  | message node nodes =>
    simp only [handle] at h ⊢
    obtain ⟨hcluster, -⟩ := MeshNode.foldl_remember nodes (s node)
    by_cases hf : f = node
    · subst hf
      rw [Function.update_self, hcluster] at h
      rw [hcluster]
      have hlearn := (s f).cluster.learn_spec now (nodes.map (·.id))
      refine ((hlearn.members e).1 h).imp_right fun hfresh => Or.inl ?_
      rw [if_neg (List.ne_nil_of_mem hfresh)]
      exact ⟨_, List.mem_singleton_self _, rfl, hfresh⟩
    · rw [Function.update_of_ne hf] at h
      exact Or.inl h
  | accept node remote =>
    simp only [handle, syncs] at h ⊢
    by_cases hf : f = node
    · subst hf
      rw [Function.update_self] at h
      have hlearn := (s f).cluster.learn_spec now [remote]
      refine ((hlearn.members e).1 h).imp_right fun hfresh => Or.inr ?_
      rw [if_neg (List.ne_nil_of_mem hfresh),
        List.mem_singleton.1 ((hlearn.fresh e).1 hfresh).1]
      exact List.mem_singleton_self _
    · rw [Function.update_of_ne hf] at h
      exact Or.inl h
  | greet node target => exact Or.inl (hsend node [target] h)
  | introduce node learned announced => exact Or.inl (hsend node learned h)
  | answer node announced => exact Or.inl h

/-- Handlers start exchanges, with those that the handler has learned. -/
theorem MeshNodes.mem_syncs {s : MeshNodes} {now : Nat} {j : MeshJob}
    {k : SyncJob} (hk : k ∈ s.syncs now j) : ∃ node peer, k = .begin node peer ∧
      ∀ N, j.Within N → node ∈ N ∧ peer ∈ N := by
  cases j with
  | accept node remote =>
    simp only [syncs] at hk
    split at hk
    · cases hk
    · exact ⟨node, remote, List.mem_singleton.1 hk, fun _ h => h⟩
  | introduce node learned announced =>
    obtain ⟨x, hx, rfl⟩ := List.mem_map.1 hk
    exact ⟨node, x, rfl, fun _ h => ⟨h.1, h.2.1 x hx⟩⟩
  | message node nodes => cases hk
  | greet node target => cases hk
  | answer node announced => cases hk

/-- An introduction that is handled exchanges tables with all who were
learned. -/
theorem MeshJob.Introduces.syncs {j : MeshJob} {f e : EndpointId}
    (h : j.Introduces f e) (s : MeshNodes) (now : Nat) :
    SyncJob.begin f e ∈ s.syncs now j := by
  cases j with
  | introduce node learned announced =>
    obtain ⟨rfl, hmem⟩ := h
    exact List.mem_map_of_mem hmem
  | message node nodes => exact h.elim
  | accept node remote => exact h.elim
  | greet node target => exact h.elim
  | answer node announced => exact h.elim

namespace GlobalNames

theorem held_mergeAll_le {names : Table String Pid}
    {theirs : List (String × Pid)} {name : String} {p : Pid}
    (h : names.lookup name = some p ∨ (name, p) ∈ theirs) :
    held (mergeAll names theirs).1 name ≤ p := by
  rw [(mergeAll_spec theirs names).held]
  rcases h with hours | htheirs
  · rw [held_eq_coe.2 hours]
    exact min_le_left _ _
  · exact (min_le_right _ _).trans (offered_le htheirs)

/-- The table has something for every name that was bound. -/
theorem lookup_mergeAll_le {names : Table String Pid}
    {theirs : List (String × Pid)} {name : String} {p : Pid}
    (h : names.lookup name = some p ∨ (name, p) ∈ theirs) :
    ∃ m, (mergeAll names theirs).1.lookup name = some m ∧ m ≤ p := by
  have hle := held_mergeAll_le h
  cases hm : (mergeAll names theirs).1.lookup name with
  | none =>
    rw [held, hm] at hle
    exact absurd (top_le_iff.1 hle) (WithTop.coe_ne_top)
  | some m =>
    rw [held_eq_coe.2 hm] at hle
    exact ⟨m, rfl, WithTop.coe_le_coe.1 hle⟩

/-- Who has lost a conflict in a merge: whoever the table or the entries bound
the name to, if the table does not bind it to them any more. -/
theorem lost_mergeAll_iff (names : Table String Pid)
    (theirs : List (String × Pid)) (name : String) (p : Pid) :
    (∃ v ∈ (mergeAll names theirs).2, v.name = name ∧ v.loser = p) ↔
      (names.lookup name = some p ∨ (name, p) ∈ theirs) ∧
        (mergeAll names theirs).1.lookup name ≠ some p := by
  have hspec := mergeAll_spec theirs names
  constructor
  · rintro ⟨v, hv, rfl, rfl⟩
    refine ⟨(hspec.pid v hv).imp_left held_eq_coe.1, fun hsame => ?_⟩
    obtain ⟨hle, hlt⟩ := hspec.loses v hv
    rw [held_eq_coe.2 hsame] at hle
    exact absurd (WithTop.coe_le_coe.1 hle) (not_le.2 hlt)
  · rintro ⟨hbound, hnot⟩
    have hlt : held (mergeAll names theirs).1 name < p :=
      (held_mergeAll_le hbound).lt_of_ne fun heq => hnot (held_eq_coe.1 heq)
    rcases hbound with hours | htheirs
    · exact hspec.displaced name p (held_eq_coe.2 hours) hlt
    · exact dropped_mergeAll htheirs names hlt

end GlobalNames

/-! ## What a claim commits -/

namespace CallPhase

theorem commits_of_idle {phase : CallPhase} (h : phase.idle = true) :
    phase.commits = none := by
  cases phase <;> first | rfl | cases h

theorem commits_commitAll (attempts : Nat) (held rest : List EndpointId) :
    (commitAll attempts held rest).commits =
      if rest = [] then none else some (held, rest) := by
  cases rest with
  | nil => exact commits_of_idle (idle_releaseLocks ..)
  | cons node rest => rfl

end CallPhase

/-- A step of a call has nothing to do with commits, or it decides the claim, or
it commits. -/
inductive Call.Progress (s : GlobalClaims) (c : Call) (phase : CallPhase)
    (node : EndpointId → GlobalNames) : Prop where
  | quiet (hbefore : c.phase.commits = none) (hphase : phase.commits = none)
      (hdecides : c.decides phase = false)
      (hwon : phase.won = true → c.phase.won = true)
      (hnames : ∀ e name, (node e).names.lookup name = s.bound e name)
  | decided {held : List EndpointId} (hbefore : c.phase.commits = none)
      (hphase : phase.commits = some (held, held))
      (hdecides : c.decides phase = true)
      (hnames : ∀ e name, (node e).names.lookup name = s.bound e name)
  | committed {attempts : Nat} {held rest : List EndpointId} {u : EndpointId}
      (hbefore : c.phase = .committing attempts held u rest)
      (hphase : phase = .commitAll attempts held rest)
      (hdecides : c.decides phase = false)
      (hnames : ∀ e name, (node e).names.lookup name =
        if e = u ∧ name = c.name then some c.pid else s.bound e name)

theorem Call.Next.progress {nodes : EndpointId → List EndpointId}
    {s : GlobalClaims} {c : Call} {phase : CallPhase}
    {node : EndpointId → GlobalNames} (h : c.Next nodes s phase node) :
    c.Progress s phase node := by
  have hsame : (∀ attempts held u rest,
      c.phase ≠ .committing attempts held u rest) →
        ∀ e name, (node e).names.lookup name = s.bound e name :=
    fun hnot => h.names.resolve_right fun ⟨attempts, held, u, rest, heq, _⟩ =>
      hnot attempts held u rest heq
  cases h with
  | @sorted attempts hphase =>
    have hhome : c.home ∈ claimMembers c.home (nodes c.home) :=
      mem_claimMembers.2 (Or.inr rfl)
    obtain ⟨node, rest, heq⟩ :=
      List.exists_cons_of_ne_nil (List.ne_nil_of_mem hhome)
    rw [heq]
    exact .quiet (by simp [hphase, CallPhase.commits]) rfl
      (by simp [Call.decides, hphase]) (fun h => nomatch h)
      (hsame (by simp [hphase]))
  | looked hphase =>
    exact .quiet (by simp [hphase, CallPhase.commits]) rfl
      (by simp [Call.decides, hphase]) (fun h => nomatch h)
      (hsame (by simp [hphase]))
  | @locked attempts held rest u g hphase htake =>
    have hbefore : c.phase.commits = none := by simp [hphase, CallPhase.commits]
    cases rest with
    | cons node rest =>
      exact .quiet hbefore rfl
        (by simp [Call.decides, hphase, CallPhase.lockAll]) (fun h => nomatch h)
        (hsame (by simp [hphase]))
    | nil =>
      have hne : held ++ [u] ≠ [] := by simp
      obtain ⟨node, rest, hheld⟩ := List.exists_cons_of_ne_nil hne
      have hlast : CallPhase.lockAll attempts (held ++ [u]) [] =
          .committing attempts (node :: rest) node rest := by
        rw [hheld]
        rfl
      rw [hlast]
      exact .decided hbefore rfl (by simp [Call.decides, hphase])
        (hsame (by simp [hphase]))
  | @committed attempts held rest u hphase =>
    exact .committed hphase rfl (by simp [Call.decides, hphase]) fun e name =>
      s.lookup_commit u e name c.name c.pid
  | rested _ hidle hwon hnot =>
    refine .quiet ?_ (CallPhase.commits_of_idle hidle) ?_ hwon (hsame hnot)
    · cases hphase : c.phase with
      | committing attempts held u rest => exact absurd hphase (hnot _ _ _ _)
      | _ => rfl
    · unfold Call.decides
      cases phase with
      | committing attempts held u rest => cases hidle
      | _ => split <;> first | rfl | contradiction

end Plasmoid
