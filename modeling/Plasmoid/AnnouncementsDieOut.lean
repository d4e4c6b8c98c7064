import Mathlib.Data.Finset.Prod
import Plasmoid.Mesh

/-!
# Do announcements die out?

A node answers an announcement if its roster has a member that the sender did
not name.  The answer leaves out members without a known address, and the
sender refuses those it has quarantined.  So an answer may teach the sender
nothing, and two nodes that both have such a member answer each other for ever
(`announcements_go_on`).

`Unproductive` is such an answer.  It is the only thing that keeps
announcements going: every infinite run makes infinitely many of them
(`announcements_die_out`).  The rank is the number of pairs of nodes of which
the first has yet to learn the second.  While it stands still, an announcement
that would teach something cannot have arrived, and whatever else arrives
weighs more than what it causes.
-/

namespace Plasmoid

open Machine

/-! ## What is named -/

namespace MeshNodes

/-- The nodes know of none but those in `N`. -/
structure Within (N : Finset EndpointId) (s : MeshNodes) : Prop where
  members : ∀ e ∈ N, ∀ x ∈ (s e).cluster.members, x ∈ N
  known : ∀ e ∈ N, ∀ x, (s e).Knows x → x ∈ N

/-- The announcement names a node that the recipient would learn. -/
def teaches (s : MeshNodes) (now : Nat) (node : EndpointId)
    (nodes : List EndpointAddr) : Bool :=
  nodes.any fun a => a.id ≠ node ∧ a.id ∉ (s node).cluster.members ∧
    (s node).cluster.isQuarantined now a.id = false

end MeshNodes

namespace MeshJob

/-- The job names none but nodes of `N`. -/
def Within (N : Finset EndpointId) : MeshJob → Prop
  | message node nodes => node ∈ N ∧ ∀ a ∈ nodes, a.id ∈ N
  | accept node remote => node ∈ N ∧ remote ∈ N
  | greet node target => node ∈ N ∧ target ∈ N
  | introduce node learned announced =>
    node ∈ N ∧ (∀ x ∈ learned, x ∈ N) ∧ ∀ x ∈ announced, x ∈ N
  | answer node announced => node ∈ N ∧ ∀ x ∈ announced, x ∈ N

end MeshJob

namespace MeshNodes

variable {N : Finset EndpointId} {s : MeshNodes} {price now : Nat}

/-- A change of one node that adds none but nodes of `N`. -/
theorem Within.update (h : s.Within N) {node : EndpointId} {n : MeshNode node}
    (hmembers : ∀ x ∈ n.cluster.members, x ∈ (s node).cluster.members ∨ x ∈ N)
    (hknown : ∀ x, n.Knows x → (s node).Knows x ∨ x ∈ N) :
    Within N (Function.update s node n) := by
  refine ⟨fun e he x hx => ?_, fun e he x hx => ?_⟩
  · by_cases heq : e = node
    · subst heq
      rw [Function.update_self] at hx
      exact (hmembers x hx).elim (h.members e he x) id
    · rw [Function.update_of_ne heq] at hx
      exact h.members e he x hx
  · by_cases heq : e = node
    · subst heq
      rw [Function.update_self] at hx
      exact (hknown x hx).elim (h.known e he x) id
    · rw [Function.update_of_ne heq] at hx
      exact h.known e he x hx

theorem Within.announcement (h : s.Within N) {node target : EndpointId}
    (hnode : node ∈ N) : ∀ a ∈ (s node).announcement target, a.id ∈ N := by
  intro a ha
  rcases MeshNode.mem_announcement.1 ha with rfl | ⟨-, hmem, -⟩
  · exact hnode
  · exact h.members node hnode a.id hmem

/-- The announcements of a node of `N` stay within `N`. -/
theorem Within.announceTo (h : s.Within N) {node : EndpointId}
    (hnode : node ∈ N) {targets : List EndpointId}
    (htargets : ∀ x ∈ targets, x ∈ N) :
    Within N (Function.update s node ((s node).announceTo targets).1) ∧
      ∀ j ∈ ((s node).announceTo targets).2, j.Within N := by
  obtain ⟨hsame, -, honly⟩ := (s node).announceTo_spec targets
  refine ⟨h.update (fun x hx => Or.inl ?_) (fun x hx => Or.inl ?_),
    fun j hj => ?_⟩
  · rwa [hsame.cluster] at hx
  · rwa [AddressBook.Knows, hsame.known] at hx
  · obtain ⟨t, ht, -, rfl | rfl⟩ := honly j hj
    · exact ⟨htargets t ht, h.announcement hnode⟩
    · exact ⟨htargets t ht, hnode⟩

theorem within_dial {node : EndpointId} (hnode : node ∈ N)
    {nodes : List EndpointId} (hnodes : ∀ x ∈ nodes, x ∈ N) :
    ∀ j ∈ MeshNode.dial node nodes, j.Within N := by
  intro j hj
  obtain ⟨x, hx, -, rfl⟩ := MeshNode.mem_dial.1 hj
  exact ⟨hnodes x hx, hnode⟩

/-- A job within `N` leads to nothing outside. -/
theorem Within.handle (h : s.Within N) {j : MeshJob} (hj : j.Within N)
    (now : Nat) : Within N (s.handle now j).1 ∧
      ∀ j' ∈ (s.handle now j).2, j'.Within N := by
  cases j with
  | message node nodes =>
    obtain ⟨hnode, hnodes⟩ := hj
    obtain ⟨hcluster, -, hknows⟩ := MeshNode.foldl_remember nodes (s node)
    have hids : ∀ x ∈ nodes.map (·.id), x ∈ N := by
      intro x hx
      obtain ⟨a, ha, rfl⟩ := List.mem_map.1 hx
      exact hnodes a ha
    have hlearn := (nodes.foldl MeshNode.remember (s node)).cluster.learn_spec
      now (nodes.map (·.id))
    rw [hcluster] at hlearn
    refine ⟨h.update (fun x hx => ?_) (fun x hx => ?_), fun j' hj' => ?_⟩
    · refine ((hlearn.members x).1 ?_).imp_right fun hfresh =>
        hids x ((hlearn.fresh x).1 hfresh).1
      rwa [hcluster] at hx
    · rcases (hknows x).1 hx with hx | ⟨a, ha, rfl, -⟩
      · exact Or.inl hx
      · exact Or.inr (hnodes a ha)
    · simp only [MeshNodes.handle, hcluster] at hj'
      split at hj'
      · cases List.mem_singleton.1 hj'
        exact ⟨hnode, hids⟩
      · cases List.mem_singleton.1 hj'
        exact ⟨hnode, fun x hx => hids x ((hlearn.fresh x).1 hx).1, hids⟩
  | accept node remote =>
    obtain ⟨hnode, hremote⟩ := hj
    have hone : ∀ x ∈ [remote], x ∈ N := by
      intro x hx
      rw [List.mem_singleton.1 hx]
      exact hremote
    have hlearn := (s node).cluster.learn_spec now [remote]
    refine ⟨h.update (fun x hx => ?_) (fun x hx => Or.inl hx), fun j' hj' => ?_⟩
    · exact ((hlearn.members x).1 hx).imp_right fun hfresh =>
        hone x ((hlearn.fresh x).1 hfresh).1
    · simp only [MeshNodes.handle] at hj'
      split at hj'
      · cases hj'
      · rcases List.mem_cons.1 hj' with rfl | hj'
        · exact ⟨hnode, hremote⟩
        · exact within_dial hnode hone j' hj'
  | greet node target =>
    have hone : ∀ x ∈ [target], x ∈ N := by
      intro x hx
      rw [List.mem_singleton.1 hx]
      exact hj.2
    exact h.announceTo hj.1 hone
  | introduce node learned announced =>
    obtain ⟨hnode, hlearned, hannounced⟩ := hj
    obtain ⟨henv, hjobs⟩ := h.announceTo hnode hlearned
    refine ⟨henv, fun j' hj' => ?_⟩
    rcases List.mem_append.1 hj' with hj' | hj'
    · rcases List.mem_append.1 hj' with hj' | hj'
      · exact hjobs j' hj'
      · exact within_dial hnode hlearned j' hj'
    · cases List.mem_singleton.1 hj'
      exact ⟨hnode, hannounced⟩
  | answer node announced =>
    refine ⟨h, fun j' hj' => ?_⟩
    simp only [MeshNodes.handle] at hj'
    split at hj'
    · rename_i sender hsender
      split at hj'
      · cases List.mem_singleton.1 hj'
        exact ⟨hj.1, hj.2 sender (List.mem_of_head? hsender)⟩
      · cases hj'
    · cases hj'

/-! ## The measure -/

/-- How many pairs of nodes there are of which the first has yet to learn the
second. -/
def unlearned (N : Finset EndpointId) (s : MeshNodes) : Nat :=
  ((N ×ˢ N).filter fun p => p.2 ∉ (s p.1).cluster.members).card

/-- What a job may still cause while nobody learns anything, if an announcement
that teaches nothing has the given price. -/
def weight (price now : Nat) (s : MeshNodes) : MeshJob → Nat
  | .message node nodes => if s.teaches now node nodes then 0 else price
  | .accept _ _ => 1
  | .greet node target =>
    if target = node then 1
    else if s.teaches now target ((s node).announcement target) then 2
    else price + 2
  | .introduce _ learned _ => learned.length * (price + 2) + 4
  | .answer _ _ => 3

/-- The rosters are the same, and no address is forgotten. -/
structure SameRosters (now : Nat) (s s' : MeshNodes) : Prop where
  members : ∀ e x, x ∈ (s' e).cluster.members ↔ x ∈ (s e).cluster.members
  barred : ∀ e x, (s' e).cluster.isQuarantined now x =
    (s e).cluster.isQuarantined now x
  knows : ∀ e x, (s e).Knows x → (s' e).Knows x

theorem SameRosters.refl (now : Nat) (s : MeshNodes) : SameRosters now s s :=
  ⟨fun _ _ => Iff.rfl, fun _ _ => rfl, fun _ _ h => h⟩

/-- A change of one node that changes no roster. -/
theorem sameRosters_update {node : EndpointId} {n : MeshNode node}
    (hmembers : ∀ x, x ∈ n.cluster.members ↔ x ∈ (s node).cluster.members)
    (hbarred : ∀ x, n.cluster.isQuarantined now x =
      (s node).cluster.isQuarantined now x)
    (hknows : ∀ x, (s node).Knows x → n.Knows x) :
    SameRosters now s (Function.update s node n) := by
  refine ⟨fun e x => ?_, fun e x => ?_, fun e x hx => ?_⟩ <;>
    by_cases heq : e = node
  · subst heq
    rw [Function.update_self]
    exact hmembers x
  · rw [Function.update_of_ne heq]
  · subst heq
    rw [Function.update_self]
    exact hbarred x
  · rw [Function.update_of_ne heq]
  · subst heq
    rw [Function.update_self]
    exact hknows x hx
  · rwa [Function.update_of_ne heq]

theorem SameRosters.unlearned_eq {s' : MeshNodes} (h : SameRosters now s s')
    (N : Finset EndpointId) : s'.unlearned N = s.unlearned N := by
  unfold unlearned
  congr 1
  refine Finset.filter_congr fun p _ => ?_
  rw [h.members]

/-- Whoever is named stays named. -/
theorem SameRosters.named {s' : MeshNodes} (h : SameRosters now s s')
    {node target : EndpointId} {a : EndpointAddr}
    (ha : a ∈ (s node).announcement target) :
    ∃ a' ∈ (s' node).announcement target, a'.id = a.id := by
  rcases MeshNode.mem_announcement.1 ha with rfl | ⟨hknown, hmem, hne⟩
  · exact ⟨(s' node).ourAddr, List.mem_cons_self .., rfl⟩
  · exact MeshNode.named_in_announcement ((h.members node a.id).2 hmem)
      (h.knows node a.id (Table.lookup_some_mem hknown)) hne

theorem SameRosters.teaches {s' : MeshNodes} (h : SameRosters now s s')
    {node : EndpointId} {nodes nodes' : List EndpointAddr}
    (hnamed : ∀ a ∈ nodes, ∃ a' ∈ nodes', a'.id = a.id)
    (ht : s.teaches now node nodes = true) :
    s'.teaches now node nodes' = true := by
  obtain ⟨a, ha, hteach⟩ := List.any_eq_true.1 ht
  obtain ⟨a', ha', hid⟩ := hnamed a ha
  refine List.any_eq_true.2 ⟨a', ha', ?_⟩
  rw [decide_eq_true_eq] at hteach ⊢
  rw [hid, h.members, h.barred]
  exact hteach

theorem SameRosters.weight_le {s' : MeshNodes} (h : SameRosters now s s')
    (price : Nat) (j : MeshJob) : s'.weight price now j ≤ s.weight price now j := by
  cases j with
  | message node nodes =>
    show (if s'.teaches now node nodes = true then 0 else price) ≤
      if s.teaches now node nodes = true then 0 else price
    by_cases ht : s.teaches now node nodes = true
    · rw [if_pos ht, if_pos (h.teaches (fun a ha => ⟨a, ha, rfl⟩) ht)]
    · rw [if_neg ht]
      split <;> omega
  | accept node remote => exact le_refl _
  | greet node target =>
    show (if target = node then 1
      else if s'.teaches now target ((s' node).announcement target) = true
      then 2 else price + 2) ≤ if target = node then 1
      else if s.teaches now target ((s node).announcement target) = true
      then 2 else price + 2
    by_cases htarget : target = node
    · rw [if_pos htarget, if_pos htarget]
    · rw [if_neg htarget, if_neg htarget]
      by_cases ht : s.teaches now target ((s node).announcement target) = true
      · rw [if_pos ht, if_pos (h.teaches (fun a ha => h.named ha) ht)]
      · rw [if_neg ht]
        split <;> omega
  | introduce node learned announced => exact le_refl _
  | answer node announced => exact le_refl _

/-- Whoever learns lowers the rank. -/
theorem unlearned_lt {N : Finset EndpointId} {node x : EndpointId}
    {n : MeshNode node} (hnode : node ∈ N) (hx : x ∈ N)
    (hkept : ∀ y ∈ (s node).cluster.members, y ∈ n.cluster.members)
    (hnew : x ∈ n.cluster.members) (hold : x ∉ (s node).cluster.members) :
    unlearned N (Function.update s node n) < s.unlearned N := by
  refine Finset.card_lt_card (Finset.ssubset_iff_subset_ne.2 ⟨?_, ?_⟩)
  · intro p hp
    rw [Finset.mem_filter] at hp ⊢
    refine ⟨hp.1, fun hmem => hp.2 ?_⟩
    by_cases heq : p.1 = node
    · obtain ⟨e, y⟩ := p
      subst heq
      rw [Function.update_self]
      exact hkept y hmem
    · rw [Function.update_of_ne heq]
      exact hmem
  · intro heq
    have hpair : (node, x) ∈ (N ×ˢ N).filter fun p =>
        p.2 ∉ (s p.1).cluster.members :=
      Finset.mem_filter.2 ⟨Finset.mem_product.2 ⟨hnode, hx⟩, hold⟩
    rw [← heq, Finset.mem_filter] at hpair
    refine hpair.2 ?_
    show x ∈ (Function.update s node n node).cluster.members
    rw [Function.update_self]
    exact hnew

/-- A node that learns nobody keeps its roster. -/
theorem sameRosters_learn {window : Nat → Prop} {t : Nat} {node : EndpointId}
    {n : MeshNode node} {c : Cluster node} {nodes : List EndpointId}
    (hsteady : (s node).cluster.Steady window) (hnow : window now)
    (ht : window t) (hlearn : Cluster.Learns t nodes (s node).cluster c [])
    (hcluster : n.cluster = c) (hknows : ∀ x, (s node).Knows x → n.Knows x) :
    SameRosters now s (Function.update s node n) := by
  subst hcluster
  refine sameRosters_update (fun x => ?_) (fun x => ?_) hknows
  · rw [hlearn.members]
    simp
  · rw [(hsteady.expires hlearn.expires).isQuarantined_eq hnow ht,
      hlearn.expires.barred, hsteady.isQuarantined_eq ht hnow]

theorem sameRosters_announceTo (now : Nat) (s : MeshNodes) (node : EndpointId)
    (targets : List EndpointId) : SameRosters now s
      (Function.update s node ((s node).announceTo targets).1) := by
  obtain ⟨hsame, -⟩ := (s node).announceTo_spec targets
  refine sameRosters_update (fun x => ?_) (fun x => ?_) (fun x hx => ?_)
  · rw [hsame.cluster]
  · rw [hsame.cluster]
  · rw [AddressBook.Knows, hsame.known]
    exact hx

end MeshNodes

/-- What the announcements to some nodes weigh. -/
theorem MeshNode.sum_announceTo {me : EndpointId} (w : MeshJob → Nat)
    (bound : Nat) (n : MeshNode me) (targets : List EndpointId)
    (hw : ∀ t ∈ targets, t ≠ me →
      w (.message t (n.announcement t)) + w (.accept t me) ≤ bound) :
    ((n.announceTo targets).2.map w).sum ≤ targets.length * bound := by
  induction targets generalizing n with
  | nil => simp [announceTo]
  | cons target rest ih =>
    obtain ⟨hsame, hsent⟩ := n.send_spec target (n.announcement target)
    have hrest := ih (n.send target (n.announcement target)).1 fun t ht hne => by
      rw [hsame.announcement]
      exact hw t (List.mem_cons_of_mem _ ht) hne
    have hfirst :
        ((n.send target (n.announcement target)).2.map w).sum ≤ bound := by
      rcases hsent with ⟨-, heq⟩ | ⟨hne, heq | heq⟩
      · rw [heq]
        exact Nat.zero_le _
      · have := hw target (List.mem_cons_self ..) hne
        simp only [heq, List.map_cons, List.map_nil, List.sum_cons,
          List.sum_nil]
        omega
      · have := hw target (List.mem_cons_self ..) hne
        simp only [heq, List.map_cons, List.map_nil, List.sum_cons,
          List.sum_nil]
        omega
    rw [announceTo_cons, List.map_append, List.sum_append, List.length_cons,
      Nat.add_mul]
    omega

theorem MeshNode.sum_dial (w : MeshJob → Nat) (me : EndpointId)
    (nodes : List EndpointId) (hw : ∀ x, w (.accept x me) ≤ 1) :
    ((dial me nodes).map w).sum ≤ nodes.length := by
  have hlength : (dial me nodes).length ≤ nodes.length := by
    rw [dial, List.length_map]
    exact List.length_filter_le ..
  refine le_trans (List.sum_le_card_nsmul _ 1 fun y hy => ?_) ?_
  · obtain ⟨j, hj, rfl⟩ := List.mem_map.1 hy
    obtain ⟨x, -, -, rfl⟩ := mem_dial.1 hj
    exact hw x
  · simpa using hlength

namespace MeshNodes

variable {N : Finset EndpointId} {s : MeshNodes} {window : Nat → Prop}
variable {price now t : Nat}

/-- The node is about to answer the sender of an announcement, and nobody it
can name is new to the sender. -/
def Unproductive (s : MeshNodes) (now : Nat) : MeshJob → Prop
  | .answer node announced => ∃ sender, announced.head? = some sender ∧
      sender ≠ node ∧ (s node).missing sender announced = true ∧
      s.teaches now sender ((s node).announcement sender) = false
  | _ => False

/-- Every quarantine is settled for the whole window. -/
def Steady (s : MeshNodes) (window : Nat → Prop) : Prop :=
  ∀ e, (s e).cluster.Steady window

theorem Steady.teaches_eq (h : s.Steady window) (hnow : window now)
    (ht : window t) (node : EndpointId) (nodes : List EndpointAddr) :
    s.teaches now node nodes = s.teaches t node nodes := by
  unfold teaches
  congr 1
  funext a
  rw [(h node).isQuarantined_eq hnow ht]

theorem Steady.update (h : s.Steady window) {node : EndpointId}
    {n : MeshNode node} (hn : n.cluster.Steady window) :
    Steady (Function.update s node n) window := by
  intro e
  by_cases heq : e = node
  · subst heq
    rw [Function.update_self]
    exact hn
  · rw [Function.update_of_ne heq]
    exact h e

theorem Steady.announceTo (h : s.Steady window) (node : EndpointId)
    (targets : List EndpointId) :
    Steady (Function.update s node ((s node).announceTo targets).1) window := by
  refine h.update ?_
  rw [((s node).announceTo_spec targets).1.cluster]
  exact h node

theorem Steady.handle (h : s.Steady window) (now : Nat) (j : MeshJob) :
    Steady (s.handle now j).1 window := by
  cases j with
  | message node nodes =>
    obtain ⟨hcluster, -⟩ := MeshNode.foldl_remember nodes (s node)
    have hlearn := (nodes.foldl MeshNode.remember (s node)).cluster.learn_spec
      now (nodes.map (·.id))
    refine h.update (Cluster.Steady.expires ?_ hlearn.expires)
    rw [hcluster]
    exact h node
  | accept node remote =>
    exact h.update
      ((h node).expires ((s node).cluster.learn_spec now [remote]).expires)
  | greet node target => exact h.announceTo node [target]
  | introduce node learned announced => exact h.announceTo node learned
  | answer node announced => exact h

/-- What a job leads to weighs less than the job, or somebody learned. -/
def Lowers (N : Finset EndpointId) (price now : Nat) (s : MeshNodes) (j : MeshJob)
    (r : MeshNodes × List MeshJob) : Prop :=
  r.1.unlearned N < s.unlearned N ∨ r.1.unlearned N = s.unlearned N ∧
    (∀ x, r.1.weight price now x ≤ s.weight price now x) ∧
    (r.2.map (r.1.weight price now)).sum < s.weight price now j

theorem SameRosters.lowers {s' : MeshNodes} (h : SameRosters now s s')
    (N : Finset EndpointId) {j : MeshJob} {jobs : List MeshJob}
    (hjobs : (jobs.map (s'.weight price now)).sum < s.weight price now j) :
    Lowers N price now s j (s', jobs) :=
  Or.inr ⟨h.unlearned_eq N, h.weight_le price, hjobs⟩

/-- An announcement teaches its recipient somebody, or is heavier than the
answer. -/
theorem lowers_message {node : EndpointId} {nodes : List EndpointAddr}
    (hprice : 3 < price) (hsteady : s.Steady window) (hnow : window now)
    (ht : window t) (hwithin : (MeshJob.message node nodes).Within N) :
    Lowers N price now s (.message node nodes)
      (s.handle t (.message node nodes)) := by
  obtain ⟨hnode, hnodes⟩ := hwithin
  obtain ⟨hcluster, -, hknows⟩ := MeshNode.foldl_remember nodes (s node)
  have hlearn := (s node).cluster.learn_spec t (nodes.map (·.id))
  simp only [MeshNodes.handle, hcluster]
  by_cases hfresh : ((s node).cluster.learn t (nodes.map (·.id))).2 = []
  · rw [hfresh] at hlearn
    rw [if_pos hfresh]
    have hsame := sameRosters_learn (n := { nodes.foldl MeshNode.remember (s node)
      with cluster := ((s node).cluster.learn t (nodes.map (·.id))).1 })
      (hsteady node) hnow ht hlearn rfl fun x hx => (hknows x).2 (Or.inl hx)
    refine hsame.lowers N ?_
    have hteaches : s.teaches now node nodes = false := by
      rw [Bool.eq_false_iff, hsteady.teaches_eq hnow ht]
      intro hteach
      obtain ⟨a, ha, hnew⟩ := List.any_eq_true.1 hteach
      obtain ⟨hne, hnot, hfree⟩ := of_decide_eq_true hnew
      exact List.not_mem_nil ((hlearn.fresh a.id).2
        ⟨List.mem_map_of_mem ha, hne, hfree, hnot⟩)
    simpa [weight, hteaches] using hprice
  · rw [if_neg hfresh]
    obtain ⟨x, hx⟩ := List.exists_mem_of_ne_nil _ hfresh
    obtain ⟨hid, -, -, hnot⟩ := (hlearn.fresh x).1 hx
    obtain ⟨a, ha, rfl⟩ := List.mem_map.1 hid
    exact Or.inl (unlearned_lt hnode (hnodes a ha)
      (fun y hy => (hlearn.members y).2 (Or.inl hy))
      ((hlearn.members a.id).2 (Or.inr hx)) hnot)

/-- A node that dials is learned, or nothing happens. -/
theorem lowers_accept {node remote : EndpointId}
    (hsteady : s.Steady window) (hnow : window now) (ht : window t)
    (hwithin : (MeshJob.accept node remote).Within N) :
    Lowers N price now s (.accept node remote) (s.handle t (.accept node remote)) := by
  obtain ⟨hnode, hremote⟩ := hwithin
  have hlearn := (s node).cluster.learn_spec t [remote]
  simp only [MeshNodes.handle]
  by_cases hfresh : ((s node).cluster.learn t [remote]).2 = []
  · rw [hfresh] at hlearn
    rw [if_pos hfresh]
    have hsame := sameRosters_learn (n := { s node
      with cluster := ((s node).cluster.learn t [remote]).1 })
      (hsteady node) hnow ht hlearn rfl fun x hx => hx
    exact hsame.lowers N (by simp [weight])
  · rw [if_neg hfresh]
    obtain ⟨x, hx⟩ := List.exists_mem_of_ne_nil _ hfresh
    obtain ⟨hid, -, -, hnot⟩ := (hlearn.fresh x).1 hx
    rw [List.mem_singleton] at hid
    subst hid
    exact Or.inl (unlearned_lt hnode hremote
      (fun y hy => (hlearn.members y).2 (Or.inl hy))
      ((hlearn.members x).2 (Or.inr hx)) hnot)

theorem lowers_greet (N : Finset EndpointId) (s : MeshNodes) (price now t : Nat)
    (node target : EndpointId) : Lowers N price now s (.greet node target)
      (s.handle t (.greet node target)) := by
  have hsame := sameRosters_announceTo now s node [target]
  simp only [MeshNodes.handle]
  refine hsame.lowers N ?_
  have hsum := MeshNode.sum_announceTo
    (weight price now (Function.update s node ((s node).announceTo [target]).1))
    (s.weight price now (.greet node target) - 1) (s node) [target] ?_
  · have hpos : 0 < s.weight price now (.greet node target) := by
      unfold weight
      grind
    rw [List.length_singleton, Nat.one_mul] at hsum
    omega
  · intro x hx hne
    rw [List.mem_singleton] at hx
    subst hx
    have hmessage := hsame.weight_le price (.message x ((s node).announcement x))
    simp only [weight] at hmessage ⊢
    grind

theorem lowers_introduce (N : Finset EndpointId) (s : MeshNodes) (price now t : Nat)
    (node : EndpointId) (learned announced : List EndpointId) :
    Lowers N price now s (.introduce node learned announced)
      (s.handle t (.introduce node learned announced)) := by
  have hsame := sameRosters_announceTo now s node learned
  simp only [MeshNodes.handle]
  refine hsame.lowers N ?_
  have hsum := MeshNode.sum_announceTo
    (weight price now (Function.update s node ((s node).announceTo learned).1))
    (price + 1) (s node) learned ?_
  · have hdial := MeshNode.sum_dial
      (weight price now (Function.update s node ((s node).announceTo learned).1))
      node learned fun x => le_refl 1
    simp only [List.map_append, List.sum_append, List.map_cons, List.map_nil,
      List.sum_cons, List.sum_nil]
    simp only [weight]
    rw [show price + 2 = price + 1 + 1 from rfl, Nat.mul_succ]
    omega
  · intro x _ _
    simp only [weight]
    grind

/-- An answer names somebody who is new to the sender, unless it is
unproductive. -/
theorem lowers_answer {node : EndpointId} {announced : List EndpointId}
    (N : Finset EndpointId) (t : Nat)
    (hcheap : price = 0 ∨ ¬ s.Unproductive now (.answer node announced)) :
    Lowers N price now s (.answer node announced)
      (s.handle t (.answer node announced)) := by
  refine (SameRosters.refl now s).lowers N ?_
  cases hhead : announced.head? with
  | none => simp [weight]
  | some sender =>
    by_cases hmissing : (s node).missing sender announced = true
    · have hgreet : s.weight price now (.greet node sender) < 3 := by
        rcases hcheap with rfl | hproductive
        · simp only [weight]
          grind
        · by_cases hself : sender = node
          · simp [weight, hself]
          · have hteaches :
                s.teaches now sender ((s node).announcement sender) = true := by
              rw [← Bool.not_eq_false]
              exact fun hno => hproductive
                ⟨sender, hhead, hself, hmissing, hno⟩
            simp [weight, hself, hteaches]
      simp only [if_pos hmissing, List.map_cons, List.map_nil, List.sum_cons,
        List.sum_nil]
      exact hgreet
    · simp [hmissing, weight]

end MeshNodes

/-! ## Runs -/

namespace Mesh

variable {N : Finset EndpointId} {window : Nat → Prop} [DecidablePred window]

/-- Do the `i`-th job at an instant of the window. -/
def step (window : Nat → Prop) [DecidablePred window] (s : Mesh)
    (a : Nat × Nat) : Option Mesh :=
  if window a.2 then s.work MeshNodes.handle a.1 a.2 else none

/-- All the nodes are in `N`, and no quarantine expires. -/
structure Settled (N : Finset EndpointId) (window : Nat → Prop) (s : Mesh) :
    Prop where
  nodes : s.env.Within N
  jobs : ∀ j ∈ s.jobs, j.Within N
  steady : s.env.Steady window

theorem step_cases {s t : Mesh} {a : Nat × Nat} (h : step window s a = some t) :
    window a.2 ∧ ∃ j, s.jobs[a.1]? = some j ∧
      t = ⟨(s.env.handle a.2 j).1,
        s.jobs.eraseIdx a.1 ++ (s.env.handle a.2 j).2⟩ := by
  unfold step at h
  split at h
  · exact ⟨‹_›, Pool.work_cases h⟩
  · cases h

theorem settled_step {s t : Mesh} {a : Nat × Nat} (h : s.Settled N window)
    (hstep : step window s a = some t) : t.Settled N window := by
  obtain ⟨-, j, hj, rfl⟩ := step_cases hstep
  have hwithin := h.jobs j (List.mem_of_getElem? hj)
  obtain ⟨henv, hnew⟩ := h.nodes.handle hwithin a.2
  refine ⟨henv, fun x hx => ?_, h.steady.handle a.2 j⟩
  exact (Pool.mem_before_or_new hx).elim (h.jobs x) (hnew x)

/-- The step delivers an announcement. -/
def Delivers (s : Mesh) (a : Nat × Nat) : Prop :=
  ∃ node nodes, s.jobs[a.1]? = some (.message node nodes)

/-- The step is an answer that can teach its recipient nobody. -/
def RepliesInVain (s : Mesh) (a : Nat × Nat) : Prop :=
  ∃ j, s.jobs[a.1]? = some j ∧ s.env.Unproductive a.2 j

/-- The measure drops, unless an announcement teaches nothing, or an answer
does at a price. -/
theorem Settled.measure_lt {s t : Mesh} {a : Nat × Nat} {now price : Nat}
    (h : Settled N window s) (hnow : window now)
    (hmessage : ∀ node nodes, s.jobs[a.1]? = some (.message node nodes) →
      3 < price)
    (hanswer : ∀ node announced,
      s.jobs[a.1]? = some (.answer node announced) →
        price = 0 ∨ ¬ s.env.Unproductive now (.answer node announced))
    (hstep : step window s a = some t) :
    t.measure (MeshNodes.unlearned N) (MeshNodes.weight price now) <
      s.measure (MeshNodes.unlearned N) (MeshNodes.weight price now) := by
  obtain ⟨ht, j, hj, rfl⟩ := step_cases hstep
  have hwithin := h.jobs j (List.mem_of_getElem? hj)
  refine Pool.measure_lt hj ?_
  cases j with
  | message node nodes =>
    exact MeshNodes.lowers_message (hmessage node nodes hj) h.steady hnow ht
      hwithin
  | accept node remote =>
    exact MeshNodes.lowers_accept h.steady hnow ht hwithin
  | greet node target =>
    exact MeshNodes.lowers_greet N s.env price now a.2 node target
  | introduce node learned announced =>
    exact MeshNodes.lowers_introduce N s.env price now a.2 node learned
      announced
  | answer node announced =>
    exact MeshNodes.lowers_answer N a.2 (hanswer node announced hj)

/-- No run goes on without deliveries. -/
theorem delivers_infinitely_often (r : InfiniteRun (step window))
    (hsettled : Settled N window (r.state 0)) (k : Nat) :
    ∃ i, k ≤ i ∧ Delivers (r.state i) (r.act i) := by
  have hnow := (step_cases (r.next 0)).1
  have hlower : ∀ {s t : Mesh} {a : Nat × Nat}, Settled N window s →
      ¬ Delivers s a → step window s a = some t →
      t.measure (MeshNodes.unlearned N) (MeshNodes.weight 0 (r.act 0).2) <
        s.measure (MeshNodes.unlearned N)
          (MeshNodes.weight 0 (r.act 0).2) := by
    intro s t a hs hno hstep
    exact hs.measure_lt hnow
      (fun node nodes hj => absurd ⟨node, nodes, hj⟩ hno)
      (fun _ _ _ => Or.inl rfl) hstep
  obtain ⟨i, hi, hbad⟩ := r.exists_bad_step _ settled_step hlower hsettled k
  exact ⟨i, hi, not_not.1 hbad⟩

/-- Announcements die out, unless nodes answer in vain for ever. -/
theorem announcements_die_out (N : Finset EndpointId) (window : Nat → Prop)
    [DecidablePred window] (r : InfiniteRun (step window))
    (hsettled : Settled N window (r.state 0)) (k : Nat) :
    ∃ i, k ≤ i ∧ RepliesInVain (r.state i) (r.act i) := by
  have hnow := (step_cases (r.next 0)).1
  have hlower : ∀ {s t : Mesh} {a : Nat × Nat}, Settled N window s →
      ¬ RepliesInVain s a → step window s a = some t →
      t.measure (MeshNodes.unlearned N) (MeshNodes.weight 4 (r.act 0).2) <
        s.measure (MeshNodes.unlearned N)
          (MeshNodes.weight 4 (r.act 0).2) := by
    intro s t a hs hno hstep
    have ht := (step_cases hstep).1
    refine hs.measure_lt hnow (fun _ _ _ => by decide)
      (fun node announced hj => Or.inr fun hvain => ?_) hstep
    obtain ⟨sender, hhead, hne, hmissing, hteaches⟩ := hvain
    refine hno ⟨_, hj, sender, hhead, hne, hmissing, ?_⟩
    rw [← hteaches]
    exact hs.steady.teaches_eq ht hnow sender _
  obtain ⟨i, hi, hbad⟩ := r.exists_bad_step _ settled_step hlower hsettled k
  exact ⟨i, hi, not_not.1 hbad⟩

end Mesh

/-! ## Announcements that go on -/

namespace MeshNode

variable {me peer : EndpointId}

/-- The node has members whose addresses it does not know.  It can name nobody
to its peer. -/
structure Mute (n : MeshNode me) (peer : EndpointId) : Prop where
  peer_mem : peer ∈ n.cluster.members
  stranger : ∃ x ∈ n.cluster.members, x ≠ peer
  unknown : ∀ x ∈ n.cluster.members, x ≠ peer → ¬ n.Knows x
  linked : peer ∈ n.links

theorem Mute.announcement {n : MeshNode me} (h : n.Mute peer) :
    n.announcement peer = [n.ourAddr] := by
  have hnone : n.addrsFor
      (n.cluster.members.toList.filter fun x => x ≠ peer) = [] := by
    refine List.filterMap_eq_nil_iff.2 fun x hx => ?_
    obtain ⟨hmem, hne⟩ := List.mem_filter.1 hx
    exact AList.lookup_eq_none.2 (h.unknown x hmem (by simpa using hne))
  rw [MeshNode.announcement, hnone]

theorem Mute.missing {n : MeshNode me} (h : n.Mute peer) :
    n.missing peer [peer] = true := by
  obtain ⟨x, hx, hne⟩ := h.stranger
  exact missing_iff.2 ⟨x, hx, hne, by simpa using hne⟩

/-- A mute node learns nothing from another one. -/
theorem Mute.hear {n : MeshNode me} (h : n.Mute peer) (now : Nat)
    (addrs : List TransportAddr) :
    Mute { n.remember ⟨peer, addrs⟩ with
      cluster := (n.cluster.learn now [peer]).1 } peer ∧
      (n.cluster.learn now [peer]).2 = [] := by
  have hlearn := n.cluster.learn_spec now [peer]
  have hfresh : (n.cluster.learn now [peer]).2 = [] := by
    refine List.eq_nil_iff_forall_not_mem.2 fun x hx => ?_
    obtain ⟨hx, -, -, hnot⟩ := (hlearn.fresh x).1 hx
    rw [List.mem_singleton.1 hx] at hnot
    exact hnot h.peer_mem
  have hmembers : ∀ x, x ∈ (n.cluster.learn now [peer]).1.members ↔
      x ∈ n.cluster.members := by
    intro x
    rw [hlearn.members, hfresh]
    simp
  refine ⟨⟨(hmembers peer).2 h.peer_mem, ?_, fun x hx hne hknows => ?_, ?_⟩,
    hfresh⟩
  · obtain ⟨x, hx, hne⟩ := h.stranger
    exact ⟨x, (hmembers x).2 hx, hne⟩
  · rcases knows_remember.1 hknows with hknows | ⟨rfl, -⟩
    · exact h.unknown x ((hmembers x).1 hx) hne hknows
    · exact hne rfl
  · exact h.linked

end MeshNode

namespace Mesh

/-- Two mute nodes, and one of them is about to announce, announces, or is about
to answer. -/
def Babbles (s : Mesh) : Prop :=
  ∃ a b, a ≠ b ∧ (s.env a).Mute b ∧ (s.env b).Mute a ∧
    (s.jobs = [.greet a b] ∨ s.jobs = [.message a [(s.env b).ourAddr]] ∨
      s.jobs = [.answer a [b]])

/-- Mute nodes answer each other. -/
theorem Babbles.next {s : Mesh} (h : Babbles s) :
    ∃ a t, step (fun _ => True) s a = some t ∧ Babbles t := by
  obtain ⟨a, b, hne, left, right, hjob | hjob | hjob⟩ := h
  · have hgreet : (s.env a).announceTo [b] =
        (s.env a, [.message b [(s.env a).ourAddr]]) := by
      simp [MeshNode.announceTo, MeshNode.send, left.announcement, hne.symm,
        left.linked]
    refine ⟨(0, 0), ⟨s.env, [.message b [(s.env a).ourAddr]]⟩, ?_,
      ⟨b, a, hne.symm, right, left, Or.inr (Or.inl rfl)⟩⟩
    simp [step, Pool.work, hjob, MeshNodes.handle, hgreet]
  · obtain ⟨hmute, hfresh⟩ := left.hear 0 (s.env b).addrs
    refine ⟨(0, 0), ⟨Function.update s.env a { (s.env a).remember
      (s.env b).ourAddr with cluster := ((s.env a).cluster.learn 0 [b]).1 },
      [.answer a [b]]⟩, ?_, ⟨a, b, hne, ?_, ?_, Or.inr (Or.inr rfl)⟩⟩
    · simp [step, Pool.work, hjob, MeshNodes.handle, hfresh,
        MeshNode.ourAddr]
    · show MeshNode.Mute (Function.update s.env a _ a) b
      rw [Function.update_self]
      exact hmute
    · show MeshNode.Mute (Function.update s.env a _ b) a
      rw [Function.update_of_ne hne.symm]
      exact right
  · refine ⟨(0, 0), ⟨s.env, [.greet a b]⟩, ?_,
      ⟨a, b, hne, left, right, Or.inl rfl⟩⟩
    simp [step, Pool.work, hjob, MeshNodes.handle, left.missing]

/-- Two mute nodes announce to each other for ever. -/
theorem babbles_forever {s : Mesh} (h : Babbles s) :
    ∃ r : InfiniteRun (step fun _ => True), r.state 0 = s :=
  InfiniteRun.exists_of_progress (fun _ => Babbles.next) h

/-- A node that was introduced to a peer, after a client dialled it. -/
def introduced (me peer client : EndpointId) : MeshNode me :=
  let n := (MeshNode.new me ["udp"]).remember ⟨peer, ["udp"]⟩
  { n with
    cluster := (n.cluster.learn 0 [client, peer]).1
    links := KeySet.insert peer ∅ }

theorem introduced_steady (me peer client : EndpointId)
    (window : Nat → Prop) :
    (introduced me peer client).cluster.Steady window := by
  refine Cluster.Steady.expires ?_ (Cluster.learn_spec _ 0 _).expires
  intro x deadline hx
  rw [MeshNode.cluster_remember] at hx
  cases hx

/-- Nodes 1 and 2 know each other, and each of them was dialled by a client. -/
def twoDialled : Mesh where
  env e :=
    if e = ⟨1⟩ then introduced e ⟨2⟩ ⟨3⟩
    else if e = ⟨2⟩ then introduced e ⟨1⟩ ⟨4⟩
    else .new e ["udp"]
  jobs := [.greet ⟨1⟩ ⟨2⟩]

def fourNodes : Finset EndpointId := {⟨1⟩, ⟨2⟩, ⟨3⟩, ⟨4⟩}

theorem twoDialled_settled (window : Nat → Prop) :
    Settled fourNodes window twoDialled := by
  refine ⟨⟨?_, fun e he x hx => ?_⟩, ?_, fun e => ?_⟩
  · show ∀ e ∈ _, ∀ x ∈ (twoDialled.env e).cluster.members.toList, x ∈ _
    decide
  · have hkeys : ∀ e ∈ fourNodes, ∀ x ∈ (twoDialled.env e).known.keys,
        x ∈ fourNodes := by
      decide
    exact hkeys e he x (AList.mem_keys.1 hx)
  · intro j hj
    rw [List.mem_singleton.1 hj]
    exact ⟨by decide, by decide⟩
  · show (if e = ⟨1⟩ then _ else _ : MeshNode e).cluster.Steady window
    split
    · exact introduced_steady e _ _ window
    · split
      · exact introduced_steady e _ _ window
      · intro x deadline hx
        cases hx

theorem twoDialled_babbles : Babbles twoDialled := by
  refine ⟨⟨1⟩, ⟨2⟩, by decide, ⟨by decide, ⟨⟨3⟩, by decide, by decide⟩, ?_,
    by decide⟩, ⟨by decide, ⟨⟨4⟩, by decide, by decide⟩, ?_, by decide⟩,
    Or.inl rfl⟩
  · show ∀ x ∈ (twoDialled.env ⟨1⟩).cluster.members.toList, _
    decide
  · show ∀ x ∈ (twoDialled.env ⟨2⟩).cluster.members.toList, _
    decide

/-- Nodes 1 and 2 answer each other in vain for ever. -/
theorem announcements_die_out_dialled :
    ∃ r : InfiniteRun (step fun _ => True), r.state 0 = twoDialled ∧
      ∀ k, ∃ i, k ≤ i ∧ RepliesInVain (r.state i) (r.act i) := by
  obtain ⟨r, hr⟩ := babbles_forever twoDialled_babbles
  refine ⟨r, hr, announcements_die_out fourNodes _ r ?_⟩
  rw [hr]
  exact twoDialled_settled _

/-- Without a condition on the answers, announcements need not die out. -/
theorem announcements_go_on :
    ¬ ∀ (N : Finset EndpointId) (window : Nat → Prop) [DecidablePred window]
      (s : Mesh), Settled N window s →
        ¬ ∃ r : InfiniteRun (step window), r.state 0 = s ∧
          ∀ k, ∃ i, k ≤ i ∧ Delivers (r.state i) (r.act i) := by
  intro hall
  obtain ⟨r, hr⟩ := babbles_forever twoDialled_babbles
  have hsettled : Settled fourNodes (fun _ => True) (r.state 0) := by
    rw [hr]
    exact twoDialled_settled _
  exact hall fourNodes _ twoDialled (twoDialled_settled _)
    ⟨r, hr, delivers_infinitely_often r hsettled⟩

end Mesh

end Plasmoid
