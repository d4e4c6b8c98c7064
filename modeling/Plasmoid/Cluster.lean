import Plasmoid.Lib.Table
import Plasmoid.Pid

/-!
# Who is in the cluster

`Cluster me` is the set of nodes that the node `me` is clustered with, and the
nodes it removed on purpose and refuses to learn again for a while.  A node is
never its own peer, so `me` is not a member.  Instants are in milliseconds.
-/

namespace Plasmoid

/-- `QUARANTINE`: how long a deliberately removed node stays unlearnable. -/
def quarantinePeriod : Nat := 60 * 1000

/-- The set of nodes that `me` is clustered with. -/
structure Cluster (me : EndpointId) where
  members : KeySet EndpointId
  /-- Nodes removed on purpose, and when they may be learned again. -/
  quarantined : Table EndpointId Nat
  me_not_mem : me ∉ members

namespace Cluster

variable {me : EndpointId}

def new (me : EndpointId) : Cluster me where
  members := ∅
  quarantined := ∅
  me_not_mem := KeySet.not_mem_empty me

/-- Remove a node and refuse to learn it again. -/
def quarantine (c : Cluster me) (now : Nat) (node : EndpointId) :
    Cluster me where
  members := c.members.remove node
  quarantined := c.quarantined.insert node (now + quarantinePeriod)
  me_not_mem h := c.me_not_mem (KeySet.mem_remove.1 h).2

/-- Is the node currently barred? -/
def isQuarantined (c : Cluster me) (now : Nat) (node : EndpointId) : Bool :=
  (c.quarantined.lookup node).any fun deadline => now < deadline

/-- `is_quarantined` also drops an entry that is stale. -/
def expire (c : Cluster me) (now : Nat) (node : EndpointId) : Cluster me :=
  if c.isQuarantined now node then c
  else { c with quarantined := c.quarantined.erase node }

/-- Drop a node. -/
def forget (c : Cluster me) (node : EndpointId) : Cluster me where
  members := c.members.remove node
  quarantined := c.quarantined
  me_not_mem h := c.me_not_mem (KeySet.mem_remove.1 h).2

/-- Learn about one node.  The list has those that were not known before. -/
def learnOne (now : Nat) (c : Cluster me × List EndpointId)
    (node : EndpointId) : Cluster me × List EndpointId :=
  if hme : node = me then c
  else if c.1.isQuarantined now node then c
  else if node ∈ c.1.members then (c.1.expire now node, c.2)
  else
    ({ members := c.1.members.insert node
       quarantined := (c.1.expire now node).quarantined
       me_not_mem := fun h => (KeySet.mem_insert.1 h).elim
         (fun h => hme h.symm) c.1.me_not_mem }, c.2 ++ [node])

/-- Learn about nodes, returning only those we did not already know. -/
def learn (c : Cluster me) (now : Nat) (nodes : List EndpointId) :
    Cluster me × List EndpointId :=
  nodes.foldl (learnOne now) (c, [])

/-! ## What the operations do -/

theorem isQuarantined_iff {c : Cluster me} {now : Nat} {node : EndpointId} :
    c.isQuarantined now node = true ↔
      ∃ deadline, c.quarantined.lookup node = some deadline ∧
        now < deadline := by
  unfold isQuarantined
  cases c.quarantined.lookup node <;> simp

@[simp] theorem members_expire (c : Cluster me) (now : Nat)
    (node : EndpointId) : (c.expire now node).members = c.members := by
  unfold expire
  split <;> rfl

/-- Only what is no longer barred is dropped. -/
theorem lookup_expire (c : Cluster me) (now : Nat) (node x : EndpointId) :
    (c.expire now node).quarantined.lookup x = c.quarantined.lookup x ∨
      (c.expire now node).quarantined.lookup x = none ∧
        c.isQuarantined now x = false := by
  unfold expire
  split
  · exact Or.inl rfl
  · rename_i h
    by_cases hx : x = node
    · subst hx
      exact Or.inr ⟨AList.lookup_erase _ _, by simpa using h⟩
    · exact Or.inl (AList.lookup_erase_ne hx)

/-- The quarantine of `c'` is that of `c` without some entries that were
stale. -/
structure Expires (now : Nat) (c c' : Cluster me) : Prop where
  kept : ∀ x deadline, c'.quarantined.lookup x = some deadline →
    c.quarantined.lookup x = some deadline
  barred : ∀ x, c'.isQuarantined now x = c.isQuarantined now x

theorem Expires.refl (now : Nat) (c : Cluster me) : Expires now c c :=
  ⟨fun _ _ h => h, fun _ => rfl⟩

theorem Expires.trans {now : Nat} {c₁ c₂ c₃ : Cluster me}
    (h₁ : Expires now c₁ c₂) (h₂ : Expires now c₂ c₃) : Expires now c₁ c₃ :=
  ⟨fun x d h => h₁.kept x d (h₂.kept x d h),
    fun x => (h₂.barred x).trans (h₁.barred x)⟩

theorem expires_of_lookup {now : Nat} {c c' : Cluster me}
    (h : ∀ x, c'.quarantined.lookup x = c.quarantined.lookup x ∨
      c'.quarantined.lookup x = none ∧ c.isQuarantined now x = false) :
    Expires now c c' := by
  refine ⟨fun x deadline hx => ?_, fun x => ?_⟩
  · rcases h x with heq | ⟨hnone, -⟩
    · rw [← heq]
      exact hx
    · rw [hnone] at hx
      cases hx
  · rcases h x with heq | ⟨hnone, hfree⟩
    · rw [isQuarantined, isQuarantined, heq]
    · rw [hfree, isQuarantined, hnone]
      rfl

/-- What `learn` does: it adds the nodes that are new, not barred and not
ourselves. -/
structure Learns (now : Nat) (nodes : List EndpointId) (c c' : Cluster me)
    (fresh : List EndpointId) : Prop where
  members : ∀ x, x ∈ c'.members ↔ x ∈ c.members ∨ x ∈ fresh
  fresh : ∀ x, x ∈ fresh ↔ x ∈ nodes ∧ x ≠ me ∧
    c.isQuarantined now x = false ∧ x ∉ c.members
  expires : Expires now c c'

theorem learnOne_spec (now : Nat) (c : Cluster me)
    (acc : List EndpointId) (node : EndpointId) :
    ∃ c' fresh, learnOne now (c, acc) node = (c', acc ++ fresh) ∧
      Learns now [node] c c' fresh := by
  unfold learnOne
  split
  · rename_i hme
    refine ⟨c, [], by simp, by simp, fun x => ?_, .refl now c⟩
    simp only [List.not_mem_nil, List.mem_singleton, false_iff]
    rintro ⟨rfl, hne, -⟩
    exact hne hme
  · rename_i hme
    split
    · rename_i hbar
      refine ⟨c, [], by simp, by simp, fun x => ?_, .refl now c⟩
      simp only [List.not_mem_nil, List.mem_singleton, false_iff]
      rintro ⟨rfl, -, hfree, -⟩
      rw [show c.isQuarantined now x = true from hbar] at hfree
      cases hfree
    · rename_i hbar
      split
      · rename_i hmem
        refine ⟨c.expire now node, [], by simp, by simp, fun x => ?_,
          expires_of_lookup (c.lookup_expire now node)⟩
        simp only [List.not_mem_nil, List.mem_singleton, false_iff]
        rintro ⟨rfl, -, -, hnot⟩
        exact hnot hmem
      · rename_i hmem
        refine ⟨_, [node], rfl, fun x => ?_, fun x => ?_,
          expires_of_lookup (c.lookup_expire now node)⟩
        · show x ∈ c.members.insert node ↔ _
          rw [KeySet.mem_insert, List.mem_singleton, or_comm]
        · rw [List.mem_singleton]
          constructor
          · rintro rfl
            exact ⟨rfl, hme, by simpa using hbar, hmem⟩
          · exact fun h => h.1

theorem learn_spec (c : Cluster me) (now : Nat) (nodes : List EndpointId) :
    Learns now nodes c (c.learn now nodes).1 (c.learn now nodes).2 := by
  have hfold : ∀ (nodes : List EndpointId) (c : Cluster me)
      (acc : List EndpointId), ∃ c' fresh,
        nodes.foldl (learnOne now) (c, acc) = (c', acc ++ fresh) ∧
          Learns now nodes c c' fresh := by
    intro nodes
    induction nodes with
    | nil =>
      intro c acc
      exact ⟨c, [], by simp, by simp, by simp, .refl now c⟩
    | cons node nodes ih =>
      intro c acc
      obtain ⟨c₁, fresh₁, heq₁, h₁⟩ := learnOne_spec now c acc node
      obtain ⟨c₂, fresh₂, heq₂, h₂⟩ := ih c₁ (acc ++ fresh₁)
      refine ⟨c₂, fresh₁ ++ fresh₂, ?_, fun x => ?_, fun x => ?_,
        h₁.expires.trans h₂.expires⟩
      · rw [List.foldl_cons, heq₁, heq₂, List.append_assoc]
      · rw [h₂.members, h₁.members, List.mem_append, or_assoc]
      · rw [List.mem_append, h₂.fresh, h₁.fresh, h₁.members, h₁.fresh,
          h₁.expires.barred, List.mem_singleton, List.mem_cons]
        tauto
  obtain ⟨c', fresh, heq, hspec⟩ := hfold nodes c []
  rw [learn, heq]
  exact hspec

/-- No quarantine expires within the window: an entry is stale all along or
bars all along. -/
def Steady (c : Cluster me) (window : Nat → Prop) : Prop :=
  ∀ x deadline, c.quarantined.lookup x = some deadline →
    (∀ t, window t → deadline ≤ t) ∨ ∀ t, window t → t < deadline

theorem Steady.isQuarantined_eq {c : Cluster me} {window : Nat → Prop}
    {t t' : Nat} (h : c.Steady window) (ht : window t) (ht' : window t')
    (x : EndpointId) : c.isQuarantined t x = c.isQuarantined t' x := by
  unfold isQuarantined
  cases hx : c.quarantined.lookup x with
  | none => rfl
  | some deadline =>
    rcases h x deadline hx with hstale | hbars
    · simp [Nat.not_lt.2 (hstale t ht), Nat.not_lt.2 (hstale t' ht')]
    · simp [hbars t ht, hbars t' ht']

theorem Steady.expires {c c' : Cluster me} {window : Nat → Prop} {now : Nat}
    (h : c.Steady window) (he : Expires now c c') : c'.Steady window :=
  fun x deadline hx => h x deadline (he.kept x deadline hx)

end Cluster

end Plasmoid
