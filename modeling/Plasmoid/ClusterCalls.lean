import Plasmoid.Cluster
import Plasmoid.Lib.Tasks

/-!
# Calls on the cluster that overlap

The member set and the quarantine have a lock each, so a call on the `Cluster`
is atomic only from one lock to the next.  `learn` asks the quarantine about a
node and then adds the node to the members; `quarantine` bars a node and then
takes it out of the members.

A `ClusterCall` is the rest of a call.  What it does next is one access under
one lock.  Calls that overlap take turns in any order.
-/

namespace Plasmoid

open Machine

/-- A node other than ourselves. -/
abbrev Peer (me : EndpointId) := { node : EndpointId // node ≠ me }

namespace Cluster

variable {me : EndpointId}

/-- The first half of `quarantine`: refuse to learn the node. -/
def bar (c : Cluster me) (now : Nat) (node : EndpointId) : Cluster me :=
  { c with quarantined := c.quarantined.insert node (now + quarantinePeriod) }

/-- The second half of `learn`: add the node to the members. -/
def enroll (c : Cluster me) (node : Peer me) : Cluster me where
  members := c.members.insert node.1
  quarantined := c.quarantined
  me_not_mem h := (KeySet.mem_insert.1 h).elim
    (fun h => node.2 h.symm) c.me_not_mem

/-- The candidates of `learn`: we are not our own peer. -/
def candidates (me : EndpointId) (nodes : List EndpointId) : List (Peer me) :=
  nodes.filterMap fun node => if h : node ≠ me then some ⟨node, h⟩ else none

/-- A member stays one. -/
theorem enroll_of_mem {c : Cluster me} {node : Peer me}
    (h : node.1 ∈ c.members) : c.enroll node = c := by
  cases c
  simp only [enroll, KeySet.insert_of_mem h]

/-- `quarantine` is its two halves. -/
theorem quarantine_eq (c : Cluster me) (now : Nat) (node : EndpointId) :
    c.quarantine now node = (c.bar now node).forget node := rfl

end Cluster

/-- What a call has yet to do.  `asked` is when it read the clock. -/
inductive ClusterCall (me : EndpointId) where
  /-- `learn` is about to ask whether the first candidate is barred. -/
  | check (asked : Nat) (node : Peer me) (rest : List (Peer me))
      (fresh : List EndpointId)
  /-- `learn` is about to add the first candidate.  `since` counts the
  quarantines that were complete when it asked. -/
  | enroll (since : Nat) (node : Peer me) (rest : List (Peer me))
      (fresh : List EndpointId)
  /-- `quarantine` is about to bar the node. -/
  | bar (node : EndpointId)
  /-- `quarantine` is about to take the node out of the members. -/
  | remove (node : EndpointId) (deadline : Nat)
  /-- `is_quarantined` is about to look. -/
  | ask (asked : Nat) (node : EndpointId)
  | forget (node : EndpointId)
deriving DecidableEq

/-- What the calls share, the clock, and what they returned. -/
structure ClusterEnv (me : EndpointId) where
  cluster : Cluster me
  clock : Nat
  /-- The quarantines that have returned, and when their windows end. -/
  quarantines : List (EndpointId × Nat)
  /-- What `learn` has returned. -/
  learned : List (List EndpointId)

namespace ClusterEnv

variable {me : EndpointId}

/-- `learn` goes on to the next candidate, or returns. -/
def learnRest (e : ClusterEnv me) (rest : List (Peer me))
    (fresh : List EndpointId) : ClusterEnv me × List (ClusterCall me) :=
  match rest with
  | node :: rest => (e, [.check e.clock node rest fresh])
  | [] => ({ e with learned := e.learned ++ [fresh] }, [])

/-- One access of one call. -/
def handle (e : ClusterEnv me) (_ : Unit) :
    ClusterCall me → ClusterEnv me × List (ClusterCall me)
  | .check asked node rest fresh =>
    let e' := { e with cluster := e.cluster.expire asked node.1 }
    if e.cluster.isQuarantined asked node.1 then e'.learnRest rest fresh
    else (e', [.enroll e.quarantines.length node rest fresh])
  | .enroll _ node rest fresh =>
    { e with cluster := e.cluster.enroll node }.learnRest rest
      (if node.1 ∈ e.cluster.members then fresh else fresh ++ [node.1])
  | .bar node =>
    ({ e with cluster := e.cluster.bar e.clock node },
      [.remove node (e.clock + quarantinePeriod)])
  | .remove node deadline =>
    ({ e with
        cluster := e.cluster.forget node
        quarantines := e.quarantines ++ [(node, deadline)] }, [])
  | .ask asked node =>
    ({ e with cluster := e.cluster.expire asked node }, [])
  | .forget node => ({ e with cluster := e.cluster.forget node }, [])

end ClusterEnv

/-- A cluster and the calls on it that are in progress. -/
abbrev ClusterCalls (me : EndpointId) := Pool (ClusterEnv me) (ClusterCall me)

inductive ClusterAction where
  | learn (nodes : List EndpointId)
  | quarantine (node : EndpointId)
  | isQuarantined (node : EndpointId)
  | forget (node : EndpointId)
  /-- Time passes. -/
  | tick (elapsed : Nat)
  /-- A call takes its next lock. -/
  | advance (i : Nat)

namespace ClusterCalls

variable {me : EndpointId}

def start (c : Cluster me) (clock : Nat) : ClusterCalls me :=
  ⟨⟨c, clock, [], []⟩, []⟩

/-- A new call. -/
def call (s : ClusterCalls me) (j : ClusterCall me) : ClusterCalls me :=
  { s with jobs := s.jobs ++ [j] }

def step (s : ClusterCalls me) : ClusterAction → Option (ClusterCalls me)
  | .learn nodes =>
    let (env, jobs) := s.env.learnRest (Cluster.candidates me nodes) []
    some ⟨env, s.jobs ++ jobs⟩
  | .quarantine node => some (s.call (.bar node))
  | .isQuarantined node => some (s.call (.ask s.env.clock node))
  | .forget node => some (s.call (.forget node))
  | .tick elapsed =>
    some { s with env := { s.env with clock := s.env.clock + elapsed } }
  | .advance i => s.work ClusterEnv.handle i ()

/-- The windows that are open at an instant. -/
def openWindows (s : ClusterCalls me) (l : List (EndpointId × Nat)) :
    List (EndpointId × Nat) :=
  l.filter fun w => s.env.clock < w.2

/-- No node is a member while a quarantine of it has returned and the window of
that quarantine is open. -/
def Safe (s : ClusterCalls me) : Prop :=
  ∀ w ∈ s.openWindows s.env.quarantines, w.1 ∉ s.env.cluster.members

/-- Nobody quarantined a node since `learn` found that it is not barred. -/
def CurrentCall (s : ClusterCalls me) : ClusterCall me → Prop
  | .enroll since node _ _ =>
    ∀ w ∈ s.openWindows (s.env.quarantines.drop since), w.1 ≠ node.1
  | _ => True

/-- No step adds a node that was quarantined in the meantime. -/
def Current (s : ClusterCalls me) : ClusterAction → Prop
  | .advance i => ∀ j ∈ s.jobs[i]?, s.CurrentCall j
  | _ => True

instance (s : ClusterCalls me) : Decidable s.Safe :=
  inferInstanceAs (Decidable (∀ w ∈ s.openWindows s.env.quarantines,
    w.1 ∉ s.env.cluster.members))

instance (s : ClusterCalls me) : DecidablePred s.CurrentCall
  | .enroll since node _ _ => inferInstanceAs (Decidable (∀ w ∈
      s.openWindows (s.env.quarantines.drop since), w.1 ≠ node.1))
  | .check .. | .bar _ | .remove .. | .ask .. | .forget _ => isTrue trivial

instance (s : ClusterCalls me) : DecidablePred s.Current
  | .advance i =>
    inferInstanceAs (Decidable (∀ j ∈ s.jobs[i]?, s.CurrentCall j))
  | .learn _ | .quarantine _ | .isQuarantined _ | .forget _ | .tick _ =>
    isTrue trivial

end ClusterCalls

/-! ## What every access keeps -/

namespace ClusterEnv

variable {me : EndpointId} {e e' : ClusterEnv me}

/-- The window is over, or the quarantine bars the node to its end. -/
def Bars (e : ClusterEnv me) (w : EndpointId × Nat) : Prop :=
  w.2 ≤ e.clock + quarantinePeriod ∧ (w.2 ≤ e.clock ∨
    ∃ deadline, e.cluster.quarantined.lookup w.1 = some deadline ∧
      w.2 ≤ deadline)

/-- What happens as time passes and calls take their locks. -/
structure Later (e e' : ClusterEnv me) : Prop where
  clock : e.clock ≤ e'.clock
  quarantines : e.quarantines <+: e'.quarantines
  bars : ∀ w, e.Bars w → e'.Bars w

/-- What is known of a call in progress. -/
def Allows (e : ClusterEnv me) : ClusterCall me → Prop
  | .check asked _ _ _ => asked ≤ e.clock
  | .ask asked _ => asked ≤ e.clock
  | .enroll since node _ _ => since ≤ e.quarantines.length ∧
      ∀ w ∈ e.quarantines.take since, w.1 = node.1 → w.2 ≤ e.clock
  | .remove node deadline => e.Bars (node, deadline)
  | _ => True

theorem Later.allows (h : Later e e') {j : ClusterCall me}
    (hj : e.Allows j) : e'.Allows j := by
  cases j with
  | check asked node rest fresh => exact le_trans hj h.clock
  | ask asked node => exact le_trans hj h.clock
  | enroll since node rest fresh =>
    obtain ⟨hsince, hover⟩ := hj
    refine ⟨le_trans hsince h.quarantines.length_le, fun w hw heq => ?_⟩
    obtain ⟨more, hmore⟩ := h.quarantines
    rw [← hmore, List.take_append_of_le_length hsince] at hw
    exact le_trans (hover w hw heq) h.clock
  | remove node deadline => exact h.bars _ hj
  | bar node => trivial
  | forget node => trivial

/-- An access that leaves the clock, the quarantine and what has returned. -/
theorem later_of_quarantined_eq
    (hquarantined : e'.cluster.quarantined = e.cluster.quarantined)
    (hclock : e'.clock = e.clock) (hdone : e.quarantines <+: e'.quarantines) :
    Later e e' := by
  refine ⟨hclock.ge, hdone, fun w hw => ?_⟩
  rw [Bars, hquarantined, hclock]
  exact hw

theorem later_learnRest (e : ClusterEnv me) (rest : List (Peer me))
    (fresh : List EndpointId) : Later e (e.learnRest rest fresh).1 := by
  unfold learnRest
  split <;> exact later_of_quarantined_eq rfl rfl (List.prefix_refl _)

theorem Later.trans {e₁ e₂ e₃ : ClusterEnv me} (h₁ : Later e₁ e₂)
    (h₂ : Later e₂ e₃) : Later e₁ e₃ :=
  ⟨le_trans h₁.clock h₂.clock, h₁.quarantines.trans h₂.quarantines,
    fun w hw => h₂.bars w (h₁.bars w hw)⟩

/-- What `is_quarantined` drops was stale. -/
theorem later_expire {asked : Nat} (hasked : asked ≤ e.clock)
    (node : EndpointId) :
    Later e { e with cluster := e.cluster.expire asked node } := by
  refine ⟨le_refl _, List.prefix_refl _, fun w hw => ⟨hw.1, ?_⟩⟩
  rcases hw.2 with hover | ⟨deadline, hdeadline, hle⟩
  · exact Or.inl hover
  · rcases e.cluster.lookup_expire asked node w.1 with hkept | ⟨-, hfree⟩
    · exact Or.inr ⟨deadline, hkept.trans hdeadline, hle⟩
    · have hstale : ¬ asked < deadline := by
        intro hlt
        rw [Cluster.isQuarantined_iff.2 ⟨deadline, hdeadline, hlt⟩] at hfree
        cases hfree
      refine Or.inl ?_
      show w.2 ≤ e.clock
      omega

/-- A new quarantine lasts at least as long as those before it. -/
theorem later_bar (e : ClusterEnv me) (node : EndpointId) :
    Later e { e with cluster := e.cluster.bar e.clock node } := by
  refine ⟨le_refl _, List.prefix_refl _, fun w hw => ⟨hw.1, ?_⟩⟩
  rcases hw.2 with hover | ⟨deadline, hdeadline, hle⟩
  · exact Or.inl hover
  · refine Or.inr ?_
    show ∃ d, (e.cluster.quarantined.insert node
      (e.clock + quarantinePeriod)).lookup w.1 = some d ∧ w.2 ≤ d
    rw [Table.lookup_insert_eq]
    split
    · exact ⟨_, rfl, hw.1⟩
    · exact ⟨deadline, hdeadline, hle⟩

theorem later_tick (e : ClusterEnv me) (elapsed : Nat) :
    Later e { e with clock := e.clock + elapsed } := by
  refine ⟨Nat.le_add_right .., List.prefix_refl _, fun w hw => ?_⟩
  refine ⟨?_, hw.2.imp_left fun hover => ?_⟩
  · show w.2 ≤ e.clock + elapsed + quarantinePeriod
    have := hw.1
    omega
  · show w.2 ≤ e.clock + elapsed
    omega

/-- The next check reads the clock now. -/
theorem allows_learnRest (e : ClusterEnv me) (rest : List (Peer me))
    (fresh : List EndpointId) :
    ∀ j ∈ (e.learnRest rest fresh).2, (e.learnRest rest fresh).1.Allows j := by
  unfold learnRest
  split
  · intro j hj
    rw [List.mem_singleton.1 hj]
    exact le_refl _
  · intro j hj
    cases hj

/-- If a node is not barred, every window of it is over. -/
theorem Bars.over {asked : Nat} {w : EndpointId × Nat} (h : e.Bars w)
    (hasked : asked ≤ e.clock)
    (hfree : e.cluster.isQuarantined asked w.1 = false) : w.2 ≤ e.clock := by
  rcases h.2 with hover | ⟨deadline, hdeadline, hle⟩
  · exact hover
  · by_contra hopen
    have hlt : asked < deadline := by omega
    rw [Cluster.isQuarantined_iff.2 ⟨deadline, hdeadline, hlt⟩] at hfree
    cases hfree

/-- An access keeps what is known of the calls. -/
theorem handle_later {j : ClusterCall me} (hj : e.Allows j)
    (hdone : ∀ w ∈ e.quarantines, e.Bars w) :
    Later e (e.handle () j).1 ∧
      ∀ j' ∈ (e.handle () j).2, (e.handle () j).1.Allows j' := by
  cases j with
  | check asked node rest fresh =>
    have hexpire := later_expire (e := e) hj node.1
    simp only [handle]
    split
    · exact ⟨hexpire.trans (later_learnRest ..), allows_learnRest _ _ _⟩
    · rename_i hfree
      refine ⟨hexpire, fun j' hj' => ?_⟩
      rw [List.mem_singleton.1 hj']
      refine ⟨le_refl _, fun w hw heq => ?_⟩
      refine (hdone w (List.mem_of_mem_take hw)).over hj ?_
      rw [heq]
      simpa using hfree
  | enroll since node rest fresh =>
    have henrolls : Later e { e with cluster := e.cluster.enroll node } :=
      later_of_quarantined_eq rfl rfl (List.prefix_refl _)
    exact ⟨henrolls.trans (later_learnRest ..), allows_learnRest _ _ _⟩
  | bar node =>
    refine ⟨later_bar e node, fun j' hj' => ?_⟩
    rw [List.mem_singleton.1 hj']
    exact ⟨le_refl _, Or.inr ⟨_, AList.lookup_insert _, le_refl _⟩⟩
  | remove node deadline =>
    refine ⟨later_of_quarantined_eq rfl rfl ?_, by simp [handle]⟩
    exact List.prefix_append _ _
  | ask asked node => exact ⟨later_expire hj node, by simp [handle]⟩
  | forget node =>
    exact ⟨later_of_quarantined_eq rfl rfl (List.prefix_refl _),
      by simp [handle]⟩

end ClusterEnv

/-! ## Runs -/

namespace ClusterCalls

variable {me : EndpointId} {s t : ClusterCalls me}

/-- Every returned quarantine bars its node, and no node is both barred by one
and a member. -/
structure CallsInv (s : ClusterCalls me) : Prop where
  done : ∀ w ∈ s.env.quarantines, s.env.Bars w
  calls : ∀ j ∈ s.jobs, s.env.Allows j
  safe : s.Safe

theorem callsInv_start (c : Cluster me) (clock : Nat) :
    CallsInv (start c clock) := by
  refine ⟨?_, ?_, ?_⟩
  · intro w hw
    cases hw
  · intro j hj
    cases hj
  · intro w hw
    cases hw

theorem mem_openWindows {l : List (EndpointId × Nat)} {w : EndpointId × Nat} :
    w ∈ s.openWindows l ↔ w ∈ l ∧ s.env.clock < w.2 := by
  simp [openWindows]

/-- A step that adds no member and lets no quarantine return is safe. -/
theorem safe_of_later {e : ClusterEnv me} {jobs : List (ClusterCall me)}
    (hsafe : s.Safe) (hlater : s.env.Later e)
    (hdone : e.quarantines = s.env.quarantines)
    (hmembers : ∀ x ∈ e.cluster.members, x ∈ s.env.cluster.members) :
    Safe ⟨e, jobs⟩ := by
  intro w hw hmem
  obtain ⟨hret, hopen⟩ := mem_openWindows.1 hw
  refine hsafe w (mem_openWindows.2 ⟨?_, ?_⟩) (hmembers _ hmem)
  · rw [← hdone]
    exact hret
  · exact lt_of_le_of_lt hlater.clock hopen

theorem env_learnRest (e : ClusterEnv me) (rest : List (Peer me))
    (fresh : List EndpointId) :
    (e.learnRest rest fresh).1.cluster = e.cluster ∧
      (e.learnRest rest fresh).1.clock = e.clock ∧
      (e.learnRest rest fresh).1.quarantines = e.quarantines := by
  unfold ClusterEnv.learnRest
  split <;> exact ⟨rfl, rfl, rfl⟩

/-- An access is safe if `learn` does not add a node that was quarantined since
it asked. -/
theorem safe_handle {i : Nat} {j : ClusterCall me} (hinv : CallsInv s)
    (hj : s.jobs[i]? = some j) (rest : List (ClusterCall me)) :
    Safe ⟨(s.env.handle () j).1, rest⟩ ↔ s.Current (.advance i) := by
  have hallows := hinv.calls j (List.mem_of_getElem? hj)
  obtain ⟨hlater, -⟩ := ClusterEnv.handle_later hallows hinv.done
  cases j with
  | enroll since node todo fresh =>
    obtain ⟨hcluster, hclock, hdone⟩ := env_learnRest
      { s.env with cluster := s.env.cluster.enroll node } todo
      (if node.1 ∈ s.env.cluster.members then fresh else fresh ++ [node.1])
    constructor
    · intro hsafe j' hj'
      rw [hj] at hj'
      cases hj'
      intro w hw heq
      obtain ⟨hret, hopen⟩ := mem_openWindows.1 hw
      refine hsafe w (mem_openWindows.2 ⟨?_, ?_⟩) ?_
      · rw [show (s.env.handle () (.enroll since node todo fresh)).1.quarantines
          = s.env.quarantines from hdone]
        exact List.mem_of_mem_drop hret
      · exact lt_of_eq_of_lt hclock hopen
      · show w.1 ∈ (s.env.handle () _).1.cluster.members
        rw [show (s.env.handle () (.enroll since node todo fresh)).1.cluster =
          s.env.cluster.enroll node from hcluster, heq]
        exact KeySet.mem_insert.2 (Or.inl rfl)
    · intro hcurrent w hw hmem
      obtain ⟨hret, hopen⟩ := mem_openWindows.1 hw
      rw [show (s.env.handle () (.enroll since node todo fresh)).1.quarantines
        = s.env.quarantines from hdone] at hret
      replace hopen : s.env.clock < w.2 := lt_of_eq_of_lt hclock.symm hopen
      rw [show (s.env.handle () (.enroll since node todo fresh)).1.cluster =
        s.env.cluster.enroll node from hcluster] at hmem
      rcases KeySet.mem_insert.1 hmem with heq | hmem
      · -- Windows that were over when `learn` asked are over still.
        rw [← List.take_append_drop since s.env.quarantines] at hret
        rcases List.mem_append.1 hret with hbefore | hsince
        · have := hallows.2 w hbefore heq
          omega
        · exact hcurrent _ hj w
            (mem_openWindows.2 ⟨hsince, hopen⟩) heq
      · exact hinv.safe w (mem_openWindows.2 ⟨hret, hopen⟩) hmem
  | check asked node todo fresh =>
    refine iff_of_true ?_ (fun j' hj' => by rw [hj] at hj'; cases hj'; trivial)
    obtain ⟨hcluster, -, hdone⟩ := env_learnRest
      { s.env with cluster := s.env.cluster.expire asked node.1 } todo fresh
    refine safe_of_later hinv.safe hlater ?_ ?_
    · simp only [ClusterEnv.handle]
      split
      · exact hdone
      · rfl
    · simp only [ClusterEnv.handle]
      intro x hx
      split at hx
      · rw [hcluster, Cluster.members_expire] at hx
        exact hx
      · rw [Cluster.members_expire] at hx
        exact hx
  | bar node =>
    refine iff_of_true ?_ (fun j' hj' => by rw [hj] at hj'; cases hj'; trivial)
    exact safe_of_later hinv.safe hlater rfl fun x hx => hx
  | remove node deadline =>
    refine iff_of_true ?_ (fun j' hj' => by rw [hj] at hj'; cases hj'; trivial)
    intro w hw hmem
    obtain ⟨hret, hopen⟩ := mem_openWindows.1 hw
    obtain ⟨hne, hmem⟩ := KeySet.mem_remove.1 hmem
    rcases List.mem_append.1 hret with hret | hret
    · exact hinv.safe w (mem_openWindows.2 ⟨hret, hopen⟩) hmem
    · rw [List.mem_singleton.1 hret] at hne
      exact hne rfl
  | ask asked node =>
    refine iff_of_true ?_ (fun j' hj' => by rw [hj] at hj'; cases hj'; trivial)
    refine safe_of_later hinv.safe hlater rfl fun x hx => ?_
    simp only [ClusterEnv.handle, Cluster.members_expire] at hx
    exact hx
  | forget node =>
    refine iff_of_true ?_ (fun j' hj' => by rw [hj] at hj'; cases hj'; trivial)
    refine safe_of_later hinv.safe hlater rfl fun x hx => ?_
    exact (KeySet.mem_remove.1 hx).2

/-- A quarantine that returns bars its node. -/
theorem done_handle {j : ClusterCall me} (hinv : CallsInv s)
    (hallows : s.env.Allows j) :
    ∀ w ∈ (s.env.handle () j).1.quarantines, (s.env.handle () j).1.Bars w := by
  obtain ⟨hlater, -⟩ := ClusterEnv.handle_later hallows hinv.done
  have hkept : ∀ w ∈ s.env.quarantines, (s.env.handle () j).1.Bars w :=
    fun w hw => hlater.bars w (hinv.done w hw)
  cases j with
  | remove node deadline =>
    intro w hw
    rcases List.mem_append.1 hw with hw | hw
    · exact hkept w hw
    · rw [List.mem_singleton.1 hw]
      exact hlater.bars _ hallows
  | check asked node rest fresh =>
    intro w hw
    refine hkept w ?_
    simp only [ClusterEnv.handle] at hw
    split at hw
    · rwa [(env_learnRest ..).2.2] at hw
    · exact hw
  | enroll since node rest fresh =>
    intro w hw
    refine hkept w ?_
    rwa [ClusterEnv.handle, (env_learnRest ..).2.2] at hw
  | bar node => exact hkept
  | ask asked node => exact hkept
  | forget node => exact hkept

/-- A call that begins knows what it has to know. -/
theorem CallsInv.begin (h : CallsInv s) {jobs : List (ClusterCall me)}
    {learned : List (List EndpointId)} (hjobs : ∀ j ∈ jobs, s.env.Allows j) :
    CallsInv ⟨{ s.env with learned }, s.jobs ++ jobs⟩ := by
  have hlater : s.env.Later { s.env with learned } :=
    ClusterEnv.later_of_quarantined_eq rfl rfl (List.prefix_refl _)
  refine ⟨fun w hw => hlater.bars w (h.done w hw), fun j hj => ?_, h.safe⟩
  refine hlater.allows ?_
  exact (List.mem_append.1 hj).elim (h.calls j) (hjobs j)

/-- A step keeps the invariant if it is current, and is unsafe otherwise. -/
theorem CallsInv.step {a : ClusterAction} (h : CallsInv s)
    (hstep : step s a = some t) :
    (s.Current a → CallsInv t) ∧ (t.Safe ↔ s.Current a) := by
  have hquiet : CallsInv t → s.Current a →
      (s.Current a → CallsInv t) ∧ (t.Safe ↔ s.Current a) :=
    fun ht ha => ⟨fun _ => ht, iff_of_true ht.safe ha⟩
  cases a with
  | learn nodes =>
    cases hstep
    refine hquiet ?_ trivial
    have hallows := ClusterEnv.allows_learnRest s.env
      (Cluster.candidates me nodes) []
    revert hallows
    unfold ClusterEnv.learnRest
    split
    · exact h.begin
    · exact h.begin
  | quarantine node =>
    cases hstep
    exact hquiet (h.begin (by simp [ClusterEnv.Allows])) trivial
  | isQuarantined node =>
    cases hstep
    exact hquiet (h.begin (by simp [ClusterEnv.Allows])) trivial
  | forget node =>
    cases hstep
    exact hquiet (h.begin (by simp [ClusterEnv.Allows])) trivial
  | tick elapsed =>
    cases hstep
    have hlater := ClusterEnv.later_tick s.env elapsed
    refine hquiet ⟨fun w hw => hlater.bars w (h.done w hw),
      fun j hj => hlater.allows (h.calls j hj), ?_⟩ trivial
    exact safe_of_later h.safe hlater rfl fun x hx => hx
  | advance i =>
    obtain ⟨j, hj, rfl⟩ := Pool.work_cases hstep
    have hallows := h.calls j (List.mem_of_getElem? hj)
    obtain ⟨hlater, hnew⟩ := ClusterEnv.handle_later hallows h.done
    have hsafe := safe_handle h hj
      (s.jobs.eraseIdx i ++ (s.env.handle () j).2)
    refine ⟨fun hcurrent => ⟨done_handle h hallows, fun x hx => ?_,
      hsafe.2 hcurrent⟩, hsafe⟩
    exact (Pool.mem_before_or_new hx).elim
      (fun hx => hlater.allows (h.calls x hx)) (hnew x)

/-! ## A call without others -/

/-- The candidates are all that `learn` looks at. -/
theorem foldl_candidates (now : Nat) (nodes : List EndpointId)
    (acc : Cluster me × List EndpointId) :
    ((Cluster.candidates me nodes).map (·.1)).foldl (Cluster.learnOne now) acc =
      nodes.foldl (Cluster.learnOne now) acc := by
  induction nodes generalizing acc with
  | nil => rfl
  | cons node nodes ih =>
    rw [List.foldl_cons, ← ih]
    by_cases hme : node = me
    · have hskip : Cluster.learnOne now acc node = acc := by
        simp [Cluster.learnOne, hme]
      rw [hskip]
      simp [Cluster.candidates, hme]
    · simp [Cluster.candidates, hme]

/-- What the two halves of `learn` do to one candidate. -/
theorem run_learnOne (e : ClusterEnv me) (node : Peer me)
    (rest : List (Peer me)) (fresh : List EndpointId) :
    Run step anyStep (⟨e, [.check e.clock node rest fresh]⟩ : ClusterCalls me)
      (let c := Cluster.learnOne e.clock (e.cluster, fresh) node.1
       let r := { e with cluster := c.1 }.learnRest rest c.2
       ⟨r.1, r.2⟩) := by
  by_cases hbar : e.cluster.isQuarantined e.clock node.1 = true
  · have hone : Cluster.learnOne e.clock (e.cluster, fresh) node.1 =
        (e.cluster, fresh) := by
      simp [Cluster.learnOne, node.2, hbar]
    rw [hone]
    refine Run.single (a := .advance 0) trivial ?_
    simp [step, Pool.work, ClusterEnv.handle, hbar, Cluster.expire]
  · have hask : step (⟨e, [.check e.clock node rest fresh]⟩ : ClusterCalls me)
        (.advance 0) = some
          ⟨{ e with cluster := e.cluster.expire e.clock node.1 },
            [.enroll e.quarantines.length node rest fresh]⟩ := by
      simp [step, Pool.work, ClusterEnv.handle, hbar]
    refine (Run.single trivial hask).trans
      (Run.single (a := .advance 0) trivial ?_)
    by_cases hmem : node.1 ∈ e.cluster.members
    · have hkept : (e.cluster.expire e.clock node.1).enroll node =
          e.cluster.expire e.clock node.1 := by
        refine Cluster.enroll_of_mem ?_
        rwa [Cluster.members_expire]
      have hone : Cluster.learnOne e.clock (e.cluster, fresh) node.1 =
          (e.cluster.expire e.clock node.1, fresh) := by
        simp [Cluster.learnOne, node.2, hbar, hmem]
      rw [hone]
      simp [step, Pool.work, ClusterEnv.handle, hkept, hmem]
    · have hone : Cluster.learnOne e.clock (e.cluster, fresh) node.1 =
          ((e.cluster.expire e.clock node.1).enroll node,
            fresh ++ [node.1]) := by
        simp [Cluster.learnOne, node.2, hbar, hmem, Cluster.enroll]
      rw [hone]
      simp [step, Pool.work, ClusterEnv.handle, hmem]

/-- A call of `learn` that nobody disturbs is `Cluster.learn`. -/
theorem learn_alone (c : Cluster me) (clock : Nat) (nodes : List EndpointId) :
    Run step anyStep (start c clock) ⟨⟨(c.learn clock nodes).1, clock, [],
      [(c.learn clock nodes).2]⟩, []⟩ := by
  have hrest : ∀ (todo : List (Peer me)) (c : Cluster me)
      (fresh : List EndpointId),
      let e : ClusterEnv me := ⟨c, clock, [], []⟩
      let r := (todo.map (·.1)).foldl (Cluster.learnOne clock) (c, fresh)
      Run step anyStep (⟨(e.learnRest todo fresh).1, (e.learnRest todo fresh).2⟩
        : ClusterCalls me) ⟨⟨r.1, clock, [], [r.2]⟩, []⟩ := by
    intro todo
    induction todo with
    | nil => exact fun c fresh => .refl
    | cons node todo ih =>
      intro c fresh
      exact (run_learnOne ⟨c, clock, [], []⟩ node todo fresh).trans (ih _ _)
  have hall := hrest (Cluster.candidates me nodes) c []
  rw [foldl_candidates] at hall
  exact (Run.single (a := .learn nodes) trivial rfl).trans hall

/-! ## Quarantine and membership -/

/-- While no `learn` adds a node that was quarantined since it asked, a
quarantined node is no member, and the node itself never is; the first `learn`
that does makes a quarantined node a member. -/
theorem quarantined_never_members (me : EndpointId) (c : Cluster me)
    (clock : Nat) (s : ClusterCalls me)
    (hrun : Run step Current (start c clock) s) :
    s.Safe ∧ me ∉ s.env.cluster.members ∧
      ∀ a t, step s a = some t → (t.Safe ↔ s.Current a) := by
  have hinv : CallsInv s := hrun.invariant
    (fun hs hcurrent hstep => (hs.step hstep).1 hcurrent)
    (callsInv_start c clock)
  exact ⟨hinv.safe, s.env.cluster.me_not_mem, fun a t hstep =>
    (hinv.step hstep).2⟩

/-- Node 1 learns about node 2, quarantines it and hears about it again. -/
theorem quarantined_never_members_heardAgain :
    ∃ s : ClusterCalls ⟨1⟩,
      Run step Current (start (Cluster.new ⟨1⟩) 0) s ∧
      s.env.quarantines = [(⟨2⟩, quarantinePeriod)] ∧ s.Safe := by
  have hrun : ∃ s : ClusterCalls ⟨1⟩,
      Run step Current (start (Cluster.new ⟨1⟩) 0) s ∧
        s.env.quarantines = [(⟨2⟩, quarantinePeriod)] :=
    exec_run_of_any [.learn [⟨2⟩], .advance 0, .advance 0, .quarantine ⟨2⟩,
      .advance 0, .advance 0, .learn [⟨2⟩], .advance 0] (by decide)
  obtain ⟨s, hrun, hdone⟩ := hrun
  exact ⟨s, hrun, hdone, (quarantined_never_members ⟨1⟩ _ 0 s hrun).1⟩

/-- A quarantine that falls between the two halves of `learn` is undone. -/
theorem learn_overtaken_by_quarantine :
    ¬ ∀ (me : EndpointId) (c : Cluster me) (clock : Nat) (s : ClusterCalls me),
      Run step anyStep (start c clock) s → s.Safe := by
  intro hall
  have hrun : ∃ s : ClusterCalls ⟨1⟩,
      Run step anyStep (start (Cluster.new ⟨1⟩) 0) s ∧ ¬ s.Safe :=
    exec_run_of_any [.learn [⟨2⟩], .advance 0, .quarantine ⟨2⟩, .advance 1,
      .advance 1, .advance 0] (by decide)
  obtain ⟨s, hrun, hunsafe⟩ := hrun
  exact hunsafe (hall ⟨1⟩ _ 0 s hrun)

end ClusterCalls

end Plasmoid
