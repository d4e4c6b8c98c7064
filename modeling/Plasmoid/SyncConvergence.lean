import Plasmoid.NameSync

/-!
# Where exchanged name tables lead

A merge takes the lower pid for every name, so a table is the pointwise minimum
of the tables at the start that have gone into it (`SyncInv.minimum`), in
whatever order they came.  A particle is condemned by the merge at which a lower
pid takes its name (`SyncInv.displaced`), and only there.
-/

namespace Plasmoid

open Machine

variable {init : EndpointId → GlobalNames}

/-- The least pid for a name in the tables that some nodes started with. -/
def leastOf (init : EndpointId → GlobalNames) (sources : Finset EndpointId)
    (name : String) : WithTop Pid :=
  sources.inf fun y => held (init y).names name

/-- The least pid is the pid of one of them. -/
theorem exists_of_leastOf {sources : Finset EndpointId} {name : String}
    {p : Pid} (h : leastOf init sources name = p) :
    ∃ y ∈ sources, held (init y).names name = p := by
  have hle : leastOf init sources name ≤ p := h.le
  obtain ⟨y, hy, hyp⟩ := (Finset.inf_le_iff (WithTop.coe_lt_top p)).1 hle
  refine ⟨y, hy, hyp.antisymm ?_⟩
  rw [← h]
  exact Finset.inf_le hy

namespace SyncEnv

/-- A pid for the name has reached the node. -/
def Reached (init : EndpointId → GlobalNames) (s : SyncEnv)
    (node : EndpointId) (name : String) (p : Pid) : Prop :=
  ∃ y ∈ s.sources node, (init y).names.lookup name = some p

/-- A pid lower than `p` has reached the node. -/
def Outbid (init : EndpointId → GlobalNames) (s : SyncEnv)
    (node : EndpointId) (name : String) (p : Pid) : Prop :=
  ∃ y ∈ s.sources node, ∃ q ∈ (init y).names.lookup name, q < p

instance (s : SyncEnv) (node : EndpointId) (name : String) (p : Pid) :
    Decidable (s.Reached init node name p) :=
  inferInstanceAs (Decidable (∃ y ∈ _, _))

instance (s : SyncEnv) (node : EndpointId) (name : String) (p : Pid) :
    Decidable (s.Outbid init node name p) :=
  inferInstanceAs (Decidable (∃ y ∈ _, ∃ q ∈ _, _))

end SyncEnv

namespace SyncJob

/-- The tables that the job has. -/
def messages : SyncJob → List NameMessage
  | .request _ _ msg | .reply _ msg => [msg]
  | .answer _ theirs r | .merge _ theirs r => theirs :: r.toList.map Prod.snd
  | .close _ _ r | .kill _ _ r => r.toList.map Prod.snd
  | .begin .. | .snapshot .. | .settling .. | .peeking .. => []

end SyncJob

/-- A job passes on the tables that it has, and tables that it reads. -/
theorem SyncEnv.Causes.messages {s : SyncEnv} {j k : SyncJob}
    (h : s.Causes j k) {msg : NameMessage} (hmsg : msg ∈ k.messages) :
    msg ∈ j.messages ∨ ∃ e, msg = s.message e := by
  cases h with
  | snapshot => exact Or.inr ⟨_, List.mem_singleton.1 hmsg⟩
  | request hne =>
    rcases List.mem_cons.1 hmsg with rfl | hmsg
    · exact Or.inl (List.mem_singleton_self _)
    · exact Or.inr ⟨_, List.mem_singleton.1 hmsg⟩
  | merge => exact Or.inl (List.mem_cons_of_mem _ hmsg)
  | begin | refuse | settle => cases hmsg
  | answer | close | kill | respond | reply => exact Or.inl hmsg

/-- A message is the minimum of its sources. -/
structure NameMessage.Ok (init : EndpointId → GlobalNames)
    (msg : NameMessage) : Prop where
  minimum : ∀ name, offered msg.names name = leastOf init msg.sources name
  entry : ∀ e ∈ msg.names, ∃ y, held (init y).names e.1 = e.2

/-- Every table is the minimum of its sources, and kills are what conflicts
make of it. -/
structure SyncInv (init : EndpointId → GlobalNames) (s : SyncEnv) : Prop where
  self : ∀ e, e ∈ s.sources e
  minimum : ∀ e name,
    held (s.node e).names name = leastOf init (s.sources e) name
  verdicts : ∀ v ∈ s.verdicts, ∃ y, held (init y).names v.name = v.loser
  kills : ∀ k ∈ s.kills, k.2 ∈ s.verdicts ∧ k.2.loser.node = k.1 ∧
    held (s.node k.1).names k.2.name < k.2.loser
  displaced : ∀ e name (p : Pid), held (init e).names name = p → p.node = e →
    held (s.node e).names name < p →
      ∃ v, (e, v) ∈ s.kills ∧ v.name = name ∧ v.loser = p

theorem syncInv_start (init : EndpointId → GlobalNames) :
    SyncInv init (.start init) where
  self e := Finset.mem_singleton_self e
  minimum e name := (Finset.inf_singleton ..).symm
  verdicts v hv := by cases hv
  kills k hk := by cases hk
  displaced e name p hp _ hlt := absurd hlt (hp.symm ▸ lt_irrefl _)

/-! ## One job -/

namespace SyncInv

variable {s : SyncEnv}

/-- A node tells the minimum of its sources. -/
theorem message_ok (h : SyncInv init s) (e : EndpointId) :
    (s.message e).Ok init where
  minimum name := (offered_snapshot ..).trans (h.minimum e name)
  entry x hx := by
    have hheld : held (s.node e).names x.1 = x.2 := mem_snapshot.1 hx
    rw [h.minimum] at hheld
    obtain ⟨y, -, hy⟩ := exists_of_leastOf hheld
    exact ⟨y, hy⟩

/-- What a merge does not touch it keeps. -/
theorem update (h : SyncInv init s) (e : EndpointId)
    {f : GlobalNames → GlobalNames} (hf : ∀ g, (f g).names = g.names) :
    SyncInv init (s.update e f) := by
  have hnames : ∀ x, ((s.update e f).node x).names = (s.node x).names := by
    intro x
    by_cases hx : x = e
    · subst hx
      rw [show (s.update x f).node x = f (s.node x) from
        Function.update_self ..]
      exact hf _
    · rw [show (s.update e f).node x = s.node x from
        Function.update_of_ne hx ..]
  refine ⟨h.self, fun x name => ?_, h.verdicts, fun k hk => ?_,
    fun x name p hp hnode hlt => ?_⟩
  · rw [hnames]
    exact h.minimum x name
  · rw [hnames]
    exact h.kills k hk
  · rw [hnames] at hlt
    exact h.displaced x name p hp hnode hlt

/-- A merge at a node, seen from any node. -/
theorem held_mergeAt (s : SyncEnv) (e x : EndpointId) (msg : NameMessage)
    (name : String) : held ((s.mergeAt e msg).node x).names name =
      if x = e then min (held (s.node e).names name) (offered msg.names name)
      else held (s.node x).names name := by
  by_cases hx : x = e
  · subst hx
    rw [if_pos rfl, show (s.mergeAt x msg).node x =
      ((s.node x).merge msg.names).1 from Function.update_self ..]
    exact (GlobalNames.mergeAll_spec ..).held name
  · rw [if_neg hx, show (s.mergeAt e msg).node x = s.node x from
      Function.update_of_ne hx ..]

theorem mergeAt (h : SyncInv init s) (e : EndpointId) {msg : NameMessage}
    (hmsg : msg.Ok init) : SyncInv init (s.mergeAt e msg) := by
  have hspec := GlobalNames.mergeAll_spec msg.names (s.node e).names
  have hle : ∀ x name, held ((s.mergeAt e msg).node x).names name ≤
      held (s.node x).names name := by
    intro x name
    rw [held_mergeAt]
    split
    · rename_i hx
      subst hx
      exact min_le_left _ _
    · exact le_rfl
  have hself : ∀ name, held ((s.mergeAt e msg).node e).names name =
      held (GlobalNames.mergeAll (s.node e).names msg.names).1 name := by
    intro name
    rw [held_mergeAt, if_pos rfl, hspec.held]
  refine ⟨fun x => ?_, fun x name => ?_, fun v hv => ?_, fun k hk => ?_,
    fun x name p hp hnode hlt => ?_⟩
  · by_cases hx : x = e
    · subst hx
      rw [show (s.mergeAt x msg).sources x = s.sources x ∪ msg.sources from
        Function.update_self ..]
      exact Finset.mem_union_left _ (h.self x)
    · rw [show (s.mergeAt e msg).sources x = s.sources x from
        Function.update_of_ne hx ..]
      exact h.self x
  · rw [held_mergeAt]
    by_cases hx : x = e
    · subst hx
      rw [if_pos rfl, show (s.mergeAt x msg).sources x =
        s.sources x ∪ msg.sources from Function.update_self .., h.minimum,
        hmsg.minimum]
      exact Finset.inf_union.symm
    · rw [if_neg hx, show (s.mergeAt e msg).sources x = s.sources x from
        Function.update_of_ne hx ..]
      exact h.minimum x name
  · rcases List.mem_append.1 hv with hv | hv
    · exact h.verdicts v hv
    · rcases hspec.pid v hv with hheld | hmem
      · rw [h.minimum] at hheld
        obtain ⟨y, -, hy⟩ := exists_of_leastOf hheld
        exact ⟨y, hy⟩
      · exact hmsg.entry _ hmem
  · rcases List.mem_append.1 hk with hk | hk
    · obtain ⟨hverdict, hhome, hlt⟩ := h.kills k hk
      exact ⟨List.mem_append_left _ hverdict, hhome, (hle _ _).trans_lt hlt⟩
    · obtain ⟨v, hv, rfl⟩ := List.mem_map.1 hk
      obtain ⟨hv, hhome⟩ := List.mem_filter.1 hv
      obtain ⟨hwinner, hlt⟩ := hspec.loses v hv
      refine ⟨List.mem_append_right _ hv, Pid.isLocalTo_iff.1 hhome, ?_⟩
      show held ((s.mergeAt e msg).node e).names v.name < v.loser
      rw [hself]
      exact hwinner.trans_lt (WithTop.coe_lt_coe.2 hlt)
  · have hle₀ : held (s.node x).names name ≤ p := by
      rw [h.minimum, ← hp]
      exact Finset.inf_le (h.self x)
    rcases hle₀.lt_or_eq with hbefore | heq
    · obtain ⟨v, hv, hvp⟩ := h.displaced x name p hp hnode hbefore
      exact ⟨v, List.mem_append_left _ hv, hvp⟩
    · by_cases hx : x = e
      · -- The pid loses its name in this merge, at home.
        subst hx
        rw [hself] at hlt
        obtain ⟨v, hv, hname, hloser⟩ := hspec.displaced name p heq hlt
        refine ⟨v, List.mem_append_right _ ?_, hname, hloser⟩
        refine List.mem_map_of_mem (List.mem_filter.2 ⟨hv, ?_⟩)
        rw [hloser]
        exact Pid.isLocalTo_iff.2 hnode
      · rw [held_mergeAt, if_neg hx, heq] at hlt
        exact absurd hlt (lt_irrefl _)

/-- Kills and answers are only recorded. -/
theorem recorded (h : SyncInv init s) (killed : List (EndpointId × Verdict))
    (answers : List LookupAnswer) :
    SyncInv init { s with killed := killed, answers := answers } :=
  ⟨h.self, h.minimum, h.verdicts, h.kills, h.displaced⟩

/-- A job keeps the invariant. -/
theorem handle (h : SyncInv init s) {j : SyncJob}
    (hj : ∀ msg ∈ j.messages, msg.Ok init) : SyncInv init (s.handle () j).1 := by
  cases j with
  | begin node peer => exact h.update node fun _ => rfl
  | snapshot node peer => exact h
  | request node peer theirs =>
    simp only [SyncEnv.handle]
    split <;> exact h
  | answer node theirs reply => exact h.update node fun _ => rfl
  | merge node theirs reply => exact h.mergeAt node (hj _ List.mem_cons_self)
  | close node losers reply => exact h.update node fun _ => rfl
  | kill node losers reply =>
    cases losers with
    | nil => exact h
    | cons v rest => exact h.recorded ..
  | reply node theirs => exact h
  | settling node name => exact h
  | peeking node name => exact h.recorded ..

/-- What a job passes on is a minimum. -/
theorem messages_ok (h : SyncInv init s) {j k : SyncJob}
    (hj : ∀ msg ∈ j.messages, msg.Ok init) (hk : k ∈ (s.handle () j).2) :
    ∀ msg ∈ k.messages, msg.Ok init := by
  intro msg hmsg
  rcases (SyncEnv.mem_handle_iff.1 hk).messages hmsg with hold | ⟨e, rfl⟩
  · exact hj msg hold
  · exact h.message_ok e

end SyncInv

namespace NameSync

/-- The invariant of a run. -/
structure Inv (init : EndpointId → GlobalNames) (s : NameSync) : Prop where
  env : SyncInv init s.env
  jobs : ∀ j ∈ s.jobs, ∀ msg ∈ j.messages, msg.Ok init

theorem inv_start (init : EndpointId → GlobalNames) :
    Inv init (start init) :=
  ⟨syncInv_start init, by simp [start]⟩

theorem inv_step {s t : NameSync} {a : SyncAction} (h : Inv init s)
    (hstep : step s a = some t) : Inv init t := by
  have hadd : ∀ {j : SyncJob}, j.messages = [] →
      Inv init { s with jobs := s.jobs ++ [j] } := by
    intro j hj
    refine ⟨h.env, fun x hx msg hmsg => ?_⟩
    rcases List.mem_append.1 hx with hx | hx
    · exact h.jobs x hx msg hmsg
    · rw [List.mem_singleton.1 hx, hj] at hmsg
      cases hmsg
  cases a with
  | sync node peer =>
    cases hstep
    exact hadd rfl
  | lookup node name =>
    cases hstep
    exact hadd rfl
  | work i =>
    obtain ⟨j, hj, rfl⟩ := Pool.work_cases hstep
    have hjob := h.jobs j (List.mem_of_getElem? hj)
    refine ⟨h.env.handle hjob, fun x hx => ?_⟩
    rcases Pool.mem_before_or_new hx with hx | hx
    · exact h.jobs x hx
    · exact h.env.messages_ok hjob hx
  | fail i =>
    obtain ⟨j, -, hfail⟩ := Option.bind_eq_some_iff.1 hstep
    obtain ⟨close, hclose, rfl⟩ := Option.map_eq_some_iff.1 hfail
    have hnone : close.messages = [] := by
      cases j <;> cases hclose <;> rfl
    refine ⟨h.env, fun x hx msg hmsg => ?_⟩
    rcases Pool.mem_before_or_new hx with hx | hx
    · exact h.jobs x hx msg hmsg
    · rw [List.mem_singleton.1 hx, hnone] at hmsg
      cases hmsg

end NameSync

/-! ## Kill lists -/

/-- The losers that are still to be killed. -/
def SyncJob.killList : SyncJob → List (EndpointId × Verdict)
  | .close node losers _ | .kill node losers _ => losers.map fun v => (node, v)
  | _ => []

namespace NameSync

/-- What was put on a kill list was killed, or is still on the list. -/
def ListsCarriedOut (s : NameSync) : Prop :=
  ∀ k, k ∈ s.env.kills ↔
    k ∈ s.env.killed ∨ ∃ j ∈ s.jobs, k ∈ j.killList

/-- Only a merge puts losers on a list, and the job that comes of it has
them. -/
theorem kills_handle (s : SyncEnv) (j : SyncJob) (k : EndpointId × Verdict) :
    k ∈ (s.handle () j).1.kills ↔ k ∈ s.kills ∨
      ∃ node theirs back, j = .merge node theirs back ∧
        ∃ v ∈ GlobalNames.losers node
          ((s.node node).merge theirs.names).2, (node, v) = k := by
  cases j with
  | merge node theirs back =>
    simp only [SyncEnv.handle, SyncEnv.mergeAt, List.mem_append, List.mem_map]
    refine or_congr_right ⟨fun h => ⟨node, theirs, back, rfl, h⟩, ?_⟩
    rintro ⟨_, _, _, heq, h⟩
    cases heq
    exact h
  | kill node losers back => cases losers <;> simp [SyncEnv.handle]
  | request node peer msg =>
    simp only [SyncEnv.handle]
    split <;> simp
  | _ => simp [SyncEnv.handle, SyncEnv.update]

/-- Only the first of a list is killed. -/
theorem killed_handle (s : SyncEnv) (j : SyncJob) (k : EndpointId × Verdict) :
    k ∈ (s.handle () j).1.killed ↔ k ∈ s.killed ∨
      ∃ node v rest back, j = .kill node (v :: rest) back ∧ (node, v) = k := by
  cases j with
  | kill node losers back =>
    cases losers with
    | nil => simp [SyncEnv.handle]
    | cons v rest =>
      simp only [SyncEnv.handle, List.mem_append, List.mem_singleton]
      refine or_congr_right ⟨?_, ?_⟩
      · rintro rfl
        exact ⟨node, v, rest, back, rfl, rfl⟩
      · rintro ⟨_, _, _, _, heq, rfl⟩
        cases heq
        rfl
  | request node peer msg =>
    simp only [SyncEnv.handle]
    split <;> simp
  | _ => simp [SyncEnv.handle, SyncEnv.update, SyncEnv.mergeAt]

/-- Who is on the list of a job was on the list before, or has just got
there. -/
theorem killList_of_causes {s : SyncEnv} {j x : SyncJob} (h : s.Causes j x)
    {k : EndpointId × Verdict} (hk : k ∈ x.killList) :
    k ∈ j.killList ∨ k ∈ (s.handle () j).1.kills := by
  cases h with
  | merge =>
    obtain ⟨v, hv, rfl⟩ := List.mem_map.1 hk
    exact Or.inr ((kills_handle ..).2 (Or.inr ⟨_, _, _, rfl, v, hv, rfl⟩))
  | close => exact Or.inl hk
  | kill => exact Or.inl (List.mem_cons_of_mem _ hk)
  | _ => cases hk

/-- Who is on the list of a job is killed, or stays on the list. -/
theorem killList_handle (s : SyncEnv) {j : SyncJob}
    {k : EndpointId × Verdict} (hk : k ∈ j.killList) :
    k ∈ (s.handle () j).1.killed ∨
      ∃ x ∈ (s.handle () j).2, k ∈ x.killList := by
  cases j with
  | close node losers back =>
    exact Or.inr ⟨_, SyncEnv.mem_handle_iff.2 .close, hk⟩
  | kill node losers back =>
    cases losers with
    | nil => cases hk
    | cons v rest =>
      rcases List.mem_cons.1 hk with rfl | hk
      · exact Or.inl ((killed_handle ..).2 (Or.inr ⟨_, _, _, _, rfl, rfl⟩))
      · exact Or.inr ⟨_, SyncEnv.mem_handle_iff.2 .kill, hk⟩
  | _ => cases hk

theorem lists_step {s t : NameSync} {a : SyncAction} (h : s.ListsCarriedOut)
    (hstep : step s a = some t) : t.ListsCarriedOut := by
  have hadd : ∀ {j : SyncJob}, j.killList = [] →
      ListsCarriedOut { s with jobs := s.jobs ++ [j] } := by
    intro j hj k
    refine (h k).trans (or_congr_right ?_)
    simp [hj, or_and_right, exists_or]
  cases a with
  | sync node peer =>
    cases hstep
    exact hadd rfl
  | lookup node name =>
    cases hstep
    exact hadd rfl
  | work i =>
    obtain ⟨j, hj, rfl⟩ := Pool.work_cases hstep
    intro k
    have hkept : k ∈ s.env.kills → k ∈ (s.env.handle () j).1.kills :=
      fun hk => (kills_handle ..).2 (Or.inl hk)
    constructor
    · intro hk
      rcases (kills_handle ..).1 hk with hold | ⟨_, _, _, rfl, v, hv, rfl⟩
      · rcases (h k).1 hold with hkilled | ⟨x, hx, hkx⟩
        · exact Or.inl ((killed_handle ..).2 (Or.inl hkilled))
        · rcases Pool.mem_kept hj hx _ with hx | rfl
          · exact Or.inr ⟨x, hx, hkx⟩
          · exact (killList_handle _ hkx).imp_right fun ⟨y, hy, hky⟩ =>
              ⟨y, List.mem_append_right _ hy, hky⟩
      · -- The merge hands its losers to the next job.
        refine Or.inr ⟨_, List.mem_append_right _
          (SyncEnv.mem_handle_iff.2 .merge), ?_⟩
        exact List.mem_map_of_mem hv
    · have hj' : k ∈ j.killList → k ∈ (s.env.handle () j).1.kills := fun hkj =>
        hkept ((h k).2 (Or.inr ⟨j, List.mem_of_getElem? hj, hkj⟩))
      rintro (hk | ⟨x, hx, hkx⟩)
      · rcases (killed_handle ..).1 hk with hk | ⟨_, v, rest, _, rfl, rfl⟩
        · exact hkept ((h k).2 (Or.inl hk))
        · exact hj' List.mem_cons_self
      · rcases Pool.mem_before_or_new hx with hx | hx
        · exact hkept ((h k).2 (Or.inr ⟨x, hx, hkx⟩))
        · exact (killList_of_causes (SyncEnv.mem_handle_iff.1 hx) hkx).elim
            hj' id
  | fail i =>
    obtain ⟨j, hj, hfail⟩ := Option.bind_eq_some_iff.1 hstep
    obtain ⟨close, hclose, rfl⟩ := Option.map_eq_some_iff.1 hfail
    have hnone : j.killList = [] ∧ close.killList = [] := by
      cases j <;> cases hclose <;> exact ⟨rfl, rfl⟩
    intro k
    refine (h k).trans (or_congr_right ⟨?_, ?_⟩)
    · rintro ⟨x, hx, hkx⟩
      rcases Pool.mem_kept hj hx [close] with hx | rfl
      · exact ⟨x, hx, hkx⟩
      · rw [hnone.1] at hkx
        cases hkx
    · rintro ⟨x, hx, hkx⟩
      rcases Pool.mem_before_or_new hx with hx | hx
      · exact ⟨x, hx, hkx⟩
      · rw [List.mem_singleton.1 hx, hnone.2] at hkx
        cases hkx

/-! ## Convergence -/

/-- A pid appears under at most one name in the tables at the start. -/
def OneName (init : EndpointId → GlobalNames) : Prop :=
  ∀ e e' name name' p, (init e).names.lookup name = some p →
    (init e').names.lookup name' = some p → name = name'

/-- Where a sequence of exchanges has led. -/
structure Converges (init : EndpointId → GlobalNames) (s : NameSync) :
    Prop where
  /-- A table is the pointwise minimum of the tables that have reached it. -/
  minimum : ∀ e name, held (s.env.node e).names name =
    leastOf init (s.env.sources e) name
  /-- All tables are equal once every table has reached every node. -/
  agree : ∀ nodes : Finset EndpointId, (∀ e ∉ nodes, (init e).names = ∅) →
    (∀ e ∈ nodes, nodes ⊆ s.env.sources e) → ∀ e ∈ nodes, ∀ e' ∈ nodes,
      ∀ name, (s.env.node e).names.lookup name =
        (s.env.node e').names.lookup name
  lists : s.ListsCarriedOut
  /-- Only the home node puts a pid on a kill list, and only if a lower pid has
  reached it. -/
  home : ∀ k ∈ s.env.kills, k.2.loser.node = k.1 ∧
    s.env.Outbid init k.1 k.2.name k.2.loser
  /-- When a lower pid has reached the home node, the pid is on a list. -/
  killed : ∀ e name p, (init e).names.lookup name = some p → p.node = e →
    s.env.Outbid init e name p →
      ∃ v, (e, v) ∈ s.env.kills ∧ v.name = name ∧ v.loser = p
  /-- The lowest pid for a name is on no list. -/
  spared : ∀ name p, (∃ e, (init e).names.lookup name = some p) →
    (∀ e q, (init e).names.lookup name = some q → p ≤ q) →
      ∀ k ∈ s.env.kills, k.2.loser ≠ p

theorem outbid_iff {s : SyncEnv} (h : SyncInv init s) {e : EndpointId}
    {name : String} {p : Pid} :
    s.Outbid init e name p ↔ held (s.node e).names name < p := by
  rw [h.minimum, leastOf, Finset.inf_lt_iff]
  refine exists_congr fun y => and_congr_right fun _ => ?_
  unfold held
  cases (init y).names.lookup name with
  | none => simp
  | some q => exact (by simp : _ ↔ q < p).trans WithTop.coe_lt_coe.symm

/-- Nodes outside the cluster have nothing to tell. -/
theorem leastOf_eq {nodes sources : Finset EndpointId}
    (hempty : ∀ e ∉ nodes, (init e).names = ∅) (hsub : nodes ⊆ sources)
    (name : String) : leastOf init sources name = leastOf init nodes name := by
  refine (Finset.inf_mono hsub).antisymm (Finset.le_inf fun y _ => ?_)
  by_cases hy : y ∈ nodes
  · exact Finset.inf_le hy
  · rw [hempty y hy]
    exact le_top

/-- Exchanged tables converge to the pointwise minimum, whatever the order of
the exchanges, and exactly the losers are killed at home. -/
theorem sync_converges (init : EndpointId → GlobalNames) (hone : OneName init)
    {s : NameSync} (hrun : Run step anyStep (start init) s) :
    Converges init s := by
  have hinv : Inv init s :=
    hrun.invariant (fun h _ hstep => inv_step h hstep) (inv_start init)
  have hlists : s.ListsCarriedOut := by
    refine hrun.invariant (fun h _ hstep => lists_step h hstep) fun k => ?_
    simp [start, SyncEnv.start]
  have hhome : ∀ k ∈ s.env.kills, k.2.loser.node = k.1 ∧
      s.env.Outbid init k.1 k.2.name k.2.loser := fun k hk =>
    ⟨(hinv.env.kills k hk).2.1,
      (outbid_iff hinv.env).2 (hinv.env.kills k hk).2.2⟩
  refine ⟨hinv.env.minimum, ?_, hlists, hhome, ?_, ?_⟩
  · intro nodes hempty hall e he e' he' name
    have hequal : held (s.env.node e).names name =
        held (s.env.node e').names name := by
      rw [hinv.env.minimum, hinv.env.minimum, leastOf_eq hempty (hall e he),
        leastOf_eq hempty (hall e' he')]
    exact held_inj.1 hequal
  · intro e name p hp hnode hlow
    exact hinv.env.displaced e name p (held_eq_coe.2 hp) hnode
      ((outbid_iff hinv.env).1 hlow)
  · rintro name p ⟨e, hp⟩ hleast k hk rfl
    obtain ⟨y, hy⟩ :=
      hinv.env.verdicts k.2 (hinv.env.kills k hk).1
    obtain rfl := hone e y name k.2.name _ hp (held_eq_coe.1 hy)
    obtain ⟨z, -, q, hq, hlt⟩ := (hhome k hk).2
    exact absurd (hleast z q hq) (not_le.2 hlt)

/-- Nodes 1 and 2 bind a name each to a particle of their own. -/
def twoTables (e : EndpointId) : GlobalNames :=
  if e = ⟨1⟩ ∨ e = ⟨2⟩ then (GlobalNames.new e).commit "svc" ⟨e, 1⟩ else .new e

theorem twoTables_oneName : OneName twoTables := by
  have hname : ∀ e name p, (twoTables e).names.lookup name = some p →
      name = "svc" := by
    intro e name p h
    unfold twoTables at h
    split at h
    · by_contra hne
      rw [show ((GlobalNames.new e).commit "svc" ⟨e, 1⟩).names.lookup name =
        (GlobalNames.new e).names.lookup name from
          AList.lookup_insert_ne hne] at h
      cases h
    · cases h
  intro e e' name name' p h h'
  rw [hname e name p h, hname e' name' p h']

/-- Node 1 syncs with node 2, and the particle of node 2 is killed. -/
theorem sync_converges_twoTables :
    ∃ s, Run step anyStep (start twoTables) s ∧
      (s.jobs.length = 0 ∧
        s.env.killed = [(⟨2⟩, ⟨"svc", ⟨⟨2⟩, 1⟩, ⟨⟨1⟩, 1⟩⟩)]) ∧
      Converges twoTables s := by
  have hrun : ∃ s, Run step anyStep (start twoTables) s ∧ (s.jobs.length = 0 ∧
      s.env.killed = [(⟨2⟩, ⟨"svc", ⟨⟨2⟩, 1⟩, ⟨⟨1⟩, 1⟩⟩)]) :=
    exec_run_of_any [.sync ⟨1⟩ ⟨2⟩, .work 0, .work 0, .work 0, .work 0, .work 0,
      .work 0, .work 0, .work 0, .work 0, .work 0, .work 0, .work 0]
      (by decide)
  obtain ⟨s, hrun, hend⟩ := hrun
  exact ⟨s, hrun, hend, sync_converges twoTables twoTables_oneName hrun⟩

/-! ## Lookups -/

/-- No lookup returned a particle that a conflict over the name had
condemned. -/
def LookupsSpare (s : NameSync) : Prop :=
  ∀ a ∈ s.env.answers, ∀ p ∈ a.result, p ∉ a.condemned

/-- When a lookup reads the table, a lower pid has reached the node for every
loser of the name that has reached it. -/
def OutbidHere (init : EndpointId → GlobalNames) (s : SyncEnv) :
    SyncJob → Prop
  | .peeking node name => ∀ p ∈ s.condemned name,
      s.Reached init node name p → s.Outbid init node name p
  | _ => True

instance (init : EndpointId → GlobalNames) (s : SyncEnv) :
    DecidablePred (OutbidHere init s)
  | .peeking node name => inferInstanceAs (Decidable (∀ p ∈ s.condemned name,
      s.Reached init node name p → s.Outbid init node name p))
  | .begin .. | .snapshot .. | .request .. | .answer .. | .merge ..
  | .close .. | .kill .. | .reply .. | .settling .. => isTrue trivial

def InTime (init : EndpointId → GlobalNames) (s : NameSync) :
    SyncAction → Prop
  | .work i => ∀ j ∈ s.jobs[i]?, OutbidHere init s.env j
  | _ => True

instance (init : EndpointId → GlobalNames) (s : NameSync) :
    DecidablePred (InTime init s)
  | .work i =>
    inferInstanceAs (Decidable (∀ j ∈ s.jobs[i]?, OutbidHere init s.env j))
  | .sync .. | .lookup .. | .fail .. => isTrue trivial

theorem reached_of_held {s : SyncEnv} (h : SyncInv init s) {e : EndpointId}
    {name : String} {p : Pid} (hp : held (s.node e).names name = p) :
    s.Reached init e name p := by
  rw [h.minimum] at hp
  obtain ⟨y, hy, hyp⟩ := exists_of_leastOf hp
  exact ⟨y, hy, held_eq_coe.1 hyp⟩

/-- What a lookup reads is condemned exactly if the condition fails. -/
theorem peek_right_iff {s : SyncEnv} (h : SyncInv init s) (node : EndpointId)
    (name : String) : (∀ p ∈ (s.node node).peek name, p ∉ s.condemned name) ↔
      OutbidHere init s (.peeking node name) := by
  constructor
  · intro hright p hp hreached
    obtain ⟨y, hy, hyp⟩ := hreached
    have hle : held (s.node node).names name ≤ p := by
      rw [h.minimum, ← held_eq_coe.2 hyp]
      exact Finset.inf_le hy
    refine (outbid_iff h).2 (hle.lt_of_ne fun heq => ?_)
    exact hright p (held_eq_coe.1 heq) hp
  · intro hbeaten p hp hcondemned
    have hheld : held (s.node node).names name = p := held_eq_coe.2 hp
    have hlow := hbeaten p hcondemned (reached_of_held h hheld)
    rw [outbid_iff h, hheld] at hlow
    exact lt_irrefl _ hlow

/-- A job other than the read of a lookup answers nobody. -/
theorem answers_handle (s : SyncEnv) {j : SyncJob}
    (h : ∀ node name, j ≠ .peeking node name) :
    (s.handle () j).1.answers = s.answers := by
  cases j with
  | peeking node name => exact absurd rfl (h node name)
  | kill node losers r => cases losers <;> rfl
  | request node peer msg =>
    simp only [SyncEnv.handle]
    split <;> rfl
  | begin node peer => rfl
  | snapshot node peer => rfl
  | answer node theirs r => rfl
  | merge node theirs r => rfl
  | close node losers r => rfl
  | reply node msg => rfl
  | settling node name => rfl

/-- Lookups stay right by a step exactly if it is in time. -/
theorem lookups_step_iff {s t : NameSync} {a : SyncAction} (h : Inv init s)
    (hright : s.LookupsSpare) (hstep : step s a = some t) :
    t.LookupsSpare ↔ InTime init s a := by
  cases a with
  | sync node peer =>
    cases hstep
    exact iff_of_true hright trivial
  | lookup node name =>
    cases hstep
    exact iff_of_true hright trivial
  | work i =>
    obtain ⟨j, hj, rfl⟩ := Pool.work_cases hstep
    have hcondition : InTime init s (.work i) ↔ OutbidHere init s.env j :=
      ⟨fun hall => hall j hj, fun hone x hx => by
        cases hj.symm.trans hx
        exact hone⟩
    rw [hcondition]
    by_cases hpeek : ∃ node name, j = .peeking node name
    · obtain ⟨node, name, rfl⟩ := hpeek
      rw [← peek_right_iff h.env]
      constructor
      · intro hall
        exact hall _ (List.mem_append_right _ (List.mem_singleton_self _))
      · intro hpeek a ha
        rcases List.mem_append.1 ha with ha | ha
        · exact hright a ha
        · rw [List.mem_singleton.1 ha]
          exact hpeek
    · push Not at hpeek
      have htrue : OutbidHere init s.env j := by
        cases j <;> first | trivial | exact absurd rfl (hpeek _ _)
      refine iff_of_true (fun a ha => hright a ?_) htrue
      rw [show (s.env.handle () j).1.answers = s.env.answers from
        answers_handle _ hpeek] at ha
      exact ha
  | fail i =>
    obtain ⟨j, -, hfail⟩ := Option.bind_eq_some_iff.1 hstep
    obtain ⟨close, -, rfl⟩ := Option.map_eq_some_iff.1 hfail
    exact iff_of_true hright trivial

/-- Lookups name no condemned particle while every read is in time.  The first
that is not does. -/
theorem lookups_spare (init : EndpointId → GlobalNames) (s : NameSync)
    (hrun : Run step (InTime init) (start init) s) :
    s.LookupsSpare ∧
      ∀ a t, step s a = some t → (t.LookupsSpare ↔ InTime init s a) := by
  have hstart : Inv init (start init) ∧ (start init).LookupsSpare :=
    ⟨inv_start init, fun a ha => by cases ha⟩
  have hinv : Inv init s ∧ s.LookupsSpare := by
    refine @Run.invariant _ _ _ _ _ _
      (fun s => Inv init s ∧ s.LookupsSpare) ?_ hrun hstart
    intro s t a hs hgood hstep
    exact ⟨inv_step hs.1 hstep, (lookups_step_iff hs.1 hs.2 hstep).2 hgood⟩
  exact ⟨hinv.2, fun a t hstep => lookups_step_iff hinv.1 hinv.2 hstep⟩

/-- Node 3 has the table of node 2. -/
def threeTables (e : EndpointId) : GlobalNames :=
  if e = ⟨3⟩ then (GlobalNames.new e).commit "svc" ⟨⟨2⟩, 1⟩ else twoTables e

/-- A lookup on node 2 waits for the merge and names the winner. -/
theorem lookups_spare_waiting :
    ∃ s, Run step (InTime threeTables) (start threeTables) s ∧
      (s.env.answers.map LookupAnswer.result = [some ⟨⟨1⟩, 1⟩] ∧
        s.env.condemned "svc" ≠ []) ∧ s.LookupsSpare := by
  have hrun : ∃ s, Run step (InTime threeTables) (start threeTables) s ∧
      (s.env.answers.map LookupAnswer.result = [some ⟨⟨1⟩, 1⟩] ∧
        s.env.condemned "svc" ≠ []) :=
    exec_run_of_any [.sync ⟨1⟩ ⟨2⟩, .work 0, .work 0, .work 0, .work 0,
      .lookup ⟨2⟩ "svc", .work 0, .work 1, .work 0, .work 1] (by decide)
  obtain ⟨s, hrun, hend⟩ := hrun
  exact ⟨s, hrun, hend, (lookups_spare threeTables s hrun).1⟩

/-- Nodes 1 and 2 have settled their conflict, and node 3 still names the
loser. -/
theorem lookup_names_loser :
    ¬ ∀ (init : EndpointId → GlobalNames) (s : NameSync),
      Run step anyStep (start init) s → s.LookupsSpare := by
  intro hall
  have hrun : ∃ s, Run step anyStep (start threeTables) s ∧
      ∃ a ∈ s.env.answers, a.result = some ⟨⟨2⟩, 1⟩ ∧
        (⟨⟨2⟩, 1⟩ : Pid) ∈ a.condemned :=
    exec_run_of_any [.sync ⟨1⟩ ⟨2⟩, .work 0, .work 0, .work 0, .work 0,
      .work 0, .lookup ⟨3⟩ "svc", .work 1, .work 1] (by decide)
  obtain ⟨s, hrun, a, ha, hresult, hcondemned⟩ := hrun
  exact hall threeTables s hrun a ha _ hresult hcondemned

end NameSync

end Plasmoid
