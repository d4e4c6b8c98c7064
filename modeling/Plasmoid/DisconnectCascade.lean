import Plasmoid.ReportsFlood

/-!
# When a deliberate disconnect settles

A node that is asked to disconnect quarantines the node that asks, asks it to
disconnect in turn, and does so whether or not it has disconnected from it
before.  So two running nodes that disconnect from each other never stop asking
(`Dooms`).  Reports alone settle, for every node acts on a report once.
-/

namespace Plasmoid

open Machine

namespace LossFlood

variable {nodes : Finset EndpointId} {last : Nat}

/-- A job is done at a node that runs, and not after the last instant. -/
def cascade (nodes : Finset EndpointId) (last : Nat) (s : LossFlood)
    (a : Nat × Nat) : Option LossFlood :=
  if s.env.clock ≤ a.2 ∧ a.2 ≤ last ∧ ∀ j ∈ s.jobs[a.1]?, j.node ∈ nodes then
    s.work LossEnv.handle a.1 a.2
  else none

/-- One message is on its way. -/
def single (env : LossEnv) (j : LossJob) : LossFlood := ⟨env, [j]⟩

/-- The last instant of a quarantine that starts now. -/
def windowEnd (env : LossEnv) : Nat := env.clock + (quarantinePeriod - 1)

end LossFlood

namespace LossEnv

/-- The report is seen at an instant. -/
def Saw (s : LossEnv) (time : Nat) (e : EndpointId) (r : LossReport) : Prop :=
  (s.node e).partitions.Seen time r.pair r.op

instance (s : LossEnv) (time : Nat) (e : EndpointId) (r : LossReport) :
    Decidable (s.Saw time e r) :=
  inferInstanceAs (Decidable ((s.node e).partitions.Seen time r.pair r.op))

/-- Two running nodes disconnect from each other. -/
def Quarrel (nodes : Finset EndpointId) (x y : EndpointId) : Prop :=
  x ∈ nodes ∧ y ∈ nodes ∧ y ≠ x

instance (nodes : Finset EndpointId) (x y : EndpointId) :
    Decidable (Quarrel nodes x y) :=
  inferInstanceAs (Decidable (_ ∧ _ ∧ _))

/-- A node that passes a report on will disconnect from a running node, or one
of the members that it tells will disconnect from the node reported lost. -/
def FloodDooms (nodes : Finset EndpointId) (last : Nat) (s : LossEnv)
    (x : EndpointId) (r : LossReport) : Prop :=
  Quarrel nodes x (target x r) ∨
    ∃ m ∈ (s.node x).cluster.members.toList,
      (m ≠ r.reporter ∧ m ≠ r.lost) ∧ ¬ s.Saw last m r ∧ Quarrel nodes m r.lost

instance (nodes : Finset EndpointId) (last : Nat) (s : LossEnv)
    (x : EndpointId) (r : LossReport) :
    Decidable (FloodDooms nodes last s x r) :=
  inferInstanceAs (Decidable (_ ∨ ∃ m ∈ _, _))

/-- The job makes two running nodes disconnect from each other. -/
def Dooms (nodes : Finset EndpointId) (last : Nat) (s : LossEnv) :
    LossJob → Prop
  | .removeConnection x y | .disconnect x y => Quarrel nodes x y
  | .flood x r => FloodDooms nodes last s x r
  | .lostConnection x r => ¬ s.Saw last x r ∧ FloodDooms nodes last s x r
  | .reportLoss .. | .forget .. => False

instance (nodes : Finset EndpointId) (last : Nat) (s : LossEnv) :
    DecidablePred (Dooms nodes last s)
  | .removeConnection x y | .disconnect x y =>
    inferInstanceAs (Decidable (Quarrel nodes x y))
  | .flood x r => inferInstanceAs (Decidable (FloodDooms nodes last s x r))
  | .lostConnection x r =>
    inferInstanceAs (Decidable (¬ s.Saw last x r ∧ _))
  | .reportLoss .. | .forget .. => isFalse id

end LossEnv

namespace LossFlood

variable {nodes : Finset EndpointId} {last : Nat}

open LossEnv

/-! ## Doomed for ever -/

/-- Some job makes two running nodes disconnect from each other. -/
def Doomed (nodes : Finset EndpointId) (last : Nat) (s : LossFlood) : Prop :=
  s.env.clock ≤ last ∧
    ∃ j ∈ s.jobs, j.node ∈ nodes ∧ Dooms nodes last s.env j

/-- A pending job can be done at the last instant. -/
theorem cascade_of_mem {s : LossFlood} {j : LossJob} (hclock : s.env.clock ≤ last)
    (hj : j ∈ s.jobs) (hnode : j.node ∈ nodes) :
    ∃ a t, cascade nodes last s a = some t ∧
      t.env = (s.env.handle last j).1 ∧
      ∀ x ∈ (s.env.handle last j).2, x ∈ t.jobs := by
  obtain ⟨i, hi⟩ := List.getElem?_of_mem hj
  refine ⟨(i, last), s.done i last j, ?_, rfl, fun x => mem_done_of_new⟩
  have hok : s.env.clock ≤ last ∧ last ≤ last ∧
      ∀ x ∈ s.jobs[i]?, x.node ∈ nodes := by
    refine ⟨hclock, le_rfl, fun x hx => ?_⟩
    cases hi.symm.trans hx
    exact hnode
  unfold cascade
  rw [if_pos hok]
  simp [Pool.work, hi, done]

/-- A request to disconnect is what comes of it. -/
theorem disconnects_quarrel {s : LossEnv} {x y : EndpointId}
    (h : Quarrel nodes x y) : .removeConnection y x ∈
      (s.disconnectDeliberately x y).2 ∧ Quarrel nodes y x := by
  refine ⟨List.mem_append_left _ ?_, h.2.1, h.1, h.2.2.symm⟩
  rw [if_neg h.2.2]
  exact List.mem_singleton_self _

/-- What a doomed node does dooms it or another one. -/
theorem doomed_next {s : LossFlood} (h : Doomed nodes last s) :
    ∃ a t, cascade nodes last s a = some t ∧ Doomed nodes last t := by
  obtain ⟨hclock, j, hj, hnode, hdooms⟩ := h
  obtain ⟨a, t, hnext, henv, hjobs⟩ := cascade_of_mem hclock hj hnode
  have hlast : t.env.clock ≤ last := by
    rw [henv]
    exact (clock_doJob _ j).le
  refine ⟨a, t, hnext, hlast, ?_⟩
  cases j with
  | removeConnection x y =>
    obtain ⟨hmem, hquarrel⟩ := disconnects_quarrel
      (s := { s.env with clock := last }) hdooms
    exact ⟨_, hjobs _ hmem, hquarrel.1, hquarrel⟩
  | disconnect x y =>
    obtain ⟨hmem, hquarrel⟩ := disconnects_quarrel
      (s := { s.env with clock := last }) hdooms
    exact ⟨_, hjobs _ hmem, hquarrel.1, hquarrel⟩
  | flood x r =>
    rcases hdooms with hquarrel | ⟨m, hm, hne, hnew, hquarrel⟩
    · refine ⟨.disconnect x (target x r), hjobs _ ?_, hnode, hquarrel⟩
      refine List.mem_append_right _ ?_
      rw [if_neg hquarrel.2.2]
      exact List.mem_singleton_self _
    · refine ⟨.lostConnection m r, hjobs _ ?_, hquarrel.1, ?_, Or.inl ?_⟩
      · refine List.mem_append_left _ (List.mem_map_of_mem ?_)
        exact List.mem_filter.2 ⟨hm, by simpa using hne⟩
      · rw [henv]
        exact hnew
      · rw [target, if_neg hne.2.symm]
        exact hquarrel
  | lostConnection x r =>
    obtain ⟨hnew, hdooms⟩ := hdooms
    have hflood : (s.env.handle last (.lostConnection x r)).2 = [.flood x r] :=
      (deliver_new (s := { s.env with clock := last }) hnew).2.1
    refine ⟨.flood x r, hjobs _ ?_, hnode, ?_⟩
    · rw [hflood]
      exact List.mem_singleton_self _
    · refine hdooms.imp_right ?_
      rintro ⟨m, hm, hne, hnew, hquarrel⟩
      refine ⟨m, ?_, hne, ?_, hquarrel⟩
      · rw [henv]
        refine (mem_members_doJob ..).2 ⟨hm, ?_⟩
        rintro ⟨-, hdrops⟩
        cases hdrops
      · -- A node is not a member of its own cluster.
        have hmx : m ≠ x := by
          rintro rfl
          exact (s.env.node m).cluster.me_not_mem hm
        have hsame : t.env.node m = s.env.node m := by
          rw [henv]
          exact node_deliver _ hmx
        rw [Saw, hsame]
        exact hnew
  | reportLoss x y => cases hdooms
  | forget x y => cases hdooms

/-- Doomed nodes disconnect for ever. -/
theorem doomed_for_ever {s : LossFlood} (h : Doomed nodes last s) :
    ∃ r : InfiniteRun (cascade nodes last), r.state 0 = s :=
  InfiniteRun.exists_of_progress (fun _ => doomed_next) h

theorem doomed_single {env : LossEnv} {j : LossJob} (hnode : j.node ∈ nodes)
    (h : Dooms nodes (windowEnd env) env j) :
    Doomed nodes (windowEnd env) (single env j) :=
  ⟨Nat.le_add_right .., j, List.mem_singleton_self j, hnode, h⟩

end LossFlood

/-! ## Settling -/

/-- The node is barred until after an instant. -/
def Cluster.Barred {me : EndpointId} (c : Cluster me) (last : Nat)
    (x : EndpointId) : Prop :=
  ∃ deadline, c.quarantined.lookup x = some deadline ∧ last < deadline

namespace LossEnv

variable {nodes : Finset EndpointId} {last : Nat} {s s' : LossEnv}
variable {j x : LossJob}

/-- Members go, and what was seen or barred stays so. -/
structure Later (last : Nat) (s s' : LossEnv) : Prop where
  members : ∀ e x, x ∈ (s'.node e).cluster.members →
    x ∈ (s.node e).cluster.members
  saw : ∀ e r, s.Saw last e r → s'.Saw last e r
  barred : ∀ e x, (s.node e).cluster.Barred last x →
    (s'.node e).cluster.Barred last x

/-- What is seen until the last instant is seen after another report too. -/
theorem saw_accept {p : Partitions} {now last : Nat}
    {pair : EndpointId × EndpointId} {op : UInt64} (r : LossReport)
    (hnow : now ≤ last) (hlast : last < now + quarantinePeriod)
    (h : p.Seen last pair op) :
    (p.accept now r.reporter r.lost r.op).1.Seen last pair op := by
  obtain ⟨entry, hentry, hkept, hop⟩ := h
  have hkept' : Partitions.retained now entry = true := by
    have := of_decide_eq_true hkept
    refine decide_eq_true ?_
    omega
  have hlookup := p.lookup_accept now r.reporter r.lost r.op pair
  by_cases hnew : pair = (r.reporter, r.lost) ∧
      ¬ p.Seen now (r.reporter, r.lost) r.op
  · rw [if_pos hnew] at hlookup
    refine ⟨(r.op, now), hlookup, decide_eq_true ?_, ?_⟩
    · simp only [quarantinePeriod, seenRetention] at hlast ⊢
      omega
    · obtain ⟨rfl, hnot⟩ := hnew
      have hlater : ¬ r.op ≤ entry.1 := fun hle =>
        hnot ⟨entry, hentry, hkept', hle⟩
      exact UInt64.le_trans hop (UInt64.le_of_lt (UInt64.not_le.1 hlater))
  · rw [if_neg hnew, hentry] at hlookup
    refine ⟨entry, ?_, hkept, hop⟩
    rw [hlookup]
    simp [Option.filter, hkept']

theorem barred_quarantine {me : EndpointId} {c : Cluster me} {now last : Nat}
    {x y : EndpointId} (hlast : last < now + quarantinePeriod)
    (h : x = y ∨ c.Barred last x) : (c.quarantine now y).Barred last x := by
  by_cases hxy : x = y
  · subst hxy
    exact ⟨_, AList.lookup_insert _, hlast⟩
  · obtain ⟨deadline, hlookup, hlt⟩ := h.resolve_left hxy
    exact ⟨deadline, (AList.lookup_insert_ne hxy).trans hlookup, hlt⟩

/-- A job within the window goes on from there. -/
theorem later_doJob (hnow : s.clock ≤ last)
    (hlast : last < s.clock + quarantinePeriod)
    (hbarred : ∀ e x, j = .reportLoss e x →
      (s.node e).cluster.Barred last x) : Later last s (s.doJob j).1 := by
  refine ⟨fun e x hx => ((mem_members_doJob ..).1 hx).1, fun e r hsaw => ?_,
    fun e x hx => ?_⟩
  · by_cases harrives : ∃ r', j = .lostConnection e r'
    · obtain ⟨r', rfl⟩ := harrives
      have hnode : ((s.doJob (.lostConnection e r')).1.node e) =
          ((s.node e).accept s.clock r').1 := Function.update_self ..
      rw [Saw, hnode]
      exact saw_accept r' hnow hlast hsaw
    · push Not at harrives
      rw [Saw, Partitions.Seen, seen_doJob s j e harrives]
      exact hsaw
  · have hset : ∀ {node : EndpointId} (n : LossNode node),
        (∀ x, (s.node node).cluster.Barred last x →
          n.cluster.Barred last x) →
        ((s.setNode n).node e).cluster.Barred last x := by
      intro node n hn
      by_cases h : e = node
      · subst h
        rw [node_setNode_self]
        exact hn x hx
      · rw [node_setNode_of_ne s h]
        exact hx
    cases j with
    | lostConnection node r =>
      exact hset ((s.node node).accept s.clock r).1 fun _ h => h
    | flood node r => exact hx
    | disconnect node y =>
      exact hset _ fun _ h => barred_quarantine hlast (Or.inr h)
    | removeConnection node y =>
      exact hset _ fun _ h => barred_quarantine hlast (Or.inr h)
    | reportLoss node y =>
      obtain ⟨deadline, hlookup, hlt⟩ := hbarred node y rfl
      have hquarantined :
          (s.node node).cluster.isQuarantined s.clock y = true :=
        Cluster.isQuarantined_iff.2 ⟨deadline, hlookup, by omega⟩
      simp only [doJob, if_pos hquarantined]
      exact hx
    | forget node y => exact hset _ fun _ h => h

/-- Nothing becomes doomed later. -/
theorem Dooms.earlier (h : Later last s s') (hj : Dooms nodes last s' j) :
    Dooms nodes last s j := by
  have hflood : ∀ x r, FloodDooms nodes last s' x r →
      FloodDooms nodes last s x r := by
    intro x r hx
    refine hx.imp_right ?_
    rintro ⟨m, hm, hne, hnew, hquarrel⟩
    exact ⟨m, h.members x m hm, hne, mt (h.saw m r) hnew, hquarrel⟩
  cases j with
  | lostConnection x r => exact ⟨mt (h.saw x r) hj.1, hflood x r hj.2⟩
  | flood x r => exact hflood x r hj
  | removeConnection x y => exact hj
  | disconnect x y => exact hj
  | reportLoss x y => exact hj
  | forget x y => exact hj

/-- What a job causes dooms only if the job did. -/
theorem dooms_of_caused (hnow : s.clock ≤ last)
    (hbarred : ∀ e y, j = .reportLoss e y →
      (s.node e).cluster.isQuarantined s.clock y = true)
    (hx : x ∈ (s.doJob j).2) (hnode : x.node ∈ nodes)
    (hdooms : Dooms nodes last s x) : Dooms nodes last s j := by
  cases causes_doJob hx with
  | flood hnew => exact ⟨LossFlood.not_seen_later hnow hnew, hdooms⟩
  | passOn hm hne =>
    obtain ⟨hnew, hdooms⟩ := hdooms
    refine Or.inr ⟨_, hm, hne, hnew, hnode, ?_, hne.2.symm⟩
    rcases hdooms with hquarrel | ⟨m', -, -, -, hquarrel⟩
    · rw [target, if_neg hne.2.symm] at hquarrel
      exact hquarrel.2.1
    · exact hquarrel.2.1
  | act hne => exact Or.inl hdooms
  | ask hj hne =>
    -- Who is asked to disconnect was going to be disconnected from.
    have hquarrel : Quarrel nodes _ _ := ⟨hdooms.2.1, hdooms.1, hne⟩
    rcases hj with rfl | rfl <;> exact hquarrel
  | report hfree =>
    rw [hbarred _ _ rfl] at hfree
    cases hfree
  | lose hj => cases hdooms
  | leave hj => cases hdooms

/-- Whose loss is announced is barred. -/
theorem barred_of_caused {e y : EndpointId}
    (hlast : last < s.clock + quarantinePeriod)
    (hx : .reportLoss e y ∈ (s.doJob j).2) :
    ((s.doJob j).1.node e).cluster.Barred last y := by
  cases causes_doJob hx with
  | lose hj =>
    rw [doJob_of_quits hj]
    have hnode : ((s.disconnectDeliberately e y).1.node e).cluster =
        (s.node e).cluster.quarantine s.clock y :=
      congrArg LossNode.cluster (node_setNode_self ..)
    rw [hnode]
    exact barred_quarantine hlast (Or.inl rfl)

end LossEnv

namespace LossFlood

open LossEnv

variable {nodes : Finset EndpointId} {last : Nat}

/-- No job dooms anybody.  `start` is the instant at which the window opens. -/
structure Settles (nodes : Finset EndpointId) (start last : Nat)
    (report : LossReport) (s : LossFlood) : Prop where
  clock : start ≤ s.env.clock
  calm : ∀ j ∈ s.jobs, j.node ∈ nodes → ¬ Dooms nodes last s.env j
  reports : ∀ e r, .lostConnection e r ∈ s.jobs ∨ .flood e r ∈ s.jobs →
    r = report
  barred : ∀ e x, .reportLoss e x ∈ s.jobs →
    (s.env.node e).cluster.Barred last x

theorem cascade_cases {s t : LossFlood} {a : Nat × Nat}
    (h : cascade nodes last s a = some t) :
    ∃ j, s.jobs[a.1]? = some j ∧ s.env.clock ≤ a.2 ∧ a.2 ≤ last ∧
      j.node ∈ nodes ∧ t = s.done a.1 a.2 j := by
  unfold cascade at h
  split at h
  · rename_i hok
    obtain ⟨j, hj, rfl⟩ := Pool.work_cases h
    exact ⟨j, hj, hok.1, hok.2.1, hok.2.2 j hj, rfl⟩
  · cases h

section Settling

variable {start : Nat} {report : LossReport} {s t : LossFlood} {a : Nat × Nat}
variable {i now : Nat} {j : LossJob}

/-- What a job of a settling cluster does. -/
theorem Settles.later (h : Settles nodes start last report s)
    (hlast : last < start + quarantinePeriod) (hj : j ∈ s.jobs)
    (hclock : s.env.clock ≤ now) (hnow : now ≤ last) :
    Later last s.env (s.env.handle now j).1 := by
  have hopen : last < now + quarantinePeriod := by
    have := h.clock
    omega
  have hlater : Later last { s.env with clock := now }
      (s.env.handle now j).1 := by
    refine later_doJob hnow hopen fun e x heq => ?_
    subst heq
    exact h.barred e x hj
  exact ⟨hlater.members, hlater.saw, hlater.barred⟩

/-- A loss that is announced within the window is not reported. -/
theorem Settles.quarantined (h : Settles nodes start last report s)
    (hj : j ∈ s.jobs) (hnow : now ≤ last) {e y : EndpointId}
    (heq : j = .reportLoss e y) :
    (s.env.node e).cluster.isQuarantined now y = true := by
  subst heq
  obtain ⟨deadline, hlookup, hlt⟩ := h.barred e y hj
  exact Cluster.isQuarantined_iff.2 ⟨deadline, hlookup, by omega⟩

theorem settles_step (hlast : last < start + quarantinePeriod)
    (h : Settles nodes start last report s)
    (hstep : cascade nodes last s a = some t) :
    Settles nodes start last report t := by
  obtain ⟨j, hj, hclock, hnow, hnode, rfl⟩ := cascade_cases hstep
  have hmem := List.mem_of_getElem? hj
  have hlater := h.later hlast hmem hclock hnow
  have hopen : last < a.2 + quarantinePeriod := by
    have := h.clock
    omega
  refine ⟨?_, fun x hx hxnode hdooms => ?_, fun e r hr => ?_, fun e y hy => ?_⟩
  · rw [show (s.done a.1 a.2 j).env.clock = a.2 from clock_doJob _ j]
    exact h.clock.trans hclock
  · have hearlier : Dooms nodes last s.env x := hdooms.earlier hlater
    rcases Pool.mem_before_or_new hx with hx | hx
    · exact h.calm x hx hxnode hearlier
    · refine h.calm j hmem hnode ?_
      exact dooms_of_caused (s := { s.env with clock := a.2 }) hnow
        (fun e y heq => h.quarantined hmem hnow heq) hx hxnode hearlier
  · rcases hr with hr | hr
    · rcases Pool.mem_before_or_new hr with hr | hr
      · exact h.reports e r (Or.inl hr)
      · rcases lostConnection_doJob hr with ⟨node, rfl⟩ |
          ⟨node, lost, rfl, hfree⟩
        · exact h.reports node r (Or.inr hmem)
        · rw [show (s.env.node node).cluster.isQuarantined a.2 lost = true
            from h.quarantined hmem hnow rfl] at hfree
          cases hfree
    · rcases Pool.mem_before_or_new hr with hr | hr
      · exact h.reports e r (Or.inr hr)
      · obtain rfl := flood_doJob hr
        exact h.reports e r (Or.inl hmem)
  · rcases Pool.mem_before_or_new hy with hy | hy
    · exact hlater.barred e y (h.barred e y hy)
    · exact barred_of_caused hopen hy

/-! ## The measure -/

/-- The running nodes that have not seen the report. -/
def unseen (nodes : Finset EndpointId) (last : Nat) (report : LossReport)
    (s : LossEnv) : Finset EndpointId :=
  nodes.filter fun e => ¬ s.Saw last e report

/-- How much a job may cause until a node accepts the report. -/
def weight (nodes : Finset EndpointId) (s : LossEnv) : LossJob → Nat
  | .lostConnection .. | .reportLoss .. | .forget .. => 1
  | .flood e _ => (s.node e).cluster.members.toList.length + 4
  | .disconnect .. => 3
  | .removeConnection e _ => if e ∈ nodes then 3 else 0

theorem weight_le {s s' : LossEnv} (h : Later last s s') (x : LossJob) :
    weight nodes s' x ≤ weight nodes s x := by
  cases x with
  | flood e r => exact Nat.add_le_add_right (KeySet.length_le (h.members e)) 4
  | lostConnection e r => exact le_rfl
  | disconnect e y => exact le_rfl
  | removeConnection e y => exact le_rfl
  | reportLoss e y => exact le_rfl
  | forget e y => exact le_rfl

/-- A running node that disconnects from a node that does not run causes
little. -/
theorem weight_disconnectDeliberately {s s' : LossEnv} {x y : EndpointId}
    (hx : x ∈ nodes) (hcalm : ¬ Quarrel nodes x y) :
    ((s.disconnectDeliberately x y).2.map (weight nodes s')).sum < 3 := by
  have hasked : ((if y = x then [] else [LossJob.removeConnection y x]).map
      (weight nodes s')).sum = 0 := by
    split
    · rfl
    · rename_i hne
      have hy : y ∉ nodes := fun hy => hcalm ⟨hx, hy, hne⟩
      simp [weight, hy]
  simp only [disconnectDeliberately, List.map_append, List.sum_append, hasked]
  simp [weight]

/-- A job that no node accepts a report with outweighs what it causes. -/
theorem weight_caused {s s' : LossEnv} (hnode : j.node ∈ nodes)
    (hcalm : ¬ Dooms nodes last s j)
    (hold : ∀ e r, j = .lostConnection e r →
      (s.node e).partitions.Seen s.clock r.pair r.op)
    (hbarred : ∀ e y, j = .reportLoss e y →
      (s.node e).cluster.isQuarantined s.clock y = true) :
    ((s.doJob j).2.map (weight nodes s')).sum < weight nodes s j := by
  cases j with
  | lostConnection e r =>
    rw [(deliver_old (hold e r rfl)).2.1]
    exact Nat.one_pos
  | flood e r =>
    have htold : (((s.node e).cluster.members.toList.filter fun x =>
        x ≠ r.reporter ∧ x ≠ r.lost).map fun x =>
          weight nodes s' (.lostConnection x r)).sum ≤
        (s.node e).cluster.members.toList.length := by
      simp only [weight, List.map_const', List.sum_replicate, smul_eq_mul,
        mul_one]
      exact List.length_filter_le _ _
    have hdisconnect : ((if target e r = e then []
        else [LossJob.disconnect e (target e r)]).map
          (weight nodes s')).sum ≤ 3 := by
      split <;> simp [weight]
    simp only [doJob, List.map_append, List.sum_append, List.map_map,
      Function.comp_def, weight] at htold hdisconnect ⊢
    omega
  | disconnect e y => exact weight_disconnectDeliberately hnode hcalm
  | removeConnection e y =>
    refine (weight_disconnectDeliberately hnode hcalm).trans_eq ?_
    exact (if_pos hnode).symm
  | reportLoss e y =>
    simp only [doJob, if_pos (hbarred e y rfl)]
    exact Nat.one_pos
  | forget e y => exact Nat.one_pos

/-- Every job of a settling cluster lowers the measure. -/
theorem measure_cascade (hlast : last < start + quarantinePeriod)
    (h : Settles nodes start last report s)
    (hstep : cascade nodes last s a = some t) :
    Pool.measure (fun e => (unseen nodes last report e).card) (weight nodes) t <
      Pool.measure (fun e => (unseen nodes last report e).card)
        (weight nodes) s := by
  obtain ⟨j, hj, hclock, hnow, hnode, rfl⟩ := cascade_cases hstep
  have hmem := List.mem_of_getElem? hj
  have hlater := h.later hlast hmem hclock hnow
  have hsub : unseen nodes last report (s.env.handle a.2 j).1 ⊆
      unseen nodes last report s.env := by
    intro e he
    obtain ⟨he, hnew⟩ := Finset.mem_filter.1 he
    exact Finset.mem_filter.2 ⟨he, mt (hlater.saw e report) hnew⟩
  refine Pool.measure_lt hj ?_
  by_cases haccepts : ∃ e r, j = .lostConnection e r ∧
      ¬ (s.env.node e).partitions.Seen a.2 r.pair r.op
  · -- One node less has yet to see the report.
    obtain ⟨e, r, rfl, hnew⟩ := haccepts
    obtain rfl := h.reports e r (Or.inl hmem)
    refine Or.inl (Finset.card_lt_card ⟨hsub, fun hback => ?_⟩)
    have hin : e ∈ unseen nodes last r s.env :=
      Finset.mem_filter.2 ⟨hnode, not_seen_later hnow hnew⟩
    refine (Finset.mem_filter.1 (hback hin)).2 ⟨(r.op, a.2),
      (deliver_new (s := { s.env with clock := a.2 }) hnew).2.2,
      decide_eq_true ?_, UInt64.le_refl _⟩
    have := h.clock
    simp only [quarantinePeriod, seenRetention] at hlast ⊢
    omega
  · push Not at haccepts
    have hcaused : ((s.env.handle a.2 j).2.map
        (weight nodes (s.env.handle a.2 j).1)).sum < weight nodes s.env j := by
      exact weight_caused (s := { s.env with clock := a.2 }) hnode
        (h.calm j hmem hnode) haccepts
        (fun e y heq => h.quarantined hmem hnow heq)
    rcases (Finset.card_le_card hsub).lt_or_eq with hlt | heq
    · exact Or.inl hlt
    · exact Or.inr ⟨heq, weight_le hlater, hcaused⟩

end Settling

/-! ## One message -/

/-- The cascade of one message that arrives at a running node goes on for ever
exactly if it makes two running nodes disconnect from each other. -/
theorem cascade_terminates_iff (nodes : Finset EndpointId) (env : LossEnv)
    (j : LossJob) (hmessage : j.isMessage = true) (hnode : j.node ∈ nodes) :
    (¬ ∃ r : InfiniteRun (cascade nodes (windowEnd env)),
        r.state 0 = single env j) ↔
      ¬ Dooms nodes (windowEnd env) env j := by
  refine not_congr ⟨fun hrun => ?_, fun hdooms => ?_⟩
  · obtain ⟨r, hr⟩ := hrun
    by_contra hcalm
    have hwindow : windowEnd env < env.clock + quarantinePeriod := by
      simp only [windowEnd, quarantinePeriod]
      omega
    have hreport : ∃ report, Settles nodes env.clock (windowEnd env) report
        (r.state 0) := by
      rw [hr]
      have hcalm' : ∀ x ∈ [j], x.node ∈ nodes →
          ¬ Dooms nodes (windowEnd env) env x := by
        intro x hx _
        rw [List.mem_singleton.1 hx]
        exact hcalm
      cases j with
      | lostConnection e report =>
        refine ⟨report, le_rfl, hcalm', fun x r hx => ?_, fun x y hx => ?_⟩
        · have heq : x = e ∧ r = report := by simpa [single] using hx
          exact heq.2
        · simp [single] at hx
      | removeConnection e y =>
        refine ⟨⟨e, e, 0⟩, le_rfl, hcalm', fun x r hx => ?_, fun x y hx => ?_⟩
        · simp [single] at hx
        · simp [single] at hx
      | flood e r => cases hmessage
      | disconnect e y => cases hmessage
      | reportLoss e y => cases hmessage
      | forget e y => cases hmessage
    obtain ⟨report, hsettles⟩ := hreport
    exact r.elim_of_measure _ (settles_step hwindow)
      (measure_cascade hwindow) hsettles
  · exact doomed_for_ever (doomed_single hnode hdooms)

/-- Node 3 has crashed, and nodes 1 and 2 disconnect from it. -/
theorem cascade_terminates_crashed :
    ¬ ∃ r : InfiniteRun (cascade {⟨1⟩, ⟨2⟩} (windowEnd threeNodes)),
      r.state 0 = single threeNodes (.lostConnection ⟨1⟩ lostThree) :=
  (cascade_terminates_iff {⟨1⟩, ⟨2⟩} threeNodes
    (.lostConnection ⟨1⟩ lostThree) rfl (by decide)).2 (by decide)

/-- Node 2 asks node 1 to disconnect, and they never stop asking. -/
theorem disconnects_never_end :
    ¬ ∀ (nodes : Finset EndpointId) (env : LossEnv) (j : LossJob),
      j.isMessage = true → j.node ∈ nodes →
        ¬ ∃ r : InfiniteRun (cascade nodes (windowEnd env)),
          r.state 0 = single env j := by
  intro hall
  have hdoomed : Doomed {⟨1⟩, ⟨2⟩} (windowEnd threeNodes)
      (single threeNodes (.removeConnection ⟨1⟩ ⟨2⟩)) :=
    doomed_single (by decide) (by decide)
  exact hall {⟨1⟩, ⟨2⟩} threeNodes (.removeConnection ⟨1⟩ ⟨2⟩) rfl (by decide)
    (doomed_for_ever hdoomed)

end LossFlood

end Plasmoid
