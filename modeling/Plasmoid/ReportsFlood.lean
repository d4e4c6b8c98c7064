import Plasmoid.Lib.Machine
import Plasmoid.LossFlood

/-!
# Loss reports reach everybody

A node that accepts a report passes it on to its members other than the
reporter and the node reported lost, and drops the node reported lost.  Messages
arrive in any order and any number of times.

Every member of a node that accepted has accepted too, or a copy is on its way
to it (`FloodInv.flooded`).  So when nothing is on its way, everybody who can be
reached from a node that was informed has accepted, exactly once if no copy
comes when the hour is over for which reports are remembered.
-/

namespace Plasmoid

open Machine

inductive FloodAction where
  /-- The `i`-th job is done at an instant. -/
  | work (i now : Nat)
  /-- The `i`-th job is a message, and arrives once more. -/
  | copy (i : Nat)

/-- Is the job a message on its way? -/
def LossJob.isMessage : LossJob → Bool
  | .lostConnection .. | .removeConnection .. => true
  | _ => false

/-- Is the job a report on its way, or a handler of one that has yet to
finish? -/
def LossJob.isReport : LossJob → Bool
  | .lostConnection .. | .flood .. | .disconnect .. => true
  | _ => false

namespace LossFlood

/-- Time passes between steps. -/
def step (s : LossFlood) : FloodAction → Option LossFlood
  | .work i now =>
    if s.env.clock ≤ now then s.work LossEnv.handle i now else none
  | .copy i => s.jobs[i]?.bind fun j =>
    if j.isMessage then some { s with jobs := s.jobs ++ [j] } else none

/-- A report is sent to some nodes, and nothing else is going on. -/
def start (env : LossEnv) (report : LossReport) (informed : List EndpointId) :
    LossFlood :=
  ⟨{ env with acceptances := [] },
    informed.map fun x => .lostConnection x report⟩

/-- A copy comes within an hour of the acceptance, and the loss reporter hears
of a deliberate loss while the node is quarantined. -/
def TimelyJob (s : LossEnv) (now : Nat) : LossJob → Prop
  | .lostConnection node report => ∀ a ∈ s.acceptances,
      a.1 = node → a.2.1 = report → now - a.2.2 < seenRetention
  | .reportLoss node lost =>
    (s.node node).cluster.isQuarantined now lost = true
  | _ => True

def Timely (s : LossFlood) : FloodAction → Prop
  | .work i now => ∀ j ∈ s.jobs[i]?, TimelyJob s.env now j
  | .copy _ => True

instance (s : LossEnv) (now : Nat) : DecidablePred (TimelyJob s now)
  | .lostConnection node report => inferInstanceAs (Decidable
      (∀ a ∈ s.acceptances, a.1 = node → a.2.1 = report → _))
  | .reportLoss _ _ => inferInstanceAs (Decidable (_ = true))
  | .removeConnection .. | .flood .. | .disconnect .. | .forget .. =>
    isTrue trivial

instance (s : LossFlood) : DecidablePred s.Timely
  | .work i now =>
    inferInstanceAs (Decidable (∀ j ∈ s.jobs[i]?, TimelyJob s.env now j))
  | .copy _ => isTrue trivial

/-- How often a node has accepted a report. -/
def accepts (s : LossFlood) (x : EndpointId) (report : LossReport) : Nat :=
  s.env.acceptances.countP fun a => a.1 = x ∧ a.2.1 = report

/-- The nodes that can be reached from those informed, through members other
than the reporter and the node reported lost. -/
inductive Reach (env : LossEnv) (report : LossReport)
    (informed : List EndpointId) : EndpointId → Prop where
  | informed {x : EndpointId} (h : x ∈ informed) (hreporter : x ≠ report.reporter)
      (hlost : x ≠ report.lost) : Reach env report informed x
  | member {x y : EndpointId} (hx : Reach env report informed x)
      (h : y ∈ (env.node x).cluster.members) (hreporter : y ≠ report.reporter)
      (hlost : y ≠ report.lost) : Reach env report informed y

/-- No report is on its way or being handled. -/
def Quiet (s : LossFlood) : Prop :=
  ∀ j ∈ s.jobs, j.isReport = false

instance (s : LossFlood) : Decidable s.Quiet :=
  inferInstanceAs (Decidable (∀ j ∈ s.jobs, _))

/-- Everybody who can be reached accepted the report once, dropped the node
reported lost and nobody else. -/
def FloodedOnce (env : LossEnv) (report : LossReport)
    (informed : List EndpointId) (s : LossFlood) : Prop :=
  ∀ x, Reach env report informed x →
    s.accepts x report = 1 ∧
      report.lost ∉ (s.env.node x).cluster.members ∧
      ∀ y ∈ (env.node x).cluster.members, y ≠ report.lost →
        y ∈ (s.env.node x).cluster.members

/-! ## Where jobs come from -/

variable {s t : LossEnv} {j x : LossJob}

/-- A report on its way was passed on, or is a new one. -/
theorem lostConnection_doJob {y : EndpointId} {report : LossReport}
    (h : .lostConnection y report ∈ (s.doJob j).2) :
    (∃ node, j = .flood node report) ∨ ∃ node lost, j = .reportLoss node lost ∧
      (s.node node).cluster.isQuarantined s.clock lost = false := by
  cases LossEnv.causes_doJob h with
  | passOn hx hne => exact Or.inl ⟨_, rfl⟩
  | report hfree => exact Or.inr ⟨_, _, rfl, hfree⟩

/-- Whoever passes a report on has just accepted it. -/
theorem flood_doJob {y : EndpointId} {report : LossReport}
    (h : .flood y report ∈ (s.doJob j).2) : j = .lostConnection y report := by
  cases LossEnv.causes_doJob h
  rfl

/-- Who is dropped was reported, or is dropped already, or drops us. -/
theorem drops_doJob {d : EndpointId} (h : x ∈ (s.doJob j).2)
    (hd : x.drops = some d) :
    (∃ report, j = .flood x.node report ∧ d = LossEnv.target x.node report) ∨
      j.drops = some d ∧ x.node = j.node ∨
      j.drops = some x.node ∧ d = j.node := by
  cases LossEnv.causes_doJob h with
  | act hne =>
    cases hd
    exact Or.inl ⟨_, rfl, rfl⟩
  | ask hj hne =>
    cases hd
    refine Or.inr (Or.inr ?_)
    rcases hj with rfl | rfl <;> exact ⟨rfl, rfl⟩
  | leave hj =>
    cases hd
    refine Or.inr (Or.inl ?_)
    rcases hj with rfl | rfl <;> exact ⟨rfl, rfl⟩
  | flood | passOn | lose | report => cases hd

/-! ## The invariant -/

/-- The report was accepted by the node. -/
def Accepted (s : LossFlood) (report : LossReport) (x : EndpointId) : Prop :=
  ∃ time, (x, report, time) ∈ s.env.acceptances

/-- The node has accepted, or a copy is on its way to it. -/
def Due (s : LossFlood) (report : LossReport) (x : EndpointId) : Prop :=
  s.Accepted report x ∨ .lostConnection x report ∈ s.jobs

/-- Every member of a node that accepted has accepted or will hear of the
report, and so on.  `members` are the members at the start. -/
structure FloodInv (report : LossReport) (informed : List EndpointId)
    (members : EndpointId → EndpointId → Prop) (s : LossFlood) : Prop where
  reports : ∀ e r, .lostConnection e r ∈ s.jobs ∨ .flood e r ∈ s.jobs →
    r = report
  about : ∀ j ∈ s.jobs, ∀ d, j.drops = some d →
    d = report.lost ∨ j.node = report.lost
  kept : ∀ e, e ≠ report.lost → ∀ x, members e x → x ≠ report.lost →
    x ∈ (s.env.node e).cluster.members
  fresh : ∀ e, e ≠ report.reporter → e ≠ report.lost →
    ¬ s.Accepted report e → ∀ now, s.env.clock ≤ now →
      ¬ (s.env.node e).partitions.Seen now report.pair report.op
  seen : ∀ e, e ≠ report.reporter → e ≠ report.lost →
    ∀ time, (e, report, time) ∈ s.env.acceptances →
      (s.env.node e).partitions.seen.lookup report.pair =
        some (report.op, time)
  once : ∀ e, e ≠ report.reporter → e ≠ report.lost → s.accepts e report ≤ 1
  informed : ∀ x ∈ informed, x ≠ report.reporter → x ≠ report.lost →
    s.Due report x
  flooded : ∀ x, x ≠ report.lost → s.Accepted report x →
    .flood x report ∈ s.jobs ∨ ∀ y, members x y → y ≠ report.reporter →
      y ≠ report.lost → s.Due report y
  dropped : ∀ x, x ≠ report.lost → s.Accepted report x →
    .flood x report ∈ s.jobs ∨ .disconnect x report.lost ∈ s.jobs ∨
      report.lost ∉ (s.env.node x).cluster.members

theorem accepts_pos_iff {s : LossFlood} {report : LossReport}
    {x : EndpointId} : 0 < s.accepts x report ↔ s.Accepted report x := by
  simp only [accepts, Accepted, List.countP_pos_iff, decide_eq_true_eq]
  constructor
  · rintro ⟨⟨e, r, time⟩, hmem, rfl, rfl⟩
    exact ⟨time, hmem⟩
  · rintro ⟨time, hmem⟩
    exact ⟨_, hmem, rfl, rfl⟩

/-- A node that has seen a report goes on to have seen it no longer than
before. -/
theorem not_seen_later {p : Partitions} {now later : Nat}
    {pair : EndpointId × EndpointId} {op : UInt64} (hle : now ≤ later)
    (h : ¬ p.Seen now pair op) : ¬ p.Seen later pair op := by
  rintro ⟨entry, hentry, hkept, hop⟩
  refine h ⟨entry, hentry, decide_eq_true ?_, hop⟩
  have := of_decide_eq_true hkept
  omega

theorem floodInv_start (env : LossEnv) (report : LossReport)
    (informed : List EndpointId)
    (hfresh : ∀ e, e ≠ report.reporter → e ≠ report.lost →
      ¬ (env.node e).partitions.Seen env.clock report.pair report.op) :
    FloodInv report informed (fun e x => x ∈ (env.node e).cluster.members)
      (start env report informed) where
  reports e r h := by
    rcases h with h | h
    · obtain ⟨x, -, hx⟩ := List.mem_map.1 h
      cases hx
      rfl
    · simp [start] at h
  about j hj d hd := by
    obtain ⟨x, -, rfl⟩ := List.mem_map.1 hj
    cases hd
  kept e _ x hx _ := hx
  fresh e hr hl _ now hnow := not_seen_later hnow (hfresh e hr hl)
  seen e _ _ time h := by cases h
  once e _ _ := Nat.zero_le _
  informed x hx _ _ := Or.inr (List.mem_map_of_mem hx)
  flooded x _ h := by
    obtain ⟨time, hmem⟩ := h
    cases hmem
  dropped x _ h := by
    obtain ⟨time, hmem⟩ := h
    cases hmem

/-! ## One step -/

theorem deliver_new {s : LossEnv} {e : EndpointId} {r : LossReport}
    (h : ¬ (s.node e).partitions.Seen s.clock r.pair r.op) :
    (s.doJob (.lostConnection e r)).1.acceptances =
        s.acceptances ++ [(e, r, s.clock)] ∧
      (s.doJob (.lostConnection e r)).2 = [.flood e r] ∧
      ((s.doJob (.lostConnection e r)).1.node e).partitions.seen.lookup r.pair =
        some (r.op, s.clock) := by
  have haccept : ((s.node e).accept s.clock r).2 = true :=
    Partitions.accept_eq_true_iff.2 h
  refine ⟨?_, ?_, ?_⟩
  · simp [LossEnv.doJob, LossEnv.setNode, haccept]
  · simp [LossEnv.doJob, haccept]
  · have hnode : ((s.doJob (.lostConnection e r)).1.node e) =
        ((s.node e).accept s.clock r).1 := Function.update_self ..
    rw [hnode]
    exact (Partitions.lookup_accept ..).trans (if_pos ⟨rfl, h⟩)

theorem deliver_old {s : LossEnv} {e : EndpointId} {r : LossReport}
    (h : (s.node e).partitions.Seen s.clock r.pair r.op) :
    (s.doJob (.lostConnection e r)).1.acceptances = s.acceptances ∧
      (s.doJob (.lostConnection e r)).2 = [] ∧
      ∀ pair,
        ((s.doJob (.lostConnection e r)).1.node e).partitions.seen.lookup pair =
          ((s.node e).partitions.seen.lookup pair).filter
            (Partitions.retained s.clock) := by
  have haccept : ((s.node e).accept s.clock r).2 = false := by
    rw [← Bool.not_eq_true]
    exact fun htrue => Partitions.accept_eq_true_iff.1 htrue h
  refine ⟨?_, ?_, fun pair => ?_⟩
  · simp [LossEnv.doJob, LossEnv.setNode, haccept]
  · simp [LossEnv.doJob, haccept]
  · have hnode : ((s.doJob (.lostConnection e r)).1.node e) =
        ((s.node e).accept s.clock r).1 := Function.update_self ..
    rw [hnode]
    exact (Partitions.lookup_accept ..).trans (if_neg fun hnew => hnew.2 h)

theorem acceptances_doJob {s : LossEnv} {j : LossJob}
    (h : ∀ e r, j ≠ .lostConnection e r) :
    (s.doJob j).1.acceptances = s.acceptances := by
  cases j with
  | lostConnection e r => exact absurd rfl (h e r)
  | reportLoss node lost =>
    simp only [LossEnv.doJob]
    split <;> rfl
  | flood node r => rfl
  | disconnect node target => rfl
  | removeConnection node sender => rfl
  | forget node lost => rfl

/-- Jobs take no time. -/
theorem clock_doJob (s : LossEnv) (j : LossJob) :
    (s.doJob j).1.clock = s.clock := by
  cases j with
  | reportLoss node lost =>
    simp only [LossEnv.doJob]
    split <;> rfl
  | lostConnection node r => rfl
  | flood node r => rfl
  | disconnect node target => rfl
  | removeConnection node sender => rfl
  | forget node lost => rfl

section Step

variable {report : LossReport} {informed : List EndpointId}
variable {members : EndpointId → EndpointId → Prop}
variable {s : LossFlood} {i now : Nat} {j : LossJob}

/-- The state after the job. -/
def done (s : LossFlood) (i now : Nat) (j : LossJob) : LossFlood :=
  ⟨(s.env.handle now j).1, s.jobs.eraseIdx i ++ (s.env.handle now j).2⟩

theorem mem_done_of_ne (hj : s.jobs[i]? = some j) {x : LossJob}
    (hx : x ∈ s.jobs) (hne : x ≠ j) : x ∈ (s.done i now j).jobs :=
  (Pool.mem_kept hj hx _).resolve_right hne

theorem mem_done_of_new {x : LossJob} (hx : x ∈ (s.env.handle now j).2) :
    x ∈ (s.done i now j).jobs :=
  List.mem_append_right _ hx

/-- Only this report goes round. -/
theorem FloodInv.reports_done (h : FloodInv report informed members s)
    (hj : s.jobs[i]? = some j) (htimely : TimelyJob s.env now j)
    (e : EndpointId) (r : LossReport)
    (hr : .lostConnection e r ∈ (s.done i now j).jobs ∨
      .flood e r ∈ (s.done i now j).jobs) : r = report := by
  have hmem := List.mem_of_getElem? hj
  rcases hr with hr | hr
  · rcases Pool.mem_before_or_new hr with hr | hr
    · exact h.reports e r (Or.inl hr)
    · rcases lostConnection_doJob hr with ⟨node, rfl⟩ |
        ⟨node, lost, rfl, hfree⟩
      · exact h.reports node r (Or.inr hmem)
      · rw [show (s.env.node node).cluster.isQuarantined now lost = true
          from htimely] at hfree
        cases hfree
  · rcases Pool.mem_before_or_new hr with hr | hr
    · exact h.reports e r (Or.inr hr)
    · obtain rfl := flood_doJob hr
      exact h.reports e r (Or.inl hmem)

/-- Every disconnect has the node reported lost on one side. -/
theorem FloodInv.about_done (h : FloodInv report informed members s)
    (hj : s.jobs[i]? = some j) :
    ∀ x ∈ (s.done i now j).jobs, ∀ d, x.drops = some d →
      d = report.lost ∨ x.node = report.lost := by
  intro x hx d hd
  have hmem := List.mem_of_getElem? hj
  rcases Pool.mem_before_or_new hx with hx | hx
  · exact h.about x hx d hd
  · rcases drops_doJob hx hd with ⟨r, rfl, rfl⟩ | ⟨hdrops, hnode⟩ |
      ⟨hdrops, hnode⟩
    · obtain rfl := h.reports x.node r (Or.inr hmem)
      unfold LossEnv.target
      split
      · rename_i hlost
        exact Or.inr hlost.symm
      · exact Or.inl rfl
    · rw [hnode]
      exact h.about j hmem d hdrops
    · rw [hnode]
      exact (h.about j hmem x.node hdrops).symm

/-- Nobody but the node reported lost drops anybody else. -/
theorem FloodInv.kept_done (h : FloodInv report informed members s)
    (hj : s.jobs[i]? = some j) (e : EndpointId) (he : e ≠ report.lost)
    (x : EndpointId) (hx : members e x) (hne : x ≠ report.lost) :
    x ∈ ((s.done i now j).env.node e).cluster.members := by
  refine (LossEnv.mem_members_doJob ..).2 ⟨h.kept e he x hx hne, ?_⟩
  rintro ⟨rfl, hdrops⟩
  exact (h.about j (List.mem_of_getElem? hj) x hdrops).elim hne he

/-- A job other than a report that arrives. -/
theorem FloodInv.done_other (h : FloodInv report informed members s)
    (hj : s.jobs[i]? = some j) (hnow : s.env.clock ≤ now)
    (htimely : TimelyJob s.env now j) (hother : ∀ e r, j ≠ .lostConnection e r) :
    FloodInv report informed members (s.done i now j) := by
  have hmem := List.mem_of_getElem? hj
  have hacc : (s.done i now j).env.acceptances = s.env.acceptances :=
    acceptances_doJob hother
  have haccepted : ∀ x, (s.done i now j).Accepted report x ↔
      s.Accepted report x := by
    intro x
    rw [Accepted, hacc]
    rfl
  have hseen : ∀ e, ((s.done i now j).env.node e).partitions.seen =
      (s.env.node e).partitions.seen := fun e =>
    LossEnv.seen_doJob _ j e (hother e)
  have hdue : ∀ x, s.Due report x → (s.done i now j).Due report x := by
    rintro x (hx | hx)
    · exact Or.inl ((haccepted x).2 hx)
    · exact Or.inr (mem_done_of_ne hj hx (hother x report).symm)
  refine ⟨h.reports_done hj htimely, h.about_done hj, h.kept_done hj,
    fun e hr hl hnot later hlater => ?_, fun e hr hl time hx => ?_,
    fun e hr hl => ?_, fun x hx hr hl => hdue x (h.informed x hx hr hl),
    fun x hl hx => ?_, fun x hl hx => ?_⟩
  · rw [haccepted] at hnot
    rw [Partitions.Seen, hseen]
    have hclock : (s.done i now j).env.clock = now := clock_doJob ..
    rw [hclock] at hlater
    exact h.fresh e hr hl hnot later (le_trans hnow hlater)
  · rw [hacc] at hx
    rw [hseen]
    exact h.seen e hr hl time hx
  · rw [accepts, hacc]
    exact h.once e hr hl
  · rw [haccepted] at hx
    rcases h.flooded x hl hx with hflood | hall
    · by_cases heq : (.flood x report : LossJob) = j
      · -- The members of `x` are told now.
        subst heq
        refine Or.inr fun y hy hyr hyl => Or.inr (mem_done_of_new ?_)
        refine List.mem_append_left _ (List.mem_map_of_mem ?_)
        refine List.mem_filter.2 ⟨h.kept x hl y hy hyl, ?_⟩
        simp [hyr, hyl]
      · exact Or.inl (mem_done_of_ne hj hflood heq)
    · exact Or.inr fun y hy hyr hyl => hdue y (hall y hy hyr hyl)
  · rw [haccepted] at hx
    have htarget : LossEnv.target x report = report.lost :=
      if_neg fun heq => hl heq.symm
    rcases h.dropped x hl hx with hflood | hdisconnect | hnot
    · by_cases heq : (.flood x report : LossJob) = j
      · subst heq
        refine Or.inr (Or.inl (mem_done_of_new ?_))
        refine List.mem_append_right _ ?_
        rw [htarget, if_neg (Ne.symm hl)]
        exact List.mem_singleton_self _
      · exact Or.inl (mem_done_of_ne hj hflood heq)
    · by_cases heq : (.disconnect x report.lost : LossJob) = j
      · subst heq
        refine Or.inr (Or.inr fun hin => ?_)
        exact ((LossEnv.mem_members_doJob ..).1 hin).2 ⟨rfl, rfl⟩
      · exact Or.inr (Or.inl (mem_done_of_ne hj hdisconnect heq))
    · exact Or.inr (Or.inr fun hin =>
        hnot ((LossEnv.mem_members_doJob ..).1 hin).1)

/-- A copy that arrives does not touch the other nodes. -/
theorem node_deliver {e x : EndpointId} {r : LossReport} (s : LossEnv)
    (hne : x ≠ e) :
    (s.doJob (.lostConnection e r)).1.node x = s.node x :=
  LossEnv.node_setNode_of_ne s hne _

section Deliver

variable {e : EndpointId}

/-- Whoever accepted has seen the report, for it comes in time. -/
theorem FloodInv.seen_now (h : FloodInv report informed members s)
    (htimely : TimelyJob s.env now (.lostConnection e report))
    (hr : e ≠ report.reporter) (hl : e ≠ report.lost)
    (ha : s.Accepted report e) :
    (s.env.node e).partitions.Seen now report.pair report.op := by
  obtain ⟨time, hmem⟩ := ha
  have hin : now - time < seenRetention := htimely _ hmem rfl rfl
  exact ⟨(report.op, time), h.seen e hr hl time hmem, decide_eq_true hin,
    UInt64.le_refl _⟩

/-- Who was to hear of the report still is, or has accepted it. -/
theorem due_deliver (hj : s.jobs[i]? = some (.lostConnection e report))
    (hmono : ∀ x, s.Accepted report x →
      (s.done i now (.lostConnection e report)).Accepted report x)
    (he : e ≠ report.reporter → e ≠ report.lost →
      (s.done i now (.lostConnection e report)).Accepted report e)
    {x : EndpointId} (hr : x ≠ report.reporter) (hl : x ≠ report.lost)
    (hx : s.Due report x) :
    (s.done i now (.lostConnection e report)).Due report x := by
  rcases hx with hx | hx
  · exact Or.inl (hmono x hx)
  · by_cases heq : x = e
    · subst heq
      exact Or.inl (he hr hl)
    · refine Or.inr (mem_done_of_ne hj hx fun h => heq ?_)
      exact (LossJob.lostConnection.inj h).1

/-- A copy that was seen changes nothing. -/
theorem FloodInv.done_old (h : FloodInv report informed members s)
    (hj : s.jobs[i]? = some (.lostConnection e report))
    (hnow : s.env.clock ≤ now)
    (htimely : TimelyJob s.env now (.lostConnection e report))
    (hold : (s.env.node e).partitions.Seen now report.pair report.op) :
    FloodInv report informed members
      (s.done i now (.lostConnection e report)) := by
  obtain ⟨hacc, -, hlookup⟩ := deliver_old (s := { s.env with clock := now }) hold
  have haccepted : ∀ x,
      (s.done i now (.lostConnection e report)).Accepted report x ↔
        s.Accepted report x := fun x =>
    exists_congr fun time => by
      show _ ∈ (s.done i now _).env.acceptances ↔ _
      rw [show (s.done i now (.lostConnection e report)).env.acceptances =
        s.env.acceptances from hacc]
  have he : e ≠ report.reporter → e ≠ report.lost → s.Accepted report e := by
    intro hr hl
    by_contra hnot
    exact h.fresh e hr hl hnot now hnow hold
  have hdue : ∀ x, x ≠ report.reporter → x ≠ report.lost →
      s.Due report x → (s.done i now (.lostConnection e report)).Due report x :=
    fun x => due_deliver hj (fun y => (haccepted y).2)
      fun hr hl => (haccepted e).2 (he hr hl)
  refine ⟨h.reports_done hj htimely, h.about_done hj, h.kept_done hj,
    fun x hr hl hnot later hlater => ?_, fun x hr hl time hx => ?_,
    fun x hr hl => ?_,
    fun x hx hr hl => hdue x hr hl (h.informed x hx hr hl),
    fun x hl hx => ?_, fun x hl hx => ?_⟩
  · rw [haccepted] at hnot
    by_cases hxe : x = e
    · subst hxe
      exact absurd (he hr hl) hnot
    · have hnode : (s.done i now (.lostConnection e report)).env.node x =
          s.env.node x := node_deliver _ hxe
      rw [hnode]
      exact h.fresh x hr hl hnot later (le_trans hnow hlater)
  · have hx' : (x, report, time) ∈ s.env.acceptances := by
      rw [← hacc]
      exact hx
    by_cases hxe : x = e
    · subst hxe
      have hin : now - time < seenRetention := htimely _ hx' rfl rfl
      refine (hlookup report.pair).trans ?_
      rw [show ({ s.env with clock := now } : LossEnv).node x = s.env.node x
        from rfl, h.seen x hr hl time hx']
      simp [Option.filter, Partitions.retained, hin]
    · have hnode : (s.done i now (.lostConnection e report)).env.node x =
          s.env.node x := node_deliver _ hxe
      rw [hnode]
      exact h.seen x hr hl time hx'
  · have heq : (s.done i now (.lostConnection e report)).accepts x report =
        s.accepts x report := congrArg (List.countP _) hacc
    rw [heq]
    exact h.once x hr hl
  · rcases h.flooded x hl ((haccepted x).1 hx) with hflood | hall
    · exact Or.inl (mem_done_of_ne hj hflood LossJob.noConfusion)
    · exact Or.inr fun y hy hyr hyl => hdue y hyr hyl (hall y hy hyr hyl)
  · rcases h.dropped x hl ((haccepted x).1 hx) with hflood | hdrop | hnot
    · exact Or.inl (mem_done_of_ne hj hflood LossJob.noConfusion)
    · exact Or.inr (Or.inl (mem_done_of_ne hj hdrop LossJob.noConfusion))
    · exact Or.inr (Or.inr fun hin =>
        hnot ((LossEnv.mem_members_doJob ..).1 hin).1)

/-- A node accepts the report, for the first time if it is not one of the two
that the report is about. -/
theorem FloodInv.done_new (h : FloodInv report informed members s)
    (hj : s.jobs[i]? = some (.lostConnection e report))
    (hnow : s.env.clock ≤ now)
    (htimely : TimelyJob s.env now (.lostConnection e report))
    (hnew : ¬ (s.env.node e).partitions.Seen now report.pair report.op) :
    FloodInv report informed members
      (s.done i now (.lostConnection e report)) := by
  obtain ⟨hacc, hflood, hlookup⟩ :=
    deliver_new (s := { s.env with clock := now }) hnew
  have hacc' : (s.done i now (.lostConnection e report)).env.acceptances =
      s.env.acceptances ++ [(e, report, now)] := hacc
  have haccepted : ∀ x,
      (s.done i now (.lostConnection e report)).Accepted report x ↔
        s.Accepted report x ∨ x = e := by
    intro x
    simp only [Accepted, hacc', List.mem_append, List.mem_singleton,
      Prod.mk.injEq, true_and, exists_or]
    simp
  have hfirst : e ≠ report.reporter → e ≠ report.lost →
      ¬ s.Accepted report e := fun hr hl ha =>
    hnew (h.seen_now htimely hr hl ha)
  have hflooding : .flood e report ∈
      (s.done i now (.lostConnection e report)).jobs := by
    refine mem_done_of_new ?_
    rw [show (s.env.handle now (.lostConnection e report)).2 =
      [.flood e report] from hflood]
    exact List.mem_singleton_self _
  have hdue : ∀ x, x ≠ report.reporter → x ≠ report.lost →
      s.Due report x → (s.done i now (.lostConnection e report)).Due report x :=
    fun x => due_deliver hj (fun y hy => (haccepted y).2 (Or.inl hy))
      fun _ _ => (haccepted e).2 (Or.inr rfl)
  refine ⟨h.reports_done hj htimely, h.about_done hj, h.kept_done hj,
    fun x hr hl hnot later hlater => ?_, fun x hr hl time hx => ?_,
    fun x hr hl => ?_,
    fun x hx hr hl => hdue x hr hl (h.informed x hx hr hl),
    fun x hl hx => ?_, fun x hl hx => ?_⟩
  · rw [haccepted, not_or] at hnot
    have hnode : (s.done i now (.lostConnection e report)).env.node x =
        s.env.node x := node_deliver _ hnot.2
    rw [hnode]
    exact h.fresh x hr hl hnot.1 later (le_trans hnow hlater)
  · rw [hacc', List.mem_append, List.mem_singleton] at hx
    by_cases hxe : x = e
    · subst hxe
      rcases hx with hx | hx
      · exact absurd ⟨time, hx⟩ (hfirst hr hl)
      · cases hx
        exact hlookup
    · have hnode : (s.done i now (.lostConnection e report)).env.node x =
          s.env.node x := node_deliver _ hxe
      rw [hnode]
      refine h.seen x hr hl time (hx.resolve_right fun heq => hxe ?_)
      exact (Prod.mk.inj heq).1
  · have hcount : (s.done i now (.lostConnection e report)).accepts x report =
        s.accepts x report + if e = x then 1 else 0 := by
      rw [accepts, hacc', List.countP_append, accepts]
      simp
    rw [hcount]
    split
    · rename_i hex
      subst hex
      have hnone := mt accepts_pos_iff.1 (hfirst hr hl)
      omega
    · exact h.once x hr hl
  · rcases (haccepted x).1 hx with hx | rfl
    · rcases h.flooded x hl hx with hflood | hall
      · exact Or.inl (mem_done_of_ne hj hflood LossJob.noConfusion)
      · exact Or.inr fun y hy hyr hyl => hdue y hyr hyl (hall y hy hyr hyl)
    · exact Or.inl hflooding
  · rcases (haccepted x).1 hx with hx | rfl
    · rcases h.dropped x hl hx with hflood | hdrop | hnot
      · exact Or.inl (mem_done_of_ne hj hflood LossJob.noConfusion)
      · exact Or.inr (Or.inl (mem_done_of_ne hj hdrop LossJob.noConfusion))
      · exact Or.inr (Or.inr fun hin =>
          hnot ((LossEnv.mem_members_doJob ..).1 hin).1)
    · exact Or.inl hflooding

end Deliver

/-- One more copy is one more message. -/
theorem FloodInv.copied (h : FloodInv report informed members s)
    (hj : s.jobs[i]? = some j) :
    FloodInv report informed members { s with jobs := s.jobs ++ [j] } := by
  have hmem := List.mem_of_getElem? hj
  have hjobs : ∀ x, x ∈ s.jobs ++ [j] ↔ x ∈ s.jobs := by
    intro x
    rw [List.mem_append, List.mem_singleton]
    constructor
    · rintro (hx | rfl)
      · exact hx
      · exact hmem
    · exact Or.inl
  have hdue : ∀ x, Due { s with jobs := s.jobs ++ [j] } report x ↔
      s.Due report x := fun x => or_congr Iff.rfl (hjobs _)
  refine ⟨?_, ?_, h.kept, h.fresh, h.seen, h.once, ?_, ?_, ?_⟩
  · intro e r hr
    exact h.reports e r (hr.imp (hjobs _).1 (hjobs _).1)
  · intro x hx d hd
    exact h.about x ((hjobs x).1 hx) d hd
  · intro x hx hr hl
    exact (hdue x).2 (h.informed x hx hr hl)
  · intro x hl hx
    refine (h.flooded x hl hx).imp (hjobs _).2 fun hall y hy hyr hyl => ?_
    exact (hdue y).2 (hall y hy hyr hyl)
  · intro x hl hx
    exact (h.dropped x hl hx).imp (hjobs _).2 (Or.imp (hjobs _).2 id)

end Step

/-! ## Runs -/

theorem floodInv_step {report : LossReport} {informed : List EndpointId}
    {members : EndpointId → EndpointId → Prop} {s t : LossFlood}
    {a : FloodAction} (h : FloodInv report informed members s)
    (htimely : s.Timely a) (hstep : step s a = some t) :
    FloodInv report informed members t := by
  cases a with
  | work i now =>
    simp only [step] at hstep
    split at hstep
    · rename_i hnow
      obtain ⟨j, hj, rfl⟩ := Pool.work_cases hstep
      have hjob : TimelyJob s.env now j := htimely j hj
      by_cases hdelivered : ∃ e r, j = .lostConnection e r
      · obtain ⟨e, r, rfl⟩ := hdelivered
        obtain rfl := h.reports e r (Or.inl (List.mem_of_getElem? hj))
        by_cases hseen : (s.env.node e).partitions.Seen now r.pair r.op
        · exact h.done_old hj hnow hjob hseen
        · exact h.done_new hj hnow hjob hseen
      · push Not at hdelivered
        exact h.done_other hj hnow hjob hdelivered
    · cases hstep
  | copy i =>
    obtain ⟨j, hj, hcopy⟩ := Option.bind_eq_some_iff.1 hstep
    split at hcopy
    · cases hcopy
      exact h.copied hj
    · cases hcopy

/-- When no report is on its way or being handled, everybody who was to hear of
it has. -/
theorem FloodInv.accepted_of_reach {env : LossEnv} {report : LossReport}
    {informed : List EndpointId} {s : LossFlood}
    (h : FloodInv report informed
      (fun e x => x ∈ (env.node e).cluster.members) s) (hquiet : s.Quiet)
    {x : EndpointId} (hx : Reach env report informed x) :
    s.Accepted report x ∧ x ≠ report.reporter ∧ x ≠ report.lost := by
  have hdue : ∀ y, s.Due report y → s.Accepted report y := by
    intro y hy
    refine hy.resolve_right fun hmem => ?_
    have hreport := hquiet _ hmem
    cases hreport
  induction hx with
  | informed hmem hr hl => exact ⟨hdue _ (h.informed _ hmem hr hl), hr, hl⟩
  | member hx hmem hr hl ih =>
    obtain ⟨haccepted, -, hlx⟩ := ih
    refine ⟨?_, hr, hl⟩
    rcases h.flooded _ hlx haccepted with hflood | hall
    · have hreport := hquiet _ hflood
      cases hreport
    · exact hdue _ (hall _ hmem hr hl)

/-- Everybody who can be reached accepts a fresh report exactly once and drops
the node reported lost and nobody else, if copies come in time. -/
theorem reports_flood (env : LossEnv) (report : LossReport)
    (informed : List EndpointId)
    (hfresh : ∀ e, e ≠ report.reporter → e ≠ report.lost →
      ¬ (env.node e).partitions.Seen env.clock report.pair report.op)
    {s : LossFlood} (hrun : Run step Timely (start env report informed) s)
    (hquiet : s.Quiet) : FloodedOnce env report informed s := by
  have hinv := hrun.invariant floodInv_step
    (floodInv_start env report informed hfresh)
  intro x hx
  obtain ⟨haccepted, hr, hl⟩ := hinv.accepted_of_reach hquiet hx
  refine ⟨?_, ?_, hinv.kept x hl⟩
  · have honce := hinv.once x hr hl
    have hpos := accepts_pos_iff.2 haccepted
    omega
  · rcases hinv.dropped x hl haccepted with hflood | hdrop | hnot
    · have hreport := hquiet _ hflood
      cases hreport
    · have hreport := hquiet _ hdrop
      cases hreport
    · exact hnot

/-- Nodes 1, 2 and 3 know each other.  Node 9 is not one of them. -/
def threeNodes : LossEnv where
  node e :=
    { cluster := ((Cluster.new e).learn 0
        (if e = ⟨9⟩ then [] else [⟨1⟩, ⟨2⟩, ⟨3⟩])).1
      partitions := .new e
      me_eq := rfl }
  clock := 0
  acceptances := []

/-- Node 9 lost its link to node 3. -/
def lostThree : LossReport := ⟨⟨9⟩, ⟨3⟩, 1⟩

/-- Nothing was seen anywhere at the start. -/
theorem threeNodes_fresh (e : EndpointId) :
    ¬ (threeNodes.node e).partitions.Seen threeNodes.clock lostThree.pair
      lostThree.op := by
  rintro ⟨entry, hentry, -⟩
  have hnone : (threeNodes.node e).partitions.seen.lookup lostThree.pair =
      none := AList.lookup_empty _
  rw [hnone] at hentry
  cases hentry

/-- Node 9 stops after it has told node 1. -/
theorem reports_flood_threeNodes :
    ∃ s, Run step Timely (start threeNodes lostThree [⟨1⟩]) s ∧
      FloodedOnce threeNodes lostThree [⟨1⟩] s := by
  have hrun : ∃ s, Run step Timely (start threeNodes lostThree [⟨1⟩]) s ∧
      s.Quiet :=
    exec_run_of_any [.copy 0, .work 0 1, .work 1 1, .work 0 2, .work 0 2,
      .work 1 3, .work 0 4, .work 0 5, .work 0 6] (by decide)
  obtain ⟨s, hrun, hquiet⟩ := hrun
  exact ⟨s, hrun, reports_flood threeNodes lostThree [⟨1⟩]
    (fun e _ _ => threeNodes_fresh e) hrun hquiet⟩

theorem threeNodes_reach {e : EndpointId} (h : e = ⟨1⟩ ∨ e = ⟨2⟩) :
    Reach threeNodes lostThree [⟨1⟩] e := by
  have hone : Reach threeNodes lostThree [⟨1⟩] ⟨1⟩ :=
    .informed (by decide) (by decide) (by decide)
  rcases h with rfl | rfl
  · exact hone
  · exact hone.member (by decide) (by decide) (by decide)

/-- A copy that comes after an hour is accepted again.  A loss reporter that
hears of a disconnect after the quarantine makes node 2 drop node 1. -/
theorem late_copy_or_loss_spoils_flood :
    (∃ s, Run step anyStep (start threeNodes lostThree [⟨1⟩]) s ∧ s.Quiet ∧
      s.accepts ⟨1⟩ lostThree = 2 ∧
      ¬ FloodedOnce threeNodes lostThree [⟨1⟩] s) ∧
    ∃ s, Run step anyStep (start threeNodes lostThree [⟨1⟩]) s ∧ s.Quiet ∧
      (⟨1⟩ ∈ (threeNodes.node ⟨2⟩).cluster.members ∧
        ⟨1⟩ ∉ (s.env.node ⟨2⟩).cluster.members) ∧
      ¬ FloodedOnce threeNodes lostThree [⟨1⟩] s := by
  have htwice : ∃ s, Run step anyStep (start threeNodes lostThree [⟨1⟩]) s ∧
      (s.Quiet ∧ s.accepts ⟨1⟩ lostThree = 2) :=
    exec_run_of_any [.copy 0, .work 0 1, .work 0 3600001, .work 0 3600001,
      .work 0 3600001, .work 0 3600002, .work 1 3600002, .work 2 3600003,
      .work 2 3600004, .work 0 3600005, .work 0 3600005, .work 0 3600005]
      (by decide)
  have hdropped : ∃ s, Run step anyStep (start threeNodes lostThree [⟨1⟩]) s ∧
      (s.Quiet ∧ ⟨1⟩ ∈ (threeNodes.node ⟨2⟩).cluster.members ∧
        ⟨1⟩ ∉ (s.env.node ⟨2⟩).cluster.members) :=
    exec_run_of_any [.work 0 1, .work 0 1, .work 1 1, .work 1 1, .work 4 60001,
      .work 5 60001, .work 5 60001, .work 5 60001, .work 0 60001,
      .work 7 60001, .work 7 60001] (by decide)
  constructor
  · obtain ⟨s, hrun, hquiet, htwo⟩ := htwice
    refine ⟨s, hrun, hquiet, htwo, fun hflooded => ?_⟩
    have hone := (hflooded ⟨1⟩ (threeNodes_reach (Or.inl rfl))).1
    omega
  · obtain ⟨s, hrun, hquiet, hmem, hnot⟩ := hdropped
    refine ⟨s, hrun, hquiet, ⟨hmem, hnot⟩, fun hflooded => hnot ?_⟩
    exact (hflooded ⟨2⟩ (threeNodes_reach (Or.inr rfl))).2.2 ⟨1⟩ hmem
      (by decide)

end LossFlood

end Plasmoid
