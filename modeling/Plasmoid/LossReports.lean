import Plasmoid.Lib.Machine
import Plasmoid.Partitions

/-!
# Loss reports and their copies

Nodes report lost connections, stop and start again.  A receiver gets the
reports, and copies of them, over many paths.  It should act on each report when
it arrives first and on no copy.

The op id of a report comes from a counter in memory that starts at 1 in every
life of its node, while the receiver remembers for an hour what it has handled.
So a report of a new life may look like one of the last life
(`restarted_report_refused`), and a copy that arrives when the hour is over
looks new.
-/

namespace Plasmoid

open Machine

/-- A report that reached the receiver. -/
structure Arrival where
  /-- Its place among the reports that were issued. -/
  index : Nat
  report : LossReport
  time : Nat
  /-- No copy of it arrived before. -/
  first : Bool
  accepted : Bool
deriving DecidableEq

/-- The nodes that report, one receiver, and what happened so far. -/
structure LossReports where
  reporters : EndpointId → Partitions
  receiver : Partitions
  clock : Nat
  issued : List LossReport
  arrivals : List Arrival

inductive ReportAction where
  /-- The loss reporter of a node hears of a loss. -/
  | issue (reporter lost : EndpointId)
  /-- A node stops and starts again under the same identity. -/
  | restart (node : EndpointId)
  | tick (elapsed : Nat)
  /-- A report, or a copy of it, arrives. -/
  | deliver (i : Nat)

namespace LossReports

def start (receiver : Partitions) (clock : Nat) : LossReports :=
  ⟨Partitions.new, receiver, clock, [], []⟩

/-- No copy of the report has arrived. -/
def First (s : LossReports) (i : Nat) : Prop :=
  ∀ a ∈ s.arrivals, a.index ≠ i

instance (s : LossReports) (i : Nat) : Decidable (s.First i) :=
  inferInstanceAs (Decidable (∀ a ∈ s.arrivals, a.index ≠ i))

/-- A later report on the pair has arrived. -/
def Overtaken (s : LossReports) (i : Nat) (r : LossReport) : Prop :=
  ∃ a ∈ s.arrivals, i < a.index ∧ a.report.pair = r.pair

instance (s : LossReports) (i : Nat) (r : LossReport) :
    Decidable (s.Overtaken i r) :=
  inferInstanceAs (Decidable (∃ a ∈ s.arrivals, _ ∧ _))

/-- The reports on a pair arrive in the order in which they were issued, and
then any copies. -/
def step (s : LossReports) : ReportAction → Option LossReports
  | .issue reporter lost =>
    let (op, p) := (s.reporters reporter).nextOpId
    some { s with
      reporters := Function.update s.reporters reporter p
      issued := s.issued ++ [⟨reporter, lost, op⟩] }
  | .restart node =>
    some { s with
      reporters := Function.update s.reporters node (.new node) }
  | .tick elapsed => some { s with clock := s.clock + elapsed }
  | .deliver i => s.issued[i]?.bind fun r =>
    if s.First i ∧ s.Overtaken i r then none
    else
      let (receiver, accepted) :=
        s.receiver.accept s.clock r.reporter r.lost r.op
      some { s with
        receiver
        arrivals := s.arrivals ++ [⟨i, r, s.clock, s.First i, accepted⟩] }

/-- Every report was acted on when it arrived first, and no copy was. -/
def Right (s : LossReports) : Prop :=
  ∀ a ∈ s.arrivals, a.accepted = a.first

/-- A report on the pair with the same op id, or a higher one, was accepted
within the last hour. -/
def Handled (s : LossReports) (r : LossReport) : Prop :=
  ∃ a ∈ s.arrivals, a.accepted = true ∧ a.report.pair = r.pair ∧
    s.clock - a.time < seenRetention ∧ r.op ≤ a.report.op

instance (s : LossReports) (r : LossReport) : Decidable (s.Handled r) :=
  inferInstanceAs (Decidable (∃ a ∈ s.arrivals, _ ∧ _ ∧ _ ∧ _))

/-- Op ids and the hour tell a new report from a copy. -/
def Telling (s : LossReports) : ReportAction → Prop
  | .deliver i => ∀ r ∈ s.issued[i]?, s.First i ↔ ¬ s.Handled r
  | _ => True

instance (s : LossReports) : DecidablePred s.Telling
  | .deliver i => inferInstanceAs
      (Decidable (∀ r ∈ s.issued[i]?, s.First i ↔ ¬ s.Handled r))
  | .issue .. | .restart _ | .tick _ => isTrue trivial

/-! ## What the receiver remembers -/

/-- The receiver remembers what it accepted within the last hour, and nothing
else for longer. -/
structure MemoryInv (s : LossReports) : Prop where
  past : ∀ a ∈ s.arrivals, a.time ≤ s.clock
  accepted : ∀ pair entry, s.receiver.seen.lookup pair = some entry →
    ∃ a ∈ s.arrivals, a.accepted = true ∧ a.report.pair = pair ∧
      a.report.op = entry.1 ∧ a.time = entry.2
  remembered : ∀ a ∈ s.arrivals, a.accepted = true →
    s.clock - a.time < seenRetention →
      ∃ entry, s.receiver.seen.lookup a.report.pair = some entry ∧
        a.report.op ≤ entry.1 ∧ a.time ≤ entry.2

theorem memoryInv_start (me : EndpointId) (clock : Nat) :
    MemoryInv (start (.new me) clock) := by
  refine ⟨fun a ha => ?_, fun pair entry h => ?_, fun a ha => ?_⟩
  · cases ha
  · simp [start, Partitions.new] at h
  · cases ha

/-- The receiver has seen a report exactly if it accepted one like it within
the last hour. -/
theorem MemoryInv.seen_iff {s : LossReports} (h : MemoryInv s)
    (r : LossReport) :
    s.receiver.Seen s.clock r.pair r.op ↔ s.Handled r := by
  constructor
  · rintro ⟨entry, hentry, hkept, hle⟩
    obtain ⟨a, ha, hacc, hpair, hop, htime⟩ := h.accepted _ _ hentry
    refine ⟨a, ha, hacc, hpair, ?_, ?_⟩
    · rw [htime]
      exact of_decide_eq_true hkept
    · rw [hop]
      exact hle
  · rintro ⟨a, ha, hacc, hpair, hrecent, hle⟩
    obtain ⟨entry, hentry, hop, htime⟩ := h.remembered a ha hacc hrecent
    rw [hpair] at hentry
    refine ⟨entry, hentry, decide_eq_true ?_, UInt64.le_trans hle hop⟩
    omega

/-- An arrival is accepted unless it was handled. -/
theorem MemoryInv.accept_iff {s : LossReports} (h : MemoryInv s)
    (r : LossReport) :
    (s.receiver.accept s.clock r.reporter r.lost r.op).2 = true ↔
      ¬ s.Handled r := by
  rw [Partitions.accept_eq_true_iff]
  exact not_congr (h.seen_iff r)

theorem step_deliver {s t : LossReports} {i : Nat}
    (h : step s (.deliver i) = some t) :
    ∃ r, s.issued[i]? = some r ∧ ¬ (s.First i ∧ s.Overtaken i r) ∧
      t = { s with
        receiver := (s.receiver.accept s.clock r.reporter r.lost r.op).1
        arrivals := s.arrivals ++ [⟨i, r, s.clock, s.First i,
          (s.receiver.accept s.clock r.reporter r.lost r.op).2⟩] } := by
  obtain ⟨r, hr, hstep⟩ := Option.bind_eq_some_iff.1 h
  split at hstep
  · cases hstep
  · cases hstep
    exact ⟨r, hr, ‹_›, rfl⟩

theorem MemoryInv.deliver {s : LossReports} (h : MemoryInv s) (i : Nat)
    (r : LossReport) (first : Bool) :
    MemoryInv { s with
      receiver := (s.receiver.accept s.clock r.reporter r.lost r.op).1
      arrivals := s.arrivals ++ [⟨i, r, s.clock, first,
        (s.receiver.accept s.clock r.reporter r.lost r.op).2⟩] } := by
  have hseen := h.seen_iff r
  refine ⟨fun a ha => ?_, fun pair entry hentry => ?_,
    fun a ha hacc hrecent => ?_⟩
  · rcases List.mem_append.1 ha with ha | ha
    · exact h.past a ha
    · rw [List.mem_singleton.1 ha]
  · replace hentry := (Partitions.lookup_accept ..).symm.trans hentry
    split at hentry
    · rename_i hnew
      cases hentry
      refine ⟨_, List.mem_append_right _ (List.mem_singleton_self _), ?_,
        hnew.1.symm, rfl, rfl⟩
      exact Partitions.accept_eq_true_iff.2 hnew.2
    · obtain ⟨hold, -⟩ := Option.filter_eq_some_iff.1 hentry
      obtain ⟨a, ha, hrest⟩ := h.accepted pair entry hold
      exact ⟨a, List.mem_append_left _ ha, hrest⟩
  · show ∃ entry, (s.receiver.accept s.clock r.reporter r.lost r.op).1.seen.lookup
      a.report.pair = some entry ∧ _
    rw [Partitions.lookup_accept]
    rcases List.mem_append.1 ha with ha | ha
    · obtain ⟨entry, hentry, hop, htime⟩ := h.remembered a ha hacc hrecent
      split
      · rename_i hnew
        -- What was accepted within the hour has a smaller op id.
        refine ⟨_, rfl, ?_, ?_⟩
        · by_contra hlt
          refine hnew.2 (hseen.2 ⟨a, ha, hacc, hnew.1, hrecent, ?_⟩)
          exact UInt64.le_of_lt (UInt64.not_le.1 hlt)
        · exact h.past a ha
      · refine ⟨entry, Option.filter_eq_some_iff.2 ⟨hentry, ?_⟩, hop, htime⟩
        refine decide_eq_true ?_
        have : s.clock - a.time < seenRetention := hrecent
        omega
    · rw [List.mem_singleton.1 ha] at hacc ⊢
      rw [if_pos ⟨rfl, Partitions.accept_eq_true_iff.1 hacc⟩]
      exact ⟨_, rfl, UInt64.le_refl _, le_refl _⟩

theorem memoryInv_step {s t : LossReports} {a : ReportAction}
    (h : MemoryInv s) (hstep : step s a = some t) : MemoryInv t := by
  cases a with
  | issue reporter lost =>
    cases hstep
    exact ⟨h.past, h.accepted, h.remembered⟩
  | restart node =>
    cases hstep
    exact ⟨h.past, h.accepted, h.remembered⟩
  | tick elapsed =>
    cases hstep
    refine ⟨fun a ha => ?_, h.accepted, fun a ha hacc hrecent => ?_⟩
    · exact le_trans (h.past a ha) (Nat.le_add_right ..)
    · refine h.remembered a ha hacc ?_
      have : s.clock + elapsed - a.time < seenRetention := hrecent
      omega
  | deliver i =>
    obtain ⟨r, -, -, rfl⟩ := step_deliver hstep
    exact h.deliver i r _

/-- A delivery goes right exactly if op ids and the hour are telling. -/
theorem MemoryInv.right_iff {s t : LossReports} {a : ReportAction}
    (h : MemoryInv s) (hright : s.Right) (hstep : step s a = some t) :
    t.Right ↔ s.Telling a := by
  cases a with
  | issue reporter lost =>
    cases hstep
    exact iff_of_true hright trivial
  | restart node =>
    cases hstep
    exact iff_of_true hright trivial
  | tick elapsed =>
    cases hstep
    exact iff_of_true hright trivial
  | deliver i =>
    obtain ⟨r, hr, -, rfl⟩ := step_deliver hstep
    have hnew : (s.receiver.accept s.clock r.reporter r.lost r.op).2 =
        decide (s.First i) ↔ (s.First i ↔ ¬ s.Handled r) := by
      rw [Bool.eq_iff_iff, h.accept_iff, decide_eq_true_iff]
      exact iff_comm
    constructor
    · intro ht r' hr'
      rw [hr] at hr'
      cases hr'
      exact hnew.1 (ht _ (List.mem_append_right _ (List.mem_singleton_self _)))
    · intro htell a ha
      rcases List.mem_append.1 ha with ha | ha
      · exact hright a ha
      · rw [List.mem_singleton.1 ha]
        exact hnew.2 (htell r hr)

/-! ## One life -/

/-- Every node is in its first life. -/
def NoRestart (_ : LossReports) : ReportAction → Prop
  | .restart _ => False
  | _ => True

/-- The next op id of a node that made the given reports in its first life. -/
def opAfter (issued : List LossReport) (node : EndpointId) : Nat :=
  1 + issued.countP fun r => r.reporter = node

theorem opAfter_concat (issued : List LossReport) (r : LossReport)
    (node : EndpointId) : opAfter (issued ++ [r]) node =
      opAfter issued node + if r.reporter = node then 1 else 0 := by
  simp only [opAfter, List.countP_append, List.countP_singleton, ← Nat.add_assoc,
    decide_eq_true_eq]

/-- Op ids count the reports of a node, modulo `2 ^ 64`. -/
structure OneLifeInv (s : LossReports) : Prop where
  next : ∀ e, (s.reporters e).nextOp.toNat = opAfter s.issued e % 2 ^ 64
  issued : ∀ i r, s.issued[i]? = some r →
    r.op.toNat = opAfter (s.issued.take i) r.reporter % 2 ^ 64
  arrived : ∀ a ∈ s.arrivals, s.issued[a.index]? = some a.report

theorem oneLifeInv_start (receiver : Partitions) (clock : Nat) :
    OneLifeInv (start receiver clock) := by
  refine ⟨fun e => rfl, fun i r hr => ?_, fun a ha => ?_⟩
  · simp [start] at hr
  · cases ha

theorem OneLifeInv.issue {s : LossReports} (h : OneLifeInv s)
    (reporter lost : EndpointId) :
    OneLifeInv { s with
      reporters := Function.update s.reporters reporter
        (s.reporters reporter).nextOpId.2
      issued := s.issued ++ [⟨reporter, lost, (s.reporters reporter).nextOp⟩] }
    := by
  refine ⟨fun e => ?_, fun i r hr => ?_, fun a ha => ?_⟩
  · show (Function.update s.reporters reporter _ e).nextOp.toNat =
      opAfter (s.issued ++ [_]) e % 2 ^ 64
    rw [opAfter_concat]
    by_cases he : e = reporter
    · subst he
      rw [Function.update_self, if_pos rfl]
      show ((s.reporters e).nextOp + 1).toNat = _
      rw [UInt64.toNat_add, h.next, UInt64.toNat_one]
      omega
    · rw [Function.update_of_ne he, if_neg (Ne.symm he), h.next]
      rfl
  · show r.op.toNat = opAfter ((s.issued ++ [_]).take i) r.reporter % 2 ^ 64
    rcases Nat.lt_or_ge i s.issued.length with hi | hi
    · rw [List.take_append_of_le_length hi.le]
      exact h.issued i r ((List.getElem?_append_left hi).symm.trans hr)
    · replace hr := (List.getElem?_append_right hi).symm.trans hr
      rw [List.getElem?_singleton] at hr
      split at hr
      · cases hr
        have hi' : i = s.issued.length := by omega
        rw [hi', List.take_left]
        exact h.next reporter
      · cases hr
  · have hold := h.arrived a ha
    obtain ⟨hi, -⟩ := List.getElem?_eq_some_iff.1 hold
    exact (List.getElem?_append_left hi).trans hold

theorem oneLifeInv_step {s t : LossReports} {a : ReportAction}
    (h : OneLifeInv s) (hok : s.NoRestart a) (hstep : step s a = some t) :
    OneLifeInv t := by
  cases a with
  | restart node => exact absurd hok id
  | issue reporter lost =>
    cases hstep
    exact h.issue reporter lost
  | tick elapsed =>
    cases hstep
    exact ⟨h.next, h.issued, h.arrived⟩
  | deliver i =>
    obtain ⟨r, hr, -, rfl⟩ := step_deliver hstep
    refine ⟨h.next, h.issued, fun a ha => ?_⟩
    rcases List.mem_append.1 ha with ha | ha
    · exact h.arrived a ha
    · rw [List.mem_singleton.1 ha]
      exact hr

/-- In one life, with a counter that has not wrapped around, a report that
arrives first was never handled. -/
theorem first_not_handled_of_one_life {receiver : Partitions} {clock : Nat}
    {s t : LossReports} {i : Nat} {r : LossReport}
    (hrun : Run step NoRestart (start receiver clock) s)
    (hlength : s.issued.length + 1 < 2 ^ 64)
    (hstep : step s (.deliver i) = some t) (hfirst : s.First i)
    (hr : s.issued[i]? = some r) : ¬ s.Handled r := by
  have h : OneLifeInv s := hrun.invariant
    (fun hs hok hnext => oneLifeInv_step hs hok hnext)
    (oneLifeInv_start receiver clock)
  rintro ⟨a, ha, -, hpair, -, hle⟩
  obtain ⟨r', hr', horder, -⟩ := step_deliver hstep
  rw [hr] at hr'
  cases hr'
  have hlt : a.index < i := by
    by_contra hge
    exact horder ⟨hfirst, a, ha,
      lt_of_le_of_ne (not_lt.1 hge) (hfirst a ha).symm, hpair⟩
  have harrived := h.arrived a ha
  obtain ⟨hin, hget⟩ := List.getElem?_eq_some_iff.1 harrived
  have hop := h.issued a.index a.report harrived
  have hop' := h.issued i r hr
  have hreporter : a.report.reporter = r.reporter := congrArg Prod.fst hpair
  -- The earlier report is counted by the later op id.
  have hcount : opAfter (s.issued.take a.index) r.reporter + 1 ≤
      opAfter (s.issued.take i) r.reporter := by
    have hsplit : s.issued.take (a.index + 1) =
        s.issued.take a.index ++ [a.report] := by
      rw [← hget, List.take_succ_eq_append_getElem]
    have hconcat := opAfter_concat (s.issued.take a.index) a.report r.reporter
    rw [← hsplit, if_pos hreporter] at hconcat
    have hsub : (s.issued.take (a.index + 1)).Sublist (s.issued.take i) :=
      (List.take_prefix_take_left hlt).sublist
    have hmono := hsub.countP_le (p := fun x => x.reporter = r.reporter)
    simp only [opAfter] at hconcat hmono ⊢
    omega
  have hbound : opAfter (s.issued.take i) r.reporter < 2 ^ 64 := by
    have hle := List.countP_le_length (p := fun x => x.reporter = r.reporter)
      (l := s.issued.take i)
    rw [List.length_take] at hle
    simp only [opAfter]
    omega
  rw [hreporter] at hop
  have := UInt64.le_iff_toNat_le.1 hle
  rw [hop, hop', Nat.mod_eq_of_lt hbound, Nat.mod_eq_of_lt (by omega)] at this
  omega

/-! ## Reports and copies -/

/-- While op ids and the hour are telling, every report is acted on when it
arrives first and no copy is; the first delivery for which they are not goes
wrong. -/
theorem reports_told_from_copies (me : EndpointId) (clock : Nat)
    (s : LossReports) (hrun : Run step Telling (start (.new me) clock) s) :
    s.Right ∧ ∀ a t, step s a = some t → (t.Right ↔ s.Telling a) := by
  have hstart : MemoryInv (start (.new me) clock) ∧
      Right (start (.new me) clock) := by
    refine ⟨memoryInv_start me clock, fun a ha => ?_⟩
    cases ha
  have hinv : MemoryInv s ∧ s.Right := by
    refine @Run.invariant _ _ _ _ _ _ (fun s => MemoryInv s ∧ s.Right) ?_ hrun
      hstart
    intro s t a hs htell hstep
    exact ⟨memoryInv_step hs.1 hstep, (hs.1.right_iff hs.2 hstep).2 htell⟩
  exact ⟨hinv.2, fun a t hstep => hinv.1.right_iff hinv.2 hstep⟩

/-- Two losses of node 3, and two copies. -/
theorem reports_told_from_copies_twice :
    ∃ s, Run step Telling (start (.new ⟨2⟩) 0) s ∧ s.arrivals.length = 4 ∧
      s.Right := by
  have hrun : ∃ s, Run step Telling (start (.new ⟨2⟩) 0) s ∧
      s.arrivals.length = 4 :=
    exec_run_of_any [.issue ⟨1⟩ ⟨3⟩, .deliver 0, .tick 1000, .issue ⟨1⟩ ⟨3⟩,
      .deliver 0, .deliver 1, .deliver 0] (by decide)
  obtain ⟨s, hrun, hlength⟩ := hrun
  exact ⟨s, hrun, hlength, (reports_told_from_copies ⟨2⟩ 0 s hrun).1⟩

/-- A restarted node reports a loss like the one before it stopped: it is
taken for a copy. -/
theorem restarted_report_refused :
    ¬ ∀ (me : EndpointId) (clock : Nat) (s : LossReports),
      Run step anyStep (start (.new me) clock) s → s.Right := by
  intro hall
  have hrun : ∃ s, Run step anyStep (start (.new ⟨2⟩) 0) s ∧
      ∃ a ∈ s.arrivals, a.accepted ≠ a.first :=
    exec_run_of_any [.issue ⟨1⟩ ⟨3⟩, .deliver 0, .restart ⟨1⟩, .issue ⟨1⟩ ⟨3⟩,
      .deliver 1] (by decide)
  obtain ⟨s, hrun, a, ha, hne⟩ := hrun
  exact hne (hall ⟨2⟩ 0 s hrun a ha)

end LossReports

end Plasmoid
