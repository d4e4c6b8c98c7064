import Plasmoid.Cluster
import Plasmoid.Partitions
import Plasmoid.Lib.Tasks

/-!
# Deliberate disconnects

A node that hears that a connection was lost passes the report on to its
members and disconnects from the node reported lost: it quarantines the node,
asks it to disconnect in turn, and tears the link down.  The loss of the link
is announced on the node itself, to the membership reactor and to the loss
reporter, which does not report a quarantined node.

A `LossJob` is a message on its way, an announced loss, or the rest of a handler
at one of its awaits.  Jobs are done in any order.
-/

namespace Plasmoid

open Machine

/-- What a node keeps about its peers and the losses it has handled. -/
structure LossNode (me : EndpointId) where
  cluster : Cluster me
  partitions : Partitions
  me_eq : partitions.me = me

namespace LossNode

variable {me : EndpointId}

/-- `Partitions::accept`, on the node. -/
def accept (n : LossNode me) (now : Nat) (report : LossReport) :
    LossNode me × Bool :=
  ({ n with
      partitions := (n.partitions.accept now report.reporter report.lost
        report.op).1
      me_eq := (n.partitions.me_accept ..).trans n.me_eq },
    (n.partitions.accept now report.reporter report.lost report.op).2)

/-- The report that the loss reporter makes, and the node after it. -/
def report (n : LossNode me) (lost : EndpointId) : LossReport × LossNode me :=
  (⟨n.partitions.me, lost, n.partitions.nextOpId.1⟩,
    { n with partitions := n.partitions.nextOpId.2, me_eq := n.me_eq })

end LossNode

/-- A message, an announced loss, or work that is left at a node. -/
inductive LossJob where
  /-- A report on its way. -/
  | lostConnection (node : EndpointId) (report : LossReport)
  /-- A request to disconnect on its way. -/
  | removeConnection (node sender : EndpointId)
  /-- `on_lost_connection` has accepted a report. -/
  | flood (node : EndpointId) (report : LossReport)
  /-- `on_lost_connection` is about to disconnect. -/
  | disconnect (node target : EndpointId)
  /-- The loss reporter is about to hear of a loss. -/
  | reportLoss (node lost : EndpointId)
  /-- The membership reactor is about to hear of a loss. -/
  | forget (node lost : EndpointId)
deriving DecidableEq

namespace LossJob

/-- Where the job is done. -/
def node : LossJob → EndpointId
  | lostConnection node _ | removeConnection node _ | flood node _
  | disconnect node _ | reportLoss node _ | forget node _ => node

/-- The member that the job removes. -/
def drops : LossJob → Option EndpointId
  | removeConnection _ sender => some sender
  | disconnect _ target => some target
  | forget _ lost => some lost
  | _ => none

/-- The node disconnects from a peer deliberately. -/
def Quits (j : LossJob) (node peer : EndpointId) : Prop :=
  j = disconnect node peer ∨ j = removeConnection node peer

end LossJob

/-- Every node, the clock, and which report was accepted where and when. -/
structure LossEnv where
  node : (e : EndpointId) → LossNode e
  clock : Nat
  acceptances : List (EndpointId × LossReport × Nat)

namespace LossEnv

def setNode (s : LossEnv) {node : EndpointId} (n : LossNode node) : LossEnv :=
  { s with node := Function.update s.node node n }

/-- `disconnect_deliberately`: quarantine, ask the far side to drop us, and tear
the link down.  A node cannot connect to itself. -/
def disconnectDeliberately (s : LossEnv) (node target : EndpointId) :
    LossEnv × List LossJob :=
  (s.setNode { s.node node with
      cluster := (s.node node).cluster.quarantine s.clock target },
    (if target = node then [] else [.removeConnection target node]) ++
      [.reportLoss node target, .forget node target])

/-- Whom a receiver drops: the node reported lost, or the reporter if the
receiver is the one reported lost. -/
def target (node : EndpointId) (report : LossReport) : EndpointId :=
  if report.lost = node then report.reporter else report.lost

/-- Do one job. -/
def doJob (s : LossEnv) : LossJob → LossEnv × List LossJob
  | .lostConnection node report =>
    let (n, new) := (s.node node).accept s.clock report
    ({ s.setNode n with
        acceptances :=
          s.acceptances ++ if new then [(node, report, s.clock)] else [] },
      if new then [.flood node report] else [])
  | .flood node report =>
    -- Pass it on before acting, so the news outlives us losing the reporter.
    (s, (((s.node node).cluster.members.toList.filter fun x =>
        x ≠ report.reporter ∧ x ≠ report.lost).map
          fun x => .lostConnection x report) ++
      if target node report = node then []
      else [.disconnect node (target node report)])
  | .disconnect node target => s.disconnectDeliberately node target
  | .removeConnection node sender => s.disconnectDeliberately node sender
  | .reportLoss node lost =>
    if (s.node node).cluster.isQuarantined s.clock lost then (s, [])
    else
      let (report, n) := (s.node node).report lost
      (s.setNode { n with cluster := n.cluster.expire s.clock lost },
        (n.cluster.members.toList.filter fun x => x ≠ lost).map
          fun x => .lostConnection x report)
  | .forget node lost =>
    (s.setNode { s.node node with
      cluster := (s.node node).cluster.forget lost }, [])

/-- Do one job at an instant. -/
def handle (s : LossEnv) (now : Nat) (j : LossJob) : LossEnv × List LossJob :=
  doJob { s with clock := now } j

end LossEnv

/-- The nodes and the jobs that are left. -/
abbrev LossFlood := Pool LossEnv LossJob

/-! ## What the jobs do -/

namespace LossEnv

theorem node_setNode_self (s : LossEnv) {e : EndpointId} (n : LossNode e) :
    (s.setNode n).node e = n :=
  Function.update_self ..

theorem node_setNode_of_ne (s : LossEnv) {e node : EndpointId}
    (h : e ≠ node) (n : LossNode node) : (s.setNode n).node e = s.node e :=
  Function.update_of_ne h ..

/-- A job removes the member that it drops, and none besides. -/
theorem mem_members_doJob (s : LossEnv) (j : LossJob) (e x : EndpointId) :
    x ∈ ((s.doJob j).1.node e).cluster.members ↔
      x ∈ (s.node e).cluster.members ∧ ¬ (e = j.node ∧ j.drops = some x) := by
  have hremoved : ∀ {node target : EndpointId} (n : LossNode node),
      n.cluster.members = (s.node node).cluster.members.remove target →
      (x ∈ ((s.setNode n).node e).cluster.members ↔
        x ∈ (s.node e).cluster.members ∧ ¬ (e = node ∧ target = x)) := by
    intro node target n hn
    by_cases h : e = node
    · subst h
      rw [node_setNode_self, hn, KeySet.mem_remove]
      simp [and_comm, eq_comm]
    · rw [node_setNode_of_ne s h]
      simp [h]
  have hkept : ∀ {node : EndpointId} (n : LossNode node),
      n.cluster.members = (s.node node).cluster.members →
      (x ∈ ((s.setNode n).node e).cluster.members ↔
        x ∈ (s.node e).cluster.members) := by
    intro node n hn
    by_cases h : e = node
    · subst h
      rw [node_setNode_self, hn]
    · rw [node_setNode_of_ne s h]
  cases j with
  | lostConnection node report =>
    refine (hkept ((s.node node).accept s.clock report).1 rfl).trans ?_
    simp [LossJob.drops]
  | flood node report => simp [LossJob.drops, doJob]
  | disconnect node target =>
    refine (hremoved { s.node node with
      cluster := (s.node node).cluster.quarantine s.clock target } rfl).trans ?_
    simp [LossJob.drops, LossJob.node]
  | removeConnection node sender =>
    refine (hremoved { s.node node with
      cluster := (s.node node).cluster.quarantine s.clock sender } rfl).trans ?_
    simp [LossJob.drops, LossJob.node]
  | reportLoss node lost =>
    simp only [LossJob.drops, doJob]
    split
    · simp
    · refine (hkept _ (Cluster.members_expire ..)).trans ?_
      simp
  | forget node lost =>
    refine (hremoved { s.node node with
      cluster := (s.node node).cluster.forget lost } rfl).trans ?_
    simp [LossJob.drops, LossJob.node]

/-- Only a report that arrives changes what a node has seen. -/
theorem seen_doJob (s : LossEnv) (j : LossJob) (e : EndpointId)
    (h : ∀ report, j ≠ .lostConnection e report) :
    ((s.doJob j).1.node e).partitions.seen = (s.node e).partitions.seen := by
  have hkept : ∀ {node : EndpointId} (n : LossNode node),
      n.partitions.seen = (s.node node).partitions.seen →
      ((s.setNode n).node e).partitions.seen = (s.node e).partitions.seen := by
    intro node n hn
    by_cases heq : e = node
    · subst heq
      rw [node_setNode_self, hn]
    · rw [node_setNode_of_ne s heq]
  cases j with
  | lostConnection node report =>
    have hne : e ≠ node := by
      rintro rfl
      exact h report rfl
    exact congrArg (fun n => n.partitions.seen) (node_setNode_of_ne s hne
      ((s.node node).accept s.clock report).1)
  | flood node report => rfl
  | disconnect node target => exact hkept _ rfl
  | removeConnection node sender => exact hkept _ rfl
  | reportLoss node lost =>
    simp only [doJob]
    split
    · rfl
    · exact hkept _ rfl
  | forget node lost => exact hkept _ rfl

/-! ## Where jobs come from -/

/-- What comes of a job. -/
inductive Causes (s : LossEnv) : LossJob → LossJob → Prop
  | flood {node : EndpointId} {report : LossReport}
      (hnew : ¬ (s.node node).partitions.Seen s.clock report.pair report.op) :
      Causes s (.lostConnection node report) (.flood node report)
  | passOn {node x : EndpointId} {report : LossReport}
      (hx : x ∈ (s.node node).cluster.members)
      (hne : x ≠ report.reporter ∧ x ≠ report.lost) :
      Causes s (.flood node report) (.lostConnection x report)
  | act {node : EndpointId} {report : LossReport}
      (hne : target node report ≠ node) :
      Causes s (.flood node report) (.disconnect node (target node report))
  | ask {node peer : EndpointId} {j : LossJob} (hj : j.Quits node peer)
      (hne : peer ≠ node) : Causes s j (.removeConnection peer node)
  | lose {node peer : EndpointId} {j : LossJob} (hj : j.Quits node peer) :
      Causes s j (.reportLoss node peer)
  | leave {node peer : EndpointId} {j : LossJob} (hj : j.Quits node peer) :
      Causes s j (.forget node peer)
  | report {node lost x : EndpointId} {report : LossReport}
      (hfree : (s.node node).cluster.isQuarantined s.clock lost = false) :
      Causes s (.reportLoss node lost) (.lostConnection x report)

theorem doJob_of_quits {s : LossEnv} {j : LossJob} {node peer : EndpointId}
    (hj : j.Quits node peer) : s.doJob j = s.disconnectDeliberately node peer := by
  rcases hj with rfl | rfl <;> rfl

theorem causes_of_quits {s : LossEnv} {j x : LossJob} {node peer : EndpointId}
    (hj : j.Quits node peer) (h : x ∈ (s.doJob j).2) : Causes s j x := by
  rw [doJob_of_quits hj] at h
  rcases List.mem_append.1 h with h | h
  · split at h
    · cases h
    · rename_i hne
      cases List.mem_singleton.1 h
      exact .ask hj hne
  · rcases List.mem_cons.1 h with rfl | h
    · exact .lose hj
    · cases List.mem_singleton.1 h
      exact .leave hj

theorem causes_doJob {s : LossEnv} {j x : LossJob} (h : x ∈ (s.doJob j).2) :
    Causes s j x := by
  cases j with
  | lostConnection node report =>
    simp only [doJob] at h
    split at h
    · rename_i hnew
      cases List.mem_singleton.1 h
      exact .flood (Partitions.accept_eq_true_iff.1 hnew)
    · cases h
  | flood node report =>
    rcases List.mem_append.1 h with h | h
    · obtain ⟨y, hy, rfl⟩ := List.mem_map.1 h
      obtain ⟨hy, hne⟩ := List.mem_filter.1 hy
      exact .passOn (KeySet.mem_toList.1 hy) (of_decide_eq_true hne)
    · split at h
      · cases h
      · rename_i hne
        cases List.mem_singleton.1 h
        exact .act hne
  | disconnect node peer => exact causes_of_quits (Or.inl rfl) h
  | removeConnection node sender => exact causes_of_quits (Or.inr rfl) h
  | reportLoss node lost =>
    simp only [doJob] at h
    split at h
    · cases h
    · rename_i hfree
      obtain ⟨y, -, rfl⟩ := List.mem_map.1 h
      exact .report (Bool.eq_false_iff.2 hfree)
  | forget node lost => cases h

end LossEnv

end Plasmoid
