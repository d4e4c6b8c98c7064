import Plasmoid.Lib.Table
import Plasmoid.Pid

/-!
# Which connection losses a node has acted on

A node that loses a link stamps its report with an op id from a counter of its
own.  Reports are flooded, so every node remembers for an hour which op id it
has handled last for each pair of reporter and lost node.  `accept` tells a
report that is new from one that was seen.  Instants are in milliseconds.
-/

namespace Plasmoid

/-- A `LostConnection` report. -/
structure LossReport where
  reporter : EndpointId
  lost : EndpointId
  op : UInt64
deriving DecidableEq

/-- The pair of nodes that a report is about. -/
def LossReport.pair (r : LossReport) : EndpointId × EndpointId :=
  (r.reporter, r.lost)

/-- `SEEN_RETENTION`: how long a handled report is remembered. -/
def seenRetention : Nat := 60 * 60 * 1000

/-- Which connection losses this node has already acted on. -/
structure Partitions where
  me : EndpointId
  /-- Our own counter, stamped on losses we report. -/
  nextOp : UInt64
  /-- `(reporter, lost)`: the highest op id handled, and when. -/
  seen : Table (EndpointId × EndpointId) (UInt64 × Nat)

namespace Partitions

def new (me : EndpointId) : Partitions where
  me := me
  nextOp := 1
  seen := ∅

/-- `fetch_add` on the counter. -/
def nextOpId (p : Partitions) : UInt64 × Partitions :=
  (p.nextOp, { p with nextOp := p.nextOp + 1 })

/-- Is the entry still remembered? -/
def retained (now : Nat) (entry : UInt64 × Nat) : Bool :=
  now - entry.2 < seenRetention

/-- The entries that are still remembered. -/
def prune (p : Partitions) (now : Nat) :
    Table (EndpointId × EndpointId) (UInt64 × Nat) :=
  Table.retain (fun _ entry => retained now entry) p.seen

/-- Record a report, and tell whether it is new and should be acted on. -/
def accept (p : Partitions) (now : Nat) (reporter lost : EndpointId)
    (op : UInt64) : Partitions × Bool :=
  let seen := p.prune now
  match seen.lookup (reporter, lost) with
  | some (highest, _) =>
    if op ≤ highest then ({ p with seen }, false)
    else ({ p with seen := seen.insert (reporter, lost) (op, now) }, true)
  | none => ({ p with seen := seen.insert (reporter, lost) (op, now) }, true)

/-- The report was handled, or a later one on its pair, and the node remembers
it. -/
def Seen (p : Partitions) (now : Nat) (pair : EndpointId × EndpointId)
    (op : UInt64) : Prop :=
  ∃ entry ∈ p.seen.lookup pair, retained now entry = true ∧ op ≤ entry.1

instance (p : Partitions) (now : Nat) (pair : EndpointId × EndpointId)
    (op : UInt64) : Decidable (p.Seen now pair op) :=
  inferInstanceAs (Decidable (∃ entry ∈ p.seen.lookup pair, _ ∧ _))

theorem lookup_prune (p : Partitions) (now : Nat)
    (pair : EndpointId × EndpointId) : (p.prune now).lookup pair =
      (p.seen.lookup pair).filter (retained now) :=
  Table.lookup_retain ..

/-- `accept` refuses what it has seen. -/
theorem accept_of_seen {p : Partitions} {now : Nat} {reporter lost : EndpointId}
    {op : UInt64} (h : p.Seen now (reporter, lost) op) :
    p.accept now reporter lost op = ({ p with seen := p.prune now }, false) := by
  obtain ⟨entry, hentry, hkept, hle⟩ := h
  have hlookup : (p.prune now).lookup (reporter, lost) = some entry := by
    rw [lookup_prune, hentry]
    simp [Option.filter, hkept]
  unfold accept
  simp only [hlookup, if_pos hle]

/-- `accept` remembers what it has not seen. -/
theorem accept_of_not_seen {p : Partitions} {now : Nat}
    {reporter lost : EndpointId} {op : UInt64}
    (h : ¬ p.Seen now (reporter, lost) op) :
    p.accept now reporter lost op =
      ({ p with seen := (p.prune now).insert (reporter, lost) (op, now) },
        true) := by
  unfold accept
  cases hlookup : (p.prune now).lookup (reporter, lost) with
  | none => simp only [hlookup]
  | some entry =>
    have hold := hlookup
    rw [lookup_prune] at hold
    obtain ⟨hentry, hkept⟩ := Option.filter_eq_some_iff.1 hold
    have hlt : ¬ op ≤ entry.1 := fun hle => h ⟨entry, hentry, hkept, hle⟩
    simp only [hlookup, if_neg hlt]

theorem accept_eq_true_iff {p : Partitions} {now : Nat}
    {reporter lost : EndpointId} {op : UInt64} :
    (p.accept now reporter lost op).2 = true ↔
      ¬ p.Seen now (reporter, lost) op := by
  by_cases h : p.Seen now (reporter, lost) op
  · rw [accept_of_seen h]
    simp [h]
  · rw [accept_of_not_seen h]
    simp [h]

/-- What is known of a pair after `accept`. -/
theorem lookup_accept (p : Partitions) (now : Nat) (reporter lost : EndpointId)
    (op : UInt64) (pair : EndpointId × EndpointId) :
    (p.accept now reporter lost op).1.seen.lookup pair =
      if pair = (reporter, lost) ∧ ¬ p.Seen now (reporter, lost) op then
        some (op, now)
      else (p.seen.lookup pair).filter (retained now) := by
  by_cases h : p.Seen now (reporter, lost) op
  · rw [accept_of_seen h, if_neg fun hnew => hnew.2 h]
    exact lookup_prune ..
  · rw [accept_of_not_seen h]
    simp only [h, not_false_eq_true, and_true]
    rw [Table.lookup_insert_eq, lookup_prune]

theorem me_accept (p : Partitions) (now : Nat) (reporter lost : EndpointId)
    (op : UInt64) : (p.accept now reporter lost op).1.me = p.me := by
  by_cases h : p.Seen now (reporter, lost) op
  · rw [accept_of_seen h]
  · rw [accept_of_not_seen h]

end Partitions

end Plasmoid
