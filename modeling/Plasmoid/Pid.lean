import Mathlib.Data.Prod.Lex
import Mathlib.Tactic

/-!
# Particle identifiers

`EndpointId` is the 32-byte public key of a node and `Pid` names a particle
by its node and a sequence number, ordered by `(node, seq)`.  `PidGenerator`
is the node's source of fresh pids: an atomic `u64` counter, so the sequence
number wraps around after `2 ^ 64` draws.
-/

namespace Plasmoid

/-- The identity of a node.  The 32 key bytes are read as one big-endian
number, so the byte order of the source is the order of the numbers. -/
structure EndpointId where
  key : BitVec 256
deriving DecidableEq, Repr

instance : LinearOrder EndpointId :=
  LinearOrder.lift' (fun e => e.key.toNat) fun a b h => by
    cases a
    cases b
    simpa [BitVec.toNat_inj] using h

/-- A globally unique particle identifier. -/
structure Pid where
  node : EndpointId
  seq : UInt64
deriving DecidableEq, Repr

/-- The order of pids is `(node, seq)`, the derived order of the source. -/
instance : LinearOrder Pid :=
  LinearOrder.lift' (fun p => toLex (p.node, p.seq.toNat)) fun a b h => by
    cases a
    cases b
    simpa [UInt64.toNat_inj] using h

/-- Whether the pid belongs to the given node. -/
def Pid.isLocalTo (pid : Pid) (node : EndpointId) : Bool :=
  pid.node = node

@[simp] theorem Pid.isLocalTo_iff {pid : Pid} {node : EndpointId} :
    pid.isLocalTo node = true ↔ pid.node = node := by
  simp [Pid.isLocalTo]

@[simp] theorem Pid.isLocalTo_eq_false_iff {pid : Pid} {node : EndpointId} :
    pid.isLocalTo node = false ↔ pid.node ≠ node := by
  simp [Pid.isLocalTo]

/-- Lower-case hexadecimal, two digits a byte. -/
def hexEncode (bytes : List Nat) : String :=
  String.ofList
    (bytes.flatMap fun b => [Nat.digitChar (b / 16), Nat.digitChar (b % 16)])

/-- Byte `i` of the key, counted from the most significant end. -/
def EndpointId.byte (e : EndpointId) (i : Nat) : Nat :=
  e.key.toNat / 256 ^ (31 - i) % 256

/-- The first four bytes of the node id. -/
def Pid.nodePrefix (pid : Pid) : String :=
  hexEncode ((List.range 4).map pid.node.byte)

/-- The display form. -/
def Pid.display (pid : Pid) : String :=
  s!"<{pid.nodePrefix}.{pid.seq}>"

/-- The pid source of one node. -/
structure PidGenerator where
  node : EndpointId
  nextSeq : UInt64
deriving DecidableEq, Repr

namespace PidGenerator

/-- A generator for `node`.  The counter starts at one. -/
def new (node : EndpointId) : PidGenerator := ⟨node, 1⟩

/-- The pid that the next draw hands out. -/
def peek (g : PidGenerator) : Pid := ⟨g.node, g.nextSeq⟩

/-- `fetch_add(1)`: hand out the current number and advance, wrapping. -/
def next (g : PidGenerator) : Pid × PidGenerator :=
  (g.peek, { g with nextSeq := g.nextSeq + 1 })

@[simp] theorem next_fst (g : PidGenerator) : g.next.1 = g.peek := rfl

@[simp] theorem next_node (g : PidGenerator) : g.next.2.node = g.node := rfl

@[simp] theorem peek_node (g : PidGenerator) : g.peek.node = g.node := rfl

end PidGenerator

end Plasmoid
