import Plasmoid.Cluster
import Plasmoid.Lib.Tasks

/-!
# Rosters and announcements

How membership converges.  A node announces itself and those members it can
name an address of.  The receiver remembers the addresses, learns the nodes,
announces itself to those it did not know, and answers the sender if its
roster has a member that the sender did not name.  A node that dials us is
learned too.

A `MeshJob` is a message or an incoming connection on its way, or the rest of a
handler at one of its awaits.  Jobs are done in any order.
-/

namespace Plasmoid

open Machine

/-- One way to reach a node: a socket address or a relay. -/
abbrev TransportAddr := String

/-- A node, and how to reach it. -/
structure EndpointAddr where
  id : EndpointId
  addrs : List TransportAddr
deriving DecidableEq

/-- What we have been told about reaching our peers. -/
structure AddressBook where
  known : Table EndpointId EndpointAddr
  known_ok : ∀ x a, known.lookup x = some a → a.id = x ∧ a.addrs ≠ []

namespace AddressBook

def new : AddressBook where
  known := ∅
  known_ok x a h := by simp at h

/-- Put an entry in the place of what is known about its peer. -/
def replace (b : AddressBook) (a : EndpointAddr) (ha : a.addrs ≠ []) :
    AddressBook where
  known := b.known.insert a.id a
  known_ok x a' hx := by
    rw [Table.lookup_insert_eq] at hx
    split at hx
    · cases hx
      exact ⟨‹x = _›.symm, ha⟩
    · exact b.known_ok x a' hx

/-- Record how to reach a peer.  An entry with no addresses is ignored. -/
def remember (b : AddressBook) (addr : EndpointAddr) : AddressBook :=
  if h : addr.addrs = [] then b else b.replace addr h

/-- Everything we know about how to reach the given peers. -/
def addrsFor (b : AddressBook) (nodes : List EndpointId) : List EndpointAddr :=
  nodes.filterMap fun x => b.known.lookup x

/-- The nodes whose addresses are known. -/
def Knows (b : AddressBook) (x : EndpointId) : Prop := x ∈ b.known

instance (b : AddressBook) (x : EndpointId) : Decidable (b.Knows x) :=
  inferInstanceAs (Decidable (x ∈ b.known))

theorem knows_remember {b : AddressBook} {a : EndpointAddr} {x : EndpointId} :
    (b.remember a).Knows x ↔ b.Knows x ∨ x = a.id ∧ a.addrs ≠ [] := by
  unfold remember Knows
  split
  · rename_i h
    simp [h]
  · rename_i h
    simp only [replace, AList.mem_insert, ne_eq, h, not_false_eq_true, and_true]
    exact or_comm

/-- The nodes whose addresses are known after a list of entries. -/
theorem knows_foldl_remember {nodes : List EndpointAddr} {b : AddressBook}
    {x : EndpointId} : (nodes.foldl remember b).Knows x ↔
      b.Knows x ∨ ∃ a ∈ nodes, a.id = x ∧ a.addrs ≠ [] := by
  induction nodes generalizing b with
  | nil => simp
  | cons a nodes ih =>
    rw [List.foldl_cons, ih, knows_remember, List.exists_mem_cons_iff,
      or_assoc, eq_comm]

end AddressBook

/-- What one node has for reaching others and for being reached. -/
structure MeshNode (me : EndpointId) extends AddressBook where
  cluster : Cluster me
  /-- Our own addresses, none until probing finishes. -/
  addrs : List TransportAddr
  /-- The peers that we have an outbound link to. -/
  links : KeySet EndpointId

/-- A message or connection on its way to a node, or work that is left at it. -/
inductive MeshJob where
  /-- An announcement on its way. -/
  | message (node : EndpointId) (nodes : List EndpointAddr)
  /-- `node` is dialled by `remote`. -/
  | accept (node remote : EndpointId)
  /-- `node` is about to announce to one other. -/
  | greet (node target : EndpointId)
  /-- `node` has learned nodes from an announcement. -/
  | introduce (node : EndpointId) (learned announced : List EndpointId)
  /-- `node` is about to compare its roster with an announcement. -/
  | answer (node : EndpointId) (announced : List EndpointId)
deriving DecidableEq

namespace MeshNode

variable {me : EndpointId}

/-- A node that has met nobody. -/
def new (me : EndpointId) (addrs : List TransportAddr) : MeshNode me where
  toAddressBook := .new
  cluster := .new me
  addrs := addrs
  links := ∅

/-- Record in the book of the node how to reach a peer. -/
def remember (n : MeshNode me) (addr : EndpointAddr) : MeshNode me :=
  { n with toAddressBook := n.toAddressBook.remember addr }

/-- How others should reach us. -/
def ourAddr (n : MeshNode me) : EndpointAddr := ⟨me, n.addrs⟩

/-- What we tell a node about the cluster.  It is not named to itself. -/
def announcement (n : MeshNode me) (target : EndpointId) : List EndpointAddr :=
  n.ourAddr :: n.addrsFor
    (n.cluster.members.toList.filter fun x => x ≠ target)

/-- Send an announcement.  The first message to a peer dials it.  A node
cannot connect to itself. -/
def send (n : MeshNode me) (target : EndpointId) (nodes : List EndpointAddr) :
    MeshNode me × List MeshJob :=
  if target = me then (n, [])
  else if target ∈ n.links then (n, [.message target nodes])
  else ({ n with links := n.links.insert target },
    [.accept target me, .message target nodes])

/-- `announce_to`: tell some nodes about the whole cluster. -/
def announceTo (n : MeshNode me) :
    List EndpointId → MeshNode me × List MeshJob
  | [] => (n, [])
  | target :: rest =>
    let (n, jobs) := n.send target (n.announcement target)
    let (n, jobs') := n.announceTo rest
    (n, jobs ++ jobs')

/-- `sync_with_all` dials each node to exchange name tables. -/
def dial (me : EndpointId) (nodes : List EndpointId) : List MeshJob :=
  (nodes.filter fun x => x ≠ me).map fun x => .accept x me

/-- The roster has a member that the sender did not name. -/
def missing (n : MeshNode me) (sender : EndpointId)
    (announced : List EndpointId) : Bool :=
  n.cluster.members.toList.any fun x => x ≠ sender ∧ x ∉ announced

end MeshNode

/-- What every node has. -/
abbrev MeshNodes := (e : EndpointId) → MeshNode e

namespace MeshNodes

/-- Do one job at an instant. -/
def handle (s : MeshNodes) (now : Nat) : MeshJob → MeshNodes × List MeshJob
  | .message node nodes =>
    let n := nodes.foldl MeshNode.remember (s node)
    let announced := nodes.map (·.id)
    let (cluster, learned) := n.cluster.learn now announced
    (Function.update s node { n with cluster },
      if learned = [] then [.answer node announced]
      else [.introduce node learned announced])
  | .accept node remote =>
    let (cluster, fresh) := (s node).cluster.learn now [remote]
    (Function.update s node { s node with cluster },
      if fresh = [] then [] else .greet node remote :: MeshNode.dial node [remote])
  | .greet node target =>
    let (n, jobs) := (s node).announceTo [target]
    (Function.update s node n, jobs)
  | .introduce node learned announced =>
    let (n, jobs) := (s node).announceTo learned
    (Function.update s node n,
      jobs ++ MeshNode.dial node learned ++ [.answer node announced])
  | .answer node announced =>
    (s, match announced.head? with
      | some sender =>
        if (s node).missing sender announced then [.greet node sender] else []
      | none => [])

end MeshNodes

/-- A cluster and the jobs that are left. -/
abbrev Mesh := Pool MeshNodes MeshJob

/-- `join_at`: introduce a node to a cluster via one of its members. -/
def Mesh.join (s : Mesh) (now : Nat) (node : EndpointId)
    (peer : EndpointAddr) : Mesh :=
  let n := (s.env node).remember peer
  { env := Function.update s.env node
      { n with cluster := (n.cluster.learn now [peer.id]).1 }
    jobs := s.jobs ++ .greet node peer.id :: MeshNode.dial node [peer.id] }

/-! ## What the operations do -/

namespace MeshNode

variable {me : EndpointId}

@[simp] theorem cluster_remember (n : MeshNode me) (a : EndpointAddr) :
    (n.remember a).cluster = n.cluster := rfl

@[simp] theorem addrs_remember (n : MeshNode me) (a : EndpointAddr) :
    (n.remember a).addrs = n.addrs := rfl

theorem knows_remember {n : MeshNode me} {a : EndpointAddr} {x : EndpointId} :
    (n.remember a).Knows x ↔ n.Knows x ∨ x = a.id ∧ a.addrs ≠ [] :=
  AddressBook.knows_remember

/-- Remembering a list of addresses is done in the book. -/
theorem foldl_remember_eq (nodes : List EndpointAddr) (n : MeshNode me) :
    nodes.foldl remember n = { n with
      toAddressBook := nodes.foldl AddressBook.remember n.toAddressBook } := by
  induction nodes generalizing n with
  | nil => rfl
  | cons a nodes ih => exact ih (n.remember a)

/-- What remembering a list of addresses does. -/
theorem foldl_remember (nodes : List EndpointAddr) (n : MeshNode me) :
    (nodes.foldl remember n).cluster = n.cluster ∧
      (nodes.foldl remember n).addrs = n.addrs ∧
      ∀ x, (nodes.foldl remember n).Knows x ↔
        n.Knows x ∨ ∃ a ∈ nodes, a.id = x ∧ a.addrs ≠ [] := by
  rw [foldl_remember_eq]
  exact ⟨rfl, rfl, fun x => AddressBook.knows_foldl_remember⟩

/-- A node names those members whose addresses it knows, but not the recipient. -/
theorem mem_announcement {n : MeshNode me} {target : EndpointId}
    {a : EndpointAddr} : a ∈ n.announcement target ↔ a = n.ourAddr ∨
      n.known.lookup a.id = some a ∧ a.id ∈ n.cluster.members ∧
        a.id ≠ target := by
  unfold announcement AddressBook.addrsFor
  rw [List.mem_cons, List.mem_filterMap]
  refine or_congr_right ?_
  constructor
  · rintro ⟨x, hx, ha⟩
    obtain ⟨hmem, hne⟩ := List.mem_filter.1 hx
    obtain ⟨rfl, -⟩ := n.known_ok x a ha
    exact ⟨ha, hmem, by simpa using hne⟩
  · rintro ⟨ha, hmem, hne⟩
    exact ⟨a.id, List.mem_filter.2 ⟨hmem, by simpa using hne⟩, ha⟩

/-- A member with a known address is named to everyone else. -/
theorem named_in_announcement {n : MeshNode me} {target x : EndpointId}
    (hmem : x ∈ n.cluster.members) (hknown : n.Knows x) (hne : x ≠ target) :
    ∃ a ∈ n.announcement target, a.id = x := by
  obtain ⟨a, ha⟩ := Table.mem_iff_lookup.1 hknown
  obtain ⟨rfl, -⟩ := n.known_ok x a ha
  exact ⟨a, mem_announcement.2 (Or.inr ⟨ha, hmem, hne⟩), rfl⟩

theorem missing_iff {n : MeshNode me} {sender : EndpointId}
    {announced : List EndpointId} : n.missing sender announced = true ↔
      ∃ x ∈ n.cluster.members, x ≠ sender ∧ x ∉ announced := by
  simp [missing, List.any_eq_true]

/-- Sending touches the links only. -/
structure SameTables (n n' : MeshNode me) : Prop where
  cluster : n'.cluster = n.cluster
  known : n'.known = n.known
  addrs : n'.addrs = n.addrs

theorem SameTables.announcement {n n' : MeshNode me} (h : SameTables n n')
    (target : EndpointId) : n'.announcement target = n.announcement target := by
  unfold MeshNode.announcement AddressBook.addrsFor ourAddr
  rw [h.cluster, h.known, h.addrs]

theorem SameTables.trans {n₁ n₂ n₃ : MeshNode me} (h₁ : SameTables n₁ n₂)
    (h₂ : SameTables n₂ n₃) : SameTables n₁ n₃ :=
  ⟨h₂.cluster.trans h₁.cluster, h₂.known.trans h₁.known,
    h₂.addrs.trans h₁.addrs⟩

theorem send_spec (n : MeshNode me) (target : EndpointId)
    (nodes : List EndpointAddr) :
    SameTables n (n.send target nodes).1 ∧
      (target = me ∧ (n.send target nodes).2 = [] ∨
        target ≠ me ∧ ((n.send target nodes).2 = [.message target nodes] ∨
          (n.send target nodes).2 =
            [.accept target me, .message target nodes])) := by
  unfold send
  split
  · exact ⟨⟨rfl, rfl, rfl⟩, Or.inl ⟨‹_›, rfl⟩⟩
  · split
    · exact ⟨⟨rfl, rfl, rfl⟩, Or.inr ⟨‹_›, Or.inl rfl⟩⟩
    · exact ⟨⟨rfl, rfl, rfl⟩, Or.inr ⟨‹_›, Or.inr rfl⟩⟩

theorem announceTo_cons (n : MeshNode me) (target : EndpointId)
    (rest : List EndpointId) : n.announceTo (target :: rest) =
      (((n.send target (n.announcement target)).1.announceTo rest).1,
        (n.send target (n.announcement target)).2 ++
          ((n.send target (n.announcement target)).1.announceTo rest).2) :=
  rfl

/-- `announce_to` sends an announcement to everybody but ourselves, and dials
some of them. -/
theorem announceTo_spec (n : MeshNode me) (targets : List EndpointId) :
    SameTables n (n.announceTo targets).1 ∧
      (∀ t ∈ targets, t ≠ me →
        .message t (n.announcement t) ∈ (n.announceTo targets).2) ∧
      ∀ j ∈ (n.announceTo targets).2, ∃ t ∈ targets, t ≠ me ∧
        (j = .message t (n.announcement t) ∨ j = .accept t me) := by
  induction targets generalizing n with
  | nil => exact ⟨⟨rfl, rfl, rfl⟩, by simp, by simp [announceTo]⟩
  | cons target rest ih =>
    obtain ⟨hsame, hsent⟩ := n.send_spec target (n.announcement target)
    obtain ⟨hsame', hall, honly⟩ := ih (n.send target (n.announcement target)).1
    rw [announceTo_cons]
    refine ⟨hsame.trans hsame', ?_, ?_⟩
    · intro t ht hne
      rcases List.mem_cons.1 ht with rfl | ht
      · refine List.mem_append_left _ ?_
        rcases hsent with ⟨heq, -⟩ | ⟨-, heq | heq⟩
        · exact absurd heq hne
        · rw [heq]
          exact List.mem_singleton_self _
        · rw [heq]
          exact List.mem_cons_of_mem _ (List.mem_singleton_self _)
      · refine List.mem_append_right _ ?_
        have hsent' := hall t ht hne
        rw [hsame.announcement] at hsent'
        exact hsent'
    · intro j hj
      rcases List.mem_append.1 hj with hj | hj
      · refine ⟨target, List.mem_cons_self .., ?_⟩
        rcases hsent with ⟨-, heq⟩ | ⟨hne, heq | heq⟩
        · rw [heq] at hj
          cases hj
        · rw [heq] at hj
          exact ⟨hne, Or.inl (List.mem_singleton.1 hj)⟩
        · rw [heq] at hj
          rcases List.mem_cons.1 hj with hj | hj
          · exact ⟨hne, Or.inr hj⟩
          · exact ⟨hne, Or.inl (List.mem_singleton.1 hj)⟩
      · obtain ⟨t, ht, hne, h⟩ := honly j hj
        rw [hsame.announcement] at h
        exact ⟨t, List.mem_cons_of_mem _ ht, hne, h⟩

theorem mem_dial {nodes : List EndpointId} {j : MeshJob} :
    j ∈ dial me nodes ↔ ∃ x ∈ nodes, x ≠ me ∧ j = .accept x me := by
  simp only [dial, List.mem_map, List.mem_filter, decide_eq_true_eq, and_assoc]
  exact exists_congr fun x => and_congr_right fun _ =>
    and_congr_right fun _ => eq_comm

end MeshNode

end Plasmoid
