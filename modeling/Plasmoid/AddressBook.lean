import Plasmoid.Lib.Overwrites
import Plasmoid.Mesh

/-!
# What a node knows about reaching its peers

A node keeps one entry for each peer it has been told about.  `remember`
replaces the entry by the one that it is given.  `remember_incoming` adds the
address that a peer has reached us on.

Announcements come in on several links at once.  The handler of one remembers
its entries one after the other, and handlers of others may run in between.  So
an address that is known for a peer is lost when anybody announces the peer
without it.
-/

namespace Plasmoid

open Machine Overwrites

/-- The path that a peer reached us on. -/
inductive IncomingAddr where
  | ip (socketAddr : TransportAddr)
  | relay (url : TransportAddr)
  /-- A custom transport, or one that is not known yet. -/
  | other

/-- The address to dial a peer by that reached us on this path. -/
def IncomingAddr.transport : IncomingAddr → Option TransportAddr
  | ip socketAddr => some socketAddr
  | relay url => some url
  | other => none

namespace AddressBook

/-- Remember the path that a peer reached us on. -/
def rememberIncoming (b : AddressBook) (id : EndpointId) (addr : IncomingAddr) :
    AddressBook :=
  match addr.transport with
  -- We cannot dial a custom transport.
  | none => b
  | some transport =>
    match b.known.lookup id with
    | some a => b.replace ⟨id, a.addrs.insert transport⟩
        (List.ne_nil_of_mem List.mem_insert_self)
    | none => b.replace ⟨id, [transport]⟩ (List.cons_ne_nil _ _)

/-- How to dial a node: a known address if we have one, else the bare id. -/
def dialTarget (b : AddressBook) (node : EndpointId) : EndpointAddr :=
  (b.known.lookup node).getD ⟨node, []⟩

@[simp] theorem dialTarget_new (node : EndpointId) :
    new.dialTarget node = ⟨node, []⟩ := rfl

theorem dialTarget_replace (b : AddressBook) (a : EndpointAddr)
    (ha : a.addrs ≠ []) (node : EndpointId) :
    (b.replace a ha).dialTarget node =
      if node = a.id then a else b.dialTarget node := by
  rw [dialTarget, replace, Table.lookup_insert_eq]
  split
  · rfl
  · rfl

theorem mem_replace {b : AddressBook} {a : EndpointAddr} (ha : a.addrs ≠ [])
    {node : EndpointId} {t : TransportAddr} :
    t ∈ ((b.replace a ha).dialTarget node).addrs ↔
      (a.id = node ∧ t ∈ a.addrs) ∨
        (t ∈ (b.dialTarget node).addrs ∧ a.id ≠ node) := by
  rw [dialTarget_replace]
  split
  · rename_i heq
    simp [heq]
  · rename_i hne
    simp [Ne.symm hne]

/-- What becomes of the known addresses in `remember`. -/
theorem mem_remember {b : AddressBook} {addr : EndpointAddr} {node : EndpointId}
    {t : TransportAddr} :
    t ∈ ((b.remember addr).dialTarget node).addrs ↔
      (addr.id = node ∧ t ∈ addr.addrs) ∨
        (t ∈ (b.dialTarget node).addrs ∧ ¬ (addr.id = node ∧ addr.addrs ≠ [])) := by
  rw [remember]
  split
  · rename_i hnone
    simp [hnone]
  · rename_i hsome
    rw [mem_replace]
    simp [hsome]

/-- An entry that has one address more than what was known. -/
theorem mem_replace_of_more {b : AddressBook} {id : EndpointId}
    {transport : TransportAddr} {addrs : List TransportAddr} (ha : addrs ≠ [])
    (hmore : ∀ t, t ∈ addrs ↔ transport = t ∨ t ∈ (b.dialTarget id).addrs)
    {node : EndpointId} {t : TransportAddr} :
    t ∈ ((b.replace ⟨id, addrs⟩ ha).dialTarget node).addrs ↔
      (id = node ∧ transport = t) ∨ t ∈ (b.dialTarget node).addrs := by
  rw [mem_replace, hmore]
  by_cases heq : id = node
  · subst heq
    simp
  · simp [heq]

/-- What becomes of the known addresses in `remember_incoming`. -/
theorem mem_rememberIncoming {b : AddressBook} {id : EndpointId}
    {addr : IncomingAddr} {node : EndpointId} {t : TransportAddr} :
    t ∈ ((b.rememberIncoming id addr).dialTarget node).addrs ↔
      (id = node ∧ addr.transport = some t) ∨ t ∈ (b.dialTarget node).addrs := by
  rw [rememberIncoming]
  cases htransport : addr.transport with
  | none => simp
  | some transport =>
    rw [Option.some_inj]
    cases hknown : b.known.lookup id with
    | none =>
      have hold : b.dialTarget id = ⟨id, []⟩ := by
        rw [dialTarget, hknown]
        rfl
      refine mem_replace_of_more _ fun t => ?_
      simp [hold, eq_comm]
    | some a =>
      have hold : b.dialTarget id = a := by
        rw [dialTarget, hknown]
        rfl
      refine mem_replace_of_more _ fun t => ?_
      simp [hold, List.mem_insert_iff, eq_comm]

end AddressBook

/-! ## The calls -/

/-- A call that changes the book. -/
inductive BookCall where
  | remember (addr : EndpointAddr)
  | rememberIncoming (id : EndpointId) (addr : IncomingAddr)

namespace BookCall

/-- The call names this address of the peer. -/
def Records (node : EndpointId) (t : TransportAddr) : BookCall → Prop
  | remember addr => addr.id = node ∧ t ∈ addr.addrs
  | rememberIncoming id addr => id = node ∧ addr.transport = some t

/-- The call replaces the entry of the peer. -/
def Replaces (node : EndpointId) : BookCall → Prop
  | remember addr => addr.id = node ∧ addr.addrs ≠ []
  | rememberIncoming .. => False

/-- If the later call replaces the entry of a peer, then it names every address
that the earlier call named of this peer. -/
def Confirms (earlier later : BookCall) : Prop :=
  ∀ node t, later.Replaces node → earlier.Records node t → later.Records node t

/-- The call as a write to the set of known addresses. -/
def write (c : BookCall) : Write (EndpointId × TransportAddr) where
  adds := {x | c.Records x.1 x.2}
  clears := {x | c.Replaces x.1}

theorem spares_iff {earlier later : BookCall} :
    earlier.write.Spares later.write ↔ Confirms earlier later := by
  constructor
  · intro h node t hreplaces hrecords
    exact @h (node, t) ⟨hrecords, hreplaces⟩
  · rintro h ⟨node, t⟩ ⟨hrecords, hreplaces⟩
    exact h node t hreplaces hrecords

end BookCall

namespace AddressBook

def call (b : AddressBook) : BookCall → AddressBook
  | .remember addr => b.remember addr
  | .rememberIncoming id addr => b.rememberIncoming id addr

/-- All addresses that are known, each with its peer. -/
def facts (b : AddressBook) : Set (EndpointId × TransportAddr) :=
  {x | x.2 ∈ (b.dialTarget x.1).addrs}

@[simp] theorem facts_new : new.facts = ∅ := by
  ext x
  simp [facts]

theorem facts_call (b : AddressBook) (c : BookCall) :
    (b.call c).facts = c.write.apply b.facts := by
  ext ⟨node, t⟩
  cases c with
  | remember addr => exact mem_remember
  | rememberIncoming id addr =>
    refine mem_rememberIncoming.trans (or_congr_right ?_)
    exact ⟨fun h => ⟨h, not_false⟩, fun h => h.1⟩

end AddressBook

/-! ## Announcements -/

/-- The book, and the calls that have been made. -/
structure BookLog where
  book : AddressBook
  calls : List BookCall

def BookLog.call (s : BookLog) (c : BookCall) : BookLog :=
  ⟨s.book.call c, s.calls ++ [c]⟩

/-- One turn of the loop over the entries of an announcement. -/
def BookLog.handle (s : BookLog) (_ : Unit) :
    List EndpointAddr → BookLog × List (List EndpointAddr)
  | [] => (s, [])
  | addr :: rest => (s.call (.remember addr), [rest])

/-- A book, and the announcements whose entries are yet to be remembered. -/
abbrev AddressTraffic := Pool BookLog (List EndpointAddr)

inductive AddressAction where
  /-- A call that is made directly. -/
  | call (c : BookCall)
  /-- An announcement comes in. -/
  | announce (nodes : List EndpointAddr)
  /-- The handler of the `i`-th announcement goes on. -/
  | work (i : ℕ)

namespace AddressTraffic

def start : AddressTraffic := ⟨⟨.new, []⟩, []⟩

def perform (s : AddressTraffic) : AddressAction → AddressTraffic
  | .call c => { s with env := s.env.call c }
  | .announce nodes => { s with jobs := s.jobs ++ [nodes] }
  | .work i => (s.work BookLog.handle i ()).getD s

def afterActions (actions : List AddressAction) : AddressTraffic :=
  actions.foldl perform start

/-- An action makes one call or none. -/
theorem perform_cases (s : AddressTraffic) (a : AddressAction) :
    (s.perform a).env = s.env ∨ ∃ c, (s.perform a).env = s.env.call c := by
  cases a with
  | call c => exact .inr ⟨c, rfl⟩
  | announce nodes => exact .inl rfl
  | work i =>
    rw [perform]
    cases hwork : s.work BookLog.handle i () with
    | none => exact .inl rfl
    | some t =>
      obtain ⟨nodes, -, rfl⟩ := Pool.work_cases hwork
      cases nodes with
      | nil => exact .inl rfl
      | cons addr rest => exact .inr ⟨.remember addr, rfl⟩

theorem afterActions_concat (actions : List AddressAction) (a : AddressAction) :
    afterActions (actions ++ [a]) = (afterActions actions).perform a := by
  rw [afterActions, List.foldl_append]
  rfl

/-- The known addresses are what the calls have left of all they wrote. -/
theorem facts_afterActions (actions : List AddressAction) :
    (afterActions actions).env.book.facts =
      after ((afterActions actions).env.calls.map BookCall.write) := by
  induction actions using List.reverseRecOn with
  | nil => exact AddressBook.facts_new
  | append_singleton actions a ih =>
    rw [afterActions_concat]
    rcases perform_cases (afterActions actions) a with h | ⟨c, h⟩
    · rw [h, ih]
    · rw [h, BookLog.call, AddressBook.facts_call, ih, List.map_append,
        List.map_singleton, after_concat]

/-- The calls of an earlier moment come first. -/
theorem calls_take (actions : List AddressAction) (i : ℕ) :
    (afterActions (actions.take i)).env.calls <+:
      (afterActions actions).env.calls := by
  induction actions using List.reverseRecOn with
  | nil => rw [List.take_nil]
  | append_singleton actions a ih =>
    rcases Nat.lt_or_ge actions.length i with hi | hi
    · rw [List.take_of_length_le (by simpa using hi)]
    · rw [List.take_append_of_le_length hi, afterActions_concat]
      refine ih.trans ?_
      rcases perform_cases (afterActions actions) a with h | ⟨c, h⟩
      · rw [h]
      · rw [h]
        exact List.prefix_append _ _

/-- There is a moment after each call. -/
theorem exists_moment (actions : List AddressAction) {k : ℕ}
    (hk : k ≤ (afterActions actions).env.calls.length) :
    ∃ i ≤ actions.length, (afterActions (actions.take i)).env.calls =
      (afterActions actions).env.calls.take k := by
  induction actions using List.reverseRecOn generalizing k with
  | nil =>
    refine ⟨0, le_rfl, ?_⟩
    simp [afterActions, start]
  | append_singleton actions a ih =>
    have hearlier : ∀ k ≤ (afterActions actions).env.calls.length,
        ∃ i ≤ (actions ++ [a]).length,
          (afterActions ((actions ++ [a]).take i)).env.calls =
            (afterActions actions).env.calls.take k := by
      intro k hk
      obtain ⟨i, hi, hcalls⟩ := ih hk
      refine ⟨i, hi.trans (by simp), ?_⟩
      rw [List.take_append_of_le_length hi, hcalls]
    rw [afterActions_concat] at hk ⊢
    rcases perform_cases (afterActions actions) a with h | ⟨c, h⟩
    · rw [h] at hk ⊢
      exact hearlier k hk
    · rw [h] at hk ⊢
      rcases Nat.lt_or_ge (afterActions actions).env.calls.length k with hlast | hle
      · refine ⟨(actions ++ [a]).length, le_rfl, ?_⟩
        rw [List.take_length, afterActions_concat, h,
          List.take_of_length_le (by simpa [BookLog.call] using hlast)]
      · rw [BookLog.call, List.take_append_of_le_length hle]
        exact hearlier k hle

/-- How many calls have been made by a moment. -/
def moment (actions : List AddressAction) (i : ℕ) : ℕ :=
  (afterActions (actions.take i)).env.calls.length

theorem moment_mono (actions : List AddressAction) {i j : ℕ} (hij : i ≤ j) :
    moment actions i ≤ moment actions j := by
  have hcalls := calls_take (actions.take j) i
  rw [List.take_take, min_eq_left hij] at hcalls
  exact hcalls.length_le

theorem facts_moment (actions : List AddressAction) (i : ℕ) :
    (afterActions (actions.take i)).env.book.facts =
      after (((afterActions actions).env.calls.map BookCall.write).take
        (moment actions i)) := by
  rw [facts_afterActions, moment, ← List.map_take,
    ← List.prefix_iff_eq_take.1 (calls_take actions i)]

/-- What is known after some of the calls is known at some moment. -/
theorem exists_moment_facts (actions : List AddressAction) (k : ℕ) :
    ∃ i, moment actions i = min k (afterActions actions).env.calls.length ∧
      after (((afterActions actions).env.calls.map BookCall.write).take k) =
        (afterActions (actions.take i)).env.book.facts := by
  obtain ⟨i, -, hcalls⟩ := exists_moment actions
    (min_le_right k (afterActions actions).env.calls.length)
  have hmoment : moment actions i =
      min k (afterActions actions).env.calls.length := by
    rw [moment, hcalls, List.length_take, min_assoc, min_self]
  refine ⟨i, hmoment, ?_⟩
  rw [facts_moment, hmoment, ← List.length_map BookCall.write,
    ← List.take_eq_take_min]

/-- Known addresses are kept along the actions just as they are along the
calls. -/
theorem facts_grow_iff (actions : List AddressAction) :
    (∀ i j, i ≤ j → (afterActions (actions.take i)).env.book.facts ⊆
      (afterActions (actions.take j)).env.book.facts) ↔
    (afterActions actions).env.calls.Pairwise BookCall.Confirms := by
  have hspares : (afterActions actions).env.calls.Pairwise BookCall.Confirms ↔
      ((afterActions actions).env.calls.map BookCall.write).Pairwise
        Write.Spares := by
    rw [List.pairwise_map]
    exact List.Pairwise.iff fun _ _ => BookCall.spares_iff.symm
  rw [hspares, ← grows_iff]
  constructor
  · intro hgrows k l hkl
    obtain ⟨i, hmi, hi⟩ := exists_moment_facts actions k
    obtain ⟨j, hmj, hj⟩ := exists_moment_facts actions l
    rw [hi, hj]
    rcases le_total i j with hij | hji
    · exact hgrows i j hij
    · -- Both moments come after the same calls.
      have hle := moment_mono actions hji
      rw [facts_moment, facts_moment]
      have heq : moment actions i = moment actions j := by omega
      rw [heq]
  · intro hgrows i j hij
    rw [facts_moment, facts_moment]
    exact hgrows _ _ (moment_mono actions hij)

/-- An address that is known for a peer stays known, at every moment, if and
only if no call replaces the entry of a peer by one that lacks an address which
an earlier call has named of it. -/
theorem addresses_accumulate_iff (actions : List AddressAction) :
    (∀ i j, i ≤ j → ∀ node,
      ∀ t ∈ ((afterActions (actions.take i)).env.book.dialTarget node).addrs,
        t ∈ ((afterActions (actions.take j)).env.book.dialTarget node).addrs) ↔
    (afterActions actions).env.calls.Pairwise BookCall.Confirms := by
  rw [← facts_grow_iff]
  constructor
  · rintro h i j hij ⟨node, t⟩ ht
    exact h i j hij node t ht
  · intro h i j hij node t ht
    exact @h i j hij (node, t) ht

/-- A node is told both addresses of a peer, and then a third party announces
the peer with one of them. -/
def poorerAnnouncement : List AddressAction :=
  [.call (.remember ⟨⟨7⟩, ["192.0.2.7:4433", "10.0.0.7:4433"]⟩),
    .announce [⟨⟨7⟩, ["10.0.0.7:4433"]⟩], .work 0]

/-- The other address is forgotten. -/
theorem announced_address_forgotten :
    ((afterActions (poorerAnnouncement.take 2)).env.book.dialTarget ⟨7⟩).addrs =
        ["192.0.2.7:4433", "10.0.0.7:4433"] ∧
    ((afterActions poorerAnnouncement).env.book.dialTarget ⟨7⟩).addrs =
        ["10.0.0.7:4433"] ∧
    ¬ ∀ (actions : List AddressAction) (i j : ℕ), i ≤ j → ∀ node,
      ∀ t ∈ ((afterActions (actions.take i)).env.book.dialTarget node).addrs,
        t ∈ ((afterActions (actions.take j)).env.book.dialTarget node).addrs := by
  have hbefore : ((afterActions (poorerAnnouncement.take 2)).env.book.dialTarget
      ⟨7⟩).addrs = ["192.0.2.7:4433", "10.0.0.7:4433"] := by decide
  have hafter : ((afterActions poorerAnnouncement).env.book.dialTarget ⟨7⟩).addrs =
      ["10.0.0.7:4433"] := by decide
  refine ⟨hbefore, hafter, fun h => ?_⟩
  have hlost := h poorerAnnouncement 2 3 (by decide) ⟨7⟩ "192.0.2.7:4433"
    (by rw [hbefore]; exact List.mem_cons_self)
  rw [show poorerAnnouncement.take 3 = poorerAnnouncement from rfl, hafter] at hlost
  revert hlost
  decide

end AddressTraffic

/-! ## The book of a node in the mesh -/

/-- An announcement that arrives in the mesh makes its calls with nothing in
between. -/
theorem MeshNode.book_foldl_remember {me : EndpointId}
    (nodes : List EndpointAddr) (n : MeshNode me) :
    (nodes.foldl remember n).toAddressBook = (nodes.map BookCall.remember).foldl
      AddressBook.call n.toAddressBook := by
  rw [foldl_remember_eq, List.foldl_map]
  rfl

end Plasmoid
