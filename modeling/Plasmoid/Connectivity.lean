import Plasmoid.Cluster
import Plasmoid.Lib.Tasks

/-!
# Membership and connections

One node, its connections and its members.  A node that dials us, that we join
or that is announced to us is a member.  The membership reactor drops a member
when it hears that an outbound link to it was lost; nobody hears of the end of an
inbound connection, or of a dial that fails.

A link is a queue with a writer task, which dials when it has a frame and no
stream.  The link outlives its connections.
-/

namespace Plasmoid

open Machine

/-- A connection to or from a peer.  The end of a watched one is announced as a
loss: those of outbound links are watched, inbound ones and those that only ask
for something are not. -/
structure Connection where
  peer : EndpointId
  watched : Bool
  isOpen : Bool
deriving DecidableEq

/-- The writer task of a link.  `stream` is the connection that it writes to,
`attempt` how often the first frame failed. -/
structure Writer where
  peer : EndpointId
  stream : Option Nat
  frames : Nat
  attempt : Nat
deriving DecidableEq

/-- A handler that has yet to finish. -/
inductive Handler where
  /-- `accept` or an announcement is about to learn nodes. -/
  | learn (nodes : List EndpointId)
  | join (peer : EndpointId)
  /-- `announce_to` is about to send. -/
  | send (nodes : List EndpointId)
deriving DecidableEq

/-- Whom the handler has still to send to. -/
def Handler.targets : Handler → List EndpointId
  | send nodes => nodes
  | learn _ | join _ => []

/-- How many losses may wait for the reactor. -/
def lossCapacity : Nat := 256

/-- The membership machinery of one node.  `forgotten` are the members that the
reactor dropped and that were not learned again; the code does not keep them. -/
structure Connectivity (me : EndpointId) where
  cluster : Cluster me
  conns : List Connection
  writers : List Writer
  links : Table EndpointId Nat
  losses : List EndpointId
  handlers : List Handler
  forgotten : List EndpointId

inductive ConnAction where
  /-- A peer dials us. -/
  | accept (remote : EndpointId)
  /-- We dial a peer to ask for something. -/
  | ask (peer : EndpointId)
  /-- An unwatched connection ends. -/
  | ends (i : Nat)
  /-- A watched connection ends. -/
  | close (i : Nat)
  | announced (nodes : List EndpointId)
  | join (peer : EndpointId)
  /-- A handler takes its next step at an instant. -/
  | handle (i now : Nat)
  /-- A message for a peer. -/
  | send (peer : EndpointId)
  | dial (w : Nat) (ok : Bool)
  | write (w : Nat) (ok : Bool)
  /-- The membership reactor hears of a loss. -/
  | forget
  /-- We disconnect from a peer on purpose. -/
  | disconnect (peer : EndpointId) (now : Nat)

namespace Connectivity

variable {me : EndpointId}

def start (cluster : Cluster me) : Connectivity me :=
  ⟨cluster, [], [], ∅, [], [], []⟩

/-- Queue a frame for a peer, on a new link if there is none. -/
def sendTo (s : Connectivity me) (peer : EndpointId) : Connectivity me :=
  match (s.links.lookup peer).bind fun w => s.writers[w]?.map fun x => (w, x) with
  | some (w, x) =>
    { s with writers := s.writers.set w { x with frames := x.frames + 1 } }
  | none =>
    { s with
      writers := s.writers ++ [⟨peer, none, 1, 0⟩]
      links := s.links.insert peer s.writers.length }

/-- Announce a loss.  The oldest one is dropped if too many wait. -/
def announceLost (s : Connectivity me) (peer : EndpointId) : Connectivity me :=
  { s with losses :=
      (s.losses ++ [peer]).drop (s.losses.length + 1 - lossCapacity) }

def learn (s : Connectivity me) (now : Nat) (nodes : List EndpointId) :
    Connectivity me × List EndpointId :=
  ({ s with
      cluster := (s.cluster.learn now nodes).1
      forgotten := s.forgotten.filter fun x =>
        x ∉ (s.cluster.learn now nodes).2 },
    (s.cluster.learn now nodes).2)

def dropHandler (s : Connectivity me) (i : Nat) (next : List Handler) :
    Connectivity me :=
  { s with handlers := s.handlers.eraseIdx i ++ next }

def setWriter (s : Connectivity me) (w : Nat) (x : Writer) : Connectivity me :=
  { s with writers := s.writers.set w x }

def step (s : Connectivity me) : ConnAction → Option (Connectivity me)
  | .accept remote => some { s with
      conns := s.conns ++ [⟨remote, false, true⟩]
      handlers := s.handlers ++ [.learn [remote]] }
  | .ask peer => some { s with conns := s.conns ++ [⟨peer, false, true⟩] }
  | .ends i => s.conns[i]?.bind fun c =>
    if c.watched = false ∧ c.isOpen then
      some { s with conns := s.conns.set i { c with isOpen := false } }
    else none
  | .close i => s.conns[i]?.bind fun c =>
    if c.watched = true ∧ c.isOpen then
      some ({ s with conns := s.conns.set i { c with isOpen := false } }
        |>.announceLost c.peer)
    else none
  | .announced nodes => some { s with handlers := s.handlers ++ [.learn nodes] }
  | .join peer => some { s with handlers := s.handlers ++ [.join peer] }
  | .handle i now => s.handlers[i]?.map fun h =>
    match h with
    | .learn nodes =>
      let (t, fresh) := s.learn now nodes
      t.dropHandler i (if fresh = [] then [] else [.send fresh])
    | .join peer => (s.learn now [peer]).1.dropHandler i [.send [peer]]
    | .send [] => s.dropHandler i []
    | .send (x :: rest) => (s.sendTo x).dropHandler i [.send rest]
  | .send peer => some (s.sendTo peer)
  | .dial w ok => s.writers[w]?.bind fun x =>
    if x.stream = none ∧ 0 < x.frames then
      if ok then some { s with
        conns := s.conns ++ [⟨x.peer, true, true⟩]
        writers := s.writers.set w { x with stream := some s.conns.length } }
      -- A failed dial is not announced as a loss.
      else some (s.setWriter w { x with frames := x.frames - 1, attempt := 0 })
    else none
  | .write w ok => s.writers[w]?.bind fun x =>
    x.stream.bind fun i =>
      if 0 < x.frames then
        if ok then
          if s.conns[i]?.any Connection.isOpen then
            some (s.setWriter w { x with frames := x.frames - 1, attempt := 0 })
          else none
        else if x.attempt = 0 then
          some (s.setWriter w { x with stream := none, attempt := 1 })
        else
          some ((s.setWriter w { x with
            stream := none, frames := x.frames - 1, attempt := 0 }).announceLost
              x.peer)
      else none
  | .forget =>
    match s.losses with
    | peer :: rest => some { s with
        cluster := s.cluster.forget peer
        losses := rest
        forgotten :=
          if peer ∈ s.cluster.members then peer :: s.forgotten
          else s.forgotten }
    | [] => none
  | .disconnect peer now =>
    let t := ({ s with
      cluster := s.cluster.quarantine now peer
      forgotten := s.forgotten.filter fun x => x ≠ peer } : Connectivity me)
      |>.sendTo peer
    some ({ t with links := t.links.erase peer }.announceLost peer)

/-- An open connection to or from the peer. -/
def Connected (s : Connectivity me) (peer : EndpointId) : Prop :=
  ∃ c ∈ s.conns, c.peer = peer ∧ c.isOpen = true

/-- The outbound link to the peer is open. -/
def LinkOpen (s : Connectivity me) (peer : EndpointId) : Prop :=
  ∃ w ∈ s.links.lookup peer, ∃ x ∈ s.writers[w]?, ∃ i ∈ x.stream,
    ∃ c ∈ s.conns[i]?, c.isOpen = true

/-- No dial, loss or handler is pending. -/
def Settled (s : Connectivity me) : Prop :=
  (∀ x ∈ s.writers, x.frames = 0) ∧ s.losses = [] ∧ s.handlers = []

/-- Every member is connected, and no node with an open link was dropped for
the end of an older connection. -/
def MembersConnected (s : Connectivity me) : Prop :=
  (∀ x ∈ s.cluster.members.toList, s.Connected x) ∧
    ∀ x ∈ s.forgotten, ¬ s.LinkOpen x

instance (s : Connectivity me) (peer : EndpointId) :
    Decidable (s.Connected peer) :=
  inferInstanceAs (Decidable (∃ c ∈ s.conns, _))

instance (s : Connectivity me) (peer : EndpointId) :
    Decidable (s.LinkOpen peer) :=
  inferInstanceAs (Decidable (∃ w ∈ s.links.lookup peer,
    ∃ x ∈ s.writers[w]?, ∃ i ∈ x.stream, ∃ c ∈ s.conns[i]?, _))

instance (s : Connectivity me) : Decidable s.Settled :=
  inferInstanceAs (Decidable (_ ∧ _ ∧ _))

/-! ## The condition -/

/-- A loss of the peer, a frame for it or a handler about it is pending. -/
def Expected (s : Connectivity me) (peer : EndpointId) : Prop :=
  peer ∈ s.losses ∨ (∃ x ∈ s.writers, x.peer = peer ∧ 0 < x.frames) ∨
    ∃ h ∈ s.handlers, peer ∈ h.targets

instance (s : Connectivity me) (peer : EndpointId) :
    Decidable (s.Expected peer) :=
  inferInstanceAs (Decidable (_ ∨ (∃ x ∈ s.writers, _) ∨
    ∃ h ∈ s.handlers, _))

/-- The last connection of a member that nothing is pending for is watched, and
its last dial succeeds.  A member is not dropped while its link is open, a link
to a node that was dropped does not open before the node is learned again, and
the reactor does not lag behind. -/
def LossesHeard (s : Connectivity me) : ConnAction → Prop
  | .ends i => ∀ c ∈ s.conns[i]?, c.peer ∈ s.cluster.members →
    (∃ d ∈ s.conns.eraseIdx i, d.peer = c.peer ∧ d.isOpen = true) ∨
      s.Expected c.peer
  | .dial w true => ∀ x ∈ s.writers[w]?, s.links.lookup x.peer = some w →
    x.peer ∉ s.forgotten
  | .dial w false => ∀ x ∈ s.writers[w]?, x.peer ∈ s.cluster.members →
    s.Connected x.peer ∨ (s.setWriter w
      { x with frames := x.frames - 1, attempt := 0 }).Expected x.peer
  | .forget => ∀ x ∈ s.losses.head?, x ∈ s.cluster.members → ¬ s.LinkOpen x
  | .close _ | .write _ false | .disconnect .. =>
    s.losses.length < lossCapacity
  | _ => True

instance (s : Connectivity me) : DecidablePred s.LossesHeard
  | .ends i => inferInstanceAs (Decidable (∀ c ∈ s.conns[i]?, _ →
      (∃ d ∈ s.conns.eraseIdx i, _) ∨ _))
  | .dial w true => inferInstanceAs (Decidable (∀ x ∈ s.writers[w]?, _ → _))
  | .dial w false =>
    inferInstanceAs (Decidable (∀ x ∈ s.writers[w]?, _ → _ ∨ _))
  | .forget => inferInstanceAs (Decidable (∀ x ∈ s.losses.head?, _ → _))
  | .close _ | .write _ false | .disconnect .. =>
    inferInstanceAs (Decidable (s.losses.length < lossCapacity))
  | .accept _ | .ask _ | .announced _ | .join _ | .handle .. | .send _
  | .write _ true => isTrue trivial

/-! ## The invariant -/

/-- Every member is connected or something is pending for it. -/
structure ConnInv (s : Connectivity me) : Prop where
  covered : ∀ x ∈ s.cluster.members, s.Connected x ∨ s.Expected x
  /-- A stream belongs to a connection with the writer's peer. -/
  streams : ∀ (w : Nat) x, s.writers[w]? = some x → ∀ i, x.stream = some i →
    ∃ c, s.conns[i]? = some c ∧ c.peer = x.peer
  links : ∀ p w, s.links.lookup p = some w →
    ∃ x, s.writers[w]? = some x ∧ x.peer = p
  dropped : ∀ x ∈ s.forgotten, ¬ s.LinkOpen x

theorem connInv_start (cluster : Cluster me) (hempty : cluster.members = ∅) :
    ConnInv (start cluster) where
  covered x hx := by
    rw [show (start cluster).cluster.members = ∅ from hempty] at hx
    exact absurd hx (KeySet.not_mem_empty x)
  streams w x hx := by simp [start] at hx
  links p w hw := by simp [start] at hw
  dropped x hx := by cases hx

section Steps

variable {s : Connectivity me} {peer : EndpointId}

/-- One more connection. -/
theorem ConnInv.opened (h : ConnInv s) (c : Connection) :
    ConnInv { s with conns := s.conns ++ [c] } := by
  have hkept : ∀ (i : Nat) d, s.conns[i]? = some d →
      (s.conns ++ [c])[i]? = some d := by
    intro i d hd
    rw [List.getElem?_append_left (List.getElem?_eq_some_iff.1 hd).1]
    exact hd
  refine ⟨fun x hx => ?_, fun w x hx i hi => ?_, h.links, fun x hx hopen => ?_⟩
  · refine (h.covered x hx).imp_left ?_
    rintro ⟨d, hd, hpeer⟩
    exact ⟨d, List.mem_append_left _ hd, hpeer⟩
  · obtain ⟨d, hd, hpeer⟩ := h.streams w x hx i hi
    exact ⟨d, hkept i d hd, hpeer⟩
  · obtain ⟨w, hw, y, hy, i, hi, d, hd, hopen⟩ := hopen
    obtain ⟨d', hd', -⟩ := h.streams w y hy i hi
    obtain rfl : d' = d :=
      Option.some_inj.1 ((hkept i d' hd').symm.trans hd)
    exact h.dropped x hx ⟨w, hw, y, hy, i, hi, d', hd', hopen⟩

/-- Handlers are exchanged for others that send to at least as many members. -/
theorem ConnInv.handlers (h : ConnInv s) {next : List Handler}
    (hnext : ∀ x ∈ s.cluster.members, (∃ y ∈ s.handlers, x ∈ y.targets) →
      s.Connected x ∨ x ∈ s.losses ∨
        (∃ y ∈ s.writers, y.peer = x ∧ 0 < y.frames) ∨
        ∃ y ∈ next, x ∈ y.targets) :
    ConnInv { s with handlers := next } := by
  refine ⟨fun x hx => ?_, h.streams, h.links, h.dropped⟩
  rcases h.covered x hx with hconn | hloss | hframe | hhandler
  · exact Or.inl hconn
  · exact Or.inr (Or.inl hloss)
  · exact Or.inr (Or.inr (Or.inl hframe))
  · exact hnext x hx hhandler

/-- One connection ends. -/
theorem ConnInv.closed (h : ConnInv s) {i : Nat} {c : Connection}
    (hc : s.conns[i]? = some c)
    (hpeer : c.peer ∈ s.cluster.members →
      (∃ d ∈ s.conns.eraseIdx i, d.peer = c.peer ∧ d.isOpen = true) ∨
        s.Expected c.peer) :
    ConnInv { s with conns := s.conns.set i { c with isOpen := false } } := by
  have hlt := (List.getElem?_eq_some_iff.1 hc).1
  have hget : ∀ j, (s.conns.set i { c with isOpen := false })[j]? =
      if i = j then some { c with isOpen := false } else s.conns[j]? := by
    intro j
    by_cases hij : i = j
    · subst hij
      rw [if_pos rfl]
      exact List.getElem?_set_self hlt
    · rw [if_neg hij]
      exact List.getElem?_set_ne hij
  have hothers : ∀ d ∈ s.conns.eraseIdx i,
      d ∈ s.conns.set i { c with isOpen := false } := by
    intro d hd
    obtain ⟨j, hj, hne⟩ := List.mem_eraseIdx_iff_getElem?.1 hd
    refine List.mem_of_getElem? (i := j) ?_
    rw [hget, if_neg hj.symm]
    exact hne
  refine ⟨fun x hx => ?_, fun w x hx j hj => ?_, h.links, fun x hx hopen => ?_⟩
  · rcases h.covered x hx with ⟨d, hd, hdpeer, hdopen⟩ | hexpected
    · rcases mem_eraseIdx_or_eq hc hd with hd | rfl
      · exact Or.inl ⟨d, hothers d hd, hdpeer, hdopen⟩
      · subst hdpeer
        refine (hpeer hx).imp_left ?_
        rintro ⟨d', hd', hd'peer⟩
        exact ⟨d', hothers d' hd', hd'peer⟩
    · exact Or.inr hexpected
  · obtain ⟨d, hd, hdpeer⟩ := h.streams w x hx j hj
    show ∃ e, (s.conns.set i { c with isOpen := false })[j]? = some e ∧ _
    rw [hget]
    split
    · rename_i hij
      subst hij
      cases hc.symm.trans hd
      exact ⟨_, rfl, hdpeer⟩
    · exact ⟨d, hd, hdpeer⟩
  · obtain ⟨w, hw, y, hy, j, hj, d, hd, hdopen⟩ := hopen
    have hd' : (s.conns.set i { c with isOpen := false })[j]? = some d := hd
    rw [hget] at hd'
    split at hd'
    · cases hd'
      cases hdopen
    · exact h.dropped x hx ⟨w, hw, y, hy, j, hj, d, hd', hdopen⟩

theorem announceLost_eq (hroom : s.losses.length < lossCapacity)
    (peer : EndpointId) :
    s.announceLost peer = { s with losses := s.losses ++ [peer] } := by
  have hzero : s.losses.length + 1 - lossCapacity = 0 :=
    Nat.sub_eq_zero_of_le hroom
  rw [announceLost, hzero, List.drop_zero]

/-- One more loss waits for the reactor. -/
theorem ConnInv.announced (h : ConnInv s) (peer : EndpointId) :
    ConnInv { s with losses := s.losses ++ [peer] } := by
  refine ⟨fun x hx => ?_, h.streams, h.links, h.dropped⟩
  rcases h.covered x hx with hconn | hloss | hrest
  · exact Or.inl hconn
  · exact Or.inr (Or.inl (List.mem_append_left _ hloss))
  · exact Or.inr (Or.inr hrest)

/-- An element of a list in which one place has changed. -/
theorem getElem?_set_cases {α : Type} {l : List α} {w v : Nat} {y z : α}
    (h : (l.set w y)[v]? = some z) : v = w ∧ z = y ∨ l[v]? = some z := by
  rw [List.getElem?_set] at h
  split at h
  · rename_i heq
    split at h
    · exact Or.inl ⟨heq.symm, (Option.some_inj.1 h).symm⟩
    · cases h
  · exact Or.inr h

/-- A writer changes its stream or its frames. -/
theorem ConnInv.setWriter (h : ConnInv s) {w : Nat} {x y : Writer}
    (hx : s.writers[w]? = some x) (hpeer : y.peer = x.peer)
    (hstream : y.stream = none ∨ y.stream = x.stream)
    (hcovered : x.peer ∈ s.cluster.members → s.Connected x.peer ∨
      (s.setWriter w y).Expected x.peer) : ConnInv (s.setWriter w y) := by
  have hlt := (List.getElem?_eq_some_iff.1 hx).1
  have hstays : ∀ (v : Nat) z, s.writers[v]? = some z →
      ∃ z', (s.writers.set w y)[v]? = some z' ∧ z'.peer = z.peer := by
    intro v z hz
    by_cases hv : w = v
    · subst hv
      cases hx.symm.trans hz
      exact ⟨y, List.getElem?_set_self hlt, hpeer⟩
    · exact ⟨z, (List.getElem?_set_ne hv).trans hz, rfl⟩
  refine ⟨fun p hp => ?_, fun v z hz i hi => ?_, fun p v hv => ?_,
    fun p hp hopen => ?_⟩
  · rcases h.covered p hp with hconn | hloss | ⟨z, hz, hzp, hframes⟩ | hhandler
    · exact Or.inl hconn
    · exact Or.inr (Or.inl hloss)
    · obtain ⟨v, hv⟩ := List.getElem?_of_mem hz
      by_cases hvw : w = v
      · subst hvw
        cases hx.symm.trans hv
        rw [← hzp]
        exact hcovered (hzp ▸ hp)
      · refine Or.inr (Or.inr (Or.inl ⟨z, ?_, hzp, hframes⟩))
        exact List.mem_of_getElem? ((List.getElem?_set_ne hvw).trans hv)
    · exact Or.inr (Or.inr (Or.inr hhandler))
  · rcases getElem?_set_cases hz with ⟨rfl, rfl⟩ | hz
    · rcases hstream with hnone | hsame
      · rw [hnone] at hi
        cases hi
      · rw [hsame] at hi
        rw [hpeer]
        exact h.streams v x hx i hi
    · exact h.streams v z hz i hi
  · obtain ⟨z, hz, hzp⟩ := h.links p v hv
    obtain ⟨z', hz', hpeer'⟩ := hstays v z hz
    exact ⟨z', hz', hpeer'.trans hzp⟩
  · obtain ⟨v, hv, z, hz, i, hi, d, hd, hdopen⟩ := hopen
    rcases getElem?_set_cases hz with ⟨rfl, rfl⟩ | hz
    · rcases hstream with hnone | hsame
      · rw [hnone] at hi
        cases hi
      · rw [hsame] at hi
        exact h.dropped p hp ⟨v, hv, x, hx, i, hi, d, hd, hdopen⟩
    · exact h.dropped p hp ⟨v, hv, z, hz, i, hi, d, hd, hdopen⟩

/-- A new link has no stream. -/
theorem ConnInv.newLink (h : ConnInv s) (peer : EndpointId) :
    ConnInv { s with
      writers := s.writers ++ [⟨peer, none, 1, 0⟩]
      links := s.links.insert peer s.writers.length } := by
  have hkept : ∀ (v : Nat) z, s.writers[v]? = some z →
      (s.writers ++ [⟨peer, none, 1, 0⟩])[v]? = some z := by
    intro v z hz
    rw [List.getElem?_append_left (List.getElem?_eq_some_iff.1 hz).1]
    exact hz
  have hlast : (s.writers ++ [(⟨peer, none, 1, 0⟩ : Writer)])[
      s.writers.length]? = some ⟨peer, none, 1, 0⟩ :=
    List.getElem?_concat_length
  refine ⟨fun p hp => ?_, fun v z hz i hi => ?_, fun p v hv => ?_,
    fun p hp hopen => ?_⟩
  · rcases h.covered p hp with hconn | hloss | ⟨z, hz, hrest⟩ | hhandler
    · exact Or.inl hconn
    · exact Or.inr (Or.inl hloss)
    · exact Or.inr (Or.inr (Or.inl ⟨z, List.mem_append_left _ hz, hrest⟩))
    · exact Or.inr (Or.inr (Or.inr hhandler))
  · rcases List.mem_append.1 (List.mem_of_getElem? hz) with hmem | hmem
    · obtain ⟨u, hu⟩ := List.getElem?_of_mem hmem
      exact h.streams u z hu i hi
    · rw [List.mem_singleton.1 hmem] at hi
      cases hi
  · have hv' : (s.links.insert peer s.writers.length).lookup p = some v := hv
    rw [Table.lookup_insert_eq] at hv'
    split at hv'
    · rename_i hp
      cases hv'
      exact ⟨_, hlast, hp.symm⟩
    · obtain ⟨z, hz, hzp⟩ := h.links p v hv'
      exact ⟨z, hkept v z hz, hzp⟩
  · obtain ⟨v, hv, z, hz, i, hi, hrest⟩ := hopen
    have hv' : (s.links.insert peer s.writers.length).lookup p = some v := hv
    rw [Table.lookup_insert_eq] at hv'
    split at hv'
    · cases hv'
      cases hlast.symm.trans hz
      cases hi
    · obtain ⟨z', hz', -⟩ := h.links p v hv'
      obtain rfl : z' = z :=
        Option.some_inj.1 ((hkept v z' hz').symm.trans hz)
      exact h.dropped p hp ⟨v, hv', z', hz', i, hi, hrest⟩

/-- A frame is queued, and will be dialled for. -/
theorem ConnInv.sent (h : ConnInv s) (peer : EndpointId) :
    ConnInv (s.sendTo peer) ∧
      (∃ x ∈ (s.sendTo peer).writers, x.peer = peer ∧ 0 < x.frames) ∧
      (s.sendTo peer).cluster = s.cluster ∧
      (s.sendTo peer).handlers = s.handlers ∧
      (s.sendTo peer).losses = s.losses ∧
      (s.sendTo peer).forgotten = s.forgotten := by
  unfold sendTo
  cases hlink : (s.links.lookup peer).bind fun w =>
      s.writers[w]?.map fun x => (w, x) with
  | none =>
    exact ⟨h.newLink peer, ⟨_, List.mem_append_right _
      (List.mem_singleton_self _), rfl, Nat.one_pos⟩, rfl, rfl, rfl, rfl⟩
  | some p =>
    obtain ⟨w, x⟩ := p
    obtain ⟨w', hw, hx⟩ := Option.bind_eq_some_iff.1 hlink
    obtain ⟨x', hx, heq⟩ := Option.map_eq_some_iff.1 hx
    cases heq
    obtain ⟨y, hy, hpeer⟩ := h.links peer w hw
    cases hx.symm.trans hy
    have hmem : { x with frames := x.frames + 1 } ∈
        s.writers.set w { x with frames := x.frames + 1 } :=
      List.mem_of_getElem? (List.getElem?_set_self
        (List.getElem?_eq_some_iff.1 hx).1)
    refine ⟨?_, ⟨_, hmem, hpeer, Nat.succ_pos _⟩, rfl, rfl, rfl, rfl⟩
    exact h.setWriter hx rfl (Or.inr rfl) fun _ =>
      Or.inr (Or.inr (Or.inl ⟨_, hmem, rfl, Nat.succ_pos _⟩))

/-- A handler learns nodes, and will send to those that are new. -/
theorem ConnInv.learned (h : ConnInv s) {i now : Nat} {y : Handler}
    (hy : s.handlers[i]? = some y) (hnone : y.targets = [])
    (nodes : List EndpointId) {next : List Handler}
    (hnext : ∀ x ∈ (s.learn now nodes).2, ∃ z ∈ next, x ∈ z.targets) :
    ConnInv ((s.learn now nodes).1.dropHandler i next) := by
  have hspec := Cluster.learn_spec s.cluster now nodes
  refine ⟨fun x hx => ?_, h.streams, h.links, fun x hx => ?_⟩
  · rcases (hspec.members x).1 hx with hold | hfresh
    · rcases h.covered x hold with hconn | hloss | hframe | ⟨z, hz, hxz⟩
      · exact Or.inl hconn
      · exact Or.inr (Or.inl hloss)
      · exact Or.inr (Or.inr (Or.inl hframe))
      · refine Or.inr (Or.inr (Or.inr ⟨z, List.mem_append_left _ ?_, hxz⟩))
        rcases mem_eraseIdx_or_eq hy hz with hz | rfl
        · exact hz
        · rw [hnone] at hxz
          cases hxz
    · obtain ⟨z, hz, hxz⟩ := hnext x hfresh
      exact Or.inr (Or.inr (Or.inr ⟨z, List.mem_append_right _ hz, hxz⟩))
  · exact h.dropped x (List.mem_of_mem_filter hx)

/-- The members change by none more, and who is dropped as a member has no open
link. -/
theorem ConnInv.removed (h : ConnInv s) {c : Cluster me}
    {losses forgotten : List EndpointId}
    (hmembers : ∀ x ∈ c.members, x ∈ s.cluster.members ∧
      (x ∈ s.losses → x ∈ losses))
    (hforgotten : ∀ x ∈ forgotten, x ∈ s.forgotten ∨ ¬ s.LinkOpen x) :
    ConnInv { s with cluster := c, losses := losses, forgotten := forgotten } := by
  refine ⟨fun x hx => ?_, h.streams, h.links, fun x hx => ?_⟩
  · obtain ⟨hmem, hkept⟩ := hmembers x hx
    rcases h.covered x hmem with hconn | hloss | hrest
    · exact Or.inl hconn
    · exact Or.inr (Or.inl (hkept hloss))
    · exact Or.inr (Or.inr hrest)
  · exact (hforgotten x hx).elim (h.dropped x) id

/-- A link that is taken down is not open. -/
theorem ConnInv.unlinked (h : ConnInv s) (peer : EndpointId) :
    ConnInv { s with links := s.links.erase peer } := by
  have hlookup : ∀ p w, (s.links.erase peer).lookup p = some w →
      s.links.lookup p = some w := by
    intro p w hw
    rw [Table.lookup_erase_eq] at hw
    split at hw
    · cases hw
    · exact hw
  refine ⟨h.covered, h.streams, fun p w hw => h.links p w (hlookup p w hw),
    fun x hx hopen => ?_⟩
  obtain ⟨w, hw, hrest⟩ := hopen
  exact h.dropped x hx ⟨w, hlookup x w hw, hrest⟩

/-- A dial succeeds. -/
theorem ConnInv.dialled (h : ConnInv s) {w : Nat} {x : Writer}
    (hx : s.writers[w]? = some x)
    (hlearned : s.links.lookup x.peer = some w → x.peer ∉ s.forgotten) :
    ConnInv { s with
      conns := s.conns ++ [⟨x.peer, true, true⟩]
      writers := s.writers.set w { x with stream := some s.conns.length } } := by
  have hopened := h.opened ⟨x.peer, true, true⟩
  have hlt := (List.getElem?_eq_some_iff.1 hx).1
  have hconn : (s.conns ++ [(⟨x.peer, true, true⟩ : Connection)])[
      s.conns.length]? = some ⟨x.peer, true, true⟩ :=
    List.getElem?_concat_length
  refine ⟨fun p hp => ?_, fun v z hz i hi => ?_, fun p v hv => ?_,
    fun p hp hopen => ?_⟩
  · rcases hopened.covered p hp with hcon | hloss | ⟨z, hz, hzp, hframes⟩ |
      hhandler
    · exact Or.inl hcon
    · exact Or.inr (Or.inl hloss)
    · obtain ⟨v, hv⟩ := List.getElem?_of_mem hz
      by_cases hvw : w = v
      · subst hvw
        obtain rfl : x = z := Option.some_inj.1 (hx.symm.trans hv)
        exact Or.inl ⟨_, List.mem_of_getElem? hconn, hzp, rfl⟩
      · refine Or.inr (Or.inr (Or.inl ⟨z, ?_, hzp, hframes⟩))
        exact List.mem_of_getElem? ((List.getElem?_set_ne hvw).trans hv)
    · exact Or.inr (Or.inr (Or.inr hhandler))
  · rcases getElem?_set_cases hz with ⟨rfl, rfl⟩ | hz
    · cases hi
      exact ⟨_, hconn, rfl⟩
    · exact hopened.streams v z hz i hi
  · obtain ⟨z, hz, hzp⟩ := h.links p v hv
    by_cases hvw : w = v
    · subst hvw
      obtain rfl : x = z := Option.some_inj.1 (hx.symm.trans hz)
      exact ⟨_, List.getElem?_set_self hlt, hzp⟩
    · exact ⟨z, (List.getElem?_set_ne hvw).trans hz, hzp⟩
  · obtain ⟨v, hv, z, hz, hrest⟩ := hopen
    rcases getElem?_set_cases hz with ⟨rfl, rfl⟩ | hz
    · obtain ⟨z', hz', hzp⟩ := h.links p v hv
      obtain rfl : x = z' := Option.some_inj.1 (hx.symm.trans hz')
      subst hzp
      exact hlearned hv hp
    · exact hopened.dropped p hp ⟨v, hv, z, hz, hrest⟩

/-! ## Actions -/

variable {t : Connectivity me}

/-- One more handler takes none of the others away. -/
theorem ConnInv.handler (h : ConnInv s) (y : Handler) :
    ConnInv { s with handlers := s.handlers ++ [y] } := by
  refine h.handlers fun x _ hx => ?_
  obtain ⟨z, hz, hxz⟩ := hx
  exact Or.inr (Or.inr (Or.inr ⟨z, List.mem_append_left _ hz, hxz⟩))

/-- A connection that is watched ends, and its loss is announced. -/
theorem ConnInv.close (h : ConnInv s) {i : Nat}
    (hroom : s.losses.length < lossCapacity)
    (hstep : s.step (.close i) = some t) : ConnInv t := by
  obtain ⟨c, hc, hnext⟩ := Option.bind_eq_some_iff.1 hstep
  split at hnext
  · cases hnext
    rw [announceLost_eq
      (s := { s with conns := s.conns.set i { c with isOpen := false } }) hroom]
    refine (h.announced c.peer).closed hc fun _ => Or.inr (Or.inl ?_)
    exact List.mem_append_right _ (List.mem_singleton_self _)
  · cases hnext

/-- A handler has sent to one node, and goes on with the rest. -/
theorem ConnInv.sendNext (h : ConnInv s) {i : Nat} {rest : List EndpointId}
    (hy : s.handlers[i]? = some (.send (peer :: rest))) :
    ConnInv ((s.sendTo peer).dropHandler i [.send rest]) := by
  obtain ⟨hsent, hframe, -, hhandlers, -, -⟩ := h.sent peer
  refine hsent.handlers fun x _ hx => ?_
  obtain ⟨z, hz, hxz⟩ := hx
  rw [hhandlers] at hz ⊢
  rcases mem_eraseIdx_or_eq hy hz with hz | rfl
  · exact Or.inr (Or.inr (Or.inr ⟨z, List.mem_append_left _ hz, hxz⟩))
  · rcases List.mem_cons.1 hxz with rfl | hxz
    · exact Or.inr (Or.inr (Or.inl hframe))
    · exact Or.inr (Or.inr (Or.inr ⟨_, List.mem_append_right _
        (List.mem_singleton_self _), hxz⟩))

theorem ConnInv.handle (h : ConnInv s) {i now : Nat}
    (hstep : s.step (.handle i now) = some t) : ConnInv t := by
  obtain ⟨y, hy, rfl⟩ := Option.map_eq_some_iff.1 hstep
  match y, hy with
  | .learn nodes, hy =>
    refine h.learned hy rfl nodes fun x hx => ?_
    split
    · rename_i hfresh
      rw [show (s.learn now nodes).2 = [] from hfresh] at hx
      cases hx
    · exact ⟨_, List.mem_singleton_self _, hx⟩
  | .join peer, hy =>
    refine h.learned hy rfl [peer] fun x hx => ?_
    refine ⟨_, List.mem_singleton_self _, ?_⟩
    exact (((Cluster.learn_spec s.cluster now [peer]).fresh x).1 hx).1
  | .send [], hy =>
    refine h.handlers fun x _ hx => ?_
    obtain ⟨z, hz, hxz⟩ := hx
    rcases mem_eraseIdx_or_eq hy hz with hz | rfl
    · exact Or.inr (Or.inr (Or.inr ⟨z, List.mem_append_left _ hz, hxz⟩))
    · cases hxz
  | .send (_ :: _), hy => exact h.sendNext hy

theorem ConnInv.dial (h : ConnInv s) {w : Nat} {ok : Bool}
    (hheard : s.LossesHeard (.dial w ok))
    (hstep : s.step (.dial w ok) = some t) : ConnInv t := by
  obtain ⟨x, hx, hnext⟩ := Option.bind_eq_some_iff.1 hstep
  split at hnext
  · cases ok with
    | true =>
      cases hnext
      exact h.dialled hx (hheard x hx)
    | false =>
      cases hnext
      exact h.setWriter hx rfl (Or.inr rfl) (hheard x hx)
  · cases hnext

/-- A stream that takes a frame belongs to an open connection. -/
theorem ConnInv.written (h : ConnInv s) {w : Nat}
    (hstep : s.step (.write w true) = some t) : ConnInv t := by
  obtain ⟨x, hx, hnext⟩ := Option.bind_eq_some_iff.1 hstep
  obtain ⟨i, hi, hnext⟩ := Option.bind_eq_some_iff.1 hnext
  split at hnext
  · rw [if_pos rfl] at hnext
    split at hnext
    · rename_i hopen
      cases hnext
      obtain ⟨c, hc, hpeer⟩ := h.streams w x hx i hi
      rw [hc] at hopen
      exact h.setWriter hx rfl (Or.inr rfl) fun _ =>
        Or.inl ⟨c, List.mem_of_getElem? hc, hpeer, hopen⟩
    · cases hnext
  · cases hnext

/-- A writer whose stream breaks tries again, or announces the loss. -/
theorem ConnInv.broken (h : ConnInv s) {w : Nat}
    (hroom : s.losses.length < lossCapacity)
    (hstep : s.step (.write w false) = some t) : ConnInv t := by
  obtain ⟨x, hx, hnext⟩ := Option.bind_eq_some_iff.1 hstep
  obtain ⟨i, -, hnext⟩ := Option.bind_eq_some_iff.1 hnext
  have hmem : ∀ y, y ∈ s.writers.set w y := fun y =>
    List.mem_of_getElem? (List.getElem?_set_self
      (List.getElem?_eq_some_iff.1 hx).1)
  split at hnext
  · rename_i hframes
    rw [if_neg Bool.false_ne_true] at hnext
    split at hnext
    · cases hnext
      exact h.setWriter hx rfl (Or.inl rfl) fun _ =>
        Or.inr (Or.inr (Or.inl ⟨_, hmem _, rfl, hframes⟩))
    · cases hnext
      rw [announceLost_eq (s := s.setWriter w _) hroom]
      refine (h.announced x.peer).setWriter hx rfl (Or.inl rfl) fun _ =>
        Or.inr (Or.inl ?_)
      exact List.mem_append_right _ (List.mem_singleton_self _)
  · cases hnext

/-- The reactor takes up a loss. -/
theorem ConnInv.forget (h : ConnInv s) (hheard : s.LossesHeard .forget)
    (hstep : s.step .forget = some t) : ConnInv t := by
  simp only [step] at hstep
  split at hstep
  · rename_i peer rest hlosses
    cases hstep
    refine h.removed (fun x hx => ?_) fun x hx => ?_
    · obtain ⟨hne, hmem⟩ := KeySet.mem_remove.1 hx
      refine ⟨hmem, fun hloss => ?_⟩
      rw [hlosses] at hloss
      exact (List.mem_cons.1 hloss).resolve_left hne
    · split at hx
      · rename_i hmem
        rcases List.mem_cons.1 hx with rfl | hx
        · exact Or.inr (hheard x (by rw [hlosses]; rfl) hmem)
        · exact Or.inl hx
      · exact Or.inl hx
  · cases hstep

/-- The peer is quarantined and told of it, its link is taken down, and its loss
is announced. -/
theorem ConnInv.disconnect (h : ConnInv s) {now : Nat}
    (hroom : s.losses.length < lossCapacity)
    (hstep : s.step (.disconnect peer now) = some t) : ConnInv t := by
  cases hstep
  have hremoved : ConnInv { s with
      cluster := s.cluster.quarantine now peer
      forgotten := s.forgotten.filter fun x => x ≠ peer } :=
    h.removed (fun x hx => ⟨(KeySet.mem_remove.1 hx).2, id⟩) fun x hx =>
      Or.inl (List.mem_of_mem_filter hx)
  obtain ⟨hsent, -, -, -, hlosses, -⟩ := hremoved.sent peer
  have hunlinked := hsent.unlinked peer
  rw [announceLost_eq (s := { sendTo _ peer with links := _ })
    (hlosses.symm ▸ hroom)]
  exact hunlinked.announced peer

/-! ## Runs -/

theorem connInv_step {a : ConnAction} (h : ConnInv s) (hheard : s.LossesHeard a)
    (hstep : step s a = some t) : ConnInv t := by
  cases a with
  | accept remote =>
    cases hstep
    exact (h.opened ⟨remote, false, true⟩).handler (.learn [remote])
  | ask peer =>
    cases hstep
    exact h.opened _
  | ends i =>
    obtain ⟨c, hc, hnext⟩ := Option.bind_eq_some_iff.1 hstep
    split at hnext
    · cases hnext
      exact h.closed hc (hheard c hc)
    · cases hnext
  | close i => exact h.close hheard hstep
  | announced nodes =>
    cases hstep
    exact h.handler (.learn nodes)
  | join peer =>
    cases hstep
    exact h.handler (.join peer)
  | handle i now => exact h.handle hstep
  | send peer =>
    cases hstep
    exact (h.sent peer).1
  | dial w ok => exact h.dial hheard hstep
  | write w ok =>
    cases ok with
    | true => exact h.written hstep
    | false => exact h.broken hheard hstep
  | forget => exact h.forget hheard hstep
  | disconnect peer now => exact h.disconnect hheard hstep

end Steps

/-- While losses are heard of, membership is connectivity whenever nothing is
pending. -/
theorem membership_is_connectivity (cluster : Cluster me)
    (hempty : cluster.members = ∅) {s : Connectivity me}
    (hrun : Run step LossesHeard (start cluster) s) (hsettled : s.Settled) :
    s.MembersConnected := by
  have hinv := hrun.invariant connInv_step (connInv_start cluster hempty)
  refine ⟨fun x hx => ?_, hinv.dropped⟩
  refine (hinv.covered x hx).resolve_right ?_
  obtain ⟨hframes, hlosses, hhandlers⟩ := hsettled
  rintro (hloss | ⟨y, hy, -, hpos⟩ | ⟨y, hy, -⟩)
  · rw [hlosses] at hloss
    cases hloss
  · exact absurd (hframes y hy) hpos.ne'
  · rw [hhandlers] at hy
    cases hy

/-- Node 2 dials node 1, which dials it back before the first connection
ends. -/
theorem membership_is_connectivity_dialledBack :
    ∃ s, Run step LossesHeard (start (.new ⟨1⟩)) s ∧
      s.cluster.members.toList = [⟨2⟩] ∧ s.MembersConnected := by
  have hrun : ∃ s, Run step LossesHeard (start (.new ⟨1⟩)) s ∧
      (s.Settled ∧ s.cluster.members.toList = [⟨2⟩]) :=
    exec_run_of_any [.accept ⟨2⟩, .handle 0 5, .handle 0 5, .handle 0 5,
      .dial 0 true, .write 0 true, .ends 0] (by decide)
  obtain ⟨s, hrun, hsettled, hmembers⟩ := hrun
  exact ⟨s, hrun, hmembers,
    membership_is_connectivity (.new ⟨1⟩) rfl hrun hsettled⟩

/-- A client that cannot be dialled stays a member when it is gone.  A loss that
is heard of when the link was opened again drops the peer. -/
theorem membership_is_not_connectivity :
    (¬ ∀ (cluster : Cluster ⟨1⟩), cluster.members = ∅ →
      ∀ s, Run step anyStep (start cluster) s → s.Settled →
        ∀ x ∈ s.cluster.members.toList, s.Connected x) ∧
    ¬ ∀ (cluster : Cluster ⟨1⟩), cluster.members = ∅ →
      ∀ s, Run step anyStep (start cluster) s → s.Settled →
        ∀ x ∈ s.forgotten, ¬ s.LinkOpen x := by
  have hclient : ∃ s, Run step anyStep (start (.new ⟨1⟩)) s ∧ (s.Settled ∧
      ∃ x ∈ s.cluster.members.toList, ¬ s.Connected x) :=
    exec_run_of_any [.accept ⟨9⟩, .handle 0 5, .handle 0 5, .handle 0 5,
      .dial 0 false, .ends 0] (by decide)
  have hreopened : ∃ s, Run step anyStep (start (.new ⟨1⟩)) s ∧ (s.Settled ∧
      ∃ x ∈ s.forgotten, s.LinkOpen x) :=
    exec_run_of_any [.join ⟨2⟩, .handle 0 5, .handle 0 5, .handle 0 5,
      .dial 0 true, .write 0 true, .close 0, .send ⟨2⟩, .write 0 false,
      .dial 0 true, .write 0 true, .forget] (by decide)
  constructor
  · intro hall
    obtain ⟨s, hrun, hsettled, x, hx, hnot⟩ := hclient
    exact hnot (hall _ rfl s hrun hsettled x hx)
  · intro hall
    obtain ⟨s, hrun, hsettled, x, hx, hopen⟩ := hreopened
    exact hall _ rfl s hrun hsettled x hx hopen

end Connectivity

end Plasmoid
