import Plasmoid.Frames
import Plasmoid.Signals

/-!
# A node and its peer

What one node keeps of the messages that it sends to another one.  Every
message goes through `PeerLinks::send`, which refuses one that does not fit
into a frame.  The sender does not hear of it.
-/

namespace Plasmoid

open ParticleRegistry

/-- A node that talks to one peer.  `outbox` holds what it sent and what has
not arrived, oldest first. -/
structure PeerNode where
  reg : ParticleRegistry
  peer : EndpointId
  /-- The next ref of each guest, once it has drawn one. -/
  refs : Table Pid UInt64
  /-- What the signal forwarder has read of the deaths. -/
  cursor : Nat
  outbox : List PeerMessage

namespace PeerNode

def new (node peer : EndpointId) : PeerNode where
  reg := .new node
  peer := peer
  refs := ∅
  cursor := 0
  outbox := []

/-- The next ref of a guest. -/
def nextRef (n : PeerNode) (w : Pid) : UInt64 := (n.refs.lookup w).getD 1

/-- The forwarder lags: the oldest deaths it has not read were dropped. -/
def Lags (n : PeerNode) : Prop :=
  deathBroadcastCapacity < n.reg.deaths.length - n.cursor

instance (n : PeerNode) : Decidable n.Lags :=
  inferInstanceAs (Decidable (_ < _))

variable (codec : WireCodec PeerMessage)

/-- None of the messages to the peer is refused. -/
def Admits (n : PeerNode) (msgs : List (EndpointId × PeerMessage)) : Prop :=
  ∀ m ∈ msgs, m.1 = n.peer → codec.accepts m.2 = true

instance (n : PeerNode) (msgs : List (EndpointId × PeerMessage)) :
    Decidable (n.Admits codec msgs) :=
  inferInstanceAs (Decidable (∀ m ∈ msgs, _))

/-- Send messages.  Only those to the peer get anywhere, if they are not
refused. -/
def send (n : PeerNode) (msgs : List (EndpointId × PeerMessage)) : PeerNode :=
  { n with
    outbox := n.outbox ++
      (msgs.filter fun m => m.1 = n.peer && codec.accepts m.2).map Prod.snd }

/-- One turn of the signal forwarder. -/
def forward (n : PeerNode) : Option PeerNode :=
  if n.Lags then
    some { n with cursor := n.reg.deaths.length - deathBroadcastCapacity }
  else
    n.reg.deaths[n.cursor]?.map fun death =>
      { n with cursor := n.cursor + 1 }.send codec (forwardDeath death)

variable {codec} {n n' : PeerNode} {m : PeerMessage}
  {msgs : List (EndpointId × PeerMessage)}

theorem mem_outbox_send :
    m ∈ (n.send codec msgs).outbox ↔
      m ∈ n.outbox ∨ (n.peer, m) ∈ msgs ∧ codec.accepts m = true := by
  rw [send, List.mem_append]
  refine or_congr_right ?_
  constructor
  · intro h
    obtain ⟨⟨node, m⟩, hmem, rfl⟩ := List.mem_map.1 h
    simp only [List.mem_filter, Bool.and_eq_true, decide_eq_true_eq] at hmem
    obtain ⟨hmem, rfl, haccepts⟩ := hmem
    exact ⟨hmem, haccepts⟩
  · rintro ⟨hmem, haccepts⟩
    exact List.mem_map.2 ⟨(n.peer, m), List.mem_filter.2
      ⟨hmem, by simp [haccepts]⟩, rfl⟩

/-- Whatever is sent to the peer gets into the outbox, if none is refused. -/
theorem Admits.mem_send (h : n.Admits codec msgs)
    (hm : (n.peer, m) ∈ msgs) : m ∈ (n.send codec msgs).outbox :=
  mem_outbox_send.2 (Or.inr ⟨hm, h _ hm rfl⟩)

/-- What a turn of the forwarder does: it skips the deaths that were dropped,
or it sends the messages of the next one. -/
theorem forward_cases (h : n.forward codec = some n') :
    n.Lags ∧
        n' = { n with
          cursor := n.reg.deaths.length - deathBroadcastCapacity } ∨
      ∃ death, ¬ n.Lags ∧ n.reg.deaths[n.cursor]? = some death ∧
        n' = { n with cursor := n.cursor + 1 }.send codec
          (forwardDeath death) := by
  unfold forward at h
  split at h
  · rename_i hlag
    cases h
    exact .inl ⟨hlag, rfl⟩
  · rename_i hlag
    obtain ⟨death, hdeath, rfl⟩ := Option.map_eq_some_iff.1 h
    exact .inr ⟨death, hlag, hdeath, rfl⟩

end PeerNode

/-! ## A wire for small runs -/

def ExitReason.text : ExitReason → String
  | .shutdown text | .exception text => text
  | _ => ""

def Addressee.text : Addressee → String
  | .pid _ => ""
  | .name n => n

/-- The text in a message. -/
def PeerMessage.text : PeerMessage → String
  | .link _ target | .unlink _ target | .monitor _ target _ => target.text
  | .demonitor _ _ => ""
  | .exit _ _ reason | .down _ _ _ reason => reason.text
  | .exitSignal _ target reason => target.text ++ reason.text

/-- A wire that writes the text of a message after a tag.  Nobody reads it: a
node is handed the message itself. -/
def textWire : WireCodec PeerMessage where
  serialize msg := .ok (0 :: msg.text.toList.map fun c => .ofNat c.toNat)
  deserialize _ := .error "unexpected end"

end Plasmoid
