import Plasmoid.Frames
import Plasmoid.Lib.Machine

/-!
# The streams between two peers

The path of the messages from one node to one peer.  `PeerLinks` hands each
frame to the queue of the peer's link.  A writer task drains the queue onto a
stream, and opens another one when a write fails.  Disconnecting drops the
link but not the writer, which goes on until its queue is empty, and the next
message starts another link with another writer.  At the peer every stream has
a handler of its own.

A stream is the list of the bytes that were written to it and that its handler
has not read.  Bytes that never arrive are bytes that the handler never reads.
-/

namespace Plasmoid

open Framing

/-! ## Successions -/

/-- Things that come one after the other, and of which only the last may be in
use. -/
structure Succession (α : Type) where
  past : List α
  current : Option α

namespace Succession

variable {α : Type}

def empty : Succession α := ⟨[], none⟩

def all (s : Succession α) : List α := s.past ++ s.current.toList

/-- Replace the one in place `i`. -/
def set (s : Succession α) (i : Nat) (a : α) : Succession α :=
  if i < s.past.length then { s with past := s.past.set i a }
  else { s with current := some a }

/-- Put the one in use aside. -/
def retire (s : Succession α) : Succession α := ⟨s.all, none⟩

/-- Take another one into use. -/
def start (s : Succession α) (a : α) : Succession α := ⟨s.all, some a⟩

@[simp] theorem all_retire (s : Succession α) : s.retire.all = s.all :=
  List.append_nil _

@[simp] theorem all_start (s : Succession α) (a : α) :
    (s.start a).all = s.all ++ [a] := rfl

theorem all_of_current {s : Succession α} {a : α} (h : s.current = some a) :
    s.all = s.past ++ [a] := by
  rw [all, h]
  rfl

/-- The last place is that of the one in use. -/
theorem current_of_get {s : Succession α} {i : Nat} {a : α}
    (h : s.all[i]? = some a) (hi : ¬ i < s.past.length) :
    s.current = some a ∧ i = s.past.length := by
  rw [all, List.getElem?_append_right (Nat.le_of_not_lt hi)] at h
  cases hc : s.current with
  | none =>
    rw [hc] at h
    cases h
  | some c =>
    rw [hc, Option.toList_some, List.getElem?_singleton] at h
    split at h
    · rename_i hzero
      cases h
      exact ⟨rfl, by omega⟩
    · cases h

theorem all_set {s : Succession α} {i : Nat} {a b : α}
    (h : s.all[i]? = some a) : (s.set i b).all = s.all.set i b := by
  unfold set
  split
  · rename_i hi
    rw [all, all, List.set_append_left _ _ hi]
  · rename_i hi
    obtain ⟨hc, rfl⟩ := current_of_get h hi
    rw [all_of_current hc, List.set_append_right _ _ (Nat.le_refl _),
      Nat.sub_self]
    rfl

/-- Replacing one leaves the one in use, or it was that one. -/
theorem current_set {s : Succession α} {i : Nat} {a b c : α}
    (h : s.all[i]? = some a) (hc : (s.set i b).current = some c) :
    s.current = some c ∨ s.current = some a ∧ c = b := by
  unfold set at hc
  split at hc
  · exact Or.inl hc
  · rename_i hi
    cases hc
    exact Or.inr ⟨(current_of_get h hi).1, rfl⟩

end Succession

/-! ## The writers -/

/-- `write_to_peer`: what waits in its queue, the frame that it is writing and
how often that has failed, and the streams that it has opened. -/
structure PeerWriter where
  frames : List (List UInt8)
  writing : Option (List UInt8 × Nat)
  streams : Succession (List UInt8)

namespace PeerWriter

def new : PeerWriter where
  frames := []
  writing := none
  streams := .empty

def push (p : PeerWriter) (frame : List UInt8) : PeerWriter :=
  { p with frames := p.frames ++ [frame] }

/-- Take the next frame off the queue. -/
def take (p : PeerWriter) : Option PeerWriter :=
  match p.writing, p.frames with
  | none, frame :: rest =>
    some { p with frames := rest, writing := some (frame, 0) }
  | _, _ => none

/-- Open a stream if there is none.  If the peer cannot be reached the message
is dropped. -/
def openLink (p : PeerWriter) (dialed : Bool) : Option PeerWriter :=
  match p.writing, p.streams.current with
  | some _, none =>
    if dialed then some { p with streams := p.streams.start [] }
    else some { p with writing := none }
  | _, _ => none

/-- The whole frame is written. -/
def write (p : PeerWriter) : Option PeerWriter :=
  match p.writing, p.streams.current with
  | some (frame, _), some bytes =>
    some { p with
      writing := none
      streams := { p.streams with current := some (bytes ++ frame) } }
  | _, _ => none

/-- The write fails when `k` bytes are written.  There are two attempts. -/
def breakLink (p : PeerWriter) (k : Nat) : Option PeerWriter :=
  match p.writing, p.streams.current with
  | some (frame, attempt), some bytes =>
    if k < frame.length then
      some { p with
        writing := if attempt = 1 then none else some (frame, attempt + 1)
        streams := Succession.retire
          { p.streams with current := some (bytes ++ frame.take k) } }
    else none
  | _, _ => none

end PeerWriter

/-! ## The machine -/

inductive StreamAction (α : Type) where
  | send (msg : α)
  | disconnect
  /-- The writers, in the order in which they were started. -/
  | take (w : Nat)
  | openLink (w : Nat) (dialed : Bool)
  | write (w : Nat)
  | breakLink (w k : Nat)
  /-- The handler of the `i`th stream of a writer handles a message. -/
  | handle (w i : Nat)

/-- The links of one node to one peer, and what the peer has processed.
`sent` and `reached` are history: the messages that were accepted, and the
newest stream that a message was read from. -/
structure PeerStreams (α : Type) where
  links : Succession PeerWriter
  sent : List α
  processed : List α
  reached : Nat × Nat

namespace PeerStreams

variable {α : Type} (codec : WireCodec α)

def start : PeerStreams α where
  links := .empty
  sent := []
  processed := []
  reached := (0, 0)

/-- The link to the peer gets a frame.  Without a link another one is
started. -/
def enqueue (links : Succession PeerWriter) (frame : List UInt8) :
    Succession PeerWriter :=
  match links.current with
  | some p => { links with current := some (p.push frame) }
  | none => links.start (PeerWriter.new.push frame)

/-- `PeerLinks::send`.  A message that cannot be encoded is refused. -/
def send (s : PeerStreams α) (msg : α) : PeerStreams α :=
  match encodeFrame codec msg with
  | .error _ => s
  | .ok frame =>
    { s with links := enqueue s.links frame, sent := s.sent ++ [msg] }

/-- A writer takes a turn. -/
def turn (s : PeerStreams α) (w : Nat) (f : PeerWriter → Option PeerWriter) :
    Option (PeerStreams α) :=
  (s.links.all[w]?).bind fun p =>
    (f p).map fun p' => { s with links := s.links.set w p' }

/-- One turn of `handle_message_link`.  A bad frame ends it, and so does the
end of the stream: nothing more is read. -/
def handle (s : PeerStreams α) (w i : Nat) : Option (PeerStreams α) :=
  (s.links.all[w]?).bind fun p =>
    (p.streams.all[i]?).bind fun bytes =>
      (readMessage codec bytes).map fun out =>
        { s with
          links := s.links.set w { p with streams := p.streams.set i out.2 }
          processed := s.processed ++ [out.1]
          reached := (w, i) }

def step (s : PeerStreams α) : StreamAction α → Option (PeerStreams α)
  | .send msg => some (s.send codec msg)
  | .disconnect => some { s with links := s.links.retire }
  | .take w => s.turn w PeerWriter.take
  | .openLink w dialed => s.turn w (PeerWriter.openLink · dialed)
  | .write w => s.turn w PeerWriter.write
  | .breakLink w k => s.turn w (PeerWriter.breakLink · k)
  | .handle w i => s.handle codec w i

/-- No message is read from a stream that was opened, or whose writer was
started, before one that has been read from. -/
def inTurn (s : PeerStreams α) : StreamAction α → Bool
  | .handle w i => s.reached.1 < w || s.reached.1 = w && s.reached.2 ≤ i
  | _ => true

end PeerStreams

end Plasmoid
