import Plasmoid.CallEnvelope
import Plasmoid.Lib.Framing

/-!
# Frames

Peers send each other frames: the length of the body in four bytes, and the
body, which is a serialized message.  Frames share one stream, one after the
other.  The serializer of the wire format is a parameter.
-/

namespace Plasmoid

open Framing

/-- Frames are no longer than this, on either side. -/
def maxFrameLen : Nat := 1024 * 1024

/-- `wire::serialize` and `wire::deserialize` for one type of messages. -/
structure WireCodec (α : Type) where
  serialize : α → Except String (List UInt8)
  deserialize : List UInt8 → Except String α

/-- What was serialized is read back. -/
def WireCodec.RoundTrips {α : Type} (codec : WireCodec α) : Prop :=
  ∀ msg body, codec.serialize msg = .ok body → codec.deserialize body = .ok msg

/-- What `read_frame` finds in the bytes that have arrived. -/
inductive FrameRead (α : Type) where
  /-- The frame is not complete.  If the stream ends here, so does the link. -/
  | more
  | bad (error : String)
  | frame (msg : α) (rest : List UInt8)

variable {α : Type} (codec : WireCodec α)

def encodeFrame (msg : α) : Except String (List UInt8) := do
  let body ← codec.serialize msg
  if body.length ≤ maxFrameLen then .ok (u32ToLe body.length ++ body)
  else .error s!"message is larger than the {maxFrameLen} byte frame limit"

/-- The message fits into a frame.  `PeerLinks::send` refuses any other. -/
def WireCodec.accepts (msg : α) : Bool := (encodeFrame codec msg).toBool

def readFrame (bytes : List UInt8) : FrameRead α :=
  if bytes.length < 4 then .more
  else
    let len := u32OfLe (bytes.take 4)
    if maxFrameLen < len then .bad s!"peer sent an oversized frame: {len}"
    else if bytes.length < 4 + len then .more
    else
      match codec.deserialize ((bytes.drop 4).take len) with
      | .error e => .bad e
      | .ok msg => .frame msg (bytes.drop (4 + len))

/-- The message in front, if its frame is complete and good. -/
def readMessage (bytes : List UInt8) : Option (α × List UInt8) :=
  match readFrame codec bytes with
  | .frame msg rest => some (msg, rest)
  | .more | .bad _ => none

/-! ## Frames delimit themselves -/

theorem readMessage_eq_some {bytes rest : List UInt8} {msg : α}
    (h : readMessage codec bytes = some (msg, rest)) :
    ∃ len, 4 + len ≤ bytes.length ∧ rest = bytes.drop (4 + len) := by
  unfold readMessage readFrame at h
  split at h
  · rename_i heq
    cases h
    split at heq
    · cases heq
    · simp only at heq
      split at heq
      · cases heq
      · split at heq
        · cases heq
        · rename_i hlen
          split at heq
          · cases heq
          · cases heq
            exact ⟨_, Nat.le_of_not_lt hlen, rfl⟩
  · cases h
  · cases h

/-- Frames off a stream. -/
def frameReader : Reader α UInt8 where
  read := readMessage codec
  shorter h := by
    obtain ⟨len, hlen, rfl⟩ := readMessage_eq_some codec h
    rw [List.length_drop]
    omega

theorem encodeFrame_eq_ok {msg : α} {frame : List UInt8}
    (h : encodeFrame codec msg = .ok frame) :
    ∃ body, codec.serialize msg = .ok body ∧ body.length ≤ maxFrameLen ∧
      frame = u32ToLe body.length ++ body := by
  unfold encodeFrame at h
  cases hbody : codec.serialize msg with
  | error e =>
    rw [hbody] at h
    cases h
  | ok body =>
    rw [hbody] at h
    simp only [bind, Except.bind] at h
    split at h
    · rename_i hlen
      cases h
      exact ⟨body, rfl, hlen, rfl⟩
    · cases h

/-- Reading where the length of the body has arrived. -/
theorem readMessage_of_length {n : Nat} (hn : n ≤ maxFrameLen)
    (bytes : List UInt8) : readMessage codec (u32ToLe n ++ bytes) =
      if bytes.length < n then none
      else
        match codec.deserialize (bytes.take n) with
        | .error _ => none
        | .ok msg => some (msg, bytes.drop n) := by
  have hlength : u32OfLe ((u32ToLe n ++ bytes).take 4) = n :=
    u32OfLe_u32ToLe (lt_of_le_of_lt hn (by decide))
  have hbody : (u32ToLe n ++ bytes).drop 4 = bytes := rfl
  have hrest : (u32ToLe n ++ bytes).drop (4 + n) = bytes.drop n := by
    rw [← List.drop_drop, hbody]
  have hmore : (u32ToLe n ++ bytes).length < 4 + n ↔ bytes.length < n := by
    rw [List.length_append, length_u32ToLe]
    omega
  have hheader : ¬ (u32ToLe n ++ bytes).length < 4 := by
    rw [List.length_append, length_u32ToLe]
    omega
  unfold readMessage readFrame
  simp only [hlength, hbody, hrest, hmore, if_neg hheader,
    if_neg (Nat.not_lt.2 hn)]
  by_cases hlen : bytes.length < n
  · simp only [if_pos hlen]
  · simp only [if_neg hlen]
    cases codec.deserialize (bytes.take n) <;> rfl

/-- What was encoded is one frame. -/
theorem delimits_encodeFrame (hcodec : codec.RoundTrips) {msg : α}
    {frame : List UInt8} (h : encodeFrame codec msg = .ok frame) :
    (frameReader codec).Delimits msg frame := by
  obtain ⟨body, hbody, hlen, rfl⟩ := encodeFrame_eq_ok codec h
  constructor
  · intro rest
    show readMessage codec _ = _
    rw [List.append_assoc, readMessage_of_length codec hlen, List.take_left,
      List.drop_left, hcodec msg body hbody, if_neg]
    rw [List.length_append]
    omega
  · intro k hk
    show readMessage codec _ = _
    rw [List.length_append, length_u32ToLe] at hk
    by_cases hheader : k < 4
    · -- Not even the length is there.
      have hmore : ((u32ToLe body.length ++ body).take k).length < 4 :=
        lt_of_le_of_lt (List.length_take_le _ _) hheader
      unfold readMessage readFrame
      simp only [if_pos hmore]
    · have htake : (u32ToLe body.length ++ body).take k =
          u32ToLe body.length ++ body.take (k - 4) := by
        rw [List.take_append, length_u32ToLe, List.take_of_length_le]
        rw [length_u32ToLe]
        omega
      rw [htake, readMessage_of_length codec hlen, if_pos]
      rw [List.length_take]
      omega

end Plasmoid
