import Plasmoid.Frames

/-!
# Streams that end anywhere

A peer can vanish at any byte.  Its link is read frame by frame until the stream
ends or a frame is bad.  A stream that ends before the length of the next frame
is complete counts as closed, and one that ends within the body is an error.
-/

namespace Plasmoid

open Framing

-- `cutShort` is the error of a stream that ends within what `read_exact` is to
-- read.
variable {α : Type} (codec : WireCodec α) (cutShort : String)

/-- `read_frame` on a stream that ends after these bytes.  `none` is a link that
the peer closed. -/
def readFrameAtEnd (bytes : List UInt8) :
    Except String (Option (α × List UInt8)) :=
  match readFrame codec bytes with
  | .more =>
    if bytes.length < 4 then .ok none
    else .error cutShort
  | .bad e => .error e
  | .frame msg rest => .ok (some (msg, rest))

theorem readMessage_of_readFrameAtEnd {bytes rest : List UInt8} {msg : α}
    (h : readFrameAtEnd codec cutShort bytes = .ok (some (msg, rest))) :
    readMessage codec bytes = some (msg, rest) := by
  rw [readFrameAtEnd] at h
  rw [readMessage]
  split at h
  · split at h
    · cases h
    · cases h
  · cases h
  · rename_i heq
    rw [heq]
    cases h
    rfl

/-- Where the reading ends, there is no frame at the front. -/
theorem readMessage_eq_none {bytes : List UInt8}
    (h : ∀ msg rest, readFrameAtEnd codec cutShort bytes ≠ .ok (some (msg, rest))) :
    readMessage codec bytes = none := by
  rw [readMessage]
  cases hframe : readFrame codec bytes with
  | more => rfl
  | bad e => rfl
  | frame msg rest =>
    refine absurd ?_ (h msg rest)
    rw [readFrameAtEnd, hframe]

/-- The loop of `handle_message_link`: the messages of a link, and how the
reading ends. -/
def handleMessageLink (bytes : List UInt8) : List α × Except String Unit :=
  match h : readFrameAtEnd codec cutShort bytes with
  | .ok (some (msg, rest)) =>
    have := (frameReader codec).shorter (readMessage_of_readFrameAtEnd codec cutShort h)
    (msg :: (handleMessageLink rest).1, (handleMessageLink rest).2)
  | .ok none => ([], .ok ())
  | .error e => ([], .error e)
termination_by bytes.length

/-- How reading ends at bytes that hold no frame. -/
def linkEnd (bytes : List UInt8) : Except String Unit :=
  match readFrameAtEnd codec cutShort bytes with
  | .ok _ => .ok ()
  | .error e => .error e

/-- The loop finds the frames that a reader finds, and ends at what is left
over. -/
theorem handleMessageLink_eq (bytes : List UInt8) :
    handleMessageLink codec cutShort bytes =
      ((frameReader codec).readAll bytes,
        linkEnd codec cutShort ((frameReader codec).leftover bytes)) := by
  induction h : bytes.length using Nat.strong_induction_on generalizing bytes with
  | _ n ih =>
    subst h
    rw [handleMessageLink]
    split
    · rename_i msg rest heq
      have hread : (frameReader codec).read bytes = some (msg, rest) :=
        readMessage_of_readFrameAtEnd codec cutShort heq
      have hlt := (frameReader codec).shorter hread
      rw [ih _ hlt rest rfl, Reader.readAll_of_read hread,
        Reader.leftover_of_read hread]
    · rename_i heq
      have hread : (frameReader codec).read bytes = none :=
        readMessage_eq_none codec cutShort fun msg rest hframe => by
          cases heq.symm.trans hframe
      rw [Reader.readAll_of_none hread, Reader.leftover_of_none hread, linkEnd, heq]
    · rename_i e heq
      have hread : (frameReader codec).read bytes = none :=
        readMessage_eq_none codec cutShort fun msg rest hframe => by
          cases heq.symm.trans hframe
      rw [Reader.readAll_of_none hread, Reader.leftover_of_none hread, linkEnd, heq]

/-- A link that ends before the next length is complete was closed. -/
theorem linkEnd_of_short {bytes : List UInt8} (h : bytes.length < 4) :
    linkEnd codec cutShort bytes = .ok () := by
  rw [linkEnd, readFrameAtEnd, readFrame, if_pos h]
  dsimp only
  rw [if_pos h]

/-- A link that ends within the body of a frame is an error. -/
theorem linkEnd_of_cut {msg : α} {frame : List UInt8}
    (h : encodeFrame codec msg = .ok frame) {k : ℕ} (hk : k < frame.length)
    (hheader : 4 ≤ (frame.take k).length) :
    linkEnd codec cutShort (frame.take k) = .error cutShort := by
  obtain ⟨body, -, hlen, rfl⟩ := encodeFrame_eq_ok codec h
  have hfew : ¬ ((u32ToLe body.length ++ body).take k).length < 4 :=
    Nat.not_lt.2 hheader
  have hk4 : 4 ≤ k := hheader.trans (List.length_take_le _ _)
  have hlenBytes : ((u32ToLe body.length ++ body).take k).take 4 =
      u32ToLe body.length := by
    rw [List.take_take, Nat.min_eq_left hk4]
    rfl
  have hlength : u32OfLe (((u32ToLe body.length ++ body).take k).take 4) =
      body.length := by
    rw [hlenBytes]
    exact u32OfLe_u32ToLe (lt_of_le_of_lt hlen (by decide))
  have hmore : ((u32ToLe body.length ++ body).take k).length < 4 + body.length := by
    rw [List.length_append, length_u32ToLe] at hk
    exact (List.length_take_le _ _).trans_lt hk
  have hread : readFrame codec ((u32ToLe body.length ++ body).take k) = .more := by
    unfold readFrame
    simp only [hlength]
    rw [if_neg hfew, if_neg (Nat.not_lt.2 hlen), if_pos hmore]
  rw [linkEnd, readFrameAtEnd, hread]
  dsimp only
  rw [if_neg hfew]

theorem exists_encoded {msgs : List α} {frames : List (List UInt8)}
    (h : List.Forall₂ (fun msg frame => encodeFrame codec msg = .ok frame) msgs
      frames) {frame : List UInt8} (hmem : frame ∈ frames) :
    ∃ msg, encodeFrame codec msg = .ok frame := by
  induction h with
  | nil => cases hmem
  | @cons msg _ _ _ hmsg _ ih =>
    rcases List.mem_cons.1 hmem with rfl | hmem
    · exact ⟨msg, hmsg⟩
    · exact ih hmem

/-- The two length checks agree. -/
theorem refused_iff_oversized (hcodec : codec.RoundTrips) {msg : α}
    {body : List UInt8} (hbody : codec.serialize msg = .ok body)
    (hsmall : body.length < 2 ^ 32) :
    (∃ e, encodeFrame codec msg = .error e) ↔
      readFrame codec (u32ToLe body.length ++ body) =
        .bad s!"peer sent an oversized frame: {body.length}" := by
  have hlength : u32OfLe ((u32ToLe body.length ++ body).take 4) = body.length :=
    u32OfLe_u32ToLe hsmall
  have hheader : ¬ (u32ToLe body.length ++ body).length < 4 := by
    rw [List.length_append, length_u32ToLe]
    omega
  by_cases hlen : body.length ≤ maxFrameLen
  · have hencoded : encodeFrame codec msg = .ok (u32ToLe body.length ++ body) := by
      unfold encodeFrame
      rw [hbody]
      exact if_pos hlen
    have hread : readMessage codec (u32ToLe body.length ++ body) =
        some (msg, []) := by
      have hwhole := (delimits_encodeFrame codec hcodec hencoded).whole []
      rwa [List.append_nil] at hwhole
    refine iff_of_false ?_ fun hbad => ?_
    · rintro ⟨e, he⟩
      rw [hencoded] at he
      cases he
    · rw [readMessage, hbad] at hread
      cases hread
  · have hrefused : ∃ e, encodeFrame codec msg = .error e := by
      refine ⟨s!"message is larger than the {maxFrameLen} byte frame limit", ?_⟩
      unfold encodeFrame
      rw [hbody]
      exact if_neg hlen
    refine iff_of_true hrefused ?_
    unfold readFrame
    simp only [hlength]
    rw [if_neg hheader, if_pos (Nat.not_le.1 hlen)]

/-- Frames one after the other, cut anywhere, give the messages whose frames are
whole.  The link counts as closed if fewer than four bytes are left over, and
otherwise reading ends in the error of the stream.  A message is refused by the sender exactly
when the receiver would refuse its length. -/
theorem frames_survive_cut (hcodec : codec.RoundTrips) :
    (∀ (msgs : List α) (frames : List (List UInt8)),
      List.Forall₂ (fun msg frame => encodeFrame codec msg = .ok frame) msgs
        frames →
      ∀ k, ∃ n, n ≤ frames.length ∧ (frames.take n).flatten.length ≤ k ∧
        (∀ frame ∈ frames[n]?, k < (frames.take n).flatten.length + frame.length) ∧
        let link := handleMessageLink codec cutShort (frames.flatten.take k)
        let left := (frames.flatten.take k).drop (frames.take n).flatten.length
        link.1 = msgs.take n ∧
        (left.length < 4 → link.2 = .ok ()) ∧
        (4 ≤ left.length → link.2 = .error cutShort)) ∧
    ∀ msg body, codec.serialize msg = .ok body → body.length < 2 ^ 32 →
      ((∃ e, encodeFrame codec msg = .error e) ↔
        readFrame codec (u32ToLe body.length ++ body) =
          .bad s!"peer sent an oversized frame: {body.length}") := by
  refine ⟨fun msgs frames hframes k => ?_, fun msg body hbody hsmall => ?_⟩
  · have hitems : List.Forall₂ (frameReader codec).Delimits msgs frames :=
      hframes.imp fun _ _ h => delimits_encodeFrame codec hcodec h
    obtain ⟨n, hn, hlength, hnext, hread, hrest, hleft⟩ := Reader.readAll_cut hitems k
    refine ⟨n, hn, hlength, hnext, ?_⟩
    intro link left
    have hlink : link = _ := handleMessageLink_eq codec cutShort _
    rw [hread, hrest] at hlink
    refine ⟨by rw [hlink], fun hshort => ?_, fun hlong => ?_⟩
    · rw [hlink]
      exact linkEnd_of_short codec cutShort hshort
    · rw [hlink]
      cases hframe : frames[n]? with
      | none =>
        -- All frames are whole, so nothing is left over.
        have hall : frames.take n = frames :=
          List.take_of_length_le (List.getElem?_eq_none_iff.1 hframe)
        have hnothing : left = [] := by
          refine List.drop_eq_nil_of_le ?_
          rw [hall]
          exact List.length_take_le' _ _
        rw [hnothing] at hlong
        cases hlong
      | some frame =>
        have hcut : left = frame.take (k - (frames.take n).flatten.length) :=
          hrest.symm.trans (hleft frame hframe)
        obtain ⟨msg, hmsg⟩ :=
          exists_encoded codec hframes (List.mem_of_getElem? hframe)
        show linkEnd codec cutShort left = _
        rw [hcut] at hlong ⊢
        have hlt := hnext frame hframe
        exact linkEnd_of_cut codec cutShort hmsg (by omega) hlong
  · exact refused_iff_oversized codec hcodec hbody hsmall

/-- A codec that writes a list of bytes as it is. -/
def plainCodec : WireCodec (List UInt8) where
  serialize := .ok
  deserialize := .ok

/-- Two frames, cut within the second one. -/
theorem frames_survive_cut_plain :
    ∃ n ≤ 2, (handleMessageLink plainCodec "stream finished early"
      ([[1, 0, 0, 0, 7], [2, 0, 0, 0, 8, 9]].flatten.take 10)).1 =
        [[7], [8, 9]].take n :=
  have hcodec : plainCodec.RoundTrips := fun _ _ h => by
    cases h
    rfl
  have hframes : List.Forall₂
      (fun msg frame => encodeFrame plainCodec msg = .ok frame)
      [[7], [8, 9]] [[1, 0, 0, 0, 7], [2, 0, 0, 0, 8, 9]] :=
    .cons rfl (.cons rfl .nil)
  let ⟨n, hn, _, _, hread, _⟩ :=
    (frames_survive_cut plainCodec "stream finished early" hcodec).1 _ _ hframes 10
  ⟨n, hn, hread⟩

end Plasmoid
