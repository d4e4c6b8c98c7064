import Plasmoid.StreamOrder

/-!
# What the streams hold

In what order the messages of a peer are handled depends on the handlers.
How often does not.  A writer may write a frame again on another stream, but
only after a write that did not finish, and a handler ignores a frame that is
not whole.  So every message that was sent is processed, or a writer or a
stream holds it, or its writer has given it up, and only one of the three.

A writer gives a message up when a dial fails or when its second write breaks.
A first write that breaks gives nothing up.  What was written to a stream whose
connection then dies is held by that stream, and nobody ever reads it.
-/

namespace Plasmoid

open Framing Machine

namespace PeerWriter

variable {α : Type} (r : Reader α UInt8)

/-- The message that is being written. -/
def inWriting (p : PeerWriter) : List α :=
  p.writing.toList.flatMap fun c => r.readAll c.1

/-- The same, at its second attempt. -/
def inRewriting (p : PeerWriter) : List α :=
  p.writing.toList.flatMap fun c => if c.2 = 1 then r.readAll c.1 else []

variable {r} {p p' : PeerWriter}

/-- A turn that invents no message and gives `dropped` up. -/
structure Conserves (r : Reader α UInt8) (p p' : PeerWriter)
    (dropped : List α) : Prop where
  framed : p'.Framed r
  rest : (p.rest r 0).Perm (p'.rest r 0 ++ dropped)

theorem conserves_take (hp : p.Framed r) (h : p.take = some p') :
    Conserves r p p' [] := by
  refine ⟨(keeps_take hp h).framed, ?_⟩
  unfold take at h
  split at h
  · rename_i frame rest hwriting hframes
    cases h
    simp [PeerWriter.rest, hwriting, hframes]
  · cases h

theorem conserves_openLink (hp : p.Framed r) {dialed : Bool}
    (h : p.openLink dialed = some p') :
    Conserves r p p' (if dialed then [] else p.inWriting r) := by
  refine ⟨(keeps_openLink hp h).framed, ?_⟩
  unfold openLink at h
  split at h
  · cases dialed with
    | true =>
      cases h
      simp [PeerWriter.rest]
    | false =>
      cases h
      simp only [PeerWriter.rest, inWriting, Option.toList_none, List.flatMap_nil,
        List.append_nil, List.append_assoc]
      exact List.perm_append_comm.append_left _
  · cases h

theorem conserves_write (hp : p.Framed r) (h : p.write = some p') :
    Conserves r p p' [] := by
  refine ⟨(keeps_write hp h).framed, ?_⟩
  unfold write at h
  split at h
  · rename_i frame attempt bytes hwriting hcurrent
    cases h
    have hwhole := hp.open_whole bytes hcurrent
    simp [PeerWriter.rest, hwriting, hcurrent, Succession.all,
      hwhole.readAll_append]
  · cases h

theorem conserves_breakLink (hp : p.Framed r) {k : Nat}
    (h : p.breakLink k = some p') : Conserves r p p' (p.inRewriting r) := by
  refine ⟨(keeps_breakLink hp h).framed, ?_⟩
  unfold breakLink at h
  split at h
  · rename_i frame attempt bytes hwriting hcurrent
    split at h
    · rename_i hk
      cases h
      obtain ⟨msg, hframe⟩ := hp.writing _ hwriting
      have hwhole := hp.open_whole bytes hcurrent
      -- A cut frame is no message.
      have hcut : r.readAll (bytes ++ frame.take k) = r.readAll bytes := by
        rw [hwhole.readAll_append, hframe.readAll_take hk, List.append_nil]
      by_cases hagain : attempt = 1
      · simp only [PeerWriter.rest, inRewriting, hwriting, hcurrent, hagain,
          Succession.all, Succession.retire, hcut, List.drop_zero, if_pos,
          Option.toList_some, Option.toList_none,
          List.flatMap_append, List.flatMap_singleton, List.flatMap_nil,
          List.append_nil, List.append_assoc]
        exact (List.perm_append_comm.append_left _).append_left _
      · simp [PeerWriter.rest, inRewriting, hwriting, hcurrent, hagain,
          Succession.all, Succession.retire, hcut]
    · cases h
  · cases h

end PeerWriter

namespace PeerStreams

open PeerWriter

variable {α : Type} (r : Reader α UInt8)

/-- What the writers and the streams hold. -/
def held (s : PeerStreams α) : List α :=
  s.links.all.flatMap fun p => p.rest r 0

/-- What a writer gives up in an action. -/
def givesUp (s : PeerStreams α) : StreamAction α → List α
  | .openLink w false => (s.links.all[w]?).toList.flatMap (PeerWriter.inWriting r)
  | .breakLink w _ => (s.links.all[w]?).toList.flatMap (PeerWriter.inRewriting r)
  | _ => []

variable {r} {s t : PeerStreams α}

/-- What one of several holds, and the others. -/
theorem flatMap_set_perm {writers : List PeerWriter} {w : Nat}
    {p : PeerWriter} (hp : writers[w]? = some p) (p' : PeerWriter) :
    ∃ others : List α,
      (writers.flatMap fun p => p.rest r 0).Perm (p.rest r 0 ++ others) ∧
      ((writers.set w p').flatMap fun p => p.rest r 0).Perm
        (p'.rest r 0 ++ others) := by
  induction writers generalizing w with
  | nil => cases hp
  | cons q writers ih =>
    cases w with
    | zero =>
      cases hp
      exact ⟨_, .refl _, .refl _⟩
    | succ w =>
      obtain ⟨others, hold, hnew⟩ := ih hp
      have hswap : ∀ mine : List α, (q.rest r 0 ++ (mine ++ others)).Perm
          (mine ++ (q.rest r 0 ++ others)) := by
        intro mine
        rw [← List.append_assoc, ← List.append_assoc]
        exact List.perm_append_comm.append_right others
      refine ⟨q.rest r 0 ++ others, ?_, ?_⟩
      · exact (hold.append_left _).trans (hswap _)
      · exact (hnew.append_left _).trans (hswap _)

/-- A message that is sent is held once. -/
theorem held_enqueue {links : Succession PeerWriter} {frame : List UInt8}
    {msg : α} (hframe : r.Delimits msg frame) :
    ((enqueue links frame).all.flatMap fun p => p.rest r 0) =
      (links.all.flatMap fun p => p.rest r 0) ++ [msg] := by
  have hnew : (PeerWriter.new.push frame).rest r 0 = [msg] := by
    rw [rest_push hframe]
    simp [PeerWriter.rest, PeerWriter.new, Succession.empty, Succession.all]
  unfold enqueue
  split
  · rename_i q hq
    have hall : Succession.all { links with current := some (q.push frame) } =
        links.past ++ [q.push frame] := rfl
    rw [hall, Succession.all_of_current hq, List.flatMap_append,
      List.flatMap_append, List.flatMap_singleton, List.flatMap_singleton,
      rest_push hframe, List.append_assoc]
  · rw [Succession.all_start, List.flatMap_append, List.flatMap_singleton, hnew]

/-- A message that is read is no longer held. -/
theorem rest_read {p : PeerWriter} {i : Nat} {bytes left : List UInt8} {msg : α}
    (hbytes : p.streams.all[i]? = some bytes)
    (hread : r.read bytes = some (msg, left)) :
    (p.rest r 0).Perm
      (msg :: PeerWriter.rest r { p with streams := p.streams.set i left } 0) := by
  have hsplit : ∀ {streams : List (List UInt8)} {i : Nat},
      streams[i]? = some bytes → (streams.flatMap r.readAll).Perm
        (msg :: (streams.set i left).flatMap r.readAll) := by
    intro streams
    induction streams with
    | nil =>
      intro i hi
      cases hi
    | cons b streams ih =>
      intro i hi
      cases i with
      | zero =>
        cases hi
        simp only [List.set_cons_zero, List.flatMap_cons, Reader.readAll_of_read hread,
          List.cons_append]
        exact .refl _
      | succ i =>
        simp only [List.set_cons_succ, List.flatMap_cons]
        exact ((ih hi).append_left _).trans List.perm_middle
  simp only [PeerWriter.rest, Succession.all_set hbytes, List.drop_zero]
  exact ((hsplit hbytes).append_right _).append_right _

/-! ## Steps -/

/-- What a step takes from what is held: the message that it processes, or the
one that a writer gives up. -/
structure Settles (r : Reader α UInt8) (s t : PeerStreams α)
    (done dropped : List α) : Prop where
  framed : (∀ p ∈ s.links.all, p.Framed r) → ∀ p ∈ t.links.all, p.Framed r
  sent : t.sent = s.sent
  processed : t.processed = s.processed ++ done
  held : (∀ p ∈ s.links.all, p.Framed r) →
    (s.held r).Perm (t.held r ++ done ++ dropped)

theorem settles_turn {w : Nat} {f : PeerWriter → Option PeerWriter}
    {dropped : PeerWriter → List α}
    (hf : ∀ {p p'}, p.Framed r → f p = some p' → Conserves r p p' (dropped p))
    (h : s.turn w f = some t) :
    Settles r s t [] ((s.links.all[w]?).toList.flatMap dropped) := by
  obtain ⟨p, hp, h⟩ := Option.bind_eq_some_iff.1 h
  obtain ⟨p', hp', rfl⟩ := Option.map_eq_some_iff.1 h
  have hmem := List.mem_of_getElem? hp
  refine ⟨fun hall => framed_set hall hp (hf (hall p hmem) hp').framed, rfl,
    (List.append_nil _).symm, fun hall => ?_⟩
  have hconserves := hf (hall p hmem) hp'
  obtain ⟨others, hold, hnew⟩ := flatMap_set_perm (r := r) hp p'
  rw [← Succession.all_set hp] at hnew
  have hdropped : ((s.links.all[w]?).toList.flatMap dropped) = dropped p := by
    rw [hp, Option.toList_some, List.flatMap_singleton]
  rw [hdropped, List.append_nil]
  calc (s.held r).Perm (p.rest r 0 ++ others) := hold
    _ |>.Perm (p'.rest r 0 ++ dropped p ++ others) :=
      hconserves.rest.append_right others
    _ |>.Perm (p'.rest r 0 ++ others ++ dropped p) := by
      rw [List.append_assoc, List.append_assoc]
      exact List.perm_append_comm.append_left _
    _ |>.Perm (_ ++ dropped p) := hnew.symm.append_right _

variable (codec : WireCodec α)

/-- A message is refused, or it is sent and held. -/
theorem held_send (hcodec : codec.RoundTrips) (s : PeerStreams α) (msg : α) :
    s.send codec msg = s ∨
      (s.send codec msg).sent = s.sent ++ [msg] ∧
      (s.send codec msg).processed = s.processed ∧
      (s.send codec msg).held (frameReader codec) =
        s.held (frameReader codec) ++ [msg] ∧
      ((∀ p ∈ s.links.all, p.Framed (frameReader codec)) →
        ∀ p ∈ (s.send codec msg).links.all, p.Framed (frameReader codec)) := by
  unfold PeerStreams.send
  split
  · exact .inl rfl
  · rename_i frame hencode
    have hframe := delimits_encodeFrame codec hcodec hencode
    exact .inr ⟨rfl, rfl, held_enqueue hframe,
      fun hframed => framed_enqueue hframed hframe⟩

/-- A message that is handled was held. -/
theorem held_handle {w i : Nat} (h : s.handle codec w i = some t) :
    ∃ msg, t.sent = s.sent ∧ t.processed = s.processed ++ [msg] ∧
      (s.held (frameReader codec)).Perm (msg :: t.held (frameReader codec)) ∧
      ((∀ p ∈ s.links.all, p.Framed (frameReader codec)) →
        ∀ p ∈ t.links.all, p.Framed (frameReader codec)) := by
  obtain ⟨p, hp, h⟩ := Option.bind_eq_some_iff.1 h
  obtain ⟨bytes, hbytes, h⟩ := Option.bind_eq_some_iff.1 h
  obtain ⟨⟨msg, left⟩, hread, rfl⟩ := Option.map_eq_some_iff.1 h
  have hread : (frameReader codec).read bytes = some (msg, left) := hread
  refine ⟨msg, rfl, rfl, ?_, fun hframed => framed_set hframed hp
    (framed_read (hframed p (List.mem_of_getElem? hp)) hbytes hread)⟩
  obtain ⟨others, hold, hnew⟩ := flatMap_set_perm (r := frameReader codec) hp
    { p with streams := p.streams.set i left }
  rw [← Succession.all_set hp] at hnew
  have hrest := (rest_read hbytes hread).append_right others
  rw [List.cons_append] at hrest
  exact hold.trans (hrest.trans (hnew.symm.cons msg))

/-- A step settles messages, or it sends one. -/
theorem step_settles (hcodec : codec.RoundTrips) {a : StreamAction α}
    (h : s.step codec a = some t) :
    (∃ done, Settles (frameReader codec) s t done (s.givesUp (frameReader codec) a)) ∨
      ∃ msg, a = .send msg ∧ t.sent = s.sent ++ [msg] ∧
        t.processed = s.processed ∧
        t.held (frameReader codec) = s.held (frameReader codec) ++ [msg] ∧
        ((∀ p ∈ s.links.all, p.Framed (frameReader codec)) →
          ∀ p ∈ t.links.all, p.Framed (frameReader codec)) := by
  have hidle : ∀ {t : PeerStreams α}, t.links.all = s.links.all →
      t.sent = s.sent → t.processed = s.processed →
      Settles (frameReader codec) s t [] [] := by
    intro t hlinks hsent hprocessed
    refine ⟨fun hall p hp => hall p (hlinks ▸ hp), hsent, ?_, fun _ => ?_⟩
    · rw [hprocessed, List.append_nil]
    · simp only [held, hlinks, List.append_nil]
      exact .refl _
  have hnone : ∀ w : Nat, ((s.links.all[w]?).toList.flatMap
      fun _ : PeerWriter => ([] : List α)) = [] := by
    intro w
    cases s.links.all[w]? <;> rfl
  cases a with
  | send msg =>
    cases h
    rcases held_send codec hcodec s msg with hsame | ⟨hsent, hproc, hheld, hframed⟩
    · rw [hsame]
      exact .inl ⟨[], hidle rfl rfl rfl⟩
    · exact .inr ⟨msg, rfl, hsent, hproc, hheld, hframed⟩
  | disconnect =>
    cases h
    exact .inl ⟨[], hidle (Succession.all_retire _) rfl rfl⟩
  | take w =>
    have hsettles := settles_turn (r := frameReader codec) conserves_take h
    rw [hnone] at hsettles
    exact .inl ⟨[], hsettles⟩
  | openLink w dialed =>
    have hsettles := settles_turn (r := frameReader codec)
      (fun hp hf => conserves_openLink hp hf) h
    refine .inl ⟨[], ?_⟩
    cases dialed with
    | true =>
      simp only [if_pos, hnone] at hsettles
      exact hsettles
    | false => exact hsettles
  | write w =>
    have hsettles := settles_turn (r := frameReader codec) conserves_write h
    rw [hnone] at hsettles
    exact .inl ⟨[], hsettles⟩
  | breakLink w k =>
    exact .inl ⟨[], settles_turn (fun hp hf => conserves_breakLink hp hf) h⟩
  | handle w i =>
    obtain ⟨msg, hsent, hproc, hperm, hframed⟩ := held_handle codec h
    refine .inl ⟨[msg], hframed, hsent, hproc, fun _ => ?_⟩
    rw [show s.givesUp (frameReader codec) (.handle w i) = [] from rfl,
      List.append_nil]
    exact hperm.trans (List.perm_append_singleton msg _).symm

end PeerStreams

/-! ## Runs -/

/-- The streams with the messages that were given up, which no step reads. -/
structure LossyStreams (α : Type) where
  streams : PeerStreams α
  givenUp : List α

namespace LossyStreams

variable {α : Type} (codec : WireCodec α)

def start : LossyStreams α := ⟨.start, []⟩

def step (s : LossyStreams α) (a : StreamAction α) : Option (LossyStreams α) :=
  (s.streams.step codec a).map fun streams =>
    { streams, givenUp := s.givenUp ++ s.streams.givesUp (frameReader codec) a }

/-- The writers hold frames, and every message is in one place. -/
structure HoldingsInv (s : LossyStreams α) : Prop where
  framed : ∀ p ∈ s.streams.links.all, p.Framed (frameReader codec)
  once : (s.streams.processed ++ s.streams.held (frameReader codec) ++
    s.givenUp).Perm s.streams.sent

theorem holdingsInv_start : HoldingsInv codec start where
  framed _ hp := absurd hp List.not_mem_nil
  once := .refl []

variable {codec} {s t : LossyStreams α}

theorem HoldingsInv.step (hcodec : codec.RoundTrips) (hs : HoldingsInv codec s)
    {a : StreamAction α} (h : s.step codec a = some t) : HoldingsInv codec t := by
  obtain ⟨streams, hstep, rfl⟩ := Option.map_eq_some_iff.1 h
  rcases PeerStreams.step_settles codec hcodec hstep with
    ⟨done, hsettles⟩ | ⟨msg, rfl, hsent, hprocessed, hheld, hframed⟩
  · refine ⟨hsettles.framed hs.framed, ?_⟩
    have hperm := hsettles.held hs.framed
    show (streams.processed ++ streams.held (frameReader codec) ++
      (s.givenUp ++ s.streams.givesUp (frameReader codec) a)).Perm streams.sent
    rw [hsettles.sent, hsettles.processed]
    refine List.Perm.trans ?_ hs.once
    refine List.Perm.trans ?_ ((hperm.append_left s.streams.processed).symm.append_right
      s.givenUp)
    simp only [List.append_assoc]
    refine List.Perm.append_left _ ?_
    -- Both sides hold the same four parts.
    rw [← List.append_assoc done, ← List.append_assoc (streams.held _)]
    exact List.perm_append_comm.append List.perm_append_comm
  · refine ⟨hframed hs.framed, ?_⟩
    show (streams.processed ++ streams.held (frameReader codec) ++
      (s.givenUp ++ [])).Perm streams.sent
    rw [hsent, hprocessed, hheld, List.append_nil]
    have hlast : (s.streams.processed ++ (s.streams.held (frameReader codec) ++ [msg]) ++
        s.givenUp).Perm ((s.streams.processed ++ s.streams.held (frameReader codec) ++
          s.givenUp) ++ [msg]) := by
      simp only [List.append_assoc]
      exact (List.perm_append_comm.append_left _).append_left _
    exact hlast.trans (hs.once.append_right [msg])

theorem holdingsInv_run (hcodec : codec.RoundTrips)
    (h : Run (step codec) anyStep start s) : HoldingsInv codec s :=
  h.invariant (fun hs _ hstep => hs.step hcodec hstep) (holdingsInv_start codec)

/-- However writers reconnect and handlers race, every message that was sent
is processed, held or given up, and only one of the three.  So none is processed
more often than it was sent, and what is not held and not given up is
processed. -/
theorem every_message_in_one_place (hcodec : codec.RoundTrips)
    (h : Run (step codec) anyStep start s) :
    (s.streams.processed ++ s.streams.held (frameReader codec) ++
        s.givenUp).Perm s.streams.sent ∧
      s.streams.processed.Subperm s.streams.sent ∧
      (s.streams.held (frameReader codec) = [] → s.givenUp = [] →
        s.streams.processed.Perm s.streams.sent) := by
  have hinv := holdingsInv_run hcodec h
  have hpart : s.streams.processed.Subperm (s.streams.processed ++
      s.streams.held (frameReader codec) ++ s.givenUp) := by
    rw [List.append_assoc]
    exact (List.sublist_append_left _ _).subperm
  refine ⟨hinv.once, hpart.trans hinv.once.subperm, fun hheld hgivenUp => ?_⟩
  have honce := hinv.once
  rw [hheld, hgivenUp, List.append_nil, List.append_nil] at honce
  exact honce

/-- The first write breaks after two bytes, and the second one succeeds. -/
def writeAgain : List (StreamAction UInt8) :=
  [.send 1, .take 0, .openLink 0 true, .breakLink 0 2, .openLink 0 true,
    .write 0, .handle 0 1]

theorem every_message_in_one_place_writeAgain :
    ∃ s : LossyStreams UInt8,
      Run (step PeerStreams.byteWire) anyStep start s ∧
        s.streams.processed = [1] ∧
        s.streams.processed.Subperm s.streams.sent := by
  obtain ⟨s, hrun, hprocessed⟩ : ∃ s : LossyStreams UInt8,
      Run (step PeerStreams.byteWire) anyStep start s ∧
        s.streams.processed = [1] :=
    exec_run_of_any writeAgain (by decide +kernel)
  exact ⟨s, hrun, hprocessed,
    (every_message_in_one_place PeerStreams.byteWire_roundTrips hrun).2.1⟩

end LossyStreams

end Plasmoid
