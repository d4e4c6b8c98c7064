import Plasmoid.PeerStreams

/-!
# Messages in order across streams

Within one stream the messages of a peer are handled in the order in which
they were sent.  Several streams are read by independent handlers: while the
bytes of one stream wait to be read, a reconnect or another link can carry
later messages past them.

`pending` is what can still be read in turn, in the order in which it was
sent.  As long as the handlers read in turn, what was processed and what is
pending make up a part of what was sent, in order.
-/

namespace Plasmoid

open Framing Machine

namespace PeerWriter

/-- A writer that holds frames, and whose stream in use carries whole ones. -/
structure Framed {α : Type} (r : Reader α UInt8) (p : PeerWriter) : Prop where
  queued : ∀ frame ∈ p.frames, ∃ msg, r.Delimits msg frame
  writing : ∀ c, p.writing = some c → ∃ msg, r.Delimits msg c.1
  open_whole : ∀ bytes, p.streams.current = some bytes → r.Whole bytes

variable {α : Type} (r : Reader α UInt8)

/-- The messages of a writer that are not handled, from its `i`th stream on. -/
def rest (p : PeerWriter) (i : Nat) : List α :=
  (p.streams.all.drop i).flatMap r.readAll ++
    (p.writing.toList.flatMap fun c => r.readAll c.1) ++
    p.frames.flatMap r.readAll

variable {r} {p p' : PeerWriter}

/-- The writer keeps to the frames, and holds no message that it did not
hold. -/
structure Keeps (r : Reader α UInt8) (p p' : PeerWriter) : Prop where
  framed : p'.Framed r
  rest : ∀ i, (p'.rest r i).Sublist (p.rest r i)

theorem keeps_take (hp : p.Framed r) (h : p.take = some p') : Keeps r p p' := by
  unfold take at h
  split at h
  · rename_i frame rest hwriting hframes
    cases h
    have hframe := hp.queued frame (hframes ▸ List.mem_cons_self)
    refine ⟨⟨?_, ?_, hp.open_whole⟩, fun i => ?_⟩
    · intro f hf
      exact hp.queued f (hframes ▸ List.mem_cons_of_mem _ hf)
    · rintro c hc
      cases hc
      exact hframe
    · simp only [PeerWriter.rest, hwriting, hframes, Option.toList_none,
        Option.toList_some, List.flatMap_nil, List.flatMap_cons, List.append_nil,
        List.append_assoc]
      exact .refl _
  · cases h

theorem keeps_openLink (hp : p.Framed r) {dialed : Bool}
    (h : p.openLink dialed = some p') : Keeps r p p' := by
  unfold openLink at h
  split at h
  · split at h
    · cases h
      refine ⟨⟨hp.queued, hp.writing, ?_⟩, fun i => ?_⟩
      · intro bytes hbytes
        cases hbytes
        exact .nil
      · -- The new stream carries nothing.
        have hdrop : (((p.streams.start []).all.drop i).flatMap r.readAll) =
            (p.streams.all.drop i).flatMap r.readAll := by
          rw [Succession.all_start, List.drop_append, List.flatMap_append]
          cases i - p.streams.all.length <;> simp
        simp only [PeerWriter.rest, hdrop]
        exact .refl _
    · cases h
      refine ⟨⟨hp.queued, ?_, hp.open_whole⟩, fun i => ?_⟩
      · intro c hc
        cases hc
      · simp only [PeerWriter.rest, Option.toList_none, List.flatMap_nil,
          List.append_nil]
        exact List.Sublist.append (List.sublist_append_left _ _) (.refl _)
  · cases h

/-- What the streams carry from the `i`th on, after more bytes were written to
the last one. -/
theorem flatMap_drop_write {streams : Succession (List UInt8)}
    {bytes : List UInt8} (hcurrent : streams.current = some bytes)
    (hwhole : r.Whole bytes) (more : List UInt8) (i : Nat) :
    (((streams.past ++ [bytes ++ more]).drop i).flatMap r.readAll).Sublist
      ((streams.all.drop i).flatMap r.readAll ++ r.readAll more) := by
  rw [Succession.all_of_current hcurrent, List.drop_append, List.drop_append]
  cases i - streams.past.length with
  | zero =>
    simp only [List.drop_zero, List.flatMap_append, List.flatMap_cons,
      List.flatMap_nil, List.append_nil, hwhole.readAll_append, List.append_assoc]
    exact .refl _
  | succ n =>
    simp only [List.drop_succ_cons, List.drop_nil, List.append_nil]
    exact List.sublist_append_left _ _

theorem keeps_write (hp : p.Framed r) (h : p.write = some p') :
    Keeps r p p' := by
  unfold write at h
  split at h
  · rename_i frame attempt bytes hwriting hcurrent
    cases h
    obtain ⟨msg, hframe⟩ := hp.writing _ hwriting
    have hwhole := hp.open_whole bytes hcurrent
    refine ⟨⟨hp.queued, ?_, ?_⟩, fun i => ?_⟩
    · intro c hc
      cases hc
    · intro b hb
      cases hb
      exact hwhole.append hframe
    · have hsub := flatMap_drop_write hcurrent hwhole frame i
      simp only [PeerWriter.rest, hwriting, Option.toList_none,
        Option.toList_some, List.flatMap_nil, List.flatMap_cons, List.append_nil]
      exact hsub.append (.refl _)
  · cases h

theorem keeps_breakLink (hp : p.Framed r) {k : Nat}
    (h : p.breakLink k = some p') : Keeps r p p' := by
  unfold breakLink at h
  split at h
  · rename_i frame attempt bytes hwriting hcurrent
    split at h
    · rename_i hk
      cases h
      obtain ⟨msg, hframe⟩ := hp.writing _ hwriting
      have hwhole := hp.open_whole bytes hcurrent
      refine ⟨⟨hp.queued, ?_, ?_⟩, fun i => ?_⟩
      · intro c hc
        simp only at hc
        split at hc
        · cases hc
        · cases hc
          exact ⟨msg, hframe⟩
      · intro b hb
        cases hb
      · -- A cut frame is no message.
        have hsub := flatMap_drop_write hcurrent hwhole (frame.take k) i
        rw [hframe.readAll_take hk, List.append_nil] at hsub
        simp only [PeerWriter.rest, Succession.all_retire]
        refine List.Sublist.append (List.Sublist.append hsub ?_) (.refl _)
        rw [hwriting]
        split
        · exact List.nil_sublist _
        · exact .refl _
    · cases h
  · cases h

end PeerWriter

/-! ## What is pending -/

namespace PeerStreams

open PeerWriter

variable {α : Type} (r : Reader α UInt8)

/-- What the writers hold from a stream on, in the order in which it was
sent. -/
def pendingFrom (writers : List PeerWriter) (k : Nat × Nat) : List α :=
  match writers.drop k.1 with
  | [] => []
  | p :: later => p.rest r k.2 ++ later.flatMap fun p => p.rest r 0

variable {r}

theorem rest_sublist (p : PeerWriter) {i j : Nat} (h : i ≤ j) :
    (p.rest r j).Sublist (p.rest r i) := by
  have hdrop : ((p.streams.all.drop j).flatMap r.readAll).Sublist
      ((p.streams.all.drop i).flatMap r.readAll) := by
    exact (List.drop_sublist_drop_left _ h).flatMap r.readAll
  exact (hdrop.append (.refl _)).append (.refl _)

/-- Later streams hold a part of it. -/
theorem pendingFrom_sublist (writers : List PeerWriter) {k k' : Nat × Nat}
    (h : k.1 < k'.1 ∨ k.1 = k'.1 ∧ k.2 ≤ k'.2) :
    (pendingFrom r writers k').Sublist (pendingFrom r writers k) := by
  unfold pendingFrom
  rcases h with h | ⟨h₁, h₂⟩
  · have hdrop : writers.drop k'.1 =
        (writers.drop k.1).drop (k'.1 - k.1 - 1 + 1) := by
      rw [List.drop_drop]
      congr 1
      omega
    rw [hdrop]
    cases writers.drop k.1 with
    | nil => exact .refl _
    | cons p later =>
      rw [List.drop_succ_cons]
      refine List.Sublist.trans ?_ (List.sublist_append_right _ _)
      have hlater := (List.drop_sublist (k'.1 - k.1 - 1) later).flatMap
        fun p => p.rest r 0
      cases hrest : later.drop (k'.1 - k.1 - 1) with
      | nil => exact List.nil_sublist _
      | cons p' later' =>
        rw [hrest, List.flatMap_cons] at hlater
        exact ((rest_sublist p' (Nat.zero_le _)).append (.refl _)).trans hlater
  · rw [← h₁]
    cases writers.drop k.1 with
    | nil => exact .refl _
    | cons p later => exact (rest_sublist p h₂).append (.refl _)

/-- Each writer holds a part of what its counterpart holds. -/
def Holds (r : Reader α UInt8) (p' p : PeerWriter) : Prop :=
  ∀ i, (p'.rest r i).Sublist (p.rest r i)

theorem holds_set {p p' : PeerWriter} (h : Holds r p' p) :
    ∀ {writers : List PeerWriter} {w : Nat}, writers[w]? = some p →
      List.Forall₂ (Holds r) (writers.set w p') writers := by
  have hrefl : ∀ writers : List PeerWriter,
      List.Forall₂ (Holds r) writers writers :=
    fun writers => List.forall₂_same.2 fun p _ i => .refl _
  intro writers
  induction writers with
  | nil =>
    intro w hw
    cases hw
  | cons q writers ih =>
    intro w hw
    cases w with
    | zero =>
      cases hw
      exact .cons h (hrefl writers)
    | succ w => exact .cons (fun i => .refl _) (ih hw)

theorem pendingFrom_holds {writers' writers : List PeerWriter}
    (h : List.Forall₂ (Holds r) writers' writers) (k : Nat × Nat) :
    (pendingFrom r writers' k).Sublist (pendingFrom r writers k) := by
  have hall : ∀ {writers' writers : List PeerWriter},
      List.Forall₂ (Holds r) writers' writers →
        (writers'.flatMap fun p => p.rest r 0).Sublist
          (writers.flatMap fun p => p.rest r 0) := by
    intro writers' writers h
    induction h with
    | nil => exact .refl _
    | cons hp _ ih =>
      rw [List.flatMap_cons, List.flatMap_cons]
      exact (hp 0).append ih
  have hdrop := List.forall₂_drop k.1 h
  unfold pendingFrom
  generalize writers'.drop k.1 = ws' at hdrop ⊢
  generalize writers.drop k.1 = ws at hdrop ⊢
  cases hdrop with
  | nil => exact .refl _
  | cons hp hlater => exact (hp k.2).append (hall hlater)

/-- The newest writer comes last. -/
theorem pendingFrom_append (writers : List PeerWriter) (p : PeerWriter)
    (k : Nat × Nat) :
    pendingFrom r (writers ++ [p]) k =
      if k.1 < writers.length then pendingFrom r writers k ++ p.rest r 0
      else if k.1 = writers.length then p.rest r k.2 else [] := by
  unfold pendingFrom
  by_cases hk : k.1 < writers.length
  · have hzero : k.1 - writers.length = 0 := by omega
    rw [if_pos hk, List.drop_append, hzero, List.drop_zero]
    cases hdrop : writers.drop k.1 with
    | nil =>
      have hlength := congrArg List.length hdrop
      rw [List.length_drop, List.length_nil] at hlength
      omega
    | cons q later =>
      simp only [List.cons_append, List.flatMap_append, List.flatMap_cons,
        List.flatMap_nil, List.append_nil, List.append_assoc]
  · have hnil : writers.drop k.1 = [] :=
      List.drop_of_length_le (Nat.le_of_not_lt hk)
    rw [if_neg hk, List.drop_append, hnil, List.nil_append]
    by_cases heq : k.1 = writers.length
    · rw [if_pos heq, heq, Nat.sub_self, List.drop_zero]
      exact List.append_nil _
    · have hlast : [p].drop (k.1 - writers.length) = [] := by
        refine List.drop_of_length_le ?_
        rw [List.length_singleton]
        omega
      rw [if_neg heq, hlast]

variable (r) in
/-- What can still be read in turn. -/
def pending (s : PeerStreams α) : List α :=
  pendingFrom r s.links.all s.reached

/-! ## The invariant -/

variable (r) in
/-- The writers hold frames, and what was processed and what is pending were
sent in this order. -/
structure StreamsInv (s : PeerStreams α) : Prop where
  framed : ∀ p ∈ s.links.all, p.Framed r
  order : (s.processed ++ s.pending r).Sublist s.sent

theorem streamsInv_start : StreamsInv r start where
  framed _ hp := absurd hp List.not_mem_nil
  order := List.nil_sublist _

theorem rest_push {p : PeerWriter} {frame : List UInt8} {msg : α}
    (hframe : r.Delimits msg frame) (i : Nat) :
    (p.push frame).rest r i = p.rest r i ++ [msg] := by
  simp only [PeerWriter.rest, PeerWriter.push, List.flatMap_append,
    List.flatMap_cons, List.flatMap_nil, List.append_nil, List.append_assoc,
    hframe.readAll_eq]

theorem framed_push {p : PeerWriter} (hp : p.Framed r) {frame : List UInt8}
    {msg : α} (hframe : r.Delimits msg frame) : (p.push frame).Framed r where
  queued f hf := by
    rcases List.mem_append.1 hf with hf | hf
    · exact hp.queued f hf
    · rw [List.mem_singleton.1 hf]
      exact ⟨msg, hframe⟩
  writing := hp.writing
  open_whole := hp.open_whole

theorem framed_new : PeerWriter.new.Framed r where
  queued _ hf := absurd hf List.not_mem_nil
  writing _ hc := nomatch hc
  open_whole _ hb := nomatch hb

theorem framed_enqueue {links : Succession PeerWriter}
    (hlinks : ∀ p ∈ links.all, p.Framed r) {frame : List UInt8} {msg : α}
    (hframe : r.Delimits msg frame) :
    ∀ p ∈ (enqueue links frame).all, p.Framed r := by
  intro p hp
  unfold enqueue at hp
  split at hp
  · rename_i q hq
    rcases List.mem_append.1 hp with hp | hp
    · exact hlinks p (List.mem_append_left _ hp)
    · rw [List.mem_singleton.1 hp]
      refine framed_push (hlinks q ?_) hframe
      rw [Succession.all_of_current hq]
      exact List.mem_append_right _ List.mem_cons_self
  · rcases List.mem_append.1 hp with hp | hp
    · exact hlinks p hp
    · rw [List.mem_singleton.1 hp]
      exact framed_push framed_new hframe

/-- A message that is sent comes last. -/
theorem pendingFrom_enqueue {links : Succession PeerWriter}
    {frame : List UInt8} {msg : α} (hframe : r.Delimits msg frame)
    (k : Nat × Nat) :
    (pendingFrom r (enqueue links frame).all k).Sublist
      (pendingFrom r links.all k ++ [msg]) := by
  unfold enqueue
  split
  · rename_i q hq
    have hall : Succession.all { links with current := some (q.push frame) } =
        links.past ++ [q.push frame] := rfl
    rw [hall, Succession.all_of_current hq, pendingFrom_append,
      pendingFrom_append]
    split
    · rw [rest_push hframe, List.append_assoc]
    · split
      · rw [rest_push hframe]
      · exact List.nil_sublist _
  · have hone : ∀ i, (PeerWriter.new.push frame).rest r i = [msg] := by
      intro i
      rw [rest_push hframe]
      simp [PeerWriter.rest, PeerWriter.new, Succession.empty, Succession.all]
    rw [Succession.all_start, pendingFrom_append]
    split
    · rw [hone]
    · split
      · rw [hone]
        exact List.sublist_append_right _ _
      · exact List.nil_sublist _

theorem framed_set {links : Succession PeerWriter}
    (hlinks : ∀ p ∈ links.all, p.Framed r) {w : Nat} {p p' : PeerWriter}
    (hw : links.all[w]? = some p) (hp' : p'.Framed r) :
    ∀ q ∈ (links.set w p').all, q.Framed r := by
  intro q hq
  rw [Succession.all_set hw] at hq
  rcases List.mem_or_eq_of_mem_set hq with hq | rfl
  · exact hlinks q hq
  · exact hp'

variable {s t : PeerStreams α}

theorem StreamsInv.turn (hs : StreamsInv r s) {w : Nat}
    {f : PeerWriter → Option PeerWriter}
    (hf : ∀ {p p'}, p.Framed r → f p = some p' → Keeps r p p')
    (h : s.turn w f = some t) : StreamsInv r t := by
  obtain ⟨p, hp, h⟩ := Option.bind_eq_some_iff.1 h
  obtain ⟨p', hp', rfl⟩ := Option.map_eq_some_iff.1 h
  have hkeeps := hf (hs.framed p (List.mem_of_getElem? hp)) hp'
  refine ⟨framed_set hs.framed hp hkeeps.framed, ?_⟩
  refine List.Sublist.trans ?_ hs.order
  refine (List.Sublist.refl s.processed).append ?_
  show (pendingFrom r (s.links.set w p').all s.reached).Sublist _
  rw [Succession.all_set hp]
  exact pendingFrom_holds (holds_set hkeeps.rest hp) s.reached

variable (codec : WireCodec α)

theorem StreamsInv.send (hcodec : codec.RoundTrips)
    (hs : StreamsInv (frameReader codec) s) (msg : α) :
    StreamsInv (frameReader codec) (s.send codec msg) := by
  unfold PeerStreams.send
  split
  · exact hs
  · rename_i frame hencode
    have hframe := delimits_encodeFrame codec hcodec hencode
    refine ⟨framed_enqueue hs.framed hframe, ?_⟩
    have hpending : (pendingFrom (frameReader codec)
        (enqueue s.links frame).all s.reached).Sublist
          (s.pending (frameReader codec) ++ [msg]) :=
      pendingFrom_enqueue hframe s.reached
    refine List.Sublist.trans ((List.Sublist.refl s.processed).append hpending) ?_
    rw [← List.append_assoc]
    exact hs.order.append (.refl [msg])

private theorem drop_of_get {β : Type} {l : List β} {i : Nat} {a : β}
    (h : l[i]? = some a) : l.drop i = a :: l.drop (i + 1) := by
  obtain ⟨hi, rfl⟩ := List.getElem?_eq_some_iff.1 h
  exact List.drop_eq_getElem_cons hi

private theorem drop_set_of_get {β : Type} {l : List β} {i : Nat} {a : β}
    (h : l[i]? = some a) (b : β) :
    (l.set i b).drop i = b :: l.drop (i + 1) := by
  rw [List.drop_set, if_neg (Nat.lt_irrefl i), Nat.sub_self, drop_of_get h]
  rfl

/-- A message that is read is the first that its stream still holds. -/
theorem pendingFrom_handle {links : Succession PeerWriter} {w i : Nat}
    {p : PeerWriter} {bytes left : List UInt8} {msg : α}
    (hp : links.all[w]? = some p) (hbytes : p.streams.all[i]? = some bytes)
    (hread : r.read bytes = some (msg, left)) :
    pendingFrom r links.all (w, i) = msg :: pendingFrom r
      (links.set w { p with streams := p.streams.set i left }).all (w, i) := by
  have hrest : p.rest r i = msg ::
      PeerWriter.rest r { p with streams := p.streams.set i left } i := by
    simp only [PeerWriter.rest, Succession.all_set hbytes, drop_of_get hbytes,
      drop_set_of_get hbytes, List.flatMap_cons, Reader.readAll_of_read hread,
      List.cons_append]
  simp only [pendingFrom, Succession.all_set hp, drop_of_get hp,
    drop_set_of_get hp, hrest, List.cons_append]

theorem framed_read {p : PeerWriter} (hp : p.Framed r) {i : Nat}
    {bytes left : List UInt8} {msg : α}
    (hbytes : p.streams.all[i]? = some bytes)
    (hread : r.read bytes = some (msg, left)) :
    PeerWriter.Framed r { p with streams := p.streams.set i left } where
  queued := hp.queued
  writing := hp.writing
  open_whole b hb := by
    rcases Succession.current_set hbytes hb with hb | ⟨hcurrent, rfl⟩
    · exact hp.open_whole b hb
    · exact (hp.open_whole bytes hcurrent).of_read hread

/-- What is read in turn comes after what was processed. -/
theorem StreamsInv.handle (hs : StreamsInv (frameReader codec) s) {w i : Nat}
    (hturn : s.inTurn (.handle w i) = true)
    (h : s.handle codec w i = some t) :
    StreamsInv (frameReader codec) t := by
  obtain ⟨p, hp, h⟩ := Option.bind_eq_some_iff.1 h
  obtain ⟨bytes, hbytes, h⟩ := Option.bind_eq_some_iff.1 h
  obtain ⟨⟨msg, left⟩, hread, rfl⟩ := Option.map_eq_some_iff.1 h
  have hread : (frameReader codec).read bytes = some (msg, left) := hread
  have hframed := framed_read (hs.framed p (List.mem_of_getElem? hp)) hbytes hread
  refine ⟨framed_set hs.framed hp hframed, ?_⟩
  simp only [inTurn, Bool.or_eq_true, Bool.and_eq_true,
    decide_eq_true_eq] at hturn
  have hlater : (pendingFrom (frameReader codec) s.links.all (w, i)).Sublist
      (s.pending (frameReader codec)) :=
    pendingFrom_sublist s.links.all hturn
  rw [pendingFrom_handle hp hbytes hread] at hlater
  refine List.Sublist.trans ?_ hs.order
  rw [List.append_assoc]
  exact (List.Sublist.refl s.processed).append hlater

theorem StreamsInv.step (hcodec : codec.RoundTrips)
    (hs : StreamsInv (frameReader codec) s) {a : StreamAction α}
    (hturn : s.inTurn a = true) (h : s.step codec a = some t) :
    StreamsInv (frameReader codec) t := by
  cases a with
  | send msg =>
    cases h
    exact hs.send codec hcodec msg
  | disconnect =>
    cases h
    refine ⟨fun p hp => hs.framed p ?_, ?_⟩
    · rwa [Succession.all_retire] at hp
    · have horder := hs.order
      simp only [pending, Succession.all_retire] at horder ⊢
      exact horder
  | take w => exact hs.turn keeps_take h
  | openLink w dialed => exact hs.turn (fun hp hf => keeps_openLink hp hf) h
  | write w => exact hs.turn keeps_write h
  | breakLink w k => exact hs.turn (fun hp hf => keeps_breakLink hp hf) h
  | handle w i => exact hs.handle codec hturn h

theorem streamsInv_run (hcodec : codec.RoundTrips)
    (h : Run (step codec) (fun s a => s.inTurn a = true) start s) :
    StreamsInv (frameReader codec) s :=
  h.invariant (fun hs hturn hstep => hs.step codec hcodec hturn hstep)
    streamsInv_start

theorem StreamsInv.in_order (hs : StreamsInv r s) :
    s.processed.Sublist s.sent :=
  (List.sublist_append_left _ _).trans hs.order

/-- A codec of messages of one byte. -/
def byteWire : WireCodec UInt8 where
  serialize b := .ok [b]
  deserialize
    | [b] => .ok b
    | _ => .error "not one byte"

theorem byteWire_roundTrips : byteWire.RoundTrips := by
  intro msg body h
  cases h
  rfl

/-- A message is sent, the link is dropped, and another message is sent.  Both
writers write what they have. -/
def sendAcrossLinks : List (StreamAction UInt8) :=
  [.send 1, .disconnect, .send 2, .take 0, .openLink 0 true, .write 0,
    .take 1, .openLink 1 true, .write 1]

end PeerStreams

end Plasmoid
