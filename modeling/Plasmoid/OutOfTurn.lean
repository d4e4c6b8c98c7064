import Plasmoid.StreamOrder

/-!
# Reading out of turn

Messages are processed in order exactly when the handlers read in turn.  Once a
handler goes back to an older stream, what it reads there was sent before a
message that has already been processed, so from then on the order is broken,
if no two messages are the same.

`Behind` says that a message is still held before the newest stream that was
read from.  In every run such a message was sent before a processed one.
-/

namespace Plasmoid

open Framing Machine

/-- No list without duplicates has two elements in both orders. -/
theorem not_sublist_both {α : Type} {l : List α} (hl : l.Nodup) {a b : α}
    (hab : [a, b].Sublist l) : ¬ [b, a].Sublist l := by
  induction l with
  | nil => cases hab
  | cons c l ih =>
    obtain ⟨hc, hl⟩ := List.nodup_cons.1 hl
    intro hba
    cases hab with
    | cons _ hab =>
      cases hba with
      | cons _ hba => exact ih hl hab hba
      | cons_cons _ hba => exact hc (hab.subset (by simp))
    | cons_cons _ hb =>
      cases hba with
      | cons _ hba => exact hc (hba.subset (by simp))
      | cons_cons _ hba => exact hc (hb.subset (by simp))

namespace PeerWriter

variable {α : Type} {r : Reader α UInt8} {p p' : PeerWriter}

/-- A turn of a writer touches the last of its streams at most, and may open
another one. -/
structure Older (p p' : PeerWriter) : Prop where
  length : p.streams.all.length ≤ p'.streams.all.length
  same : ∀ i, i + 1 < p'.streams.all.length →
    p'.streams.all[i]? = p.streams.all[i]?

theorem older_of_streams (h : p'.streams.all = p.streams.all) : Older p p' :=
  ⟨by rw [h], fun i _ => by rw [h]⟩

/-- Rewriting the last stream. -/
theorem older_of_last {bytes bytes' : List UInt8}
    (hcurrent : p.streams.current = some bytes)
    (h : p'.streams.all = p.streams.past ++ [bytes']) : Older p p' := by
  have hall := Succession.all_of_current hcurrent
  constructor
  · rw [h, hall, List.length_append, List.length_append, List.length_singleton,
      List.length_singleton]
  · intro i hi
    rw [h, List.length_append, List.length_singleton] at hi
    rw [h, hall, List.getElem?_append_left (by omega),
      List.getElem?_append_left (by omega)]

theorem older_take (h : p.take = some p') : Older p p' := by
  unfold take at h
  split at h
  · cases h
    exact older_of_streams rfl
  · cases h

theorem older_openLink {dialed : Bool} (h : p.openLink dialed = some p') :
    Older p p' := by
  unfold openLink at h
  split at h
  · split at h
    · cases h
      constructor
      · rw [Succession.all_start, List.length_append]
        exact Nat.le_add_right _ _
      · intro i hi
        rw [Succession.all_start, List.length_append,
          List.length_singleton] at hi
        rw [Succession.all_start, List.getElem?_append_left (by omega)]
    · cases h
      exact older_of_streams rfl
  · cases h

theorem older_write (h : p.write = some p') : Older p p' := by
  unfold write at h
  split at h
  · rename_i hcurrent
    cases h
    exact older_of_last hcurrent rfl
  · cases h

theorem older_breakLink {k : Nat} (h : p.breakLink k = some p') :
    Older p p' := by
  unfold breakLink at h
  split at h
  · rename_i hcurrent
    split at h
    · cases h
      exact older_of_last hcurrent (Succession.all_retire _)
    · cases h
  · cases h

end PeerWriter

namespace PeerStreams

open PeerWriter

variable {α : Type} {r : Reader α UInt8}

/-- The message is held before a stream. -/
def Behind (r : Reader α UInt8) (writers : List PeerWriter) (k : Nat × Nat)
    (x : α) : Prop :=
  (∃ w p, w < k.1 ∧ writers[w]? = some p ∧ x ∈ p.rest r 0) ∨
    ∃ p i bytes, writers[k.1]? = some p ∧ i < k.2 ∧
      p.streams.all[i]? = some bytes ∧ x ∈ r.readAll bytes

/-- The stream is there, or none has been read from. -/
def Reached (writers : List PeerWriter) (k : Nat × Nat) : Prop :=
  k = (0, 0) ∨ ∃ p, writers[k.1]? = some p ∧ k.2 < p.streams.all.length

theorem not_behind_zero {writers : List PeerWriter} {x : α} :
    ¬ Behind r writers (0, 0) x := by
  rintro (⟨w, p, hw, -⟩ | ⟨p, i, bytes, -, hi, -⟩)
  · exact absurd hw (Nat.not_lt_zero w)
  · exact absurd hi (Nat.not_lt_zero i)

/-- Everything that is held, in the order in which it was sent. -/
theorem pendingFrom_zero (writers : List PeerWriter) :
    pendingFrom r writers (0, 0) = writers.flatMap fun p => p.rest r 0 := by
  cases writers <;> rfl

/-- What is behind a message that is about to be read was sent before it. -/
theorem pair_of_behind {writers : List PeerWriter} {w i : Nat}
    {p : PeerWriter} {bytes left : List UInt8} {x msg : α}
    (hp : writers[w]? = some p) (hbytes : p.streams.all[i]? = some bytes)
    (hread : r.read bytes = some (msg, left))
    (hx : Behind r writers (w, i) x) :
    [x, msg].Sublist (pendingFrom r writers (0, 0)) := by
  obtain ⟨hw, rfl⟩ := List.getElem?_eq_some_iff.1 hp
  obtain ⟨hi, rfl⟩ := List.getElem?_eq_some_iff.1 hbytes
  -- The message is in what the writer holds from its stream on.
  have hmsg : msg ∈ writers[w].rest r i := by
    simp only [PeerWriter.rest, List.drop_eq_getElem_cons hi, List.flatMap_cons,
      Reader.readAll_of_read hread]
    simp
  have hsplit : writers[w].rest r 0 =
      (writers[w].streams.all.take i).flatMap r.readAll ++ writers[w].rest r i := by
    simp only [PeerWriter.rest, List.drop_zero]
    conv_lhs => rw [← List.take_append_drop i writers[w].streams.all]
    simp only [List.flatMap_append, List.append_assoc]
  have hall : pendingFrom r writers (0, 0) =
      (writers.take w).flatMap (fun p => p.rest r 0) ++
        (writers[w].rest r 0 ++
          (writers.drop (w + 1)).flatMap fun p => p.rest r 0) := by
    rw [pendingFrom_zero]
    conv_lhs => rw [← List.take_append_drop w writers,
      List.drop_eq_getElem_cons hw]
    rw [List.flatMap_append, List.flatMap_cons]
  rw [hall]
  rcases hx with ⟨w', q, hw', hq, hx⟩ | ⟨q, i', b, hq, hi', hb, hx⟩
  · have hbefore : x ∈ (writers.take w).flatMap fun p => p.rest r 0 := by
      refine List.mem_flatMap.2 ⟨q, ?_, hx⟩
      refine List.mem_of_getElem? (i := w') ?_
      rw [List.getElem?_take_of_lt hw']
      exact hq
    have hafter : msg ∈ writers[w].rest r 0 ++
        (writers.drop (w + 1)).flatMap fun p => p.rest r 0 := by
      rw [hsplit]
      simp [hmsg]
    exact (List.singleton_sublist.2 hbefore).append
      (List.singleton_sublist.2 hafter)
  · rw [hp, Option.some_inj] at hq
    subst hq
    have hbefore : x ∈ (writers[w].streams.all.take i).flatMap r.readAll := by
      refine List.mem_flatMap.2 ⟨b, ?_, hx⟩
      refine List.mem_of_getElem? (i := i') ?_
      rw [List.getElem?_take_of_lt hi']
      exact hb
    have hpair : [x, msg].Sublist (writers[w].rest r 0) := by
      rw [hsplit]
      exact (List.singleton_sublist.2 hbefore).append
        (List.singleton_sublist.2 hmsg)
    exact (hpair.trans (List.sublist_append_left _ _)).trans
      (List.sublist_append_right _ _)

/-- A turn of one writer puts nothing behind a stream that is there. -/
theorem behind_of_set {writers : List PeerWriter} {w : Nat} {p p' : PeerWriter}
    (hp : writers[w]? = some p) {k : Nat × Nat} (hk : Reached writers k)
    (hrest : w < k.1 → (p'.rest r 0).Sublist (p.rest r 0))
    (holder : Older p p') {x : α}
    (hx : Behind r (writers.set w p') k x) : Behind r writers k x := by
  have hw := (List.getElem?_eq_some_iff.1 hp).1
  rcases hx with ⟨v, q, hv, hq, hx⟩ | ⟨q, i, b, hq, hi, hb, hx⟩
  · rw [List.getElem?_set] at hq
    split at hq
    · rename_i heq
      subst heq
      cases hq
      exact Or.inl ⟨w, p, hv, hp, (hrest hv).subset hx⟩
    · exact Or.inl ⟨v, q, hv, hq, hx⟩
  · rcases hk with rfl | ⟨p₀, hp₀, hlen⟩
    · exact absurd hi (Nat.not_lt_zero i)
    · rw [List.getElem?_set] at hq
      split at hq
      · rename_i heq
        rw [heq] at hp
        rw [hp, Option.some_inj] at hp₀
        subst hp₀
        cases hq
        have hsame := holder.same i (by have := holder.length; omega)
        rw [hsame] at hb
        exact Or.inr ⟨p, i, b, hp, hi, hb, hx⟩
      · exact Or.inr ⟨q, i, b, hq, hi, hb, hx⟩

theorem reached_set {writers : List PeerWriter} {w : Nat} {p p' : PeerWriter}
    (hp : writers[w]? = some p)
    (hlength : p.streams.all.length ≤ p'.streams.all.length) {k : Nat × Nat}
    (hk : Reached writers k) : Reached (writers.set w p') k := by
  have hw := (List.getElem?_eq_some_iff.1 hp).1
  rcases hk with rfl | ⟨q, hq, hlen⟩
  · exact Or.inl rfl
  · by_cases heq : w = k.1
    · refine Or.inr ⟨p', ?_, ?_⟩
      · rw [List.getElem?_set, if_pos heq, if_pos hw]
      · rw [heq] at hp
        rw [hp, Option.some_inj] at hq
        subst hq
        omega
    · refine Or.inr ⟨q, ?_, hlen⟩
      rw [List.getElem?_set, if_neg heq]
      exact hq

/-- Another writer changes nothing before a stream that is there. -/
theorem behind_append {writers : List PeerWriter} (p : PeerWriter)
    {k : Nat × Nat} (hk : Reached writers k) {x : α}
    (hx : Behind r (writers ++ [p]) k x) : Behind r writers k x := by
  rcases hk with rfl | ⟨p₀, hp₀, hlen⟩
  · exact absurd hx not_behind_zero
  · have hlt := (List.getElem?_eq_some_iff.1 hp₀).1
    rcases hx with ⟨w, q, hw, hq, hx⟩ | ⟨q, i, b, hq, hi, hb, hx⟩
    · rw [List.getElem?_append_left (hw.trans hlt)] at hq
      exact Or.inl ⟨w, q, hw, hq, hx⟩
    · rw [List.getElem?_append_left hlt] at hq
      exact Or.inr ⟨q, i, b, hq, hi, hb, hx⟩

theorem reached_append {writers : List PeerWriter} (p : PeerWriter)
    {k : Nat × Nat} (hk : Reached writers k) : Reached (writers ++ [p]) k := by
  rcases hk with rfl | ⟨q, hq, hlen⟩
  · exact Or.inl rfl
  · refine Or.inr ⟨q, ?_, hlen⟩
    rw [List.getElem?_append_left (List.getElem?_eq_some_iff.1 hq).1]
    exact hq

/-! ## The invariant of any run -/

variable (r) in
/-- What is held was sent in this order, and whatever is behind the newest
stream that was read from was sent before a processed message. -/
structure HeldInv (s : PeerStreams α) : Prop where
  framed : ∀ p ∈ s.links.all, p.Framed r
  held : (pendingFrom r s.links.all (0, 0)).Sublist s.sent
  reached : Reached s.links.all s.reached
  behind : ∀ x, Behind r s.links.all s.reached x →
    ∃ last ∈ s.processed, [x, last].Sublist s.sent

theorem heldInv_start : HeldInv r start where
  framed _ hp := absurd hp List.not_mem_nil
  held := List.nil_sublist _
  reached := Or.inl rfl
  behind _ hx := absurd hx not_behind_zero

variable {s t : PeerStreams α}

theorem HeldInv.turn (hs : HeldInv r s) {w : Nat}
    {f : PeerWriter → Option PeerWriter}
    (hf : ∀ {p p'}, p.Framed r → f p = some p' → Keeps r p p')
    (holder : ∀ {p p'}, f p = some p' → Older p p')
    (h : s.turn w f = some t) : HeldInv r t := by
  obtain ⟨p, hp, h⟩ := Option.bind_eq_some_iff.1 h
  obtain ⟨p', hp', rfl⟩ := Option.map_eq_some_iff.1 h
  have hkeeps := hf (hs.framed p (List.mem_of_getElem? hp)) hp'
  refine ⟨framed_set hs.framed hp hkeeps.framed, ?_, ?_, ?_⟩
  · simp only [Succession.all_set hp]
    exact (pendingFrom_holds (holds_set hkeeps.rest hp) (0, 0)).trans hs.held
  · simp only [Succession.all_set hp]
    exact reached_set hp (holder hp').length hs.reached
  · intro x hx
    simp only [Succession.all_set hp] at hx
    exact hs.behind x (behind_of_set hp hs.reached
      (fun _ => hkeeps.rest 0) (holder hp') hx)

/-- A link that is in use is the last one. -/
theorem all_enqueue {links : Succession PeerWriter} {q : PeerWriter}
    (hq : links.current = some q) (frame : List UInt8) :
    links.all[links.past.length]? = some q ∧
      (enqueue links frame).all =
        links.all.set links.past.length (q.push frame) := by
  have hlast : links.all[links.past.length]? = some q := by
    rw [Succession.all_of_current hq, List.getElem?_append_right (Nat.le_refl _),
      Nat.sub_self]
    rfl
  refine ⟨hlast, ?_⟩
  rw [← Succession.all_set hlast]
  unfold enqueue Succession.set
  rw [hq, if_neg (Nat.lt_irrefl _)]

theorem older_push (p : PeerWriter) (frame : List UInt8) :
    Older p (p.push frame) :=
  older_of_streams rfl

theorem reached_enqueue {links : Succession PeerWriter} (frame : List UInt8)
    {k : Nat × Nat} (hk : Reached links.all k) :
    Reached (enqueue links frame).all k := by
  cases hq : links.current with
  | some q =>
    obtain ⟨hlast, hall⟩ := all_enqueue hq frame
    rw [hall]
    exact reached_set hlast (older_push q frame).length hk
  | none =>
    unfold enqueue
    rw [hq]
    exact reached_append _ hk

theorem behind_enqueue {links : Succession PeerWriter} {frame : List UInt8}
    {k : Nat × Nat} (hk : Reached links.all k) {x : α}
    (hx : Behind r (enqueue links frame).all k x) :
    Behind r links.all k x := by
  cases hq : links.current with
  | some q =>
    obtain ⟨hlast, hall⟩ := all_enqueue hq frame
    rw [hall] at hx
    refine behind_of_set hlast hk (fun hlt => ?_) (older_push q frame) hx
    -- The last writer is not before the one that was reached.
    rcases hk with rfl | ⟨p, hp, -⟩
    · exact absurd hlt (Nat.not_lt_zero _)
    · have hlength := (List.getElem?_eq_some_iff.1 hp).1
      rw [Succession.all_of_current hq, List.length_append,
        List.length_singleton] at hlength
      omega
  | none =>
    unfold enqueue at hx
    rw [hq] at hx
    exact behind_append _ hk hx

variable (codec : WireCodec α)

theorem HeldInv.send (hcodec : codec.RoundTrips)
    (hs : HeldInv (frameReader codec) s) (msg : α) :
    HeldInv (frameReader codec) (s.send codec msg) := by
  unfold PeerStreams.send
  split
  · exact hs
  · rename_i frame hencode
    have hframe := delimits_encodeFrame codec hcodec hencode
    refine ⟨framed_enqueue hs.framed hframe, ?_, ?_, ?_⟩
    · exact (pendingFrom_enqueue hframe (0, 0)).trans (hs.held.append (.refl _))
    · exact reached_enqueue frame hs.reached
    · intro x hx
      obtain ⟨last, hlast, hpair⟩ := hs.behind x (behind_enqueue hs.reached hx)
      exact ⟨last, hlast, hpair.trans (List.sublist_append_left _ _)⟩

/-- Reading a message leaves less. -/
theorem holds_read {p : PeerWriter} {i : Nat} {bytes left : List UInt8} {msg : α}
    (hbytes : p.streams.all[i]? = some bytes)
    (hread : r.read bytes = some (msg, left)) :
    Holds r { p with streams := p.streams.set i left } p := by
  have hset : ∀ {streams : List (List UInt8)} {n : Nat},
      streams[n]? = some bytes →
        ((streams.set n left).flatMap r.readAll).Sublist
          (streams.flatMap r.readAll) := by
    intro streams
    induction streams with
    | nil =>
      intro n hn
      cases hn
    | cons b streams ih =>
      intro n hn
      cases n with
      | zero =>
        cases hn
        rw [List.set_cons_zero, List.flatMap_cons, List.flatMap_cons,
          Reader.readAll_of_read hread]
        exact (List.sublist_cons_self _ _).append (.refl _)
      | succ n =>
        rw [List.set_cons_succ, List.flatMap_cons, List.flatMap_cons]
        exact (List.Sublist.refl _).append (ih hn)
  intro j
  simp only [PeerWriter.rest, Succession.all_set hbytes]
  refine ((?_ : List.Sublist _ _).append (.refl _)).append (.refl _)
  rw [List.drop_set]
  split
  · exact .refl _
  · rename_i hij
    refine hset ?_
    rw [List.getElem?_drop]
    have hindex : j + (i - j) = i := by omega
    rw [hindex]
    exact hbytes

theorem HeldInv.handle (hs : HeldInv (frameReader codec) s) {w i : Nat}
    (h : s.handle codec w i = some t) : HeldInv (frameReader codec) t := by
  obtain ⟨p, hp, h⟩ := Option.bind_eq_some_iff.1 h
  obtain ⟨bytes, hbytes, h⟩ := Option.bind_eq_some_iff.1 h
  obtain ⟨⟨msg, left⟩, hread, rfl⟩ := Option.map_eq_some_iff.1 h
  have hread : (frameReader codec).read bytes = some (msg, left) := hread
  have hw := (List.getElem?_eq_some_iff.1 hp).1
  have hi := (List.getElem?_eq_some_iff.1 hbytes).1
  refine ⟨framed_set hs.framed hp (framed_read
    (hs.framed p (List.mem_of_getElem? hp)) hbytes hread), ?_, ?_, ?_⟩
  · simp only [Succession.all_set hp]
    exact (pendingFrom_holds (holds_set (holds_read hbytes hread) hp)
      (0, 0)).trans hs.held
  · refine Or.inr ⟨{ p with streams := p.streams.set i left }, ?_, ?_⟩
    · simp only [Succession.all_set hp]
      exact List.getElem?_set_self hw
    · simp only [Succession.all_set hbytes, List.length_set]
      exact hi
  · intro x hx
    refine ⟨msg, List.mem_append_right _ List.mem_cons_self, ?_⟩
    refine (pair_of_behind hp hbytes hread ?_).trans hs.held
    -- Reading a stream changes nothing before it.
    simp only [Succession.all_set hp] at hx
    rcases hx with ⟨v, q, hv, hq, hx⟩ | ⟨q, j, b, hq, hj, hb, hx⟩
    · rw [List.getElem?_set_ne (by omega)] at hq
      exact Or.inl ⟨v, q, hv, hq, hx⟩
    · rw [List.getElem?_set_self hw] at hq
      cases hq
      simp only [Succession.all_set hbytes] at hb
      rw [List.getElem?_set_ne (by omega)] at hb
      exact Or.inr ⟨p, j, b, hp, hj, hb, hx⟩

theorem HeldInv.step (hcodec : codec.RoundTrips)
    (hs : HeldInv (frameReader codec) s) {a : StreamAction α}
    (h : s.step codec a = some t) : HeldInv (frameReader codec) t := by
  cases a with
  | send msg =>
    cases h
    exact hs.send codec hcodec msg
  | disconnect =>
    cases h
    obtain ⟨hframed, hheld, hreached, hbehind⟩ := hs
    constructor <;> simp only [Succession.all_retire] <;> assumption
  | take w => exact hs.turn keeps_take older_take h
  | openLink w dialed =>
    exact hs.turn (fun hp hf => keeps_openLink hp hf)
      (fun hf => older_openLink hf) h
  | write w => exact hs.turn keeps_write older_write h
  | breakLink w k =>
    exact hs.turn (fun hp hf => keeps_breakLink hp hf)
      (fun hf => older_breakLink hf) h
  | handle w i => exact hs.handle codec h

/-! ## What was done stays done -/

structure Extends (s t : PeerStreams α) : Prop where
  processed : s.processed <+: t.processed
  sent : s.sent <+: t.sent

theorem extends_refl (s : PeerStreams α) : Extends s s :=
  ⟨List.prefix_refl _, List.prefix_refl _⟩

theorem Extends.trans {u : PeerStreams α} (h₁ : Extends s t)
    (h₂ : Extends t u) : Extends s u :=
  ⟨h₁.processed.trans h₂.processed, h₁.sent.trans h₂.sent⟩

theorem extends_turn {w : Nat} {f : PeerWriter → Option PeerWriter}
    (h : s.turn w f = some t) : Extends s t := by
  obtain ⟨p, -, h⟩ := Option.bind_eq_some_iff.1 h
  obtain ⟨p', -, rfl⟩ := Option.map_eq_some_iff.1 h
  exact ⟨List.prefix_refl _, List.prefix_refl _⟩

theorem extends_step {a : StreamAction α} (h : s.step codec a = some t) :
    Extends s t := by
  cases a with
  | send msg =>
    cases h
    unfold PeerStreams.send
    split
    · exact extends_refl s
    · exact ⟨List.prefix_refl _, List.prefix_append _ _⟩
  | disconnect =>
    cases h
    exact ⟨List.prefix_refl _, List.prefix_refl _⟩
  | take w => exact extends_turn h
  | openLink w dialed => exact extends_turn h
  | write w => exact extends_turn h
  | breakLink w k => exact extends_turn h
  | handle w i =>
    obtain ⟨p, -, h⟩ := Option.bind_eq_some_iff.1 h
    obtain ⟨bytes, -, h⟩ := Option.bind_eq_some_iff.1 h
    obtain ⟨out, -, rfl⟩ := Option.map_eq_some_iff.1 h
    exact ⟨List.prefix_append _ _, List.prefix_refl _⟩

theorem extends_run (h : Run (step codec) anyStep s t) : Extends s t :=
  Run.relation extends_refl (fun h₁ h₂ => h₁.trans h₂)
    (fun _ _ _ => trivial) (fun _ _ hnext => extends_step codec hnext) h trivial

/-- A message that is read from an older stream was sent before a processed
one. -/
theorem behind_of_back {w i : Nat} {p : PeerWriter} {bytes left : List UInt8}
    {msg : α} (hback : s.inTurn (.handle w i) = false)
    (hp : s.links.all[w]? = some p) (hbytes : p.streams.all[i]? = some bytes)
    (hread : r.read bytes = some (msg, left)) :
    Behind r s.links.all s.reached msg := by
  simp only [inTurn, Bool.or_eq_false_iff, Bool.and_eq_false_iff,
    decide_eq_false_iff_not] at hback
  obtain ⟨hle, hne⟩ := hback
  have hmem : msg ∈ r.readAll bytes := by
    rw [Reader.readAll_of_read hread]
    exact List.mem_cons_self
  rcases Nat.lt_or_ge w s.reached.1 with hlt | hge
  · refine Or.inl ⟨w, p, hlt, hp, ?_⟩
    have hheld : msg ∈ p.streams.all.flatMap r.readAll :=
      List.mem_flatMap.2 ⟨bytes, List.mem_of_getElem? hbytes, hmem⟩
    simp only [PeerWriter.rest, List.drop_zero, List.append_assoc]
    exact List.mem_append_left _ hheld
  · have heq : s.reached.1 = w := by omega
    refine Or.inr ⟨p, i, bytes, heq ▸ hp, ?_, hbytes, hmem⟩
    rcases hne with hne | hne
    · exact absurd heq hne
    · omega

/-- A handler that goes back to an older stream breaks the order for good. -/
theorem out_of_order_of_back (hcodec : codec.RoundTrips)
    (hrun : Run (step codec) anyStep start s) {w i : Nat}
    (hback : s.inTurn (.handle w i) = false)
    (hstep : s.step codec (.handle w i) = some t) {u : PeerStreams α}
    (hrest : Run (step codec) anyStep t u) (hnodup : u.sent.Nodup) :
    ¬ u.processed.Sublist u.sent := by
  intro horder
  have hs : HeldInv (frameReader codec) s :=
    hrun.invariant (fun hs _ hnext => hs.step codec hcodec hnext) heldInv_start
  have hextends := extends_run codec hrest
  obtain ⟨p, hp, h⟩ := Option.bind_eq_some_iff.1 hstep
  obtain ⟨bytes, hbytes, h⟩ := Option.bind_eq_some_iff.1 h
  obtain ⟨⟨msg, left⟩, hread, rfl⟩ := Option.map_eq_some_iff.1 h
  obtain ⟨last, hlast, hpair⟩ :=
    hs.behind msg (behind_of_back hback hp hbytes hread)
  have hsent : [msg, last].Sublist u.sent := hpair.trans hextends.sent.sublist
  have hprocessed : [last, msg].Sublist u.processed := by
    refine List.Sublist.trans ?_ hextends.processed.sublist
    exact (List.singleton_sublist.2 hlast).append (.refl [msg])
  exact not_sublist_both hnodup hsent (hprocessed.trans horder)

/-- As long as no handler goes back to an older stream, the messages are
processed in the order in which they were sent, none of them twice.  And if no
two messages are the same, then in a run that ends with all of them in order
every step was taken in turn. -/
theorem processed_in_order (hcodec : codec.RoundTrips) :
    (∀ s, Run (step codec) (fun s a => s.inTurn a = true) start s →
      s.processed.Sublist s.sent) ∧
    ∀ s a t u, Run (step codec) anyStep start s → s.step codec a = some t →
      Run (step codec) anyStep t u → u.sent.Nodup →
      u.processed.Sublist u.sent → s.inTurn a = true := by
  constructor
  · exact fun s hrun => (streamsInv_run codec hcodec hrun).in_order
  · intro s a t u hrun hstep hrest hnodup horder
    by_contra hback
    rw [Bool.not_eq_true] at hback
    cases a with
    | handle w i =>
      exact out_of_order_of_back codec hcodec hrun hback hstep hrest hnodup horder
    | _ => cases hback

theorem processed_in_order_twoLinks :
    ∃ s : PeerStreams UInt8,
      Run (step byteWire) (fun s a => s.inTurn a = true) start s ∧
        s.processed = [1, 2] ∧ s.processed.Sublist s.sent := by
  obtain ⟨s, hrun, hprocessed⟩ : ∃ s : PeerStreams UInt8,
      Run (step byteWire) (fun s a => s.inTurn a = true) start s ∧
        s.processed = [1, 2] :=
    exec_run_of_any (α := StreamAction UInt8)
      (sendAcrossLinks ++ [.handle 0 0, .handle 1 0]) (by decide +kernel)
  exact ⟨s, hrun, hprocessed,
    (processed_in_order byteWire byteWire_roundTrips).1 s hrun⟩

/-- The handler of the second link's stream is faster. -/
theorem later_link_overtakes :
    ¬ ∀ s : PeerStreams UInt8, Run (step byteWire) anyStep start s →
      s.processed.Sublist s.sent := by
  intro h
  obtain ⟨s, hrun, hprocessed, hsent⟩ : ∃ s : PeerStreams UInt8,
      Run (step byteWire) anyStep start s ∧ s.processed = [2, 1] ∧
        s.sent = [1, 2] :=
    exec_run_of_any (α := StreamAction UInt8)
      (sendAcrossLinks ++ [.handle 1 0, .handle 0 0]) (by decide +kernel)
  have hsub := h s hrun
  rw [hprocessed, hsent] at hsub
  revert hsub
  decide

end PeerStreams

end Plasmoid
