import Mathlib.Order.Basic
import Mathlib.Data.Set.Basic
import Mathlib.Tactic

/-!
# Values that spread

Nodes have a value each, or none.  They exchange values in pairs: the value of
one is read and on its way to the other, which keeps the lesser of the two.
Besides, a claim commits one value at a list of nodes that it has locked, and a
value may be given up and then be dropped by one node after the other.

A value is present if a node has it, if it is on its way, or if a claim commits
it.  `Inv` says that every present value that was not given up reaches every
node, or has met a lesser one.  There is one rule for each kind of step
(`Inv.move`, `Inv.merge`, `Inv.claim`, `Inv.commit`, `Inv.give_up`, `Inv.drop`),
and when nothing is left to do all nodes have the same value (`Inv.agree`).
-/

namespace Spread

variable {ν V : Type}

structure State (ν V : Type) where
  value : ν → Option V
  /-- The value is on its way to the node. -/
  coming : ν → V → Prop
  /-- The value of the first node is yet to be read for the second. -/
  reads : ν → ν → Prop
  /-- A claim commits the value: which nodes it has locked, and which are
  left. -/
  claims : V → List ν → List ν → Prop
  /-- The value has met a lesser one. -/
  outdone : V → Prop
  gone : V → Prop

namespace State

def Present (N : Set ν) (s : State ν V) (v : V) : Prop :=
  (∃ e ∈ N, s.value e = some v) ∨ (∃ e ∈ N, s.coming e v) ∨
    ∃ held left, s.claims v held left

/-- A claim will bring the value: it commits at the node, or it has not locked
the node and is not done. -/
def Claimed (s : State ν V) (e : ν) (v : V) : Prop :=
  ∃ held left, s.claims v held left ∧ (e ∈ left ∨ e ∉ held)

/-- The value will be read for the node. -/
def Offered (N : Set ν) (s : State ν V) (e : ν) (v : V) : Prop :=
  ∃ f ∈ N, f ≠ e ∧ s.value f = some v ∧ s.reads f e

/-- The node has the value or will get it. -/
def Reaches (N : Set ν) (s : State ν V) (e : ν) (v : V) : Prop :=
  s.value e = some v ∨ s.coming e v ∨ s.Claimed e v ∨ s.Offered N e v

end State

variable [LinearOrder V]

/-- Values reach all nodes unless they have met a lesser one, which does. -/
structure Inv (N : Set ν) (s : State ν V) : Prop where
  spread : ∀ v, s.Present N v → ¬ s.gone v → ¬ s.outdone v →
    ∀ e ∈ N, s.Reaches N e v
  beaten : ∀ v, s.Present N v → ¬ s.gone v → s.outdone v →
    ∃ w < v, s.Present N w ∧ ¬ s.gone w ∧ ¬ s.outdone w

section Rules

variable {N : Set ν} {s t : State ν V}

/-- Nobody has a value. -/
theorem inv_empty (h : ∀ v, ¬ s.Present N v) : Inv N s :=
  ⟨fun v hv => absurd hv (h v), fun v hv => absurd hv (h v)⟩

/-- Values are read and passed on. -/
theorem Inv.move (h : Inv N s) (hvalue : ∀ e ∈ N, t.value e = s.value e)
    (hclaims : t.claims = s.claims) (houtdone : t.outdone = s.outdone)
    (hgone : t.gone = s.gone)
    (hcoming : ∀ e ∈ N, ∀ v, s.coming e v → t.coming e v)
    (hnew : ∀ e ∈ N, ∀ v, t.coming e v → s.Present N v)
    (hreads : ∀ f ∈ N, ∀ e ∈ N, f ≠ e → s.reads f e →
      t.reads f e ∨ ∀ v, s.value f = some v → t.coming e v) : Inv N t := by
  have hold : ∀ v, t.Present N v → s.Present N v := by
    rintro v (⟨e, he, hv⟩ | ⟨e, he, hv⟩ | hv)
    · rw [hvalue e he] at hv
      exact Or.inl ⟨e, he, hv⟩
    · exact hnew e he v hv
    · rw [hclaims] at hv
      exact Or.inr (Or.inr hv)
  have hpresent : ∀ v, s.Present N v → t.Present N v := by
    rintro v (⟨e, he, hv⟩ | ⟨e, he, hv⟩ | hv)
    · rw [← hvalue e he] at hv
      exact Or.inl ⟨e, he, hv⟩
    · exact Or.inr (Or.inl ⟨e, he, hcoming e he v hv⟩)
    · rw [← hclaims] at hv
      exact Or.inr (Or.inr hv)
  refine ⟨fun v hv hg ho e he => ?_, fun v hv hg ho => ?_⟩
  · rw [hgone] at hg
    rw [houtdone] at ho
    rcases h.spread v (hold v hv) hg ho e he with
      hv | hv | hv | ⟨f, hf, hne, hv, hread⟩
    · rw [← hvalue e he] at hv
      exact Or.inl hv
    · exact Or.inr (Or.inl (hcoming e he v hv))
    · rw [State.Claimed, ← hclaims] at hv
      exact Or.inr (Or.inr (Or.inl hv))
    · rcases hreads f hf e he hne hread with hread | hcome
      · rw [← hvalue f hf] at hv
        exact Or.inr (Or.inr (Or.inr ⟨f, hf, hne, hv, hread⟩))
      · exact Or.inr (Or.inl (hcome v hv))
  · rw [hgone] at hg
    rw [houtdone] at ho
    obtain ⟨w, hlt, hw, hgw, how⟩ := h.beaten v (hold v hv) hg ho
    rw [← hgone] at hgw
    rw [← houtdone] at how
    exact ⟨w, hlt, hpresent w hw, hgw, how⟩

/-- What a node has before a merge, or what it merges. -/
def Bound (s : State ν V) (e : ν) (entry : V → Prop) (v : V) : Prop :=
  s.value e = some v ∨ entry v

/-- A node takes the least of what it has and what came.  The others have met a
lesser value, and a conflict is not decided by a value that was given up. -/
structure Merges (N : Set ν) (s t : State ν V) (e : ν) (entry : V → Prop) :
    Prop where
  node : e ∈ N
  others : ∀ f ∈ N, f ≠ e → t.value f = s.value f
  value : ∀ v, t.value e = some v → Bound s e entry v
  least : ∀ v, Bound s e entry v → ∃ m, t.value e = some m ∧ m ≤ v
  outdone : ∀ v, t.outdone v ↔
    s.outdone v ∨ Bound s e entry v ∧ t.value e ≠ some v
  claims : t.claims = s.claims
  gone : t.gone = s.gone
  came : ∀ v, entry v → s.coming e v
  coming : ∀ f ∈ N, ∀ v, s.coming f v → t.coming f v ∨ f = e ∧ entry v
  old : ∀ f ∈ N, ∀ v, t.coming f v → s.coming f v
  reads : ∀ f ∈ N, ∀ g ∈ N, s.reads f g → t.reads f g
  conflict : ∀ v w, Bound s e entry v → Bound s e entry w → v ≠ w → ¬ s.gone v

section Merge

variable {e : ν} {entry : V → Prop}

theorem Merges.present_old (h : Merges N s t e entry) {v : V}
    (hv : t.Present N v) : s.Present N v := by
  rcases hv with ⟨f, hf, hv⟩ | ⟨f, hf, hv⟩ | hv
  · by_cases hfe : f = e
    · subst hfe
      rcases h.value v hv with hv | hv
      · exact Or.inl ⟨f, hf, hv⟩
      · exact Or.inr (Or.inl ⟨f, hf, h.came v hv⟩)
    · rw [h.others f hf hfe] at hv
      exact Or.inl ⟨f, hf, hv⟩
  · exact Or.inr (Or.inl ⟨f, hf, h.old f hf v hv⟩)
  · rw [h.claims] at hv
    exact Or.inr (Or.inr hv)

/-- What is no longer present was beaten. -/
theorem Merges.present (h : Merges N s t e entry) {v : V}
    (hv : s.Present N v) :
    t.Present N v ∨ Bound s e entry v ∧ t.value e ≠ some v := by
  by_cases hsame : t.value e = some v
  · exact Or.inl (Or.inl ⟨e, h.node, hsame⟩)
  · rcases hv with ⟨f, hf, hv⟩ | ⟨f, hf, hv⟩ | hv
    · by_cases hfe : f = e
      · subst hfe
        exact Or.inr ⟨Or.inl hv, hsame⟩
      · rw [← h.others f hf hfe] at hv
        exact Or.inl (Or.inl ⟨f, hf, hv⟩)
    · rcases h.coming f hf v hv with hv | ⟨rfl, hv⟩
      · exact Or.inl (Or.inr (Or.inl ⟨f, hf, hv⟩))
      · exact Or.inr ⟨Or.inr hv, hsame⟩
    · rw [← h.claims] at hv
      exact Or.inl (Or.inr (Or.inr hv))

/-- A value that is beaten in the merge is above one that is not beaten at
all. -/
theorem Merges.exists_lower (h : Merges N s t e entry) (hinv : Inv N s) {v : V}
    (hv : Bound s e entry v) (hlost : t.value e ≠ some v) :
    ∃ w < v, t.Present N w ∧ ¬ t.gone w ∧ ¬ t.outdone w := by
  obtain ⟨m, hm, hle⟩ := h.least v hv
  have hne : m ≠ v := by
    rintro rfl
    exact hlost hm
  have hlt : m < v := hle.lt_of_ne hne
  have hbound := h.value m hm
  have hgone : ¬ s.gone m := h.conflict m v hbound hv hne
  by_cases ho : s.outdone m
  · have hpresent : s.Present N m :=
      h.present_old (Or.inl ⟨e, h.node, hm⟩)
    obtain ⟨w, hwm, hw, hgw, how⟩ := hinv.beaten m hpresent hgone ho
    -- It is too low to have been merged.
    have hnot : ¬ Bound s e entry w := by
      intro hbw
      obtain ⟨m', hm', hle'⟩ := h.least w hbw
      obtain rfl : m = m' := Option.some_inj.1 (hm.symm.trans hm')
      exact absurd hwm (not_lt.2 hle')
    refine ⟨w, hwm.trans hlt, (h.present hw).resolve_right fun hb => hnot hb.1,
      ?_, ?_⟩
    · rw [h.gone]
      exact hgw
    · rw [h.outdone]
      exact fun hor => hor.elim how fun hb => hnot hb.1
  · refine ⟨m, hlt, Or.inl ⟨e, h.node, hm⟩, ?_, ?_⟩
    · rw [h.gone]
      exact hgone
    · rw [h.outdone]
      exact fun hor => hor.elim ho fun hb => hb.2 hm

theorem Inv.merge (h : Inv N s) (e : ν) (entry : V → Prop)
    (hm : Merges N s t e entry) : Inv N t := by
  refine ⟨fun v hv hg ho f hf => ?_, fun v hv hg ho => ?_⟩
  · rw [hm.gone] at hg
    rw [hm.outdone] at ho
    have hkept : Bound s e entry v → t.value e = some v := by
      intro hb
      by_contra hlost
      exact ho (Or.inr ⟨hb, hlost⟩)
    rcases h.spread v (hm.present_old hv) hg (fun hos => ho (Or.inl hos)) f hf
      with hv | hv | hv | ⟨g, hgN, hne, hv, hread⟩
    · by_cases hfe : f = e
      · subst hfe
        exact Or.inl (hkept (Or.inl hv))
      · rw [← hm.others f hf hfe] at hv
        exact Or.inl hv
    · rcases hm.coming f hf v hv with hv | ⟨rfl, hv⟩
      · exact Or.inr (Or.inl hv)
      · exact Or.inl (hkept (Or.inr hv))
    · rw [State.Claimed, ← hm.claims] at hv
      exact Or.inr (Or.inr (Or.inl hv))
    · refine Or.inr (Or.inr (Or.inr ⟨g, hgN, hne, ?_, hm.reads g hgN f hf hread⟩))
      by_cases hge : g = e
      · subst hge
        exact hkept (Or.inl hv)
      · rw [hm.others g hgN hge]
        exact hv
  · have hlower : Bound s e entry v ∧ t.value e ≠ some v →
        ∃ w < v, t.Present N w ∧ ¬ t.gone w ∧ ¬ t.outdone w :=
      fun hb => hm.exists_lower h hb.1 hb.2
    rcases (hm.outdone v).1 ho with hos | hb
    · rw [hm.gone] at hg
      obtain ⟨w, hlt, hw, hgw, how⟩ := h.beaten v (hm.present_old hv) hg hos
      have hnext : Bound s e entry w ∧ t.value e ≠ some w →
          ∃ x < v, t.Present N x ∧ ¬ t.gone x ∧ ¬ t.outdone x := by
        intro hb
        obtain ⟨x, hxw, hx⟩ := hm.exists_lower h hb.1 hb.2
        exact ⟨x, hxw.trans hlt, hx⟩
      rcases hm.present hw with hpresent | hb
      · by_cases howt : t.outdone w
        · exact hnext (((hm.outdone w).1 howt).resolve_left how)
        · rw [← hm.gone] at hgw
          exact ⟨w, hlt, hpresent, hgw, howt⟩
      · exact hnext hb
    · exact hlower hb

end Merge

/-- A claim holds all its locks and is about to commit.  The value is not given
up and not outdone any more. -/
theorem Inv.claim (h : Inv N s) (v : V) (held : List ν)
    (hvalue : t.value = s.value) (hcoming : t.coming = s.coming)
    (hreads : t.reads = s.reads)
    (hclaims : ∀ w l left, t.claims w l left ↔
      s.claims w l left ∨ w = v ∧ l = held ∧ left = held)
    (houtdone : ∀ w, t.outdone w ↔ s.outdone w ∧ w ≠ v)
    (hgone : ∀ w, t.gone w → s.gone w)
    (hothers : ∀ w, w ≠ v → s.gone w → t.gone w) : Inv N t := by
  have hpresent : ∀ w, s.Present N w → t.Present N w := by
    rintro w (⟨e, he, hw⟩ | ⟨e, he, hw⟩ | ⟨l, left, hw⟩)
    · rw [← hvalue] at hw
      exact Or.inl ⟨e, he, hw⟩
    · rw [← hcoming] at hw
      exact Or.inr (Or.inl ⟨e, he, hw⟩)
    · exact Or.inr (Or.inr ⟨l, left, (hclaims w l left).2 (Or.inl hw)⟩)
  have hold : ∀ w, w ≠ v → t.Present N w → s.Present N w := by
    rintro w hne (⟨e, he, hw⟩ | ⟨e, he, hw⟩ | ⟨l, left, hw⟩)
    · rw [hvalue] at hw
      exact Or.inl ⟨e, he, hw⟩
    · rw [hcoming] at hw
      exact Or.inr (Or.inl ⟨e, he, hw⟩)
    · refine Or.inr (Or.inr ⟨l, left, ((hclaims w l left).1 hw).resolve_right ?_⟩)
      exact fun heq => hne heq.1
  refine ⟨fun w hw hg ho e he => ?_, fun w hw hg ho => ?_⟩
  · by_cases hwv : w = v
    · subst hwv
      refine Or.inr (Or.inr (Or.inl ⟨held, held,
        (hclaims w held held).2 (Or.inr ⟨rfl, rfl, rfl⟩), ?_⟩))
      exact em (e ∈ held)
    · have hgs : ¬ s.gone w := fun hgs => hg (hothers w hwv hgs)
      have hos : ¬ s.outdone w := fun hos => ho ((houtdone w).2 ⟨hos, hwv⟩)
      rcases h.spread w (hold w hwv hw) hgs hos e he with
        hx | hx | ⟨l, left, hx, hleft⟩ | hx
      · rw [← hvalue] at hx
        exact Or.inl hx
      · rw [← hcoming] at hx
        exact Or.inr (Or.inl hx)
      · exact Or.inr (Or.inr (Or.inl
          ⟨l, left, (hclaims w l left).2 (Or.inl hx), hleft⟩))
      · rw [State.Offered, ← hvalue, ← hreads] at hx
        exact Or.inr (Or.inr (Or.inr hx))
  · obtain ⟨hos, hwv⟩ := (houtdone w).1 ho
    have hgs : ¬ s.gone w := fun hgs => hg (hothers w hwv hgs)
    obtain ⟨x, hlt, hx, hgx, hox⟩ := h.beaten w (hold w hwv hw) hgs hos
    exact ⟨x, hlt, hpresent x hx, fun hgt => hgx (hgone x hgt),
      fun hot => hox ((houtdone x).1 hot).1⟩

/-- A claim commits at one more node, which has no other value.  Whoever it has
not locked will have the value from somebody else when it is done. -/
structure Commits (N : Set ν) (s t : State ν V) (v : V) (held : List ν) (e : ν)
    (rest : List ν) : Prop where
  node : e ∈ N
  claim : s.claims v held (e :: rest)
  free : ∀ w, s.value e = some w → w = v
  value : t.value e = some v
  others : ∀ f ∈ N, f ≠ e → t.value f = s.value f
  next : rest ≠ [] → t.claims v held rest
  kept : ∀ w l left, s.claims w l left → t.claims w l left ∨
    w = v ∧ l = held ∧ left = e :: rest
  old : ∀ w l left, t.claims w l left → s.claims w l left ∨ w = v
  coming : t.coming = s.coming
  reads : t.reads = s.reads
  outdone : t.outdone = s.outdone
  gone : t.gone = s.gone
  last : rest = [] → ¬ s.gone v → ¬ s.outdone v → ∀ f ∈ N, f ∉ held →
    t.value f = some v ∨ t.coming f v ∨ t.Offered N f v

omit [LinearOrder V] in
theorem Commits.value_kept {v : V} {held rest : List ν} {e : ν}
    (h : Commits N s t v held e rest) {f : ν} (hf : f ∈ N) {w : V}
    (hw : s.value f = some w) : t.value f = some w := by
  by_cases hfe : f = e
  · subst hfe
    rw [h.value, h.free w hw]
  · rw [h.others f hf hfe]
    exact hw

omit [LinearOrder V] in
theorem Commits.present_iff {v : V} {held rest : List ν} {e : ν}
    (h : Commits N s t v held e rest) (w : V) :
    t.Present N w ↔ s.Present N w := by
  have hv : s.Present N v := Or.inr (Or.inr ⟨held, e :: rest, h.claim⟩)
  constructor
  · rintro (⟨f, hf, hw⟩ | ⟨f, hf, hw⟩ | ⟨l, left, hw⟩)
    · by_cases hfe : f = e
      · subst hfe
        rw [h.value, Option.some_inj] at hw
        rw [← hw]
        exact hv
      · rw [h.others f hf hfe] at hw
        exact Or.inl ⟨f, hf, hw⟩
    · rw [h.coming] at hw
      exact Or.inr (Or.inl ⟨f, hf, hw⟩)
    · rcases h.old w l left hw with hw | rfl
      · exact Or.inr (Or.inr ⟨l, left, hw⟩)
      · exact hv
  · rintro (⟨f, hf, hw⟩ | ⟨f, hf, hw⟩ | ⟨l, left, hw⟩)
    · exact Or.inl ⟨f, hf, h.value_kept hf hw⟩
    · rw [← h.coming] at hw
      exact Or.inr (Or.inl ⟨f, hf, hw⟩)
    · rcases h.kept w l left hw with hw | ⟨rfl, -, -⟩
      · exact Or.inr (Or.inr ⟨l, left, hw⟩)
      · exact Or.inl ⟨e, h.node, h.value⟩

theorem Inv.commit (h : Inv N s) (v : V) (held : List ν) (e : ν)
    (rest : List ν) (hc : Commits N s t v held e rest) : Inv N t := by
  refine ⟨fun w hw hg ho f hf => ?_, fun w hw hg ho => ?_⟩
  · rw [hc.gone] at hg
    rw [hc.outdone] at ho
    rcases h.spread w ((hc.present_iff w).1 hw) hg ho f hf with
      hx | hx | ⟨l, left, hx, hleft⟩ | ⟨g, hgN, hne, hx, hread⟩
    · exact Or.inl (hc.value_kept hf hx)
    · rw [← hc.coming] at hx
      exact Or.inr (Or.inl hx)
    · rcases hc.kept w l left hx with hx | ⟨rfl, rfl, rfl⟩
      · exact Or.inr (Or.inr (Or.inl ⟨l, left, hx, hleft⟩))
      · by_cases hfe : f = e
        · subst hfe
          exact Or.inl hc.value
        · by_cases hrest : rest = []
          · subst hrest
            have hout : f ∉ l := hleft.resolve_left fun hmem =>
              hfe (List.mem_singleton.1 hmem)
            rcases hc.last rfl hg ho f hf hout with hx | hx | hx
            · exact Or.inl hx
            · exact Or.inr (Or.inl hx)
            · exact Or.inr (Or.inr (Or.inr hx))
          · refine Or.inr (Or.inr (Or.inl ⟨l, rest, hc.next hrest, ?_⟩))
            exact hleft.imp_left fun hmem =>
              (List.mem_cons.1 hmem).resolve_left hfe
    · rw [← hc.reads] at hread
      exact Or.inr (Or.inr (Or.inr
        ⟨g, hgN, hne, hc.value_kept hgN hx, hread⟩))
  · rw [hc.gone] at hg
    rw [hc.outdone] at ho
    obtain ⟨x, hlt, hx, hgx, hox⟩ := h.beaten w ((hc.present_iff w).1 hw) hg ho
    rw [← hc.gone] at hgx
    rw [← hc.outdone] at hox
    exact ⟨x, hlt, (hc.present_iff x).2 hx, hgx, hox⟩

/-- Values are given up, but none that a greater value that is still around
may have met. -/
theorem Inv.give_up (h : Inv N s) (hvalue : t.value = s.value)
    (hcoming : t.coming = s.coming) (hreads : t.reads = s.reads)
    (hclaims : t.claims = s.claims) (houtdone : t.outdone = s.outdone)
    (hgone : ∀ v, s.gone v → t.gone v)
    (hresolved : ∀ w, s.Present N w → t.gone w → ¬ s.gone w → ∀ v, w < v →
      s.outdone v → ¬ t.gone v → ¬ s.Present N v) : Inv N t := by
  have hpresent : ∀ v, t.Present N v ↔ s.Present N v := by
    intro v
    rw [State.Present, hvalue, hcoming, hclaims]
    rfl
  refine ⟨fun v hv hg ho e he => ?_, fun v hv hg ho => ?_⟩
  · rw [houtdone] at ho
    have hreach := h.spread v ((hpresent v).1 hv) (fun hgs => hg (hgone v hgs))
      ho e he
    rw [State.Reaches, State.Claimed, State.Offered, hvalue, hcoming, hclaims,
      hreads]
    exact hreach
  · have hv' := (hpresent v).1 hv
    have hgs : ¬ s.gone v := fun hgs => hg (hgone v hgs)
    rw [houtdone] at ho
    obtain ⟨w, hlt, hw, hgw, how⟩ := h.beaten v hv' hgs ho
    refine ⟨w, hlt, (hpresent w).2 hw, fun hgt => ?_, ?_⟩
    · exact hresolved w hw hgt hgw v hlt ho hg hv'
    · rw [houtdone]
      exact how

/-- Nodes drop values that were given up. -/
theorem Inv.drop (h : Inv N s)
    (hold : ∀ e ∈ N, ∀ v, t.value e = some v → s.value e = some v)
    (hkept : ∀ e ∈ N, ∀ v, s.value e = some v → t.value e = some v ∨ s.gone v)
    (hcoming : t.coming = s.coming) (hreads : t.reads = s.reads)
    (hclaims : t.claims = s.claims) (houtdone : t.outdone = s.outdone)
    (hgone : t.gone = s.gone) : Inv N t := by
  have hpresent : ∀ v, t.Present N v → s.Present N v := by
    rintro v (⟨e, he, hv⟩ | hv | hv)
    · exact Or.inl ⟨e, he, hold e he v hv⟩
    · rw [hcoming] at hv
      exact Or.inr (Or.inl hv)
    · rw [hclaims] at hv
      exact Or.inr (Or.inr hv)
  refine ⟨fun v hv hg ho e he => ?_, fun v hv hg ho => ?_⟩
  · rw [hgone] at hg
    rw [houtdone] at ho
    have hstays : ∀ f ∈ N, s.value f = some v → t.value f = some v :=
      fun f hf hx => (hkept f hf v hx).resolve_right hg
    rcases h.spread v (hpresent v hv) hg ho e he with
      hx | hx | hx | ⟨f, hf, hne, hx, hread⟩
    · exact Or.inl (hstays e he hx)
    · rw [← hcoming] at hx
      exact Or.inr (Or.inl hx)
    · rw [State.Claimed, ← hclaims] at hx
      exact Or.inr (Or.inr (Or.inl hx))
    · rw [← hreads] at hread
      exact Or.inr (Or.inr (Or.inr ⟨f, hf, hne, hstays f hf hx, hread⟩))
  · rw [hgone] at hg
    rw [houtdone] at ho
    obtain ⟨w, hlt, hw, hgw, how⟩ := h.beaten v (hpresent v hv) hg ho
    rw [hgone, houtdone]
    refine ⟨w, hlt, ?_, hgw, how⟩
    rcases hw with ⟨e, he, hx⟩ | hx | hx
    · exact Or.inl ⟨e, he, (hkept e he w hx).resolve_right hgw⟩
    · rw [← hcoming] at hx
      exact Or.inr (Or.inl hx)
    · rw [← hclaims] at hx
      exact Or.inr (Or.inr hx)

/-- When nothing is left to do, all nodes have the same value. -/
theorem Inv.agree (h : Inv N s) (hcoming : ∀ e ∈ N, ∀ v, ¬ s.coming e v)
    (hclaims : ∀ v held left, ¬ s.claims v held left)
    (hreads : ∀ f ∈ N, ∀ e ∈ N, f ≠ e → ¬ s.reads f e)
    (hgone : ∀ e ∈ N, ∀ v, s.value e = some v → ¬ s.gone v) :
    ∀ e ∈ N, ∀ f ∈ N, s.value e = s.value f := by
  have hhas : ∀ v, s.Present N v → ∃ e ∈ N, s.value e = some v := by
    rintro v (hv | ⟨e, he, hv⟩ | ⟨held, left, hv⟩)
    · exact hv
    · exact absurd hv (hcoming e he v)
    · exact absurd hv (hclaims v held left)
  have hall : ∀ v, s.Present N v → ¬ s.outdone v →
      ∀ e ∈ N, s.value e = some v := by
    intro v hv ho e he
    obtain ⟨f, hf, hx⟩ := hhas v hv
    rcases h.spread v hv (hgone f hf v hx) ho e he with
      hx | hx | ⟨held, left, hx, -⟩ | ⟨g, hg, hne, -, hread⟩
    · exact hx
    · exact absurd hx (hcoming e he v)
    · exact absurd hx (hclaims v held left)
    · exact absurd hread (hreads g hg e he hne)
  have hsame : ∀ e ∈ N, ∀ v, s.value e = some v → ∀ f ∈ N,
      s.value f = some v := by
    intro e he v hv
    have hpresent : s.Present N v := Or.inl ⟨e, he, hv⟩
    by_cases ho : s.outdone v
    · obtain ⟨w, hlt, hw, -, how⟩ :=
        h.beaten v hpresent (hgone e he v hv) ho
      have hwe := hall w hw how e he
      rw [hv, Option.some_inj] at hwe
      exact absurd hlt (hwe ▸ lt_irrefl _)
    · exact hall v hpresent ho
  intro e he f hf
  cases hv : s.value e with
  | some v => exact (hsame e he v hv f hf).symm
  | none =>
    cases hw : s.value f with
    | none => rfl
    | some w =>
      rw [hsame f hf w hw e he] at hv
      cases hv

end Rules

end Spread
