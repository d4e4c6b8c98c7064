import Mathlib.Data.List.Perm.Lattice
import Mathlib.Tactic

/-!
# Queues with an urgent lane

A queue that takes urgent elements in at the front and the others at the back,
and from which the first element that passes a test is taken out.  The elements
are numbered in the order in which they were accepted, so that two equal ones
can be told apart.

`Sound urgent` is what the three operations keep.  Nothing is lost or
delivered twice, the urgent elements are in front with the latest one first,
and behind them the others wait in the order of their numbers.
-/

namespace Lanes

variable {α : Type}

/-- A queue, with a record of what it accepted and what it delivered. -/
structure Tracked (α : Type) where
  accepted : List α
  queued : List (ℕ × α)
  delivered : List (ℕ × α)

/-- May the first of two entries wait in front of the second? -/
def Ahead (urgent : α → Bool) (e e' : ℕ × α) : Prop :=
  if urgent e'.2 then urgent e.2 = true ∧ e'.1 < e.1
  else urgent e.2 = true ∨ e.1 < e'.1

namespace Tracked

def empty : Tracked α := ⟨[], [], []⟩

def pushBack (t : Tracked α) (a : α) : Tracked α where
  accepted := t.accepted ++ [a]
  queued := t.queued ++ [(t.accepted.length, a)]
  delivered := t.delivered

def pushFront (t : Tracked α) (a : α) : Tracked α where
  accepted := t.accepted ++ [a]
  queued := (t.accepted.length, a) :: t.queued
  delivered := t.delivered

/-- Deliver an entry and keep the others. -/
def deliver (t : Tracked α) (e : ℕ × α) (rest : List (ℕ × α)) : Tracked α where
  accepted := t.accepted
  queued := rest
  delivered := t.delivered ++ [e]

/-- Nothing is lost or delivered twice, and the lanes are in order. -/
structure Sound (urgent : α → Bool) (t : Tracked α) : Prop where
  once : ((t.delivered ++ t.queued).map Prod.fst).Perm
    (List.range t.accepted.length)
  named : ∀ e ∈ t.delivered ++ t.queued, t.accepted[e.1]? = some e.2
  lanes : t.queued.Pairwise (Ahead urgent)

variable {urgent : α → Bool} {t : Tracked α}

theorem sound_empty : (empty : Tracked α).Sound urgent where
  once := List.Perm.refl _
  named := by
    intro e he
    cases he
  lanes := List.Pairwise.nil

/-- Every number in the queue is that of an accepted element. -/
theorem Sound.lt (h : t.Sound urgent) {e : ℕ × α} (he : e ∈ t.queued) :
    e.1 < t.accepted.length := by
  have hmem := h.named e (List.mem_append_right _ he)
  exact (List.getElem?_eq_some_iff.1 hmem).1

theorem named_append (h : t.Sound urgent) (a : α) {e : ℕ × α}
    (he : e ∈ t.delivered ++ t.queued ∨ e = (t.accepted.length, a)) :
    (t.accepted ++ [a])[e.1]? = some e.2 := by
  rcases he with he | rfl
  · obtain ⟨hlt, hget⟩ := List.getElem?_eq_some_iff.1 (h.named e he)
    rw [List.getElem?_append_left hlt, ← hget]
    exact List.getElem?_eq_getElem hlt
  · simp

theorem Sound.pushBack (h : t.Sound urgent) {a : α} (ha : urgent a = false) :
    (t.pushBack a).Sound urgent where
  once := by
    show ((t.delivered ++ (t.queued ++ [(t.accepted.length, a)])).map
      Prod.fst).Perm (List.range (t.accepted ++ [a]).length)
    rw [← List.append_assoc, List.map_append, List.length_append,
      List.length_singleton, List.range_succ]
    exact h.once.append_right _
  named := by
    intro e he
    refine named_append h a ?_
    have he' : e ∈ (t.delivered ++ t.queued) ++ [(t.accepted.length, a)] := by
      rw [List.append_assoc]
      exact he
    rcases List.mem_append.1 he' with he' | he'
    · exact .inl he'
    · exact .inr (List.mem_singleton.1 he')
  lanes := by
    refine List.pairwise_append.2 ⟨h.lanes, List.pairwise_singleton _ _, ?_⟩
    intro e he e' he'
    rw [List.mem_singleton.1 he', Ahead, if_neg (by simp [ha])]
    exact .inr (h.lt he)

theorem Sound.pushFront (h : t.Sound urgent) {a : α} (ha : urgent a = true) :
    (t.pushFront a).Sound urgent where
  once := by
    show ((t.delivered ++ ((t.accepted.length, a) :: t.queued)).map
      Prod.fst).Perm (List.range (t.accepted ++ [a]).length)
    rw [List.length_append, List.length_singleton, List.range_succ]
    have hmiddle : (t.delivered ++ ((t.accepted.length, a) :: t.queued)).Perm
        ((t.delivered ++ t.queued) ++ [(t.accepted.length, a)]) := by
      refine List.perm_middle.trans ?_
      exact (List.perm_append_singleton _ _).symm
    refine (hmiddle.map Prod.fst).trans ?_
    rw [List.map_append]
    exact h.once.append_right _
  named := by
    intro e he
    refine named_append h a ?_
    rcases List.mem_append.1 he with he | he
    · exact .inl (List.mem_append_left _ he)
    · rcases List.mem_cons.1 he with he | he
      · exact .inr he
      · exact .inl (List.mem_append_right _ he)
  lanes := by
    refine List.pairwise_cons.2 ⟨fun e he => ?_, h.lanes⟩
    unfold Ahead
    split
    · exact ⟨ha, h.lt he⟩
    · exact .inl ha

/-- Any entry may be delivered. -/
theorem Sound.deliver (h : t.Sound urgent) {e : ℕ × α}
    {before behind : List (ℕ × α)} (hqueued : t.queued = before ++ e :: behind) :
    (t.deliver e (before ++ behind)).Sound urgent where
  once := by
    refine List.Perm.trans ?_ h.once
    refine List.Perm.map _ ?_
    show ((t.delivered ++ [e]) ++ (before ++ behind)).Perm (t.delivered ++ t.queued)
    rw [hqueued, List.append_assoc, List.singleton_append]
    exact List.perm_middle.symm.append_left t.delivered
  named := by
    intro x hx
    refine h.named x ?_
    have hx' : x ∈ (t.delivered ++ [e]) ++ (before ++ behind) := hx
    rw [hqueued]
    simp only [List.mem_append, List.mem_cons] at hx' ⊢
    tauto
  lanes := by
    refine h.lanes.sublist ?_
    rw [hqueued]
    exact List.Sublist.append_left (List.sublist_cons_self e behind) before

/-- An entry of the back lane has no urgent one behind it, and none with a lower
number. -/
theorem Sound.first_of_ordinary (h : t.Sound urgent) {e : ℕ × α}
    {rest : List (ℕ × α)} (hqueued : t.queued = e :: rest)
    (he : urgent e.2 = false) :
    ∀ e' ∈ rest, urgent e'.2 = false ∧ e.1 < e'.1 := by
  intro e' he'
  have hlanes := h.lanes
  rw [hqueued, List.pairwise_cons] at hlanes
  have hahead := hlanes.1 e' he'
  unfold Ahead at hahead
  split at hahead
  · rw [he] at hahead
    cases hahead.1
  · rename_i hordinary
    refine ⟨by simpa using hordinary, hahead.resolve_left ?_⟩
    rw [he]
    exact Bool.false_ne_true

/-- The back lane waits in the order in which it was accepted. -/
theorem Sound.ordinary_sorted (h : t.Sound urgent) :
    (t.queued.filter fun e => !urgent e.2).Pairwise fun e e' => e.1 < e'.1 := by
  refine List.pairwise_filter.2 (h.lanes.imp ?_)
  intro e e' hahead he he'
  unfold Ahead at hahead
  rw [if_neg (by simpa using he')] at hahead
  exact hahead.resolve_left (by simpa using he)

end Tracked

end Lanes
