import Mathlib.Data.Set.Insert
import Mathlib.Order.SetNotation
import Mathlib.Tactic

/-!
# Plans over slots

A plan is a list of commands over named slots: fill a slot, clear a slot, or
quit.  A stop clears its slot, unless the slot is one of the `spared` ones,
whose occupant may stay.  `after spared up p` is the set of slots that may be
occupied once `p` has been carried out from the occupied slots `up`.  Nothing
behind a quit is carried out.

`Sound spared up p` says that `p` never fills a slot that may be occupied, and
that only `spared` slots may be occupied where it quits.  It is the rule by
which a batch of commands may be appended to a plan whose first part is still
waiting.
-/

namespace Plan

variable {κ : Type}

inductive Command (κ : Type) where
  | start (slot : κ)
  | stop (slot : κ)
  | quit
deriving DecidableEq

/-- What a stop leaves occupied. -/
def cleared (spared up : Set κ) (k : κ) : Set κ :=
  {j | j ∈ up ∧ (j = k → k ∈ spared)}

theorem cleared_mono {spared up up' : Set κ} (h : up ⊆ up') (k : κ) :
    cleared spared up k ⊆ cleared spared up' k :=
  fun _ hj => ⟨h hj.1, hj.2⟩

/-- The slots that may be occupied once the plan has been carried out. -/
def after (spared up : Set κ) : List (Command κ) → Set κ
  | [] => up
  | .start k :: p => after spared (insert k up) p
  | .stop k :: p => after spared (cleared spared up k) p
  | .quit :: _ => ∅

/-- The plan never fills an occupied slot, and quits with the `spared` ones
occupied at most. -/
def Sound (spared up : Set κ) : List (Command κ) → Prop
  | [] => True
  | .start k :: p => k ∉ up ∧ Sound spared (insert k up) p
  | .stop k :: p => Sound spared (cleared spared up k) p
  | .quit :: _ => up ⊆ spared

/-- The plan never fills an occupied slot and never clears a free one. -/
def Exact (up : Set κ) : List (Command κ) → Prop
  | [] => True
  | .start k :: p => k ∉ up ∧ Exact (insert k up) p
  | .stop k :: p => k ∈ up ∧ Exact (cleared ∅ up k) p
  | .quit :: _ => True

variable {spared up up' : Set κ}

theorem after_mono (h : up ⊆ up') (p : List (Command κ)) :
    after spared up p ⊆ after spared up' p := by
  induction p generalizing up up' with
  | nil => exact h
  | cons c p ih =>
    cases c with
    | start k => exact ih (Set.insert_subset_insert h)
    | stop k => exact ih (cleared_mono h k)
    | quit => exact le_rfl

theorem Sound.anti {p : List (Command κ)} (hp : Sound spared up' p)
    (h : up ⊆ up') : Sound spared up p := by
  induction p generalizing up up' with
  | nil => trivial
  | cons c p ih =>
    cases c with
    | start k =>
      obtain ⟨hk, hp⟩ := hp
      exact ⟨fun hmem => hk (h hmem), ih hp (Set.insert_subset_insert h)⟩
    | stop k =>
      have hp' : Sound spared (cleared spared up' k) p := hp
      exact ih hp' (cleared_mono h k)
    | quit =>
      have hp' : up' ⊆ spared := hp
      exact h.trans hp'

/-- Appending: the second part starts where the first one ends. -/
theorem Sound.append {p q : List (Command κ)} (hp : Sound spared up p)
    (hq : Sound spared (after spared up p) q) :
    Sound spared up (p ++ q) := by
  induction p generalizing up with
  | nil => exact hq
  | cons c p ih =>
    cases c with
    | start k =>
      obtain ⟨hk, hp⟩ := hp
      exact ⟨hk, ih hp hq⟩
    | stop k =>
      have hp' : Sound spared (cleared spared up k) p := hp
      exact ih hp' hq
    | quit => exact hp

theorem after_append_subset (spared up : Set κ) (p q : List (Command κ)) :
    after spared up (p ++ q) ⊆ after spared (after spared up p) q := by
  induction p generalizing up with
  | nil => exact le_rfl
  | cons c p ih =>
    cases c with
    | start k => exact ih (insert k up)
    | stop k => exact ih (cleared spared up k)
    | quit => exact Set.empty_subset _

/-- A slot that no waiting command fills is occupied afterwards only if it is
occupied now. -/
theorem not_mem_after {p : List (Command κ)} {k : κ} (hk : k ∉ up)
    (hp : Command.start k ∉ p) : k ∉ after spared up p := by
  induction p generalizing up with
  | nil => exact hk
  | cons c p ih =>
    have hp' : Command.start k ∉ p := fun h => hp (List.mem_cons_of_mem _ h)
    cases c with
    | start j =>
      refine ih ?_ hp'
      rw [Set.mem_insert_iff]
      rintro (rfl | h)
      · exact hp List.mem_cons_self
      · exact hk h
    | stop j => exact ih (fun h => hk h.1) hp'
    | quit => exact Set.notMem_empty k

/-! ## Runs of equal commands -/

/-- What a run of stops leaves occupied. -/
theorem after_stops (spared up : Set κ) (ks : List κ) (p : List (Command κ)) :
    after spared up (ks.map .stop ++ p) =
      after spared {k | k ∈ up ∧ (k ∈ ks → k ∈ spared)} p := by
  induction ks generalizing up with
  | nil => simp
  | cons k ks ih =>
    rw [List.map_cons, List.cons_append, after, ih]
    congr 1
    ext j
    simp only [cleared, Set.mem_ofPred_eq, List.mem_cons]
    by_cases hj : j = k
    · subst hj
      tauto
    · tauto

theorem sound_stops (ks : List κ) {p : List (Command κ)}
    (h : Sound spared {k | k ∈ up ∧ (k ∈ ks → k ∈ spared)} p) :
    Sound spared up (ks.map .stop ++ p) := by
  induction ks generalizing up with
  | nil => simpa using h
  | cons k ks ih =>
    show Sound spared (cleared spared up k) (ks.map .stop ++ p)
    refine ih (h.anti ?_)
    rintro j ⟨⟨hj, hjk⟩, hjs⟩
    refine ⟨hj, fun hmem => ?_⟩
    rcases List.mem_cons.1 hmem with rfl | hmem
    · exact hjk rfl
    · exact hjs hmem

/-- After a run of starts. -/
theorem after_starts (spared up : Set κ) (ks : List κ) :
    after spared up (ks.map .start) = {k | k ∈ up ∨ k ∈ ks} := by
  induction ks generalizing up with
  | nil => simp [after]
  | cons k ks ih =>
    rw [List.map_cons, after, ih]
    ext j
    simp only [Set.mem_insert_iff, Set.mem_ofPred_eq, List.mem_cons]
    tauto

/-- Distinct free slots may be filled one after the other. -/
theorem sound_starts {ks : List κ} (hks : ks.Nodup)
    (hfree : ∀ k ∈ ks, k ∉ up) : Sound spared up (ks.map .start) := by
  induction ks generalizing up with
  | nil => trivial
  | cons k ks ih =>
    obtain ⟨hk, hks⟩ := List.nodup_cons.1 hks
    refine ⟨hfree k List.mem_cons_self, ih hks ?_⟩
    intro j hj
    rw [Set.mem_insert_iff, not_or]
    exact ⟨fun h => hk (h ▸ hj), hfree j (List.mem_cons_of_mem _ hj)⟩

/-- Distinct occupied slots may be cleared one after the other. -/
theorem exact_stops {ks : List κ} (hks : ks.Nodup) (hup : ∀ k ∈ ks, k ∈ up)
    {p : List (Command κ)} (h : Exact {k | k ∈ up ∧ k ∉ ks} p) :
    Exact up (ks.map .stop ++ p) := by
  induction ks generalizing up with
  | nil => simpa using h
  | cons k ks ih =>
    obtain ⟨hk, hks⟩ := List.nodup_cons.1 hks
    refine ⟨hup k List.mem_cons_self, ih hks ?_ ?_⟩
    · intro j hj
      refine ⟨hup j (List.mem_cons_of_mem _ hj), ?_⟩
      rintro rfl
      exact absurd hj hk
    · have hset : {j | j ∈ cleared ∅ up k ∧ j ∉ ks} =
          {j | j ∈ up ∧ j ∉ k :: ks} := by
        ext j
        simp only [cleared, Set.mem_ofPred_eq, Set.mem_empty_iff_false,
          List.mem_cons]
        tauto
      rw [hset]
      exact h

theorem exact_starts {ks : List κ} (hks : ks.Nodup)
    (hfree : ∀ k ∈ ks, k ∉ up) : Exact up (ks.map .start) := by
  induction ks generalizing up with
  | nil => trivial
  | cons k ks ih =>
    obtain ⟨hk, hks⟩ := List.nodup_cons.1 hks
    refine ⟨hfree k List.mem_cons_self, ih hks ?_⟩
    intro j hj
    rw [Set.mem_insert_iff, not_or]
    exact ⟨fun h => hk (h ▸ hj), hfree j (List.mem_cons_of_mem _ hj)⟩

end Plan
