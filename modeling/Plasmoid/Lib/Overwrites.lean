import Mathlib.Data.List.Induction
import Mathlib.Data.Set.Basic
import Mathlib.Tactic

/-!
# Writes that clear what they replace

A store that is read as a set of facts.  A write adds some facts and first
clears others, as an insertion under a key does with what the key held.

The store only grows, over a whole log of writes, if and only if no write
clears what an earlier one added without adding it again (`grows_iff`).
-/

namespace Overwrites

variable {α : Type}

/-- What a write adds, and what it clears before. -/
structure Write (α : Type) where
  adds : Set α
  clears : Set α

def Write.apply (w : Write α) (s : Set α) : Set α := w.adds ∪ s \ w.clears

/-- The facts in the store after a log of writes. -/
def after (ws : List (Write α)) : Set α := ws.foldl (fun s w => w.apply s) ∅

/-- The later write leaves what the earlier one has added, or adds it again. -/
def Write.Spares (earlier later : Write α) : Prop :=
  earlier.adds ∩ later.clears ⊆ later.adds

@[simp] theorem after_nil : after ([] : List (Write α)) = ∅ := rfl

@[simp] theorem after_concat (ws : List (Write α)) (w : Write α) :
    after (ws ++ [w]) = w.apply (after ws) := by
  rw [after, List.foldl_append]
  rfl

theorem after_take_succ {ws : List (Write α)} {k : ℕ} (hk : k < ws.length) :
    after (ws.take (k + 1)) = ws[k].apply (after (ws.take k)) := by
  rw [List.take_succ_eq_append_getElem hk, after_concat]

/-- Without harmful writes the store holds all that was ever added. -/
theorem after_of_pairwise {ws : List (Write α)} (h : ws.Pairwise Write.Spares) :
    after ws = {x | ∃ w ∈ ws, x ∈ w.adds} := by
  induction ws using List.reverseRecOn with
  | nil => simp
  | append_singleton ws w ih =>
    obtain ⟨hold, -, hspares⟩ := List.pairwise_append.1 h
    rw [after_concat, ih hold]
    ext x
    constructor
    · rintro (hx | ⟨⟨v, hv, hx⟩, -⟩)
      · exact ⟨w, List.mem_append_right _ List.mem_cons_self, hx⟩
      · exact ⟨v, List.mem_append_left _ hv, hx⟩
    · rintro ⟨v, hv, hx⟩
      rcases List.mem_append.1 hv with hv | hv
      · by_cases hclear : x ∈ w.clears
        · exact .inl (hspares v hv w List.mem_cons_self ⟨hx, hclear⟩)
        · exact .inr ⟨⟨v, hv, hx⟩, hclear⟩
      · rw [List.mem_singleton.1 hv] at hx
        exact .inl hx

/-- The store never shrinks if and only if every write spares the earlier
ones. -/
theorem grows_iff (ws : List (Write α)) :
    (∀ i j, i ≤ j → after (ws.take i) ⊆ after (ws.take j)) ↔
      ws.Pairwise Write.Spares := by
  constructor
  · intro hgrows
    rw [List.pairwise_iff_getElem]
    rintro i j hi hj hij x ⟨hadded, hcleared⟩
    have hx : x ∈ after (ws.take (i + 1)) := by
      rw [after_take_succ hi]
      exact .inl hadded
    have hx' := hgrows (i + 1) (j + 1) (by omega) hx
    rw [after_take_succ hj] at hx'
    exact hx'.resolve_right fun h => h.2 hcleared
  · intro hspares i j hij
    have htake : ws.take i = (ws.take j).take i := by
      rw [List.take_take, min_eq_left hij]
    rw [after_of_pairwise (hspares.sublist (List.take_sublist i ws)),
      after_of_pairwise (hspares.sublist (List.take_sublist j ws)), htake]
    rintro x ⟨w, hw, hx⟩
    exact ⟨w, List.mem_of_mem_take hw, hx⟩

end Overwrites
