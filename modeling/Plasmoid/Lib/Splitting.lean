import Mathlib.Data.List.Basic
import Mathlib.Data.List.DropRight
import Mathlib.Tactic

/-!
# Splitting at a separator, at most so many times

A list is cut at the first separators of it, and what is left after the last
cut is one piece, separators and all.  The pieces, joined again, are the list;
and joined pieces are found again exactly when a cut finds the separators of
the join before any other: no piece but the last holds one.
-/

namespace Splitting

variable {α : Type} {sep : α} {piece rest xs : List α}
  {pieces : List (List α)} {n : Nat}

/-! ## Stripping both ends -/

/-- The list without what `pad` holds of at either end. -/
def strip (pad : α → Bool) (xs : List α) : List α :=
  (xs.dropWhile pad).rdropWhile pad

theorem mem_dropWhile {pad : α → Bool} {x : α} (hpad : pad x = false) :
    x ∈ xs.dropWhile pad ↔ x ∈ xs := by
  constructor
  · exact fun h => (List.dropWhile_suffix pad).subset h
  · intro h
    rw [← List.takeWhile_append_dropWhile (p := pad) (l := xs)] at h
    cases List.mem_append.mp h with
    | inl htake =>
      have hall := List.mem_takeWhile_imp htake
      rw [hpad] at hall
      cases hall
    | inr hdrop => exact hdrop

/-- What is no padding stays. -/
theorem mem_strip {pad : α → Bool} {x : α} (hpad : pad x = false) :
    x ∈ strip pad xs ↔ x ∈ xs := by
  rw [strip, List.rdropWhile, List.mem_reverse, mem_dropWhile hpad,
    List.mem_reverse, mem_dropWhile hpad]

/-! ## Pieces that are cut well -/

/-- No piece but the last holds the separator, and the last one only where no
more cuts were allowed. -/
structure Cuts (sep : α) (n : Nat) (pieces : List (List α)) : Prop where
  nonempty : pieces ≠ []
  bounded : pieces.length ≤ n
  free : ∀ piece ∈ pieces.dropLast, sep ∉ piece
  free_last : pieces.length < n → ∀ piece ∈ pieces, sep ∉ piece

theorem cuts_single (h : n = 1 ∨ 1 < n ∧ sep ∉ piece) : Cuts sep n [piece] where
  nonempty := List.cons_ne_nil _ _
  bounded := by
    rw [List.length_singleton]
    omega
  free := by
    intro p hp
    cases hp
  free_last := by
    intro hlt p hp
    rw [List.length_singleton] at hlt
    rw [List.mem_singleton.mp hp]
    cases h with
    | inl heq => omega
    | inr h => exact h.2

theorem Cuts.cons (h : Cuts sep n pieces) (hfree : sep ∉ piece) :
    Cuts sep (n + 1) (piece :: pieces) where
  nonempty := List.cons_ne_nil _ _
  bounded := Nat.succ_le_succ h.bounded
  free := by
    intro p hp
    rw [List.dropLast_cons_of_ne_nil h.nonempty] at hp
    cases List.mem_cons.mp hp with
    | inl heq => exact heq ▸ hfree
    | inr hp => exact h.free p hp
  free_last := by
    intro hlt p hp
    rw [List.length_cons] at hlt
    cases List.mem_cons.mp hp with
    | inl heq => exact heq ▸ hfree
    | inr hp => exact h.free_last (by omega) p hp

theorem Cuts.tail (h : Cuts sep (n + 1) (piece :: pieces))
    (hne : pieces ≠ []) : Cuts sep n pieces ∧ sep ∉ piece := by
  have hdrop := List.dropLast_cons_of_ne_nil (x := piece) hne
  have hfree := h.free
  rw [hdrop] at hfree
  refine ⟨?_, hfree piece List.mem_cons_self⟩
  exact {
    nonempty := hne
    bounded := Nat.le_of_succ_le_succ h.bounded
    free := fun p hp => hfree p (List.mem_cons_of_mem _ hp)
    free_last := fun hlt p hp =>
      h.free_last (Nat.succ_lt_succ hlt) p (List.mem_cons_of_mem _ hp) }

/-! ## One cut -/

variable [DecidableEq α]

/-- What stands before the first separator, and what after it if there is
one. -/
def cut (sep : α) : List α → List α × Option (List α)
  | [] => ([], none)
  | x :: xs =>
    if x = sep then ([], some xs)
    else (x :: (cut sep xs).1, (cut sep xs).2)


theorem cut_fst_free (sep : α) (xs : List α) : sep ∉ (cut sep xs).1 := by
  induction xs with
  | nil => exact List.not_mem_nil
  | cons x xs ih =>
    rw [cut]
    split
    · exact List.not_mem_nil
    · rename_i hne
      intro hmem
      cases List.mem_cons.mp hmem with
      | inl heq => exact hne heq.symm
      | inr hmem => exact ih hmem

theorem cut_of_free (h : sep ∉ xs) : cut sep xs = (xs, none) := by
  induction xs with
  | nil => rfl
  | cons x xs ih =>
    have hne : x ≠ sep := fun heq => h (heq ▸ List.mem_cons_self)
    have hfree : sep ∉ xs := fun hmem => h (List.mem_cons_of_mem _ hmem)
    rw [cut, if_neg hne, ih hfree]

theorem cut_append (h : sep ∉ piece) :
    cut sep (piece ++ sep :: rest) = (piece, some rest) := by
  induction piece with
  | nil => rw [List.nil_append, cut, if_pos rfl]
  | cons x piece ih =>
    have hne : x ≠ sep := fun heq => h (heq ▸ List.mem_cons_self)
    have hfree : sep ∉ piece := fun hmem => h (List.mem_cons_of_mem _ hmem)
    rw [List.cons_append, cut, if_neg hne, ih hfree]

theorem eq_of_cut_none (h : cut sep xs = (piece, none)) : xs = piece := by
  induction xs generalizing piece with
  | nil =>
    rw [cut] at h
    cases h
    rfl
  | cons x xs ih =>
    rw [cut] at h
    split at h
    · cases h
    · simp only [Prod.mk.injEq] at h
      rw [← h.1]
      exact congrArg (x :: ·) (ih (Prod.ext rfl h.2))

theorem eq_of_cut_some (h : cut sep xs = (piece, some rest)) :
    xs = piece ++ sep :: rest := by
  induction xs generalizing piece with
  | nil =>
    rw [cut] at h
    cases h
  | cons x xs ih =>
    rw [cut] at h
    split at h
    · rename_i heq
      cases h
      rw [heq, List.nil_append]
    · simp only [Prod.mk.injEq] at h
      rw [← h.1, List.cons_append, ← ih (Prod.ext rfl h.2)]

/-! ## All the cuts -/

/-- At most `n` pieces. -/
def splitn (sep : α) : Nat → List α → List (List α)
  | 0, _ => []
  | 1, xs => [xs]
  | n + 2, xs =>
    match cut sep xs with
    | (piece, none) => [piece]
    | (piece, some rest) => piece :: splitn sep (n + 1) rest

theorem length_splitn (n : Nat) (xs : List α) :
    (splitn sep (n + 1) xs).length = min (n + 1) (xs.count sep + 1) := by
  induction n generalizing xs with
  | zero =>
    rw [splitn, List.length_singleton]
    omega
  | succ n ih =>
    have hfree := cut_fst_free sep xs
    rw [splitn]
    split
    · rename_i piece heq
      rw [heq] at hfree
      rw [eq_of_cut_none heq, List.count_eq_zero_of_not_mem hfree,
        List.length_singleton]
      omega
    · rename_i piece rest heq
      rw [heq] at hfree
      rw [eq_of_cut_some heq, List.count_append, List.count_cons_self,
        List.count_eq_zero_of_not_mem hfree, List.length_cons, ih]
      omega

theorem splitn_cuts (n : Nat) (xs : List α) :
    Cuts sep (n + 1) (splitn sep (n + 1) xs) := by
  induction n generalizing xs with
  | zero => exact cuts_single (.inl rfl)
  | succ n ih =>
    have hfree := cut_fst_free sep xs
    rw [splitn]
    split
    · rename_i piece heq
      rw [heq] at hfree
      exact cuts_single (.inr ⟨by omega, hfree⟩)
    · rename_i piece rest heq
      rw [heq] at hfree
      exact (ih rest).cons hfree

/-- The pieces are the list. -/
theorem intercalate_splitn (n : Nat) (xs : List α) :
    [sep].intercalate (splitn sep (n + 1) xs) = xs := by
  induction n generalizing xs with
  | zero => exact List.intercalate_singleton
  | succ n ih =>
    rw [splitn]
    split
    · rename_i piece heq
      rw [List.intercalate_singleton, eq_of_cut_none heq]
    · rename_i piece rest heq
      rw [List.intercalate_cons_of_ne_nil (splitn_cuts n rest).nonempty, ih,
        eq_of_cut_some heq, List.append_assoc, List.singleton_append]

/-- The pieces are found again. -/
theorem Cuts.splitn_intercalate (h : Cuts sep n pieces) :
    splitn sep n ([sep].intercalate pieces) = pieces := by
  induction n generalizing pieces with
  | zero => exact absurd (List.length_eq_zero_iff.mp (Nat.le_zero.mp h.bounded)) h.nonempty
  | succ n ih =>
    cases pieces with
    | nil => exact absurd rfl h.nonempty
    | cons piece pieces =>
      by_cases hlast : pieces = []
      · subst hlast
        rw [List.intercalate_singleton]
        cases n with
        | zero => rfl
        | succ n =>
          have hfree : sep ∉ piece :=
            h.free_last (by simp) piece List.mem_cons_self
          rw [splitn, cut_of_free hfree]
      · obtain ⟨htail, hfree⟩ := h.tail hlast
        have hn : n ≠ 0 := by
          intro hzero
          rw [hzero] at htail
          exact hlast (List.length_eq_zero_iff.mp (Nat.le_zero.mp htail.bounded))
        obtain ⟨m, rfl⟩ := Nat.exists_eq_succ_of_ne_zero hn
        rw [List.intercalate_cons_of_ne_nil hlast, List.append_assoc,
          List.singleton_append, splitn, cut_append hfree]
        simp only
        rw [ih htail]

/-- What a split makes of a list. -/
theorem splitn_eq_iff (hn : 0 < n) :
    splitn sep n xs = pieces ↔ Cuts sep n pieces ∧ [sep].intercalate pieces = xs := by
  obtain ⟨m, rfl⟩ := Nat.exists_eq_succ_of_ne_zero hn.ne'
  constructor
  · intro h
    rw [← h]
    exact ⟨splitn_cuts m xs, intercalate_splitn m xs⟩
  · rintro ⟨hcuts, rfl⟩
    exact hcuts.splitn_intercalate

/-- All the pieces that were asked for. -/
theorem splitn_eq_iff_of_length (hn : 0 < n) (hlen : pieces.length = n) :
    splitn sep n xs = pieces ↔
      (∀ piece ∈ pieces.dropLast, sep ∉ piece) ∧ [sep].intercalate pieces = xs := by
  rw [splitn_eq_iff hn]
  constructor
  · exact fun h => ⟨h.1.free, h.2⟩
  · intro h
    have hne : pieces ≠ [] := by
      intro hnil
      rw [hnil, List.length_nil] at hlen
      omega
    exact ⟨⟨hne, hlen.le, h.1, fun hlt => absurd hlen hlt.ne⟩, h.2⟩

end Splitting
