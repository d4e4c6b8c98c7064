import Mathlib.Data.List.AList
import Mathlib.Tactic

/-!
# Finite tables and key sets

A hash map is modelled by its live entries.  `Table κ ν` is Mathlib's `AList`
at a constant value type, so key uniqueness is a field of the value and a
table with a repeated key cannot be built.  The order of the entries is the
iteration order of the map.  A hash map promises no order, so a result about
every table is a result about every order.

`KeySet` is the same for a hash set.

Mathlib has `lookup`, `insert` and `erase`.  This module adds the operations
that rewrite or drop many entries at once (`mapValues`, `modify`, `retain`)
and one lookup lemma for each.
-/

/-- The observable content of a hash map: one entry per live key. -/
abbrev Table (κ : Type) (ν : Type) := AList (fun _ : κ => ν)

namespace Table

variable {κ ν : Type} [DecidableEq κ]

/-! ## Rewriting the values -/

/-- Rewrite every value in place. -/
def mapValues (f : κ → ν → ν) (t : Table κ ν) : Table κ ν where
  entries := t.entries.map fun e => ⟨e.1, f e.1 e.2⟩
  nodupKeys := by
    have h := t.nodupKeys
    rw [List.nodupKeys_iff_pairwise] at h ⊢
    exact List.pairwise_map.2 h

/-- `get_mut`: rewrite the value under one key in place, if there is one. -/
def modify (k : κ) (f : ν → ν) (t : Table κ ν) : Table κ ν :=
  mapValues (fun k' v => if k' = k then f v else v) t

/-- `retain`: keep the entries that pass the test. -/
def retain (p : κ → ν → Bool) (t : Table κ ν) : Table κ ν where
  entries := t.entries.filter fun e => p e.1 e.2
  nodupKeys := by
    have h := t.nodupKeys
    rw [List.nodupKeys_iff_pairwise] at h ⊢
    exact h.filter _

private theorem dlookup_map (f : κ → ν → ν) (k : κ) :
    ∀ l : List (Sigma fun _ : κ => ν),
      @List.dlookup κ (fun _ => ν) _ k (l.map fun e => ⟨e.1, f e.1 e.2⟩) =
        (List.dlookup k l).map (f k) := by
  intro l
  induction l with
  | nil => rfl
  | cons e l ih =>
    obtain ⟨k', v⟩ := e
    by_cases h : k' = k
    · subst h
      simp [List.dlookup_cons_eq]
    · simp only [List.map_cons]
      rw [List.dlookup_cons_ne _ _ (Ne.symm h),
        List.dlookup_cons_ne _ _ (Ne.symm h)]
      exact ih

@[simp] theorem lookup_mapValues (f : κ → ν → ν) (t : Table κ ν) (k : κ) :
    (mapValues f t).lookup k = (t.lookup k).map (f k) :=
  dlookup_map f k t.entries

omit [DecidableEq κ] in
@[simp] theorem keys_mapValues (f : κ → ν → ν) (t : Table κ ν) :
    (mapValues f t).keys = t.keys := by
  simp [mapValues, AList.keys, List.keys, Function.comp_def]

theorem lookup_modify (t : Table κ ν) (k k' : κ) (f : ν → ν) :
    (modify k f t).lookup k' =
      if k' = k then (t.lookup k').map f else t.lookup k' := by
  rw [modify, lookup_mapValues]
  split <;> simp

@[simp] theorem lookup_modify_self (t : Table κ ν) (k : κ) (f : ν → ν) :
    (modify k f t).lookup k = (t.lookup k).map f := by
  rw [lookup_modify, if_pos rfl]

@[simp] theorem keys_modify (t : Table κ ν) (k : κ) (f : ν → ν) :
    (modify k f t).keys = t.keys :=
  keys_mapValues _ t

@[simp] theorem mem_modify {t : Table κ ν} {k k' : κ} {f : ν → ν} :
    k' ∈ modify k f t ↔ k' ∈ t := by
  change k' ∈ (modify k f t).keys ↔ k' ∈ t.keys
  rw [keys_modify]

/-! ## Dropping entries -/

private theorem dlookup_filter (p : κ → ν → Bool) (k : κ) :
    ∀ l : List (Sigma fun _ : κ => ν), l.NodupKeys →
      List.dlookup k (l.filter fun e => p e.1 e.2) =
        (List.dlookup k l).filter (p k) := by
  intro l
  induction l with
  | nil => intro _; rfl
  | cons e l ih =>
    intro hl
    obtain ⟨k', v⟩ := e
    obtain ⟨hk', hl'⟩ := List.nodupKeys_cons.1 hl
    by_cases h : k' = k
    · subst h
      -- No later entry has the key, so the answer is decided here.
      have hnone : List.dlookup k' l = none :=
        List.dlookup_eq_none.2 hk'
      rw [List.filter_cons]
      split
      · rename_i hp
        simp [List.dlookup_cons_eq, Option.filter, hp]
      · rename_i hp
        rw [ih hl', hnone]
        simp [List.dlookup_cons_eq, Option.filter, hp]
    · rw [List.filter_cons, List.dlookup_cons_ne _ _ (Ne.symm h)]
      split
      · rw [List.dlookup_cons_ne _ _ (Ne.symm h)]
        exact ih hl'
      · exact ih hl'

@[simp] theorem lookup_retain (p : κ → ν → Bool) (t : Table κ ν) (k : κ) :
    (retain p t).lookup k = (t.lookup k).filter (p k) :=
  dlookup_filter p k t.entries t.nodupKeys

/-! ## Membership through `lookup` -/

theorem mem_iff_lookup {t : Table κ ν} {k : κ} :
    k ∈ t ↔ ∃ v, t.lookup k = some v := by
  rw [← AList.lookup_isSome, Option.isSome_iff_exists]

theorem lookup_some_mem {t : Table κ ν} {k : κ} {v : ν}
    (h : t.lookup k = some v) : k ∈ t :=
  mem_iff_lookup.2 ⟨v, h⟩

theorem lookup_insert_eq (t : Table κ ν) (k k' : κ) (v : ν) :
    (t.insert k v).lookup k' = if k' = k then some v else t.lookup k' := by
  split
  · rename_i h
    subst h
    exact AList.lookup_insert t
  · rename_i h
    exact AList.lookup_insert_ne h

theorem lookup_erase_eq (t : Table κ ν) (k k' : κ) :
    (t.erase k).lookup k' = if k' = k then none else t.lookup k' := by
  split
  · rename_i h
    subst h
    exact AList.lookup_erase _ t
  · rename_i h
    exact AList.lookup_erase_ne h

omit [DecidableEq κ] in
/-- A table that lacks a key of a larger one has fewer entries. -/
theorem length_keys_lt {t t' : Table κ ν} {k : κ} (h : ∀ k, k ∈ t → k ∈ t')
    (hk : k ∉ t) (hk' : k ∈ t') : t.keys.length < t'.keys.length := by
  have hnodup : (k :: t.keys).Nodup := List.nodup_cons.2 ⟨hk, t.keys_nodup⟩
  have hsub : k :: t.keys ⊆ t'.keys := by
    intro x hx
    rcases List.mem_cons.1 hx with rfl | hx
    · exact hk'
    · exact h x hx
  exact (hnodup.subperm hsub).length_le

/-- The keys under which a value passes the test, in iteration order. -/
def keysWhere (p : ν → Bool) (t : Table κ ν) : List κ :=
  (t.entries.filter fun e => p e.2).map Sigma.fst

theorem mem_keysWhere {p : ν → Bool} {t : Table κ ν} {k : κ} :
    k ∈ keysWhere p t ↔ ∃ v, t.lookup k = some v ∧ p v = true := by
  simp only [keysWhere, List.mem_map, List.mem_filter, Sigma.exists]
  constructor
  · rintro ⟨k', v, ⟨hmem, hp⟩, rfl⟩
    exact ⟨v, AList.mem_lookup_iff.2 hmem, hp⟩
  · rintro ⟨v, hv, hp⟩
    exact ⟨k, v, ⟨AList.mem_lookup_iff.1 hv, hp⟩, rfl⟩

end Table

/-- The observable content of a hash set. -/
structure KeySet (α : Type) where
  /-- The elements, in iteration order. -/
  toList : List α
  nodup : toList.Nodup
deriving DecidableEq

namespace KeySet

variable {α : Type}

instance : Membership α (KeySet α) := ⟨fun s a => a ∈ s.toList⟩

instance [DecidableEq α] (a : α) (s : KeySet α) : Decidable (a ∈ s) :=
  inferInstanceAs (Decidable (a ∈ s.toList))

instance : EmptyCollection (KeySet α) := ⟨⟨[], List.nodup_nil⟩⟩

@[simp] theorem mem_toList {s : KeySet α} {a : α} : a ∈ s.toList ↔ a ∈ s :=
  Iff.rfl

@[simp] theorem not_mem_empty (a : α) : a ∉ (∅ : KeySet α) :=
  List.not_mem_nil

/-- Keep the elements that pass the test. -/
def retain (p : α → Bool) (s : KeySet α) : KeySet α :=
  ⟨s.toList.filter p, s.nodup.filter _⟩

@[simp] theorem mem_retain {p : α → Bool} {s : KeySet α} {a : α} :
    a ∈ s.retain p ↔ a ∈ s ∧ p a = true :=
  List.mem_filter

variable [DecidableEq α]

/-- Add an element. -/
def insert (a : α) (s : KeySet α) : KeySet α :=
  ⟨s.toList.insert a, s.nodup.insert⟩

/-- Remove an element. -/
def remove (a : α) (s : KeySet α) : KeySet α :=
  ⟨s.toList.erase a, s.nodup.erase a⟩

@[simp] theorem mem_insert {a b : α} {s : KeySet α} :
    b ∈ s.insert a ↔ b = a ∨ b ∈ s :=
  List.mem_insert_iff

omit [DecidableEq α] in
/-- Fewer elements, a shorter list. -/
theorem length_le {s t : KeySet α} (h : ∀ a, a ∈ s → a ∈ t) :
    s.toList.length ≤ t.toList.length :=
  (s.nodup.subperm h).length_le

/-- Adding an element again changes nothing. -/
theorem insert_of_mem {a : α} {s : KeySet α} (h : a ∈ s) :
    s.insert a = s := by
  cases s
  simp only [insert, KeySet.mk.injEq]
  exact List.insert_of_mem h

@[simp] theorem mem_remove {a b : α} {s : KeySet α} :
    b ∈ s.remove a ↔ b ≠ a ∧ b ∈ s :=
  s.nodup.mem_erase_iff

end KeySet
