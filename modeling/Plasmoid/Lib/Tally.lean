import Plasmoid.Lib.Table

/-!
# Counting in a table

`tally p t` is how many values of the table pass the test.  The lemmas say how
the three ways to change one key change it, by what stands under the key.
-/

namespace Table

variable {κ ν : Type} [DecidableEq κ] {p : ν → Bool} {t : Table κ ν} {k : κ}

/-- How many values pass the test. -/
def tally (p : ν → Bool) (t : Table κ ν) : ℕ :=
  t.entries.countP fun e => p e.2

/-- What a value adds to the count. -/
def share (p : ν → Bool) (v : ν) : ℕ := if p v then 1 else 0

theorem tally_erase {v : ν} (h : t.lookup k = some v) :
    tally p (t.erase k) + share p v = tally p t := by
  have hmem : k ∈ t.entries.keys := lookup_some_mem h
  obtain ⟨v', before, behind, hfresh, hsplit, hkerase⟩ := List.exists_of_kerase hmem
  have hsame : v' = v := by
    have hlookup : t.lookup k = some v' := by
      refine AList.mem_lookup_iff.2 ?_
      rw [hsplit]
      exact List.mem_append_right _ List.mem_cons_self
    exact Option.some_inj.1 (hlookup.symm.trans h)
  subst hsame
  show (t.entries.kerase k).countP _ + _ = t.entries.countP _
  rw [hkerase, hsplit, List.countP_append, List.countP_append, List.countP_cons]
  simp only [share]
  omega

theorem tally_insert (t : Table κ ν) (k : κ) (v : ν) :
    tally p (t.insert k v) = tally p (t.erase k) + share p v :=
  List.countP_cons

theorem erase_of_lookup_none (h : t.lookup k = none) : t.erase k = t := by
  have hk : k ∉ t.entries.keys := AList.lookup_eq_none.1 h
  exact AList.ext (List.kerase_of_notMem_keys hk)

/-- A new key. -/
theorem tally_insert_new (h : t.lookup k = none) (v : ν) :
    tally p (t.insert k v) = tally p t + share p v := by
  rw [tally_insert, erase_of_lookup_none h]

/-- Another value under the same key. -/
theorem tally_replace {v : ν} (h : t.lookup k = some v) (v' : ν) :
    tally p (t.insert k v') + share p v = tally p t + share p v' := by
  have herase := tally_erase (p := p) h
  have hinsert := tally_insert (p := p) t k v'
  omega

end Table
