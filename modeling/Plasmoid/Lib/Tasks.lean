import Plasmoid.Lib.Machine
import Mathlib.Data.Prod.Lex

/-!
# Pools of jobs

Messages that arrive in any order, and tasks that run in any order, are jobs
of a pool.  To do one job is to take it out, to change what the jobs share, and
to add the jobs that it causes.

A pool runs dry if every job weighs more than the jobs it causes, or lowers a
rank (`measure_lt`).  The weight of a job may depend on what the jobs share, as
long as it does not rise while the rank stays the same.
-/

namespace Machine

/-- Jobs to be done in any order, and what they share. -/
structure Pool (ε J : Type) where
  env : ε
  jobs : List J

/-- Taking one element out leaves the others. -/
theorem mem_eraseIdx_or_eq {α : Type} {l : List α} {i : ℕ} {a b : α}
    (h : l[i]? = some a) (hb : b ∈ l) : b ∈ l.eraseIdx i ∨ b = a := by
  obtain ⟨hlt, hget⟩ := List.getElem?_eq_some_iff.1 h
  rw [← List.take_append_drop i l, List.drop_eq_getElem_cons hlt, hget] at hb
  rw [List.eraseIdx_eq_take_drop_succ, List.mem_append]
  rcases List.mem_append.1 hb with hb | hb
  · exact Or.inl (Or.inl hb)
  · rcases List.mem_cons.1 hb with hb | hb
    · exact Or.inr hb
    · exact Or.inl (Or.inr hb)

/-- Taking an element out takes its share out of a sum. -/
theorem sum_map_eraseIdx {α : Type} {l : List α} {i : ℕ} {a : α}
    (h : l[i]? = some a) (f : α → ℕ) :
    ((l.eraseIdx i).map f).sum + f a = (l.map f).sum := by
  obtain ⟨hlt, hget⟩ := List.getElem?_eq_some_iff.1 h
  have hsplit : (l.map f).sum =
      ((l.take i).map f).sum + (f a + ((l.drop (i + 1)).map f).sum) := by
    conv_lhs => rw [← List.take_append_drop i l]
    rw [List.drop_eq_getElem_cons hlt, hget, List.map_append, List.sum_append,
      List.map_cons, List.sum_cons]
  rw [List.eraseIdx_eq_take_drop_succ, List.map_append, List.sum_append, hsplit]
  omega

namespace Pool

variable {ε J β : Type} {handle : ε → β → J → ε × List J}
variable {p q : Pool ε J} {i : ℕ} {b : β} {j x : J}

/-- Do one job.  `b` is whatever the job leaves open. -/
def work (handle : ε → β → J → ε × List J) (p : Pool ε J) (i : ℕ) (b : β) :
    Option (Pool ε J) :=
  p.jobs[i]?.map fun j =>
    ⟨(handle p.env b j).1, p.jobs.eraseIdx i ++ (handle p.env b j).2⟩

theorem work_cases (h : p.work handle i b = some q) :
    ∃ j, p.jobs[i]? = some j ∧ q = ⟨(handle p.env b j).1,
      p.jobs.eraseIdx i ++ (handle p.env b j).2⟩ := by
  obtain ⟨j, hj, heq⟩ := Option.map_eq_some_iff.1 h
  exact ⟨j, hj, heq.symm⟩

/-- A job stays until it is done. -/
theorem mem_kept (h : p.jobs[i]? = some j) (hx : x ∈ p.jobs) (new : List J) :
    x ∈ p.jobs.eraseIdx i ++ new ∨ x = j :=
  (mem_eraseIdx_or_eq h hx).imp_left (List.mem_append_left _)

theorem mem_before_or_new {new : List J}
    (hx : x ∈ p.jobs.eraseIdx i ++ new) : x ∈ p.jobs ∨ x ∈ new :=
  (List.mem_append.1 hx).imp_left List.mem_of_mem_eraseIdx

/-- A rank, and the weight of all jobs together. -/
def measure (rank : ε → ℕ) (weight : ε → J → ℕ) (p : Pool ε J) : ℕ ×ₗ ℕ :=
  toLex (rank p.env, (p.jobs.map (weight p.env)).sum)

/-- The measure drops if the job lowers the rank, or keeps it and outweighs
the jobs that it causes. -/
theorem measure_lt {rank : ε → ℕ} {weight : ε → J → ℕ} {e : ε} {new : List J}
    (h : p.jobs[i]? = some j)
    (hlower : rank e < rank p.env ∨ rank e = rank p.env ∧
      (∀ x, weight e x ≤ weight p.env x) ∧
      (new.map (weight e)).sum < weight p.env j) :
    measure rank weight ⟨e, p.jobs.eraseIdx i ++ new⟩ <
      measure rank weight p := by
  rcases hlower with hrank | ⟨hrank, hkept, hnew⟩
  · exact Prod.Lex.toLex_lt_toLex.2 (Or.inl hrank)
  · refine Prod.Lex.toLex_lt_toLex.2 (Or.inr ⟨hrank, ?_⟩)
    have hold : ((p.jobs.eraseIdx i).map (weight e)).sum ≤
        ((p.jobs.eraseIdx i).map (weight p.env)).sum :=
      List.sum_le_sum fun x _ => hkept x
    have htaken := sum_map_eraseIdx h (weight p.env)
    show ((p.jobs.eraseIdx i ++ new).map (weight e)).sum <
      (p.jobs.map (weight p.env)).sum
    rw [List.map_append, List.sum_append]
    omega

end Pool

end Machine
