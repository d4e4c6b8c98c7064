import Mathlib.Order.WellFounded
import Mathlib.Tactic

/-!
# Machines and their runs

A machine is a partial step function.  An action names every choice that a
step leaves open (which party moves, which message arrives), so a step is a
function of the state and the action, and `none` means that the action is
not enabled.

`Run step ok s t` is a finite run from `s` to `t` whose steps all satisfy
`ok`.  The condition `ok` may read the state before the step and the action,
never the result.  The four rules of this module are the only inductions
over runs that the development needs:

* `Run.invariant` lifts a step lemma to a run;
* `exec_run` turns an evaluation into a run, for concrete runs;
* `InfiniteRun.exists_bad_step` turns a measure that every good step lowers
  into a bound on the good steps of an infinite run;
* `Run.exists_stuck` runs to a state in which no good step is enabled.
-/

namespace Machine

variable {σ α : Type}

/-- A finite run from one state to another whose steps all satisfy `ok`. -/
inductive Run (step : σ → α → Option σ) (ok : σ → α → Prop) (s : σ) :
    σ → Prop where
  | refl : Run step ok s s
  | tail {t u : σ} {a : α} (run : Run step ok s t) (good : ok t a)
      (next : step t a = some u) : Run step ok s u

/-- No condition on the steps. -/
abbrev anyStep : σ → α → Prop := fun _ _ => True

namespace Run

variable {step : σ → α → Option σ} {ok ok' : σ → α → Prop} {s t u : σ}

theorem single {a : α} (good : ok s a) (next : step s a = some t) :
    Run step ok s t :=
  .tail .refl good next

theorem trans (h₁ : Run step ok s t) (h₂ : Run step ok t u) :
    Run step ok s u := by
  induction h₂ with
  | refl => exact h₁
  | tail _ good next ih => exact .tail ih good next

/-- A step lemma holds along every run. -/
theorem invariant {inv : σ → Prop}
    (hstep : ∀ {s t a}, inv s → ok s a → step s a = some t → inv t)
    (h : Run step ok s t) (h0 : inv s) : inv t := by
  induction h with
  | refl => exact h0
  | tail _ good next ih => exact hstep ih good next

/-- A relation between the ends of a run, from its single steps. -/
theorem relation {inv : σ → Prop} {rel : σ → σ → Prop}
    (hrefl : ∀ s, rel s s) (htrans : ∀ {s t u}, rel s t → rel t u → rel s u)
    (hinv : ∀ {s t a}, inv s → ok s a → step s a = some t → inv t)
    (hstep : ∀ {s t a}, inv s → ok s a → step s a = some t → rel s t)
    (h : Run step ok s t) (h0 : inv s) : rel s t := by
  induction h with
  | refl => exact hrefl _
  | tail run good next ih =>
    exact htrans ih (hstep (run.invariant hinv h0) good next)

/-- A weaker condition admits more runs. -/
theorem mono (hok : ∀ {s a}, ok s a → ok' s a) (h : Run step ok s t) :
    Run step ok' s t := by
  induction h with
  | refl => exact .refl
  | tail _ good next ih => exact .tail ih (hok good) next

end Run

/-! ## Evaluating a run -/

/-- Perform a list of actions, checking `ok` before each one. -/
def exec (step : σ → α → Option σ) (ok : σ → α → Prop)
    [∀ s a, Decidable (ok s a)] : σ → List α → Option σ
  | s, [] => some s
  | s, a :: as =>
    if ok s a then (step s a).bind fun t => exec step ok t as else none

theorem exec_run {step : σ → α → Option σ} {ok : σ → α → Prop}
    [∀ s a, Decidable (ok s a)] {s t : σ} {as : List α}
    (h : exec step ok s as = some t) : Run step ok s t := by
  induction as generalizing s with
  | nil =>
    cases h
    exact .refl
  | cons a as ih =>
    rw [exec] at h
    split at h
    · rename_i good
      obtain ⟨u, hu, hrest⟩ := Option.bind_eq_some_iff.1 h
      exact (Run.single good hu).trans (ih hrest)
    · cases h

/-- A run whose end is described by a test on the state. -/
theorem exec_run_of_any {step : σ → α → Option σ} {ok : σ → α → Prop}
    [∀ s a, Decidable (ok s a)] {s : σ} {p : σ → Prop} [DecidablePred p]
    (as : List α) (h : (exec step ok s as).any (fun t => p t) = true) :
    ∃ t, Run step ok s t ∧ p t := by
  cases hexec : exec step ok s as with
  | none =>
    rw [hexec] at h
    cases h
  | some t =>
    rw [hexec] at h
    exact ⟨t, exec_run hexec, by simpa using h⟩

/-- If every step lowers a well-founded measure, some run cannot go on. -/
theorem Run.exists_stuck {β : Type} [Preorder β] [WellFoundedLT β]
    {step : σ → α → Option σ} {ok : σ → α → Prop} (μ : σ → β)
    (hlt : ∀ {s t a}, step s a = some t → μ t < μ s) (s : σ) :
    ∃ t, Run step ok s t ∧ ∀ a, ok t a → step t a = none := by
  induction s using (InvImage.wf μ wellFounded_lt).induction with
  | _ s ih =>
    by_cases hstuck : ∀ a, ok s a → step s a = none
    · exact ⟨s, .refl, hstuck⟩
    · push Not at hstuck
      obtain ⟨a, ha, hsome⟩ := hstuck
      obtain ⟨t, ht⟩ := Option.ne_none_iff_exists'.1 hsome
      obtain ⟨u, hrun, hu⟩ := ih t (hlt ht)
      exact ⟨u, (Run.single ha ht).trans hrun, hu⟩

/-! ## Infinite runs -/

/-- An infinite run. -/
structure InfiniteRun (step : σ → α → Option σ) where
  state : ℕ → σ
  act : ℕ → α
  next : ∀ i, step (state i) (act i) = some (state (i + 1))

namespace InfiniteRun

variable {step : σ → α → Option σ} {ok : σ → α → Prop}

theorem invariant {inv : σ → Prop} (r : InfiniteRun step)
    (hstep : ∀ {s t a}, inv s → step s a = some t → inv t)
    (h0 : inv (r.state 0)) (i : ℕ) : inv (r.state i) := by
  induction i with
  | zero => exact h0
  | succ i ih => exact hstep ih (r.next i)

/-- If every good step lowers a well-founded measure, the bad steps of an
infinite run never stop. -/
theorem exists_bad_step {β : Type} [Preorder β] [WellFoundedLT β]
    {inv : σ → Prop} (μ : σ → β) (r : InfiniteRun step)
    (hinv : ∀ {s t a}, inv s → step s a = some t → inv t)
    (hlt : ∀ {s t a}, inv s → ok s a → step s a = some t → μ t < μ s)
    (h0 : inv (r.state 0)) (k : ℕ) :
    ∃ i, k ≤ i ∧ ¬ ok (r.state i) (r.act i) := by
  by_contra hnone
  push Not at hnone
  -- From `k` on the measure would descend for ever.
  have hdesc : ∀ n, μ (r.state (k + (n + 1))) < μ (r.state (k + n)) :=
    fun n => hlt (r.invariant hinv h0 (k + n)) (hnone _ (Nat.le_add_right k n))
      (r.next (k + n))
  exact (not_strictAnti_of_wellFoundedLT fun n => μ (r.state (k + n)))
    (strictAnti_nat_of_succ_lt hdesc)

/-- If every step lowers a well-founded measure, no run is infinite. -/
theorem elim_of_measure {β : Type} [Preorder β] [WellFoundedLT β]
    {inv : σ → Prop} (μ : σ → β) (r : InfiniteRun step)
    (hinv : ∀ {s t a}, inv s → step s a = some t → inv t)
    (hlt : ∀ {s t a}, inv s → step s a = some t → μ t < μ s)
    (h0 : inv (r.state 0)) : False := by
  have hlt' : ∀ {s t : σ} {a : α}, inv s → anyStep s a →
      step s a = some t → μ t < μ s := fun hs _ hnext => hlt hs hnext
  obtain ⟨i, -, hbad⟩ := r.exists_bad_step μ hinv hlt' h0 0
  exact hbad trivial

/-- An infinite run from any state of a set that every member can leave into
the set again. -/
theorem exists_of_progress {p : σ → Prop}
    (hp : ∀ s, p s → ∃ a t, step s a = some t ∧ p t) {s : σ} (hs : p s) :
    ∃ r : InfiniteRun step, r.state 0 = s := by
  choose a t hnext ht using hp
  let next : {s // p s} → {s // p s} := fun x => ⟨t x.1 x.2, ht x.1 x.2⟩
  let st : ℕ → {s // p s} := fun n => next^[n] ⟨s, hs⟩
  refine ⟨⟨fun n => (st n).1, fun n => a (st n).1 (st n).2, fun n => ?_⟩, rfl⟩
  have hsucc : st (n + 1) = next (st n) := Function.iterate_succ_apply' next n _
  rw [hsucc]
  exact hnext _ _

end InfiniteRun

end Machine
