import Mathlib.Data.List.Basic
import Mathlib.Data.List.Nodup
import Mathlib.Logic.Function.Basic
import Mathlib.Tactic.Basic

/-!
# Lock everywhere, then commit everywhere

A protocol that binds one value at every member of a fixed list.  A claim locks
the members in the order of the list, and gives up what it holds if a member
has a value or is locked.  Once it holds every lock it commits its value at
every member, and only then does it unlock.

Asking a member for its lock has two halves: a look at its value, and the
update of its lock.  Between the two the member may be locked, bound and
unlocked by another claim.  So a claim can come to hold the lock of a member
that is bound.  The next member then refuses it, because a value is committed
everywhere before any lock is released.  Only a claim whose last lock is also
its first has no next member to ask.

`Inv` is the invariant, `Inv.step` says that it is kept, and at most one claim
wins (`Inv.one_winner`).
-/

namespace LockCommit

variable {ν κ π ι : Type}

/-- How far a claim is. -/
inductive Phase (ν : Type) where
  /-- About to look at the value of `u`. -/
  | asking (held : List ν) (u : ν) (rest : List ν)
  /-- About to update the lock of `u`. -/
  | taking (held : List ν) (u : ν) (rest : List ν)
  /-- About to commit at `u`. -/
  | committing (held : List ν) (u : ν) (rest : List ν)
  /-- About to unlock what is left, after a success or a failure.  A claim that
  failed and holds nothing may try again. -/
  | releasing (won : Bool) (rest : List ν)

structure Claim (ν κ π : Type) where
  owner : κ
  value : π
  phase : Phase ν

structure State (ν κ π ι : Type) where
  lock : ν → Option κ
  value : ν → Option π
  claim : ι → Option (Claim ν κ π)

namespace Phase

/-- The members whose locks the claim holds. -/
def held : Phase ν → List ν
  | asking held _ _ | taking held _ _ | committing held _ _ => held
  | releasing _ rest => rest

/-- The members at which the claim has yet to commit. -/
def toCommit : Phase ν → List ν
  | committing _ u rest => u :: rest
  | _ => []

/-- Has the claim held every lock? -/
def decided : Phase ν → Bool
  | committing _ _ _ | releasing true _ => true
  | _ => false

/-- The claim is about to take the last lock. -/
def lastTake : Phase ν → Bool
  | taking _ _ [] => true
  | _ => false

/-- The lists of the phase are parts of the member list. -/
def WellFormed (members : List ν) : Phase ν → Prop
  | asking held u rest | taking held u rest => held ++ u :: rest = members
  | committing held u rest => held = members ∧ u :: rest <:+ members
  | releasing _ rest => rest.Sublist members

/-- What follows a commit. -/
def commitNext (held : List ν) : List ν → Phase ν
  | u :: rest => committing held u rest
  | [] => releasing true held

/-- What follows a lock. -/
def lockNext (held : List ν) : List ν → Phase ν
  | u :: rest => asking held u rest
  | [] => commitNext held held

@[simp] theorem held_commitNext (held rest : List ν) :
    (commitNext held rest).held = held := by
  cases rest <;> rfl

@[simp] theorem toCommit_commitNext (held rest : List ν) :
    (commitNext held rest).toCommit = rest := by
  cases rest <;> rfl

@[simp] theorem decided_commitNext (held rest : List ν) :
    (commitNext held rest).decided = true := by
  cases rest <;> rfl

@[simp] theorem held_lockNext (held rest : List ν) :
    (lockNext held rest).held = held := by
  cases rest with
  | nil => exact held_commitNext held held
  | cons u rest => rfl

theorem wellFormed_commitNext {members rest : List ν}
    (h : rest <:+ members) : (commitNext members rest).WellFormed members := by
  cases rest with
  | nil => exact List.Sublist.refl _
  | cons u rest => exact ⟨rfl, h⟩

theorem wellFormed_lockNext {members held rest : List ν}
    (h : held ++ rest = members) :
    (lockNext held rest).WellFormed members := by
  cases rest with
  | nil =>
    rw [List.append_nil] at h
    rw [h]
    exact wellFormed_commitNext List.suffix_rfl
  | cons u rest => exact h

theorem WellFormed.held_sublist {members : List ν} {p : Phase ν}
    (h : p.WellFormed members) : p.held.Sublist members := by
  cases p with
  | asking held u rest =>
    rw [← show held ++ u :: rest = members from h]
    exact List.sublist_append_left _ _
  | taking held u rest =>
    rw [← show held ++ u :: rest = members from h]
    exact List.sublist_append_left _ _
  | committing held u rest =>
    rw [← h.1]
    exact List.Sublist.refl _
  | releasing won rest => exact h

theorem WellFormed.mem_taking {members held rest : List ν} {u : ν}
    (h : (taking held u rest).WellFormed members) : u ∈ members := by
  rw [← show held ++ u :: rest = members from h]
  exact List.mem_append_right _ (List.mem_cons_self ..)

/-- A claim that has something left to commit holds every lock. -/
theorem WellFormed.held_of_mem_toCommit {members : List ν} {p : Phase ν} {u : ν}
    (hp : p.WellFormed members) (h : u ∈ p.toCommit) : p.held = members := by
  cases p with
  | committing held v rest => exact hp.1
  | _ => cases h

end Phase

open Phase

section Step

variable [DecidableEq ν] [DecidableEq κ] [DecidableEq ι]

/-- The next move of a claim: its phase, and the locks and values after it.
The last lock is taken at a member without a value, if there is no other
member. -/
inductive Move (members : List ν) (s : State ν κ π ι) (c : Claim ν κ π) :
    Phase ν → (ν → Option κ) → (ν → Option π) → Prop where
  | start {u rest} (h : c.phase = releasing false [])
      (hmembers : members = u :: rest) :
      Move members s c (asking [] u rest) s.lock s.value
  | refused {held u rest} (h : c.phase = asking held u rest)
      (hvalue : s.value u ≠ none) :
      Move members s c (releasing false held) s.lock s.value
  | passed {held u rest} (h : c.phase = asking held u rest)
      (hvalue : s.value u = none) :
      Move members s c (taking held u rest) s.lock s.value
  | busy {held u rest} (h : c.phase = taking held u rest)
      (hlock : s.lock u ≠ none) :
      Move members s c (releasing false held) s.lock s.value
  | take {held u rest} (h : c.phase = taking held u rest)
      (hlock : s.lock u = none)
      (hvalue : 2 ≤ members.length ∨ s.value u = none) :
      Move members s c (lockNext (held ++ [u]) rest)
        (Function.update s.lock u (some c.owner)) s.value
  | commit {held u rest} (h : c.phase = committing held u rest) :
      Move members s c (commitNext held rest) s.lock
        (Function.update s.value u (some c.value))
  | unlock {won u rest} (h : c.phase = releasing won (u :: rest)) :
      Move members s c (releasing won rest)
        (if s.lock u = some c.owner then Function.update s.lock u none
          else s.lock) s.value

/-- A claim appears, or makes a move. -/
inductive Step (members : List ν) (s : State ν κ π ι) : State ν κ π ι → Prop
    where
  | appear {i : ι} (owner : κ) (value : π) (hi : s.claim i = none) :
      Step members s { s with
        claim := Function.update s.claim i
          (some ⟨owner, value, releasing false []⟩) }
  | move {i : ι} {c : Claim ν κ π} {phase : Phase ν} {lock : ν → Option κ}
      {value : ν → Option π} (hc : s.claim i = some c)
      (h : Move members s c phase lock value) :
      Step members s
        ⟨lock, value, Function.update s.claim i (some { c with phase })⟩

end Step

/-! ## The invariant -/

/-- The locks are those that the claims hold, one claim each. -/
structure Locks (s : State ν κ π ι) : Prop where
  holds : ∀ i c, s.claim i = some c → ∀ u ∈ c.phase.held,
    s.lock u = some c.owner
  alone : ∀ i j c c', s.claim i = some c → s.claim j = some c' →
    ∀ u ∈ c.phase.held, u ∈ c'.phase.held → i = j
  justified : ∀ u o, s.lock u = some o → ∃ i c, s.claim i = some c ∧
    c.owner = o ∧ u ∈ c.phase.held

/-- The claim `i` has held every lock, and no other will. -/
structure Winner (members : List ν) (s : State ν κ π ι) (i : ι)
    (c : Claim ν κ π) : Prop where
  claim : s.claim i = some c
  decided : c.phase.decided = true
  bound : ∀ u ∈ members, u ∉ c.phase.toCommit → s.value u = some c.value
  unbound : ∀ u, u ∉ members ∨ u ∈ c.phase.toCommit → s.value u = none
  others : ∀ j c', s.claim j = some c' → j ≠ i → c'.phase.decided = false ∧
    (2 ≤ members.length → c'.phase.lastTake = false)

/-- No claim has held every lock yet. -/
structure Undecided (s : State ν κ π ι) : Prop where
  value : ∀ u, s.value u = none
  claim : ∀ i c, s.claim i = some c → c.phase.decided = false

structure Inv (members : List ν) (s : State ν κ π ι) : Prop where
  shape : ∀ i c, s.claim i = some c → c.phase.WellFormed members
  locks : Locks s
  outcome : Undecided s ∨ ∃ i c, Winner members s i c

/-- A state without claims, locks and values. -/
theorem inv_empty {members : List ν} :
    Inv members (⟨fun _ => none, fun _ => none, fun _ => none⟩ :
      State ν κ π ι) where
  shape _ _ h := by cases h
  locks :=
    { holds := fun _ _ h => by cases h
      alone := fun _ _ _ _ h => by cases h
      justified := fun _ _ h => by cases h }
  outcome := Or.inl ⟨fun _ => rfl, fun _ _ h => by cases h⟩

variable {members : List ν} {s : State ν κ π ι} {i : ι} {c : Claim ν κ π}

/-- The lists stay parts of the member list. -/
theorem wellFormed_move [DecidableEq ν] [DecidableEq κ]
    (hshape : c.phase.WellFormed members)
    {phase : Phase ν} {lock : ν → Option κ} {value : ν → Option π}
    (hmove : Move members s c phase lock value) :
    phase.WellFormed members := by
  have hheld := hshape.held_sublist
  cases hmove with
  | start hp hmembers => exact hmembers.symm
  | refused hp hvalue =>
    rw [hp] at hheld
    exact hheld
  | passed hp hvalue =>
    rw [hp] at hshape
    exact hshape
  | busy hp hlock =>
    rw [hp] at hheld
    exact hheld
  | take hp hlock hvalue =>
    rw [hp] at hshape
    refine wellFormed_lockNext ?_
    rw [List.append_assoc]
    exact hshape
  | commit hp =>
    rw [hp] at hshape
    obtain ⟨rfl, hsuffix⟩ := hshape
    exact wellFormed_commitNext ((List.suffix_cons ..).trans hsuffix)
  | unlock hp =>
    rw [hp] at hheld
    exact (List.sublist_cons_self ..).trans hheld

section

variable [DecidableEq ι]

theorem claim_update {f : ι → Option (Claim ν κ π)} {j : ι}
    {d d' : Claim ν κ π} (h : Function.update f i (some d) j = some d') :
    j = i ∧ d' = d ∨ j ≠ i ∧ f j = some d' := by
  by_cases hj : j = i
  · rw [hj, Function.update_self] at h
    exact Or.inl ⟨hj, (Option.some.inj h).symm⟩
  · rw [Function.update_of_ne hj] at h
    exact Or.inr ⟨hj, h⟩

/-! ## What becomes of the locks -/

/-- A claim that holds nothing appears. -/
theorem Locks.appear (h : Locks s) (owner : κ) (value : π)
    (hi : s.claim i = none) :
    Locks { s with
      claim := Function.update s.claim i
        (some ⟨owner, value, releasing false []⟩) } where
  holds j d hd u hu := by
    rcases claim_update hd with ⟨-, rfl⟩ | ⟨-, hold⟩
    · cases hu
    · exact h.holds j d hold u hu
  alone j k d d' hd hd' u hu hu' := by
    rcases claim_update hd with ⟨-, rfl⟩ | ⟨-, hold⟩
    · cases hu
    · rcases claim_update hd' with ⟨-, rfl⟩ | ⟨-, hold'⟩
      · cases hu'
      · exact h.alone j k d d' hold hold' u hu hu'
  justified u o hlock := by
    obtain ⟨j, d, hd, ho, hu⟩ := h.justified u o hlock
    refine ⟨j, d, ?_, ho, hu⟩
    have hj : j ≠ i := by
      rintro rfl
      rw [hi] at hd
      cases hd
    exact (Function.update_of_ne hj ..).trans hd

/-- A claim moves without touching a lock. -/
theorem Locks.keep (h : Locks s) (hc : s.claim i = some c)
    {phase : Phase ν} (hheld : phase.held = c.phase.held)
    (value : ν → Option π) :
    Locks ⟨s.lock, value,
      Function.update s.claim i (some { c with phase })⟩ where
  holds j d hd u hu := by
    rcases claim_update hd with ⟨rfl, rfl⟩ | ⟨-, hold⟩
    · rw [hheld] at hu
      exact h.holds j c hc u hu
    · exact h.holds j d hold u hu
  alone j k d d' hd hd' u hu hu' := by
    rcases claim_update hd with ⟨rfl, rfl⟩ | ⟨-, hold⟩ <;>
      rcases claim_update hd' with ⟨rfl, rfl⟩ | ⟨-, hold'⟩
    · rfl
    · rw [hheld] at hu
      exact h.alone j k c d' hc hold' u hu hu'
    · rw [hheld] at hu'
      exact h.alone j k d c hold hc u hu hu'
    · exact h.alone j k d d' hold hold' u hu hu'
  justified u o hlock := by
    obtain ⟨j, d, hd, ho, hu⟩ := h.justified u o hlock
    by_cases hj : j = i
    · subst hj
      cases hd.symm.trans hc
      exact ⟨j, _, Function.update_self .., ho, hheld ▸ hu⟩
    · exact ⟨j, d, (Function.update_of_ne hj ..).trans hd, ho, hu⟩

/-- A claim takes a lock that is free. -/
theorem Locks.take [DecidableEq ν] (h : Locks s) (hc : s.claim i = some c)
    {phase : Phase ν} {u : ν}
    (hheld : phase.held = c.phase.held ++ [u])
    (hfree : s.lock u = none) :
    Locks ⟨Function.update s.lock u (some c.owner), s.value,
      Function.update s.claim i (some { c with phase })⟩ := by
  -- Nobody holds a lock that is free.
  have hnobody : ∀ j d, s.claim j = some d → u ∉ d.phase.held := by
    intro j d hd hu
    rw [h.holds j d hd u hu] at hfree
    cases hfree
  have hmem : ∀ v, v ∈ phase.held ↔
      v ∈ c.phase.held ∨ v = u := by
    intro v
    rw [hheld, List.mem_append, List.mem_singleton]
  refine ⟨?_, ?_, ?_⟩
  · intro j d hd v hv
    rcases claim_update hd with ⟨rfl, rfl⟩ | ⟨-, hold⟩
    · rcases (hmem v).1 hv with hv | rfl
      · have hne : v ≠ u := by
          rintro rfl
          exact hnobody j c hc hv
        exact (Function.update_of_ne hne ..).trans (h.holds j c hc v hv)
      · exact Function.update_self ..
    · have hne : v ≠ u := by
        rintro rfl
        exact hnobody j d hold hv
      exact (Function.update_of_ne hne ..).trans (h.holds j d hold v hv)
  · intro j k d d' hd hd' v hv hv'
    rcases claim_update hd with ⟨rfl, rfl⟩ | ⟨-, hold⟩ <;>
      rcases claim_update hd' with ⟨rfl, rfl⟩ | ⟨-, hold'⟩
    · rfl
    · rcases (hmem v).1 hv with hv | rfl
      · exact h.alone j k c d' hc hold' v hv hv'
      · exact absurd hv' (hnobody k d' hold')
    · rcases (hmem v).1 hv' with hv' | rfl
      · exact h.alone j k d c hold hc v hv hv'
      · exact absurd hv (hnobody j d hold)
    · exact h.alone j k d d' hold hold' v hv hv'
  · intro v o hlock
    by_cases hv : v = u
    · subst hv
      have ho : some c.owner = some o :=
        (Function.update_self v (some c.owner) s.lock).symm.trans hlock
      exact ⟨i, _, Function.update_self .., Option.some.inj ho,
        (hmem v).2 (Or.inr rfl)⟩
    · replace hlock : s.lock v = some o :=
        (Function.update_of_ne hv ..).symm.trans hlock
      obtain ⟨j, d, hd, ho, hvd⟩ := h.justified v o hlock
      by_cases hj : j = i
      · subst hj
        cases hd.symm.trans hc
        exact ⟨j, _, Function.update_self .., ho, (hmem v).2 (Or.inl hvd)⟩
      · exact ⟨j, d, (Function.update_of_ne hj ..).trans hd, ho, hvd⟩

/-- A claim gives up a lock that it holds. -/
theorem Locks.unlock [DecidableEq ν] (h : Locks s) (hc : s.claim i = some c)
    {phase : Phase ν} {u : ν}
    (hheld : c.phase.held = u :: phase.held)
    (hnodup : (c.phase.held).Nodup) :
    Locks ⟨Function.update s.lock u none, s.value,
      Function.update s.claim i (some { c with phase })⟩ := by
  have hu : u ∈ c.phase.held := by
    rw [hheld]
    exact List.mem_cons_self ..
  have hgone : u ∉ phase.held := by
    rw [hheld, List.nodup_cons] at hnodup
    exact hnodup.1
  have hmem : ∀ v ∈ phase.held, v ∈ c.phase.held := by
    intro v hv
    rw [hheld]
    exact List.mem_cons_of_mem _ hv
  refine ⟨?_, ?_, ?_⟩
  · intro j d hd v hv
    rcases claim_update hd with ⟨rfl, rfl⟩ | ⟨hj, hold⟩
    · have hne : v ≠ u := by
        rintro rfl
        exact hgone hv
      exact (Function.update_of_ne hne ..).trans (h.holds j c hc v (hmem v hv))
    · have hne : v ≠ u := by
        rintro rfl
        exact hj (h.alone j i d c hold hc v hv hu)
      exact (Function.update_of_ne hne ..).trans (h.holds j d hold v hv)
  · intro j k d d' hd hd' v hv hv'
    rcases claim_update hd with ⟨rfl, rfl⟩ | ⟨-, hold⟩ <;>
      rcases claim_update hd' with ⟨rfl, rfl⟩ | ⟨-, hold'⟩
    · rfl
    · exact h.alone j k c d' hc hold' v (hmem v hv) hv'
    · exact h.alone j k d c hold hc v hv (hmem v hv')
    · exact h.alone j k d d' hold hold' v hv hv'
  · intro v o hlock
    have hv : v ≠ u := by
      rintro rfl
      cases (Function.update_self v none s.lock).symm.trans hlock
    replace hlock : s.lock v = some o :=
      (Function.update_of_ne hv ..).symm.trans hlock
    obtain ⟨j, d, hd, ho, hvd⟩ := h.justified v o hlock
    by_cases hj : j = i
    · subst hj
      cases hd.symm.trans hc
      rw [hheld] at hvd
      exact ⟨j, _, Function.update_self .., ho,
        (List.mem_cons.1 hvd).resolve_left hv⟩
    · exact ⟨j, d, (Function.update_of_ne hj ..).trans hd, ho, hvd⟩

theorem Locks.move [DecidableEq ν] [DecidableEq κ] (h : Locks s)
    (hc : s.claim i = some c) (hnodup : c.phase.held.Nodup)
    {phase : Phase ν} {lock : ν → Option κ} {value : ν → Option π}
    (hmove : Move members s c phase lock value) :
    Locks
      ⟨lock, value, Function.update s.claim i (some { c with phase })⟩ := by
  cases hmove with
  | start hp hmembers => exact h.keep hc (by rw [hp]; rfl) s.value
  | refused hp hvalue => exact h.keep hc (by rw [hp]; rfl) s.value
  | passed hp hvalue => exact h.keep hc (by rw [hp]; rfl) s.value
  | busy hp hlock => exact h.keep hc (by rw [hp]; rfl) s.value
  | @take held u rest hp hlock hvalue =>
    refine h.take hc ?_ hlock
    rw [held_lockNext, hp]
    rfl
  | commit hp => exact h.keep hc (by rw [hp, held_commitNext]; rfl) _
  | @unlock won u rest hp =>
    have hu : s.lock u = some c.owner := by
      refine h.holds i c hc u ?_
      rw [hp]
      exact List.mem_cons_self ..
    rw [if_pos hu]
    exact h.unlock hc (by rw [hp]; rfl) hnodup

end

/-! ## What becomes of the outcome -/

/-- Whoever holds every lock leaves none to the others. -/
theorem Locks.held_eq_nil (h : Locks s) (hc : s.claim i = some c)
    (hall : c.phase.held = members) {j : ι} {d : Claim ν κ π}
    (hd : s.claim j = some d) (hj : j ≠ i)
    (hshape : d.phase.WellFormed members) : d.phase.held = [] := by
  rw [List.eq_nil_iff_forall_not_mem]
  intro u hu
  refine hj (h.alone j i d c hd hc u hu ?_)
  rw [hall]
  exact hshape.held_sublist.subset hu

/-- A claim that holds nothing is not about to take the last lock of two or
more. -/
theorem lastTake_of_held_eq_nil {p : Phase ν}
    (hshape : p.WellFormed members) (hnil : p.held = [])
    (hlength : 2 ≤ members.length) : p.lastTake = false := by
  cases p with
  | taking held u rest =>
    cases rest with
    | nil =>
      rw [← show held ++ [u] = members from hshape,
        show held = [] from hnil] at hlength
      exact absurd hlength (by simp)
    | cons v rest => rfl
  | _ => rfl

/-- A member that has no value yet is one that the winner, who holds every
lock, has yet to commit at. -/
theorem Winner.held_of_value (h : Winner members s i c)
    (hshape : c.phase.WellFormed members) {u : ν} (hu : u ∈ members)
    (hvalue : s.value u = none) : c.phase.held = members := by
  by_cases hmem : u ∈ c.phase.toCommit
  · exact hshape.held_of_mem_toCommit hmem
  · rw [h.bound u hu hmem] at hvalue
    cases hvalue

/-- Whoever has held every lock is the winner. -/
theorem winner_of_decided (h : Undecided s ∨ ∃ j d, Winner members s j d)
    (hc : s.claim i = some c) (hd : c.phase.decided = true) :
    Winner members s i c := by
  rcases h with hnone | ⟨j, d, hwin⟩
  · have := hnone.claim i c hc
    rw [hd] at this
    cases this
  · by_cases hj : i = j
    · subst hj
      cases hwin.claim.symm.trans hc
      exact hwin
    · have := (hwin.others i c hc hj).1
      rw [hd] at this
      cases this

/-- A member without a value is one that the winner still holds. -/
theorem Inv.lastTake_of_passed (h : Inv members s) (hc : s.claim i = some c)
    {held rest : List ν} {u : ν} (hp : c.phase = asking held u rest)
    (hvalue : s.value u = none) {j : ι} {d : Claim ν κ π}
    (hwin : Winner members s j d) (hj : j ≠ i)
    (hlength : 2 ≤ members.length) : (taking held u rest).lastTake = false := by
  have hshape := h.shape i c hc
  have htaking : (taking held u rest).WellFormed members := by
    rw [hp] at hshape
    exact hshape
  refine lastTake_of_held_eq_nil htaking ?_ hlength
  have hnil := h.locks.held_eq_nil hwin.claim
    (hwin.held_of_value (h.shape j d hwin.claim) htaking.mem_taking hvalue)
    hc hj.symm hshape
  rw [hp] at hnil
  exact hnil

/-- Once somebody has won, the last lock is out of reach. -/
theorem Inv.not_won_of_lastTake (h : Inv members s) (hc : s.claim i = some c)
    {held : List ν} {u : ν} (hp : c.phase = taking held u [])
    (hlock : s.lock u = none)
    (hvalue : 2 ≤ members.length ∨ s.value u = none) {j : ι}
    {d : Claim ν κ π} : ¬ Winner members s j d := by
  intro hwin
  have hshape := h.shape i c hc
  rw [hp] at hshape
  have hj : i ≠ j := by
    rintro rfl
    cases hwin.claim.symm.trans hc
    have hdecided := hwin.decided
    rw [hp] at hdecided
    cases hdecided
  rcases hvalue with hlength | hvalue
  · have hlast := (hwin.others i c hc hj).2 hlength
    rw [hp] at hlast
    cases hlast
  · have hall := hwin.held_of_value (h.shape j d hwin.claim)
      hshape.mem_taking hvalue
    rw [h.locks.holds j d hwin.claim u
      (by rw [hall]; exact hshape.mem_taking)] at hlock
    cases hlock

section

variable [DecidableEq ι]

theorem outcome_appear (h : Undecided s ∨ ∃ j d, Winner members s j d)
    (hi : s.claim i = none) (owner : κ) (value : π) :
    Undecided { s with
      claim := Function.update s.claim i
        (some ⟨owner, value, releasing false []⟩) } ∨
    ∃ j d, Winner members { s with
      claim := Function.update s.claim i
        (some ⟨owner, value, releasing false []⟩) } j d := by
  rcases h with hnone | ⟨j, d, hwin⟩
  · refine Or.inl ⟨hnone.value, fun k e he => ?_⟩
    rcases claim_update he with ⟨-, rfl⟩ | ⟨-, hold⟩
    · rfl
    · exact hnone.claim k e hold
  · have hj : j ≠ i := by
      rintro rfl
      cases hwin.claim.symm.trans hi
    refine Or.inr ⟨j, d, (Function.update_of_ne hj ..).trans hwin.claim,
      hwin.decided, hwin.bound, hwin.unbound, fun k e he hk => ?_⟩
    rcases claim_update he with ⟨-, rfl⟩ | ⟨-, hold⟩
    · exact ⟨rfl, fun _ => rfl⟩
    · exact hwin.others k e hold hk

/-- A claim that is not decided moves, stays so and commits nothing. -/
theorem outcome_keep (h : Undecided s ∨ ∃ j d, Winner members s j d)
    (hc : s.claim i = some c) (hbefore : c.phase.decided = false)
    {phase : Phase ν} (hafter : phase.decided = false)
    (hlast : ∀ j d, Winner members s j d → j ≠ i → 2 ≤ members.length →
      phase.lastTake = false) (lock : ν → Option κ) :
    Undecided ⟨lock, s.value,
      Function.update s.claim i (some { c with phase })⟩ ∨
    ∃ j d, Winner members ⟨lock, s.value,
      Function.update s.claim i (some { c with phase })⟩ j d := by
  rcases h with hnone | ⟨j, d, hwin⟩
  · refine Or.inl ⟨hnone.value, fun k e he => ?_⟩
    rcases claim_update he with ⟨-, rfl⟩ | ⟨-, hold⟩
    · exact hafter
    · exact hnone.claim k e hold
  · have hj : j ≠ i := by
      rintro rfl
      cases hwin.claim.symm.trans hc
      rw [hwin.decided] at hbefore
      cases hbefore
    refine Or.inr ⟨j, d, (Function.update_of_ne hj ..).trans hwin.claim,
      hwin.decided, hwin.bound, hwin.unbound, fun k e he hk => ?_⟩
    rcases claim_update he with ⟨-, rfl⟩ | ⟨-, hold⟩
    · exact ⟨hafter, hlast j d hwin hj⟩
    · exact hwin.others k e hold hk

/-- The winner moves. -/
theorem Winner.advance (h : Winner members s i c) {phase : Phase ν}
    (hafter : phase.decided = true) {value : ν → Option π}
    (hbound : ∀ u ∈ members, u ∉ phase.toCommit → value u = some c.value)
    (hunbound : ∀ u, u ∉ members ∨ u ∈ phase.toCommit → value u = none)
    (lock : ν → Option κ) :
    Winner members ⟨lock, value,
      Function.update s.claim i (some { c with phase })⟩ i { c with phase } where
  claim := Function.update_self ..
  decided := hafter
  bound := hbound
  unbound := hunbound
  others k e he hk := by
    rcases claim_update he with ⟨rfl, -⟩ | ⟨-, hold⟩
    · exact absurd rfl hk
    · exact h.others k e hold hk

/-- A claim takes the last lock, and is the winner from then on. -/
theorem Undecided.win [DecidableEq ν] (h : Undecided s) (hlocks : Locks s)
    (hshape : ∀ j d, s.claim j = some d → d.phase.WellFormed members)
    (hc : s.claim i = some c) {u : ν}
    (hheld : c.phase.held ++ [u] = members)
    (hfree : s.lock u = none) (lock : ν → Option κ) :
    Winner members ⟨lock, s.value, Function.update s.claim i
      (some { c with phase := commitNext members members })⟩ i
      { c with phase := commitNext members members } := by
  refine ⟨Function.update_self .., decided_commitNext .., ?_,
    fun v _ => h.value v, ?_⟩
  · intro v hv hnot
    rw [toCommit_commitNext] at hnot
    exact absurd hv hnot
  · intro k e he hk
    rcases claim_update he with ⟨rfl, -⟩ | ⟨-, hold⟩
    · exact absurd rfl hk
    · -- Nobody else holds a lock, so a last lock is also a first.
      refine ⟨h.claim k e hold, lastTake_of_held_eq_nil (hshape k e hold) ?_⟩
      rw [List.eq_nil_iff_forall_not_mem]
      intro v hv
      have hmem := (hshape k e hold).held_sublist.subset hv
      rw [← hheld, List.mem_append, List.mem_singleton] at hmem
      rcases hmem with hmem | rfl
      · exact hk (hlocks.alone k i e c hold hc v hv hmem)
      · rw [hlocks.holds k e hold v hv] at hfree
        cases hfree

/-- A claim takes the last lock. -/
theorem Inv.outcome_lastTake [DecidableEq ν] (h : Inv members s)
    (hc : s.claim i = some c) {held : List ν} {u : ν}
    (hp : c.phase = taking held u []) (hlock : s.lock u = none)
    (hvalue : 2 ≤ members.length ∨ s.value u = none) (lock : ν → Option κ) :
    ∃ j d, Winner members ⟨lock, s.value, Function.update s.claim i
      (some { c with phase := lockNext (held ++ [u]) [] })⟩ j d := by
  have hshape := h.shape i c hc
  rw [hp] at hshape
  rcases h.outcome with hnone | ⟨j, d, hwin⟩
  · have hheld : c.phase.held ++ [u] = members := by
      rw [hp]
      exact hshape
    have hnext : lockNext (held ++ [u]) [] = commitNext members members := by
      rw [lockNext, show held ++ [u] = members from hshape]
    rw [hnext]
    exact ⟨i, _, hnone.win h.locks h.shape hc hheld hlock _⟩
  · exact absurd hwin (h.not_won_of_lastTake hc hp hlock hvalue)

/-- The winner commits at one more member. -/
theorem Inv.outcome_commit [DecidableEq ν] (h : Inv members s)
    (hnodup : members.Nodup) (hc : s.claim i = some c) {held rest : List ν}
    {u : ν} (hp : c.phase = committing held u rest) (lock : ν → Option κ) :
    ∃ j d, Winner members ⟨lock, Function.update s.value u (some c.value),
      Function.update s.claim i
        (some { c with phase := commitNext held rest })⟩ j d := by
  have hwin := winner_of_decided h.outcome hc (by rw [hp]; rfl)
  have hshape := h.shape i c hc
  rw [hp] at hshape
  obtain ⟨-, hsuffix⟩ : held = members ∧ u :: rest <:+ members := hshape
  have hu : u ∉ rest :=
    (List.nodup_cons.1 (hsuffix.sublist.nodup hnodup)).1
  refine ⟨i, _, hwin.advance (decided_commitNext ..) ?_ ?_ _⟩
  · intro v hv hnot
    rw [toCommit_commitNext] at hnot
    by_cases hvu : v = u
    · rw [hvu, Function.update_self]
    · rw [Function.update_of_ne hvu]
      refine hwin.bound v hv ?_
      rw [hp]
      exact fun hmem => (List.mem_cons.1 hmem).elim hvu hnot
  · intro v hv
    rw [toCommit_commitNext] at hv
    have hvu : v ≠ u := by
      rintro rfl
      rcases hv with hv | hv
      · exact hv (hsuffix.subset (List.mem_cons_self ..))
      · exact hu hv
    rw [Function.update_of_ne hvu]
    refine hwin.unbound v (hv.imp_right fun hv => ?_)
    rw [hp]
    exact List.mem_cons_of_mem _ hv

/-- The winner gives a lock back. -/
theorem Inv.outcome_unlock (h : Inv members s) (hc : s.claim i = some c)
    {rest : List ν} {u : ν} (hp : c.phase = releasing true (u :: rest))
    (lock : ν → Option κ) :
    ∃ j d, Winner members ⟨lock, s.value, Function.update s.claim i
      (some { c with phase := releasing true rest })⟩ j d := by
  have hwin := winner_of_decided h.outcome hc (by rw [hp]; rfl)
  have hnone : c.phase.toCommit = [] := by
    rw [hp]
    rfl
  refine ⟨i, _, hwin.advance rfl ?_ ?_ _⟩
  · intro v hv _
    exact hwin.bound v hv (by rw [hnone]; exact List.not_mem_nil)
  · intro v hv
    exact hwin.unbound v (hv.imp_right fun hv => absurd hv List.not_mem_nil)

variable [DecidableEq ν] [DecidableEq κ]

theorem Inv.outcome_move (h : Inv members s) (hnodup : members.Nodup)
    (hc : s.claim i = some c) {phase : Phase ν} {lock : ν → Option κ}
    {value : ν → Option π} (hmove : Move members s c phase lock value) :
    Undecided ⟨lock, value,
      Function.update s.claim i (some { c with phase })⟩ ∨
    ∃ j d, Winner members ⟨lock, value,
      Function.update s.claim i (some { c with phase })⟩ j d := by
  cases hmove with
  | start hp hmembers =>
    exact outcome_keep h.outcome hc (by rw [hp]; rfl) rfl
      (fun _ _ _ _ _ => rfl) _
  | refused hp hvalue =>
    exact outcome_keep h.outcome hc (by rw [hp]; rfl) rfl
      (fun _ _ _ _ _ => rfl) _
  | passed hp hvalue =>
    exact outcome_keep h.outcome hc (by rw [hp]; rfl) rfl
      (fun _ _ hwin hj => h.lastTake_of_passed hc hp hvalue hwin hj) _
  | busy hp hlock =>
    exact outcome_keep h.outcome hc (by rw [hp]; rfl) rfl
      (fun _ _ _ _ _ => rfl) _
  | @take held u rest hp hlock hvalue =>
    cases rest with
    | cons v rest =>
      exact outcome_keep h.outcome hc (by rw [hp]; rfl) rfl
        (fun _ _ _ _ _ => rfl) _
    | nil => exact Or.inr (h.outcome_lastTake hc hp hlock hvalue _)
  | commit hp => exact Or.inr (h.outcome_commit hnodup hc hp _)
  | @unlock won u rest hp =>
    cases won with
    | false =>
      exact outcome_keep h.outcome hc (by rw [hp]; rfl) rfl
        (fun _ _ _ _ _ => rfl) _
    | true => exact Or.inr (h.outcome_unlock hc hp _)

theorem Inv.step (h : Inv members s) (hnodup : members.Nodup)
    {t : State ν κ π ι} (hstep : Step members s t) : Inv members t := by
  cases hstep with
  | appear owner value hi =>
    refine ⟨fun j d hd => ?_, h.locks.appear owner value hi,
      outcome_appear h.outcome hi owner value⟩
    rcases claim_update hd with ⟨-, rfl⟩ | ⟨-, hold⟩
    · exact List.nil_sublist _
    · exact h.shape j d hold
  | move hc hmove =>
    refine ⟨fun j d hd => ?_, h.locks.move hc
      ((h.shape _ _ hc).held_sublist.nodup hnodup) hmove,
      h.outcome_move hnodup hc hmove⟩
    rcases claim_update hd with ⟨-, rfl⟩ | ⟨-, hold⟩
    · exact wellFormed_move (h.shape _ _ hc) hmove
    · exact h.shape j d hold

end

/-! ## What the invariant says -/

/-- A step never changes a value. -/
theorem Inv.value_step [DecidableEq ν] [DecidableEq κ] [DecidableEq ι]
    (h : Inv members s) {t : State ν κ π ι} (hstep : Step members s t) {u : ν}
    {p : π} (hvalue : s.value u = some p) : t.value u = some p := by
  cases hstep with
  | appear owner value hi => exact hvalue
  | @move i c phase lock value hc hmove =>
    cases hmove with
    | @commit held v rest hp =>
      have hwin := winner_of_decided h.outcome hc (by rw [hp]; rfl)
      have hu : u ≠ v := by
        rintro rfl
        have hnone := hwin.unbound u
          (Or.inr (by rw [hp]; exact List.mem_cons_self ..))
        rw [hnone] at hvalue
        cases hvalue
      exact (Function.update_of_ne hu ..).trans hvalue
    | _ => exact hvalue

/-- At most one claim wins. -/
theorem Inv.one_winner (h : Inv members s) {j : ι} {d : Claim ν κ π}
    (hc : s.claim i = some c) (hd : s.claim j = some d)
    (hwc : c.phase.decided = true) (hwd : d.phase.decided = true) : i = j := by
  by_contra hne
  have hwin := winner_of_decided h.outcome hd hwd
  rw [(hwin.others i c hc hne).1] at hwc
  cases hwc

/-- A claim that has succeeded has bound its value at every member. -/
theorem Inv.value_of_won (h : Inv members s) {rest : List ν}
    (hc : s.claim i = some c) (hwon : c.phase = releasing true rest) {u : ν}
    (hu : u ∈ members) : s.value u = some c.value := by
  have hwin := winner_of_decided h.outcome hc (by rw [hwon]; rfl)
  refine hwin.bound u hu ?_
  rw [hwon]
  exact List.not_mem_nil

end LockCommit
