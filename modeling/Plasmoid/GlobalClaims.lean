import Plasmoid.GlobalNames
import Plasmoid.Lib.LockCommit

/-!
# Claims of one name exclude each other

For each name the calls of `register` run the lock and commit protocol of
`LockCommit`: `view` is what one name sees of the cluster, and every step of a
call is a step of the protocol or leaves the view alone (`simulates`).  The
protocol asks that a lock is never taken from a claim that holds it.  `lock`
compares node ids, so this is true of claims from different nodes only.

* `claims_exclude`: with one call at a time on each node, at most one call
  succeeds, and no table ever rebinds the name.
* `local_claims_exclude`: the calls of one node exclude each other as long as
  none re-enters the lock of another.
* `reentrant_claims_both_succeed`: otherwise two may succeed.
-/

namespace Plasmoid

open LockCommit Machine

/-! ## The view of one name -/

namespace CallPhase

/-- The phase of the protocol.  A call that holds no lock is at its start. -/
def abs : CallPhase → Phase EndpointId
  | settling | checking | sorting _ => .releasing false []
  | locking _ held node rest => .asking held node rest
  | taking _ held node rest => .taking held node rest
  | committing _ held node rest => .committing held node rest
  | releasing _ node rest result => .releasing result.isOk (node :: rest)
  | returned result => .releasing result.isOk []

@[simp] theorem abs_claimed (attempts : Nat) (result : Except ClaimError Unit) :
    (claimed attempts result).abs = .releasing result.isOk [] := by
  unfold claimed
  split <;> rfl

@[simp] theorem abs_releaseLocks (attempts : Nat)
    (result : Except ClaimError Unit) (nodes : List EndpointId) :
    (releaseLocks attempts result nodes).abs =
      .releasing result.isOk nodes := by
  cases nodes with
  | nil => exact abs_claimed attempts result
  | cons node rest => rfl

@[simp] theorem abs_commitAll (attempts : Nat) (held rest : List EndpointId) :
    (commitAll attempts held rest).abs = .commitNext held rest := by
  cases rest with
  | nil => exact abs_releaseLocks attempts (.ok ()) held
  | cons node rest => rfl

@[simp] theorem abs_lockAll (attempts : Nat) (held rest : List EndpointId) :
    (lockAll attempts held rest).abs = .lockNext held rest := by
  cases rest with
  | nil => exact abs_commitAll attempts held held
  | cons node rest => rfl

end CallPhase

/-- The claim that a call makes on a name. -/
def Call.claimOf (name : String) (c : Call) :
    Option (Claim EndpointId EndpointId Pid) :=
  if c.name = name then some ⟨c.home, c.pid, c.phase.abs⟩ else none

theorem Call.claimOf_name (c : Call) :
    c.claimOf c.name = some ⟨c.home, c.pid, c.phase.abs⟩ :=
  if_pos rfl

namespace GlobalClaims

/-- What a name sees of the cluster. -/
def view (name : String) (s : GlobalClaims) :
    State EndpointId EndpointId Pid Nat where
  lock u := (s.node u).locks.lookup name
  value u := s.bound u name
  claim i := s.calls[i]?.bind (Call.claimOf name)

variable {nodes : EndpointId → List EndpointId} {members : List EndpointId}
variable {s t : GlobalClaims} {i : Nat} {c : Call} {name : String}

theorem claim_view (hc : s.calls[i]? = some c) :
    (s.view c.name).claim i = some ⟨c.home, c.pid, c.phase.abs⟩ := by
  show s.calls[i]?.bind _ = _
  rw [hc]
  exact c.claimOf_name

/-- A claim of the view is a call. -/
theorem call_of_claim {d : Claim EndpointId EndpointId Pid}
    (h : (s.view name).claim i = some d) :
    ∃ c, s.calls[i]? = some c ∧ c.name = name ∧
      d = ⟨c.home, c.pid, c.phase.abs⟩ := by
  obtain ⟨c, hc, hd⟩ := Option.bind_eq_some_iff.1 h
  unfold Call.claimOf at hd
  split at hd
  · rename_i hname
    exact ⟨c, hc, hname, (Option.some.inj hd).symm⟩
  · cases hd

theorem view_goto (hc : s.calls[i]? = some c) (phase : CallPhase) :
    (s.goto i c phase).view name = { s.view name with
      claim := Function.update (s.view name).claim i
        (Call.claimOf name { c with phase }) } := by
  obtain ⟨hlt, -⟩ := List.getElem?_eq_some_iff.1 hc
  have hclaim : ((s.goto i c phase).view name).claim =
      Function.update (s.view name).claim i
        (Call.claimOf name { c with phase }) := by
    funext j
    show (s.calls.set i { c with phase })[j]?.bind _ = _
    by_cases hj : j = i
    · subst hj
      rw [List.getElem?_set_self hlt, Function.update_self]
      rfl
    · rw [List.getElem?_set_ne (Ne.symm hj), Function.update_of_ne hj]
      rfl
  rw [← hclaim]
  rfl

/-- A call that stays where it is in the protocol is not seen to move. -/
theorem view_goto_of_claimOf (hc : s.calls[i]? = some c) {phase : CallPhase}
    (h : Call.claimOf name { c with phase } = c.claimOf name) :
    (s.goto i c phase).view name = s.view name := by
  rw [view_goto hc, h, show c.claimOf name = (s.view name).claim i by
    show _ = s.calls[i]?.bind _
    rw [hc]
    rfl, Function.update_eq_self]

theorem view_goto_self (hc : s.calls[i]? = some c) (phase : CallPhase) :
    (s.goto i c phase).view c.name = { s.view c.name with
      claim := Function.update (s.view c.name).claim i
        (some ⟨c.home, c.pid, phase.abs⟩) } := by
  rw [view_goto hc]
  exact congrArg (fun d => { s.view c.name with
    claim := Function.update (s.view c.name).claim i d }) (if_pos rfl)

theorem view_put (u : EndpointId) (g : GlobalNames) :
    (s.put u g).view name = { s.view name with
      lock := Function.update (s.view name).lock u (g.locks.lookup name)
      value := Function.update (s.view name).value u
        (g.names.lookup name) } := by
  have hnode : ∀ {β : Type} (f : GlobalNames → β), (fun v =>
      f (Function.update s.node u g v)) =
      Function.update (fun v => f (s.node v)) u (f g) := by
    intro β f
    funext v
    by_cases hv : v = u
    · subst hv
      rw [Function.update_self, Function.update_self]
    · rw [Function.update_of_ne hv, Function.update_of_ne hv]
  unfold view put bound
  rw [← hnode fun g => g.locks.lookup name, ← hnode fun g => g.names.lookup name]

/-- Nothing is seen of a table that looks the same under the name. -/
theorem view_put_of_lookup {u : EndpointId} {g : GlobalNames}
    (hlocks : g.locks.lookup name = (s.node u).locks.lookup name)
    (hnames : g.names.lookup name = (s.node u).names.lookup name) :
    (s.put u g).view name = s.view name := by
  rw [view_put, hlocks, hnames]
  show State.mk _ _ _ = _
  rw [show (s.node u).locks.lookup name = (s.view name).lock u from rfl,
    show (s.node u).names.lookup name = (s.view name).value u from rfl,
    Function.update_eq_self, Function.update_eq_self]

/-- The calls are not touched by a change of a table. -/
theorem view_put_goto (u : EndpointId) (g : GlobalNames)
    (hc : s.calls[i]? = some c) (phase : CallPhase) :
    ((s.put u g).goto i c phase).view c.name =
      ⟨Function.update (s.view c.name).lock u (g.locks.lookup c.name),
        Function.update (s.view c.name).value u (g.names.lookup c.name),
        Function.update (s.view c.name).claim i
          (some ⟨c.home, c.pid, phase.abs⟩)⟩ := by
  rw [view_goto_self (s := s.put u g) hc, view_put]

/-! ## Every step is a step of the protocol -/

/-- The call takes no lock that its node has already, and it takes the lock of
a lone member while that member has no such name. -/
def freeToTake (members : List EndpointId) (s : GlobalClaims) (c : Call) :
    Prop :=
  match c.phase with
  | .taking _ _ node _ =>
    (s.node node).locks.lookup c.name ≠ some c.home ∧
      (2 ≤ members.length ∨ s.bound node c.name = none)
  | _ => True

instance (members : List EndpointId) (s : GlobalClaims) (c : Call) :
    Decidable (s.freeToTake members c) := by
  unfold freeToTake
  split <;> infer_instance

/-- A call for another name is not seen. -/
theorem view_advance_ne (hc : s.calls[i]? = some c) (hname : c.name ≠ name)
    (h : s.advance nodes i c = some t) : t.view name = s.view name := by
  have hgoto : ∀ (s : GlobalClaims) (phase : CallPhase),
      s.calls[i]? = some c → (s.goto i c phase).view name = s.view name :=
    fun s phase hc => view_goto_of_claimOf hc
      ((if_neg hname).trans (if_neg hname).symm)
  cases hphase : c.phase with
  | settling =>
    simp only [advance, hphase] at h
    cases h
    exact hgoto s _ hc
  | checking =>
    simp only [advance, hphase] at h
    split at h <;> cases h <;> exact hgoto s _ hc
  | sorting attempts =>
    cases attempts <;> simp only [advance, hphase] at h <;> cases h <;>
      exact hgoto s _ hc
  | locking attempts held node rest =>
    simp only [advance, hphase] at h
    split at h <;> cases h <;> exact hgoto s _ hc
  | taking attempts held node rest =>
    simp only [advance, hphase] at h
    split at h <;> cases h
    · rename_i g htake
      rw [GlobalNames.lockTake_eq_some htake]
      exact (hgoto (s.put node _) _ hc).trans
        (view_put_of_lookup (AList.lookup_insert_ne hname.symm) rfl)
    · exact hgoto s _ hc
  | committing attempts held node rest =>
    simp only [advance, hphase] at h
    cases h
    exact (hgoto (s.put node _) _ hc).trans
      (view_put_of_lookup rfl (AList.lookup_insert_ne hname.symm))
  | releasing attempts node rest result =>
    simp only [advance, hphase] at h
    cases h
    exact (hgoto (s.put node _) _ hc).trans
      (view_put_of_lookup (GlobalNames.lookup_unlock_ne _ _ hname.symm)
        (by rw [GlobalNames.names_unlock]))
  | returned result =>
    simp only [advance, hphase] at h
    cases h

/-- A call that stays in its phase of the protocol is not seen to move. -/
theorem view_goto_of_abs (hc : s.calls[i]? = some c) {phase : CallPhase}
    (habs : phase.abs = c.phase.abs) :
    (s.goto i c phase).view c.name = s.view c.name := by
  refine view_goto_of_claimOf hc ?_
  rw [c.claimOf_name, ← habs]
  exact if_pos rfl

/-- A call that moves and touches no table. -/
theorem step_goto (hc : s.calls[i]? = some c) {phase : CallPhase}
    (h : Move members (s.view c.name) ⟨c.home, c.pid, c.phase.abs⟩ phase.abs
      (s.view c.name).lock (s.view c.name).value) :
    Step members (s.view c.name) ((s.goto i c phase).view c.name) := by
  rw [view_goto_self hc]
  exact Step.move (claim_view hc) h

variable {attempts : Nat} {held rest : List EndpointId} {node : EndpointId}

/-- A call starts to ask the members, or has no attempt left. -/
theorem simulates_sorting (hc : s.calls[i]? = some c)
    (hmembers : claimMembers c.home (nodes c.home) = members)
    (hphase : c.phase = .sorting attempts) (h : s.advance nodes i c = some t) :
    t.view c.name = s.view c.name ∨
      Step members (s.view c.name) (t.view c.name) := by
  cases attempts with
  | zero =>
    simp only [advance, hphase] at h
    cases h
    exact Or.inl (view_goto_of_abs hc (by rw [hphase]; rfl))
  | succ attempts =>
    simp only [advance, hphase, hmembers] at h
    cases h
    refine Or.inr (step_goto hc ?_)
    have hne : members ≠ [] := by
      rw [← hmembers, ← List.length_pos_iff, claimMembers,
        List.length_insertionSort]
      simp
    obtain ⟨u, rest, rfl⟩ := List.exists_cons_of_ne_nil hne
    exact Move.start (by rw [hphase]; rfl) rfl

/-- A member is asked for the name. -/
theorem simulates_locking (hc : s.calls[i]? = some c)
    (hphase : c.phase = .locking attempts held node rest)
    (h : s.advance nodes i c = some t) :
    Step members (s.view c.name) (t.view c.name) := by
  simp only [advance, hphase] at h
  split at h
  · rename_i p hcheck
    cases h
    refine step_goto hc ?_
    rw [CallPhase.abs_releaseLocks]
    refine Move.refused (by rw [hphase]; rfl) ?_
    rw [show (s.view c.name).value node = some p from hcheck]
    exact Option.some_ne_none p
  · rename_i hcheck
    cases h
    exact step_goto hc (Move.passed (by rw [hphase]; rfl) hcheck)

/-- A member is asked for the lock. -/
theorem simulates_taking (hc : s.calls[i]? = some c)
    (hphase : c.phase = .taking attempts held node rest)
    (hfree : s.freeToTake members c) (h : s.advance nodes i c = some t) :
    Step members (s.view c.name) (t.view c.name) := by
  simp only [freeToTake, hphase] at hfree
  simp only [advance, hphase, GlobalNames.lockTake] at h
  cases hlock : (s.node node).locks.lookup c.name with
  | some o =>
    have hne : o ≠ c.home := by
      rintro rfl
      exact hfree.1 hlock
    simp only [hlock, if_pos hne] at h
    cases h
    refine step_goto hc ?_
    rw [CallPhase.abs_releaseLocks]
    refine Move.busy (by rw [hphase]; rfl) ?_
    rw [show (s.view c.name).lock node = some o from hlock]
    exact Option.some_ne_none o
  | none =>
    simp only [hlock] at h
    cases h
    rw [view_put_goto _ _ hc, CallPhase.abs_lockAll]
    have htake : Step members _ _ := Step.move (claim_view hc)
      (Move.take (by rw [hphase]; rfl) hlock hfree.2)
    rw [show Function.update (s.view c.name).value node
      ((s.node node).names.lookup c.name) = (s.view c.name).value from
        Function.update_eq_self ..]
    rw [AList.lookup_insert]
    exact htake

/-- A member enters the name. -/
theorem simulates_committing (hc : s.calls[i]? = some c)
    (hphase : c.phase = .committing attempts held node rest)
    (h : s.advance nodes i c = some t) :
    Step members (s.view c.name) (t.view c.name) := by
  simp only [advance, hphase] at h
  cases h
  rw [view_put_goto _ _ hc, CallPhase.abs_commitAll]
  have hcommit : Step members _ _ := Step.move (claim_view hc)
    (Move.commit (by rw [hphase]; rfl))
  rw [GlobalNames.locks_commit, show Function.update (s.view c.name).lock node
    ((s.node node).locks.lookup c.name) = (s.view c.name).lock from
      Function.update_eq_self ..]
  rw [show ((s.node node).commit c.name c.pid).names.lookup c.name =
    some c.pid from AList.lookup_insert _]
  exact hcommit

/-- A member is told to give the lock back. -/
theorem simulates_releasing {result : Except ClaimError Unit}
    (hc : s.calls[i]? = some c)
    (hphase : c.phase = .releasing attempts node rest result)
    (h : s.advance nodes i c = some t) :
    Step members (s.view c.name) (t.view c.name) := by
  simp only [advance, hphase] at h
  cases h
  rw [view_put_goto _ _ hc, CallPhase.abs_releaseLocks]
  have hunlock : Step members _ _ := Step.move (claim_view hc)
    (Move.unlock (by rw [hphase]; rfl))
  rw [GlobalNames.names_unlock, show Function.update (s.view c.name).value node
    ((s.node node).names.lookup c.name) = (s.view c.name).value from
      Function.update_eq_self .., GlobalNames.lookup_unlock]
  rw [apply_ite (Function.update (s.view c.name).lock node),
    show Function.update (s.view c.name).lock node
    ((s.node node).locks.lookup c.name) = (s.view c.name).lock from
      Function.update_eq_self ..]
  exact hunlock

/-- A step of a call is a step of the protocol, or leaves the view of its name
alone. -/
theorem simulates (hc : s.calls[i]? = some c)
    (hmembers : claimMembers c.home (nodes c.home) = members)
    (hfree : s.freeToTake members c) (h : s.advance nodes i c = some t) :
    t.view c.name = s.view c.name ∨
      Step members (s.view c.name) (t.view c.name) := by
  cases hphase : c.phase with
  | settling =>
    simp only [advance, hphase] at h
    cases h
    refine Or.inl (view_goto_of_abs hc ?_)
    rw [hphase]
    split <;> rfl
  | checking =>
    simp only [advance, hphase] at h
    split at h <;> cases h <;>
      exact Or.inl (view_goto_of_abs hc (by rw [hphase]; rfl))
  | sorting attempts => exact simulates_sorting hc hmembers hphase h
  | locking attempts held node rest => exact Or.inr (simulates_locking hc hphase h)
  | taking attempts held node rest =>
    exact Or.inr (simulates_taking hc hphase hfree h)
  | committing attempts held node rest =>
    exact Or.inr (simulates_committing hc hphase h)
  | releasing attempts node rest result =>
    exact Or.inr (simulates_releasing hc hphase h)
  | returned result =>
    simp only [advance, hphase] at h
    cases h

/-! ## Runs -/

/-- A step takes no lock that its node has already. -/
def TakesFreely (members : List EndpointId) (s : GlobalClaims) :
    ClaimAction → Prop
  | .register _ _ _ => True
  | .advance i => ∀ c ∈ s.calls[i]?, s.freeToTake members c

instance (members : List EndpointId) (s : GlobalClaims) (a : ClaimAction) :
    Decidable (s.TakesFreely members a) := by
  cases a <;> unfold TakesFreely <;> infer_instance

/-- A new call locks the members. -/
def LocksMembers (nodes : EndpointId → List EndpointId)
    (members : List EndpointId) : ClaimAction → Prop
  | .register home _ _ => claimMembers home (nodes home) = members
  | .advance _ => True

/-- The invariant of a run in which locks are taken freely. -/
structure ClaimsInv (nodes : EndpointId → List EndpointId)
    (members : List EndpointId) (s : GlobalClaims) : Prop where
  homes : ∀ c ∈ s.calls, claimMembers c.home (nodes c.home) = members
  protocol : ∀ name, LockCommit.Inv members (s.view name)

theorem claimsInv_start : ClaimsInv nodes members start :=
  ⟨fun _ h => absurd h List.not_mem_nil, fun _ => inv_empty⟩

/-- A new call appears in the view of its name. -/
theorem view_register (home : EndpointId) (pid : Pid) (callName name : String) :
    ({ s with calls := s.calls ++ [⟨home, callName, pid, .settling⟩] } :
      GlobalClaims).view name = s.view name ∨
    Step members (s.view name)
      (({ s with calls := s.calls ++ [⟨home, callName, pid, .settling⟩] } :
        GlobalClaims).view name) := by
  have hclaim : (({ s with
      calls := s.calls ++ [⟨home, callName, pid, .settling⟩] } :
        GlobalClaims).view name).claim =
      Function.update (s.view name).claim s.calls.length
        (Call.claimOf name ⟨home, callName, pid, .settling⟩) := by
    funext j
    show (s.calls ++ [_])[j]?.bind _ = _
    by_cases hj : j = s.calls.length
    · rw [hj, List.getElem?_concat_length, Function.update_self]
      rfl
    · rw [Function.update_of_ne hj]
      show _ = s.calls[j]?.bind _
      by_cases hlt : j < s.calls.length
      · rw [List.getElem?_append_left hlt]
      · rw [List.getElem?_eq_none (by simp; omega),
          List.getElem?_eq_none (by omega)]
  have hnew : (s.view name).claim s.calls.length = none := by
    show s.calls[s.calls.length]?.bind _ = none
    rw [List.getElem?_eq_none (le_refl _)]
    rfl
  have hview : ({ s with
      calls := s.calls ++ [⟨home, callName, pid, .settling⟩] } :
        GlobalClaims).view name = { s.view name with
      claim := Function.update (s.view name).claim s.calls.length
        (Call.claimOf name ⟨home, callName, pid, .settling⟩) } := by
    rw [← hclaim]
    rfl
  rw [hview]
  by_cases hname : callName = name
  · rw [show Call.claimOf name ⟨home, callName, pid, .settling⟩ =
      some ⟨home, pid, .releasing false []⟩ from if_pos hname]
    exact Or.inr (Step.appear home pid hnew)
  · rw [show Call.claimOf name ⟨home, callName, pid, .settling⟩ =
      (s.view name).claim s.calls.length from (if_neg hname).trans hnew.symm,
      Function.update_eq_self]
    exact Or.inl rfl

/-- A step of a call changes its phase and no other call. -/
theorem calls_of_advance (h : s.advance nodes i c = some t) :
    ∃ phase, t.calls = s.calls.set i { c with phase } := by
  cases hphase : c.phase with
  | sorting attempts =>
    cases attempts <;> simp only [advance, hphase] at h <;> cases h <;>
      exact ⟨_, rfl⟩
  | returned result =>
    simp only [advance, hphase] at h
    cases h
  | _ =>
    simp only [advance, hphase] at h
    first
    | cases h
      exact ⟨_, rfl⟩
    | split at h <;> cases h <;> exact ⟨_, rfl⟩

/-- Whatever happens, every name sees a step of the protocol or nothing. -/
theorem ClaimsInv.simulates (h : ClaimsInv nodes members s) {a : ClaimAction}
    (hok : s.TakesFreely members a) (hstep : s.step nodes a = some t)
    (name : String) : t.view name = s.view name ∨
      Step members (s.view name) (t.view name) := by
  cases a with
  | register home callName pid =>
    cases hstep
    exact view_register home pid callName name
  | advance i =>
    obtain ⟨c, hc, hadv⟩ := Option.bind_eq_some_iff.1 hstep
    by_cases hname : c.name = name
    · subst hname
      exact GlobalClaims.simulates hc
        (h.homes c (List.mem_of_getElem? hc)) (hok c hc) hadv
    · exact Or.inl (view_advance_ne hc hname hadv)

theorem ClaimsInv.step (h : ClaimsInv nodes members s)
    (hnodup : members.Nodup) {a : ClaimAction}
    (hlocks : LocksMembers nodes members a) (hok : s.TakesFreely members a)
    (hstep : s.step nodes a = some t) : ClaimsInv nodes members t := by
  refine ⟨?_, fun name => ?_⟩
  · cases a with
    | register home callName pid =>
      cases hstep
      intro c hc
      rcases List.mem_append.1 hc with hc | hc
      · exact h.homes c hc
      · cases List.mem_singleton.1 hc
        exact hlocks
    | advance i =>
      obtain ⟨c, hc, hadv⟩ := Option.bind_eq_some_iff.1 hstep
      obtain ⟨phase, hcalls⟩ := calls_of_advance hadv
      intro d hd
      rw [hcalls] at hd
      rcases List.mem_or_eq_of_mem_set hd with hd | rfl
      · exact h.homes d hd
      · exact h.homes c (List.mem_of_getElem? hc)
  · rcases h.simulates hok hstep name with heq | hmove
    · rw [heq]
      exact h.protocol name
    · exact (h.protocol name).step hnodup hmove

/-! ## What a call that succeeded knows -/

theorem claim_of_succeeded (h : s.Succeeded i c) :
    (s.view c.name).claim i = some ⟨c.home, c.pid, .releasing true []⟩ := by
  rw [claim_view h.1, h.2]
  rfl

theorem ClaimsInv.oneOk (h : ClaimsInv nodes members s) : s.OneOk := by
  intro i j c d hc hd hname
  have hc' := claim_of_succeeded hc
  rw [hname] at hc'
  exact (h.protocol d.name).one_winner hc' (claim_of_succeeded hd) rfl rfl

theorem ClaimsInv.bound_of_succeeded (h : ClaimsInv nodes members s)
    (hc : s.Succeeded i c) {u : EndpointId} (hu : u ∈ members) :
    s.bound u c.name = some c.pid :=
  (h.protocol c.name).value_of_won (claim_of_succeeded hc) rfl hu

/-- No table loses or changes a binding. -/
def KeepsBindings (s t : GlobalClaims) : Prop :=
  ∀ (name : String) (u : EndpointId) (p : Pid),
    s.bound u name = some p → t.bound u name = some p

theorem ClaimsInv.keepsBindings (h : ClaimsInv nodes members s)
    {a : ClaimAction} (hok : s.TakesFreely members a)
    (hstep : s.step nodes a = some t) : s.KeepsBindings t := by
  intro name u p hp
  rcases h.simulates hok hstep name with heq | hmove
  · show (t.view name).value u = some p
    rw [heq]
    exact hp
  · exact (h.protocol name).value_step hmove hp

/-! ## One call at a time on each node -/

/-- Every member of the cluster knows all the others. -/
def KnowEachOther (cluster : List EndpointId)
    (nodes : EndpointId → List EndpointId) : Prop :=
  ∀ e ∈ cluster, (nodes e ++ [e]).Perm cluster

/-- A member claims a name for a particle of its own, and has no other call
in progress. -/
def OneCallPerNode (cluster : List EndpointId) (s : GlobalClaims) :
    ClaimAction → Prop
  | .register home _ pid => home ∈ cluster ∧ pid.node = home ∧
    ∀ c ∈ s.calls, c.home = home → c.phase.active = false
  | .advance _ => True

instance (cluster : List EndpointId) (s : GlobalClaims) (a : ClaimAction) :
    Decidable (s.OneCallPerNode cluster a) := by
  cases a <;> unfold OneCallPerNode <;> infer_instance

/-- The calls in progress have different homes. -/
def DistinctHomes (s : GlobalClaims) : Prop :=
  ∀ (i j : Nat) (c d : Call), s.calls[i]? = some c → s.calls[j]? = some d →
    c.home = d.home → c.phase.active = true → d.phase.active = true → i = j

/-- All members sort the same list. -/
theorem claimMembers_of_perm {cluster others : List EndpointId}
    {home : EndpointId} (h : (others ++ [home]).Perm cluster) :
    claimMembers home others = cluster.insertionSort (· ≤ ·) :=
  (((List.perm_insertionSort _ _).trans h).trans
    (List.perm_insertionSort _ _).symm).eq_of_sortedLE
      List.sortedLE_insertionSort List.sortedLE_insertionSort

theorem active_of_held {phase : CallPhase} {u : EndpointId}
    (h : u ∈ phase.abs.held) : phase.active = true := by
  cases phase with
  | returned result => cases h
  | _ => rfl

/-- A node with one call in progress re-enters no lock. -/
theorem ClaimsInv.takesFreely (h : ClaimsInv nodes members s)
    (hnodup : members.Nodup) (hlength : 2 ≤ members.length)
    (hhomes : s.DistinctHomes) (a : ClaimAction) :
    s.TakesFreely members a := by
  cases a with
  | register home callName pid => trivial
  | advance i =>
    intro c hc
    replace hc : s.calls[i]? = some c := hc
    unfold freeToTake
    split
    · rename_i attempts held u rest hphase
      refine ⟨fun hlock => ?_, Or.inl hlength⟩
      -- Whoever holds the lock is this very call, which has yet to take it.
      have hinv := h.protocol c.name
      obtain ⟨j, claim, hclaim, howner, hheld⟩ :=
        hinv.locks.justified u c.home hlock
      obtain ⟨d, hd, -, rfl⟩ := call_of_claim hclaim
      have hactive : c.phase.active = true := by
        rw [hphase]
        rfl
      have hji := hhomes j i d c hd hc howner (active_of_held hheld) hactive
      rw [hji] at hd
      cases hd.symm.trans hc
      have hshape := hinv.shape i _ (claim_view hc)
      simp only [hphase, CallPhase.abs, Phase.held] at hheld
      simp only [hphase, CallPhase.abs, Phase.WellFormed] at hshape
      rw [← hshape, List.nodup_append] at hnodup
      exact hnodup.2.2 u hheld u (List.mem_cons_self ..) rfl
    · trivial

theorem DistinctHomes.step {cluster : List EndpointId} (h : s.DistinctHomes)
    {a : ClaimAction} (hone : s.OneCallPerNode cluster a)
    (hstep : s.step nodes a = some t) : t.DistinctHomes := by
  cases a with
  | register home callName pid =>
    cases hstep
    -- An old call in progress has another home than the new one.
    have hold : ∀ (i : Nat) (c : Call),
        (s.calls ++ [⟨home, callName, pid, .settling⟩])[i]? = some c →
        c.phase.active = true → s.calls[i]? = some c ∧ c.home ≠ home ∨
          i = s.calls.length ∧ c.home = home := by
      intro i c hc hactive
      by_cases hi : i < s.calls.length
      · rw [List.getElem?_append_left hi] at hc
        refine Or.inl ⟨hc, fun hhome => ?_⟩
        rw [hone.2.2 c (List.mem_of_getElem? hc) hhome] at hactive
        cases hactive
      · rw [List.getElem?_append_right (by omega)] at hc
        obtain ⟨hlt, heq⟩ := List.getElem?_eq_some_iff.1 hc
        rw [List.length_singleton] at hlt
        have hlen : i = s.calls.length := by omega
        subst hlen
        simp only [Nat.sub_self, List.getElem_cons_zero] at heq
        exact Or.inr ⟨rfl, by rw [← heq]⟩
    intro i j c d hc hd hhome hci hdi
    rcases hold i c hc hci with ⟨hc, hch⟩ | ⟨rfl, hch⟩ <;>
      rcases hold j d hd hdi with ⟨hd, hdh⟩ | ⟨rfl, hdh⟩
    · exact h i j c d hc hd hhome hci hdi
    · exact absurd (hhome.trans hdh) hch
    · exact absurd (hhome.symm.trans hch) hdh
    · rfl
  | advance k =>
    obtain ⟨b, hb, hadv⟩ := Option.bind_eq_some_iff.1 hstep
    obtain ⟨phase, hcalls⟩ := calls_of_advance hadv
    have hactive := active_of_advance hadv
    obtain ⟨hlt, -⟩ := List.getElem?_eq_some_iff.1 hb
    -- A call in progress was in progress before, with the same home.
    have hold : ∀ (i : Nat) (c : Call), t.calls[i]? = some c →
        c.phase.active = true → ∃ c', s.calls[i]? = some c' ∧
          c'.home = c.home ∧ c'.phase.active = true := by
      intro i c hc hci
      rw [hcalls] at hc
      by_cases hi : i = k
      · subst hi
        rw [List.getElem?_set_self hlt] at hc
        cases hc
        exact ⟨b, hb, rfl, hactive⟩
      · rw [List.getElem?_set_ne (Ne.symm hi)] at hc
        exact ⟨c, hc, rfl, hci⟩
    intro i j c d hc hd hhome hci hdi
    obtain ⟨c', hc', hch, hci'⟩ := hold i c hc hci
    obtain ⟨d', hd', hdh, hdi'⟩ := hold j d hd hdi
    exact h i j c' d' hc' hd' (hch.trans (hhome.trans hdh.symm)) hci' hdi'

/-- The invariant of a cluster whose nodes make one call at a time. -/
structure OneCallInv (nodes : EndpointId → List EndpointId)
    (members : List EndpointId) (s : GlobalClaims) : Prop where
  claims : ClaimsInv nodes members s
  homes : s.DistinctHomes

theorem OneCallInv.step {cluster : List EndpointId}
    (h : OneCallInv nodes (cluster.insertionSort (· ≤ ·)) s)
    (hnodup : cluster.Nodup) (hlength : 2 ≤ cluster.length)
    (hknow : KnowEachOther cluster nodes) {a : ClaimAction}
    (hone : s.OneCallPerNode cluster a) (hstep : s.step nodes a = some t) :
    OneCallInv nodes (cluster.insertionSort (· ≤ ·)) t ∧
      s.KeepsBindings t := by
  have hsorted : (cluster.insertionSort (· ≤ ·)).Nodup :=
    (List.perm_insertionSort _ _).nodup_iff.2 hnodup
  have hfree := h.claims.takesFreely hsorted
    (by rw [List.length_insertionSort]; exact hlength) h.homes a
  have hlocks : LocksMembers nodes (cluster.insertionSort (· ≤ ·)) a := by
    cases a with
    | register home callName pid =>
      exact claimMembers_of_perm (hknow home hone.1)
    | advance i => trivial
  exact ⟨⟨h.claims.step hsorted hlocks hfree hstep, h.homes.step hone hstep⟩,
    h.claims.keepsBindings hfree hstep⟩

/-- In a cluster of two or more nodes that make one call at a time, at most
one call for a name succeeds, and no table ever binds the name to another pid
than it did before. -/
theorem claims_exclude (cluster : List EndpointId)
    (nodes : EndpointId → List EndpointId) (hnodup : cluster.Nodup)
    (hlength : 2 ≤ cluster.length) (hknow : KnowEachOther cluster nodes)
    (s : GlobalClaims)
    (h : Run (step nodes) (OneCallPerNode cluster) start s) :
    s.OneOk ∧ ∀ t, Run (step nodes) (OneCallPerNode cluster) s t →
      ∀ (name : String) (u : EndpointId) (p q : Pid),
        s.bound u name = some p → t.bound u name = some q → p = q := by
  have hinv : OneCallInv nodes (cluster.insertionSort (· ≤ ·)) s := by
    refine h.invariant (fun hinv hone hstep =>
      (hinv.step hnodup hlength hknow hone hstep).1) ⟨claimsInv_start, ?_⟩
    intro i j c d hc
    cases hc
  refine ⟨hinv.claims.oneOk, fun t hrun name u p q hp hq => ?_⟩
  have hkept : s.KeepsBindings t :=
    hrun.relation (fun _ _ _ _ hp => hp)
      (fun h₁ h₂ name u p hp => h₂ name u p (h₁ name u p hp))
      (fun hinv hone hstep =>
        (hinv.step hnodup hlength hknow hone hstep).1)
      (fun hinv hone hstep =>
        (hinv.step hnodup hlength hknow hone hstep).2) hinv
  exact Option.some.inj ((hkept name u p hp).symm.trans hq)

/-- Two nodes claim one name.  The second looks at the tables before the first
locks, and takes its first lock after the first has unlocked. -/
def lateLock : List ClaimAction :=
  [.register ⟨1⟩ "svc" ⟨⟨1⟩, 1⟩, .register ⟨2⟩ "svc" ⟨⟨2⟩, 1⟩] ++
    List.replicate 4 (.advance 1) ++ List.replicate 11 (.advance 0) ++
    List.replicate 3 (.advance 1)

theorem claims_exclude_lateLock :
    ∃ s, Run (step fun e => if e = ⟨1⟩ then [⟨2⟩] else [⟨1⟩])
        (OneCallPerNode [⟨1⟩, ⟨2⟩]) start s ∧
      (s.calls.map fun c => c.phase) = [.returned (.ok ()),
        .returned (.error (.taken ⟨⟨1⟩, 1⟩))] ∧ s.OneOk := by
  obtain ⟨s, hrun, hs⟩ : ∃ s, Run (step fun e => if e = ⟨1⟩ then [⟨2⟩] else [⟨1⟩])
        (OneCallPerNode [⟨1⟩, ⟨2⟩]) start s ∧
      (s.calls.map fun c => c.phase) = [.returned (.ok ()),
        .returned (.error (.taken ⟨⟨1⟩, 1⟩))] :=
    exec_run_of_any (α := ClaimAction) lateLock (by decide +kernel)
  exact ⟨s, hrun, hs, (claims_exclude [⟨1⟩, ⟨2⟩] _ (by decide) (by decide)
    (by unfold KnowEachOther; decide) s hrun).1⟩

/-! ## The calls of one node -/

/-- The particles of `me` claim names, one call a particle. -/
def ByParticlesOf (me : EndpointId) (s : GlobalClaims) : ClaimAction → Prop
  | .register home _ pid => home = me ∧ pid.node = me ∧
    ∀ c ∈ s.calls, c.pid ≠ pid
  | .advance _ => True

instance (me : EndpointId) (s : GlobalClaims) (a : ClaimAction) :
    Decidable (s.ByParticlesOf me a) := by
  cases a <;> unfold ByParticlesOf <;> infer_instance

/-- At most one call for each name succeeded, and every member binds the name
to its particle. -/
def OneOwner (members : List EndpointId) (s : GlobalClaims) : Prop :=
  s.OneOk ∧ ∀ i c, s.Succeeded i c → ∀ u ∈ members,
    s.bound u c.name = some c.pid

/-- The calls of one node exclude each other in every run in which none takes
a lock that its node has already.  A node that is alone has to find the name
unbound when it takes the lock. -/
theorem local_claims_exclude (me : EndpointId) (others : List EndpointId)
    (hnodup : (others ++ [me]).Nodup) (s : GlobalClaims)
    (h : Run (step fun _ => others) (fun s a => s.ByParticlesOf me a ∧
      s.TakesFreely (claimMembers me others) a) start s) :
    s.OneOwner (claimMembers me others) := by
  have hsorted : (claimMembers me others).Nodup :=
    (List.perm_insertionSort _ _).nodup_iff.2 hnodup
  have hinv : ClaimsInv (fun _ => others) (claimMembers me others) s := by
    refine h.invariant (fun {s t a} hinv hok hstep => ?_) claimsInv_start
    refine hinv.step hsorted ?_ hok.2 hstep
    cases a with
    | register home callName pid => exact congrArg (claimMembers · others) hok.1.1
    | advance i => trivial
  exact ⟨hinv.oneOk, fun i c hc u hu => hinv.bound_of_succeeded hc hu⟩

/-- Two particles of one node claim one name, one after the other. -/
def inTurn : List ClaimAction :=
  [.register ⟨1⟩ "svc" ⟨⟨1⟩, 1⟩, .register ⟨1⟩ "svc" ⟨⟨1⟩, 2⟩] ++
    List.replicate 11 (.advance 0) ++ List.replicate 4 (.advance 1)

theorem local_claims_exclude_inTurn :
    ∃ s, Run (step fun _ => [⟨2⟩]) (fun s a => s.ByParticlesOf ⟨1⟩ a ∧
        s.TakesFreely (claimMembers ⟨1⟩ [⟨2⟩]) a) start s ∧
      (s.calls.map fun c => c.phase) = [.returned (.ok ()),
        .returned (.error (.taken ⟨⟨1⟩, 1⟩))] ∧
      s.OneOwner (claimMembers ⟨1⟩ [⟨2⟩]) := by
  obtain ⟨s, hrun, hs⟩ : ∃ s, Run (step fun _ => [⟨2⟩])
        (fun s a => s.ByParticlesOf ⟨1⟩ a ∧
          s.TakesFreely (claimMembers ⟨1⟩ [⟨2⟩]) a) start s ∧
      (s.calls.map fun c => c.phase) = [.returned (.ok ()),
        .returned (.error (.taken ⟨⟨1⟩, 1⟩))] :=
    exec_run_of_any (α := ClaimAction) inTurn (by decide +kernel)
  exact ⟨s, hrun, hs, local_claims_exclude ⟨1⟩ [⟨2⟩] (by decide) s hrun⟩

/-- Two particles of one node claim one name.  The second call takes every
lock again while the first holds it. -/
def reentrant : List ClaimAction :=
  [.register ⟨1⟩ "svc" ⟨⟨1⟩, 1⟩, .register ⟨1⟩ "svc" ⟨⟨1⟩, 2⟩] ++
    List.replicate 7 (.advance 0) ++ List.replicate 7 (.advance 1) ++
    List.replicate 4 (.advance 0) ++ List.replicate 4 (.advance 1)

/-- Both calls succeed. -/
theorem reentrant_claims_both_succeed :
    ¬ ∀ (me : EndpointId) (others : List EndpointId),
      (others ++ [me]).Nodup → ∀ s : GlobalClaims,
        Run (step fun _ => others) (ByParticlesOf me) start s →
          s.OneOwner (claimMembers me others) := by
  intro h
  obtain ⟨s, hrun, hfirst, hsecond⟩ : ∃ s,
      Run (step fun _ => [⟨2⟩]) (ByParticlesOf ⟨1⟩) start s ∧
      s.Succeeded 0 ⟨⟨1⟩, "svc", ⟨⟨1⟩, 1⟩, .returned (.ok ())⟩ ∧
      s.Succeeded 1 ⟨⟨1⟩, "svc", ⟨⟨1⟩, 2⟩, .returned (.ok ())⟩ :=
    exec_run_of_any (α := ClaimAction) reentrant (by decide +kernel)
  cases (h ⟨1⟩ [⟨2⟩] (by decide) s hrun).1 0 1 _ _ hfirst hsecond rfl

end GlobalClaims

end Plasmoid
