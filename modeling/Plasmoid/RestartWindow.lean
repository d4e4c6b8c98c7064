import Plasmoid.Lib.Window
import Plasmoid.SupervisorPlans

/-!
# The restart intensity

A supervisor gives up when it has restarted more children than its intensity
allows within a period.  It keeps the times of its restarts in a queue, prunes
the queue from the front, and only when it restarts.  The queue is a sliding
window over all the restarts it has decided so far, so the brake trips exactly
when the window is too full.
-/

namespace Plasmoid

open Window

/-- A call of `on_child_exit`. -/
structure ChildExit where
  id : String
  reason : ExitReason
  nowMs : UInt64

namespace Supervisor

/-- The state after a child exited. -/
def exited (sup : Supervisor) (e : ChildExit) : Supervisor :=
  (sup.onChildExit e.id e.reason e.nowMs).1

/-- The actions for an exit end the supervisor. -/
def GivesUp (sup : Supervisor) (e : ChildExit) : Prop :=
  .giveUp ∈ (sup.onChildExit e.id e.reason e.nowMs).2

instance (sup : Supervisor) (e : ChildExit) : Decidable (sup.GivesUp e) :=
  inferInstanceAs (Decidable (_ ∈ _))

/-- The state after some exits. -/
def afterExits (sup : Supervisor) (exits : List ChildExit) : Supervisor :=
  exits.foldl exited sup

/-- The supervisor takes all the exits without giving up. -/
def Endures (sup : Supervisor) : List ChildExit → Prop
  | [] => True
  | e :: exits => ¬ sup.GivesUp e ∧ (sup.exited e).Endures exits

instance decidableEndures : ∀ (exits : List ChildExit) (sup : Supervisor),
    Decidable (sup.Endures exits)
  | [], _ => isTrue trivial
  | e :: exits, sup =>
    have := decidableEndures exits (sup.exited e)
    inferInstanceAs (Decidable (_ ∧ _))

/-- How many children the supervisor decides to restart. -/
def restartCount (flags : SupFlags) (children : List ChildSpec) (e : ChildExit) :
    Nat :=
  match indexOf children e.id with
  | none => 0
  | some idx =>
    if (children.get idx).restart.restarts e.reason then
      ((affected flags.strategy children idx).filter fun i =>
        (children.get i).restart ≠ .temporary).length
    else 0

/-- How many restarts were decided at most a period before `nowMs`. -/
def restartsWithin (flags : SupFlags) (children : List ChildSpec)
    (exits : List ChildExit) (nowMs : UInt64) : Nat :=
  ((exits.filter fun e =>
    nowMs.toNat ≤ e.nowMs.toNat + flags.periodMs.toNat).map
      (restartCount flags children)).sum

/-! ## One call -/

@[simp] theorem flags_onChildExit (sup : Supervisor) (id : String)
    (reason : ExitReason) (nowMs : UInt64) :
    (sup.onChildExit id reason nowMs).1.flags = sup.flags := by
  obtain ⟨-, h⟩ | ⟨idx, -, h | ⟨restarts, h | h⟩⟩ :=
    sup.onChildExit_cases id reason nowMs
  · rw [h]
  · rw [h]
  · rw [h]
  · rw [h]
    rfl

theorem forgetRestartsBefore_eq (cutoff : UInt64) (restarts : List UInt64) :
    forgetRestartsBefore cutoff restarts =
      expire UInt64.toNat cutoff.toNat restarts := by
  unfold forgetRestartsBefore expire
  congr 1

/-- What the restarting loop counts. -/
theorem count_foldl_restartTurn (children : List ChildSpec)
    (is : List (Fin children.length)) (running : Fin children.length → Bool)
    (actions : List Action) (n : UInt32) :
    (is.foldl (restartTurn children) (running, actions, n)).2.2 =
      n + UInt32.ofNat
        (is.filter fun i => (children.get i).restart ≠ .temporary).length := by
  induction is generalizing running actions n with
  | nil => simp
  | cons i is ih =>
    rw [List.foldl_cons, restartTurn]
    split
    · rename_i h
      rw [ih, List.filter_cons_of_neg (by simpa using h)]
    · rename_i h
      rw [ih, List.filter_cons_of_pos (by simpa using h), List.length_cons,
        Nat.add_comm, UInt32.ofNat_add, ← UInt32.add_assoc]
      rfl

theorem length_affected_le (strategy : Strategy) (children : List ChildSpec)
    (idx : Fin children.length) :
    (affected strategy children idx).length ≤ children.length := by
  have h := (nodup_affected strategy children idx).length_le_card
  rwa [Fintype.card_fin] at h

theorem restartCount_le (flags : SupFlags) (children : List ChildSpec)
    (e : ChildExit) : restartCount flags children e ≤ children.length := by
  unfold restartCount
  split
  · exact Nat.zero_le _
  · split
    · exact (List.length_filter_le _ _).trans (length_affected_le _ _ _)
    · exact Nat.zero_le _

theorem mem_affected (strategy : Strategy) (children : List ChildSpec)
    (idx : Fin children.length) : idx ∈ affected strategy children idx := by
  cases strategy with
  | oneForOne => exact List.mem_singleton_self idx
  | oneForAll => exact mem_positions idx
  | restForOne =>
    have hlength : (idx : ℕ) < (positions children).length := by
      simp [positions]
    refine List.mem_drop_iff_getElem.2 ⟨0, by simpa using hlength, ?_⟩
    simp [positions]

theorem restartCount_of_restarts (flags : SupFlags) {children : List ChildSpec}
    {e : ChildExit} {idx : Fin children.length}
    (hidx : indexOf children e.id = some idx)
    (hrestarts : (children.get idx).restart.restarts e.reason = true) :
    restartCount flags children e =
      ((affected flags.strategy children idx).filter fun i =>
        (children.get i).restart ≠ .temporary).length := by
  rw [restartCount, hidx]
  exact if_pos hrestarts

/-- A call that restarts somebody restarts the child that exited. -/
theorem restartCount_pos (flags : SupFlags) {children : List ChildSpec}
    {e : ChildExit} {idx : Fin children.length}
    (hidx : indexOf children e.id = some idx)
    (hrestarts : (children.get idx).restart.restarts e.reason = true) :
    0 < restartCount flags children e := by
  have hkept : (children.get idx).restart ≠ .temporary := by
    intro htemp
    rw [htemp] at hrestarts
    cases hrestarts
  rw [restartCount_of_restarts flags hidx hrestarts]
  exact List.length_pos_of_mem
    (List.mem_filter.2 ⟨mem_affected _ _ _, by simpa using hkept⟩)

/-- What one call does to the queue, and when it gives up. -/
theorem exited_spec (sup : Supervisor) (e : ChildExit)
    (hsmall : sup.children.length < 2 ^ 32) :
    (restartCount sup.flags sup.children e = 0 ∧ ¬ sup.GivesUp e ∧
      (sup.exited e).restarts = sup.restarts) ∨
    (0 < restartCount sup.flags sup.children e ∧
      (sup.exited e).restarts =
        expire UInt64.toNat (saturatingSub e.nowMs sup.flags.periodMs).toNat
          (sup.restarts ++
            List.replicate (restartCount sup.flags sup.children e) e.nowMs) ∧
      (sup.GivesUp e ↔
        sup.flags.intensity < UInt32.ofNat (sup.exited e).restarts.length)) := by
  cases hidx : indexOf sup.children e.id with
  | none =>
    have hexit : sup.onChildExit e.id e.reason e.nowMs = (sup, []) := by
      rw [onChildExit, hidx]
    left
    refine ⟨by rw [restartCount, hidx], ?_, by rw [exited, hexit]⟩
    rw [GivesUp, hexit]
    exact List.not_mem_nil
  | some idx =>
    cases hrestarts : (sup.children.get idx).restart.restarts e.reason with
    | false =>
      left
      refine ⟨?_, ?_, ?_⟩
      · simp only [restartCount, hidx, hrestarts]
        rfl
      · simp only [GivesUp, onChildExit, hidx, hrestarts]
        exact List.not_mem_nil
      · simp only [exited, onChildExit, hidx, hrestarts]
        rfl
    | true =>
      right
      have hcount : (sup.restartLoops idx).2.2.toNat =
          restartCount sup.flags sup.children e := by
        have hle := restartCount_le sup.flags sup.children e
        rw [restartCount_of_restarts sup.flags hidx hrestarts] at hle ⊢
        rw [restartLoops, count_foldl_restartTurn, UInt32.zero_add,
          UInt32.toNat_ofNat', Nat.mod_eq_of_lt (hle.trans_lt hsmall)]
      refine ⟨restartCount_pos sup.flags hidx hrestarts, ?_⟩
      rw [GivesUp, exited, onChildExit, hidx]
      dsimp only
      rw [if_neg (not_not.2 hrestarts), hcount, forgetRestartsBefore_eq]
      split
      · rename_i hexceeds
        exact ⟨rfl, fun _ => hexceeds, fun _ => by simp [giveUp]⟩
      · rename_i hkeeps
        refine ⟨rfl, fun hmem => ?_, fun hexceeds => absurd hexceeds hkeeps⟩
        rw [(sup.restartLoops_eq idx).2, restartActions] at hmem
        simp at hmem

/-- Unless it gives up, a call starts as many children as it decides to
restart. -/
theorem countP_start_onChildExit (sup : Supervisor) (e : ChildExit)
    (h : ¬ sup.GivesUp e) :
    (sup.onChildExit e.id e.reason e.nowMs).2.countP
        (fun a => a matches .start _) =
      restartCount sup.flags sup.children e := by
  rw [GivesUp, onChildExit] at h
  rw [onChildExit, restartCount]
  cases hidx : indexOf sup.children e.id with
  | none => rfl
  | some idx =>
    rw [hidx] at h
    dsimp only at h ⊢
    cases hrestarts : (sup.children.get idx).restart.restarts e.reason with
    | false =>
      rw [if_pos Bool.false_ne_true, if_neg Bool.false_ne_true]
      rfl
    | true =>
      rw [hrestarts, if_neg (not_not.2 rfl)] at h
      rw [if_neg (not_not.2 rfl), if_pos rfl]
      split at h
      · exact absurd (by simp [giveUp]) h
      · rename_i hkeeps
        rw [if_neg hkeeps, (sup.restartLoops_eq idx).2, restartActions,
          List.countP_append, List.countP_map, List.countP_map,
          restartedChildren]
        simp [Function.comp_def]

/-- Children that are never restarted never trip the brake. -/
theorem endures_of_temporary {sup : Supervisor}
    (htemp : ∀ c ∈ sup.children, c.restart = .temporary)
    (hsmall : sup.children.length < 2 ^ 32) :
    ∀ exits : List ChildExit, sup.Endures exits := by
  intro exits
  induction exits generalizing sup with
  | nil => trivial
  | cons e exits ih =>
    have hzero : restartCount sup.flags sup.children e = 0 := by
      unfold restartCount
      split
      · rfl
      · rename_i idx _
        have hidx : (sup.children.get idx).restart = .temporary :=
          htemp _ (List.getElem_mem idx.isLt)
        rw [hidx]
        rfl
    have hchildren : (sup.exited e).children = sup.children :=
      children_onChildExit ..
    refine ⟨?_, ih (by rwa [hchildren]) (by rwa [hchildren])⟩
    obtain ⟨-, hkeeps, -⟩ | ⟨hpos, -⟩ := exited_spec sup e hsmall
    · exact hkeeps
    · omega

/-! ## All calls -/

/-- The times of all restarts that were decided. -/
def restartLog (flags : SupFlags) (children : List ChildSpec)
    (exits : List ChildExit) : List UInt64 :=
  exits.flatMap fun e => List.replicate (restartCount flags children e) e.nowMs

theorem mem_restartLog {flags : SupFlags} {children : List ChildSpec}
    {exits : List ChildExit} {t : UInt64}
    (h : t ∈ restartLog flags children exits) : ∃ e ∈ exits, e.nowMs = t := by
  obtain ⟨e, he, ht⟩ := List.mem_flatMap.1 h
  exact ⟨e, he, (List.eq_of_mem_replicate ht).symm⟩

theorem toNat_saturatingSub (a b : UInt64) :
    (saturatingSub a b).toNat = a.toNat - b.toNat := by
  unfold saturatingSub
  split
  · rename_i h
    have := UInt64.lt_iff_toNat_lt.1 h
    rw [Nat.sub_eq_zero_of_le this.le]
    rfl
  · rename_i h
    exact UInt64.toNat_sub_of_le _ _ (UInt64.not_lt.1 h)

/-- The window over the log holds the restarts within the period. -/
theorem countP_restartLog (flags : SupFlags) (children : List ChildSpec)
    (exits : List ChildExit) (nowMs : UInt64) :
    (restartLog flags children exits).countP
        (fun t => nowMs.toNat - flags.periodMs.toNat ≤ t.toNat) =
      restartsWithin flags children exits nowMs := by
  induction exits with
  | nil => rfl
  | cons e exits ih =>
    have hcons : restartLog flags children (e :: exits) =
        List.replicate (restartCount flags children e) e.nowMs ++
          restartLog flags children exits := rfl
    rw [hcons, List.countP_append, ih, List.countP_replicate, restartsWithin,
      restartsWithin]
    by_cases h : nowMs.toNat ≤ e.nowMs.toNat + flags.periodMs.toNat
    · rw [List.filter_cons_of_pos (by simpa using h), List.map_cons,
        List.sum_cons, if_pos (by simpa using h)]
    · rw [List.filter_cons_of_neg (by simpa using h),
        if_neg (by simpa using h), Nat.zero_add]

/-- The queue of the supervisor is a window over the log, and has not been too
full so far. -/
structure WindowInv (flags : SupFlags) (children : List ChildSpec)
    (exits : List ChildExit) (sup : Supervisor) : Prop where
  sameFlags : sup.flags = flags
  sameChildren : sup.children = children
  held : sup.restarts.length ≤ flags.intensity.toNat
  /-- The cutoff lies a period before any time that may follow. -/
  tracks : ∃ cutoff, (∀ t : UInt64, (∀ e ∈ exits, e.nowMs.toNat ≤ t.toNat) →
      cutoff ≤ t.toNat - flags.periodMs.toNat) ∧
    Tracks UInt64.toNat cutoff (restartLog flags children exits) sup.restarts

theorem windowInv_init (flags : SupFlags) (children : List ChildSpec) :
    WindowInv flags children [] (new flags children).init.1 where
  sameFlags := rfl
  sameChildren := rfl
  held := Nat.zero_le _
  tracks := ⟨0, fun _ _ => Nat.zero_le _, tracks_nil _ _⟩

/-- What a call does to the window.  It gives up when the window is too
full. -/
theorem WindowInv.exited {flags : SupFlags} {children : List ChildSpec}
    {exits : List ChildExit} {sup : Supervisor}
    (h : WindowInv flags children exits sup)
    (hbound : flags.intensity.toNat + children.length < 2 ^ 32) {e : ChildExit}
    (hlater : ∀ e' ∈ exits, e'.nowMs.toNat ≤ e.nowMs.toNat) :
    (sup.GivesUp e ↔ 0 < restartCount flags children e ∧
      flags.intensity.toNat < restartCount flags children e +
        restartsWithin flags children exits e.nowMs) ∧
    (¬ sup.GivesUp e → WindowInv flags children (exits ++ [e]) (sup.exited e)) := by
  obtain ⟨rfl, rfl, hheld, cutoff, hcutoff, htracks⟩ := h
  have hsmall : sup.children.length < 2 ^ 32 := by omega
  have hlog : restartLog sup.flags sup.children (exits ++ [e]) =
      restartLog sup.flags sup.children exits ++
        List.replicate (restartCount sup.flags sup.children e) e.nowMs := by
    simp [restartLog]
  have hearlier : ∀ t : UInt64, (∀ e' ∈ exits ++ [e], e'.nowMs.toNat ≤ t.toNat) →
      e.nowMs.toNat ≤ t.toNat :=
    fun t ht => ht e (List.mem_append_right _ (List.mem_singleton_self e))
  obtain ⟨hzero, hkeeps, hrestarts⟩ | ⟨hpos, hrestarts, hgives⟩ :=
    exited_spec sup e hsmall
  · refine ⟨⟨fun h => absurd h hkeeps, fun h => absurd h.1 (by omega)⟩, fun _ => ?_⟩
    refine ⟨flags_onChildExit .., children_onChildExit .., ?_, cutoff, ?_, ?_⟩
    · rw [hrestarts]
      exact hheld
    · intro t ht
      exact hcutoff t fun e' he' => ht e' (List.mem_append_left _ he')
    · rw [hlog, hzero, hrestarts, List.replicate_zero, List.append_nil]
      exact htracks
  · have hpushed : Tracks UInt64.toNat (e.nowMs.toNat - sup.flags.periodMs.toNat)
        (restartLog sup.flags sup.children (exits ++ [e]))
        (sup.exited e).restarts := by
      rw [hlog, hrestarts, toNat_saturatingSub]
      refine htracks.push (hcutoff e.nowMs hlater) ?_ ?_
      · exact List.pairwise_replicate.2 (.inr le_rfl)
      · intro t ht t' ht'
        obtain ⟨e', he', rfl⟩ := mem_restartLog ht
        rw [List.eq_of_mem_replicate ht']
        exact hlater e' he'
    have hlength : (sup.exited e).restarts.length =
        restartsWithin sup.flags sup.children exits e.nowMs +
          restartCount sup.flags sup.children e := by
      rw [hpushed.length_queue, hlog, List.countP_append, countP_restartLog,
        List.countP_replicate, if_pos (by simp)]
    have hfits : (sup.exited e).restarts.length < 2 ^ 32 := by
      have hdrop : (sup.exited e).restarts.length ≤ (sup.restarts ++
          List.replicate (restartCount sup.flags sup.children e) e.nowMs).length := by
        rw [hrestarts]
        exact (List.dropWhile_sublist _).length_le
      have hcount := restartCount_le sup.flags sup.children e
      rw [List.length_append, List.length_replicate] at hdrop
      omega
    have hexceeds : sup.GivesUp e ↔
        sup.flags.intensity.toNat < (sup.exited e).restarts.length := by
      rw [hgives, UInt32.lt_iff_toNat_lt, UInt32.toNat_ofNat',
        Nat.mod_eq_of_lt hfits]
    refine ⟨?_, fun hkeeps => ?_⟩
    · rw [hexceeds, hlength]
      omega
    · refine ⟨flags_onChildExit .., children_onChildExit .., ?_, _, ?_, hpushed⟩
      · rw [hexceeds] at hkeeps
        omega
      · intro t ht
        have := hearlier t ht
        omega

/-- The window follows the supervisor through all the calls that it
endures. -/
theorem WindowInv.afterExits {flags : SupFlags} {children : List ChildSpec}
    (hbound : flags.intensity.toNat + children.length < 2 ^ 32)
    {earlier : List ChildExit} {sup : Supervisor}
    (h : WindowInv flags children earlier sup) :
    ∀ exits : List ChildExit,
      (earlier ++ exits).Pairwise (fun e e' => e.nowMs ≤ e'.nowMs) →
      sup.Endures exits →
      WindowInv flags children (earlier ++ exits) (sup.afterExits exits) := by
  intro exits
  induction exits generalizing earlier sup with
  | nil =>
    intro _ _
    rw [List.append_nil]
    exact h
  | cons e exits ih =>
    intro hordered hendures
    have hlater : ∀ e' ∈ earlier, e'.nowMs.toNat ≤ e.nowMs.toNat := by
      intro e' he'
      exact UInt64.le_iff_toNat_le.1 ((List.pairwise_append.1 hordered).2.2 e' he'
        e List.mem_cons_self)
    rw [List.append_cons] at hordered ⊢
    exact ih ((h.exited hbound hlater).2 hendures.1) hordered hendures.2

/-- A supervisor gives up exactly when the restarts that it decides now and
those within the period exceed its intensity, and else it starts as many
children as it decides to restart.  With `temporary` children it never gives
up. -/
theorem intensity_is_sliding_window (flags : SupFlags) (children : List ChildSpec)
    (hbound : flags.intensity.toNat + children.length < 2 ^ 32) :
    (∀ (earlier : List ChildExit) (e : ChildExit),
      (earlier ++ [e]).Pairwise (fun e e' => e.nowMs ≤ e'.nowMs) →
      (new flags children).init.1.Endures earlier →
      let sup := (new flags children).init.1.afterExits earlier
      (sup.GivesUp e ↔
        0 < restartCount flags children e ∧
          flags.intensity.toNat < restartCount flags children e +
            restartsWithin flags children earlier e.nowMs) ∧
      (¬ sup.GivesUp e →
        (sup.onChildExit e.id e.reason e.nowMs).2.countP
            (fun a => a matches .start _) =
          restartCount flags children e)) ∧
    ((∀ c ∈ children, c.restart = .temporary) →
      ∀ exits : List ChildExit, (new flags children).init.1.Endures exits) := by
  refine ⟨fun earlier e hordered hendures => ?_, fun htemp exits => ?_⟩
  · have hearlier := (List.pairwise_append.1 hordered).1
    have hwindow : WindowInv flags children earlier
        ((new flags children).init.1.afterExits earlier) :=
      (windowInv_init flags children).afterExits hbound earlier hearlier hendures
    have hlater : ∀ e' ∈ earlier, e'.nowMs.toNat ≤ e.nowMs.toNat := by
      intro e' he'
      exact UInt64.le_iff_toNat_le.1 ((List.pairwise_append.1 hordered).2.2 e'
        he' e (List.mem_singleton_self e))
    refine ⟨(hwindow.exited hbound hlater).1, fun hkeeps => ?_⟩
    rw [countP_start_onChildExit _ e hkeeps]
    congr 1
    · exact hwindow.sameFlags
    · exact hwindow.sameChildren
  · have hsmall : children.length < 2 ^ 32 := by omega
    exact endures_of_temporary htemp hsmall exits

/-- Two workers that are restarted together, at most twice within 5 s. -/
def twoTogether : List ChildSpec := [.new "a" "worker", .new "b" "worker"]

/-- The second crash within 5 s is one too many. -/
theorem intensity_is_sliding_window_twoTogether :
    ((new ⟨.oneForAll, 2, 5000⟩ twoTogether).init.1.afterExits
        [⟨"a", .kill, 0⟩]).GivesUp ⟨"b", .kill, 5000⟩ ↔
      0 < restartCount ⟨.oneForAll, 2, 5000⟩ twoTogether ⟨"b", .kill, 5000⟩ ∧
        2 < restartCount ⟨.oneForAll, 2, 5000⟩ twoTogether ⟨"b", .kill, 5000⟩ +
          restartsWithin ⟨.oneForAll, 2, 5000⟩ twoTogether [⟨"a", .kill, 0⟩] 5000 :=
  (intensity_is_sliding_window ⟨.oneForAll, 2, 5000⟩ twoTogether (by decide)).1
    [⟨"a", .kill, 0⟩] ⟨"b", .kill, 5000⟩ (by simp) (by decide) |>.1

end Supervisor

end Plasmoid
