import Plasmoid.FiresOnce
import Plasmoid.ScatteredDeath

/-!
# Losing a node, and the deaths of its particles

When a node is lost the reactor fires every relationship with its particles.
When the particles die one by one instead, their node sends an exit or a down
signal for each relationship.  The survivors cannot tell which happened.

* `FireInv` is the closed form of signals with one reason, handled one after
  the other: the dead are the least set that contains the targets that do not
  trap exits and that no cascade leaves.
* `signals_commute`: so only what each particle is sent matters, and not the
  order.
* `loseNode_eq` says which signals the reactor fires, and `mem_deathSignals`
  which ones the deaths send.
-/

namespace Plasmoid

open Machine ScatteredDeath

namespace LostNodeDeaths

/-- An exit or a down signal with this reason. -/
def IsSignal (reason : ExitReason) : PeerMessage → Prop
  | .exit _ _ r => r = reason
  | .down _ _ _ r => r = reason
  | _ => False

/-- Handle messages one after the other. -/
def handleAll (reg : ParticleRegistry) (msgs : List PeerMessage) :
    ParticleRegistry :=
  msgs.foldl (fun reg m => (reg.handlePeerMessage m).1) reg

/-- An exit signal kills `x` by itself. -/
def Struck (reg : ParticleRegistry) (reason : ExitReason)
    (msgs : List PeerMessage) (x : Pid) : Prop :=
  reason.isAbnormal = true ∧ (∃ q, .exit q x reason ∈ msgs) ∧
    ∃ st, reg.state x = some st ∧ st.trapExit = false

/-- A survivor `x` that had state `st`, after signals and the deaths of `D`. -/
structure Settled (reg : ParticleRegistry) (reason : ExitReason)
    (msgs : List PeerMessage) (D : List Pid) (x : Pid)
    (st st' : ParticleState) : Prop where
  links : ∀ q, q ∈ st'.links ↔ q ∈ st.links ∧ ¬ (q ∈ D ∧ x ∈ reg.linksOf q)
  monitoredBy : st'.monitoredBy = st.monitoredBy
  trapExit : st'.trapExit = st.trapExit
  received : ∃ l, st'.mailbox = st.mailbox.pushSystems l ∧
    l.Perm (reg.signalsOf reason D x st.trapExit ++
      msgs.flatMap (messageSignals x st.trapExit))

/-- After the signals `msgs`, which have killed `D`. -/
structure FireInv (reg₀ : ParticleRegistry) (reason : ExitReason)
    (msgs : List PeerMessage) (reg : ParticleRegistry) (D : List Pid) :
    Prop where
  nodup : D.Nodup
  wasAlive : ∀ x ∈ D, reg₀.Alive x
  gone : ∀ x, x ∈ D ∨ reg₀.state x = none → reg.state x = none
  survivors : ∀ x st, x ∉ D → reg₀.state x = some st →
    ∃ st', reg.state x = some st' ∧ Settled reg₀ reason msgs D x st st'
  struck : ∀ x, Struck reg₀ reason msgs x → x ∈ D
  closed : reg₀.CascadeClosed reason {x | x ∈ D}
  sound : ∀ S : Set Pid, (∀ x, Struck reg₀ reason msgs x → x ∈ S) →
    reg₀.CascadeClosed reason S → ∀ x ∈ D, x ∈ S

variable {reg₀ reg : ParticleRegistry} {reason : ExitReason}
variable {msgs : List PeerMessage} {m : PeerMessage} {D : List Pid} {x : Pid}

theorem fireInv_nil : FireInv reg₀ reason [] reg₀ [] where
  nodup := List.nodup_nil
  wasAlive := by simp
  gone := by simp
  survivors := by
    intro x st _ hst
    exact ⟨st, hst, by simp, rfl, rfl, [], rfl, by
      simp [ParticleRegistry.signalsOf]⟩
  struck := by simp [Struck]
  closed := by
    intro q x hq
    exact absurd hq List.not_mem_nil
  sound := by simp

/-- A particle that is alive has survived `D`. -/
theorem FireInv.survivor (h : FireInv reg₀ reason msgs reg D)
    {st : ParticleState} (hx : reg.state x = some st) :
    x ∉ D ∧ ∃ st₀, reg₀.state x = some st₀ ∧
      Settled reg₀ reason msgs D x st₀ st := by
  have hD : x ∉ D := by
    intro hD
    rw [h.gone x (Or.inl hD)] at hx
    cases hx
  refine ⟨hD, ?_⟩
  cases hst : reg₀.state x with
  | none =>
    rw [h.gone x (Or.inr hst)] at hx
    cases hx
  | some st₀ =>
    obtain ⟨st', hst', hsettled⟩ := h.survivors x st₀ hD hst
    rw [hx, Option.some.injEq] at hst'
    exact ⟨st₀, rfl, hst' ▸ hsettled⟩

/-- A message that strikes nobody.  `got` is what it puts into mailboxes. -/
theorem FireInv.deliver (h : FireInv reg₀ reason msgs reg D)
    {reg' : ParticleRegistry} (got : Pid → List SystemMessage)
    (hstate : ∀ x, reg'.state x = (reg.state x).map fun st =>
      { st with mailbox := st.mailbox.pushSystems (got x) })
    (hgot : ∀ x st, reg.state x = some st →
      got x = messageSignals x st.trapExit m)
    (hstruck : ∀ x, Struck reg₀ reason [m] x → x ∈ D) :
    FireInv reg₀ reason (msgs ++ [m]) reg' D := by
  have hsplit : ∀ x, Struck reg₀ reason (msgs ++ [m]) x →
      Struck reg₀ reason msgs x ∨ Struck reg₀ reason [m] x := by
    rintro x ⟨habn, ⟨q, hq⟩, hst⟩
    rcases List.mem_append.1 hq with hq | hq
    · exact Or.inl ⟨habn, ⟨q, hq⟩, hst⟩
    · exact Or.inr ⟨habn, ⟨q, hq⟩, hst⟩
  refine ⟨h.nodup, h.wasAlive, ?_, ?_, ?_, h.closed, ?_⟩
  · intro x hx
    rw [hstate, h.gone x hx]
    rfl
  · intro x st hx hst
    obtain ⟨st', hst', hsettled⟩ := h.survivors x st hx hst
    refine ⟨{ st' with mailbox := st'.mailbox.pushSystems (got x) }, ?_,
      hsettled.links, hsettled.monitoredBy, hsettled.trapExit, ?_⟩
    · rw [hstate, hst']
      rfl
    · obtain ⟨l, hl, hperm⟩ := hsettled.received
      refine ⟨l ++ got x, ?_, ?_⟩
      · rw [Mailbox.pushSystems_append, ← hl]
      · rw [hgot x st' hst', hsettled.trapExit, List.flatMap_append,
          ← List.append_assoc, List.flatMap_singleton]
        exact hperm.append_right _
  · intro x hx
    exact (hsplit x hx).elim (h.struck x) (hstruck x)
  · intro S hS hclosed x hx
    refine h.sound S (fun y hy => hS y ?_) hclosed x hx
    exact ⟨hy.1, hy.2.1.imp fun q hq => List.mem_append_left _ hq, hy.2.2⟩

/-- The links of a particle that is alive, to particles that are alive, are
those of the beginning. -/
theorem FireInv.mem_linksOf (h : FireInv reg₀ reason msgs reg D) {q : Pid}
    (hq : reg.Alive q) (hx : x ∉ D) :
    x ∈ reg.linksOf q ↔ x ∈ reg₀.linksOf q := by
  obtain ⟨st, hst⟩ := ParticleRegistry.alive_iff.1 hq
  obtain ⟨-, st₀, hst₀, hsettled⟩ := h.survivor hst
  simp [ParticleRegistry.mem_linksOf, hst, hst₀, hsettled.links, hx]

theorem FireInv.cascades (h : FireInv reg₀ reason msgs reg D) {q : Pid}
    (hq : reg.Alive q) (hx : x ∉ D) :
    reg.Cascades reason q x ↔ reg₀.Cascades reason q x := by
  unfold ParticleRegistry.Cascades
  rw [h.mem_linksOf hq hx]
  refine and_congr_right fun _ => and_congr_right fun _ => ?_
  constructor
  · rintro ⟨st, hst, htrap⟩
    obtain ⟨-, st₀, hst₀, hsettled⟩ := h.survivor hst
    exact ⟨st₀, hst₀, hsettled.trapExit.symm.trans htrap⟩
  · rintro ⟨st₀, hst₀, htrap⟩
    obtain ⟨st, hst, hsettled⟩ := h.survivors x st₀ hx hst₀
    exact ⟨st, hst, hsettled.trapExit.trans htrap⟩

/-- What the particles that are alive would send is what they would have sent
at the beginning. -/
theorem FireInv.signalsOf (h : FireInv reg₀ reason msgs reg D) {D' : List Pid}
    (hD' : ∀ q ∈ D', reg.Alive q) (hx : x ∉ D) (traps : Bool) :
    reg.signalsOf reason D' x traps = reg₀.signalsOf reason D' x traps := by
  unfold ParticleRegistry.signalsOf
  refine List.flatMap_congr fun q hq => ?_
  obtain ⟨st, hst⟩ := ParticleRegistry.alive_iff.1 (hD' q hq)
  obtain ⟨-, st₀, hst₀, hsettled⟩ := h.survivor hst
  have hlinks : x ∈ st.links ↔ x ∈ st₀.links := by simp [hsettled.links, hx]
  simp only [hst, hst₀, Option.elim_some, ParticleRegistry.signalsTo,
    ParticleRegistry.firedRefs, hlinks, hsettled.monitoredBy]

section Strike

variable {D' : List Pid} {q : Pid}

/-- Who exits after a strike was alive, and is none of `D`. -/
theorem FireInv.apart (h : FireInv reg₀ reason msgs reg D)
    (halive : ∀ y ∈ D', reg.Alive y) {y : Pid} (hy : y ∈ D') :
    y ∉ D ∧ reg₀.Alive y := by
  obtain ⟨s, hs⟩ := ParticleRegistry.alive_iff.1 (halive y hy)
  obtain ⟨hyD, s₀, hs₀, -⟩ := h.survivor hs
  exact ⟨hyD, ParticleRegistry.alive_iff.2 ⟨s₀, hs₀⟩⟩

/-- A survivor of a strike that the signal is not for. -/
theorem FireInv.strike_survivor (h : FireInv reg₀ reason msgs reg D)
    (halive : ∀ y ∈ D', reg.Alive y) {y : Pid} (hyD : y ∉ D) (hxy : x ≠ y)
    {before st : ParticleState} (hold : Settled reg₀ reason msgs D y before st) :
    Settled reg₀ reason (msgs ++ [.exit q x reason]) (D ++ D') y before
      (reg.settleAll reason D' y st) := by
  refine ⟨?_, ?_, ?_, ?_⟩
  · intro z
    rw [ParticleRegistry.mem_settleAll_links, hold.links, List.mem_append]
    by_cases hz : z ∈ D'
    · rw [h.mem_linksOf (halive z hz) hyD]
      have hzD : z ∉ D := (h.apart halive hz).1
      simp [hz, hzD]
    · simp [hz]
  · rw [ParticleRegistry.settleAll_monitoredBy]
    exact hold.monitoredBy
  · rw [ParticleRegistry.settleAll_trapExit]
    exact hold.trapExit
  · obtain ⟨l, hl, hperm⟩ := hold.received
    refine ⟨l ++ reg₀.signalsOf reason D' y before.trapExit, ?_, ?_⟩
    · rw [ParticleRegistry.settleAll_mailbox, h.signalsOf halive hyD,
        hold.trapExit, Mailbox.pushSystems_append, ← hl]
    · have hnone : messageSignals y before.trapExit (.exit q x reason) = [] := by
        simp [messageSignals, hxy]
      have happend : reg₀.signalsOf reason (D ++ D') y before.trapExit =
          reg₀.signalsOf reason D y before.trapExit ++
            reg₀.signalsOf reason D' y before.trapExit :=
        List.flatMap_append
      rw [happend, List.flatMap_append, List.flatMap_singleton, hnone,
        List.append_nil]
      rw [List.perm_iff_count] at hperm ⊢
      intro a
      have ha := hperm a
      simp only [List.count_append] at ha ⊢
      omega

/-- The cascade from `x` completes `D` to a closed set. -/
theorem FireInv.strike_closed (h : FireInv reg₀ reason msgs reg D)
    (halive : ∀ y ∈ D', reg.Alive y)
    (hclosed : reg.CascadeClosed reason {y | y ∈ D'}) :
    reg₀.CascadeClosed reason {y | y ∈ D ++ D'} := by
  intro a y ha hay
  show y ∈ D ++ D'
  by_cases hyD : y ∈ D
  · exact List.mem_append_left _ hyD
  rcases List.mem_append.1 ha with ha | ha
  · exact List.mem_append_left _ (h.closed a y ha hay)
  · exact List.mem_append_right _
      (hclosed a y ha ((h.cascades (halive a ha) hyD).2 hay))

/-- A set that is closed at the beginning and contains `D` is closed now. -/
theorem FireInv.closed_of_closed (h : FireInv reg₀ reason msgs reg D)
    {S : Set Pid} (hclosed : reg₀.CascadeClosed reason S)
    (hD : ∀ y ∈ D, y ∈ S) : reg.CascadeClosed reason S := by
  intro a b ha hab
  by_cases hb : b ∈ D
  · exact hD b hb
  · have halive : reg.Alive a := by
      obtain ⟨s, hs, -⟩ := ParticleRegistry.mem_linksOf.1 hab.2.1
      exact ParticleRegistry.alive_iff.2 ⟨s, hs⟩
    exact hclosed a b ha ((h.cascades halive hb).1 hab)

/-- An exit signal that kills `x`. -/
theorem FireInv.strike (h : FireInv reg₀ reason msgs reg D)
    {st : ParticleState} (hst : reg.state x = some st)
    (htrap : st.trapExit = false) (habn : reason.isAbnormal = true) :
    ∃ D', FireInv reg₀ reason (msgs ++ [.exit q x reason])
      (reg.exitParticle x reason) D' := by
  have hx : reg.Alive x := ParticleRegistry.alive_iff.2 ⟨st, hst⟩
  obtain ⟨D', hcascade⟩ := ParticleRegistry.exitParticle_inv reason hx
  have hleast := hcascade.exitsExactly.least
  obtain ⟨hxD, st₀, hst₀, hsettled⟩ := h.survivor hst
  have halive : ∀ y ∈ D', reg.Alive y := hcascade.wasAlive
  have hstruck : Struck reg₀ reason (msgs ++ [.exit q x reason]) x :=
    ⟨habn, ⟨q, by simp⟩, st₀, hst₀, hsettled.trapExit.symm.trans htrap⟩
  refine ⟨D ++ D', ?_, ?_, ?_, ?_, ?_, h.strike_closed halive hleast.1.2, ?_⟩
  · exact List.nodup_append.2 ⟨h.nodup, hcascade.nodup, by
      intro a ha b hb hab
      exact (h.apart halive hb).1 (hab ▸ ha)⟩
  · intro y hy
    rcases List.mem_append.1 hy with hy | hy
    · exact h.wasAlive y hy
    · exact (h.apart halive hy).2
  · intro y hy
    rw [hcascade.states]
    by_cases hyD' : y ∈ D'
    · rw [if_pos hyD']
    · have hgone : y ∈ D ∨ reg₀.state y = none := by
        rcases hy with hy | hy
        · exact Or.inl ((List.mem_append.1 hy).resolve_right hyD')
        · exact Or.inr hy
      rw [if_neg hyD', h.gone y hgone]
      rfl
  · intro y before hy hbefore
    have hyD : y ∉ D := fun hyD => hy (List.mem_append_left _ hyD)
    have hyD' : y ∉ D' := fun hyD' => hy (List.mem_append_right _ hyD')
    -- The one that the signal is for has not survived.
    have hxy : x ≠ y := by
      rintro rfl
      exact hyD' hleast.1.1
    obtain ⟨st', hst', hold⟩ := h.survivors y before hyD hbefore
    refine ⟨reg.settleAll reason D' y st', ?_,
      h.strike_survivor halive hyD hxy hold⟩
    rw [hcascade.states, if_neg hyD', hst']
    rfl
  · rintro y ⟨-, ⟨q', hq'⟩, hy⟩
    rcases List.mem_append.1 hq' with hq' | hq'
    · exact List.mem_append_left _ (h.struck y ⟨habn, ⟨q', hq'⟩, hy⟩)
    · obtain ⟨-, rfl⟩ : q' = q ∧ y = x := by simpa using hq'
      exact List.mem_append_right _ hleast.1.1
  · intro S hS hclosed y hy
    have hold : ∀ y ∈ D, y ∈ S := by
      refine h.sound S (fun y hy => hS y ?_) hclosed
      exact ⟨hy.1, hy.2.1.imp fun q hq => List.mem_append_left _ hq, hy.2.2⟩
    rcases List.mem_append.1 hy with hy | hy
    · exact hold y hy
    · exact hleast.2 ⟨hS x hstruck, h.closed_of_closed hclosed hold⟩ hy

end Strike

/-- A message that arrives in the mailbox of `x`. -/
theorem FireInv.send (h : FireInv reg₀ reason msgs reg D) (sig : SystemMessage)
    (hsignals : ∀ y st, reg.state y = some st →
      (if y = x then [sig] else []) = messageSignals y st.trapExit m)
    (hstruck : ∀ x, Struck reg₀ reason [m] x → x ∈ D) :
    FireInv reg₀ reason (msgs ++ [m]) (reg.sendSystem x sig) D := by
  refine h.deliver (fun y => if y = x then [sig] else []) ?_ hsignals hstruck
  intro y
  rw [ParticleRegistry.state_sendSystem]
  congr 1
  funext st
  by_cases hy : y = x <;> simp [hy]

theorem FireInv.handle (h : FireInv reg₀ reason msgs reg D)
    (hm : IsSignal reason m) :
    ∃ D', FireInv reg₀ reason (msgs ++ [m]) (reg.handlePeerMessage m).1 D' := by
  cases m with
  | exit q x r =>
    obtain rfl : r = reason := hm
    show ∃ D', FireInv reg₀ r (msgs ++ [.exit q x r])
      (reg.applyInheritedExit x q r) D'
    -- Whoever the signal strikes is dead or alive and does not trap exits.
    have hstruck : (∀ st, reg.state x = some st → r.isAbnormal = true →
        st.trapExit = true) → ∀ y, Struck reg₀ r [.exit q x r] y → y ∈ D := by
      rintro hx y ⟨habn, ⟨q', hq'⟩, st₀, hst₀, htrap⟩
      obtain ⟨-, rfl⟩ : q' = q ∧ y = x := by simpa using hq'
      by_contra hD
      obtain ⟨st, hst, hsettled⟩ := h.survivors y st₀ hD hst₀
      have htrue := hx st hst habn
      rw [hsettled.trapExit, htrap] at htrue
      cases htrue
    cases hst : reg.state x with
    | none =>
      rw [ParticleRegistry.applyInheritedExit_of_dead q r hst]
      refine ⟨D, h.deliver (fun _ => []) (fun y => ?_) ?_ (hstruck ?_)⟩
      · show reg.state y = (reg.state y).map fun st => st
        rw [Option.map_id']
      · intro y st hy
        have hne : x ≠ y := by
          rintro rfl
          rw [hst] at hy
          cases hy
        simp [messageSignals, hne]
      · intro st hx
        rw [hst] at hx
        cases hx
    | some st =>
      cases htrap : st.trapExit with
      | true =>
        rw [ParticleRegistry.applyInheritedExit_of_trapping q r hst htrap]
        refine ⟨D, h.send _ ?_ (hstruck ?_)⟩
        · intro y st' hy
          by_cases hyx : y = x
          · subst hyx
            rw [hst, Option.some.injEq] at hy
            subst hy
            simp [messageSignals, htrap]
          · simp [messageSignals, hyx, Ne.symm hyx]
        · intro st' hst' _
          rw [hst, Option.some.injEq] at hst'
          exact hst' ▸ htrap
      | false =>
        rw [ParticleRegistry.applyInheritedExit_of_not_trapping q r hst htrap]
        cases habn : r.isAbnormal with
        | true =>
          rw [if_pos rfl]
          exact h.strike hst htrap habn
        | false =>
          rw [if_neg (by simp)]
          refine ⟨D, h.deliver (fun _ => []) (fun y => ?_) ?_ (hstruck ?_)⟩
          · show reg.state y = (reg.state y).map fun st => st
            rw [Option.map_id']
          · intro y st' hy
            by_cases hyx : y = x
            · subst hyx
              rw [hst, Option.some.injEq] at hy
              subst hy
              simp [messageSignals, htrap]
            · simp [messageSignals, Ne.symm hyx]
          · intro st' _ habn'
            rw [habn] at habn'
            cases habn'
  | down q w ref r =>
    refine ⟨D, h.send (x := w) (.down q ref r) ?_ ?_⟩
    · intro y st _
      by_cases hy : y = w
      · simp [messageSignals, hy]
      · simp [messageSignals, hy, Ne.symm hy]
    · rintro y ⟨-, ⟨q', hq'⟩, -⟩
      simp at hq'
  | link _ _ | unlink _ _ | monitor _ _ _ | demonitor _ _
  | exitSignal _ _ _ => exact absurd hm id

theorem fireInv_handleAll (reg : ParticleRegistry)
    (h : ∀ m ∈ msgs, IsSignal reason m) :
    ∃ D, FireInv reg reason msgs (handleAll reg msgs) D := by
  induction msgs using List.reverseRecOn with
  | nil => exact ⟨[], fireInv_nil⟩
  | append_singleton msgs m ih =>
    obtain ⟨D, hD⟩ := ih fun m' hm' => h m' (List.mem_append_left _ hm')
    rw [handleAll, List.foldl_append]
    exact hD.handle (h m (by simp))

/-! ## The order does not matter -/

/-- The message is for `x`. -/
def isFor (x : Pid) : PeerMessage → Bool
  | .exit _ y _ | .down _ y _ _ => y = x
  | _ => false

/-- Every particle that is alive is sent the same. -/
def SameMail (reg : ParticleRegistry) (msgs msgs' : List PeerMessage) : Prop :=
  ∀ x, reg.Alive x → (msgs.filter (isFor x)).Perm (msgs'.filter (isFor x))

variable {msgs' : List PeerMessage}

theorem SameMail.symm (h : SameMail reg msgs msgs') : SameMail reg msgs' msgs :=
  fun x hx => (h x hx).symm

theorem SameMail.struck (h : SameMail reg msgs msgs')
    (hx : Struck reg reason msgs x) : Struck reg reason msgs' x := by
  obtain ⟨habn, ⟨q, hq⟩, st, hst, htrap⟩ := hx
  have hmem : PeerMessage.exit q x reason ∈ msgs.filter (isFor x) :=
    List.mem_filter.2 ⟨hq, by simp [isFor]⟩
  have halive : reg.Alive x := ParticleRegistry.alive_iff.2 ⟨st, hst⟩
  exact ⟨habn, ⟨q, List.mem_of_mem_filter ((h x halive).mem_iff.1 hmem)⟩,
    st, hst, htrap⟩

/-- What a particle receives is in the messages that are for it. -/
theorem flatMap_messageSignals (x : Pid) (traps : Bool)
    (msgs : List PeerMessage) :
    msgs.flatMap (messageSignals x traps) =
      (msgs.filter (isFor x)).flatMap (messageSignals x traps) := by
  induction msgs with
  | nil => rfl
  | cons m msgs ih =>
    rw [List.flatMap_cons, List.filter_cons, ih]
    cases hm : isFor x m with
    | true => simp
    | false =>
      cases m <;> simp_all [isFor, messageSignals]

theorem FireInv.subset {reg' : ParticleRegistry} {D' : List Pid}
    (h : FireInv reg₀ reason msgs reg D)
    (h' : FireInv reg₀ reason msgs' reg' D') (hsame : SameMail reg₀ msgs msgs') :
    D ⊆ D' := by
  intro x hx
  exact h.sound {y | y ∈ D'} (fun y hy => h'.struck y (hsame.struck hy))
    h'.closed x hx

/-- Two worlds that a particle with some state before cannot tell apart: it has
died in both, or it has received the same. -/
def SameFate (before now now' : ParticleRegistry) : Prop :=
  ∀ x, (now.state x = none ↔ now'.state x = none) ∧
    ∀ st st₁ st₂, before.state x = some st → now.state x = some st₁ →
      now'.state x = some st₂ → Received List.Perm st st₁ st₂ ∧
        ∀ q, q ∈ st₁.links ↔ q ∈ st₂.links

/-- Exit and down signals with one reason may be handled in any order. -/
theorem sameFate_handleAll (h : ∀ m ∈ msgs, IsSignal reason m)
    (h' : ∀ m ∈ msgs', IsSignal reason m) (hsame : SameMail reg msgs msgs') :
    SameFate reg (handleAll reg msgs) (handleAll reg msgs') := by
  obtain ⟨D, hD⟩ := fireInv_handleAll reg h
  obtain ⟨D', hD'⟩ := fireInv_handleAll reg h'
  have hperm : D.Perm D' :=
    (List.perm_ext_iff_of_nodup hD.nodup hD'.nodup).2 fun x =>
      ⟨fun hx => hD.subset hD' hsame hx, fun hx => hD'.subset hD hsame.symm hx⟩
  have hnone : ∀ {msgs : List PeerMessage} {now : ParticleRegistry}
      {D : List Pid}, FireInv reg reason msgs now D → ∀ x,
      now.state x = none ↔ x ∈ D ∨ reg.state x = none := by
    intro msgs now D h x
    refine ⟨fun hx => ?_, h.gone x⟩
    by_contra hnot
    push Not at hnot
    obtain ⟨st, hst⟩ := Option.ne_none_iff_exists'.1 hnot.2
    obtain ⟨st', hst', -⟩ := h.survivors x st hnot.1 hst
    rw [hx] at hst'
    cases hst'
  intro x
  refine ⟨?_, ?_⟩
  · rw [hnone hD, hnone hD', hperm.mem_iff]
  · intro st st₁ st₂ hst h₁ h₂
    obtain ⟨-, s, hs, hsettled⟩ := hD.survivor h₁
    obtain rfl : st = s := Option.some.inj (hst.symm.trans hs)
    obtain ⟨-, s, hs, hsettled'⟩ := hD'.survivor h₂
    obtain rfl : st = s := Option.some.inj (hst.symm.trans hs)
    obtain ⟨l, hl, hlperm⟩ := hsettled.received
    obtain ⟨l', hl', hlperm'⟩ := hsettled'.received
    refine ⟨⟨l, l', hl, hl', ?_⟩, ?_⟩
    · have hdead : (reg.signalsOf reason D x st.trapExit).Perm
          (reg.signalsOf reason D' x st.trapExit) := hperm.flatMap_right _
      have hmail : (msgs.flatMap (messageSignals x st.trapExit)).Perm
          (msgs'.flatMap (messageSignals x st.trapExit)) := by
        rw [flatMap_messageSignals, flatMap_messageSignals x _ msgs']
        exact (hsame x (ParticleRegistry.alive_iff.2 ⟨st, hst⟩)).flatMap_right _
      exact hlperm.trans ((hdead.append hmail).trans hlperm'.symm)
    · intro q
      rw [hsettled.links, hsettled'.links, hperm.mem_iff]

/-! ## The two ways to lose a node -/

/-- What the node loss reactor fires. -/
def lossSignals (reg : ParticleRegistry) (node : EndpointId) :
    List PeerMessage :=
  ((reg.relationshipsWithNode node).1.map fun l =>
    .exit l.2 l.1 .noConnection) ++
    (reg.relationshipsWithNode node).2.map fun m =>
      .down m.2.1 m.1 m.2.2 .noConnection

/-- What the deaths of all particles of a node publish, each as if it died by
itself. -/
def separateDeaths (far : ParticleRegistry) : List ParticleDeath :=
  far.particleStates.entries.map fun e =>
    ParticleRegistry.deathOf far.me e.1 e.2 (far.namesHeld e.1).head?
      .noConnection

/-- What the forwarder sends to one node. -/
def forwardedTo (node : EndpointId) (deaths : List ParticleDeath) :
    List PeerMessage :=
  ((deaths.flatMap ParticleRegistry.forwardDeath).filter fun m =>
    m.1 = node).map Prod.snd

/-- Both nodes have recorded their half of each relationship between them. -/
structure Mirrors (reg far : ParticleRegistry) : Prop where
  apart : reg.me ≠ far.me
  own : ∀ x, reg.Alive x → x.node = reg.me
  links : ∀ x q, reg.Alive x → q.node = far.me →
    (q ∈ reg.linksOf x ↔ x ∈ far.linksOf q)
  monitors : ∀ x st q ref, reg.state x = some st → q.node = far.me →
    (st.monitors.lookup ref = some q ↔ (x, ref) ∈ far.watchersOf q)
  watchers : ∀ q, (far.watchersOf q).Nodup
  ownFar : ∀ q, far.Alive q → q.node = far.me

variable {far : ParticleRegistry} {node : EndpointId}

theorem loseNode_eq (reg : ParticleRegistry) (node : EndpointId) :
    reg.loseNode node = if lossSignals reg node = [] then reg
      else (handleAll reg (lossSignals reg node)).forgetNode node := by
  unfold ParticleRegistry.loseNode lossSignals
  obtain ⟨links, monitors⟩ := reg.relationshipsWithNode node
  cases links with
  | nil =>
    cases monitors with
    | nil => rfl
    | cons m monitors =>
      simp [handleAll, List.foldl_map, ParticleRegistry.handlePeerMessage]
  | cons l links =>
    simp [handleAll, List.foldl_map, List.foldl_append,
      ParticleRegistry.handlePeerMessage]

theorem state_forgetNode (reg : ParticleRegistry) (node : EndpointId)
    (x : Pid) : (reg.forgetNode node).state x = (reg.state x).map fun s =>
      { s with
        links := s.links.retain fun p => !p.isLocalTo node
        monitors := Table.retain (fun _ t => !t.isLocalTo node) s.monitors
        monitoredBy := s.monitoredBy.filter fun w => !w.1.isLocalTo node } :=
  Table.lookup_mapValues ..

theorem isSignal_lossSignals (reg : ParticleRegistry) (node : EndpointId) :
    ∀ m ∈ lossSignals reg node, IsSignal .noConnection m := by
  intro m hm
  rcases List.mem_append.1 hm with hm | hm
  · obtain ⟨l, -, rfl⟩ := List.mem_map.1 hm
    rfl
  · obtain ⟨w, -, rfl⟩ := List.mem_map.1 hm
    rfl

theorem nodup_lossSignals (reg : ParticleRegistry) (node : EndpointId) :
    (lossSignals reg node).Nodup := by
  refine List.nodup_append.2 ⟨?_, ?_, ?_⟩
  · refine (reg.nodup_relationshipsWithNode_links node).map ?_
    intro l l' h
    simp only [PeerMessage.exit.injEq] at h
    exact Prod.ext h.2.1 h.1
  · refine (reg.nodup_relationshipsWithNode_monitors node).map ?_
    intro m m' h
    simp only [PeerMessage.down.injEq] at h
    exact Prod.ext h.2.1 (Prod.ext h.1 h.2.2.1)
  · intro a ha b hb hab
    obtain ⟨l, -, rfl⟩ := List.mem_map.1 ha
    obtain ⟨m, -, rfl⟩ := List.mem_map.1 hb
    cases hab

theorem exit_mem_lossSignals {q : Pid} {r : ExitReason} :
    .exit q x r ∈ lossSignals reg node ↔
      r = .noConnection ∧ q ∈ reg.linksOf x ∧ q.node = node := by
  rw [lossSignals, List.mem_append, List.mem_map, List.mem_map]
  constructor
  · rintro (⟨l, hl, heq⟩ | ⟨m, -, heq⟩)
    · simp only [PeerMessage.exit.injEq] at heq
      obtain ⟨rfl, rfl, rfl⟩ := heq
      obtain ⟨st, hst, hq, hnode⟩ :=
        ParticleRegistry.mem_relationshipsWithNode_links.1 hl
      exact ⟨rfl, ParticleRegistry.mem_linksOf.2 ⟨st, hst, hq⟩, hnode⟩
    · cases heq
  · rintro ⟨rfl, hq, hnode⟩
    obtain ⟨st, hst, hq⟩ := ParticleRegistry.mem_linksOf.1 hq
    exact Or.inl ⟨(x, q), ParticleRegistry.mem_relationshipsWithNode_links.2
      ⟨st, hst, hq, hnode⟩, rfl⟩

theorem down_mem_lossSignals {q : Pid} {ref : UInt64} {r : ExitReason} :
    .down q x ref r ∈ lossSignals reg node ↔ r = .noConnection ∧
      (∃ st, reg.state x = some st ∧ st.monitors.lookup ref = some q) ∧
      q.node = node := by
  rw [lossSignals, List.mem_append, List.mem_map, List.mem_map]
  constructor
  · rintro (⟨l, -, heq⟩ | ⟨m, hm, heq⟩)
    · cases heq
    · simp only [PeerMessage.down.injEq] at heq
      obtain ⟨rfl, rfl, rfl, rfl⟩ := heq
      obtain ⟨st, hst, hq, hnode⟩ :=
        ParticleRegistry.mem_relationshipsWithNode_monitors.1 hm
      exact ⟨rfl, ⟨st, hst, hq⟩, hnode⟩
  · rintro ⟨rfl, ⟨st, hst, hq⟩, hnode⟩
    exact Or.inr ⟨(x, q, ref),
      ParticleRegistry.mem_relationshipsWithNode_monitors.2
        ⟨st, hst, hq, hnode⟩, rfl⟩

theorem mem_forwardedTo {deaths : List ParticleDeath} :
    m ∈ forwardedTo node deaths ↔
      ∃ d ∈ deaths, (node, m) ∈ ParticleRegistry.forwardDeath d := by
  simp only [forwardedTo, List.mem_map, List.mem_filter, List.mem_flatMap,
    decide_eq_true_eq]
  constructor
  · rintro ⟨⟨n, m'⟩, ⟨⟨d, hd, hm⟩, rfl⟩, rfl⟩
    exact ⟨d, hd, hm⟩
  · rintro ⟨d, hd, hm⟩
    exact ⟨(node, m), ⟨⟨d, hd, hm⟩, rfl⟩, rfl⟩

theorem mem_separateDeaths {d : ParticleDeath} :
    d ∈ separateDeaths far ↔ ∃ q st, far.state q = some st ∧
      d = ParticleRegistry.deathOf far.me q st (far.namesHeld q).head?
        .noConnection := by
  rw [separateDeaths, List.mem_map]
  constructor
  · rintro ⟨e, he, rfl⟩
    exact ⟨e.1, e.2, AList.mem_lookup_iff.2 he, rfl⟩
  · rintro ⟨q, st, hst, rfl⟩
    exact ⟨⟨q, st⟩, AList.mem_lookup_iff.1 hst, rfl⟩

theorem mem_forwardDeath {d : ParticleDeath} :
    (node, m) ∈ ParticleRegistry.forwardDeath d ↔
      (∃ x ∈ d.remoteLinks, x.node = node ∧ m = .exit d.pid x d.reason) ∨
      ∃ w ∈ d.remoteMonitors, w.1.node = node ∧
        m = .down d.pid w.1 w.2 d.reason := by
  rw [ParticleRegistry.forwardDeath, List.mem_append, List.mem_map,
    List.mem_map]
  simp only [Prod.mk.injEq, eq_comm (a := m)]

theorem isSignal_forwardedTo (node : EndpointId) :
    ∀ m ∈ forwardedTo node (separateDeaths far), IsSignal .noConnection m := by
  intro m hm
  obtain ⟨d, hd, hm⟩ := mem_forwardedTo.1 hm
  obtain ⟨q, st, -, rfl⟩ := mem_separateDeaths.1 hd
  rcases mem_forwardDeath.1 hm with ⟨x, -, -, rfl⟩ | ⟨w, -, -, rfl⟩
  · rfl
  · rfl

theorem exit_mem_forwardedTo {q : Pid} {r : ExitReason} (hx : x.node = node)
    (hne : node ≠ far.me) :
    .exit q x r ∈ forwardedTo node (separateDeaths far) ↔
      r = .noConnection ∧ x ∈ far.linksOf q := by
  rw [mem_forwardedTo]
  constructor
  · rintro ⟨d, hd, hm⟩
    obtain ⟨q', st, hst, rfl⟩ := mem_separateDeaths.1 hd
    rcases mem_forwardDeath.1 hm with ⟨y, hy, -, heq⟩ | ⟨w, -, -, heq⟩
    · simp only [PeerMessage.exit.injEq] at heq
      obtain ⟨rfl, rfl, rfl⟩ := heq
      have hy : x ∈ st.links.toList ∧ _ := List.mem_filter.1 hy
      exact ⟨rfl, ParticleRegistry.mem_linksOf.2
        ⟨st, hst, KeySet.mem_toList.1 hy.1⟩⟩
    · cases heq
  · rintro ⟨rfl, hxq⟩
    obtain ⟨st, hst, hxq⟩ := ParticleRegistry.mem_linksOf.1 hxq
    refine ⟨_, mem_separateDeaths.2 ⟨q, st, hst, rfl⟩,
      mem_forwardDeath.2 (Or.inl ⟨x, ?_, hx, rfl⟩)⟩
    exact List.mem_filter.2 ⟨KeySet.mem_toList.2 hxq, by simp [hx, hne]⟩

theorem down_mem_forwardedTo {q : Pid} {ref : UInt64} {r : ExitReason}
    (hx : x.node = node) (hne : node ≠ far.me) :
    .down q x ref r ∈ forwardedTo node (separateDeaths far) ↔
      r = .noConnection ∧ (x, ref) ∈ far.watchersOf q := by
  rw [mem_forwardedTo]
  constructor
  · rintro ⟨d, hd, hm⟩
    obtain ⟨q', st, hst, rfl⟩ := mem_separateDeaths.1 hd
    rcases mem_forwardDeath.1 hm with ⟨y, -, -, heq⟩ | ⟨w, hw, -, heq⟩
    · cases heq
    · simp only [PeerMessage.down.injEq] at heq
      obtain ⟨rfl, rfl, rfl, rfl⟩ := heq
      have hw : w ∈ st.monitoredBy ∧ _ := List.mem_filter.1 hw
      refine ⟨rfl, ?_⟩
      simp only [ParticleRegistry.watchersOf, hst]
      exact hw.1
  · rintro ⟨rfl, hw⟩
    cases hst : far.state q with
    | none => simp [ParticleRegistry.watchersOf, hst] at hw
    | some st =>
      have hw : (x, ref) ∈ st.monitoredBy := by
        simpa [ParticleRegistry.watchersOf, hst] using hw
      refine ⟨_, mem_separateDeaths.2 ⟨q, st, hst, rfl⟩,
        mem_forwardDeath.2 (Or.inr ⟨(x, ref), ?_, hx, rfl⟩)⟩
      exact List.mem_filter.2 ⟨hw, by simp [hx, hne]⟩

theorem nodup_forwardDeath {d : ParticleDeath} (hlinks : d.remoteLinks.Nodup)
    (hmonitors : d.remoteMonitors.Nodup) :
    ((ParticleRegistry.forwardDeath d).map Prod.snd).Nodup := by
  rw [ParticleRegistry.forwardDeath, List.map_append, List.map_map,
    List.map_map]
  refine List.nodup_append.2 ⟨?_, ?_, ?_⟩
  · refine hlinks.map ?_
    intro x y h
    simpa using h
  · refine hmonitors.map ?_
    intro w w' h
    simp only [Function.comp_apply, PeerMessage.down.injEq] at h
    exact Prod.ext h.2.1 h.2.2.1
  · intro a ha b hb hab
    obtain ⟨x, -, rfl⟩ := List.mem_map.1 ha
    obtain ⟨w, -, rfl⟩ := List.mem_map.1 hb
    cases hab

theorem nodup_forwardedTo (hwatchers : ∀ q, (far.watchersOf q).Nodup)
    (node : EndpointId) : (forwardedTo node (separateDeaths far)).Nodup := by
  have hall : (((separateDeaths far).flatMap
      ParticleRegistry.forwardDeath).map Prod.snd).Nodup := by
    rw [List.map_flatMap, separateDeaths, List.flatMap_map, List.nodup_flatMap]
    refine ⟨?_, ?_⟩
    · intro e he
      have hst : far.state e.1 = some e.2 := AList.mem_lookup_iff.2 he
      have hw := hwatchers e.1
      simp only [ParticleRegistry.watchersOf, hst, Option.elim_some] at hw
      exact nodup_forwardDeath (e.2.links.nodup.filter _) (hw.filter _)
    · have hkeys := far.particleStates.nodupKeys
      rw [List.nodupKeys_iff_pairwise] at hkeys
      refine hkeys.imp ?_
      intro e e' hne a ha ha'
      -- The source of a signal is the dead particle.
      have hsource : ∀ e : Sigma fun _ : Pid => ParticleState,
          a ∈ (ParticleRegistry.forwardDeath (ParticleRegistry.deathOf far.me
            e.1 e.2 (far.namesHeld e.1).head? .noConnection)).map Prod.snd →
          (∃ x r, a = .exit e.1 x r) ∨ ∃ x ref r, a = .down e.1 x ref r := by
        intro e he
        obtain ⟨⟨n, m⟩, hm, rfl⟩ := List.mem_map.1 he
        rcases mem_forwardDeath.1 hm with ⟨x, -, -, rfl⟩ | ⟨w, -, -, rfl⟩
        · exact Or.inl ⟨x, _, rfl⟩
        · exact Or.inr ⟨w.1, w.2, _, rfl⟩
      rcases hsource e ha with ⟨x, r, rfl⟩ | ⟨x, ref, r, rfl⟩
      · rcases hsource e' ha' with ⟨x', r', heq⟩ | ⟨x', ref', r', heq⟩
        · simp only [PeerMessage.exit.injEq] at heq
          exact hne heq.1
        · cases heq
      · rcases hsource e' ha' with ⟨x', r', heq⟩ | ⟨x', ref', r', heq⟩
        · cases heq
        · simp only [PeerMessage.down.injEq] at heq
          exact hne heq.1
  exact ((List.filter_sublist).map Prod.snd).nodup hall

theorem Mirrors.sameMail (h : Mirrors reg far)
    (hmsgs : msgs.Perm (forwardedTo reg.me (separateDeaths far))) :
    SameMail reg (lossSignals reg far.me) msgs := by
  intro x hx
  have hnode := h.own x hx
  have hnodup : msgs.Nodup :=
    hmsgs.symm.nodup (nodup_forwardedTo h.watchers reg.me)
  refine (List.perm_ext_iff_of_nodup ((nodup_lossSignals reg far.me).filter _)
    (hnodup.filter _)).2 fun m => ?_
  rw [List.mem_filter, List.mem_filter, hmsgs.mem_iff]
  refine and_congr_left fun hfor => ?_
  cases m with
  | exit q y r =>
    obtain rfl : y = x := by simpa [isFor] using hfor
    rw [exit_mem_lossSignals, exit_mem_forwardedTo hnode h.apart]
    refine and_congr_right fun _ => ?_
    constructor
    · rintro ⟨hq, hfar⟩
      exact (h.links y q hx hfar).1 hq
    · intro hq
      obtain ⟨st, hst, -⟩ := ParticleRegistry.mem_linksOf.1 hq
      have hfar := h.ownFar q (ParticleRegistry.alive_iff.2 ⟨st, hst⟩)
      exact ⟨(h.links y q hx hfar).2 hq, hfar⟩
  | down q y ref r =>
    obtain rfl : y = x := by simpa [isFor] using hfor
    rw [down_mem_lossSignals, down_mem_forwardedTo hnode h.apart]
    refine and_congr_right fun _ => ?_
    constructor
    · rintro ⟨⟨st, hst, hq⟩, hfar⟩
      exact (h.monitors y st q ref hst hfar).1 hq
    · intro hq
      have hfar : q.node = far.me := by
        apply h.ownFar q
        rw [ParticleRegistry.alive_iff]
        cases hst : far.state q with
        | none => simp [ParticleRegistry.watchersOf, hst] at hq
        | some st => exact ⟨st, rfl⟩
      obtain ⟨st, hst⟩ := ParticleRegistry.alive_iff.1 hx
      exact ⟨⟨st, hst, (h.monitors y st q ref hst hfar).2 hq⟩, hfar⟩
  | link _ _ | unlink _ _ | monitor _ _ _ | demonitor _ _
  | exitSignal _ _ _ => cases hfor

/-- A lost node is indistinguishable from the particles on it dying separately,
in whatever order their signals arrive. -/
theorem lost_node_is_separate_deaths (h : Mirrors reg far)
    (hmsgs : msgs.Perm (forwardedTo reg.me (separateDeaths far))) (x : Pid) :
    ((reg.loseNode far.me).state x = none ↔
      (handleAll reg msgs).state x = none) ∧
    ∀ before lost told, reg.state x = some before →
      (reg.loseNode far.me).state x = some lost →
      (handleAll reg msgs).state x = some told →
      Received List.Perm before lost told ∧
        ∀ q, q.node ≠ far.me → (q ∈ lost.links ↔ q ∈ told.links) := by
  have hfate := sameFate_handleAll (isSignal_lossSignals reg far.me)
    (fun m hm => isSignal_forwardedTo reg.me m (hmsgs.mem_iff.1 hm))
    (h.sameMail hmsgs) x
  -- The reactor then forgets the node, which no mailbox shows.
  have hlose : (reg.loseNode far.me).state x =
      (handleAll reg (lossSignals reg far.me)).state x ∨
      (reg.loseNode far.me).state x =
        ((handleAll reg (lossSignals reg far.me)).forgetNode far.me).state x := by
    rw [loseNode_eq]
    split
    · rename_i hempty
      exact Or.inl (by rw [hempty]; rfl)
    · exact Or.inr rfl
  rcases hlose with hlose | hlose
  · rw [hlose]
    refine ⟨hfate.1, ?_⟩
    intro before lost told hbefore hlost htold
    obtain ⟨hreceived, hlinks⟩ := hfate.2 before lost told hbefore hlost htold
    exact ⟨hreceived, fun q _ => hlinks q⟩
  · rw [hlose, state_forgetNode, Option.map_eq_none_iff]
    refine ⟨hfate.1, ?_⟩
    intro before lost told hbefore hlost htold
    obtain ⟨s, hs, rfl⟩ := Option.map_eq_some_iff.1 hlost
    obtain ⟨⟨l, l', hl, hl', hperm⟩, hlinks⟩ :=
      hfate.2 before s told hbefore hs htold
    refine ⟨⟨l, l', hl, hl', hperm⟩, ?_⟩
    intro q hq
    rw [KeySet.mem_retain, ← hlinks q]
    simp [hq]

theorem state_chainNodes {e : EndpointId} {x : Pid} {st : ParticleState} :
    (chainNodes e).state x = some st ↔ (x, st) ∈ chainStates ∧ x.node = e := by
  have hkeys : (chainStates.map Prod.fst).Nodup := by decide
  rw [chainNodes, state_hosting e x _
    ((List.filter_sublist.map Prod.fst).nodup hkeys), Option.map_eq_some_iff]
  constructor
  · rintro ⟨s, hs, rfl⟩
    have hmem := List.mem_filter.1 (List.mem_of_find?_eq_some hs)
    obtain rfl : s.1 = x := by simpa using List.find?_some hs
    exact ⟨hmem.1, by simpa using hmem.2⟩
  · rintro ⟨hmem, rfl⟩
    have hin : (x, st) ∈ chainStates.filter fun s => s.1.node = x.node :=
      List.mem_filter.2 ⟨hmem, by simp⟩
    obtain ⟨s, hs⟩ := Option.isSome_iff_exists.1
      (List.find?_isSome (p := fun s => s.1 = x).2 ⟨(x, st), hin, by simp⟩)
    have hfst : s.1 = x := by simpa using List.find?_some hs
    have hs' := List.mem_filter.1 (List.mem_of_find?_eq_some hs)
    have hsnd := List.inj_on_of_nodup_map hkeys hs'.1 hmem hfst
    exact ⟨s, hs, by rw [hsnd]⟩

/-- The chain records each link at both ends. -/
theorem linksOf_chainNodes {x q : Pid}
    (h : q ∈ (chainNodes x.node).linksOf x) :
    x ∈ (chainNodes q.node).linksOf q := by
  have hends : ∀ s ∈ chainStates, ∀ q ∈ s.2.links.toList,
      ∃ s' ∈ chainStates, s'.1 = q ∧ s.1 ∈ s'.2.links := by decide
  obtain ⟨st, hst, hq⟩ := ParticleRegistry.mem_linksOf.1 h
  obtain ⟨⟨y, st'⟩, hmem, rfl, hx⟩ :=
    hends _ (state_chainNodes.1 hst).1 q (KeySet.mem_toList.2 hq)
  exact ParticleRegistry.mem_linksOf.2 ⟨st', state_chainNodes.2 ⟨hmem, rfl⟩, hx⟩

theorem chainStates_monitors {x : Pid} {st : ParticleState}
    (h : (x, st) ∈ chainStates) : st.monitors = ∅ ∧ st.monitoredBy = [] := by
  have hall : ∀ s ∈ chainStates,
      s.2.monitors = ∅ ∧ s.2.monitoredBy = [] := by
    simp [chainStates, chainState, ParticleState.new]
  exact hall _ h

theorem watchersOf_chainNodes (e : EndpointId) (q : Pid) :
    (chainNodes e).watchersOf q = [] := by
  rw [ParticleRegistry.watchersOf]
  cases hst : (chainNodes e).state q with
  | none => rfl
  | some st => exact (chainStates_monitors (state_chainNodes.1 hst).1).2

theorem mirrors_chain : Mirrors (chainNodes ⟨1⟩) (chainNodes ⟨2⟩) := by
  have hown : ∀ e x, (chainNodes e).Alive x → x.node = e := gathers_chain.own
  refine ⟨by decide, hown ⟨1⟩, ?_, ?_, ?_, hown ⟨2⟩⟩
  · intro x q hx hq
    obtain hx : x.node = ⟨1⟩ := hown ⟨1⟩ x hx
    obtain hq : q.node = ⟨2⟩ := hq
    constructor
    · intro h
      have h' := linksOf_chainNodes (hx.symm ▸ h)
      rwa [hq] at h'
    · intro h
      have h' := linksOf_chainNodes (hq.symm ▸ h)
      rwa [hx] at h'
  · intro x st q ref hst _
    rw [(chainStates_monitors (state_chainNodes.1 hst).1).1,
      watchersOf_chainNodes]
    simp
  · intro q
    rw [watchersOf_chainNodes]
    exact List.nodup_nil

/-- The loss of the second node kills the first particle of the chain, and so
does the exit signal for the third followed by the one for the first. -/
theorem lost_node_is_separate_deaths_chain :
    ((chainNodes ⟨1⟩).loseNode ⟨2⟩).state ⟨⟨1⟩, 1⟩ = none ∧
    (handleAll (chainNodes ⟨1⟩)
      (forwardedTo ⟨1⟩ (separateDeaths (chainNodes ⟨2⟩))).reverse).state
        ⟨⟨1⟩, 1⟩ = none := by
  have hlost : (((chainNodes ⟨1⟩).loseNode ⟨2⟩).state ⟨⟨1⟩, 1⟩).isNone =
      true := by decide +kernel
  have hnone := Option.isNone_iff_eq_none.1 hlost
  exact ⟨hnone, (lost_node_is_separate_deaths mirrors_chain
    (List.reverse_perm _) ⟨⟨1⟩, 1⟩).1.1 hnone⟩

end LostNodeDeaths

end Plasmoid
