import Plasmoid.NamedLinks

/-!
# Demonitoring a particle of another node

A watcher that demonitors should be forgotten by the node of the target.  That
node can be told by a message, and has a handler for it, but the host call
only drops the watcher's own half and sends nothing.  So a demonitored target
keeps its entry for as long as it lives, and its death still sends a down
signal.
-/

namespace Plasmoid

open Machine

namespace ParticleRegistry

variable (codec : WireCodec PeerMessage)

/-- The down signals of `y` for `w` that the forwarder hands to `send` when `y`
dies. -/
def downsFor (reg : ParticleRegistry) (y w : Pid) (refId : UInt64)
    (reason : ExitReason) : List PeerMessage :=
  (((reg.deathsOf y reason).flatMap forwardDeath).map Prod.snd).filter
    (PeerMessage.isDown y w refId)

/-- Those of them that are not refused. -/
def downsTo (reg : ParticleRegistry) (y w : Pid) (refId : UInt64)
    (reason : ExitReason) : List PeerMessage :=
  (reg.downsFor y w refId reason).filter codec.accepts

theorem downsTo_of_dead {reg : ParticleRegistry} {y : Pid}
    (h : ¬ reg.Alive y) (w : Pid) (refId : UInt64) (reason : ExitReason) :
    reg.downsTo codec y w refId reason = [] := by
  rw [downsTo, downsFor, deathsOf, exitParticle_of_dead reason h,
    List.drop_length]
  rfl

/-- The down signals that a death sends `w` under one ref are all the same. -/
theorem eq_of_mem_downsFor {reg : ParticleRegistry} (hl : reg.AllLocal)
    {y w : Pid} {refId : UInt64} {reason : ExitReason} {m : PeerMessage}
    (hm : m ∈ reg.downsFor y w refId reason) :
    m = .down y w refId reason := by
  obtain ⟨hm, hdown⟩ := List.mem_filter.1 hm
  obtain ⟨e, he, rfl⟩ := List.mem_map.1 hm
  obtain ⟨d, hd, he⟩ := List.mem_flatMap.1 he
  have hy : reg.Alive y := by
    by_contra hdead
    rw [deathsOf, exitParticle_of_dead reason hdead, List.drop_length] at hd
    cases hd
  have hreason := ((deathsOf_spec hl hy reason).2.2 d hd).1
  rcases List.mem_append.1 he with he | he
  · obtain ⟨x, -, rfl⟩ := List.mem_map.1 he
    cases hdown
  · obtain ⟨v, -, rfl⟩ := List.mem_map.1 he
    simp only [PeerMessage.isDown, decide_eq_true_eq] at hdown
    rw [hdown.1, hdown.2.1, hdown.2.2, hreason]

/-- A watcher on another node that is recorded is sent a down signal. -/
theorem mem_downsFor {reg : ParticleRegistry} (hl : reg.AllLocal) {y w : Pid}
    {st : ParticleState} (hst : reg.state y = some st) {refId : UInt64}
    (hentry : (w, refId) ∈ st.monitoredBy) (hw : w.node ≠ reg.me)
    (reason : ExitReason) :
    .down y w refId reason ∈ reg.downsFor y w refId reason := by
  obtain ⟨-, ⟨d, hd, hpid⟩, hall⟩ :=
    deathsOf_spec hl (alive_iff.2 ⟨st, hst⟩) reason
  obtain ⟨hreason, st', hst', hreports⟩ := hall d hd
  rw [hpid, hst, Option.some_inj] at hst'
  subst hst'
  have hremote : (w, refId) ∈ d.remoteMonitors := by
    rw [hreports.monitors]
    exact List.mem_filter.2 ⟨hentry, by simp [Pid.isLocalTo, hw]⟩
  have hsent : (w.node, PeerMessage.down y w refId reason) ∈ forwardDeath d := by
    refine List.mem_append_right _ (List.mem_map.2 ⟨(w, refId), hremote, ?_⟩)
    rw [hpid, hreason]
  have hall : (w.node, PeerMessage.down y w refId reason) ∈
      (reg.deathsOf y reason).flatMap forwardDeath :=
    List.mem_flatMap.2 ⟨d, hd, hsent⟩
  refine List.mem_filter.2 ⟨List.mem_map_of_mem hall, ?_⟩
  simp [PeerMessage.isDown]

/-- Down signals for one ref, as they arrive. -/
theorem foldl_handle_downs (y w : Pid) (refId : UInt64) :
    ∀ (msgs : List PeerMessage) (there : ParticleRegistry) (st : ParticleState),
      (∀ m ∈ msgs, m.isDown y w refId = true) → there.state w = some st →
      ∃ st', (msgs.foldl (fun g m => (g.handlePeerMessage m).1) there).state w =
        some st' ∧
        st'.mailbox.queue.length = st.mailbox.queue.length + msgs.length := by
  intro msgs
  induction msgs with
  | nil =>
    intro there st _ hst
    exact ⟨st, hst, rfl⟩
  | cons m msgs ih =>
    intro there st hmsgs hst
    have hm := hmsgs m List.mem_cons_self
    cases m with
    | down a b r reason =>
      simp only [PeerMessage.isDown, decide_eq_true_eq] at hm
      obtain ⟨rfl, rfl, rfl⟩ := hm
      have hst₁ : (there.deliverDown b a r reason).state b =
          some { st with
            mailbox := st.mailbox.pushSystem (.down a r reason) } := by
        rw [deliverDown, sendSystem, state_modifyState, if_pos rfl, hst,
          Option.map_some]
      obtain ⟨st', hst', hlength⟩ := ih (there.deliverDown b a r reason) _
        (fun m hm => hmsgs m (List.mem_cons_of_mem _ hm)) hst₁
      refine ⟨st', hst', ?_⟩
      rw [hlength]
      simp only [Mailbox.pushSystem, List.length_cons]
      omega
    | _ => cases hm

end ParticleRegistry

namespace PeerCalls

open ParticleRegistry

variable (codec : WireCodec PeerMessage)

/-- The death of the target tells the watcher nothing.  `there` is the registry
of the watcher's node when the signals arrive. -/
def SilentDeath (s : PeerCalls) (w : Watch) (reason : ExitReason)
    (there : ParticleRegistry) : Prop :=
  ((s.nodes w.side.other).reg.downsTo codec w.target w.watcher w.refId
    reason).foldl (fun g m => (g.handlePeerMessage m).1) there = there

/-- The node of the target has forgotten the watcher. -/
structure Forgotten (s : PeerCalls) (w : Watch) : Prop where
  noEntry : ∀ st, (s.nodes w.side.other).reg.state w.target = some st →
    (w.watcher, w.refId) ∉ st.monitoredBy
  silent : ∀ reason there, s.SilentDeath codec w reason there

variable {codec}

/-- Once nothing is in flight, a monitored particle that is alive has recorded
its watcher. -/
theorem entry_of_watch {left right : EndpointId} (hne : left ≠ right)
    {s : PeerCalls} (hrun : Run (step codec) anyStep (start left right) s)
    (hquiet : s.Quiet) {w : Watch} (hw : w ∈ s.watches) {st : ParticleState}
    (hst : (s.nodes w.side.other).reg.state w.target = some st) :
    (w.watcher, w.refId) ∈ st.monitoredBy := by
  obtain ⟨-, hrecorded⟩ := (callsInv_run hne hrun).watched w hw
  rcases hrecorded st hst with hflight | hentry
  · rw [hquiet w.side] at hflight
    cases hflight
  · exact hentry

/-- A living watcher does hear of the death, whether or not it has
demonitored, unless its signal is refused. -/
theorem not_silentDeath {left right : EndpointId} (hne : left ≠ right)
    {s : PeerCalls} (hrun : Run (step codec) anyStep (start left right) s)
    (hquiet : s.Quiet) {w : Watch} (hw : w ∈ s.watches)
    (halive : (s.nodes w.side.other).reg.Alive w.target) {reason : ExitReason}
    (haccepts : codec.accepts (.down w.target w.watcher w.refId reason) = true)
    {there : ParticleRegistry} (hthere : there.Alive w.watcher) :
    ¬ s.SilentDeath codec w reason there := by
  intro hsilent
  have hs := callsInv_run hne hrun
  obtain ⟨st, hst⟩ := alive_iff.1 halive
  obtain ⟨stw, hstw⟩ := alive_iff.1 hthere
  have hfar : w.watcher.node ≠ (s.nodes w.side.other).reg.me := by
    rw [(hs.watched w hw).1]
    exact (hs.nodes.apart w.side).symm
  have hdown : .down w.target w.watcher w.refId reason ∈
      (s.nodes w.side.other).reg.downsTo codec w.target w.watcher w.refId
        reason :=
    List.mem_filter.2 ⟨mem_downsFor (hs.nodes.allLocal w.side.other) hst
      (entry_of_watch hne hrun hquiet hw hst) hfar reason, haccepts⟩
  obtain ⟨st', hst', hlength⟩ := foldl_handle_downs w.target w.watcher w.refId
    ((s.nodes w.side.other).reg.downsTo codec w.target w.watcher w.refId
      reason)
    there stw (fun m hm => (List.mem_filter.1 (List.mem_of_mem_filter hm)).2)
    hstw
  rw [hsilent, hstw, Option.some_inj] at hst'
  subst hst'
  have hpos := List.length_pos_of_mem hdown
  omega

/-- A death whose down signal is refused tells the watcher nothing. -/
theorem silentDeath_of_refused {left right : EndpointId} (hne : left ≠ right)
    {s : PeerCalls} (hrun : Run (step codec) anyStep (start left right) s)
    {w : Watch} {reason : ExitReason}
    (hrefused : codec.accepts (.down w.target w.watcher w.refId reason) = false)
    (there : ParticleRegistry) : s.SilentDeath codec w reason there := by
  have hnone : (s.nodes w.side.other).reg.downsTo codec w.target w.watcher
      w.refId reason = [] := by
    refine List.filter_eq_nil_iff.2 fun m hm => ?_
    rw [eq_of_mem_downsFor ((callsInv_run hne hrun).nodes.allLocal _) hm,
      hrefused]
    exact Bool.false_ne_true
  rw [SilentDeath, hnone]
  rfl

/-- A demonitored target is forgotten just if it is dead.  While it is alive
the entry is there, and its death still tells a living watcher, unless the
message is refused. -/
theorem demonitor_forgets_iff (codec : WireCodec PeerMessage)
    (left right : EndpointId) (hne : left ≠ right) (s : PeerCalls)
    (hrun : Run (step codec) anyStep (start left right) s) (hquiet : s.Quiet)
    (w : Watch) (hw : w ∈ s.watches)
    (_hdropped : (w.watcher, w.refId) ∈ s.dropped) :
    (s.Forgotten codec w ↔
      ¬ (s.nodes w.side.other).reg.Alive w.target) ∧
      ∀ reason there, there.Alive w.watcher →
        (s.SilentDeath codec w reason there ↔
          ¬ (s.nodes w.side.other).reg.Alive w.target ∨
            codec.accepts (.down w.target w.watcher w.refId reason) =
              false) := by
  have hsilent : ∀ reason there,
      ¬ (s.nodes w.side.other).reg.Alive w.target →
        s.SilentDeath codec w reason there := by
    intro reason there hdead
    rw [SilentDeath, downsTo_of_dead codec hdead]
    rfl
  refine ⟨⟨?_, ?_⟩, fun reason there hthere => ⟨?_, ?_⟩⟩
  · intro hforgotten halive
    obtain ⟨st, hst⟩ := alive_iff.1 halive
    exact hforgotten.noEntry st hst (entry_of_watch hne hrun hquiet hw hst)
  · intro hdead
    refine ⟨?_, fun reason there => hsilent reason there hdead⟩
    intro st hst
    exact absurd (alive_iff.2 ⟨st, hst⟩) hdead
  · intro hnothing
    rw [or_iff_not_imp_left, not_not]
    intro halive
    by_contra haccepts
    exact not_silentDeath hne hrun hquiet hw halive
      (Bool.of_not_eq_false haccepts) hthere hnothing
  · rintro (hdead | hrefused)
    · exact hsilent reason there hdead
    · exact silentDeath_of_refused hne hrun hrefused there

/-- A particle of the left node monitors one of the right node, and demonitors
it once the request has arrived. -/
def monitorAndDemonitor : List (Side × HostAction) :=
  [(.left, .perform (.atomic (.registerComponent "worker"))),
    (.right, .perform (.atomic (.registerComponent "worker"))),
    (.left, .spawn "worker" none), (.right, .spawn "worker" none),
    (.left, .monitor ⟨⟨1⟩, 1⟩ (.pid (some ⟨⟨2⟩, 1⟩))), (.right, .receive),
    (.left, .demonitor ⟨⟨1⟩, 1⟩ 1)]

theorem demonitor_forgets_iff_oneMonitor :
    ∃ s, Run (step textWire) anyStep (start ⟨1⟩ ⟨2⟩) s ∧ s.Quiet ∧
      ⟨.left, ⟨⟨1⟩, 1⟩, ⟨⟨2⟩, 1⟩, 1⟩ ∈ s.watches ∧
      (⟨⟨1⟩, 1⟩, 1) ∈ s.dropped ∧
      (s.Forgotten textWire ⟨.left, ⟨⟨1⟩, 1⟩, ⟨⟨2⟩, 1⟩, 1⟩ ↔
        ¬ (s.nodes .right).reg.Alive ⟨⟨2⟩, 1⟩) := by
  obtain ⟨s, hrun, hquiet, hw, hdropped⟩ : ∃ s,
      Run (step textWire) anyStep (start ⟨1⟩ ⟨2⟩) s ∧ s.Quiet ∧
      ⟨.left, ⟨⟨1⟩, 1⟩, ⟨⟨2⟩, 1⟩, 1⟩ ∈ s.watches ∧
      (⟨⟨1⟩, 1⟩, 1) ∈ s.dropped :=
    exec_run_of_any (α := Side × HostAction) monitorAndDemonitor
      (by decide +kernel)
  exact ⟨s, hrun, hquiet, hw, hdropped,
    (demonitor_forgets_iff textWire ⟨1⟩ ⟨2⟩ (by decide) s hrun hquiet _ hw
      hdropped).1⟩

/-- The target is alive, nothing is in flight, and the entry is still there. -/
theorem demonitored_entry_remains :
    ¬ ∀ (codec : WireCodec PeerMessage) (left right : EndpointId),
      left ≠ right → ∀ s : PeerCalls,
        Run (step codec) anyStep (start left right) s → s.Quiet →
          ∀ w ∈ s.watches, (w.watcher, w.refId) ∈ s.dropped →
            s.Forgotten codec w := by
  intro h
  obtain ⟨s, hrun, hquiet, hw, hdropped, halive⟩ : ∃ s,
      Run (step textWire) anyStep (start ⟨1⟩ ⟨2⟩) s ∧ s.Quiet ∧
      ⟨.left, ⟨⟨1⟩, 1⟩, ⟨⟨2⟩, 1⟩, 1⟩ ∈ s.watches ∧
      (⟨⟨1⟩, 1⟩, 1) ∈ s.dropped ∧ (s.nodes .right).reg.Alive ⟨⟨2⟩, 1⟩ :=
    exec_run_of_any (α := Side × HostAction) monitorAndDemonitor
      (by decide +kernel)
  obtain ⟨st, hst⟩ := alive_iff.1 halive
  have hforgotten := h textWire ⟨1⟩ ⟨2⟩ (by decide) s hrun hquiet _ hw hdropped
  exact hforgotten.noEntry st hst
    (entry_of_watch (by decide) hrun hquiet hw hst)

end PeerCalls

end Plasmoid
