import Plasmoid.RemoteHalves

/-!
# Which halves are recorded

Two invariants of two nodes whose guests call the host.  Whoever was linked by
name holds its own half of the link (`Linked`).  Whoever is monitored has
recorded its watcher, unless the request is still under way (`Watched`).  They
hold in every run, and they say nothing about the other halves.
-/

namespace Plasmoid

open Machine ParticleRegistry PeerNode

namespace PeerCalls

/-! ## What a step can do -/

variable {codec : WireCodec PeerMessage}

private theorem step_act (s : PeerCalls) (d : Side) {a : HostAction}
    (ha : a ≠ .receive) : s.step codec (d, a) = ((s.nodes d).act codec a).map fun n =>
      s.record codec d a (Function.update s.nodes d n) := by
  cases a with
  | receive => exact absurd rfl ha
  | _ => rfl

/-- A node acts alone, or the oldest message of its peer arrives. -/
theorem step_cases {s t : PeerCalls} {d : Side} {a : HostAction}
    (h : s.step codec (d, a) = some t) :
    (∃ n, a ≠ .receive ∧ (s.nodes d).act codec a = some n ∧
      t = s.record codec d a (Function.update s.nodes d n)) ∨
    ∃ msg rest, a = .receive ∧ (s.nodes d.other).outbox = msg :: rest ∧
      t = s.record codec d .receive (Function.update
        (Function.update s.nodes d.other { s.nodes d.other with outbox := rest })
        d ((s.nodes d).carry codec ((s.nodes d).reg.handlePeerMessage msg))) := by
  by_cases ha : a = .receive
  · subst ha
    rw [step] at h
    split at h
    · cases h
    · rename_i msg rest houtbox
      cases h
      exact Or.inr ⟨msg, rest, rfl, houtbox, rfl⟩
  · rw [step_act s d ha] at h
    obtain ⟨n, hn, rfl⟩ := Option.map_eq_some_iff.1 h
    exact Or.inl ⟨n, ha, hn, rfl⟩

/-! ## The nodes -/

/-- Two nodes that know each other, and send only what they may. -/
structure NodesInv (s : PeerCalls) : Prop where
  apart : ∀ d, (s.nodes d.other).reg.me ≠ (s.nodes d).reg.me
  peer : ∀ d, (s.nodes d).peer = (s.nodes d.other).reg.me
  allLocal : ∀ d, (s.nodes d).reg.AllLocal
  sent : ∀ d, ∀ m ∈ (s.nodes d).outbox, m.sentBy (s.nodes d).reg.me

theorem nodesInv_start {left right : EndpointId} (hne : left ≠ right) :
    NodesInv (start left right) where
  apart d := by
    cases d with
    | left => exact hne.symm
    | right => exact hne
  peer d := by cases d <;> rfl
  allLocal d := by
    cases d <;> exact fun x h => absurd h (AList.notMem_empty x)
  sent d := by
    cases d <;> exact fun m h => absurd h List.not_mem_nil

variable {s t : PeerCalls} {d : Side} {a : HostAction}

/-- The side of the step moves, and the other one has at most one message
less. -/
theorem step_moves (hs : NodesInv s) (h : s.step codec (d, a) = some t) :
    Moves (s.nodes d) (t.nodes d) ∧
      ∃ rest, t.nodes d.other = { s.nodes d.other with outbox := rest } ∧
        rest.Sublist (s.nodes d.other).outbox := by
  have hne : d.other ≠ d := Side.other_ne d
  rcases step_cases h with ⟨n, -, hn, rfl⟩ | ⟨msg, rest, -, houtbox, rfl⟩
  · refine ⟨?_, (s.nodes d.other).outbox, ?_, .refl _⟩
    · simp only [record, Function.update_self]
      exact moves_act (hs.allLocal d) hn
    · simp only [record, Function.update_of_ne hne]
  · refine ⟨?_, rest, ?_, ?_⟩
    · simp only [record, Function.update_self]
      have hmsg : msg.sentBy (s.nodes d.other).reg.me :=
        hs.sent d.other msg (houtbox ▸ List.mem_cons_self)
      have hworks : Works (s.nodes d)
          ((s.nodes d).carry codec ((s.nodes d).reg.handlePeerMessage msg))
          (s.nodes d).reg.pidGen.peek fun _ => True :=
        works_receive (hs.allLocal d) hmsg fun _ _ _ _ _ _ => trivial
      exact hworks.toMoves
    · simp only [record, Function.update_of_ne hne, Function.update_self]
    · rw [houtbox]
      exact List.sublist_cons_self msg rest

theorem me_step (hs : NodesInv s) (h : s.step codec (d, a) = some t) (e : Side) :
    (t.nodes e).reg.me = (s.nodes e).reg.me := by
  obtain ⟨hmoves, rest, hother, -⟩ := step_moves hs h
  rcases Side.eq_or_eq_other d e with rfl | rfl
  · exact hmoves.me
  · rw [hother]

/-- The registry of the side that does not step. -/
theorem reg_step_other (hs : NodesInv s) (h : s.step codec (d, a) = some t) :
    (t.nodes d.other).reg = (s.nodes d.other).reg := by
  obtain ⟨-, rest, hother, -⟩ := step_moves hs h
  rw [hother]

theorem NodesInv.step (hs : NodesInv s) (h : s.step codec (d, a) = some t) :
    NodesInv t := by
  obtain ⟨hmoves, rest, hother, hrest⟩ := step_moves hs h
  refine ⟨?_, ?_, ?_, ?_⟩
  · intro e
    rw [me_step hs h, me_step hs h]
    exact hs.apart e
  · intro e
    rw [me_step hs h]
    rcases Side.eq_or_eq_other d e with rfl | rfl
    · rw [hmoves.peer]
      exact hs.peer e
    · rw [hother]
      exact hs.peer d.other
  · intro e
    rcases Side.eq_or_eq_other d e with rfl | rfl
    · exact hmoves.allLocal
    · rw [hother]
      exact hs.allLocal d.other
  · intro e m hm
    rw [me_step hs h]
    rcases Side.eq_or_eq_other d e with rfl | rfl
    · exact (hmoves.sent m hm).elim (hs.sent e m) id
    · rw [hother] at hm
      exact hs.sent d.other m (hrest.subset hm)

/-! ## What one particle has recorded -/

/-- A step of the node of `y` keeps what `y` has recorded, but for what it
unlinks. -/
theorem kept_step (hs : NodesInv s) (h : s.step codec (d, a) = some t) {y : Pid}
    (hdraw : s.redraws d y a = false) (hlose : a ≠ .lose)
    {st' : ParticleState} (hst' : (t.nodes d).reg.state y = some st') :
    ∃ st, (s.nodes d).reg.state y = some st ∧
      KeepsAcross (s.nodes d).reg.me
        (fun x => s.unlinked d a = some (y, x)) st st' := by
  rcases step_cases h with ⟨n, -, hn, rfl⟩ | ⟨msg, rest, rfl, houtbox, rfl⟩
  · simp only [record, Function.update_self] at hst'
    by_cases hspawn : ∃ c name, a = .spawn c name
    · obtain ⟨c, name, rfl⟩ := hspawn
      cases hn
      rw [redraws, decide_eq_false_iff_not] at hdraw
      rw [state_spawn _ c name (Ne.symm hdraw)] at hst'
      exact ⟨st', hst', .refl _ _ st'⟩
    · refine (works_act (hs.allLocal d) hn
        (fun c name heq => hspawn ⟨c, name, heq⟩) hlose ?_).carries.kept st' hst'
      rintro x dest u rfl hu rfl
      simp only [unlinked, hu, Option.map_some]
  · simp only [record, Function.update_self] at hst'
    have hmsg : msg.sentBy (s.nodes d.other).reg.me :=
      hs.sent d.other msg (houtbox ▸ List.mem_cons_self)
    refine (works_receive (hs.allLocal d) hmsg ?_).carries.kept st' hst'
    rintro source target u rfl hu rfl
    simp only [unlinked, next, houtbox, List.head?_cons, hu, Option.map_some]

/-- What arrives when a side receives. -/
theorem receive_cases {msg : PeerMessage} (hnext : s.next d = some msg)
    (h : s.step codec (d, .receive) = some t) :
    (t.nodes d).reg = ((s.nodes d).reg.handlePeerMessage msg).1 ∧
      (s.nodes d.other).outbox = msg :: (t.nodes d.other).outbox := by
  rcases step_cases h with ⟨n, hne, -, -⟩ | ⟨msg', rest, -, houtbox, rfl⟩
  · exact absurd rfl hne
  · rw [next, houtbox, List.head?_cons, Option.some_inj] at hnext
    subst hnext
    refine ⟨?_, ?_⟩
    · simp only [record, Function.update_self]
      rfl
    · simp only [record, Function.update_of_ne (Side.other_ne d),
        Function.update_self]
      exact houtbox

/-! ## Links made by name -/

/-- Both ends of a link made by name are alive, and the target has recorded
its half. -/
def Linked (s : PeerCalls) : Prop :=
  ∀ l ∈ s.named, (s.nodes l.side).reg.Alive l.linker ∧
    ∃ st, (s.nodes l.side.other).reg.state l.target = some st ∧
      l.linker ∈ st.links

theorem Linked.step (hs : NodesInv s) (hl : Linked s)
    (h : s.step codec (d, a) = some t) : Linked t := by
  intro l hmem
  have hnamed : t.named = (s.named ++ s.newNamed d a).filter fun l =>
      !s.cuts d a l.linker l.target && (t.nodes l.side).reg.Alive l.linker &&
        (t.nodes l.side.other).reg.Alive l.target := by
    rcases step_cases h with ⟨n, -, -, rfl⟩ | ⟨msg, rest, rfl, -, rfl⟩ <;> rfl
  rw [hnamed, List.mem_filter] at hmem
  simp only [Bool.and_eq_true, decide_eq_true_eq] at hmem
  obtain ⟨hmem, ⟨hcuts, hlinker⟩, htarget⟩ := hmem
  obtain ⟨st', hst'⟩ := alive_iff.1 htarget
  refine ⟨hlinker, st', hst', ?_⟩
  rcases List.mem_append.1 hmem with hold | hnew
  · obtain ⟨halive, st, hst, hlink⟩ := hl l hold
    rcases Side.eq_or_eq_other d l.side with hd | hd
    · -- The node of the linker steps.
      rw [hd, reg_step_other hs h, ← hd, hst] at hst'
      cases hst'
      exact hlink
    · rw [hd, Side.other_other] at hst hst'
      simp only [cuts, Bool.not_eq_true', Bool.or_eq_false_iff,
        decide_eq_false_iff_not] at hcuts
      obtain ⟨⟨⟨⟨-, hcut⟩, -⟩, hdraw⟩, hlose⟩ := hcuts
      have hne : a ≠ .lose := by
        rintro rfl
        cases hlose
      obtain ⟨st₀, hst₀, hkeeps⟩ := kept_step hs h hdraw hne hst'
      rw [hst₀] at hst
      cases hst
      refine hkeeps.links _ ?_ hcut hlink
      rw [hs.allLocal l.side _ halive, hd]
      exact hs.apart d
  · -- The request arrives in this step.
    cases a with
    | receive =>
      rw [newNamed] at hnew
      split at hnew
      · rename_i source n hnext
        obtain ⟨u, hu, rfl⟩ := List.mem_map.1 hnew
        rw [Option.mem_toList] at hu
        simp only [Side.other_other] at hst' ⊢
        rw [(receive_cases hnext h).1, handlePeerMessage] at hst'
        simp only [resolve, hu, linkRemote, state_modifyState, if_pos] at hst'
        obtain ⟨st, -, rfl⟩ := Option.map_eq_some_iff.1 hst'
        exact KeySet.mem_insert.2 (Or.inl rfl)
      · cases hnew
    | _ => cases hnew

/-! ## Monitors -/

/-- The watcher belongs to its side, and the target, if it is alive, has
recorded it, or will. -/
def Records (s : PeerCalls) (w : Watch) : Prop :=
  w.watcher.node = (s.nodes w.side).reg.me ∧
    ∀ st, (s.nodes w.side.other).reg.state w.target = some st →
      .monitor w.watcher (.pid w.target) w.refId ∈ (s.nodes w.side).outbox ∨
        (w.watcher, w.refId) ∈ st.monitoredBy

def Watched (s : PeerCalls) : Prop := ∀ w ∈ s.watches, s.Records w

theorem mem_monitoredBy_of_handled {reg : ParticleRegistry} {w t : Pid}
    {target : Addressee} {refId : UInt64} (ht : reg.resolve target = some t)
    {st : ParticleState}
    (hst : (reg.handlePeerMessage (.monitor w target refId)).1.state t =
      some st) : (w, refId) ∈ st.monitoredBy := by
  simp only [handlePeerMessage, ht, monitorRemote] at hst
  rw [state_modifyState, if_pos rfl] at hst
  obtain ⟨st₀, -, rfl⟩ := Option.map_eq_some_iff.1 hst
  exact List.mem_append_right _ (List.mem_singleton.2 rfl)

theorem node_of_elsewhere {dest : Destination} {me node : EndpointId} {y : Pid}
    (h : dest.resolveLocal me = .elsewhere node (.pid y)) : node = y.node := by
  unfold Destination.resolveLocal at h
  split at h
  · split at h <;> cases h
    rfl
  · cases h
  · cases h
  · split at h <;> cases h
  · cases h

/-- A new monitor is under way, or it has just been recorded. -/
theorem records_new (hs : NodesInv s) (h : s.step codec (d, a) = some t) {w : Watch}
    (hnew : w ∈ s.newWatches codec d a) : t.Records w := by
  cases a with
  | monitor watcher dest =>
    rw [newWatches] at hnew
    split at hnew
    · rename_i node y hdest
      split at hnew
      · rename_i hsent
        obtain ⟨halive, haccepts⟩ := hsent
        rw [List.mem_singleton.1 hnew]
        have hnode : node = (s.nodes d).peer := by
          rw [node_of_elsewhere hdest, hs.peer]
          exact hs.allLocal d.other y halive
        rcases step_cases h with ⟨n, -, hn, rfl⟩ | ⟨msg, rest, heq, -, -⟩
        · rw [act] at hn
          split at hn
          · rename_i hw
            cases hn
            refine ⟨?_, fun st _ => Or.inl ?_⟩
            · rw [me_step hs h]
              exact hw
            · simp only [record, Function.update_self, hostMonitor, hdest]
              exact List.mem_append_right _ (by simp [hnode, haccepts])
          · cases hn
        · cases heq
      · cases hnew
    · cases hnew
  | receive =>
    rw [newWatches] at hnew
    split at hnew
    · rename_i watcher n refId hnext
      obtain ⟨u, hu, rfl⟩ := List.mem_map.1 hnew
      have hu : (s.nodes d).reg.resolve (.name n) = some u :=
        Option.mem_toList.1 hu
      obtain ⟨hreg, houtbox⟩ := receive_cases hnext h
      refine ⟨?_, fun st hst => Or.inr ?_⟩
      · rw [me_step hs h]
        exact hs.sent d.other _ (houtbox ▸ List.mem_cons_self)
      · simp only [Side.other_other] at hst
        rw [hreg] at hst
        exact mem_monitoredBy_of_handled hu hst
    · cases hnew
  | _ => cases hnew

/-- An old one stays under way until it is recorded, and stays recorded. -/
theorem records_old (hs : NodesInv s) (h : s.step codec (d, a) = some t) {w : Watch}
    (hforgets : s.forgets d a w.target = false) (hold : s.Records w) :
    t.Records w := by
  obtain ⟨hwatcher, hrecorded⟩ := hold
  refine ⟨hwatcher.trans (me_step hs h w.side).symm, fun st' hst' => ?_⟩
  rcases Side.eq_or_eq_other d w.side with hd | hd
  · -- The node of the watcher steps.
    rw [hd, reg_step_other hs h, ← hd] at hst'
    refine (hrecorded st' hst').imp_left fun hflight => ?_
    rw [hd] at hflight ⊢
    exact (step_moves hs h).1.kept _ hflight
  · unfold forgets at hforgets
    obtain ⟨hdraw, hlose⟩ := Bool.or_eq_false_iff.1 hforgets
    have hne : a ≠ .lose := by
      rintro rfl
      cases hlose
    have hside : w.side.other = d := by rw [hd, Side.other_other]
    rw [hside] at hst' hrecorded
    obtain ⟨st, hst, hkeeps⟩ := kept_step hs h hdraw hne hst'
    rcases hrecorded st hst with hflight | hentry
    · -- The request arrives now, or it is still under way.
      rw [hd] at hflight ⊢
      rcases step_cases h with ⟨n, -, hn, rfl⟩ | ⟨msg, rest, rfl, houtbox, rfl⟩
      · refine Or.inl ?_
        simpa only [record, Function.update_of_ne (Side.other_ne d)] using hflight
      · have hnext : s.next d = some msg := by
          rw [next, houtbox, List.head?_cons]
        obtain ⟨hreg, hrest⟩ := receive_cases hnext h
        rw [hrest] at hflight
        rcases List.mem_cons.1 hflight with heq | hflight
        · refine Or.inr ?_
          rw [hreg, ← heq] at hst'
          exact mem_monitoredBy_of_handled rfl hst'
        · exact Or.inl hflight
    · refine Or.inr (hkeeps.watchers _ hentry ?_)
      rw [hwatcher, hd]
      exact hs.apart d

theorem Watched.step (hs : NodesInv s) (hw : Watched s)
    (h : s.step codec (d, a) = some t) : Watched t := by
  intro w hmem
  have hwatches : t.watches = (s.watches ++ s.newWatches codec d a).filter fun w =>
      !s.forgets d a w.target := by
    rcases step_cases h with ⟨n, -, -, rfl⟩ | ⟨msg, rest, rfl, -, rfl⟩ <;> rfl
  rw [hwatches, List.mem_filter, Bool.not_eq_true'] at hmem
  obtain ⟨hmem, hforgets⟩ := hmem
  rcases List.mem_append.1 hmem with hold | hnew
  · exact records_old hs h hforgets (hw w hold)
  · exact records_new hs h hnew

/-! ## Every run -/

/-- What holds in every state of every run. -/
structure CallsInv (s : PeerCalls) : Prop where
  nodes : NodesInv s
  linked : Linked s
  watched : Watched s

theorem callsInv_run {left right : EndpointId} (hne : left ≠ right)
    (h : Run (step codec) anyStep (start left right) s) : CallsInv s := by
  refine h.invariant ?_ ⟨nodesInv_start hne, ?_, ?_⟩
  · intro s t a hs _ hnext
    obtain ⟨d, a⟩ := a
    exact ⟨hs.nodes.step hnext, hs.linked.step hs.nodes hnext,
      hs.watched.step hs.nodes hnext⟩
  · exact fun l hl => absurd hl List.not_mem_nil
  · exact fun w hw => absurd hw List.not_mem_nil

end PeerCalls

end Plasmoid
