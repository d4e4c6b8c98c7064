import Plasmoid.Party

/-!
# The signals between two parties

`Flow` counts the signals from one party to the particles of the other: those
that have arrived, those in flight, and those that the forwarder has yet to
send.  A particle dies once, and its death carries each of its links and
monitors once.  So at most one message is ever sent for a link, and at most
one for each time that a monitor was made.
-/

namespace Plasmoid

open Machine ParticleRegistry

/-! ## Counting -/

/-- An exit signal that a message from `y` brought to `x`. -/
def SignalEvent.isExitByMessage (x y : Pid) : SignalEvent → Bool
  | .exitByMessage a b _ => a = x ∧ b = y
  | _ => false

/-- A down signal that a message from `y` brought to `w` under `r`. -/
def SignalEvent.isDownByMessage (w y : Pid) (r : UInt64) : SignalEvent → Bool
  | .downByMessage a b c _ => a = w ∧ b = y ∧ c = r
  | _ => false

/-- A down signal to `w` under `r`, whoever it is for. -/
def SignalEvent.isDownFor (w : Pid) (r : UInt64) : SignalEvent → Bool
  | .downByMessage a _ c _ => a = w ∧ c = r
  | .downByLoss a _ c => a = w ∧ c = r
  | _ => false

/-- A monitor that `w` made under `r`. -/
def SignalEvent.isMonitorFor (w : Pid) (r : UInt64) : SignalEvent → Bool
  | .askedMonitor a _ c => a = w ∧ c = r
  | _ => false

/-- An exit message from `y` to `x`. -/
def PeerMessage.isExit (y x : Pid) : PeerMessage → Bool
  | .exit a b _ => a = y ∧ b = x
  | _ => false

/-- A down message from `y` to `w` under `r`. -/
def PeerMessage.isDown (y w : Pid) (r : UInt64) : PeerMessage → Bool
  | .down a b c _ => a = y ∧ b = w ∧ c = r
  | _ => false

/-- An exit or a down message. -/
def PeerMessage.isSignal : PeerMessage → Bool
  | .exit .. | .down .. => true
  | _ => false

theorem PeerMessage.isExit_eq_false {m : PeerMessage} (h : m.isSignal = false)
    (y x : Pid) : m.isExit y x = false := by
  cases m <;> first | rfl | cases h

theorem PeerMessage.isDown_eq_false {m : PeerMessage} (h : m.isSignal = false)
    (y w : Pid) (r : UInt64) : m.isDown y w r = false := by
  cases m <;> first | rfl | cases h

/-- Exit signals that `x` was sent for `y` by messages. -/
def exitsByMessage (log : List SignalEvent) (x y : Pid) : Nat :=
  log.countP (SignalEvent.isExitByMessage x y)

/-- Down signals that `w` was sent for its monitor of `y` by messages. -/
def downsByMessage (log : List SignalEvent) (w y : Pid) (r : UInt64) : Nat :=
  log.countP (SignalEvent.isDownByMessage w y r)

def exitsInFlight (outbox : List PeerMessage) (y x : Pid) : Nat :=
  outbox.countP (PeerMessage.isExit y x)

def downsInFlight (outbox : List PeerMessage) (y w : Pid) (r : UInt64) :
    Nat :=
  outbox.countP (PeerMessage.isDown y w r)

def monitorsInFlight (outbox : List PeerMessage) (w y : Pid) (r : UInt64) :
    Nat :=
  outbox.count (.monitor w (.pid y) r)

theorem exitsByMessage_append (l₁ l₂ : List SignalEvent) (x y : Pid) :
    exitsByMessage (l₁ ++ l₂) x y =
      exitsByMessage l₁ x y + exitsByMessage l₂ x y :=
  List.countP_append

theorem downsByMessage_append (l₁ l₂ : List SignalEvent) (w y : Pid)
    (r : UInt64) : downsByMessage (l₁ ++ l₂) w y r =
      downsByMessage l₁ w y r + downsByMessage l₂ w y r :=
  List.countP_append

theorem exitsInFlight_append (l₁ l₂ : List PeerMessage) (y x : Pid) :
    exitsInFlight (l₁ ++ l₂) y x =
      exitsInFlight l₁ y x + exitsInFlight l₂ y x :=
  List.countP_append

theorem downsInFlight_append (l₁ l₂ : List PeerMessage) (y w : Pid)
    (r : UInt64) : downsInFlight (l₁ ++ l₂) y w r =
      downsInFlight l₁ y w r + downsInFlight l₂ y w r :=
  List.countP_append

theorem monitorsInFlight_append (l₁ l₂ : List PeerMessage) (w y : Pid)
    (r : UInt64) : monitorsInFlight (l₁ ++ l₂) w y r =
      monitorsInFlight l₁ w y r + monitorsInFlight l₂ w y r :=
  List.count_append

/-- Taking an element out lowers a count by what it counted for. -/
theorem countP_eraseIdx_add {α : Type} {l : List α} {i : Nat} {a : α}
    (h : l[i]? = some a) (p : α → Bool) :
    (l.eraseIdx i).countP p + (if p a then 1 else 0) = l.countP p := by
  obtain ⟨hlt, hget⟩ := List.getElem?_eq_some_iff.1 h
  have hsplit : l = l.take i ++ a :: l.drop (i + 1) := by
    rw [← hget, ← List.drop_eq_getElem_cons hlt, List.take_append_drop]
  have hcount : l.countP p =
      (l.take i).countP p + (a :: l.drop (i + 1)).countP p := by
    rw [← List.countP_append, ← hsplit]
  rw [List.eraseIdx_eq_take_drop_succ, List.countP_append, hcount,
    List.countP_cons]
  omega

/-- What deaths have for one pair of particles. -/
def sumOver (deaths : List ParticleDeath) (y : Pid)
    (f : ParticleDeath → Nat) : Nat :=
  (deaths.map fun d => if d.pid = y then f d else 0).sum

def exitsToSend (deaths : List ParticleDeath) (y x : Pid) : Nat :=
  sumOver deaths y fun d => d.remoteLinks.count x

def downsToSend (deaths : List ParticleDeath) (y w : Pid) (r : UInt64) : Nat :=
  sumOver deaths y fun d => d.remoteMonitors.count (w, r)

/-- The entries of `w` and `r` among the watchers of a live particle. -/
def watching (reg : ParticleRegistry) (y w : Pid) (r : UInt64) : Nat :=
  (reg.state y).elim 0 fun s => s.monitoredBy.count (w, r)

namespace Party

/-- The deaths that the forwarder has yet to read. -/
def unread (p : Party) : List ParticleDeath := p.reg.deaths.drop p.cursor

/-- Exit signals that `x` was sent for its link to `y`. -/
def exitSignals (p : Party) (x y : Pid) : Nat :=
  exitsByMessage p.log x y + p.log.count (.exitByLoss x y)

/-- Links from `x` to `y` that were established. -/
def linksMade (p : Party) (x y : Pid) : Nat := p.log.count (.linked x y)

/-- Down signals that `w` was sent for its monitor of `y` under `r`. -/
def downSignals (p : Party) (w y : Pid) (r : UInt64) : Nat :=
  downsByMessage p.log w y r + p.log.count (.downByLoss w y r)

def monitorsMade (p : Party) (w y : Pid) (r : UInt64) : Nat :=
  p.log.count (.askedMonitor w y r)

/-- Down signals that `w` was sent under `r`. -/
def downsForRef (p : Party) (w : Pid) (r : UInt64) : Nat :=
  p.log.countP (SignalEvent.isDownFor w r)

/-- Monitors that `w` made under `r`. -/
def monitorsForRef (p : Party) (w : Pid) (r : UInt64) : Nat :=
  p.log.countP (SignalEvent.isMonitorFor w r)

end Party

theorem sumOver_append (l₁ l₂ : List ParticleDeath) (y : Pid)
    (f : ParticleDeath → Nat) :
    sumOver (l₁ ++ l₂) y f = sumOver l₁ y f + sumOver l₂ y f := by
  simp [sumOver]

theorem sumOver_cons (d : ParticleDeath) (deaths : List ParticleDeath)
    (y : Pid) (f : ParticleDeath → Nat) :
    sumOver (d :: deaths) y f =
      (if d.pid = y then f d else 0) + sumOver deaths y f :=
  List.sum_cons

theorem sumOver_of_not_mem {deaths : List ParticleDeath} {y : Pid}
    (f : ParticleDeath → Nat) (h : y ∉ deaths.map (·.pid)) :
    sumOver deaths y f = 0 := by
  induction deaths with
  | nil => rfl
  | cons d deaths ih =>
    rw [List.map_cons, List.mem_cons, not_or] at h
    rw [sumOver_cons, ih h.2, if_neg (Ne.symm h.1)]

/-- Whoever dies once is counted once. -/
theorem sumOver_le {deaths : List ParticleDeath} {y : Pid}
    {f : ParticleDeath → Nat} {n : Nat} (hnodup : (deaths.map (·.pid)).Nodup)
    (hf : ∀ d ∈ deaths, d.pid = y → f d ≤ n) : sumOver deaths y f ≤ n := by
  induction deaths with
  | nil => exact Nat.zero_le n
  | cons d deaths ih =>
    rw [List.map_cons, List.nodup_cons] at hnodup
    by_cases hd : d.pid = y
    · have hrest : sumOver deaths y f = 0 :=
        sumOver_of_not_mem f (hd ▸ hnodup.1)
      have hfirst := hf d (List.mem_cons_self ..) hd
      rw [sumOver_cons, hrest, if_pos hd]
      omega
    · have hrest := ih hnodup.2 fun d' hd' => hf d' (List.mem_cons_of_mem _ hd')
      rw [sumOver_cons, if_neg hd]
      omega

/-! ## The flow of signals -/

variable {codec : WireCodec PeerMessage}

/-- The signals from the peer `q` to the particles of `p`: those that arrived,
those in flight, and those still to be sent. -/
structure Flow (p q : Party) : Prop where
  exits : ∀ x y, exitsByMessage p.log x y + exitsInFlight q.outbox y x +
    exitsToSend q.unread y x ≤ exitsToSend q.reg.deaths y x
  downs : ∀ w y r, downsByMessage p.log w y r + downsInFlight q.outbox y w r +
    downsToSend q.unread y w r + watching q.reg y w r +
    monitorsInFlight p.outbox w y r ≤ p.monitorsMade w y r

/-- What the receiving side of the flow may do by itself. -/
structure HolderStep (p p' : Party) : Prop where
  exits : ∀ x y, exitsByMessage p'.log x y ≤ exitsByMessage p.log x y
  downs : ∀ w y r, downsByMessage p'.log w y r +
    monitorsInFlight p'.outbox w y r + p.monitorsMade w y r ≤
    downsByMessage p.log w y r + monitorsInFlight p.outbox w y r +
    p'.monitorsMade w y r

/-- What the sending side of the flow may do by itself. -/
structure PeerStep (q q' : Party) : Prop where
  exits : ∀ y x, exitsInFlight q'.outbox y x + exitsToSend q'.unread y x +
    exitsToSend q.reg.deaths y x ≤ exitsInFlight q.outbox y x +
    exitsToSend q.unread y x + exitsToSend q'.reg.deaths y x
  downs : ∀ y w r, downsInFlight q'.outbox y w r + downsToSend q'.unread y w r +
    watching q'.reg y w r ≤ downsInFlight q.outbox y w r +
    downsToSend q.unread y w r + watching q.reg y w r

theorem HolderStep.refl (p : Party) : HolderStep p p :=
  ⟨fun _ _ => le_refl _, fun _ _ _ => le_refl _⟩

theorem PeerStep.refl (q : Party) : PeerStep q q :=
  ⟨fun _ _ => le_refl _, fun _ _ _ => le_refl _⟩

theorem HolderStep.trans {p₁ p₂ p₃ : Party} (h₁ : HolderStep p₁ p₂)
    (h₂ : HolderStep p₂ p₃) : HolderStep p₁ p₃ where
  exits x y := (h₂.exits x y).trans (h₁.exits x y)
  downs w y r := by
    have h₁ := h₁.downs w y r
    have h₂ := h₂.downs w y r
    omega

theorem PeerStep.trans {q₁ q₂ q₃ : Party} (h₁ : PeerStep q₁ q₂)
    (h₂ : PeerStep q₂ q₃) : PeerStep q₁ q₃ where
  exits y x := by
    have h₁ := h₁.exits y x
    have h₂ := h₂.exits y x
    omega
  downs y w r := (h₂.downs y w r).trans (h₁.downs y w r)

theorem Flow.step {p p' q q' : Party} (h : Flow p q) (hp : HolderStep p p')
    (hq : PeerStep q q') : Flow p' q' where
  exits x y := by
    have h := h.exits x y
    have hp := hp.exits x y
    have hq := hq.exits y x
    omega
  downs w y r := by
    have h := h.downs w y r
    have hp := hp.downs w y r
    have hq := hq.downs y w r
    omega

/-- A message arrives at most once for each link. -/
theorem Flow.exits_le_one {p q : Party} (h : Flow p q)
    (hq : q.reg.RegistryInv) (x y : Pid) :
    exitsByMessage p.log x y + exitsInFlight q.outbox y x ≤ 1 := by
  have htotal : exitsToSend q.reg.deaths y x ≤ 1 :=
    sumOver_le hq.deathsNodup fun d hd _ =>
      List.nodup_iff_count_le_one.1 (hq.dead d hd).2.2.2 x
  have := h.exits x y
  omega

/-! ## Steps of the sending side -/

private theorem peerStep_of_watching {q : Party} {reg : ParticleRegistry}
    (hdeaths : reg.deaths = q.reg.deaths)
    (hwatching : ∀ y w r, watching reg y w r ≤ watching q.reg y w r) :
    PeerStep q { q with reg } where
  exits y x := by
    show _ + exitsToSend (reg.deaths.drop q.cursor) y x + _ ≤
      _ + exitsToSend (q.reg.deaths.drop q.cursor) y x +
        exitsToSend reg.deaths y x
    rw [hdeaths]
  downs y w r := by
    show downsInFlight q.outbox y w r +
      downsToSend (reg.deaths.drop q.cursor) y w r + watching reg y w r ≤
      downsInFlight q.outbox y w r +
      downsToSend (q.reg.deaths.drop q.cursor) y w r + watching q.reg y w r
    rw [hdeaths]
    exact Nat.add_le_add_left (hwatching y w r) _

theorem watching_of_state {reg : ParticleRegistry} {y : Pid}
    {s : ParticleState} (h : reg.state y = some s) (w : Pid) (r : UInt64) :
    watching reg y w r = s.monitoredBy.count (w, r) := by
  rw [watching, h]
  rfl

theorem watching_of_dead {reg : ParticleRegistry} {y : Pid}
    (h : ¬ reg.Alive y) (w : Pid) (r : UInt64) : watching reg y w r = 0 := by
  rw [watching, not_alive_iff.1 h]
  rfl

/-- Exits move the watchers of the dead to their deaths. -/
theorem peerStep_of_evolves {q : Party} (hq : PartyInv q)
    {reg : ParticleRegistry} (he : Evolves q.reg reg) :
    PeerStep q { q with reg } := by
  obtain ⟨ds, heq, hnodup, hdead, hall⟩ := he.deaths
  have hunread : ({ q with reg } : Party).unread = q.unread ++ ds := by
    show reg.deaths.drop q.cursor = q.reg.deaths.drop q.cursor ++ ds
    rw [heq, List.drop_append_of_le_length hq.cursor]
  refine ⟨?_, ?_⟩
  · intro y x
    rw [hunread]
    show _ + exitsToSend (q.unread ++ ds) y x + _ ≤
      _ + _ + exitsToSend reg.deaths y x
    simp only [exitsToSend, heq, sumOver_append]
    omega
  · intro y w r
    rw [hunread]
    show _ + downsToSend (q.unread ++ ds) y w r + watching reg y w r ≤ _
    simp only [downsToSend, sumOver_append]
    have hmoved : sumOver ds y (fun d => d.remoteMonitors.count (w, r)) +
        watching reg y w r ≤ watching q.reg y w r := by
      by_cases hy : reg.Alive y
      · -- A survivor keeps its watchers and is in no death.
        obtain ⟨s', hs'⟩ := alive_iff.1 hy
        obtain ⟨s, hs, hsame⟩ := he.kept y s' hs'
        have hnot : y ∉ ds.map (·.pid) := by
          intro hmem
          obtain ⟨d, hd, rfl⟩ := List.mem_map.1 hmem
          exact (hdead d hd).1 hy
        rw [sumOver_of_not_mem _ hnot, watching_of_state hs',
          watching_of_state hs, hsame.monitoredBy]
        omega
      · rw [watching_of_dead hy, Nat.add_zero]
        refine sumOver_le hnodup ?_
        rintro d hd rfl
        obtain ⟨-, s, hs, hrep⟩ := hdead d hd
        rw [watching_of_state hs, hrep.monitors]
        exact List.filter_sublist.count_le _
    omega

theorem watching_modifyState_le {reg : ParticleRegistry} {pid : Pid}
    {f : ParticleState → ParticleState} {w : Pid} {r : UInt64}
    (hf : ∀ s, (f s).monitoredBy.count (w, r) ≤ s.monitoredBy.count (w, r))
    (y : Pid) :
    watching (reg.modifyState pid f) y w r ≤ watching reg y w r := by
  rw [watching, watching, state_modifyState]
  split
  · cases reg.state y with
    | none => exact le_refl _
    | some s => exact hf s
  · exact le_refl _

theorem peerStep_note (q : Party) (events : List SignalEvent) :
    PeerStep q (q.note events) :=
  ⟨fun _ _ => le_refl _, fun _ _ _ => le_refl _⟩

/-- Sending adds at most what is handed over. -/
theorem countP_outbox_send_le (n : PeerNode)
    (msgs : List (EndpointId × PeerMessage)) (f : PeerMessage → Bool) :
    (n.send codec msgs).outbox.countP f ≤
      n.outbox.countP f + (msgs.map Prod.snd).countP f := by
  rw [PeerNode.send, List.countP_append]
  exact Nat.add_le_add_left (List.filter_sublist.map Prod.snd).countP_le _

theorem exitsInFlight_send_le (codec : WireCodec PeerMessage) (p : Party)
    (msgs : List (EndpointId × PeerMessage)) (y x : Pid) :
    exitsInFlight (p.send codec msgs).outbox y x ≤
      exitsInFlight p.outbox y x + exitsInFlight (msgs.map Prod.snd) y x :=
  countP_outbox_send_le p.toPeerNode msgs _

theorem downsInFlight_send_le (codec : WireCodec PeerMessage) (p : Party)
    (msgs : List (EndpointId × PeerMessage)) (y w : Pid) (r : UInt64) :
    downsInFlight (p.send codec msgs).outbox y w r ≤
      downsInFlight p.outbox y w r + downsInFlight (msgs.map Prod.snd) y w r :=
  countP_outbox_send_le p.toPeerNode msgs _

theorem monitorsInFlight_send_le (codec : WireCodec PeerMessage) (p : Party)
    (msgs : List (EndpointId × PeerMessage)) (w y : Pid) (r : UInt64) :
    monitorsInFlight (p.send codec msgs).outbox w y r ≤
      monitorsInFlight p.outbox w y r +
        monitorsInFlight (msgs.map Prod.snd) w y r :=
  countP_outbox_send_le p.toPeerNode msgs _

/-- Messages that are no signals do not count. -/
theorem peerStep_send {q : Party} {msgs : List (EndpointId × PeerMessage)}
    (h : ∀ m ∈ msgs, m.2.isSignal = false) :
    PeerStep q (q.send codec msgs) := by
  have hnone : ∀ m ∈ msgs.map Prod.snd, m.isSignal = false := by
    intro m hm
    obtain ⟨a, ha, rfl⟩ := List.mem_map.1 hm
    exact h a ha
  refine ⟨?_, ?_⟩
  · intro y x
    have hzero : exitsInFlight (msgs.map Prod.snd) y x = 0 :=
      List.countP_eq_zero.2 fun m hm => by
        simp [PeerMessage.isExit_eq_false (hnone m hm)]
    have hsent := exitsInFlight_send_le codec q msgs y x
    rw [hzero, Nat.add_zero] at hsent
    exact Nat.add_le_add_right (Nat.add_le_add_right hsent _) _
  · intro y w r
    have hzero : downsInFlight (msgs.map Prod.snd) y w r = 0 :=
      List.countP_eq_zero.2 fun m hm => by
        simp [PeerMessage.isDown_eq_false (hnone m hm)]
    have hsent := downsInFlight_send_le codec q msgs y w r
    rw [hzero, Nat.add_zero] at hsent
    exact Nat.add_le_add_right (Nat.add_le_add_right hsent _) _

theorem sumOver_drop_le (deaths : List ParticleDeath) (n : Nat) (y : Pid)
    (f : ParticleDeath → Nat) :
    sumOver (deaths.drop n) y f ≤ sumOver deaths y f := by
  have h := sumOver_append (deaths.take n) (deaths.drop n) y f
  rw [List.take_append_drop] at h
  omega

/-- The forwarder sends each link of a death once. -/
theorem exitsInFlight_forwardDeath (d : ParticleDeath) (y x : Pid) :
    exitsInFlight ((forwardDeath d).map Prod.snd) y x =
      if d.pid = y then d.remoteLinks.count x else 0 := by
  have hdowns : exitsInFlight ((d.remoteMonitors.map fun w =>
      (w.1.node, PeerMessage.down d.pid w.1 w.2 d.reason)).map Prod.snd) y x =
      0 := by
    refine List.countP_eq_zero.2 ?_
    intro m hm
    simp only [List.mem_map] at hm
    obtain ⟨a, ⟨w, -, rfl⟩, rfl⟩ := hm
    exact Bool.false_ne_true
  rw [forwardDeath, List.map_append, exitsInFlight_append, hdowns,
    Nat.add_zero, exitsInFlight, List.map_map, List.countP_map]
  split
  · rename_i hd
    refine List.countP_congr ?_
    intro a _
    simp [PeerMessage.isExit, hd]
  · rename_i hd
    refine List.countP_eq_zero.2 ?_
    intro a _
    simp [PeerMessage.isExit, hd]

theorem downsInFlight_forwardDeath (d : ParticleDeath) (y w : Pid)
    (r : UInt64) :
    downsInFlight ((forwardDeath d).map Prod.snd) y w r =
      if d.pid = y then d.remoteMonitors.count (w, r) else 0 := by
  have hexits : downsInFlight ((d.remoteLinks.map fun x =>
      (x.node, PeerMessage.exit d.pid x d.reason)).map Prod.snd) y w r = 0 := by
    refine List.countP_eq_zero.2 ?_
    intro m hm
    simp only [List.mem_map] at hm
    obtain ⟨a, ⟨x, -, rfl⟩, rfl⟩ := hm
    exact Bool.false_ne_true
  rw [forwardDeath, List.map_append, downsInFlight_append, hexits,
    Nat.zero_add, downsInFlight, List.map_map, List.countP_map]
  split
  · rename_i hd
    refine List.countP_congr ?_
    rintro ⟨a, b⟩ _
    simp [PeerMessage.isDown, hd]
  · rename_i hd
    refine List.countP_eq_zero.2 ?_
    rintro ⟨a, b⟩ _
    simp [PeerMessage.isDown, hd]

/-- The forwarder moves what it reads from the deaths to the messages. -/
theorem peerStep_forward {q q' : Party} (h : q.forward codec = some q') :
    PeerStep q q' := by
  rcases Party.forward_cases h with ⟨hlag, rfl⟩ | ⟨d, -, hd, rfl⟩
  · -- The oldest unread deaths are dropped.
    have hunread : ∀ c, q.cursor ≤ c → q.reg.deaths.drop c =
        q.unread.drop (c - q.cursor) := by
      intro c hc
      rw [Party.unread, List.drop_drop]
      congr 1
      omega
    have hle : q.cursor ≤ q.reg.deaths.length - deathBroadcastCapacity := by
      unfold PeerNode.Lags at hlag
      omega
    refine ⟨?_, ?_⟩
    · intro y x
      have := sumOver_drop_le q.unread (q.reg.deaths.length -
        deathBroadcastCapacity - q.cursor) y fun d => d.remoteLinks.count x
      rw [← hunread _ hle] at this
      simp only [exitsToSend, Party.unread] at this ⊢
      omega
    · intro y w r
      have := sumOver_drop_le q.unread (q.reg.deaths.length -
        deathBroadcastCapacity - q.cursor) y fun d => d.remoteMonitors.count (w, r)
      rw [← hunread _ hle] at this
      simp only [downsToSend, Party.unread] at this ⊢
      omega
  · obtain ⟨hlt, hget⟩ := List.getElem?_eq_some_iff.1 hd
    have hunread : q.unread = d :: q.reg.deaths.drop (q.cursor + 1) := by
      rw [Party.unread, List.drop_eq_getElem_cons hlt, hget]
    refine ⟨?_, ?_⟩
    · intro y x
      have hsent : _ ≤ exitsInFlight q.outbox y x + _ :=
        exitsInFlight_send_le codec
          { q with cursor := q.cursor + 1 } (forwardDeath d) y x
      rw [exitsInFlight_forwardDeath] at hsent
      rw [hunread]
      show _ +
        exitsToSend (q.reg.deaths.drop (q.cursor + 1)) y x +
        exitsToSend q.reg.deaths y x ≤ _ +
        exitsToSend (d :: q.reg.deaths.drop (q.cursor + 1)) y x +
        exitsToSend q.reg.deaths y x
      have hcons := sumOver_cons d (q.reg.deaths.drop (q.cursor + 1)) y
        fun d => d.remoteLinks.count x
      simp only [exitsToSend]
      omega
    · intro y w r
      have hsent : _ ≤ downsInFlight q.outbox y w r + _ :=
        downsInFlight_send_le codec
          { q with cursor := q.cursor + 1 } (forwardDeath d) y w r
      rw [downsInFlight_forwardDeath] at hsent
      rw [hunread]
      show _ +
        downsToSend (q.reg.deaths.drop (q.cursor + 1)) y w r +
        watching q.reg y w r ≤ _ +
        downsToSend (d :: q.reg.deaths.drop (q.cursor + 1)) y w r +
        watching q.reg y w r
      have hcons := sumOver_cons d (q.reg.deaths.drop (q.cursor + 1)) y
        fun d => d.remoteMonitors.count (w, r)
      simp only [downsToSend]
      omega

theorem peerStep_takeFrom (q : Party) (i : Nat) :
    PeerStep q (TwoNodes.takeFrom q i) := by
  refine ⟨?_, ?_⟩
  · intro y x
    have hle : exitsInFlight (q.outbox.eraseIdx i) y x ≤
        exitsInFlight q.outbox y x :=
      (List.eraseIdx_sublist q.outbox i).countP_le
    exact Nat.add_le_add_right (Nat.add_le_add_right hle _) _
  · intro y w r
    have hle : downsInFlight (q.outbox.eraseIdx i) y w r ≤
        downsInFlight q.outbox y w r :=
      (List.eraseIdx_sublist q.outbox i).countP_le
    exact Nat.add_le_add_right (Nat.add_le_add_right hle _) _

theorem watching_spawns {reg reg' : ParticleRegistry} (h : Spawns reg reg')
    (y w : Pid) (r : UInt64) : watching reg' y w r ≤ watching reg y w r := by
  rw [watching, watching, h.state]
  split
  · exact Nat.zero_le _
  · exact le_refl _

theorem watching_forgetNode (reg : ParticleRegistry) (node : EndpointId)
    (y w : Pid) (r : UInt64) :
    watching (reg.forgetNode node) y w r ≤ watching reg y w r := by
  rw [watching, watching, show (reg.forgetNode node).state y = _ from
    Table.lookup_mapValues _ _ _]
  change ((reg.state y).map _).elim 0 _ ≤ _
  cases reg.state y with
  | none => exact le_refl _
  | some s => exact List.filter_sublist.count_le _

/-- The watcher's half of a monitor adds no watcher. -/
theorem watching_insertMonitor_le (reg : ParticleRegistry) (v t y w : Pid)
    (r r' : UInt64) :
    watching (reg.modifyState v fun s =>
      { s with monitors := s.monitors.insert r' t }) y w r ≤
    watching reg y w r :=
  watching_modifyState_le (f := fun s =>
    { s with monitors := s.monitors.insert r' t }) (fun _ => le_refl _) y

/-- Recording the monitor of a particle on another node adds no watcher
here. -/
theorem watching_monitorRemote_of_dead {reg : ParticleRegistry} {t : Pid}
    (ht : ¬ reg.Alive t) (v y w : Pid) (r r' : UInt64) :
    watching (reg.monitorRemote v t r') y w r ≤ watching reg y w r := by
  refine le_trans ?_ (watching_insertMonitor_le reg v t y w r r')
  rw [ParticleRegistry.monitorRemote, watching, state_modifyState]
  split
  · rename_i hy
    subst hy
    have hgone : ¬ (reg.modifyState v fun s =>
        { s with monitors := s.monitors.insert r' y }).Alive y :=
      fun h => ht (alive_modifyState.1 h)
    rw [not_alive_iff.1 hgone]
    exact Nat.zero_le _
  · exact le_refl _

/-- Recording a monitor adds at most the one watcher. -/
theorem watching_monitorRemote_le (reg : ParticleRegistry) (v t y w : Pid)
    (r r' : UInt64) : watching (reg.monitorRemote v t r') y w r ≤
      watching reg y w r + if y = t ∧ (v, r') = (w, r) then 1 else 0 := by
  refine le_trans ?_
    (Nat.add_le_add_right (watching_insertMonitor_le reg v t y w r r') _)
  rw [ParticleRegistry.monitorRemote, watching, watching, state_modifyState]
  by_cases hy : y = t
  · subst hy
    rw [if_pos rfl]
    cases (reg.modifyState v fun s =>
        { s with monitors := s.monitors.insert r' y }).state y with
    | none => exact Nat.zero_le _
    | some s =>
      show (s.monitoredBy ++ [(v, r')]).count (w, r) ≤ s.monitoredBy.count (w, r) + _
      rw [List.count_append, List.count_singleton]
      simp
  · rw [if_neg hy]
    exact Nat.le_add_right _ _

/-- A particle on the peer is not alive here. -/
theorem PartyInv.not_alive_of_peer {p : Party} (h : PartyInv p) {y : Pid}
    (hy : y.node = p.peer) : ¬ p.reg.Alive y := fun halive =>
  h.apart ((h.reg.allLocal y halive).symm.trans hy)

/-- Whatever a party does alone, it sends at most one message for each link
and monitor of its dead. -/
theorem peerStep_act {q q' : Party} {a : PartyAction} (hq : PartyInv q)
    (hact : q.act codec a = some q') : PeerStep q q' := by
  cases a with
  | spawn component name =>
    cases hact
    unfold Party.spawn
    split
    · rename_i reg pid hspawn
      obtain ⟨-, hs⟩ := spawn_ok hspawn
      have h := peerStep_of_watching (q := q) hs.deaths (watching_spawns hs)
      exact ⟨h.exits, h.downs⟩
    · exact .refl q
  | perform op =>
    simp only [Party.act] at hact
    split at hact
    · rename_i hop
      cases hact
      exact peerStep_of_evolves hq (evolves_perform hq.reg.allLocal hop)
    · cases hact
  | link x y =>
    simp only [Party.act] at hact
    split at hact
    · cases hact
      have hreg : PeerStep q { q with reg := q.reg.linkRemote x y } :=
        peerStep_of_watching rfl fun z w r => watching_modifyState_le
          (f := fun s => { s with links := s.links.insert y })
          (fun s => le_refl _) z
      refine (hreg.trans (peerStep_send ?_)).trans (peerStep_note _ _)
      intro m hm
      cases List.mem_singleton.1 hm
      rfl
    · cases hact
  | monitor w y =>
    simp only [Party.act] at hact
    split at hact
    · rename_i hwy
      cases hact
      have hreg : PeerStep q
          { q with reg := q.reg.monitorRemote w y (q.nextRef w) } :=
        peerStep_of_watching rfl fun z v r =>
          watching_monitorRemote_of_dead (hq.not_alive_of_peer hwy.2) w z v r _
      have hrefs : PeerStep q { q with
          reg := q.reg.monitorRemote w y (q.nextRef w)
          refs := q.refs.insert w (q.nextRef w + 1) } :=
        ⟨hreg.exits, hreg.downs⟩
      refine (hrefs.trans (peerStep_send ?_)).trans (peerStep_note _ _)
      intro m hm
      cases List.mem_singleton.1 hm
      rfl
    · cases hact
  | exitSignal x target reason =>
    simp only [Party.act] at hact
    split at hact
    · cases hact
      refine peerStep_send ?_
      intro m hm
      cases List.mem_singleton.1 hm
      rfl
    · cases hact
  | forward => exact peerStep_forward hact
  | lose =>
    cases hact
    obtain ⟨exits, downs, heq, -, -⟩ := q.lose_eq
    rw [heq]
    have hreg : PeerStep q { q with reg := q.reg.loseNode q.peer } := by
      rcases loseNode_cases hq.reg.allLocal q.peer with ⟨-, heq⟩ | ⟨reg', he, heq⟩
      · rw [heq]
        exact .refl q
      · rw [heq]
        have h₁ := peerStep_of_evolves hq he
        have h₂ : PeerStep { q with reg := reg' }
            { q with reg := reg'.forgetNode q.peer } :=
          peerStep_of_watching (q := { q with reg := reg' }) rfl
            (watching_forgetNode reg' q.peer)
        exact h₁.trans h₂
    exact hreg.trans (peerStep_note _ _)
  | deliver i => cases hact
  | drop i => cases hact

/-! ## Steps of the receiving side -/

/-- A signal that a message brought. -/
def SignalEvent.byMessage : SignalEvent → Bool
  | .exitByMessage .. | .downByMessage .. => true
  | _ => false

theorem exitsByMessage_eq_zero {events : List SignalEvent}
    (h : ∀ e ∈ events, e.byMessage = false) (x y : Pid) :
    exitsByMessage events x y = 0 := by
  refine List.countP_eq_zero.2 fun e he => ?_
  have hkind := h e he
  cases e <;> first | exact Bool.false_ne_true | cases hkind

theorem downsByMessage_eq_zero {events : List SignalEvent}
    (h : ∀ e ∈ events, e.byMessage = false) (w y : Pid) (r : UInt64) :
    downsByMessage events w y r = 0 := by
  refine List.countP_eq_zero.2 fun e he => ?_
  have hkind := h e he
  cases e <;> first | exact Bool.false_ne_true | cases hkind

theorem exitsByMessage_note {p : Party} {events : List SignalEvent}
    (h : ∀ e ∈ events, e.byMessage = false) (x y : Pid) :
    exitsByMessage (p.note events).log x y = exitsByMessage p.log x y := by
  show exitsByMessage (p.log ++ events) x y = _
  rw [exitsByMessage_append, exitsByMessage_eq_zero h, Nat.add_zero]

theorem downsByMessage_note {p : Party} {events : List SignalEvent}
    (h : ∀ e ∈ events, e.byMessage = false) (w y : Pid) (r : UInt64) :
    downsByMessage (p.note events).log w y r = downsByMessage p.log w y r := by
  show downsByMessage (p.log ++ events) w y r = _
  rw [downsByMessage_append, downsByMessage_eq_zero h, Nat.add_zero]

theorem Party.monitorsMade_note (p : Party) (events : List SignalEvent)
    (w y : Pid) (r : UInt64) : (p.note events).monitorsMade w y r =
      p.monitorsMade w y r + events.count (.askedMonitor w y r) :=
  List.count_append

theorem holderStep_note {p : Party} {events : List SignalEvent}
    (h : ∀ e ∈ events, e.byMessage = false) : HolderStep p (p.note events) where
  exits x y := le_of_eq (exitsByMessage_note h x y)
  downs w y r := by
    rw [downsByMessage_note h, Party.monitorsMade_note]
    show _ + monitorsInFlight p.outbox w y r + _ ≤ _
    omega

theorem holderStep_send {p : Party} {msgs : List (EndpointId × PeerMessage)}
    (h : ∀ m ∈ msgs, ∀ w y r, m.2 ≠ .monitor w (.pid y) r) :
    HolderStep p (p.send codec msgs) where
  exits _ _ := le_refl _
  downs w y r := by
    have hzero : monitorsInFlight (msgs.map Prod.snd) w y r = 0 := by
      refine List.count_eq_zero.2 ?_
      intro hm
      obtain ⟨a, ha, heq⟩ := List.mem_map.1 hm
      exact h a ha w y r heq
    have hsent := monitorsInFlight_send_le codec p msgs w y r
    rw [hzero, Nat.add_zero] at hsent
    exact Nat.add_le_add_right (Nat.add_le_add_left hsent _) _

theorem holderStep_takeFrom (p : Party) (i : Nat) :
    HolderStep p (TwoNodes.takeFrom p i) where
  exits _ _ := le_refl _
  downs w y r := by
    have hle : monitorsInFlight (p.outbox.eraseIdx i) w y r ≤
        monitorsInFlight p.outbox w y r :=
      (List.eraseIdx_sublist p.outbox i).count_le _
    exact Nat.add_le_add_right (Nat.add_le_add_left hle _) _

/-- A request to monitor is in flight once it is made. -/
theorem holderStep_monitor (p : Party) (w y : Pid) :
    HolderStep p (p.monitor codec w y) where
  exits a b := le_of_eq (exitsByMessage_note (by simp [SignalEvent.byMessage]) a b)
  downs v z r := by
    -- At most the one message that the log speaks of is sent.
    have hsent : monitorsInFlight (p.monitor codec w y).outbox v z r ≤
        monitorsInFlight p.outbox v z r +
          [SignalEvent.askedMonitor w y (p.nextRef w)].count
            (.askedMonitor v z r) := by
      refine (monitorsInFlight_send_le codec _ _ _ _ _).trans
        (Nat.add_le_add_left ?_ _)
      simp [monitorsInFlight, List.count_cons]
    have hlog : downsByMessage (p.monitor codec w y).log v z r =
        downsByMessage p.log v z r :=
      downsByMessage_note (by simp [SignalEvent.byMessage]) v z r
    have hmade : (p.monitor codec w y).monitorsMade v z r = p.monitorsMade v z r + _ :=
      Party.monitorsMade_note _ _ v z r
    omega

theorem holderStep_setCursor (p : Party) (cursor : Nat) :
    HolderStep p { p with cursor } :=
  ⟨fun _ _ => le_refl _, fun _ _ _ => le_refl _⟩

theorem linkEvents_byMessage {reg : ParticleRegistry} {x y : Pid} :
    ∀ e ∈ Party.linkEvents reg x y, e.byMessage = false := by
  intro e he
  unfold Party.linkEvents at he
  split at he
  · cases List.mem_singleton.1 he
    rfl
  · cases he

theorem holderStep_act {p p' : Party} {a : PartyAction}
    (hact : p.act codec a = some p') : HolderStep p p' := by
  cases a with
  | spawn component name =>
    cases hact
    unfold Party.spawn
    split
    · exact ⟨fun _ _ => le_refl _, fun _ _ _ => le_refl _⟩
    · exact .refl p
  | perform op =>
    simp only [Party.act] at hact
    split at hact
    · cases hact
      exact ⟨fun _ _ => le_refl _, fun _ _ _ => le_refl _⟩
    · cases hact
  | link x y =>
    simp only [Party.act] at hact
    split at hact
    · cases hact
      have hreg : HolderStep p { p with reg := p.reg.linkRemote x y } :=
        ⟨fun _ _ => le_refl _, fun _ _ _ => le_refl _⟩
      refine (hreg.trans (holderStep_send ?_)).trans (holderStep_note ?_)
      · intro m hm w z r
        cases List.mem_singleton.1 hm
        exact PeerMessage.noConfusion
      · intro e he
        rcases List.mem_append.1 he with he | he
        · exact linkEvents_byMessage e he
        · cases List.mem_singleton.1 he
          rfl
    · cases hact
  | monitor w y =>
    simp only [Party.act] at hact
    split at hact
    · cases hact
      exact holderStep_monitor p w y
    · cases hact
  | exitSignal x target reason =>
    simp only [Party.act] at hact
    split at hact
    · cases hact
      refine holderStep_send ?_
      intro m hm w z r
      cases List.mem_singleton.1 hm
      exact PeerMessage.noConfusion
    · cases hact
  | forward =>
    rcases Party.forward_cases hact with ⟨-, rfl⟩ | ⟨d, -, -, rfl⟩
    · exact holderStep_setCursor p _
    · refine (holderStep_setCursor p _).trans (holderStep_send ?_)
      intro m hm w z r
      rcases List.mem_append.1 hm with hm | hm
      · obtain ⟨x, -, rfl⟩ := List.mem_map.1 hm
        exact PeerMessage.noConfusion
      · obtain ⟨x, -, rfl⟩ := List.mem_map.1 hm
        exact PeerMessage.noConfusion
  | lose =>
    cases hact
    obtain ⟨exits, downs, heq, hexits, hdowns⟩ := p.lose_eq
    rw [heq]
    have hreg : HolderStep p { p with reg := p.reg.loseNode p.peer } :=
      ⟨fun _ _ => le_refl _, fun _ _ _ => le_refl _⟩
    refine hreg.trans (holderStep_note ?_)
    intro e he
    rcases List.mem_append.1 he with he | he
    · obtain ⟨l, -, rfl⟩ := List.mem_map.1 (hexits.subset he)
      rfl
    · obtain ⟨m, -, rfl⟩ := List.mem_map.1 (hdowns.subset he)
      rfl
  | deliver i => cases hact
  | drop i => cases hact

/-! ## The arrival of a message -/

/-- A message that is no signal brings none. -/
theorem arrivalEvents_byMessage {reg : ParticleRegistry} {msg : PeerMessage}
    (h : msg.isSignal = false) :
    ∀ e ∈ Party.arrivalEvents reg msg, e.byMessage = false := by
  intro e he
  cases msg with
  | link source target =>
    simp only [Party.arrivalEvents] at he
    split at he
    · rcases List.mem_append.1 he with he | he
      · exact linkEvents_byMessage e he
      · cases List.mem_singleton.1 he
        rfl
    · cases he
  | monitor watcher target r =>
    simp only [Party.arrivalEvents] at he
    split at he
    · cases List.mem_singleton.1 he
      rfl
    · cases he
  | unlink source target => cases he
  | demonitor watcher r => cases he
  | exitSignal source target reason => cases he
  | exit source target reason => cases h
  | down source target r reason => cases h

/-- An expected message is handled without an answer, so what the receiver
has sent stays the same. -/
theorem PartyInv.receive_eq {p : Party} (h : PartyInv p) {msg : PeerMessage}
    (hmsg : msg.expected = true) :
    p.receive codec msg = ({ p with
      reg := (p.reg.handlePeerMessage msg).1 } : Party).note
        (Party.arrivalEvents p.reg msg) := by
  rw [Party.receive, (h.reg.handle hmsg).2]
  simp [Party.send, PeerNode.send]

/-- The arrival of a message, from where it was sent. -/
theorem Flow.arrives {p q : Party} (h : Flow p q) (hp : PartyInv p)
    {i : Nat} {msg : PeerMessage} (hmsg : q.outbox[i]? = some msg)
    (hexp : msg.expected = true) :
    Flow (p.receive codec msg) (TwoNodes.takeFrom q i) := by
  rw [hp.receive_eq hexp]
  have hplain : msg.isSignal = false → Flow (({ p with
      reg := (p.reg.handlePeerMessage msg).1 } : Party).note
        (Party.arrivalEvents p.reg msg)) (TwoNodes.takeFrom q i) := by
    intro hkind
    have hreg : HolderStep p
        { p with reg := (p.reg.handlePeerMessage msg).1 } :=
      ⟨fun _ _ => le_refl _, fun _ _ _ => le_refl _⟩
    exact h.step (hreg.trans (holderStep_note (arrivalEvents_byMessage hkind)))
      (peerStep_takeFrom q i)
  cases msg with
  | link source target => exact hplain rfl
  | unlink source target => cases hexp
  | monitor watcher target r => exact hplain rfl
  | demonitor watcher r => cases hexp
  | exitSignal source target reason => exact hplain rfl
  | exit source target reason =>
    -- The signal moves from the messages to the log.
    refine ⟨fun x y => ?_, fun w y r => ?_⟩
    · have hold := h.exits x y
      have htaken : exitsInFlight (q.outbox.eraseIdx i) y x + _ =
        exitsInFlight q.outbox y x := countP_eraseIdx_add hmsg _
      have hgain : exitsByMessage (Party.arrivalEvents p.reg
          (.exit source target reason)) x y ≤
          if PeerMessage.isExit y x (.exit source target reason) then 1
          else 0 := by
        simp only [Party.arrivalEvents]
        split
        · simp [exitsByMessage, List.countP_cons, SignalEvent.isExitByMessage,
            PeerMessage.isExit, and_comm]
        · exact Nat.zero_le _
      simp only [Party.note, TwoNodes.takeFrom, Party.unread,
        exitsByMessage_append] at hold ⊢
      omega
    · have hold := h.downs w y r
      have htaken := (peerStep_takeFrom q i).downs y w r
      have hnone : downsByMessage (Party.arrivalEvents p.reg
          (.exit source target reason)) w y r = 0 := by
        simp only [Party.arrivalEvents]
        split <;> rfl
      simp only [Party.note, TwoNodes.takeFrom, Party.unread,
        Party.monitorsMade, List.count_append, downsByMessage_append]
        at hold htaken ⊢
      omega
  | down source target ref reason =>
    refine ⟨fun x y => ?_, fun w y r => ?_⟩
    · have hold := h.exits x y
      have htaken := (peerStep_takeFrom q i).exits y x
      have hnone : exitsByMessage (Party.arrivalEvents p.reg
          (.down source target ref reason)) x y = 0 := by
        simp only [Party.arrivalEvents]
        split <;> rfl
      simp only [Party.note, TwoNodes.takeFrom, Party.unread,
        exitsByMessage_append] at hold htaken ⊢
      omega
    · have hold := h.downs w y r
      have htaken : downsInFlight (q.outbox.eraseIdx i) y w r + _ =
        downsInFlight q.outbox y w r := countP_eraseIdx_add hmsg _
      have hgain : downsByMessage (Party.arrivalEvents p.reg
          (.down source target ref reason)) w y r ≤
          if PeerMessage.isDown y w r (.down source target ref reason) then 1
          else 0 := by
        simp only [Party.arrivalEvents]
        split
        · simp [downsByMessage, List.countP_cons, SignalEvent.isDownByMessage,
            PeerMessage.isDown, and_left_comm]
        · exact Nat.zero_le _
      simp only [Party.note, TwoNodes.takeFrom, Party.unread,
        Party.monitorsMade, List.count_append, downsByMessage_append]
        at hold ⊢
      omega

/-- The arrival of a message, from where it arrives. -/
theorem Flow.departs {p q : Party} (h : Flow p q) (hq : PartyInv q) {i : Nat}
    {msg : PeerMessage} (hmsg : p.outbox[i]? = some msg)
    (hexp : msg.expected = true) :
    Flow (TwoNodes.takeFrom p i) (q.receive codec msg) := by
  rw [hq.receive_eq hexp]
  have hplain : PeerStep q { q with reg := (q.reg.handlePeerMessage msg).1 } →
      Flow (TwoNodes.takeFrom p i) (({ q with
        reg := (q.reg.handlePeerMessage msg).1 } : Party).note
          (Party.arrivalEvents q.reg msg)) := fun hreg =>
    h.step (holderStep_takeFrom p i) (hreg.trans (peerStep_note _ _))
  cases msg with
  | link source target =>
    cases target with
    | pid t =>
      exact hplain (peerStep_of_watching rfl fun z w r =>
        watching_modifyState_le
          (f := fun s => { s with links := s.links.insert source })
          (fun s => le_refl _) z)
    | name n => cases hexp
  | unlink source target => cases hexp
  | monitor watcher target ref =>
    cases target with
    | pid t =>
      -- The request moves from the messages to the watchers of its target.
      refine ⟨fun x y => ?_, fun w y r => ?_⟩
      · exact (h.step (holderStep_takeFrom p i) (.refl q)).exits x y
      · have hold := h.downs w y r
        have htaken : monitorsInFlight (p.outbox.eraseIdx i) w y r + _ =
          monitorsInFlight p.outbox w y r := countP_eraseIdx_add hmsg _
        have hgain := watching_monitorRemote_le q.reg watcher t y w r ref
        simp only [Party.note, TwoNodes.takeFrom, Party.unread,
          Party.monitorsMade, handlePeerMessage, resolve] at hold hgain ⊢
        have hsame : (if (PeerMessage.monitor watcher (.pid t) ref ==
            PeerMessage.monitor w (.pid y) r) = true then 1 else 0) =
            if y = t ∧ (watcher, ref) = (w, r) then 1 else 0 := by
          refine if_congr ?_ rfl rfl
          rw [beq_iff_eq]
          constructor
          · intro heq
            cases heq
            exact ⟨rfl, rfl⟩
          · rintro ⟨rfl, heq⟩
            cases heq
            rfl
        show _ + _ + downsToSend (q.reg.deaths.drop q.cursor) y w r + _ + _ ≤ _
        omega
    | name n => cases hexp
  | demonitor watcher r => cases hexp
  | exitSignal source target reason =>
    refine hplain ?_
    rw [handlePeerMessage]
    cases q.reg.resolve target with
    | none => exact .refl q
    | some t =>
      exact peerStep_of_evolves hq
        (evolves_applyDirectedExit hq.reg.allLocal t source reason)
  | exit source target reason =>
    exact hplain (peerStep_of_evolves hq
      (evolves_applyInheritedExit hq.reg.allLocal target source reason))
  | down source target ref reason =>
    exact hplain (peerStep_of_evolves hq (evolves_sendSystem q.reg target _))

end Plasmoid
