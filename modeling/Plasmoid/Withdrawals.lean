import Plasmoid.LocalCalls

/-!
# Withdrawing a link or a monitor

An exit copies the links and the watchers of its particle when it removes the
particle, and serves the copy in later critical sections.  It looks up who is
still alive, and not who is still linked or still watching.  So an `unlink` or
a `demonitor` that comes in between withdraws nothing from that exit.

`BlamedCalls` keeps the exit that brought about each kill that is still ahead.
-/

namespace Plasmoid

open Machine

namespace PendingCall

/-- The particles that the call is yet to take. -/
def kills : PendingCall → List Pid
  | .exitTake pid _ rest => pid :: rest
  | .exitEntry _ _ _ rest | .exitNames _ _ _ rest | .exitPublish _ _ _ _ rest
  | .exitUnhook _ _ _ rest | .exitSignal _ _ rest => rest
  | _ => []

/-- The signals that the call is yet to deliver. -/
def sends : PendingCall → List (Pid × SystemMessage)
  | .exitSignal _ sends _ => sends
  | _ => []

/-- The particle that the next section of the call brings to life. -/
def inserts : PendingCall → Option Pid
  | .spawnState pid _ => some pid
  | _ => none

end PendingCall

/-- The calls in progress.  `blame` holds the kills that each of them has
ahead, with the particle whose exit brought each about.  Nobody brought about
the first kill of a call. -/
structure BlamedCalls where
  now : CallsInProgress
  blame : Table Nat (List (Pid × Option Pid))

namespace BlamedCalls

def start (node : EndpointId) : BlamedCalls := ⟨.idle (.new node), ∅⟩

/-- The kills that a call has ahead. -/
def blamed (s : BlamedCalls) (id : Nat) : List (Pid × Option Pid) :=
  (s.blame.lookup id).getD []

/-- What the next section of a call makes of the kills ahead. -/
def blameAfter (reg : ParticleRegistry) (call : PendingCall)
    (ahead : List (Pid × Option Pid)) : List (Pid × Option Pid) :=
  match call with
  | .exitTake .. => ahead.tail
  | .exitUnhook pid st reason _ =>
    ((ParticleRegistry.unhook reg.particleStates pid st reason).cascadeKills.map
      fun x => (x, some pid)) ++ ahead
  | _ => ahead

def step (s : BlamedCalls) (a : LocalAction) : Option BlamedCalls :=
  (s.now.localStep a).map fun now => {
    now
    blame :=
      match a with
      | .call (.beginExit id pid _) => s.blame.insert id [(pid, none)]
      | .call (.advance id) =>
        match s.now.calls.lookup id with
        | some call =>
          s.blame.insert id (blameAfter s.now.reg call (s.blamed id))
        | none => s.blame
      | _ => s.blame }

/-- The particle that an action kills, and the one whose exit brought that
about. -/
def killed (s : BlamedCalls) : LocalAction → Option (Pid × Option Pid)
  | .call (.advance id) =>
    match s.now.calls.lookup id with
    | some (.exitTake pid _ _) =>
      if s.now.reg.Alive pid then some (pid, (s.blamed id).head?.bind Prod.snd)
      else none
    | _ => none
  | _ => none

/-- The message that an action puts in a mailbox. -/
def enqueued (s : BlamedCalls) : LocalAction → Option (Pid × SystemMessage)
  | .call (.advance id) =>
    match s.now.calls.lookup id with
    | some (.exitSignal _ (send :: _) _) =>
      if s.now.reg.Alive send.1 then some send else none
    | _ => none
  | .call (.atomic (.deliverExit target source reason)) =>
    if s.now.reg.Alive target then some (target, .exit source reason) else none
  | .call (.atomic (.deliverDown target source refId reason)) =>
    if s.now.reg.Alive target then some (target, .down source refId reason)
    else none
  | _ => none

/-- An exit of `a` in progress has `b` ahead: it has yet to unhook its copy of
the links, or to deliver its signal, or to kill. -/
def ExitAhead (s : BlamedCalls) (a b : Pid) : Prop :=
  (∃ id, (b, some a) ∈ s.blamed id) ∨
    ∃ id call, s.now.calls.lookup id = some call ∧
      ((∃ st, call.unhooking = some (a, st) ∧ b ∈ st.links) ∨
        ∃ reason, (b, .exit a reason) ∈ call.sends)

/-- An exit in progress has the watcher ahead, under that ref. -/
def DownAhead (s : BlamedCalls) (watcher : Pid) (refId : UInt64) : Prop :=
  ∃ id call, s.now.calls.lookup id = some call ∧
    ((∃ target st, call.unhooking = some (target, st) ∧
        (watcher, refId) ∈ st.monitoredBy) ∨
      ∃ target reason, (watcher, .down target refId reason) ∈ call.sends)

/-- The action brings `pid` to life. -/
def Inserts (s : BlamedCalls) (pid : Pid) : LocalAction → Prop
  | .call (.advance id) =>
    (s.now.calls.lookup id).bind PendingCall.inserts = some pid
  | _ => False

/-- Nobody links `a` and `b`, and the pid of `b` is not used again. -/
def StaysApart (a b : Pid) (s : BlamedCalls) (act : LocalAction) : Prop :=
  act ≠ .call (.atomic (.link a b)) ∧ act ≠ .call (.atomic (.link b a)) ∧
    ¬ s.Inserts b act

/-- Nobody monitors under the ref again, and the pid of the watcher is not
used again. -/
def RefRetired (watcher : Pid) (refId : UInt64) (s : BlamedCalls)
    (act : LocalAction) : Prop :=
  (∀ target, act ≠ .monitorWithRef watcher target refId) ∧
    (∀ source reason,
      act ≠ .call (.atomic (.deliverDown watcher source refId reason))) ∧
    ¬ s.Inserts watcher act

/-! ## Steps -/

/-- What a step does to the calls and to the kills ahead. -/
theorem step_cases {s t : BlamedCalls} {a : LocalAction}
    (h : s.step a = some t) :
    (∃ id call, a = .call (.advance id) ∧ s.now.calls.lookup id = some call ∧
      t.now = s.now.settle id (s.now.reg.critical call).1
        (s.now.reg.critical call).2 ∧
      ∀ id', t.blamed id' =
        if id' = id then blameAfter s.now.reg call (s.blamed id)
        else s.blamed id') ∨
    (∃ id call, a.begins = some (id, call) ∧ s.now.calls.lookup id = none ∧
      t.now = { s.now with calls := s.now.calls.insert id call } ∧
      ∀ id', t.blamed id' =
        if id' = id ∧ call.kills ≠ [] then call.kills.map fun x => (x, none)
        else s.blamed id') ∨
    a.isSingle = true ∧ a.isLocal = true ∧
      t.now = { s.now with reg := a.onRegistry s.now.reg } ∧
      ∀ id', t.blamed id' = s.blamed id' := by
  obtain ⟨now, hnow, rfl⟩ := Option.map_eq_some_iff.1 h
  have hinsert : ∀ id id' l, ((s.blame.insert id l).lookup id').getD [] =
      if id' = id then l else s.blamed id' := by
    intro id id' l
    rw [Table.lookup_insert_eq]
    split <;> rfl
  obtain ⟨id, call, rfl, hcall, rfl⟩ | ⟨id, call, hbegins, hnew, rfl⟩ |
    ⟨hsingle, hlocal, rfl⟩ := CallsInProgress.localStep_cases hnow
  · refine .inl ⟨id, call, rfl, hcall, rfl, fun id' => ?_⟩
    rw [blamed]
    dsimp only
    rw [hcall]
    exact hinsert id id' _
  · refine .inr (.inl ⟨id, call, hbegins, hnew, rfl, fun id' => ?_⟩)
    unfold LocalAction.begins at hbegins
    split at hbegins
    · cases hbegins
      exact (if_neg fun hand => hand.2 rfl).symm
    · cases hbegins
      rw [blamed]
      dsimp only
      rw [hinsert]
      simp [PendingCall.kills]
    · cases hbegins
  · refine .inr (.inr ⟨hsingle, hlocal, rfl, fun id' => ?_⟩)
    cases a with
    | unlink | monitorWithRef | demonitor => rfl
    | call a =>
      cases a with
      | advance | beginExit => cases hsingle
      | beginSpawn | register | unregister | atomic => rfl

/-- The kills that are blamed on somebody are those that the calls have
ahead. -/
def Accounted (s : BlamedCalls) : Prop :=
  ∀ id, (s.blamed id).map Prod.fst =
    (s.now.calls.lookup id).elim [] PendingCall.kills

theorem kills_exitRest (reason : ExitReason) (rest : List Pid) :
    (ParticleRegistry.exitRest reason rest).pending.elim [] PendingCall.kills =
      rest := by
  cases rest <;> rfl

theorem kills_critical (reg : ParticleRegistry) {call : PendingCall}
    {ahead : List (Pid × Option Pid)} (h : ahead.map Prod.fst = call.kills) :
    (blameAfter reg call ahead).map Prod.fst =
      (reg.critical call).2.pending.elim [] PendingCall.kills := by
  cases call with
  | spawnDraw component name =>
    rw [ParticleRegistry.critical]
    split <;> exact h
  | spawnEntry pid component name => exact h
  | spawnState pid name => cases name <;> exact h
  | spawnBind pid n =>
    rw [ParticleRegistry.critical]
    split <;> exact h
  | spawnUndoState pid n => exact h
  | spawnUndoEntry pid n => exact h
  | exitTake pid reason rest =>
    have htail : ahead.tail.map Prod.fst = rest := by
      rw [List.map_tail, h]
      rfl
    rw [blameAfter, htail, ParticleRegistry.critical]
    split
    · exact (kills_exitRest reason rest).symm
    · rfl
  | exitEntry pid st reason rest => exact h
  | exitNames pid st reason rest => exact h
  | exitPublish pid st name reason rest => exact h
  | exitUnhook pid st reason rest =>
    rw [blameAfter, List.map_append, List.map_map, h]
    exact congrArg (· ++ rest) (List.map_id _)
  | exitSignal reason sends rest =>
    cases sends with
    | nil => exact h.trans (kills_exitRest reason rest).symm
    | cons send sends => exact h

theorem Accounted.step {s t : BlamedCalls} {a : LocalAction} (h : Accounted s)
    (hstep : s.step a = some t) : Accounted t := by
  intro id'
  obtain ⟨id, call, -, hcall, hnow, hblame⟩ | ⟨id, call, hbegins, hnew, hnow, hblame⟩ |
    ⟨-, -, hnow, hblame⟩ := step_cases hstep
  · rw [hblame, hnow, CallsInProgress.lookup_settle]
    split
    · refine kills_critical _ ?_
      rw [h id, hcall]
      rfl
    · exact h id'
  · rw [hblame, hnow]
    show _ = ((s.now.calls.insert id call).lookup id').elim [] PendingCall.kills
    rw [Table.lookup_insert_eq]
    by_cases hid : id' = id
    · rw [if_pos hid]
      by_cases hkills : call.kills = []
      · rw [if_neg fun hand => hand.2 hkills, hid, h id, hnew]
        exact hkills.symm
      · rw [if_pos ⟨hid, hkills⟩, List.map_map]
        exact List.map_id _
    · rw [if_neg fun hand => hid hand.1, if_neg hid]
      exact h id'
  · rw [hblame, hnow]
    exact h id'

theorem accounted_start (node : EndpointId) : Accounted (start node) :=
  fun _ => rfl

/-- A step brings only the pid to life that it inserts. -/
theorem alive_of_step {s t : BlamedCalls} {a : LocalAction} {x : Pid}
    (hstep : s.step a = some t) (hx : t.now.reg.Alive x)
    (hinserts : ¬ s.Inserts x a) : s.now.reg.Alive x := by
  obtain ⟨id, call, rfl, hcall, hnow, -⟩ | ⟨id, call, -, -, hnow, -⟩ |
    ⟨-, -, hnow, -⟩ := step_cases hstep
  · rw [hnow, CallsInProgress.reg_settle] at hx
    rcases CallsInProgress.alive_critical hx with halive | ⟨name, rfl⟩
    · exact halive
    · refine absurd ?_ hinserts
      show (s.now.calls.lookup id).bind PendingCall.inserts = some x
      rw [hcall]
      rfl
  · rw [hnow] at hx
    exact hx
  · rw [hnow] at hx
    exact (s.now.reg.noBirth_onRegistry a).alive x hx

/-! ## What a section adds to what is ahead -/

theorem mem_blameAfter {reg : ParticleRegistry} {call : PendingCall}
    {ahead : List (Pid × Option Pid)} {e : Pid × Option Pid}
    (h : e ∈ blameAfter reg call ahead) :
    e ∈ ahead ∨
      ∃ pid st, call.unhooking = some (pid, st) ∧ e.2 = some pid ∧ e.1 ∈ st.links := by
  unfold blameAfter at h
  split at h
  · exact .inl (List.mem_of_mem_tail h)
  · rename_i pid st reason rest
    rcases List.mem_append.1 h with h | h
    · obtain ⟨x, hx, rfl⟩ := List.mem_map.1 h
      rw [ParticleRegistry.cascadeKills_unhook] at hx
      exact .inr ⟨pid, st, rfl, rfl, (List.mem_filter.1 hx).1⟩
    · exact .inl h
  · exact .inl h

theorem unhooking_critical (reg : ParticleRegistry) (call : PendingCall)
    {a : Pid} {st : ParticleState}
    (h : (reg.critical call).2.pending.bind PendingCall.unhooking = some (a, st)) :
    call.unhooking = some (a, st) ∨
      reg.state a = some st ∧ ∃ reason rest, call = .exitTake a reason rest := by
  obtain ⟨next, hnext, ha⟩ := Option.bind_eq_some_iff.1 h
  cases ParticleRegistry.follows_critical hnext with
  | taken hst =>
    cases ha
    exact .inr ⟨hst, _, _, rfl⟩
  | removed | unnamed | published => exact .inl ha
  | drawn | entered | inserted | refused | undone | skipped | unhooked | signalled
  | cascaded => cases ha

theorem mem_signalsToSend {states : Table Pid ParticleState} {pid : Pid}
    {st : ParticleState} {reason : ExitReason} {m : Pid × SystemMessage}
    (h : m ∈ ParticleRegistry.signalsToSend pid reason
      (ParticleRegistry.unhook states pid st reason)) :
    (m.1 ∈ st.links ∧ m.2 = .exit pid reason) ∨
      ∃ r, (m.1, r) ∈ st.monitoredBy ∧ m.2 = .down pid r reason := by
  rcases List.mem_append.1 h with h | h
  · obtain ⟨x, hx, rfl⟩ := List.mem_map.1 h
    rw [ParticleRegistry.exitDeliveries_unhook] at hx
    exact .inl ⟨(List.mem_filter.1 hx).1, rfl⟩
  · obtain ⟨d, hd, rfl⟩ := List.mem_map.1 h
    rw [ParticleRegistry.downDeliveries_unhook] at hd
    exact .inr ⟨d.2, (List.mem_filter.1 hd).1, rfl⟩

theorem sends_critical (reg : ParticleRegistry) (call : PendingCall)
    {m : Pid × SystemMessage}
    (h : m ∈ (reg.critical call).2.pending.elim [] PendingCall.sends) :
    m ∈ call.sends ∨ ∃ pid st reason, call.unhooking = some (pid, st) ∧
      ((m.1 ∈ st.links ∧ m.2 = .exit pid reason) ∨
        ∃ r, (m.1, r) ∈ st.monitoredBy ∧ m.2 = .down pid r reason) := by
  cases hnext : (reg.critical call).2.pending with
  | none =>
    rw [hnext] at h
    cases h
  | some next =>
    rw [hnext, Option.elim_some] at h
    cases ParticleRegistry.follows_critical hnext with
    | unhooked => exact .inr ⟨_, _, _, rfl, mem_signalsToSend h⟩
    | signalled => exact .inl (List.mem_cons_of_mem _ h)
    | drawn | entered | inserted | refused | undone | taken | skipped | removed
    | unnamed | published | cascaded => cases h

/-- A call that has just begun has nothing to unhook and nothing to send. -/
theorem quiet_of_begins {a : LocalAction} {id : Nat} {call : PendingCall}
    (h : a.begins = some (id, call)) : call.unhooking = none ∧ call.sends = [] := by
  unfold LocalAction.begins at h
  split at h <;> cases h <;> exact ⟨rfl, rfl⟩

/-- A call in progress after a step was in progress before, or is what a
section left, or has just begun. -/
theorem lookup_of_step {s t : BlamedCalls} {a : LocalAction} {id : Nat}
    {call : PendingCall} (hstep : s.step a = some t)
    (hcall : t.now.calls.lookup id = some call) :
    s.now.calls.lookup id = some call ∨
      (∃ old, s.now.calls.lookup id = some old ∧
        (s.now.reg.critical old).2.pending = some call) ∨
      call.unhooking = none ∧ call.sends = [] := by
  obtain ⟨id', old, -, hold, hnow, -⟩ | ⟨id', new, hbegins, -, hnow, -⟩ |
    ⟨-, -, hnow, -⟩ := step_cases hstep
  · rw [hnow, CallsInProgress.lookup_settle] at hcall
    split at hcall
    · rename_i hid
      subst hid
      exact .inr (.inl ⟨old, hold, hcall⟩)
    · exact .inl hcall
  · rw [hnow] at hcall
    have hlook := (Table.lookup_insert_eq _ _ _ _).symm.trans hcall
    split at hlook
    · cases hlook
      exact .inr (.inr (quiet_of_begins hbegins))
    · exact .inl hlook
  · rw [hnow] at hcall
    exact .inl hcall

/-- What an exit of `a` has ahead after a step was ahead before, or was linked
to `a` when the step took it. -/
theorem exitAhead_of_step {s t : BlamedCalls} {act : LocalAction} {a b : Pid}
    (hstep : s.step act = some t) (hahead : t.ExitAhead a b) :
    s.ExitAhead a b ∨ ∃ sa, s.now.reg.state a = some sa ∧ b ∈ sa.links := by
  rcases hahead with ⟨id, hblamed⟩ | ⟨id, call, hcall, hahead⟩
  · obtain ⟨id', old, -, hold, -, hblame⟩ | ⟨id', new, -, -, -, hblame⟩ |
      ⟨-, -, -, hblame⟩ := step_cases hstep
    · rw [hblame] at hblamed
      split at hblamed
      · rcases mem_blameAfter hblamed with hmem | ⟨pid, st, hunhooking, hpid, hmem⟩
        · exact .inl (.inl ⟨id', hmem⟩)
        · cases hpid
          exact .inl (.inr ⟨id', old, hold, .inl ⟨st, hunhooking, hmem⟩⟩)
      · exact .inl (.inl ⟨id, hblamed⟩)
    · rw [hblame] at hblamed
      split at hblamed
      · obtain ⟨x, -, hx⟩ := List.mem_map.1 hblamed
        cases hx
      · exact .inl (.inl ⟨id, hblamed⟩)
    · rw [hblame] at hblamed
      exact .inl (.inl ⟨id, hblamed⟩)
  · rcases lookup_of_step hstep hcall with hsame | ⟨old, hold, hnext⟩ | ⟨hu, hs⟩
    · exact .inl (.inr ⟨id, call, hsame, hahead⟩)
    · rcases hahead with ⟨st, hunhooking, hmem⟩ | ⟨reason, hmem⟩
      · rcases unhooking_critical s.now.reg old
          (by rw [hnext]; exact hunhooking) with hold' | ⟨hstate, -⟩
        · exact .inl (.inr ⟨id, old, hold, .inl ⟨st, hold', hmem⟩⟩)
        · exact .inr ⟨st, hstate, hmem⟩
      · rcases sends_critical s.now.reg old
          (by rw [hnext]; exact hmem) with hold' | ⟨pid, st, reason', hunhooking, hm⟩
        · exact .inl (.inr ⟨id, old, hold, .inr ⟨reason, hold'⟩⟩)
        · rcases hm with ⟨hlink, heq⟩ | ⟨r, -, heq⟩
          · cases heq
            exact .inl (.inr ⟨id, old, hold, .inl ⟨st, hunhooking, hlink⟩⟩)
          · cases heq
    · rcases hahead with ⟨st, hunhooking, -⟩ | ⟨reason, hmem⟩
      · rw [hu] at hunhooking
        cases hunhooking
      · rw [hs] at hmem
        cases hmem

/-- What an exit has ahead for a ref after a step was ahead before, or was
recorded at the particle that the step took. -/
theorem downAhead_of_step {s t : BlamedCalls} {act : LocalAction} {w : Pid}
    {r : UInt64} (hstep : s.step act = some t) (hahead : t.DownAhead w r) :
    s.DownAhead w r ∨
      ∃ x sx, s.now.reg.state x = some sx ∧ (w, r) ∈ sx.monitoredBy := by
  obtain ⟨id, call, hcall, hahead⟩ := hahead
  rcases lookup_of_step hstep hcall with hsame | ⟨old, hold, hnext⟩ | ⟨hu, hs⟩
  · exact .inl ⟨id, call, hsame, hahead⟩
  · rcases hahead with ⟨x, st, hunhooking, hmem⟩ | ⟨x, reason, hmem⟩
    · rcases unhooking_critical s.now.reg old
        (by rw [hnext]; exact hunhooking) with hold' | ⟨hstate, -⟩
      · exact .inl ⟨id, old, hold, .inl ⟨x, st, hold', hmem⟩⟩
      · exact .inr ⟨x, st, hstate, hmem⟩
    · rcases sends_critical s.now.reg old
        (by rw [hnext]; exact hmem) with hold' | ⟨pid, st, reason', hunhooking, hm⟩
      · exact .inl ⟨id, old, hold, .inr ⟨x, reason, hold'⟩⟩
      · rcases hm with ⟨-, heq⟩ | ⟨r', hwatch, heq⟩
        · cases heq
        · cases heq
          exact .inl ⟨id, old, hold, .inl ⟨x, st, hunhooking, hwatch⟩⟩
  · rcases hahead with ⟨x, st, hunhooking, -⟩ | ⟨x, reason, hmem⟩
    · rw [hu] at hunhooking
      cases hunhooking
    · rw [hs] at hmem
      cases hmem

/-! ## What a step adds to a state -/

/-- The links and the watchers of `x` after a section are old ones, and it
loses only refs of the particle that is unhooked. -/
structure Shrinks (call : PendingCall) (x : Pid) (st st' : ParticleState) :
    Prop where
  links : ∀ y ∈ st'.links, y ∈ st.links
  monitoredBy : st'.monitoredBy = st.monitoredBy
  monitors : ∀ r t, st.monitors.lookup r = some t →
    st'.monitors.lookup r = some t ∨
      ∃ pid sp, call.unhooking = some (pid, sp) ∧ (x, r) ∈ sp.monitoredBy

theorem Shrinks.refl (call : PendingCall) (x : Pid) (st : ParticleState) :
    Shrinks call x st st :=
  ⟨fun _ hy => hy, rfl, fun _ _ hr => .inl hr⟩

theorem shrinks_onState {call : PendingCall} {x : Pid}
    {o : Option ParticleState} {st' : ParticleState}
    (h : call.onState x o = some st') :
    (call.inserts = some x ∧ st' = .new) ∨
      ∃ st, o = some st ∧ Shrinks call x st st' := by
  cases call with
  | spawnState pid name =>
    rw [PendingCall.onState] at h
    split at h
    · rename_i hx
      cases h
      exact .inl ⟨by rw [hx]; rfl, rfl⟩
    · exact .inr ⟨st', h, .refl _ x st'⟩
  | spawnUndoState pid name =>
    rw [PendingCall.onState] at h
    split at h
    · cases h
    · exact .inr ⟨st', h, .refl _ x st'⟩
  | exitTake pid reason rest =>
    rw [PendingCall.onState] at h
    split at h
    · cases h
    · exact .inr ⟨st', h, .refl _ x st'⟩
  | exitUnhook pid sp reason rest =>
    obtain ⟨st, hst, rfl⟩ := Option.map_eq_some_iff.1 h
    refine .inr ⟨st, hst, fun y hy => ?_, rfl, fun r t hr => ?_⟩
    · rw [unhookFrom] at hy
      dsimp only at hy
      split at hy
      · exact (KeySet.mem_remove.1 hy).2
      · exact hy
    · rw [unhookFrom]
      dsimp only
      rw [ParticleRegistry.lookup_dropRefs]
      split
      · exact .inr ⟨pid, sp, rfl, ParticleRegistry.mem_firedRefs.1 ‹_›⟩
      · exact .inl hr
  | exitSignal reason sends rest =>
    cases sends with
    | nil => exact .inr ⟨st', h, .refl _ x st'⟩
    | cons send sends =>
      obtain ⟨st, hst, rfl⟩ := Option.map_eq_some_iff.1 h
      refine .inr ⟨st, hst, ?_⟩
      split
      · exact ⟨fun _ hy => hy, rfl, fun _ _ hr => .inl hr⟩
      · exact .refl _ x st
  | spawnDraw | spawnEntry | spawnBind | spawnUndoEntry | exitEntry | exitNames
  | exitPublish => exact .inr ⟨st', h, .refl _ x st'⟩

/-- The links and the watchers of `x` after an action are old ones, or the
action is what adds them.  It loses only a ref that the action is about. -/
structure Adds (a : LocalAction) (x : Pid) (st st' : ParticleState) : Prop where
  links : ∀ y ∈ st'.links, y ∈ st.links ∨ a = .call (.atomic (.link x y)) ∨
    a = .call (.atomic (.link y x))
  monitoredBy : ∀ w r, (w, r) ∈ st'.monitoredBy →
    (w, r) ∈ st.monitoredBy ∨ a = .monitorWithRef w x r
  monitors : ∀ r t, st.monitors.lookup r = some t →
    st'.monitors.lookup r = some t ∨ a = .demonitor x r ∨
      ∃ t', a = .monitorWithRef x t' r

theorem Adds.of_same {a : LocalAction} {x : Pid} {st st' : ParticleState}
    (hlinks : st'.links = st.links) (hby : st'.monitoredBy = st.monitoredBy)
    (hmonitors : st'.monitors = st.monitors) : Adds a x st st' where
  links _ hy := .inl (hlinks ▸ hy)
  monitoredBy _ _ hmem := .inl (hby ▸ hmem)
  monitors r t hr := .inl (by rw [hmonitors, hr])

theorem adds_modifyState {reg : ParticleRegistry} {a : LocalAction} {x pid : Pid}
    {f : ParticleState → ParticleState} {st' : ParticleState}
    (h : (reg.modifyState pid f).state x = some st')
    (hlinks : ∀ st, (f st).links = st.links)
    (hby : ∀ st, (f st).monitoredBy = st.monitoredBy)
    (hmonitors : ∀ st, (f st).monitors = st.monitors) :
    ∃ st, reg.state x = some st ∧ Adds a x st st' := by
  rw [ParticleRegistry.state_modifyState] at h
  split at h
  · obtain ⟨st, hst, rfl⟩ := Option.map_eq_some_iff.1 h
    exact ⟨st, hst, .of_same (hlinks st) (hby st) (hmonitors st)⟩
  · exact ⟨st', h, .of_same rfl rfl rfl⟩

theorem adds_onRegistry {reg : ParticleRegistry} {a : LocalAction}
    (hlocal : a.isLocal = true) {x : Pid} {st' : ParticleState}
    (h : (a.onRegistry reg).state x = some st') :
    ∃ st, reg.state x = some st ∧ Adds a x st st' := by
  cases a with
  | unlink a b =>
    obtain ⟨st, hst, rfl⟩ :=
      Option.map_eq_some_iff.1 ((reg.state_unlink a b x).symm.trans h)
    exact ⟨st, hst, fun y hy => .inl (ParticleRegistry.mem_withoutLink.1 hy).1,
      fun w r hmem => .inl hmem, fun r t hr => .inl hr⟩
  | monitorWithRef watcher target refId =>
    obtain ⟨st, hst, rfl⟩ := Option.map_eq_some_iff.1
      ((reg.state_monitorWithRef watcher target x refId).symm.trans h)
    refine ⟨st, hst, fun y hy => .inl hy, fun w r hmem => ?_, fun r t hr => ?_⟩
    · unfold ParticleRegistry.withMonitor at hmem
      dsimp only at hmem
      split at hmem
      · rename_i hx
        rcases List.mem_append.1 hmem with hmem | hmem
        · exact .inl hmem
        · cases List.mem_singleton.1 hmem
          exact .inr (by rw [hx])
      · exact .inl hmem
    · unfold ParticleRegistry.withMonitor
      dsimp only
      split
      · rename_i hx
        rw [Table.lookup_insert_eq]
        split
        · rename_i hr'
          exact .inr (.inr ⟨target, by rw [hx, hr']⟩)
        · exact .inl hr
      · exact .inl hr
  | demonitor watcher refId =>
    obtain ⟨st, hst, rfl⟩ := Option.map_eq_some_iff.1
      ((reg.state_demonitor watcher x refId).symm.trans h)
    refine ⟨st, hst, fun y hy => .inl hy, fun w r hmem => .inl ?_,
      fun r t hr => ?_⟩
    · unfold ParticleRegistry.withoutMonitor at hmem
      dsimp only at hmem
      split at hmem
      · exact (List.mem_filter.1 hmem).1
      · exact hmem
    · unfold ParticleRegistry.withoutMonitor
      dsimp only
      split
      · rename_i hx
        rw [Table.lookup_erase_eq]
        split
        · rename_i hr'
          exact .inr (.inl (by rw [hx, hr']))
        · exact .inl hr
      · exact .inl hr
  | call a =>
    cases a with
    | register pid name =>
      exact ⟨st', (reg.state_registerName pid name x).symm.trans h, .of_same rfl rfl rfl⟩
    | unregister pid name =>
      exact ⟨st', (reg.state_unregisterName pid name x).symm.trans h, .of_same rfl rfl rfl⟩
    | beginSpawn | beginExit | advance => exact ⟨st', h, .of_same rfl rfl rfl⟩
    | atomic op =>
      cases op with
      | registerComponent component => exact ⟨st', h, .of_same rfl rfl rfl⟩
      | setTrapExit pid enabled =>
        exact adds_modifyState h (fun _ => rfl) (fun _ => rfl) fun _ => rfl
      | deliverExit target source reason =>
        exact adds_modifyState h (fun _ => rfl) (fun _ => rfl) fun _ => rfl
      | deliverDown target source refId reason =>
        exact adds_modifyState h (fun _ => rfl) (fun _ => rfl) fun _ => rfl
      | linkRemote | unlinkRemote | monitorRemote | forgetNode => cases hlocal
      | link a b =>
        change (reg.link a b).1.state x = some st' at h
        by_cases ha : reg.Alive a
        swap
        · rw [ParticleRegistry.link, if_pos ha] at h
          exact ⟨st', h, .of_same rfl rfl rfl⟩
        by_cases hb : reg.Alive b
        swap
        · rw [ParticleRegistry.link, if_neg (not_not.2 ha), if_pos hb] at h
          exact ⟨st', h, .of_same rfl rfl rfl⟩
        obtain ⟨st, hst, rfl⟩ := Option.map_eq_some_iff.1
          ((ParticleRegistry.state_link ha hb x).symm.trans h)
        refine ⟨st, hst, fun y hy => ?_, fun w r hmem => .inl hmem,
          fun r t hr => .inl hr⟩
        rcases ParticleRegistry.mem_withLink.1 hy with hy | ⟨rfl, rfl⟩ | ⟨rfl, rfl⟩
        · exact .inl hy
        · exact .inr (.inl rfl)
        · exact .inr (.inr rfl)

/-- What a step adds to the links and the watchers of a particle.  One that
has just come to life has neither. -/
theorem adds_of_step {s t : BlamedCalls} {a : LocalAction} {x : Pid}
    {st' : ParticleState} (hstep : s.step a = some t)
    (hst' : t.now.reg.state x = some st') :
    st' = .new ∨ ∃ st, s.now.reg.state x = some st ∧
      (∀ y ∈ st'.links, y ∈ st.links ∨ a = .call (.atomic (.link x y)) ∨
        a = .call (.atomic (.link y x))) ∧
      ∀ w r, (w, r) ∈ st'.monitoredBy →
        (w, r) ∈ st.monitoredBy ∨ a = .monitorWithRef w x r := by
  obtain ⟨id, call, -, -, hnow, -⟩ | ⟨id, call, -, -, hnow, -⟩ |
    ⟨-, hlocal, hnow, -⟩ := step_cases hstep
  · rw [hnow, CallsInProgress.reg_settle, ParticleRegistry.state_critical] at hst'
    rcases shrinks_onState hst' with ⟨-, hnew⟩ | ⟨st, hst, hshrinks⟩
    · exact .inl hnew
    · exact .inr ⟨st, hst, fun y hy => .inl (hshrinks.links y hy),
        fun w r hmem => .inl (hshrinks.monitoredBy ▸ hmem)⟩
  · rw [hnow] at hst'
    exact .inr ⟨st', hst', fun y hy => .inl hy, fun w r hmem => .inl hmem⟩
  · rw [hnow] at hst'
    obtain ⟨st, hst, hadds⟩ := adds_onRegistry hlocal hst'
    exact .inr ⟨st, hst, hadds.links, hadds.monitoredBy⟩

/-! ## After an unlink -/

/-- `b` is dead, or `a` has no link to it and no exit of `a` has it ahead. -/
def Unlinked (a b : Pid) (s : BlamedCalls) : Prop :=
  s.now.reg.Alive b →
    (∀ sa, s.now.reg.state a = some sa → b ∉ sa.links) ∧ ¬ s.ExitAhead a b

theorem Unlinked.step {s t : BlamedCalls} {act : LocalAction} {a b : Pid}
    (h : Unlinked a b s) (hok : StaysApart a b s act)
    (hstep : s.step act = some t) : Unlinked a b t := by
  intro hb
  obtain ⟨hlinks, hahead⟩ := h (alive_of_step hstep hb hok.2.2)
  refine ⟨fun sa' hsa' hmem => ?_, fun hahead' => ?_⟩
  · rcases adds_of_step hstep hsa' with rfl | ⟨sa, hsa, hadds, -⟩
    · cases hmem
    · rcases hadds b hmem with hold | hlink | hlink
      · exact hlinks sa hsa hold
      · exact hok.1 hlink
      · exact hok.2.1 hlink
  · rcases exitAhead_of_step hstep hahead' with hold | ⟨sa, hsa, hmem⟩
    · exact hahead hold
    · exact hlinks sa hsa hmem

/-- An `unlink` leaves nothing but what is ahead. -/
theorem unlinked_of_unlink {s t : BlamedCalls} {a b : Pid}
    (hstep : s.step (.unlink b a) = some t)
    (hclear : s.now.reg.Alive b → ¬ s.ExitAhead a b) : Unlinked a b t := by
  cases hstep
  intro hb
  refine ⟨fun sa' hsa' hmem => ?_, ?_⟩
  · obtain ⟨sa, -, rfl⟩ := Option.map_eq_some_iff.1
      ((s.now.reg.state_unlink b a a).symm.trans hsa')
    exact (ParticleRegistry.mem_withoutLink.1 hmem).2.2 ⟨rfl, rfl⟩
  · exact hclear (((s.now.reg.sameLife_unlink b a).alive b).1 hb)

/-- What a call in progress kills, it had ahead, and the blame is right. -/
theorem mem_blamed_of_killed {s : BlamedCalls} (h : Accounted s)
    {act : LocalAction} {b a : Pid} (hkilled : s.killed act = some (b, some a)) :
    s.now.reg.Alive b ∧ ∃ id, (b, some a) ∈ s.blamed id := by
  unfold killed at hkilled
  split at hkilled
  · rename_i id
    split at hkilled
    · rename_i pid reason rest hcall
      split at hkilled
      · rename_i halive
        have hkills := h id
        rw [hcall, Option.elim_some] at hkills
        cases hblamed : s.blamed id with
        | nil =>
          rw [hblamed] at hkilled
          cases hkilled
        | cons e ahead =>
          rw [hblamed] at hkilled hkills
          obtain ⟨rfl, hcause⟩ := Prod.mk.inj (Option.some_inj.1 hkilled)
          refine ⟨halive, id, ?_⟩
          rw [hblamed]
          have he : e = (pid, some a) := Prod.ext (List.cons.inj hkills).1 hcause
          rw [he]
          exact List.mem_cons_self
      · cases hkilled
    · cases hkilled
  · cases hkilled

/-- What a call in progress enqueues, it had ahead. -/
theorem mem_sends_of_enqueued {s : BlamedCalls} {id : Nat}
    {m : Pid × SystemMessage}
    (h : s.enqueued (.call (.advance id)) = some m) :
    s.now.reg.Alive m.1 ∧
      ∃ call, s.now.calls.lookup id = some call ∧ m ∈ call.sends := by
  unfold enqueued at h
  dsimp only at h
  split at h
  · rename_i reason send sends rest hcall
    split at h
    · cases h
      exact ⟨‹_›, _, hcall, List.mem_cons_self⟩
    · cases h
  · cases h

/-! ## Refs -/

/-- Nobody records the watcher under the ref, and no exit in progress has
copied that. -/
def RefUnused (s : BlamedCalls) (watcher : Pid) (refId : UInt64) : Prop :=
  (∀ e ∈ s.now.reg.particleStates.entries, (watcher, refId) ∉ e.2.monitoredBy) ∧
    ∀ e ∈ s.now.calls.entries, ∀ u ∈ e.2.unhooking,
      (watcher, refId) ∉ u.2.monitoredBy

/-- Nobody records `pid` as a watcher. -/
def WatchesNobody (s : BlamedCalls) (pid : Pid) : Prop :=
  ∀ e ∈ s.now.reg.particleStates.entries, ∀ w ∈ e.2.monitoredBy, w.1 ≠ pid

/-- The condition on a step.  A monitor gets a ref that is not in use, and a
pid is not used again while it is recorded as a watcher. -/
def RefsFresh (s : BlamedCalls) : LocalAction → Prop
  | .monitorWithRef watcher _ refId => s.RefUnused watcher refId
  | .call (.advance id) =>
    ∀ call ∈ s.now.calls.lookup id, ∀ pid ∈ call.inserts, s.WatchesNobody pid
  | _ => True

instance (s : BlamedCalls) (watcher : Pid) (refId : UInt64) :
    Decidable (s.RefUnused watcher refId) :=
  inferInstanceAs (Decidable ((∀ e ∈ _, _) ∧ ∀ e ∈ _, ∀ u ∈ _, _))

instance (s : BlamedCalls) (pid : Pid) : Decidable (s.WatchesNobody pid) :=
  inferInstanceAs (Decidable (∀ e ∈ _, ∀ w ∈ _, _))

instance (s : BlamedCalls) : DecidablePred s.RefsFresh
  | .monitorWithRef watcher _ refId =>
    inferInstanceAs (Decidable (s.RefUnused watcher refId))
  | .call (.advance id) =>
    inferInstanceAs (Decidable (∀ call ∈ s.now.calls.lookup id, ∀ pid ∈ _, _))
  | .call (.beginSpawn ..) | .call (.beginExit ..) | .call (.register ..)
  | .call (.unregister ..) | .call (.atomic _) | .unlink .. | .demonitor .. =>
    isTrue trivial

/-- The watchers that targets record hold their refs, and a ref is recorded
once. -/
structure RefsHeld (s : BlamedCalls) : Prop where
  held : ∀ w t r sw st, s.now.reg.state w = some sw →
    s.now.reg.state t = some st → (w, r) ∈ st.monitoredBy →
    sw.monitors.lookup r = some t
  unique : ∀ w r t t' st st', s.now.reg.state t = some st →
    s.now.reg.state t' = some st' → (w, r) ∈ st.monitoredBy →
    (w, r) ∈ st'.monitoredBy → t = t'
  copied : ∀ id call p sp w r t st, s.now.calls.lookup id = some call →
    call.unhooking = some (p, sp) → (w, r) ∈ sp.monitoredBy →
    s.now.reg.state t = some st → (w, r) ∉ st.monitoredBy

theorem refsHeld_start (node : EndpointId) : RefsHeld (start node) where
  held _ _ _ _ _ hw := by cases hw
  unique _ _ _ _ _ _ ht := by cases ht
  copied _ _ _ _ _ _ _ _ hcall := by cases hcall

/-- The next section of a call. -/
theorem RefsHeld.settle {s t : BlamedCalls} (h : RefsHeld s) {id : Nat}
    {call : PendingCall} (hcall : s.now.calls.lookup id = some call)
    (hfresh : ∀ pid ∈ call.inserts, s.WatchesNobody pid)
    (hnow : t.now = s.now.settle id (s.now.reg.critical call).1
      (s.now.reg.critical call).2) : RefsHeld t := by
  have hstate : ∀ x st', t.now.reg.state x = some st' →
      (call.inserts = some x ∧ st' = .new) ∨
        ∃ st, s.now.reg.state x = some st ∧ Shrinks call x st st' := by
    intro x st' hst'
    rw [hnow, CallsInProgress.reg_settle, ParticleRegistry.state_critical] at hst'
    exact shrinks_onState hst'
  have hold : ∀ x st' w r, t.now.reg.state x = some st' → (w, r) ∈ st'.monitoredBy →
      ∃ st, s.now.reg.state x = some st ∧ (w, r) ∈ st.monitoredBy := by
    intro x st' w r hst' hmem
    rcases hstate x st' hst' with ⟨-, rfl⟩ | ⟨st, hst, hshrinks⟩
    · cases hmem
    · exact ⟨st, hst, hshrinks.monitoredBy ▸ hmem⟩
  refine ⟨?_, ?_, ?_⟩
  · intro w x r sw' sx' hw hx hmem
    obtain ⟨sx, hsx, hmem⟩ := hold x sx' w r hx hmem
    rcases hstate w sw' hw with ⟨hnew, -⟩ | ⟨sw, hsw, hshrinks⟩
    · exact absurd rfl
        (hfresh w hnew ⟨x, sx⟩ (AList.mem_lookup_iff.1 hsx) (w, r) hmem)
    · rcases hshrinks.monitors r x (h.held w x r sw sx hsw hsx hmem) with
        hkept | ⟨p, sp, hunhooking, hgone⟩
      · exact hkept
      · exact absurd hmem (h.copied id call p sp w r x sx hcall hunhooking hgone hsx)
  · intro w r x x' sx' sx₁' hx hx' hmem hmem'
    obtain ⟨sx, hsx, hmem⟩ := hold x sx' w r hx hmem
    obtain ⟨sx₁, hsx₁, hmem'⟩ := hold x' sx₁' w r hx' hmem'
    exact h.unique w r x x' sx sx₁ hsx hsx₁ hmem hmem'
  · intro id' call' p sp w r x sx' hcall' hunhooking hgone hx hmem
    obtain ⟨sx, hsx, hmem⟩ := hold x sx' w r hx hmem
    rw [hnow, CallsInProgress.lookup_settle] at hcall'
    split at hcall'
    · rcases unhooking_critical s.now.reg call
        (by rw [hcall']; exact hunhooking) with hcopied | ⟨hp, reason, rest, rfl⟩
      · exact h.copied id call p sp w r x sx hcall hcopied hgone hsx hmem
      · -- The section has just taken `p`, so `x` is another one.
        have hxp := h.unique w r p x sp sx hp hsx hgone hmem
        subst hxp
        rw [hnow, CallsInProgress.reg_settle, ParticleRegistry.state_critical,
          PendingCall.onState, if_pos rfl] at hx
        cases hx
    · exact h.copied id' call' p sp w r x sx hcall' hunhooking hgone hsx hmem

/-- A single action on the registry. -/
theorem RefsHeld.onRegistry {s t : BlamedCalls} (h : RefsHeld s) {a : LocalAction}
    (hlocal : a.isLocal = true) (hfresh : s.RefsFresh a)
    (hnow : t.now = { s.now with reg := a.onRegistry s.now.reg }) : RefsHeld t := by
  have hstate : ∀ x st', t.now.reg.state x = some st' →
      ∃ st, s.now.reg.state x = some st ∧ Adds a x st st' := by
    intro x st' hst'
    rw [hnow] at hst'
    exact adds_onRegistry hlocal hst'
  -- A ref that a monitor adds was not in use.
  have hunused : ∀ w x r, a = .monitorWithRef w x r →
      (∀ x st, s.now.reg.state x = some st → (w, r) ∉ st.monitoredBy) ∧
        ∀ id call p sp, s.now.calls.lookup id = some call →
          call.unhooking = some (p, sp) → (w, r) ∉ sp.monitoredBy := by
    rintro w x r rfl
    exact ⟨fun x st hst => hfresh.1 ⟨x, st⟩ (AList.mem_lookup_iff.1 hst),
      fun id call p sp hcall hunhooking =>
        hfresh.2 ⟨id, call⟩ (AList.mem_lookup_iff.1 hcall) (p, sp) hunhooking⟩
  refine ⟨?_, ?_, ?_⟩
  · intro w x r sw' sx' hw hx hmem
    obtain ⟨sw, hsw, haddsw⟩ := hstate w sw' hw
    obtain ⟨sx, hsx, haddsx⟩ := hstate x sx' hx
    rcases haddsx.monitoredBy w r hmem with hold | rfl
    · rcases haddsw.monitors r x (h.held w x r sw sx hsw hsx hold) with
        hkept | rfl | ⟨x', hnew⟩
      · exact hkept
      · -- A demonitor takes the ref from both ends.
        rw [hnow] at hx
        obtain ⟨sx₁, hsx₁, rfl⟩ := Option.map_eq_some_iff.1
          ((s.now.reg.state_demonitor w x r).symm.trans hx)
        have hwatched : s.now.reg.watched w r = some x :=
          Option.bind_eq_some_iff.2 ⟨sw, hsw, h.held w x r sw sx hsw hsx hold⟩
        rw [hwatched] at hmem
        simp [ParticleRegistry.withoutMonitor] at hmem
      · exact absurd hold ((hunused w x' r hnew).1 x sx hsx)
    · rw [hnow] at hw
      obtain ⟨sw₁, -, rfl⟩ := Option.map_eq_some_iff.1
        ((s.now.reg.state_monitorWithRef w x w r).symm.trans hw)
      simp [ParticleRegistry.withMonitor]
  · intro w r x x' sx' sx₁' hx hx' hmem hmem'
    obtain ⟨sx, hsx, hadds⟩ := hstate x sx' hx
    obtain ⟨sx₁, hsx₁, hadds'⟩ := hstate x' sx₁' hx'
    rcases hadds.monitoredBy w r hmem with hold | rfl
    · rcases hadds'.monitoredBy w r hmem' with hold' | rfl
      · exact h.unique w r x x' sx sx₁ hsx hsx₁ hold hold'
      · exact absurd hold ((hunused w x' r rfl).1 x sx hsx)
    · rcases hadds'.monitoredBy w r hmem' with hold' | hsame
      · exact absurd hold' ((hunused w x r rfl).1 x' sx₁ hsx₁)
      · cases hsame
        rfl
  · intro id call p sp w r x sx' hcall hunhooking hgone hx hmem
    rw [hnow] at hcall
    obtain ⟨sx, hsx, hadds⟩ := hstate x sx' hx
    rcases hadds.monitoredBy w r hmem with hold | hnew
    · exact h.copied id call p sp w r x sx hcall hunhooking hgone hsx hold
    · exact (hunused w x r hnew).2 id call p sp hcall hunhooking hgone

theorem RefsHeld.step {s t : BlamedCalls} {a : LocalAction} (h : RefsHeld s)
    (hfresh : s.RefsFresh a) (hstep : s.step a = some t) : RefsHeld t := by
  obtain ⟨id, call, rfl, hcall, hnow, -⟩ | ⟨id, call, hbegins, hnew, hnow, -⟩ |
    ⟨-, hlocal, hnow, -⟩ := step_cases hstep
  · exact h.settle hcall (hfresh call hcall) hnow
  · have hreg : t.now.reg = s.now.reg := by rw [hnow]
    refine ⟨?_, ?_, ?_⟩
    · rw [hreg]
      exact h.held
    · rw [hreg]
      exact h.unique
    · rw [hreg]
      intro id' call' p sp w r x sx hcall' hunhooking
      rw [hnow] at hcall'
      have hlook := (Table.lookup_insert_eq _ _ _ _).symm.trans hcall'
      split at hlook
      · cases hlook
        rw [(quiet_of_begins hbegins).1] at hunhooking
        cases hunhooking
      · exact h.copied id' call' p sp w r x sx hlook hunhooking
  · exact h.onRegistry hlocal hfresh hnow

/-! ## After a demonitor -/

/-- The watcher is dead, or nobody records the ref and no exit has it ahead. -/
def Unwatched (w : Pid) (r : UInt64) (s : BlamedCalls) : Prop :=
  s.now.reg.Alive w →
    (∀ x sx, s.now.reg.state x = some sx → (w, r) ∉ sx.monitoredBy) ∧
      ¬ s.DownAhead w r

theorem Unwatched.step {s t : BlamedCalls} {act : LocalAction} {w : Pid}
    {r : UInt64} (h : Unwatched w r s) (hok : RefRetired w r s act)
    (hstep : s.step act = some t) : Unwatched w r t := by
  intro hw
  obtain ⟨hrecords, hahead⟩ := h (alive_of_step hstep hw hok.2.2)
  refine ⟨fun x sx' hsx' hmem => ?_, fun hahead' => ?_⟩
  · rcases adds_of_step hstep hsx' with rfl | ⟨sx, hsx, -, hadds⟩
    · cases hmem
    · rcases hadds w r hmem with hold | hmonitor
      · exact hrecords x sx hsx hold
      · exact hok.1 x hmonitor
  · rcases downAhead_of_step hstep hahead' with hold | ⟨x, sx, hsx, hmem⟩
    · exact hahead hold
    · exact hrecords x sx hsx hmem

/-- A `demonitor` leaves nothing but what is ahead. -/
theorem unwatched_of_demonitor {s t : BlamedCalls} (h : RefsHeld s) {w : Pid}
    {r : UInt64} (hstep : s.step (.demonitor w r) = some t)
    (hclear : s.now.reg.Alive w → ¬ s.DownAhead w r) : Unwatched w r t := by
  cases hstep
  intro hw
  have hw : s.now.reg.Alive w := ((s.now.reg.sameLife_demonitor w r).alive w).1 hw
  refine ⟨fun x sx' hsx' hmem => ?_, hclear hw⟩
  obtain ⟨sw, hsw⟩ := ParticleRegistry.alive_iff.1 hw
  obtain ⟨sx, hsx, rfl⟩ := Option.map_eq_some_iff.1
    ((s.now.reg.state_demonitor w x r).symm.trans hsx')
  have hold : (w, r) ∈ sx.monitoredBy := by
    unfold ParticleRegistry.withoutMonitor at hmem
    dsimp only at hmem
    split at hmem
    · exact (List.mem_filter.1 hmem).1
    · exact hmem
  have hwatched : s.now.reg.watched w r = some x :=
    Option.bind_eq_some_iff.2 ⟨sw, hsw, h.held w x r sw sx hsw hsx hold⟩
  rw [hwatched] at hmem
  simp [ParticleRegistry.withoutMonitor] at hmem

/-! ## Runs -/

theorem accounted_run {s t : BlamedCalls} {ok : BlamedCalls → LocalAction → Prop}
    (h : Run step ok s t) (hs : Accounted s) : Accounted t :=
  h.invariant (fun hinv _ hstep => hinv.step hstep) hs

/-- When an `unlink` or a `demonitor` has returned and no exit in progress has
the peer or the watcher ahead, no exit ever reaches it. -/
theorem withdrawals_are_final (node : EndpointId) (s : BlamedCalls) :
    (Run step anyStep (start node) s → ∀ a b t u,
      s.step (.unlink b a) = some t →
      (s.now.reg.Alive b → ¬ s.ExitAhead a b) →
      Run step (StaysApart a b) t u →
      ∀ id, u.killed (.call (.advance id)) ≠ some (b, some a) ∧
        ∀ reason, u.enqueued (.call (.advance id)) ≠ some (b, .exit a reason)) ∧
    (Run step RefsFresh (start node) s → ∀ w r t u,
      s.step (.demonitor w r) = some t →
      (s.now.reg.Alive w → ¬ s.DownAhead w r) →
      Run step (RefRetired w r) t u →
      ∀ act, RefRetired w r u act → ∀ source reason,
        u.enqueued act ≠ some (w, .down source r reason)) := by
  constructor
  · intro h a b t u hunlink hclear hrun id
    have haccounted : Accounted u :=
      accounted_run hrun ((accounted_run h (accounted_start node)).step hunlink)
    have hinv : Unlinked a b u := hrun.invariant
      (fun hinv hok hstep => hinv.step hok hstep) (unlinked_of_unlink hunlink hclear)
    constructor
    · intro hkilled
      obtain ⟨hb, id', hmem⟩ := mem_blamed_of_killed haccounted hkilled
      exact (hinv hb).2 (.inl ⟨id', hmem⟩)
    · intro reason henqueued
      obtain ⟨hb, call, hcall, hmem⟩ := mem_sends_of_enqueued henqueued
      exact (hinv hb).2 (.inr ⟨id, call, hcall, .inr ⟨reason, hmem⟩⟩)
  · intro h w r t u hdemonitor hclear hrun act hok source reason henqueued
    have hheld : RefsHeld s := h.invariant
      (fun hinv hok hstep => hinv.step hok hstep) (refsHeld_start node)
    have hinv : Unwatched w r u := hrun.invariant
      (fun hinv hok hstep => hinv.step hok hstep)
      (unwatched_of_demonitor hheld hdemonitor hclear)
    cases act with
    | unlink | monitorWithRef | demonitor => cases henqueued
    | call a =>
      cases a with
      | beginSpawn | beginExit | register | unregister => cases henqueued
      | advance id =>
        obtain ⟨hw, call, hcall, hmem⟩ := mem_sends_of_enqueued henqueued
        exact (hinv hw).2 ⟨id, call, hcall, .inr ⟨source, reason, hmem⟩⟩
      | atomic op =>
        cases op with
        | deliverExit target source' reason' =>
          unfold enqueued at henqueued
          dsimp only at henqueued
          split at henqueued <;> cases henqueued
        | deliverDown target source' refId reason' =>
          unfold enqueued at henqueued
          dsimp only at henqueued
          split at henqueued
          · cases henqueued
            exact hok.2.1 _ _ rfl
          · cases henqueued
        | registerComponent | link | setTrapExit | linkRemote | unlinkRemote
        | monitorRemote | forgetNode => cases henqueued

/-- With no call in progress nothing is ahead. -/
theorem nothing_ahead_of_idle {s : BlamedCalls} (h : Accounted s)
    (hidle : s.now.calls.keys = []) :
    (∀ a b, ¬ s.ExitAhead a b) ∧ ∀ w r, ¬ s.DownAhead w r := by
  have hnone := CallsInProgress.lookup_ne_of_idle hidle
  constructor
  · rintro a b (⟨id, hmem⟩ | ⟨id, call, hcall, -⟩)
    · have hkills := h id
      rw [Option.eq_none_iff_forall_ne_some.2 (hnone id), Option.elim_none,
        List.map_eq_nil_iff] at hkills
      rw [hkills] at hmem
      cases hmem
    · exact hnone id call hcall
  · rintro w r ⟨id, call, hcall, -⟩
    exact hnone id call hcall

/-- The step takes an exit further, and does not bring `pid` to life. -/
def Exiting (pid : Pid) (s : BlamedCalls) : LocalAction → Prop
  | .call (.beginExit ..) => True
  | .call (.advance id) =>
    (s.now.calls.lookup id).bind PendingCall.inserts ≠ some pid
  | _ => False

instance (pid : Pid) (s : BlamedCalls) : DecidablePred (Exiting pid s)
  | .call (.beginExit ..) => isTrue trivial
  | .call (.advance _) => inferInstanceAs (Decidable (_ ≠ _))
  | .call (.beginSpawn ..) | .call (.register ..) | .call (.unregister ..)
  | .call (.atomic _) | .unlink .. | .monitorWithRef .. | .demonitor .. =>
    isFalse id

theorem Exiting.staysApart {a b : Pid} {s : BlamedCalls} {act : LocalAction}
    (h : Exiting b s act) : StaysApart a b s act := by
  unfold Exiting at h
  split at h
  · exact ⟨nofun, nofun, id⟩
  · exact ⟨nofun, nofun, h⟩
  · cases h

theorem Exiting.refRetired {w : Pid} {r : UInt64} {s : BlamedCalls}
    {act : LocalAction} (h : Exiting w s act) : RefRetired w r s act := by
  unfold Exiting at h
  split at h
  · exact ⟨nofun, nofun, id⟩
  · exact ⟨nofun, nofun, h⟩
  · cases h

/-- Two particles.  They are linked, and the second one watches the first. -/
def linkTwo : List LocalAction :=
  ([.atomic (.registerComponent "worker"), .beginSpawn 0 "worker" none,
    .advance 0, .advance 0, .advance 0, .beginSpawn 0 "worker" none,
    .advance 0, .advance 0, .advance 0,
    .atomic (.link ⟨⟨1⟩, 1⟩ ⟨⟨1⟩, 2⟩)] : List CallAction).map .call ++
  [.monitorWithRef ⟨⟨1⟩, 2⟩ ⟨⟨1⟩, 1⟩ 7]

/-- The first particle exits. -/
def exitFirst (sections : Nat) : List LocalAction :=
  .call (.beginExit 0 ⟨⟨1⟩, 1⟩ .kill) ::
    List.replicate sections (.call (.advance 0))

/-- Run `before`, take the step `withdrawal`, and let the first particle exit
as far as `sections` go. -/
def withdrawAmid (before : List LocalAction) (withdrawal : LocalAction)
    (sections : List LocalAction) :
    Option (BlamedCalls × BlamedCalls × BlamedCalls) :=
  (exec step RefsFresh (start ⟨1⟩) before).bind fun s =>
    (s.step withdrawal).bind fun t =>
      (exec step (Exiting ⟨⟨1⟩, 2⟩) t sections).map fun u => (s, t, u)

theorem run_of_withdrawAmid {before sections : List LocalAction}
    {withdrawal : LocalAction} {s t u : BlamedCalls}
    (h : withdrawAmid before withdrawal sections = some (s, t, u)) :
    Run step RefsFresh (start ⟨1⟩) s ∧ s.step withdrawal = some t ∧
      Run step (Exiting ⟨⟨1⟩, 2⟩) t u := by
  obtain ⟨s', hs, h⟩ := Option.bind_eq_some_iff.1 h
  obtain ⟨t', ht, h⟩ := Option.bind_eq_some_iff.1 h
  obtain ⟨u', hu, heq⟩ := Option.map_eq_some_iff.1 h
  cases heq
  exact ⟨exec_run hs, ht, exec_run hu⟩

theorem exists_of_withdrawAmid (before : List LocalAction)
    (withdrawal : LocalAction) (sections : List LocalAction)
    {p : BlamedCalls → BlamedCalls → Prop}
    [∀ s u, Decidable (p s u)]
    (h : (withdrawAmid before withdrawal sections).any
      (fun x => p x.1 x.2.2) = true) :
    ∃ s t u, Run step RefsFresh (start ⟨1⟩) s ∧ s.step withdrawal = some t ∧
      Run step (Exiting ⟨⟨1⟩, 2⟩) t u ∧ p s u := by
  obtain ⟨⟨s, t, u⟩, hrun, hp⟩ := (Option.any_eq_true _ _).1 h
  obtain ⟨hs, ht, hu⟩ := run_of_withdrawAmid hrun
  exact ⟨s, t, u, hs, ht, hu, of_decide_eq_true hp⟩

/-- The withdrawals come before the exit begins. -/
theorem withdrawals_are_final_early :
    (∃ s t u, Run step anyStep (start ⟨1⟩) s ∧
      s.step (.unlink ⟨⟨1⟩, 2⟩ ⟨⟨1⟩, 1⟩) = some t ∧
      Run step (StaysApart ⟨⟨1⟩, 1⟩ ⟨⟨1⟩, 2⟩) t u ∧ u.now.calls.keys = [0] ∧
      ∀ id, u.killed (.call (.advance id)) ≠ some (⟨⟨1⟩, 2⟩, some ⟨⟨1⟩, 1⟩)) ∧
    ∃ s t u, Run step RefsFresh (start ⟨1⟩) s ∧
      s.step (.demonitor ⟨⟨1⟩, 2⟩ 7) = some t ∧
      Run step (RefRetired ⟨⟨1⟩, 2⟩ 7) t u ∧ u.now.calls.keys = [0] ∧
      ∀ act, RefRetired ⟨⟨1⟩, 2⟩ 7 u act → ∀ source reason,
        u.enqueued act ≠ some (⟨⟨1⟩, 2⟩, .down source 7 reason) := by
  constructor
  · obtain ⟨s, t, u, hs, ht, hu, hidle, hbusy⟩ :
        ∃ s t u, Run step RefsFresh (start ⟨1⟩) s ∧
          s.step (.unlink ⟨⟨1⟩, 2⟩ ⟨⟨1⟩, 1⟩) = some t ∧
          Run step (Exiting ⟨⟨1⟩, 2⟩) t u ∧ s.now.calls.keys = [] ∧
          u.now.calls.keys = [0] :=
      exists_of_withdrawAmid linkTwo _ (exitFirst 5) (by decide +kernel)
    have hs' : Run step anyStep (start ⟨1⟩) s := hs.mono fun _ => trivial
    have hu' : Run step (StaysApart ⟨⟨1⟩, 1⟩ ⟨⟨1⟩, 2⟩) t u :=
      hu.mono fun hok => hok.staysApart
    have hahead := nothing_ahead_of_idle
      (accounted_run hs (accounted_start ⟨1⟩)) hidle
    exact ⟨s, t, u, hs', ht, hu', hbusy, fun id =>
      ((withdrawals_are_final ⟨1⟩ s).1 hs' _ _ t u ht
        (fun _ => hahead.1 _ _) hu' id).1⟩
  · obtain ⟨s, t, u, hs, ht, hu, hidle, hbusy⟩ :
        ∃ s t u, Run step RefsFresh (start ⟨1⟩) s ∧
          s.step (.demonitor ⟨⟨1⟩, 2⟩ 7) = some t ∧
          Run step (Exiting ⟨⟨1⟩, 2⟩) t u ∧ s.now.calls.keys = [] ∧
          u.now.calls.keys = [0] :=
      exists_of_withdrawAmid linkTwo _ (exitFirst 5) (by decide +kernel)
    have hu' : Run step (RefRetired ⟨⟨1⟩, 2⟩ 7) t u :=
      hu.mono fun hok => hok.refRetired
    have hahead := nothing_ahead_of_idle
      (accounted_run hs (accounted_start ⟨1⟩)) hidle
    exact ⟨s, t, u, hs, ht, hu', hbusy,
      (withdrawals_are_final ⟨1⟩ s).2 hs _ _ t u ht (fun _ => hahead.2 _ _) hu'⟩

/-- The exit of the first particle has begun.  Afterwards it kills a particle
that is no longer linked, and sends a message under a ref that is withdrawn. -/
theorem withdrawals_come_late :
    (∃ s t u, Run step RefsFresh (start ⟨1⟩) s ∧
      s.step (.unlink ⟨⟨1⟩, 2⟩ ⟨⟨1⟩, 1⟩) = some t ∧
      Run step (StaysApart ⟨⟨1⟩, 1⟩ ⟨⟨1⟩, 2⟩) t u ∧
      u.killed (.call (.advance 0)) = some (⟨⟨1⟩, 2⟩, some ⟨⟨1⟩, 1⟩)) ∧
    ∃ s t u, Run step RefsFresh (start ⟨1⟩) s ∧
      s.step (.demonitor ⟨⟨1⟩, 2⟩ 7) = some t ∧
      Run step (RefRetired ⟨⟨1⟩, 2⟩ 7) t u ∧
      u.enqueued (.call (.advance 0)) =
        some (⟨⟨1⟩, 2⟩, .down ⟨⟨1⟩, 1⟩ 7 .kill) := by
  constructor
  · obtain ⟨s, t, u, hs, ht, hu, hkilled⟩ :
        ∃ s t u, Run step RefsFresh (start ⟨1⟩) s ∧
          s.step (.unlink ⟨⟨1⟩, 2⟩ ⟨⟨1⟩, 1⟩) = some t ∧
          Run step (Exiting ⟨⟨1⟩, 2⟩) t u ∧
          u.killed (.call (.advance 0)) = some (⟨⟨1⟩, 2⟩, some ⟨⟨1⟩, 1⟩) :=
      exists_of_withdrawAmid (linkTwo ++ exitFirst 1) _
        (List.replicate 6 (.call (.advance 0))) (by decide +kernel)
    exact ⟨s, t, u, hs, ht, hu.mono fun hok => hok.staysApart, hkilled⟩
  · obtain ⟨s, t, u, hs, ht, hu, henqueued⟩ :
        ∃ s t u, Run step RefsFresh (start ⟨1⟩) s ∧
          s.step (.demonitor ⟨⟨1⟩, 2⟩ 7) = some t ∧
          Run step (Exiting ⟨⟨1⟩, 2⟩) t u ∧
          u.enqueued (.call (.advance 0)) =
            some (⟨⟨1⟩, 2⟩, .down ⟨⟨1⟩, 1⟩ 7 .kill) :=
      exists_of_withdrawAmid (linkTwo ++ exitFirst 1) _
        (List.replicate 4 (.call (.advance 0))) (by decide +kernel)
    exact ⟨s, t, u, hs, ht, hu.mono fun hok => hok.refRetired, henqueued⟩

end BlamedCalls

end Plasmoid
