import Plasmoid.Withdrawals

/-!
# Spawning and linking among other calls

`spawn-link` spawns in the registry, records the link and starts the child.
The child is in the tables, under its pid and its name, before the link is
recorded, so another particle can kill it there.  The link then fails, its
error is discarded, and nobody tells the parent.

`SpawnLink` runs one `spawn-link` next to any number of other calls.  It also
keeps what each particle died of, and the exit signals that were applied.
-/

namespace Plasmoid

open Machine

/-- The reason of an exit in progress. -/
def PendingCall.exitReason : PendingCall → Option ExitReason
  | .exitTake _ reason _ | .exitEntry _ _ reason _ | .exitNames _ _ reason _
  | .exitPublish _ _ _ reason _ | .exitUnhook _ _ reason _
  | .exitSignal reason _ _ => some reason
  | _ => none

namespace BlamedCalls

/-- The particle that an action removes, with the reason it dies of. -/
def died (s : BlamedCalls) : LocalAction → List (Pid × ExitReason)
  | .call (.advance id) =>
    match s.now.calls.lookup id with
    | some (.exitTake pid reason _) =>
      if s.now.reg.Alive pid then [(pid, reason)] else []
    | _ => []
  | _ => []

/-- The exit signals that an action applies, each with its target, its source
and its reason: the target dies, or gets a message, or ignores a normal
exit. -/
def applied (s : BlamedCalls) : LocalAction → List (Pid × Pid × ExitReason)
  | .call (.advance id) =>
    match s.now.calls.lookup id with
    | some (.exitTake pid reason _) =>
      match (s.blamed id).head? with
      | some (_, some source) =>
        if s.now.reg.Alive pid then [(pid, source, reason)] else []
      | _ => []
    | some (.exitUnhook pid st reason _) =>
      if reason.isAbnormal then []
      else
        (st.links.toList.filter fun x =>
          (s.now.reg.state x).any (!·.trapExit)).map fun x => (x, pid, reason)
    | some (.exitSignal _ ((x, .exit source reason) :: _) _) =>
      if s.now.reg.Alive x then [(x, source, reason)] else []
    | _ => []
  | _ => []

end BlamedCalls

/-- How far the `spawn-link` is. -/
inductive SpawnLinkPhase where
  | idle
  | spawning
  | linking (child : Pid)
  | starting (child : Pid)
  | returned (child : Pid)
  | failed
deriving DecidableEq

/-- The particle that the registry has spawned. -/
def SpawnLinkPhase.child : SpawnLinkPhase → Option Pid
  | .linking child | .starting child | .returned child => some child
  | _ => none

/-- The link has been tried. -/
def SpawnLinkPhase.linked : SpawnLinkPhase → Option Pid
  | .starting child | .returned child => some child
  | _ => none

structure SpawnLink where
  calls : BlamedCalls
  phase : SpawnLinkPhase
  died : List (Pid × ExitReason)
  applied : List (Pid × Pid × ExitReason)

inductive SpawnLinkAction where
  /-- The other particles act. -/
  | other (a : CallAction)
  | begin (component : String) (name : Option String)
  /-- The spawn in the registry takes its next section. -/
  | spawn
  /-- Record the link, and discard the error. -/
  | link
  /-- The component starts, or does not. -/
  | start (ok : Bool)

namespace SpawnLink

def start (node : EndpointId) : SpawnLink := ⟨.start node, .idle, [], []⟩

/-- The registry of the node. -/
def reg (s : SpawnLink) : ParticleRegistry := s.calls.now.reg

/-- An action on the registry, with what it leaves on record. -/
def act (s : SpawnLink) (a : CallAction) : Option SpawnLink :=
  (s.calls.step (.call a)).map fun calls =>
    { calls
      phase := s.phase
      died := s.died ++ s.calls.died (.call a)
      applied := s.applied ++ s.calls.applied (.call a) }

/-- The phase after a section of the spawn. -/
def phaseAfter : Progress → SpawnLinkPhase
  | .spawned (.ok pid) => .linking pid
  | .spawned (.error _) | .exited => .failed
  | .next _ => .spawning

/-- The guest of `me` calls `spawn-link`, and the registry runs its spawn as
call `id`. -/
def step (me : Pid) (id : Nat) (s : SpawnLink) :
    SpawnLinkAction → Option SpawnLink
  | .other a => if a.callId = some id then none else s.act a
  | .begin component name =>
    if s.phase = .idle ∧ me ∈ s.calls.now.hosted ∧ s.reg.Alive me then
      if component ∉ s.reg.components then some { s with phase := .failed }
      else
        (s.act (.beginSpawn id component name)).map fun t =>
          { t with phase :=
            if id ∈ t.calls.now.calls then .spawning else .failed }
    else none
  | .spawn =>
    if s.phase = .spawning then
      match s.calls.now.calls.lookup id with
      | some call =>
        (s.act (.advance id)).map fun t =>
          { t with phase := phaseAfter (s.reg.critical call).2 }
      | none => none
    else none
  | .link =>
    match s.phase with
    | .linking child =>
      (s.act (.atomic (.link me child))).map fun t =>
        { t with phase := .starting child }
    | _ => none
  | .start ok =>
    match s.phase with
    | .starting child =>
      some { s with phase := if ok then .returned child else .failed }
    | _ => none

/-- The parent and the child are linked to each other. -/
def Linked (s : SpawnLink) (me child : Pid) : Prop :=
  ∃ sm sc, s.reg.state me = some sm ∧ s.reg.state child = some sc ∧
    child ∈ sm.links ∧ me ∈ sc.links

/-- The child has died, and its exit signal with the reason it died of was
applied to the parent. -/
def Told (s : SpawnLink) (me child : Pid) : Prop :=
  ∃ reason, (child, reason) ∈ s.died ∧ (me, child, reason) ∈ s.applied

/-- The child has died, and its exit is in progress and has the parent ahead,
with the reason that the child died of. -/
def Telling (s : SpawnLink) (me child : Pid) : Prop :=
  ∃ id call reason, s.calls.now.calls.lookup id = some call ∧
    call.exitReason = some reason ∧ (child, reason) ∈ s.died ∧
    ((∃ st, call.unhooking = some (child, st) ∧ me ∈ st.links) ∨
      (me, .exit child reason) ∈ call.sends ∨
      (me, some child) ∈ s.calls.blamed id)

/-- The condition on a step.  When the link is recorded, the child is alive or
the parent is dead.  The pid counter does not wrap around. -/
def LinksLiving (me : Pid) (id : Nat) (s : SpawnLink) : SpawnLinkAction → Prop
  | .other a => s.calls.now.Counts (.call a)
  | .spawn => s.calls.now.Counts (.call (.advance id))
  | .link => ∀ child ∈ s.phase.child, s.reg.Alive me → s.reg.Alive child
  | _ => True

instance (me : Pid) (id : Nat) (s : SpawnLink) :
    DecidablePred (LinksLiving me id s) := fun a => by
  unfold LinksLiving
  split <;> infer_instance

/-! ## What an action keeps -/

theorem act_eq_some {s t : SpawnLink} {a : CallAction} (h : s.act a = some t) :
    s.calls.step (.call a) = some t.calls ∧ t.phase = s.phase ∧
      t.died = s.died ++ s.calls.died (.call a) ∧
      t.applied = s.applied ++ s.calls.applied (.call a) := by
  obtain ⟨calls, hcalls, rfl⟩ := Option.map_eq_some_iff.1 h
  exact ⟨hcalls, rfl, rfl, rfl⟩

theorem Told.act {s t : SpawnLink} {a : CallAction} {me child : Pid}
    (h : s.Told me child) (hstep : s.act a = some t) : t.Told me child := by
  obtain ⟨-, -, hdied, happlied⟩ := act_eq_some hstep
  obtain ⟨reason, hd, ha⟩ := h
  refine ⟨reason, ?_, ?_⟩
  · rw [hdied]
    exact List.mem_append_left _ hd
  · rw [happlied]
    exact List.mem_append_left _ ha

/-- A section leaves a link alone, unless it takes the particle, holds it for
a spawn, or unhooks the peer. -/
theorem links_kept_critical {reg : ParticleRegistry} {call : PendingCall} {x y : Pid}
    {st : ParticleState} (hst : reg.state x = some st) (hy : y ∈ st.links)
    (htake : ∀ reason rest, call ≠ .exitTake x reason rest)
    (hspawn : call.spawning ≠ some x)
    (hunhook : ∀ sp, call.unhooking ≠ some (y, sp)) :
    ∃ st', (reg.critical call).1.state x = some st' ∧ y ∈ st'.links := by
  rw [ParticleRegistry.state_critical, hst]
  cases call with
  | spawnState pid name =>
    refine ⟨st, if_neg ?_, hy⟩
    rintro rfl
    exact hspawn rfl
  | spawnUndoState pid name =>
    refine ⟨st, if_neg ?_, hy⟩
    rintro rfl
    exact hspawn rfl
  | exitTake pid reason rest =>
    refine ⟨st, if_neg ?_, hy⟩
    rintro rfl
    exact htake reason rest rfl
  | exitUnhook pid sp reason rest =>
    refine ⟨_, rfl, ?_⟩
    rw [unhookFrom]
    dsimp only
    split
    · refine KeySet.mem_remove.2 ⟨?_, hy⟩
      rintro rfl
      exact hunhook sp rfl
    · exact hy
  | exitSignal reason sends rest =>
    cases sends with
    | nil => exact ⟨st, rfl, hy⟩
    | cons send sends =>
      refine ⟨_, rfl, ?_⟩
      split <;> exact hy
  | spawnDraw | spawnEntry | spawnBind | spawnUndoEntry | exitEntry | exitNames
  | exitPublish => exact ⟨st, rfl, hy⟩

/-- No single action of the registry takes a link away, as long as nobody
unlinks. -/
theorem links_kept_onRegistry {reg : ParticleRegistry} {a : CallAction}
    (hlocal : a.isLocal = true) {x y : Pid} {st : ParticleState}
    (hst : reg.state x = some st) (hy : y ∈ st.links) :
    ∃ st', ((LocalAction.call a).onRegistry reg).state x = some st' ∧
      y ∈ st'.links := by
  have hmodify : ∀ (pid : Pid) (f : ParticleState → ParticleState),
      (∀ st, (f st).links = st.links) →
      ∃ st', (reg.modifyState pid f).state x = some st' ∧ y ∈ st'.links := by
    intro pid f hf
    rw [ParticleRegistry.state_modifyState, hst]
    split
    · exact ⟨f st, rfl, (hf st).symm ▸ hy⟩
    · exact ⟨st, rfl, hy⟩
  cases a with
  | register pid name =>
    exact ⟨st, (reg.state_registerName pid name x).trans hst, hy⟩
  | unregister pid name =>
    exact ⟨st, (reg.state_unregisterName pid name x).trans hst, hy⟩
  | beginSpawn | beginExit | advance => exact ⟨st, hst, hy⟩
  | atomic op =>
    cases op with
    | registerComponent component => exact ⟨st, hst, hy⟩
    | setTrapExit pid enabled => exact hmodify pid _ fun _ => rfl
    | deliverExit target source reason => exact hmodify target _ fun _ => rfl
    | deliverDown target source refId reason => exact hmodify target _ fun _ => rfl
    | linkRemote | unlinkRemote | monitorRemote | forgetNode => cases hlocal
    | link a b =>
      show ∃ st', (reg.link a b).1.state x = some st' ∧ y ∈ st'.links
      by_cases ha : reg.Alive a
      swap
      · rw [ParticleRegistry.link, if_pos ha]
        exact ⟨st, hst, hy⟩
      by_cases hb : reg.Alive b
      swap
      · rw [ParticleRegistry.link, if_neg (not_not.2 ha), if_pos hb]
        exact ⟨st, hst, hy⟩
      rw [ParticleRegistry.state_link ha hb, hst]
      exact ⟨_, rfl, ParticleRegistry.mem_withLink.2 (.inl hy)⟩

/-- A section that takes `x` records what it died of. -/
theorem mem_died_of_take {s : BlamedCalls} {id : Nat} {x : Pid}
    {reason : ExitReason} {rest : List Pid}
    (hcall : s.now.calls.lookup id = some (.exitTake x reason rest))
    (hx : s.now.reg.Alive x) : (x, reason) ∈ s.died (.call (.advance id)) := by
  unfold BlamedCalls.died
  dsimp only
  rw [hcall]
  dsimp only
  rw [if_pos hx]
  exact List.mem_singleton.2 rfl

/-- The calls, as they have to be for a link to be safe. -/
structure Sound (s : SpawnLink) : Prop where
  transit : s.calls.now.TransitInv
  apart : s.calls.now.SpawnsApart
  accounted : s.calls.Accounted

theorem Sound.act {s t : SpawnLink} {a : CallAction} (h : Sound s)
    (hcounts : s.calls.now.Counts (.call a)) (hstep : s.act a = some t) :
    Sound t := by
  obtain ⟨hcalls, -⟩ := act_eq_some hstep
  obtain ⟨now, hnow, hblamed⟩ := Option.map_eq_some_iff.1 hcalls
  have hnow' : t.calls.now = now := by rw [← hblamed]
  exact ⟨hnow' ▸ h.transit.localStep hcounts hnow,
    hnow' ▸ h.apart.localStep hcounts hnow, h.accounted.step hcalls⟩

/-- Whoever is hosted stays hosted, and is not brought to life again. -/
theorem hosted_act {s t : SpawnLink} {a : CallAction} {x : Pid}
    (h : x ∈ s.calls.now.hosted) (hstep : s.act a = some t) :
    x ∈ t.calls.now.hosted := by
  obtain ⟨hcalls, -⟩ := act_eq_some hstep
  obtain ⟨id, call, -, -, hnow, -⟩ | ⟨id, call, -, -, hnow, -⟩ | ⟨-, -, hnow, -⟩ :=
    BlamedCalls.step_cases hcalls
  · rw [hnow]
    exact CallsInProgress.mem_hosted_settle.2 (.inr h)
  · rw [hnow]
    exact h
  · rw [hnow]
    exact h

theorem alive_of_act {s t : SpawnLink} {a : CallAction} {x : Pid} (hs : Sound s)
    (hhosted : x ∈ s.calls.now.hosted) (hstep : s.act a = some t)
    (hx : t.reg.Alive x) : s.reg.Alive x := by
  obtain ⟨hcalls, -⟩ := act_eq_some hstep
  refine BlamedCalls.alive_of_step hcalls hx fun hinserts => ?_
  cases a with
  | advance id =>
    obtain ⟨call, hcall, hcall'⟩ := Option.bind_eq_some_iff.1 hinserts
    refine hs.apart.fresh id call x hcall ?_ hhosted
    unfold PendingCall.inserts at hcall'
    split at hcall'
    · exact hcall'
    · cases hcall'
  | beginSpawn | beginExit | register | unregister | atomic => exact hinserts

theorem Linked.act {s t : SpawnLink} {a : CallAction} {me child : Pid}
    (h : s.Linked me child) (hs : Sound s) (hme : me ∈ s.calls.now.hosted)
    (hchild : child ∈ s.calls.now.hosted) (hstep : s.act a = some t)
    (halive : t.reg.Alive me) : t.Linked me child ∨ t.Telling me child := by
  obtain ⟨sm, sc, hsm, hsc, hlinkm, hlinkc⟩ := h
  obtain ⟨hcalls, -, hdied, -⟩ := act_eq_some hstep
  obtain ⟨id, call, heq, hcall, hnow, -⟩ | ⟨id, call, -, -, hnow, -⟩ |
    ⟨-, hlocal, hnow, -⟩ := BlamedCalls.step_cases hcalls
  · have hreg : t.reg = (s.reg.critical call).1 := by
      rw [reg, hnow, CallsInProgress.reg_settle]
      rfl
    -- Nobody who is alive is held by a spawn, or is being unhooked.
    have hspawn : ∀ x, x ∈ s.calls.now.hosted → call.spawning ≠ some x :=
      fun x hx hspawning => hs.apart.fresh id call x hcall hspawning hx
    have hunhook : ∀ x sx, s.reg.state x = some sx →
        ∀ sp, call.unhooking ≠ some (x, sp) := by
      intro x sx hsx sp hunhooking
      exact hs.transit.dead id call x hcall
        (PendingCall.inTransit_of_unhooking hunhooking)
        (ParticleRegistry.alive_iff.2 ⟨sx, hsx⟩)
    by_cases htakec : ∃ reason rest, call = .exitTake child reason rest
    · obtain ⟨reason, rest, rfl⟩ := htakec
      cases heq
      have hdead : s.reg.Alive child := ParticleRegistry.alive_iff.2 ⟨sc, hsc⟩
      have hcritical : s.reg.critical (.exitTake child reason rest) =
          (s.reg.removeState child, .next (.exitEntry child sc reason rest)) := by
        rw [ParticleRegistry.critical, hsc]
      refine .inr ⟨id, .exitEntry child sc reason rest, reason, ?_, rfl, ?_,
        .inl ⟨sc, rfl, hlinkc⟩⟩
      · rw [hnow, CallsInProgress.lookup_settle, if_pos rfl]
        exact congrArg (fun p => p.2.pending) hcritical
      · rw [hdied]
        exact List.mem_append_right _ (mem_died_of_take hcall hdead)
    · have htakem : ∀ reason rest, call ≠ .exitTake me reason rest := by
        rintro reason rest rfl
        rw [hreg, ParticleRegistry.alive_iff] at halive
        obtain ⟨sm', hsm'⟩ := halive
        rw [ParticleRegistry.state_critical, PendingCall.onState, if_pos rfl] at hsm'
        cases hsm'
      obtain ⟨sm', hsm', hlinkm'⟩ := links_kept_critical hsm hlinkm htakem
        (hspawn me hme) (hunhook child sc hsc)
      obtain ⟨sc', hsc', hlinkc'⟩ := links_kept_critical hsc hlinkc
        (fun reason rest heq => htakec ⟨reason, rest, heq⟩)
        (hspawn child hchild) (hunhook me sm hsm)
      exact .inl ⟨sm', sc', hreg ▸ hsm', hreg ▸ hsc', hlinkm', hlinkc'⟩
  · have hreg : t.reg = s.reg := by
      rw [reg, hnow]
      rfl
    exact .inl ⟨sm, sc, hreg ▸ hsm, hreg ▸ hsc, hlinkm, hlinkc⟩
  · have hreg : t.reg = (LocalAction.call a).onRegistry s.reg := by
      rw [reg, hnow]
      rfl
    obtain ⟨sm', hsm', hlinkm'⟩ := links_kept_onRegistry hlocal hsm hlinkm
    obtain ⟨sc', hsc', hlinkc'⟩ := links_kept_onRegistry hlocal hsc hlinkc
    exact .inl ⟨sm', sc', hreg ▸ hsm', hreg ▸ hsc', hlinkm', hlinkc'⟩

/-- An exit in progress keeps its reason. -/
theorem exitReason_critical {reg : ParticleRegistry} {call next : PendingCall}
    {reason : ExitReason} (h : call.exitReason = some reason)
    (hnext : (reg.critical call).2.pending = some next) :
    next.exitReason = some reason := by
  cases ParticleRegistry.follows_critical hnext with
  | taken | skipped | removed | unnamed | published | unhooked | signalled
  | cascaded => exact h
  | drawn | entered | inserted | refused | undone => cases h

/-- A call that has kills ahead is still in progress. -/
theorem pending_of_blamed {s : BlamedCalls} {id : Nat} {call : PendingCall}
    {e : Pid × Option Pid} (haccounted : s.Accounted)
    (hcall : s.now.calls.lookup id = some call)
    (he : e ∈ BlamedCalls.blameAfter s.now.reg call (s.blamed id)) :
    ∃ next, (s.now.reg.critical call).2.pending = some next := by
  have hkills := haccounted id
  rw [hcall, Option.elim_some] at hkills
  have hafter := BlamedCalls.kills_critical s.now.reg hkills
  cases hpending : (s.now.reg.critical call).2.pending with
  | some next => exact ⟨next, rfl⟩
  | none =>
    rw [hpending, Option.elim_none, List.map_eq_nil_iff] at hafter
    rw [hafter] at he
    cases he

/-- The exit of the child unhooks it from the parent: the signal is a message,
a kill, or a normal exit that does nothing. -/
theorem telling_unhook {s : BlamedCalls} {id : Nat} {me child : Pid}
    {st : ParticleState} {reason : ExitReason} {rest : List Pid}
    (hcall : s.now.calls.lookup id = some (.exitUnhook child st reason rest))
    (hme : s.now.reg.Alive me) (hmem : me ∈ st.links) :
    (me, child, reason) ∈ s.applied (.call (.advance id)) ∨
      (me, .exit child reason) ∈ ParticleRegistry.signalsToSend child reason
        (ParticleRegistry.unhook s.now.reg.particleStates child st reason) ∨
      (me, some child) ∈ BlamedCalls.blameAfter s.now.reg
        (.exitUnhook child st reason rest) (s.blamed id) := by
  obtain ⟨sm, hsm⟩ := ParticleRegistry.alive_iff.1 hme
  have hlookup : s.now.reg.particleStates.lookup me = some sm := hsm
  cases htrap : sm.trapExit with
  | true =>
    refine .inr (.inl (List.mem_append_left _ (List.mem_map.2 ⟨me, ?_, rfl⟩)))
    rw [ParticleRegistry.exitDeliveries_unhook, List.mem_filter]
    refine ⟨hmem, ?_⟩
    rw [ParticleRegistry.trapsIn, hlookup, Option.any_some, htrap]
  | false =>
    cases habnormal : reason.isAbnormal with
    | true =>
      refine .inr (.inr (List.mem_append_left _ (List.mem_map.2 ⟨me, ?_, rfl⟩)))
      rw [ParticleRegistry.cascadeKills_unhook, List.mem_filter]
      refine ⟨hmem, ?_⟩
      rw [ParticleRegistry.doomedIn, habnormal, hlookup, Option.any_some, htrap]
      rfl
    | false =>
      refine .inl ?_
      unfold BlamedCalls.applied
      dsimp only
      rw [hcall]
      dsimp only
      rw [if_neg (by rw [habnormal]; exact Bool.false_ne_true)]
      refine List.mem_map.2 ⟨me, List.mem_filter.2 ⟨hmem, ?_⟩, rfl⟩
      rw [hsm, Option.any_some, htrap]
      rfl

/-- The signal of the child is at the head of a mailbox delivery, or behind
it. -/
theorem telling_signal {s : BlamedCalls} {id : Nat} {me child : Pid}
    {reason r : ExitReason} {sends : List (Pid × SystemMessage)} {rest : List Pid}
    (hcall : s.now.calls.lookup id = some (.exitSignal r sends rest))
    (hme : s.now.reg.Alive me) (hmem : (me, .exit child reason) ∈ sends) :
    (me, child, reason) ∈ s.applied (.call (.advance id)) ∨
      ∃ next, (s.now.reg.critical (.exitSignal r sends rest)).2.pending = some next ∧
        (me, .exit child reason) ∈ next.sends := by
  cases sends with
  | nil => cases hmem
  | cons d sends =>
    rcases List.mem_cons.1 hmem with rfl | hmem
    · refine .inl ?_
      unfold BlamedCalls.applied
      dsimp only
      rw [hcall]
      dsimp only
      rw [if_pos hme]
      exact List.mem_singleton.2 rfl
    · exact .inr ⟨.exitSignal r sends rest, rfl, hmem⟩

/-- What the exit of `child` has ahead for `me` after a section of it, if it
has not applied the signal. -/
theorem telling_critical {s : BlamedCalls} {id : Nat} {call : PendingCall}
    {me child : Pid} {reason : ExitReason} (haccounted : s.Accounted)
    (hcall : s.now.calls.lookup id = some call)
    (hreason : call.exitReason = some reason) (hme : s.now.reg.Alive me)
    (hme' : (s.now.reg.critical call).1.Alive me)
    (h : (∃ st, call.unhooking = some (child, st) ∧ me ∈ st.links) ∨
      (me, .exit child reason) ∈ call.sends ∨ (me, some child) ∈ s.blamed id) :
    (me, child, reason) ∈ s.applied (.call (.advance id)) ∨
      ∃ next, (s.now.reg.critical call).2.pending = some next ∧
        ((∃ st, next.unhooking = some (child, st) ∧ me ∈ st.links) ∨
          (me, .exit child reason) ∈ next.sends ∨
          (me, some child) ∈ BlamedCalls.blameAfter s.now.reg call (s.blamed id)) := by
  have hblamed : (me, some child) ∈
      BlamedCalls.blameAfter s.now.reg call (s.blamed id) →
      ∃ next, (s.now.reg.critical call).2.pending = some next ∧
        ((∃ st, next.unhooking = some (child, st) ∧ me ∈ st.links) ∨
          (me, .exit child reason) ∈ next.sends ∨
          (me, some child) ∈
            BlamedCalls.blameAfter s.now.reg call (s.blamed id)) := by
    intro hmem
    obtain ⟨next, hnext⟩ := pending_of_blamed haccounted hcall hmem
    exact ⟨next, hnext, .inr (.inr hmem)⟩
  rcases h with ⟨st, hunhooking, hmem⟩ | hmem | hmem
  · -- The exit has yet to unhook the child.
    cases call with
    | exitEntry | exitNames | exitPublish =>
      cases hunhooking
      exact .inr ⟨_, rfl, .inl ⟨st, rfl, hmem⟩⟩
    | exitUnhook pid sp r rest =>
      cases hunhooking
      cases hreason
      rcases telling_unhook hcall hme hmem with happlied | hsend | hkill
      · exact .inl happlied
      · exact .inr ⟨_, rfl, .inr (.inl hsend)⟩
      · exact .inr (hblamed hkill)
    | spawnDraw | spawnEntry | spawnState | spawnBind | spawnUndoState
    | spawnUndoEntry | exitTake | exitSignal => cases hunhooking
  · -- The message has yet to be delivered.
    cases call with
    | exitSignal r sends rest =>
      rcases telling_signal hcall hme hmem with happlied | ⟨next, hnext, hsend⟩
      · exact .inl happlied
      · exact .inr ⟨next, hnext, .inr (.inl hsend)⟩
    | spawnDraw | spawnEntry | spawnState | spawnBind | spawnUndoState
    | spawnUndoEntry | exitTake | exitEntry | exitNames | exitPublish
    | exitUnhook => cases hmem
  · -- The parent has yet to be killed.
    refine .inr (hblamed ?_)
    cases call with
    | exitTake pid r rest =>
      have hkills := haccounted id
      rw [hcall, Option.elim_some] at hkills
      cases hahead : s.blamed id with
      | nil =>
        rw [hahead] at hmem
        cases hmem
      | cons e ahead =>
        rw [hahead] at hmem hkills
        rcases List.mem_cons.1 hmem with rfl | hmem
        · have hpid : me = pid := (List.cons.inj hkills).1
          subst hpid
          obtain ⟨sm, hsm⟩ := ParticleRegistry.alive_iff.1 hme'
          rw [ParticleRegistry.state_critical, PendingCall.onState, if_pos rfl] at hsm
          cases hsm
        · exact hmem
    | exitUnhook pid sp r rest => exact List.mem_append_right _ hmem
    | spawnDraw | spawnEntry | spawnState | spawnBind | spawnUndoState
    | spawnUndoEntry | exitEntry | exitNames | exitPublish | exitSignal => exact hmem

theorem Telling.act {s t : SpawnLink} {a : CallAction} {me child : Pid}
    (h : s.Telling me child) (hs : Sound s) (hme : me ∈ s.calls.now.hosted)
    (hstep : s.act a = some t) (halive : t.reg.Alive me) :
    t.Told me child ∨ t.Telling me child := by
  have hold := alive_of_act hs hme hstep halive
  obtain ⟨id, call, reason, hcall, hreason, hdied, hahead⟩ := h
  obtain ⟨hcalls, -, hdied', happlied'⟩ := act_eq_some hstep
  have hdied : (child, reason) ∈ t.died := by
    rw [hdied']
    exact List.mem_append_left _ hdied
  -- An action on another call leaves this one as it is.
  have hsame : t.calls.now.calls.lookup id = some call →
      t.calls.blamed id = s.calls.blamed id → t.Telling me child := by
    intro hcall' hblamed'
    rw [← hblamed'] at hahead
    exact ⟨id, call, reason, hcall', hreason, hdied, hahead⟩
  obtain ⟨id', call', heq, hcall', hnow, hblame⟩ |
    ⟨id', call', -, hnew, hnow, hblame⟩ | ⟨-, -, hnow, hblame⟩ :=
    BlamedCalls.step_cases hcalls
  · have hlookup : t.calls.now.calls.lookup id =
        if id = id' then (s.calls.now.reg.critical call').2.pending
        else s.calls.now.calls.lookup id := by
      rw [hnow, CallsInProgress.lookup_settle]
    by_cases hid : id = id'
    · subst hid
      cases hcall.symm.trans hcall'
      cases heq
      have hme' : (s.calls.now.reg.critical call).1.Alive me := by
        rw [reg, hnow, CallsInProgress.reg_settle] at halive
        exact halive
      rcases telling_critical hs.accounted hcall hreason hold hme' hahead with
        happlied | ⟨next, hnext, hahead'⟩
      · refine .inl ⟨reason, hdied, ?_⟩
        rw [happlied']
        exact List.mem_append_right _ happlied
      · refine .inr ⟨id, next, reason, ?_, exitReason_critical hreason hnext,
          hdied, ?_⟩
        · rw [hlookup, if_pos rfl, hnext]
        · rw [hblame, if_pos rfl]
          exact hahead'
    · refine .inr (hsame ?_ ?_)
      · rw [hlookup, if_neg hid, hcall]
      · rw [hblame, if_neg hid]
  · have hid : id ≠ id' := by
      rintro rfl
      rw [hnew] at hcall
      cases hcall
    refine .inr (hsame ?_ ?_)
    · rw [hnow]
      exact (Table.lookup_insert_eq _ _ _ _).trans ((if_neg hid).trans hcall)
    · rw [hblame, if_neg fun hand => hid hand.1]
  · refine .inr (hsame ?_ (hblame id))
    rw [hnow]
    exact hcall

/-! ## Runs -/

/-- The invariant.  Once the link has been tried, a living parent is linked to
a living child, or was told, or will be. -/
structure SpawnLinkInv (me : Pid) (s : SpawnLink) : Prop where
  sound : Sound s
  parent : s.phase ≠ .idle → me ∈ s.calls.now.hosted
  child : ∀ child, s.phase.child = some child → child ∈ s.calls.now.hosted
  kept : ∀ child, s.phase.linked = some child → s.reg.Alive me →
    s.Linked me child ∨ s.Told me child ∨ s.Telling me child

theorem spawnLinkInv_start (node : EndpointId) (me : Pid) :
    SpawnLinkInv me (start node) where
  sound := ⟨CallsInProgress.transitInv_idle node,
    CallsInProgress.spawnsApart_idle node, BlamedCalls.accounted_start node⟩
  parent h := absurd rfl h
  child _ h := by cases h
  kept _ h := by cases h

/-- An action on the registry keeps what the parent was told, or will be. -/
theorem SpawnLinkInv.act {s t : SpawnLink} {a : CallAction} {me : Pid}
    (h : SpawnLinkInv me s) (hcounts : s.calls.now.Counts (.call a))
    (hstep : s.act a = some t) : SpawnLinkInv me t := by
  obtain ⟨-, hphase, -⟩ := act_eq_some hstep
  refine ⟨h.sound.act hcounts hstep, ?_, ?_, ?_⟩
  · rw [hphase]
    exact fun hne => hosted_act (h.parent hne) hstep
  · rw [hphase]
    exact fun child hc => hosted_act (h.child child hc) hstep
  · rw [hphase]
    intro child hlinked halive
    have hme : me ∈ s.calls.now.hosted := by
      refine h.parent fun hidle => ?_
      rw [hidle] at hlinked
      cases hlinked
    have hchild : child ∈ s.calls.now.hosted := by
      refine h.child child ?_
      cases hp : s.phase with
      | starting c | returned c =>
        rw [hp] at hlinked
        exact hlinked
      | idle | spawning | linking | failed =>
        rw [hp] at hlinked
        cases hlinked
    have hold := alive_of_act h.sound hme hstep halive
    rcases h.kept child hlinked hold with hl | ht | ht
    · exact (hl.act h.sound hme hchild hstep halive).imp_right .inr
    · exact .inr (.inl (ht.act hstep))
    · exact .inr (ht.act h.sound hme hstep halive)

/-- The phase moves on to one that has not tried the link. -/
theorem SpawnLinkInv.unlinked {s : SpawnLink} {me : Pid} {phase : SpawnLinkPhase}
    (h : SpawnLinkInv me s) (hme : me ∈ s.calls.now.hosted)
    (hchild : ∀ child, phase.child = some child → child ∈ s.calls.now.hosted)
    (hlinked : phase.linked = none) : SpawnLinkInv me { s with phase } where
  sound := ⟨h.sound.transit, h.sound.apart, h.sound.accounted⟩
  parent _ := hme
  child := hchild
  kept child hc := by
    change phase.linked = some child at hc
    rw [hlinked] at hc
    cases hc

/-- The link is recorded between two living particles. -/
theorem linked_of_link {s t : SpawnLink} {me child : Pid}
    (hstep : s.act (.atomic (.link me child)) = some t) (hme : s.reg.Alive me)
    (hchild : s.reg.Alive child) : t.Linked me child := by
  cases hstep
  obtain ⟨sm, hsm⟩ := ParticleRegistry.alive_iff.1 hme
  obtain ⟨sc, hsc⟩ := ParticleRegistry.alive_iff.1 hchild
  refine ⟨ParticleRegistry.withLink me child me sm,
    ParticleRegistry.withLink me child child sc, ?_, ?_,
    ParticleRegistry.mem_withLink.2 (.inr (.inl ⟨rfl, rfl⟩)),
    ParticleRegistry.mem_withLink.2 (.inr (.inr ⟨rfl, rfl⟩))⟩
  · exact (ParticleRegistry.state_link hme hchild me).trans (by rw [hsm]; rfl)
  · exact (ParticleRegistry.state_link hme hchild child).trans (by rw [hsc]; rfl)

/-- A spawn that has returned a pid hosts it. -/
theorem hosted_of_spawned {s t : SpawnLink} {id : Nat} {call : PendingCall}
    (hcall : s.calls.now.calls.lookup id = some call)
    (hstep : s.act (.advance id) = some t) (child : Pid)
    (h : (phaseAfter (s.reg.critical call).2).child = some child) :
    child ∈ t.calls.now.hosted := by
  have hborn : (s.reg.critical call).2.born = some child := by
    rcases hp : (s.reg.critical call).2 with next | result | _
    · rw [hp] at h
      cases h
    · rw [hp] at h
      cases result with
      | ok pid => exact h
      | error err => cases h
    · rw [hp] at h
      cases h
  obtain ⟨hcalls, -⟩ := act_eq_some hstep
  obtain ⟨id', call', heq, hcall', hnow, -⟩ | ⟨id', call', hbegins, -⟩ |
    ⟨hsingle, -⟩ := BlamedCalls.step_cases hcalls
  · cases heq
    cases hcall.symm.trans hcall'
    rw [hnow]
    exact CallsInProgress.mem_hosted_settle.2 (.inl hborn)
  · cases hbegins
  · cases hsingle

theorem SpawnLinkInv.step {s t : SpawnLink} {a : SpawnLinkAction} {me : Pid}
    {id : Nat} (h : SpawnLinkInv me s) (hok : LinksLiving me id s a)
    (hstep : step me id s a = some t) : SpawnLinkInv me t := by
  cases a with
  | other a =>
    rw [SpawnLink.step] at hstep
    split at hstep
    · cases hstep
    · exact h.act hok hstep
  | begin component name =>
    rw [SpawnLink.step] at hstep
    split at hstep
    swap
    · cases hstep
    rename_i hready
    split at hstep
    · cases hstep
      exact h.unlinked hready.2.1 nofun rfl
    · obtain ⟨u, hu, rfl⟩ := Option.map_eq_some_iff.1 hstep
      have hinv : SpawnLinkInv me u :=
        h.act (a := .beginSpawn id component name) trivial hu
      split
      · exact hinv.unlinked (hosted_act hready.2.1 hu) nofun rfl
      · exact hinv.unlinked (hosted_act hready.2.1 hu) nofun rfl
  | spawn =>
    rw [SpawnLink.step] at hstep
    split at hstep
    swap
    · cases hstep
    rename_i hphase
    split at hstep
    swap
    · cases hstep
    rename_i call hcall
    obtain ⟨u, hu, rfl⟩ := Option.map_eq_some_iff.1 hstep
    have hinv : SpawnLinkInv me u := h.act (a := .advance id) hok hu
    refine hinv.unlinked (hosted_act (h.parent ?_) hu)
      (hosted_of_spawned hcall hu) ?_
    · rw [hphase]
      nofun
    · rcases (s.reg.critical call).2 with next | (err | pid) | _ <;> rfl
  | link =>
    rw [SpawnLink.step] at hstep
    split at hstep
    swap
    · cases hstep
    rename_i child hphase
    obtain ⟨u, hu, rfl⟩ := Option.map_eq_some_iff.1 hstep
    have hinv : SpawnLinkInv me u :=
      h.act (a := .atomic (.link me child)) trivial hu
    have hme : me ∈ s.calls.now.hosted := h.parent (by rw [hphase]; nofun)
    have hchild : child ∈ s.calls.now.hosted := h.child child (by rw [hphase]; rfl)
    have hme' : me ∈ u.calls.now.hosted := hosted_act hme hu
    have hchild' : child ∈ u.calls.now.hosted := hosted_act hchild hu
    refine ⟨⟨hinv.sound.transit, hinv.sound.apart, hinv.sound.accounted⟩,
      fun _ => hme', ?_, ?_⟩
    · intro c hc
      cases hc
      exact hchild'
    · intro c hc halive
      cases hc
      have hold := alive_of_act h.sound hme hu halive
      have hlinked : u.Linked me child :=
        linked_of_link hu hold (hok child (by rw [hphase]; rfl) hold)
      exact .inl hlinked
  | start ok =>
    rw [SpawnLink.step] at hstep
    split at hstep
    swap
    · cases hstep
    rename_i child hphase
    cases hstep
    have hme : me ∈ s.calls.now.hosted := h.parent (by rw [hphase]; nofun)
    cases ok with
    | false => exact h.unlinked hme nofun rfl
    | true =>
      refine ⟨⟨h.sound.transit, h.sound.apart, h.sound.accounted⟩,
        fun _ => hme, ?_, ?_⟩
      · intro c hc
        exact h.child c (by rw [hphase]; exact hc)
      · intro c hc halive
        exact h.kept c (by rw [hphase]; exact hc) halive

/-- When `spawn-link` has returned a child and the parent is alive, they are
linked, or the parent was told what the child died of, unless an exit of the
child in progress is about to tell it. -/
theorem spawn_link_is_atomic (node : EndpointId) (me : Pid) (id : Nat)
    {s : SpawnLink} (h : Run (step me id) (LinksLiving me id) (start node) s)
    {child : Pid} (hreturned : s.phase = .returned child) (hme : s.reg.Alive me) :
    (¬ s.Telling me child → s.Linked me child ∨ s.Told me child) ∧
      (s.calls.now.calls.keys = [] → ¬ s.Telling me child) := by
  have hinv : SpawnLinkInv me s := h.invariant
    (fun hinv hok hstep => hinv.step hok hstep) (spawnLinkInv_start node me)
  constructor
  · intro htelling
    rcases hinv.kept child (by rw [hreturned]; rfl) hme with hl | ht | ht
    · exact .inl hl
    · exact .inr ht
    · exact absurd ht htelling
  · rintro hidle ⟨id', call, reason, hcall, -⟩
    exact CallsInProgress.lookup_ne_of_idle hidle id' call hcall

/-- A parent, which traps exits, and the sections of the spawn of a child. -/
def spawnBoth : List SpawnLinkAction :=
  ([.atomic (.registerComponent "worker"), .beginSpawn 0 "worker" none,
    .advance 0, .advance 0, .advance 0,
    .atomic (.setTrapExit ⟨⟨1⟩, 1⟩ true)] : List CallAction).map .other ++
  [.begin "worker" (some "child"), .spawn, .spawn, .spawn, .spawn]

/-- Somebody kills the child, in so many sections. -/
def killChild (sections : Nat) : List SpawnLinkAction :=
  .other (.beginExit 0 ⟨⟨1⟩, 2⟩ .kill) ::
    List.replicate sections (.other (.advance 0))

/-- The child is killed after it was linked. -/
theorem spawn_link_is_atomic_killed :
    ∃ s, Run (step ⟨⟨1⟩, 1⟩ 9) (LinksLiving ⟨⟨1⟩, 1⟩ 9) (start ⟨1⟩) s ∧
      s.phase = .returned ⟨⟨1⟩, 2⟩ ∧ ¬ s.reg.Alive ⟨⟨1⟩, 2⟩ ∧
      (s.Linked ⟨⟨1⟩, 1⟩ ⟨⟨1⟩, 2⟩ ∨ s.Told ⟨⟨1⟩, 1⟩ ⟨⟨1⟩, 2⟩) := by
  obtain ⟨s, h, hreturned, hdead, hme, hidle⟩ : ∃ s,
      Run (step ⟨⟨1⟩, 1⟩ 9) (LinksLiving ⟨⟨1⟩, 1⟩ 9) (start ⟨1⟩) s ∧
        s.phase = .returned ⟨⟨1⟩, 2⟩ ∧ ¬ s.reg.Alive ⟨⟨1⟩, 2⟩ ∧
        s.reg.Alive ⟨⟨1⟩, 1⟩ ∧ s.calls.now.calls.keys = [] :=
    exec_run_of_any (α := SpawnLinkAction)
      (spawnBoth ++ [.link, .start true] ++ killChild 7) (by decide +kernel)
  obtain ⟨hatomic, htelling⟩ := spawn_link_is_atomic ⟨1⟩ _ 9 h hreturned hme
  exact ⟨s, h, hreturned, hdead, hatomic (htelling hidle)⟩

/-- The child is killed before it is linked.  The parent gets the pid of a
particle that is gone, and no exit signal. -/
theorem child_dies_before_link :
    ∃ s, Run (step ⟨⟨1⟩, 1⟩ 9) anyStep (start ⟨1⟩) s ∧
      s.phase = .returned ⟨⟨1⟩, 2⟩ ∧ s.reg.Alive ⟨⟨1⟩, 1⟩ ∧
      s.calls.now.calls.keys = [] ∧ ¬ s.Linked ⟨⟨1⟩, 1⟩ ⟨⟨1⟩, 2⟩ ∧
      ¬ s.Told ⟨⟨1⟩, 1⟩ ⟨⟨1⟩, 2⟩ := by
  obtain ⟨s, h, hreturned, hme, hidle, hdead, happlied⟩ : ∃ s,
      Run (step ⟨⟨1⟩, 1⟩ 9) anyStep (start ⟨1⟩) s ∧
        s.phase = .returned ⟨⟨1⟩, 2⟩ ∧ s.reg.Alive ⟨⟨1⟩, 1⟩ ∧
        s.calls.now.calls.keys = [] ∧ ¬ s.reg.Alive ⟨⟨1⟩, 2⟩ ∧ s.applied = [] :=
    exec_run_of_any (α := SpawnLinkAction)
      (spawnBoth ++ killChild 6 ++ [.link, .start true]) (by decide +kernel)
  refine ⟨s, h, hreturned, hme, hidle, ?_, ?_⟩
  · rintro ⟨sm, sc, -, hsc, -⟩
    exact hdead (ParticleRegistry.alive_iff.2 ⟨sc, hsc⟩)
  · rintro ⟨reason, -, hmem⟩
    rw [happlied] at hmem
    cases hmem

end SpawnLink

end Plasmoid
