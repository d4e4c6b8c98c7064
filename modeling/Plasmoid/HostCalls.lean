import Plasmoid.Signals

/-!
# Host calls that link and monitor

A guest links, unlinks, monitors and demonitors through the host.  A
destination on the node goes straight to the registry.  Any other one is
recorded on this side, if it is a pid, and sent to the node that holds it.

The host has a registry, an endpoint and a transport here.  Without one of
them, as in some tests of the source, the calls do less.
-/

namespace Plasmoid

/-- Where a guest says that a particle is.  A handle that is not in the
resource table, or a node that does not parse, is `none`. -/
inductive Destination where
  | pid (p : Option Pid)
  | localNamed (name : String)
  | named (node : Option EndpointId) (name : String)

/-- The node that a destination belongs to. -/
inductive LocalTarget where
  | here (target : Addressee)
  | elsewhere (node : EndpointId) (target : Addressee)
  | unknown
deriving DecidableEq

/-- Decide which node a destination belongs to, without resolving names. -/
def Destination.resolveLocal (me : EndpointId) : Destination → LocalTarget
  | .pid (some p) =>
    if p.isLocalTo me then .here (.pid p) else .elsewhere p.node (.pid p)
  | .pid none => .unknown
  | .localNamed name => .here (.name name)
  | .named (some node) name =>
    if node = me then .here (.name name) else .elsewhere node (.name name)
  | .named none _ => .unknown

namespace ParticleRegistry

def unlink (reg : ParticleRegistry) (a b : Pid) : ParticleRegistry :=
  (reg.modifyState a fun s => { s with links := s.links.remove b }).modifyState
    b fun s => { s with links := s.links.remove a }

/-- Monitor with a ref that the caller has drawn. -/
def monitorWithRef (reg : ParticleRegistry) (watcher target : Pid)
    (refId : UInt64) : ParticleRegistry :=
  (reg.modifyState watcher fun s =>
      { s with monitors := s.monitors.insert refId target }).modifyState
    target fun s => { s with monitoredBy := s.monitoredBy ++ [(watcher, refId)] }

/-- What a monitor adds to the state of `x`. -/
def withMonitor (watcher target : Pid) (refId : UInt64) (x : Pid)
    (s : ParticleState) : ParticleState where
  links := s.links
  monitors := if x = watcher then s.monitors.insert refId target else s.monitors
  monitoredBy :=
    if x = target then s.monitoredBy ++ [(watcher, refId)] else s.monitoredBy
  trapExit := s.trapExit
  mailbox := s.mailbox

theorem state_monitorWithRef (reg : ParticleRegistry) (watcher target x : Pid)
    (refId : UInt64) :
    (reg.monitorWithRef watcher target refId).state x =
      (reg.state x).map (withMonitor watcher target refId x) := by
  rw [monitorWithRef, state_modifyState, state_modifyState]
  cases reg.state x with
  | none => split_ifs <;> rfl
  | some s =>
    simp only [withMonitor, Option.map_some]
    split_ifs <;> rfl

/-- What a link adds to the state of `x`. -/
def withLink (a b x : Pid) (s : ParticleState) : ParticleState :=
  { s with links :=
    if x = b then (if x = a then s.links.insert b else s.links).insert a
    else if x = a then s.links.insert b else s.links }

theorem mem_withLink {a b x y : Pid} {s : ParticleState} :
    y ∈ (withLink a b x s).links ↔
      y ∈ s.links ∨ x = a ∧ y = b ∨ x = b ∧ y = a := by
  unfold withLink
  dsimp only
  split_ifs with hb ha ha
  all_goals
    try simp only [KeySet.mem_insert]
    tauto

theorem state_link {reg : ParticleRegistry} {a b : Pid} (ha : reg.Alive a)
    (hb : reg.Alive b) (x : Pid) :
    (reg.link a b).1.state x = (reg.state x).map (withLink a b x) := by
  rw [link, if_neg (not_not.2 ha), if_neg (not_not.2 hb)]
  dsimp only
  rw [state_modifyState, state_modifyState]
  cases reg.state x with
  | none => split_ifs <;> rfl
  | some s =>
    simp only [withLink, Option.map_some]
    split_ifs <;> rfl

/-- What an unlink leaves of the state of `x`. -/
def withoutLink (a b x : Pid) (s : ParticleState) : ParticleState :=
  { s with links :=
    if x = b then (if x = a then s.links.remove b else s.links).remove a
    else if x = a then s.links.remove b else s.links }

theorem mem_withoutLink {a b x y : Pid} {s : ParticleState} :
    y ∈ (withoutLink a b x s).links ↔
      y ∈ s.links ∧ ¬ (x = a ∧ y = b) ∧ ¬ (x = b ∧ y = a) := by
  unfold withoutLink
  dsimp only
  split_ifs with hb ha ha
  all_goals
    try simp only [KeySet.mem_remove]
    tauto

theorem state_unlink (reg : ParticleRegistry) (a b x : Pid) :
    (reg.unlink a b).state x = (reg.state x).map (withoutLink a b x) := by
  rw [unlink, state_modifyState, state_modifyState]
  cases reg.state x with
  | none => split_ifs <;> rfl
  | some s =>
    simp only [withoutLink, Option.map_some]
    split_ifs <;> rfl

/-- The particle that `watcher` watches under the ref. -/
def watched (reg : ParticleRegistry) (watcher : Pid) (refId : UInt64) :
    Option Pid :=
  (reg.state watcher).bind fun s => s.monitors.lookup refId

/-- What a demonitor of `watcher`, who watches `target` under the ref, leaves
of the state of `x`. -/
def withoutMonitor (watcher : Pid) (refId : UInt64) (target : Option Pid)
    (x : Pid) (s : ParticleState) : ParticleState where
  links := s.links
  monitors := if x = watcher then s.monitors.erase refId else s.monitors
  monitoredBy :=
    if some x = target then s.monitoredBy.filter fun w => w ≠ (watcher, refId)
    else s.monitoredBy
  trapExit := s.trapExit
  mailbox := s.mailbox

theorem state_demonitor (reg : ParticleRegistry) (watcher x : Pid)
    (refId : UInt64) :
    (reg.demonitor watcher refId).state x =
      (reg.state x).map
        (withoutMonitor watcher refId (reg.watched watcher refId) x) := by
  rw [demonitor, watched]
  cases (reg.state watcher).bind fun s => s.monitors.lookup refId with
  | none =>
    rw [state_modifyState]
    cases reg.state x with
    | none => split_ifs <;> rfl
    | some s =>
      simp only [withoutMonitor, Option.map_some, reduceCtorEq, if_false]
      split_ifs <;> rfl
  | some t =>
    rw [state_modifyState, state_modifyState]
    cases reg.state x with
    | none => split_ifs <;> rfl
    | some s =>
      simp only [withoutMonitor, Option.map_some, Option.some_inj]
      split_ifs <;> rfl

/-- Record our half of a link, if the destination is a pid. -/
def linkHalf (reg : ParticleRegistry) (me : Pid) :
    Addressee → ParticleRegistry
  | .pid target => reg.linkRemote me target
  | .name _ => reg

def unlinkHalf (reg : ParticleRegistry) (me : Pid) :
    Addressee → ParticleRegistry
  | .pid target => reg.unlinkRemote me target
  | .name _ => reg

def monitorHalf (reg : ParticleRegistry) (me : Pid) (refId : UInt64) :
    Addressee → ParticleRegistry
  | .pid target => reg.monitorRemote me target refId
  | .name _ => reg

/-- `link`.  The messages are addressed to nodes. -/
def hostLink (reg : ParticleRegistry) (me : Pid) (dest : Destination) :
    ParticleRegistry × List (EndpointId × PeerMessage) :=
  match dest.resolveLocal reg.me with
  | .here target =>
    match reg.resolve target with
    | some t =>
      match reg.link me t with
      | (reg, .ok _) => (reg, [])
      | (_, .error _) => (reg.deliverExit me me .noProc, [])
    | none => (reg.deliverExit me me .noProc, [])
  | .elsewhere node target => (reg.linkHalf me target, [(node, .link me target)])
  | .unknown => (reg, [])

/-- `unlink`. -/
def hostUnlink (reg : ParticleRegistry) (me : Pid) (dest : Destination) :
    ParticleRegistry × List (EndpointId × PeerMessage) :=
  match dest.resolveLocal reg.me with
  | .here target =>
    match reg.resolve target with
    | some t => (reg.unlink me t, [])
    | none => (reg, [])
  | .elsewhere node target =>
    (reg.unlinkHalf me target, [(node, .unlink me target)])
  | .unknown => (reg, [])

/-- `monitor`, with the ref that was drawn for it. -/
def hostMonitor (reg : ParticleRegistry) (me : Pid) (dest : Destination)
    (refId : UInt64) : ParticleRegistry × List (EndpointId × PeerMessage) :=
  match dest.resolveLocal reg.me with
  | .here target =>
    match reg.resolve target with
    | some t => (reg.monitorWithRef me t refId, [])
    | none => (reg.deliverDown me me refId .noProc, [])
  | .elsewhere node target =>
    (reg.monitorHalf me refId target, [(node, .monitor me target refId)])
  | .unknown => (reg.deliverDown me me refId .noProc, [])

/-- `demonitor`.  It sends nothing. -/
def hostDemonitor (reg : ParticleRegistry) (me : Pid) (refId : UInt64) :
    ParticleRegistry := reg.demonitor me refId

/-- `exit-signal`. -/
def hostExitSignal (reg : ParticleRegistry) (me : Pid) (dest : Destination)
    (reason : ExitReason) : ParticleRegistry × List (EndpointId × PeerMessage) :=
  match dest.resolveLocal reg.me with
  | .here target =>
    match reg.resolve target with
    | some t => (reg.applyDirectedExit t me reason, [])
    | none => (reg, [])
  | .elsewhere node target => (reg, [(node, .exitSignal me target reason)])
  | .unknown => (reg, [])

/-! ## A link that fails -/

/-- What `me` is left with when it links to a name of its own node. -/
def linkNear (reg : ParticleRegistry) (me : Pid) (name : String) :
    ParticleRegistry := (reg.hostLink me (.localNamed name)).1

/-- Handle the messages that are addressed to this node. -/
def handleAll (reg : ParticleRegistry)
    (msgs : List (EndpointId × PeerMessage)) : ParticleRegistry :=
  (msgs.filter fun m => m.1 = reg.me).foldl
    (fun reg m => (reg.handlePeerMessage m.2).1) reg

/-- What it is left with when it links to a name of the node `far`, and the
answer has been processed. -/
def linkFar (reg far : ParticleRegistry) (me : Pid) (name : String) :
    ParticleRegistry :=
  let (reg, requests) := reg.hostLink me (.named (some far.me) name)
  let replies := (requests.filter fun m => m.1 = far.me).flatMap fun m =>
    (far.handlePeerMessage m.2).2
  reg.handleAll replies

/-- A failed link has the same effect near and far: a linker that traps exits
is told, and any other dies of `noproc`. -/
structure FailsAlike (reg far : ParticleRegistry) (me : Pid) (name : String) :
    Prop where
  same : reg.linkNear me name = reg.linkFar far me name
  trapping : ∀ st, reg.state me = some st → st.trapExit = true →
    reg.linkNear me name = reg.deliverExit me me .noProc
  dying : ∀ st, reg.state me = some st → st.trapExit = false →
    reg.linkNear me name = reg.exitParticle me .noProc

theorem linkNear_of_unregistered {reg : ParticleRegistry} (me : Pid)
    {name : String} (h : reg.getByName name = none) :
    reg.linkNear me name = reg.deliverExit me me .noProc := by
  simp only [linkNear, hostLink, Destination.resolveLocal, resolve, h]

theorem linkFar_of_unregistered {reg far : ParticleRegistry} {me : Pid}
    {name : String} (hme : me.node = reg.me) (hapart : far.me ≠ reg.me)
    (h : far.getByName name = none) :
    reg.linkFar far me name = reg.applyInheritedExit me me .noProc := by
  have hrequest : reg.hostLink me (.named (some far.me) name) =
      (reg, [(far.me, .link me (.name name))]) := by
    simp only [hostLink, Destination.resolveLocal, if_neg hapart, linkHalf]
  have hreply : (far.handlePeerMessage (.link me (.name name))).2 =
      [(me.node, .exit me me .noProc)] := by
    simp only [handlePeerMessage, resolve, h]
  rw [linkFar, hrequest]
  simp only [List.filter_cons_of_pos, List.filter_nil, decide_true,
    List.flatMap_cons, List.flatMap_nil, List.append_nil, hreply, handleAll, hme,
    List.foldl_cons, List.foldl_nil]
  rfl

/-- A particle that gets an exit signal is still there. -/
theorem alive_deliverExit {reg : ParticleRegistry} {target source x : Pid}
    {reason : ExitReason} :
    (reg.deliverExit target source reason).Alive x ↔ reg.Alive x :=
  alive_modifyState

/-- Near, the exit signal is put into the mailbox whether or not the linker
traps exits, so a failed link is the same near and far just for the linkers
that do. -/
theorem failed_link_alike (reg far : ParticleRegistry) (me : Pid)
    (name : String) (hme : me.node = reg.me) (hapart : far.me ≠ reg.me)
    (hnear : reg.getByName name = none) (hfar : far.getByName name = none)
    (halive : reg.Alive me) :
    FailsAlike reg far me name ↔ reg.traps me = true := by
  obtain ⟨st, hst⟩ := alive_iff.1 halive
  have htraps : reg.traps me = st.trapExit := by
    rw [traps, hst]
    rfl
  rw [htraps]
  constructor
  · intro h
    by_contra htrap
    -- The linker survives near, and dies far.
    have hdies := h.dying st hst (Bool.eq_false_iff.2 htrap)
    rw [linkNear_of_unregistered me hnear] at hdies
    have hthere : (reg.exitParticle me .noProc).Alive me := by
      rw [← hdies, alive_deliverExit]
      exact halive
    exact not_alive_exitParticle reg me .noProc hthere
  · intro htrap
    refine ⟨?_, fun _ _ _ => linkNear_of_unregistered me hnear, ?_⟩
    · rw [linkNear_of_unregistered me hnear,
        linkFar_of_unregistered hme hapart hfar,
        applyInheritedExit_of_trapping me .noProc hst htrap]
      rfl
    · intro st' hst' hnot
      rw [hst, Option.some_inj] at hst'
      rw [← hst', htrap] at hnot
      cases hnot

/-- A node with one particle. -/
def oneParticle (trapExit : Bool) : ParticleRegistry :=
  (((ParticleRegistry.new ⟨1⟩).registerComponent "worker").spawn "worker"
    none).1.setTrapExit ⟨⟨1⟩, 1⟩ trapExit

theorem failed_link_alike_oneParticle :
    FailsAlike (oneParticle true) (.new ⟨2⟩) ⟨⟨1⟩, 1⟩ "db" ↔
      (oneParticle true).traps ⟨⟨1⟩, 1⟩ = true :=
  failed_link_alike _ _ _ _ rfl (by decide) (by decide) (by decide) (by decide)

/-- A linker that does not trap exits survives its failed link. -/
theorem failed_link_survived :
    ¬ FailsAlike (oneParticle false) (.new ⟨2⟩) ⟨⟨1⟩, 1⟩ "db" := by
  intro h
  have halive : ((oneParticle false).linkNear ⟨⟨1⟩, 1⟩ "db").Alive ⟨⟨1⟩, 1⟩ := by
    decide
  have hstate : ∃ st, (oneParticle false).state ⟨⟨1⟩, 1⟩ = some st ∧
      st.trapExit = false := ⟨_, rfl, rfl⟩
  obtain ⟨st, hst, htrap⟩ := hstate
  rw [h.dying st hst htrap] at halive
  exact not_alive_exitParticle _ _ _ halive

end ParticleRegistry

end Plasmoid
