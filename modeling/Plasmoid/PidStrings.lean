import Plasmoid.Evolution
import Plasmoid.GenServer

/-!
# Pid strings

A pid string is the display form of a pid, and `resolve_target` is meant to
lead from it back to the particle.  It looks among the names first, and names
are any strings.  Then it looks among the particles of its own node, and the
display form keeps only four bytes of the node.  So a pid string can lead to
another particle in two ways, and a gen server answers that one.
-/

namespace Plasmoid

/-- The registries of the nodes of a cluster.  Every particle is in the
registry of its own node. -/
structure NodeRegistries where
  registry : EndpointId → ParticleRegistry
  me : ∀ node, (registry node).me = node
  allLocal : ∀ node, (registry node).AllLocal

/-- A particle that is alive somewhere in the cluster. -/
def NodeRegistries.Alive (nodes : NodeRegistries) (p : Pid) : Prop :=
  (nodes.registry p.node).Alive p

instance (nodes : NodeRegistries) (p : Pid) : Decidable (nodes.Alive p) :=
  inferInstanceAs (Decidable ((nodes.registry p.node).Alive p))

/-- Two display forms are the same just for the same sequence number and the
same first four bytes of the node. -/
theorem display_eq_iff {p q : Pid} :
    p.display = q.display ↔ p.seq = q.seq ∧ p.nodePrefix = q.nodePrefix := by
  have hform : ∀ x : Pid, x.display =
      "<" ++ x.nodePrefix ++ "." ++ toString x.seq ++ ">" := fun _ => rfl
  constructor
  · intro h
    have hlists : p.nodePrefix.toList ++ ("." ++ toString p.seq).toList =
        q.nodePrefix.toList ++ ("." ++ toString q.seq).toList := by
      rw [hform, hform] at h
      simp only [String.append_assoc, String.append_right_inj] at h
      rw [← String.append_assoc, ← String.append_assoc, ← String.append_assoc,
        ← String.append_assoc, String.append_left_inj] at h
      rw [← String.toList_append, ← String.toList_append,
        ← String.append_assoc, ← String.append_assoc, h]
    have hlength : p.nodePrefix.toList.length = q.nodePrefix.toList.length := by
      simp [Pid.nodePrefix, hexEncode, List.range, List.range.loop]
    obtain ⟨hshown, hrest⟩ := List.append_inj hlists hlength
    have hseq : toString p.seq = toString q.seq := by
      simpa using String.toList_inj.1 hrest
    exact ⟨UInt64.toNat_inj.1 (repr_injective hseq), String.toList_inj.1 hshown⟩
  · rintro ⟨hseq, hshown⟩
    rw [hform, hform, hseq, hshown]

namespace ParticleRegistry

/-- What a gen server sends for a tagged message: whom it addresses, the ref,
and the response.  `reg` is the registry when `handle_call` has returned. -/
def serverReply {Req Rep : Type} (codec : Codec Req Rep) (handleCall : Req → Rep)
    (reg : ParticleRegistry) (ref : UInt64) (payload : List UInt8) :
    Option (Pid × UInt64 × List UInt8) :=
  match openEnvelope payload with
  | .request pidStr bytes =>
    match codec.decodeReq bytes with
    | some request => (reg.resolveTarget pidStr).map fun caller =>
      (caller, ref, codec.encodeRep (handleCall request))
    | none => none
  | _ => none

/-- The pid string of `p` leads to `p` or nowhere, and on its own node it
leads to `p`.  So do the replies to its calls. -/
structure PidStringLeads (reg : ParticleRegistry) (p : Pid) : Prop where
  home : p.node = reg.me → reg.resolveTarget p.display = some p
  others : ∀ q, reg.resolveTarget p.display = some q → q = p
  replies : ∀ (Req Rep : Type) (codec : Codec Req Rep) (handleCall : Req → Rep)
    (ref : UInt64) (request : Req) (reply : Pid × UInt64 × List UInt8),
    reg.serverReply codec handleCall ref
        (callEnvelope p.display (codec.encodeReq request)) = some reply →
      reply.1 = p

/-- No other particle has taken the pid string of `p` as a name, and unless
`p` has taken it itself no other particle of the node looks like `p`. -/
structure PidStringApart (reg : ParticleRegistry) (p : Pid) : Prop where
  names : ∀ q, reg.getByName p.display = some q → q = p
  prefixes : reg.getByName p.display = none → ∀ q, reg.Alive q →
    q.seq = p.seq → q.nodePrefix = p.nodePrefix → q = p

theorem resolveTarget_of_name {reg : ParticleRegistry} {target : String} {q : Pid}
    (h : reg.getByName target = some q) : reg.resolveTarget target = some q := by
  rw [resolveTarget, h]

theorem resolveTarget_of_unnamed {reg : ParticleRegistry} {target : String}
    (h : reg.getByName target = none) :
    reg.resolveTarget target =
      reg.particleStates.keys.find? fun pid => pid.display = target := by
  rw [resolveTarget, h]

/-- A string that is no name leads to a particle that it displays. -/
theorem display_of_resolveTarget {reg : ParticleRegistry} {target : String} {q : Pid}
    (hname : reg.getByName target = none) (h : reg.resolveTarget target = some q) :
    reg.Alive q ∧ q.display = target := by
  rw [resolveTarget_of_unnamed hname] at h
  exact ⟨List.mem_of_find?_eq_some h, by simpa using List.find?_some h⟩

/-- A string that is no name and displays a living particle leads somewhere. -/
theorem resolveTarget_ne_none {reg : ParticleRegistry} {q : Pid}
    (hname : reg.getByName q.display = none) (hq : reg.Alive q) :
    reg.resolveTarget q.display ≠ none := by
  rw [resolveTarget_of_unnamed hname]
  intro h
  exact List.find?_eq_none.1 h q hq (by simp)

/-- The reply to a call goes where the pid string of the caller leads. -/
theorem serverReply_callEnvelope {Req Rep : Type} (codec : Codec Req Rep)
    (handleCall : Req → Rep) (reg : ParticleRegistry) (ref : UInt64) (p : Pid)
    (request : Req) :
    reg.serverReply codec handleCall ref
        (callEnvelope p.display (codec.encodeReq request)) =
      (reg.resolveTarget p.display).map fun caller =>
        (caller, ref, codec.encodeRep (handleCall request)) := by
  have hshort := length_display p
  rw [serverReply, openEnvelope_callEnvelope _ (by omega)]
  dsimp only
  rw [codec.decodeReq_encodeReq]

/-- If the pid string leads to nobody else, the replies go to nobody else. -/
theorem PidStringLeads.of_resolve {reg : ParticleRegistry} {p : Pid}
    (home : p.node = reg.me → reg.resolveTarget p.display = some p)
    (others : ∀ q, reg.resolveTarget p.display = some q → q = p) :
    PidStringLeads reg p where
  home := home
  others := others
  replies Req Rep codec handleCall ref request reply h := by
    rw [serverReply_callEnvelope] at h
    obtain ⟨q, hq, rfl⟩ := Option.map_eq_some_iff.1 h
    exact others q hq

/-- When the pid string leads right in one registry. -/
theorem pidStringLeads_iff {reg : ParticleRegistry} {p : Pid}
    (hl : reg.AllLocal) (hhome : p.node = reg.me → reg.Alive p) :
    PidStringLeads reg p ↔ PidStringApart reg p := by
  cases hname : reg.getByName p.display with
  | some owner =>
    have hresolve := resolveTarget_of_name hname
    constructor
    · intro h
      refine ⟨fun q hq => h.others q (resolveTarget_of_name hq), fun hnone => ?_⟩
      rw [hname] at hnone
      cases hnone
    · intro h
      have howner : owner = p := h.names owner hname
      rw [howner] at hresolve
      refine .of_resolve (fun _ => hresolve) fun q hq => ?_
      rw [hresolve] at hq
      exact (Option.some_inj.1 hq).symm
  | none =>
    constructor
    · intro h
      refine ⟨fun q hq => ?_, fun _ q hq hseq hshown => ?_⟩
      · rw [hname] at hq
        cases hq
      · have hdisplay : q.display = p.display := display_eq_iff.2 ⟨hseq, hshown⟩
        have hfound : reg.resolveTarget p.display ≠ none := by
          rw [← hdisplay]
          exact resolveTarget_ne_none (hdisplay ▸ hname) hq
        obtain ⟨x, hx⟩ := Option.ne_none_iff_exists'.1 hfound
        -- The search meets `p`, so `p` is of this node, as `q` is.
        have hxp : x = p := h.others x hx
        have hp : reg.Alive p := hxp ▸ (display_of_resolveTarget hname hx).1
        exact display_inj ((hl q hq).trans (hl p hp).symm) hdisplay
    · intro h
      have hothers : ∀ q, reg.resolveTarget p.display = some q → q = p := by
        intro q hq
        obtain ⟨halive, hdisplay⟩ := display_of_resolveTarget hname hq
        obtain ⟨hseq, hshown⟩ := display_eq_iff.1 hdisplay
        exact h.prefixes hname q halive hseq hshown
      refine .of_resolve (fun hnode => ?_) hothers
      obtain ⟨q, hq⟩ := Option.ne_none_iff_exists'.1
        (resolveTarget_ne_none hname (hhome hnode))
      rw [hq, hothers q hq]

end ParticleRegistry

/-- The pid string of a living particle leads to it or nowhere, and on its own
node to it, unless a name or a particle of the node looks the same. -/
theorem NodeRegistries.pid_strings_resolve (nodes : NodeRegistries)
    (node : EndpointId) (p : Pid) (halive : nodes.Alive p) :
    (nodes.registry node).PidStringLeads p ↔
      (nodes.registry node).PidStringApart p := by
  refine ParticleRegistry.pidStringLeads_iff (nodes.allLocal node) fun hnode => ?_
  rw [nodes.me] at hnode
  rw [← hnode]
  exact halive

/-! ## Two ways to be mistaken -/

/-- A node with two workers.  The second has registered `name`. -/
def withName (node : EndpointId) (name : String) : ParticleRegistry :=
  let reg := (ParticleRegistry.new node).registerComponent "worker"
  let reg := ((reg.spawn "worker" none).1.spawn "worker" none).1
  reg.perform (.registerName ⟨node, 2⟩ name)

/-- Every node has two workers, and the second is registered as `name`. -/
def everywhere (name : String) : NodeRegistries where
  registry node := withName node name
  me node := by
    rw [withName, (ParticleRegistry.noBirth_perform _ _).me,
      ParticleRegistry.me_spawn, ParticleRegistry.me_spawn]
    rfl
  allLocal node := by
    refine (ParticleRegistry.noBirth_perform _ _).allLocal ?_
    refine ParticleRegistry.allLocal_spawn (ParticleRegistry.allLocal_spawn ?_ _ _) _ _
    intro x hx
    cases hx

/-- The first worker of node 1. -/
def firstWorker : Pid := ⟨⟨1⟩, 1⟩

/-- The pid string of a worker leads to the worker that is registered under
it.  On another node whose id begins with the same four bytes it leads to the
worker with the same number. -/
theorem pid_string_leads_astray :
    (everywhere firstWorker.display).Alive firstWorker ∧
    ((everywhere firstWorker.display).registry ⟨1⟩).resolveTarget
      firstWorker.display = some ⟨⟨1⟩, 2⟩ ∧
    ¬ ((everywhere firstWorker.display).registry ⟨1⟩).PidStringLeads firstWorker ∧
    ((everywhere "db").registry ⟨2⟩).resolveTarget firstWorker.display =
      some ⟨⟨2⟩, 1⟩ ∧
    ¬ ((everywhere "db").registry ⟨2⟩).PidStringLeads firstWorker := by
  have hname : ((everywhere firstWorker.display).registry ⟨1⟩).resolveTarget
      firstWorker.display = some ⟨⟨1⟩, 2⟩ := by decide
  have hshown : ((everywhere "db").registry ⟨2⟩).resolveTarget
      firstWorker.display = some ⟨⟨2⟩, 1⟩ := by decide
  refine ⟨by decide, hname, fun h => ?_, hshown, fun h => ?_⟩
  · exact absurd (h.others _ hname) (by decide)
  · exact absurd (h.others _ hshown) (by decide)

theorem pid_strings_resolve_firstWorker :
    ((everywhere "db").registry ⟨1⟩).PidStringLeads firstWorker ↔
      ((everywhere "db").registry ⟨1⟩).PidStringApart firstWorker :=
  NodeRegistries.pid_strings_resolve _ _ _ (by decide)

end Plasmoid
