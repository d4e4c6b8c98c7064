import Plasmoid.CallEnvelope
import Plasmoid.Lib.Machine

/-!
# Calls of gen servers

A particle that calls a gen server draws a ref, sends the request tagged with
it, and waits for a message tagged with it.  The server answers with the ref of
the request.  Refs come from a counter of the caller's own, and every counter
starts at one.

A `Letter` is a message in a mailbox with a note of where it came from, which
the code does not have.  `GenServers` is a set of particles on one node that
call each other, whether from their receive loop or from elsewhere.
-/

namespace Plasmoid

open Machine

/-- How requests and replies are encoded.  What was encoded is decoded again. -/
structure Codec (Req Rep : Type) where
  encodeReq : Req → List UInt8
  decodeReq : List UInt8 → Option Req
  encodeRep : Rep → List UInt8
  decodeRep : List UInt8 → Option Rep
  decodeReq_encodeReq : ∀ x, decodeReq (encodeReq x) = some x
  decodeRep_encodeRep : ∀ x, decodeRep (encodeRep x) = some x

/-- Why a call fails. -/
inductive CallError where
  | timeout
  | decode
deriving DecidableEq

/-- Where a letter came from: the request of a call, the reply that a run of
`handle_call` made, or somewhere else.  Calls and runs of `handle_call` are
numbered. -/
inductive Origin where
  | request (call : Nat)
  | reply (run : Nat)
  | other
deriving DecidableEq

/-- A message in a mailbox. -/
structure Letter where
  msg : MailboxMessage
  origin : Origin
deriving DecidableEq

/-- A request that the receive loop is handling. -/
structure Handling (Req : Type) where
  ref : UInt64
  sender : String
  origin : Origin
  request : Req

/-- How far a particle is with a call of its own. -/
inductive Calling where
  | idle
  /-- The ref is drawn. -/
  | drawn (call : Nat)
  | waiting (call : Nat)
deriving DecidableEq

/-- The call that a particle has in progress. -/
def Calling.current : Calling → Option Nat
  | idle => none
  | drawn call | waiting call => some call

/-- A particle that calls and serves. -/
structure GenServer (Req : Type) where
  nextRef : UInt64
  queue : List Letter
  handling : Option (Handling Req)
  calling : Calling
  trapped : Bool

def GenServer.new (Req : Type) : GenServer Req where
  nextRef := 1
  queue := []
  handling := none
  calling := .idle
  trapped := false

/-- A call that was made. -/
structure ServerCall (Req : Type) where
  caller : Pid
  target : Pid
  ref : UInt64
  request : Req

/-- A run of `handle_call`. -/
structure HandledCall (Req Rep : Type) where
  server : Pid
  origin : Origin
  request : Req
  response : Rep

/-- What a call returned, and which letter it took. -/
structure CallResult (Rep : Type) where
  call : Nat
  outcome : Except CallError Rep
  consumed : Option Origin

/-- The particles, and a record of what happened. -/
structure GenServers (Req Rep : Type) where
  particle : Pid → GenServer Req
  calls : List (ServerCall Req)
  handled : List (HandledCall Req Rep)
  results : List (CallResult Rep)

inductive GenServerAction (Req Rep : Type) where
  /-- A particle draws a ref for something else. -/
  | makeRef (p : Pid)
  /-- `call` draws its ref. -/
  | call (p target : Pid) (request : Req)
  /-- `call` sends its request. -/
  | sendCall (p : Pid)
  /-- A message that is not tagged arrives. -/
  | post (p : Pid) (msg : MailboxMessage)
  /-- `call` takes a message. -/
  | recvRef (p : Pid)
  | timeout (p : Pid)
  /-- The receive loop takes a message. -/
  | recv (p : Pid)
  /-- `handle_call` is done. -/
  | finish (p : Pid) (response : Rep)

namespace GenServers

variable {Req Rep : Type}

def start : GenServers Req Rep := ⟨fun _ => .new Req, [], [], []⟩

def addCall (s : GenServers Req Rep) (c : ServerCall Req) :
    GenServers Req Rep :=
  { s with calls := s.calls ++ [c] }

def addRun (s : GenServers Req Rep) (e : HandledCall Req Rep) :
    GenServers Req Rep :=
  { s with handled := s.handled ++ [e] }

def addResult (s : GenServers Req Rep) (r : CallResult Rep) :
    GenServers Req Rep :=
  { s with results := s.results ++ [r] }

def modify (s : GenServers Req Rep) (p : Pid)
    (f : GenServer Req → GenServer Req) : GenServers Req Rep :=
  { s with particle := Function.update s.particle p (f (s.particle p)) }

/-- Push a letter, if there is such a particle. -/
def deliver (reg : ParticleRegistry) (s : GenServers Req Rep) (p : Pid)
    (l : Letter) : GenServers Req Rep :=
  if reg.Alive p then
    s.modify p fun x => { x with
      queue := if l.msg.isUrgent then l :: x.queue else x.queue ++ [l] }
  else s

/-- Neither trapped nor waiting in a call. -/
def Free (s : GenServers Req Rep) (p : Pid) : Prop :=
  (s.particle p).calling = .idle ∧ (s.particle p).trapped = false

instance (s : GenServers Req Rep) (p : Pid) : Decidable (s.Free p) :=
  inferInstanceAs (Decidable (_ ∧ _))

/-- What a call makes of the message that it took. -/
def outcomeOf (codec : Codec Req Rep) : MailboxMessage → Except CallError Rep
  | .tagged _ payload =>
    match codec.decodeRep payload with
    | some v => .ok v
    | none => .error .decode
  | _ => .error .timeout

/-- What the receive loop does with a letter. -/
def dispatch (codec : Codec Req Rep) (x : GenServer Req) (l : Letter) :
    GenServer Req :=
  match l.msg with
  | .tagged ref payload =>
    match openEnvelope payload with
    | .skip => x
    | .trap => { x with trapped := true }
    | .request sender bytes =>
      match codec.decodeReq bytes with
      | some request => { x with handling := some ⟨ref, sender, l.origin, request⟩ }
      | none => x
  | _ => x

def step (codec : Codec Req Rep) (reg : ParticleRegistry)
    (s : GenServers Req Rep) :
    GenServerAction Req Rep → Option (GenServers Req Rep)
  | .makeRef p =>
    if s.Free p then
      some (s.modify p fun x => { x with nextRef := x.nextRef + 1 })
    else none
  | .call p target request =>
    if reg.Alive p ∧ s.Free p then
      some ((s.addCall ⟨p, target, (s.particle p).nextRef, request⟩).modify p
        fun x => { x with
          nextRef := x.nextRef + 1, calling := .drawn s.calls.length })
    else none
  | .sendCall p =>
    match (s.particle p).calling with
    | .drawn k => s.calls[k]?.map fun c =>
      (s.deliver reg c.target ⟨.tagged c.ref
        (callEnvelope p.display (codec.encodeReq c.request)), .request k⟩).modify
          p fun x => { x with calling := .waiting k }
    | _ => none
  | .post p msg =>
    if msg.isTagged then none else some (s.deliver reg p ⟨msg, .other⟩)
  | .recvRef p =>
    match (s.particle p).calling with
    | .waiting k => s.calls[k]?.bind fun c =>
      (takeFirst (fun l => l.msg.hasRef c.ref) (s.particle p).queue).map fun x =>
        (s.addResult ⟨k, outcomeOf codec x.1.msg, some x.1.origin⟩).modify p
          fun y => { y with queue := x.2, calling := .idle }
    | _ => none
  | .timeout p =>
    match (s.particle p).calling with
    | .waiting k => some ((s.addResult ⟨k, .error .timeout, none⟩).modify p
      fun x => { x with calling := .idle })
    | _ => none
  | .recv p =>
    match (s.particle p).queue with
    | l :: rest =>
      if s.Free p ∧ (s.particle p).handling.isNone then
        some (s.modify p fun x => dispatch codec { x with queue := rest } l)
      else none
    | [] => none
  | .finish p response =>
    match (s.particle p).handling with
    | some h =>
      if s.Free p then
        let s' := (s.addRun ⟨p, h.origin, h.request, response⟩).modify p
          fun x => { x with handling := none }
        match reg.resolveTarget h.sender with
        | some q => some (s'.deliver reg q ⟨.tagged h.ref
            (codec.encodeRep response), .reply s.handled.length⟩)
        | none => some s'
      else none
    | none => none

/-- Every call that returned a value returned what `handle_call` of its target
made of its request, and no call took a request. -/
def OwnReplies (s : GenServers Req Rep) : Prop :=
  ∀ r ∈ s.results, ∃ c, s.calls[r.call]? = some c ∧
    (∀ v, r.outcome = .ok v → ∃ e ∈ s.handled, e.origin = .request r.call ∧
      e.server = c.target ∧ e.request = c.request ∧ e.response = v) ∧
    ∀ k, r.consumed ≠ some (.request k)

/-- The ref that a particle waits for, or is about to. -/
def pendingRef (s : GenServers Req Rep) (p : Pid) : Option UInt64 :=
  ((s.particle p).calling.current.bind fun k => s.calls[k]?).map ServerCall.ref

/-- Does the letter carry a request with the ref? -/
def isRequest (ref : UInt64) (l : Letter) : Bool :=
  match l.origin with
  | .request _ => l.msg.hasRef ref
  | _ => false

/-- Does the payload read like a request? -/
def readsAsRequest (codec : Codec Req Rep) : MailboxMessage → Bool
  | .tagged _ payload =>
    match openEnvelope payload with
    | .request _ bytes => (codec.decodeReq bytes).isSome
    | _ => false
  | _ => false

/-- No call meets a request with its own ref: there is none in the mailbox when
it draws the ref, and none arrives while it is pending.  No ref counter wraps
around, no late reply reads like a request, and no name looks like a pid. -/
def RefsApart (codec : Codec Req Rep) (reg : ParticleRegistry)
    (s : GenServers Req Rep) : GenServerAction Req Rep → Prop
  | .makeRef p => (s.particle p).nextRef.toNat + 1 < 2 ^ 64
  | .call p _ _ => (s.particle p).nextRef.toNat + 1 < 2 ^ 64 ∧
    ∀ l ∈ (s.particle p).queue, isRequest (s.particle p).nextRef l = false
  | .sendCall p => ∀ k ∈ (s.particle p).calling.current, ∀ c ∈ s.calls[k]?,
    s.pendingRef c.target ≠ some c.ref
  | .recv p => ∀ l ∈ (s.particle p).queue.head?,
    (l.origin matches .reply _) → readsAsRequest codec l.msg = false
  | .finish p _ => ∀ h ∈ (s.particle p).handling,
    reg.getByName h.sender = none
  | _ => True

instance (codec : Codec Req Rep) (reg : ParticleRegistry)
    (s : GenServers Req Rep) : DecidablePred (RefsApart codec reg s)
  | .makeRef _ => inferInstanceAs (Decidable (_ < _))
  | .call p _ _ => inferInstanceAs (Decidable (_ ∧
      ∀ l ∈ (s.particle p).queue, _))
  | .sendCall p => inferInstanceAs (Decidable
      (∀ k ∈ (s.particle p).calling.current, ∀ c ∈ s.calls[k]?, _))
  | .recv p => inferInstanceAs (Decidable
      (∀ l ∈ (s.particle p).queue.head?, _ → _))
  | .finish p _ => inferInstanceAs (Decidable
      (∀ h ∈ (s.particle p).handling, _))
  | .post .. | .recvRef .. | .timeout .. => isTrue trivial

/-! ## Where letters come from -/

theorem takeFirst_spec {α : Type} {p : α → Bool} {l rest : List α} {a : α}
    (h : takeFirst p l = some (a, rest)) :
    a ∈ l ∧ p a = true ∧ ∀ x ∈ rest, x ∈ l := by
  obtain ⟨before, behind, rfl, rfl, ha, -⟩ := takeFirst_eq_some.1 h
  refine ⟨List.mem_append_right _ List.mem_cons_self, ha, fun x hx => ?_⟩
  rcases List.mem_append.1 hx with hx | hx
  · exact List.mem_append_left _ hx
  · exact List.mem_append_right _ (List.mem_cons_of_mem _ hx)

section Invariant

variable {codec : Codec Req Rep} {reg : ParticleRegistry}
variable {s t : GenServers Req Rep} {p q : Pid}

/-- A letter in the mailbox of `p` is what its origin says. -/
def LetterOk (codec : Codec Req Rep) (s : GenServers Req Rep) (p : Pid)
    (l : Letter) : Prop :=
  match l.origin with
  | .request k => ∃ c, s.calls[k]? = some c ∧ c.target = p ∧
      l.msg = .tagged c.ref
        (callEnvelope c.caller.display (codec.encodeReq c.request))
  | .reply i => ∃ e k c, s.handled[i]? = some e ∧ e.origin = .request k ∧
      s.calls[k]? = some c ∧ c.caller = p ∧ e.server = c.target ∧
      e.request = c.request ∧
      l.msg = .tagged c.ref (codec.encodeRep e.response)
  | .other => l.msg.isTagged = false

/-- A particle handles requests of calls, and no request in its mailbox has the
ref of its own call. -/
structure ParticleOk (codec : Codec Req Rep) (s : GenServers Req Rep) (p : Pid)
    (x : GenServer Req) : Prop where
  letters : ∀ l ∈ x.queue, LetterOk codec s p l
  handling : ∀ h ∈ x.handling, ∃ k c, h.origin = .request k ∧
    s.calls[k]? = some c ∧ c.target = p ∧ h.ref = c.ref ∧
    h.sender = c.caller.display ∧ h.request = c.request
  calling : ∀ k ∈ x.calling.current, ∃ c, s.calls[k]? = some c ∧ c.caller = p ∧
    ∀ l ∈ x.queue, isRequest c.ref l = false

structure GenServersInv (codec : Codec Req Rep) (reg : ParticleRegistry)
    (s : GenServers Req Rep) : Prop where
  particles : ∀ p, ParticleOk codec s p (s.particle p)
  callers : ∀ c ∈ s.calls, reg.Alive c.caller ∧
    c.ref.toNat < (s.particle c.caller).nextRef.toNat
  /-- The refs of one caller's calls differ. -/
  distinct : ∀ (i j : Nat) (c d : ServerCall Req), s.calls[i]? = some c → s.calls[j]? = some d →
    c.caller = d.caller → c.ref = d.ref → i = j
  own : s.OwnReplies

/-- Calls and runs are only added. -/
structure Grows (s t : GenServers Req Rep) : Prop where
  calls : ∀ (k : Nat) c, s.calls[k]? = some c → t.calls[k]? = some c
  handled : ∀ (i : Nat) e, s.handled[i]? = some e → t.handled[i]? = some e

theorem getElem?_append_some {α : Type} {l : List α} {i : Nat} {a : α}
    (h : l[i]? = some a) (rest : List α) : (l ++ rest)[i]? = some a := by
  obtain ⟨hlt, -⟩ := List.getElem?_eq_some_iff.1 h
  rw [List.getElem?_append_left hlt]
  exact h

theorem LetterOk.grows (hgrows : Grows s t) {l : Letter}
    (h : LetterOk codec s p l) : LetterOk codec t p l := by
  unfold LetterOk at h ⊢
  split at h
  · obtain ⟨c, hc, h⟩ := h
    exact ⟨c, hgrows.calls _ c hc, h⟩
  · obtain ⟨e, k, c, he, horigin, hc, h⟩ := h
    exact ⟨e, k, c, hgrows.handled _ e he, horigin, hgrows.calls k c hc, h⟩
  · exact h

theorem ParticleOk.grows (hgrows : Grows s t) {x : GenServer Req}
    (h : ParticleOk codec s p x) : ParticleOk codec t p x := by
  refine ⟨fun l hl => (h.letters l hl).grows hgrows, fun y hy => ?_,
    fun k hk => ?_⟩
  · obtain ⟨k, c, horigin, hc, hrest⟩ := h.handling y hy
    exact ⟨k, c, horigin, hgrows.calls k c hc, hrest⟩
  · obtain ⟨c, hc, hrest⟩ := h.calling k hk
    exact ⟨c, hgrows.calls k c hc, hrest⟩

theorem inv_start (codec : Codec Req Rep) (reg : ParticleRegistry) :
    GenServersInv codec reg (start : GenServers Req Rep) where
  particles p := ⟨by simp [start, GenServer.new], by simp [start, GenServer.new],
    by simp [start, GenServer.new, Calling.current]⟩
  callers c hc := by cases hc
  distinct i j c d hc := by cases hc
  own r hr := by cases hr

@[simp] theorem particle_modify_self (s : GenServers Req Rep) (p : Pid)
    (f : GenServer Req → GenServer Req) :
    (s.modify p f).particle p = f (s.particle p) :=
  Function.update_self ..

theorem particle_modify_of_ne (s : GenServers Req Rep) (h : q ≠ p)
    (f : GenServer Req → GenServer Req) :
    (s.modify p f).particle q = s.particle q :=
  Function.update_of_ne h ..

/-- One particle changes. -/
theorem GenServersInv.modify (h : GenServersInv codec reg s)
    {f : GenServer Req → GenServer Req}
    (hok : ParticleOk codec s p (f (s.particle p)))
    (href : (s.particle p).nextRef.toNat ≤ (f (s.particle p)).nextRef.toNat) :
    GenServersInv codec reg (s.modify p f) := by
  refine ⟨fun x => ?_, fun c hc => ?_, h.distinct, h.own⟩
  · have hgrows : Grows s (s.modify p f) := ⟨fun _ _ h => h, fun _ _ h => h⟩
    by_cases hx : x = p
    · subst hx
      rw [particle_modify_self]
      exact hok.grows hgrows
    · rw [particle_modify_of_ne s hx]
      exact (h.particles x).grows hgrows
  · obtain ⟨halive, hlt⟩ := h.callers c hc
    refine ⟨halive, ?_⟩
    by_cases hx : c.caller = p
    · rw [hx, particle_modify_self]
      rw [hx] at hlt
      exact hlt.trans_le href
    · rw [particle_modify_of_ne s hx]
      exact hlt

/-- A letter arrives that is what its origin says, and no request with the ref
of the call that the receiver has in progress. -/
theorem GenServersInv.deliver (h : GenServersInv codec reg s) {l : Letter}
    (hletter : LetterOk codec s q l)
    (hapart : ∀ ref, s.pendingRef q = some ref → isRequest ref l = false) :
    GenServersInv codec reg (s.deliver reg q l) := by
  unfold GenServers.deliver
  split
  · have hqueue : ∀ x ∈ (if l.msg.isUrgent then l :: (s.particle q).queue
        else (s.particle q).queue ++ [l]), x = l ∨ x ∈ (s.particle q).queue := by
      intro x hx
      split at hx
      · exact List.mem_cons.1 hx
      · rw [List.mem_append, List.mem_singleton] at hx
        exact hx.symm
    refine h.modify ⟨fun x hx => ?_, (h.particles q).handling, fun k hk => ?_⟩
      le_rfl
    · rcases hqueue x hx with rfl | hx
      · exact hletter
      · exact (h.particles q).letters x hx
    · obtain ⟨c, hc, hcaller, hclear⟩ := (h.particles q).calling k hk
      refine ⟨c, hc, hcaller, fun x hx => ?_⟩
      rcases hqueue x hx with rfl | hx
      · refine hapart c.ref ?_
        rw [pendingRef, show (s.particle q).calling.current = some k from hk]
        simp [hc]
      · exact hclear x hx
  · exact h

/-! ## Steps -/

theorem toNat_add_one {n : UInt64} (h : n.toNat + 1 < 2 ^ 64) :
    (n + 1).toNat = n.toNat + 1 := by
  rw [UInt64.toNat_add, UInt64.toNat_one]
  exact Nat.mod_eq_of_lt h

/-- A ref is drawn for something else. -/
theorem inv_makeRef (h : GenServersInv codec reg s)
    (hdraw : (s.particle p).nextRef.toNat + 1 < 2 ^ 64) :
    GenServersInv codec reg
      (s.modify p fun x => { x with nextRef := x.nextRef + 1 }) := by
  refine h.modify ⟨(h.particles p).letters, (h.particles p).handling,
    (h.particles p).calling⟩ ?_
  show _ ≤ ((s.particle p).nextRef + 1).toNat
  rw [toNat_add_one hdraw]
  omega

/-- A call draws its ref. -/
theorem inv_call (h : GenServersInv codec reg s) (halive : reg.Alive p)
    (target : Pid) (request : Req)
    (hdraw : (s.particle p).nextRef.toNat + 1 < 2 ^ 64)
    (hclear : ∀ l ∈ (s.particle p).queue,
      isRequest (s.particle p).nextRef l = false) :
    GenServersInv codec reg
      ((s.addCall ⟨p, target, (s.particle p).nextRef, request⟩).modify p
        fun x => { x with
          nextRef := x.nextRef + 1, calling := .drawn s.calls.length }) := by
  have hgrows : Grows s
      ((s.addCall ⟨p, target, (s.particle p).nextRef, request⟩).modify p
        fun x => { x with
          nextRef := x.nextRef + 1, calling := .drawn s.calls.length }) :=
    ⟨fun k c hc => getElem?_append_some hc _, fun i e he => he⟩
  have hlast : (s.addCall ⟨p, target, (s.particle p).nextRef, request⟩).calls[
      s.calls.length]? = some ⟨p, target, (s.particle p).nextRef, request⟩ :=
    List.getElem?_concat_length
  have hsplit : ∀ (k : Nat) c,
      (s.addCall ⟨p, target, (s.particle p).nextRef, request⟩).calls[k]? =
        some c → s.calls[k]? = some c ∨ k = s.calls.length ∧
          c = ⟨p, target, (s.particle p).nextRef, request⟩ := by
    intro k c hc
    have hc' := List.getElem?_append.symm.trans hc
    split at hc'
    · exact Or.inl hc'
    · rename_i hlt
      obtain ⟨hk, hget⟩ := List.getElem?_eq_some_iff.1 hc'
      simp only [List.length_singleton] at hk
      have hk' : k - s.calls.length = 0 := by omega
      simp only [hk', List.getElem_singleton] at hget
      exact Or.inr ⟨by omega, hget.symm⟩
  have hnext : ((s.particle p).nextRef + 1).toNat =
      (s.particle p).nextRef.toNat + 1 := toNat_add_one hdraw
  -- The new ref is above those of earlier calls.
  have hfresh : ∀ (k : Nat) c, s.calls[k]? = some c → c.caller = p →
      c.ref ≠ (s.particle p).nextRef := by
    intro k c hc hcaller href
    have hlt := (h.callers c (List.mem_of_getElem? hc)).2
    rw [hcaller, href] at hlt
    exact lt_irrefl _ hlt
  refine ⟨fun q => ?_, fun c hc => ?_, fun i j c d hc hd hcaller href => ?_,
    fun r hr => ?_⟩
  · by_cases hq : q = p
    · subst hq
      rw [particle_modify_self]
      have hok := (h.particles q).grows hgrows
      refine ⟨hok.letters, hok.handling, fun k hk => ?_⟩
      cases hk
      exact ⟨_, hlast, rfl, hclear⟩
    · rw [particle_modify_of_ne _ hq]
      exact (h.particles q).grows hgrows
  · by_cases hcaller : c.caller = p
    · rw [hcaller, particle_modify_self]
      refine ⟨halive, ?_⟩
      show c.ref.toNat < ((s.particle p).nextRef + 1).toNat
      rw [hnext]
      rcases List.mem_append.1 hc with hc | hc
      · have hlt := (h.callers c hc).2
        rw [hcaller] at hlt
        omega
      · rw [List.mem_singleton.1 hc]
        exact Nat.lt_succ_self _
    · rw [particle_modify_of_ne _ hcaller]
      rcases List.mem_append.1 hc with hc | hc
      · exact h.callers c hc
      · rw [List.mem_singleton.1 hc] at hcaller
        exact absurd rfl hcaller
  · rcases hsplit i c hc with hc | ⟨rfl, rfl⟩
    · rcases hsplit j d hd with hd | ⟨rfl, rfl⟩
      · exact h.distinct i j c d hc hd hcaller href
      · exact absurd href (hfresh i c hc hcaller)
    · rcases hsplit j d hd with hd | ⟨rfl, rfl⟩
      · exact absurd href.symm (hfresh j d hd hcaller.symm)
      · rfl
  · obtain ⟨c, hc, hrest⟩ := h.own r hr
    exact ⟨c, hgrows.calls _ c hc, hrest⟩

/-- A call sends its request. -/
theorem inv_sendCall (h : GenServersInv codec reg s) {k : Nat}
    {c : ServerCall Req} (hcalling : (s.particle p).calling = .drawn k)
    (hc : s.calls[k]? = some c) (hapart : s.pendingRef c.target ≠ some c.ref) :
    GenServersInv codec reg
      ((s.deliver reg c.target ⟨.tagged c.ref
        (callEnvelope p.display (codec.encodeReq c.request)), .request k⟩).modify
          p fun x => { x with calling := .waiting k }) := by
  obtain ⟨c', hc', hcaller, -⟩ :=
    (h.particles p).calling k (by simp [hcalling, Calling.current])
  obtain rfl : c = c' := Option.some_inj.1 (hc.symm.trans hc')
  have hsent := h.deliver (q := c.target) (l := ⟨.tagged c.ref
      (callEnvelope p.display (codec.encodeReq c.request)), .request k⟩)
    ⟨c, hc, rfl, by rw [hcaller]⟩ (by
      intro ref href
      simp only [isRequest, MailboxMessage.hasRef, decide_eq_false_iff_not]
      rintro rfl
      exact hapart href)
  have hcurrent : ((s.deliver reg c.target ⟨.tagged c.ref
      (callEnvelope p.display (codec.encodeReq c.request)),
        .request k⟩).particle p).calling = .drawn k := by
    unfold GenServers.deliver
    split
    · by_cases hp : p = c.target
      · rw [← hp, particle_modify_self]
        exact hcalling
      · rw [particle_modify_of_ne _ hp]
        exact hcalling
    · exact hcalling
  refine hsent.modify ⟨(hsent.particles p).letters,
    (hsent.particles p).handling, fun i hi => ?_⟩ le_rfl
  exact (hsent.particles p).calling i (by rw [hcurrent]; exact hi)

/-- A particle goes on without its call, and with no more letters. -/
theorem ParticleOk.returned {x : GenServer Req} (h : ParticleOk codec s p x)
    {rest : List Letter} (hrest : ∀ l ∈ rest, l ∈ x.queue) :
    ParticleOk codec s p { x with queue := rest, calling := .idle } :=
  ⟨fun l hl => h.letters l (hrest l hl), h.handling, fun k hk => by cases hk⟩

/-- A call returns. -/
theorem GenServersInv.addResult (h : GenServersInv codec reg s)
    {r : CallResult Rep} (hr : ∃ c, s.calls[r.call]? = some c ∧
      (∀ v, r.outcome = .ok v → ∃ e ∈ s.handled, e.origin = .request r.call ∧
        e.server = c.target ∧ e.request = c.request ∧ e.response = v) ∧
      ∀ k, r.consumed ≠ some (.request k)) :
    GenServersInv codec reg (s.addResult r) := by
  have hgrows : Grows s (s.addResult r) := ⟨fun _ _ h => h, fun _ _ h => h⟩
  refine ⟨fun q => (h.particles q).grows hgrows, h.callers, h.distinct,
    fun x hx => ?_⟩
  rcases List.mem_append.1 hx with hx | hx
  · exact h.own x hx
  · rw [List.mem_singleton.1 hx]
    exact hr

/-- A call takes a message: it is the reply, or not tagged at all. -/
theorem inv_recvRef (h : GenServersInv codec reg s) {k : Nat}
    {c : ServerCall Req} {x : Letter × List Letter}
    (hcalling : (s.particle p).calling = .waiting k) (hc : s.calls[k]? = some c)
    (htake : takeFirst (fun l => l.msg.hasRef c.ref) (s.particle p).queue =
      some x) :
    GenServersInv codec reg
      ((s.addResult ⟨k, outcomeOf codec x.1.msg, some x.1.origin⟩).modify p
        fun y => { y with queue := x.2, calling := .idle }) := by
  obtain ⟨hmem, href, hrest⟩ := takeFirst_spec htake
  obtain ⟨c', hc', hcaller, hclear⟩ :=
    (h.particles p).calling k (by simp [hcalling, Calling.current])
  obtain rfl : c = c' := Option.some_inj.1 (hc.symm.trans hc')
  have hletter := (h.particles p).letters x.1 hmem
  have hresult : ∃ c, s.calls[k]? = some c ∧
      (∀ v, outcomeOf codec x.1.msg = .ok v → ∃ e ∈ s.handled,
        e.origin = .request k ∧ e.server = c.target ∧ e.request = c.request ∧
          e.response = v) ∧
      ∀ k', some x.1.origin ≠ some (.request k') := by
    refine ⟨c, hc, ?_⟩
    unfold LetterOk at hletter
    split at hletter
    · -- A request with the ref would not be there.
      rename_i k' horigin
      have hnone := hclear x.1 hmem
      rw [isRequest, horigin] at hnone
      exact absurd href (by simpa using hnone)
    · rename_i i horigin
      obtain ⟨e, k', d, he, heorigin, hd, hdcaller, hserver, hrequest, hmsg⟩ :=
        hletter
      rw [hmsg] at href
      have hsame : k' = k := h.distinct k' k d c hd hc
        (hdcaller.trans hcaller.symm) (by simpa [MailboxMessage.hasRef] using href)
      subst hsame
      obtain rfl : c = d := Option.some_inj.1 (hc.symm.trans hd)
      refine ⟨fun v hv => ⟨e, List.mem_of_getElem? he, heorigin, hserver,
        hrequest, ?_⟩, fun k' hk => ?_⟩
      · rw [hmsg, outcomeOf, codec.decodeRep_encodeRep] at hv
        cases hv
        rfl
      · rw [horigin] at hk
        cases hk
    · rename_i horigin
      refine ⟨fun v hv => ?_, fun k' hk => ?_⟩
      · unfold outcomeOf at hv
        split at hv
        · rename_i hmsg
          rw [hmsg] at hletter
          cases hletter
        · cases hv
      · rw [horigin] at hk
        cases hk
  have hadded := h.addResult (r := ⟨k, outcomeOf codec x.1.msg,
    some x.1.origin⟩) hresult
  exact hadded.modify ((hadded.particles p).returned hrest) le_rfl

/-- The receive loop takes a message, and handles it if it is a request. -/
theorem inv_recv (h : GenServersInv codec reg s) {l : Letter}
    {rest : List Letter} (hqueue : (s.particle p).queue = l :: rest)
    (hfree : s.Free p)
    (hlate : (l.origin matches .reply _) → readsAsRequest codec l.msg = false) :
    GenServersInv codec reg
      (s.modify p fun x => dispatch codec { x with queue := rest } l) := by
  have hok := h.particles p
  have hmem : l ∈ (s.particle p).queue := by
    rw [hqueue]
    exact List.mem_cons_self ..
  have hkept : ParticleOk codec s p { s.particle p with queue := rest } := by
    refine ⟨fun x hx => hok.letters x ?_, hok.handling, fun k hk => ?_⟩
    · rw [hqueue]
      exact List.mem_cons_of_mem _ hx
    · rw [show (s.particle p).calling = .idle from hfree.1] at hk
      cases hk
  have hidle : ∀ trapped, ParticleOk codec s p
      { s.particle p with queue := rest, trapped := trapped } := fun _ =>
    ⟨hkept.letters, hkept.handling, hkept.calling⟩
  have hletter := hok.letters l hmem
  unfold dispatch
  split
  · rename_i ref payload hmsg
    split
    · exact h.modify hkept le_rfl
    · exact h.modify (hidle true) le_rfl
    · rename_i sender bytes hopen
      split
      · rename_i request hdecode
        refine h.modify ⟨hkept.letters, fun y hy => ?_, hkept.calling⟩ le_rfl
        cases hy
        unfold LetterOk at hletter
        split at hletter
        · rename_i k horigin
          obtain ⟨c, hc, htarget, hsent⟩ := hletter
          cases hmsg.symm.trans hsent
          rw [openEnvelope_callEnvelope _ (by
            have := length_display c.caller
            omega)] at hopen
          cases hopen
          rw [codec.decodeReq_encodeReq] at hdecode
          cases hdecode
          exact ⟨k, c, horigin, hc, htarget, rfl, rfl, rfl⟩
        · rename_i i horigin
          have hread := hlate (by rw [horigin])
          simp [readsAsRequest, hmsg, hopen, hdecode] at hread
        · rw [hmsg] at hletter
          cases hletter
      · exact h.modify hkept le_rfl
  · exact h.modify hkept le_rfl

/-- `handle_call` is done, and the caller is answered. -/
theorem inv_addRun (h : GenServersInv codec reg s) {y : Handling Req}
    (response : Rep) : GenServersInv codec reg
      ((s.addRun ⟨p, y.origin, y.request, response⟩).modify p
        fun x => { x with handling := none }) := by
  have hgrows : Grows s (s.addRun ⟨p, y.origin, y.request, response⟩) :=
    ⟨fun _ _ hc => hc, fun i e he => getElem?_append_some he _⟩
  have hadded : GenServersInv codec reg
      (s.addRun ⟨p, y.origin, y.request, response⟩) := by
    refine ⟨fun q => (h.particles q).grows hgrows, h.callers, h.distinct,
      fun r hr => ?_⟩
    obtain ⟨c, hc, hown, hconsumed⟩ := h.own r hr
    refine ⟨c, hc, fun v hv => ?_, hconsumed⟩
    obtain ⟨e, he, hrest⟩ := hown v hv
    exact ⟨e, List.mem_append_left _ he, hrest⟩
  exact hadded.modify ⟨(hadded.particles p).letters, fun y hy => (by cases hy),
    (hadded.particles p).calling⟩ le_rfl

theorem inv_finish (hreg : ∀ q, reg.Alive q → q.node = reg.me)
    (h : GenServersInv codec reg s) {y : Handling Req} (response : Rep)
    (hhandling : (s.particle p).handling = some y)
    (hname : reg.getByName y.sender = none) {q : Pid}
    (hresolve : reg.resolveTarget y.sender = some q) :
    GenServersInv codec reg
      (((s.addRun ⟨p, y.origin, y.request, response⟩).modify p
        fun x => { x with handling := none }).deliver reg q
          ⟨.tagged y.ref (codec.encodeRep response),
            .reply s.handled.length⟩) := by
  obtain ⟨k, c, horigin, hc, htarget, href, hsender, hrequest⟩ :=
    (h.particles p).handling y hhandling
  have halive := (h.callers c (List.mem_of_getElem? hc)).1
  have hq : c.caller = q := by
    rw [ParticleRegistry.resolveTarget, hname] at hresolve
    have hdisplay := List.find?_some hresolve
    have hmem := List.mem_of_find?_eq_some hresolve
    refine display_inj ((hreg _ halive).trans (hreg q ?_).symm) ?_
    · exact AList.mem_keys.1 hmem
    · rw [← hsender]
      exact (of_decide_eq_true hdisplay).symm
  refine (inv_addRun h response).deliver ⟨_, k, c, List.getElem?_concat_length,
    horigin, hc, hq, htarget.symm, hrequest, by rw [href]⟩ fun ref _ => rfl

end Invariant

/-! ## Runs -/

section Runs

variable {codec : Codec Req Rep} {reg : ParticleRegistry}

theorem inv_step (hreg : ∀ q, reg.Alive q → q.node = reg.me)
    {s t : GenServers Req Rep} {a : GenServerAction Req Rep}
    (h : GenServersInv codec reg s) (hapart : RefsApart codec reg s a)
    (hstep : step codec reg s a = some t) : GenServersInv codec reg t := by
  cases a with
  | makeRef p =>
    simp only [step] at hstep
    split at hstep
    · cases hstep
      exact inv_makeRef h hapart
    · cases hstep
  | call p target request =>
    simp only [step] at hstep
    split at hstep
    · rename_i hok
      cases hstep
      exact inv_call h hok.1 target request hapart.1 hapart.2
    · cases hstep
  | sendCall p =>
    simp only [step] at hstep
    split at hstep
    · rename_i k hcalling
      obtain ⟨c, hc, rfl⟩ := Option.map_eq_some_iff.1 hstep
      have hcurrent : (s.particle p).calling.current = some k := by
        rw [hcalling]
        rfl
      exact inv_sendCall h hcalling hc (hapart k hcurrent c hc)
    · cases hstep
  | post p msg =>
    simp only [step] at hstep
    split at hstep
    · cases hstep
    · rename_i htagged
      cases hstep
      exact h.deliver (by simpa [LetterOk] using htagged) fun ref _ => rfl
  | recvRef p =>
    simp only [step] at hstep
    split at hstep
    · rename_i k hcalling
      obtain ⟨c, hc, hrest⟩ := Option.bind_eq_some_iff.1 hstep
      obtain ⟨x, htake, rfl⟩ := Option.map_eq_some_iff.1 hrest
      exact inv_recvRef h hcalling hc htake
    · cases hstep
  | timeout p =>
    simp only [step] at hstep
    split at hstep
    · rename_i k hcalling
      cases hstep
      obtain ⟨c, hc, -⟩ := (h.particles p).calling k
        (by simp [hcalling, Calling.current])
      have hadded := h.addResult (r := ⟨k, .error .timeout, none⟩)
        ⟨c, hc, fun v hv => (by cases hv), fun k hk => (by cases hk)⟩
      exact hadded.modify ((hadded.particles p).returned fun _ hl => hl) le_rfl
    · cases hstep
  | recv p =>
    simp only [step] at hstep
    split at hstep
    · rename_i l rest hqueue
      split at hstep
      · rename_i hok
        cases hstep
        exact inv_recv h hqueue hok.1 (hapart l (by rw [hqueue]; rfl))
      · cases hstep
    · cases hstep
  | finish p response =>
    simp only [step] at hstep
    split at hstep
    · rename_i y hhandling
      split at hstep
      · split at hstep
        · rename_i q hresolve
          cases hstep
          exact inv_finish hreg h response hhandling (hapart y hhandling) hresolve
        · cases hstep
          exact inv_addRun h response
      · cases hstep
    · cases hstep

/-- Calls return their own replies as long as no call meets a request with its
own ref. -/
theorem calls_return_own_replies (codec : Codec Req Rep)
    (reg : ParticleRegistry) (hreg : ∀ q, reg.Alive q → q.node = reg.me)
    {s : GenServers Req Rep}
    (hrun : Run (step codec reg) (RefsApart codec reg) start s) :
    s.OwnReplies :=
  (hrun.invariant (inv_step hreg) (inv_start codec reg)).own

end Runs

/-- Numbers below 256.  A decoder ignores what follows the value. -/
def byteCodec : Codec UInt8 UInt8 where
  encodeReq x := [x]
  decodeReq := List.head?
  encodeRep x := [x]
  decodeRep := List.head?
  decodeReq_encodeReq _ := rfl
  decodeRep_encodeRep _ := rfl

/-- A node with three particles. -/
def threeParticles : ParticleRegistry :=
  (((ParticleRegistry.new ⟨1⟩).insertState ⟨⟨1⟩, 1⟩).insertState
    ⟨⟨1⟩, 2⟩).insertState ⟨⟨1⟩, 3⟩

theorem threeParticles_local (q : Pid) (h : threeParticles.Alive q) :
    q.node = threeParticles.me := by
  have hkeys : ∀ q ∈ threeParticles.particleStates.keys,
      q.node = threeParticles.me := by
    decide
  exact hkeys q (AList.mem_keys.1 h)

/-- Particle 2 calls particle 1, which calls particle 3 before it answers. -/
theorem calls_return_own_replies_nested :
    ∃ s : GenServers UInt8 UInt8,
      Run (step byteCodec threeParticles) (RefsApart byteCodec threeParticles)
        start s ∧
      s.results.map (fun r => (r.call, r.outcome.toOption)) =
        [(1, some 9), (0, some 11)] ∧ s.OwnReplies := by
  have hrun : ∃ s : GenServers UInt8 UInt8,
      Run (step byteCodec threeParticles) (RefsApart byteCodec threeParticles)
        start s ∧
      s.results.map (fun r => (r.call, r.outcome.toOption)) =
        [(1, some 9), (0, some 11)] :=
    exec_run_of_any [.call ⟨⟨1⟩, 2⟩ ⟨⟨1⟩, 1⟩ 7, .sendCall ⟨⟨1⟩, 2⟩,
      .recv ⟨⟨1⟩, 1⟩, .call ⟨⟨1⟩, 1⟩ ⟨⟨1⟩, 3⟩ 5, .sendCall ⟨⟨1⟩, 1⟩,
      .recv ⟨⟨1⟩, 3⟩, .finish ⟨⟨1⟩, 3⟩ 9, .recvRef ⟨⟨1⟩, 1⟩,
      .finish ⟨⟨1⟩, 1⟩ 11, .recvRef ⟨⟨1⟩, 2⟩] (by decide)
  obtain ⟨s, hrun, hresults⟩ := hrun
  exact ⟨s, hrun, hresults, calls_return_own_replies byteCodec threeParticles
    threeParticles_local hrun⟩

/-- Particle 1 calls particle 3 while particle 2 calls particle 1, each with its
first ref.  The call of particle 1 returns the length of a pid string. -/
theorem call_takes_request :
    ¬ ∀ s : GenServers UInt8 UInt8,
      Run (step byteCodec threeParticles) anyStep start s → s.OwnReplies := by
  intro hall
  have hrun : ∃ s : GenServers UInt8 UInt8,
      Run (step byteCodec threeParticles) anyStep start s ∧
        ∃ r ∈ s.results, r.consumed = some (.request 1) ∧
          r.outcome.toOption = some 12 :=
    exec_run_of_any [.call ⟨⟨1⟩, 1⟩ ⟨⟨1⟩, 3⟩ 5, .call ⟨⟨1⟩, 2⟩ ⟨⟨1⟩, 1⟩ 7,
      .sendCall ⟨⟨1⟩, 1⟩, .sendCall ⟨⟨1⟩, 2⟩, .recvRef ⟨⟨1⟩, 1⟩] (by decide)
  obtain ⟨s, hrun, r, hr, hconsumed, -⟩ := hrun
  obtain ⟨-, -, -, hnone⟩ := hall s hrun r hr
  exact hnone 1 hconsumed

end GenServers

end Plasmoid
