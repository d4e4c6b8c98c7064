import Plasmoid.LocalCalls

/-!
# Links between the particles of one node

A link is stored at both ends.  `link` and `unlink` change both ends under one
lock, but an exit removes the particle in one critical section and unhooks it
from its peers in another.  In between a peer stays linked to a pid that is
gone, and the exit in progress will reach it.  A spawn that loses a race for
its name takes its particle back in one section, and nothing unhooks it.
-/

namespace Plasmoid

open Machine

namespace PendingCall

/-- The call is an exit of `b` that will reach `a`. -/
def Reaches (call : PendingCall) (b a : Pid) : Prop :=
  ∃ st, call.unhooking = some (b, st) ∧ a ∈ st.links

end PendingCall

namespace CallsInProgress

/-- Links are symmetric, and a link to a particle that is gone is one that an
exit in progress will undo. -/
structure LinksSound (s : CallsInProgress) : Prop where
  symmetric : ∀ a b sa sb, s.reg.state a = some sa → s.reg.state b = some sb →
    (b ∈ sa.links ↔ a ∈ sb.links)
  reached : ∀ a b sa, s.reg.state a = some sa → b ∈ sa.links → ¬ s.reg.Alive b →
    ∃ id call, s.calls.lookup id = some call ∧ call.Reaches b a

/-- Nobody but `pid` itself is linked to `pid`. -/
def unlinked (s : CallsInProgress) (pid : Pid) : Bool :=
  s.reg.particleStates.entries.all fun e => e.1 = pid ∨ pid ∉ e.2.links

theorem unlinked_iff {s : CallsInProgress} {pid : Pid} :
    s.unlinked pid = true ↔
      ∀ x st, s.reg.state x = some st → x ≠ pid → pid ∉ st.links := by
  simp only [unlinked, List.all_eq_true, decide_eq_true_eq]
  constructor
  · intro h x st hst hne
    exact (h ⟨x, st⟩ (AList.mem_lookup_iff.1 hst)).resolve_left hne
  · intro h e he
    by_cases hpid : e.1 = pid
    · exact .inl hpid
    · exact .inr (h e.1 e.2 (AList.mem_lookup_iff.2 he) hpid)

/-- The condition on a call that takes its next section: a spawn takes back
only a particle that nobody has linked to.  The pid counter does not wrap
around. -/
def undoOk (s : CallsInProgress) : PendingCall → Prop
  | .spawnDraw _ _ => s.reg.pidGen.nextSeq.toNat + 1 < 2 ^ 64
  | .spawnUndoState pid _ => s.reg.Alive pid → s.unlinked pid = true
  | _ => True

instance (s : CallsInProgress) : DecidablePred s.undoOk
  | .spawnDraw .. => inferInstanceAs (Decidable (_ < _))
  | .spawnUndoState .. => inferInstanceAs (Decidable (_ → _ = true))
  | .spawnEntry .. | .spawnState .. | .spawnBind .. | .spawnUndoEntry ..
  | .exitTake .. | .exitEntry .. | .exitNames .. | .exitPublish ..
  | .exitUnhook .. | .exitSignal .. => isTrue trivial

/-- The condition on a step. -/
def UndoesUnlinked (s : CallsInProgress) : LocalAction → Prop
  | .call (.advance id) => ∀ call ∈ s.calls.lookup id, s.undoOk call
  | _ => True

instance (s : CallsInProgress) : DecidablePred s.UndoesUnlinked
  | .call (.advance id) =>
    inferInstanceAs (Decidable (∀ call ∈ s.calls.lookup id, _))
  | .call (.beginSpawn ..) | .call (.beginExit ..) | .call (.register ..)
  | .call (.unregister ..) | .call (.atomic _) | .unlink ..
  | .monitorWithRef .. | .demonitor .. => isTrue trivial

theorem UndoesUnlinked.counts {s : CallsInProgress} {a : LocalAction}
    (h : s.UndoesUnlinked a) : s.Counts a := by
  unfold Counts
  split
  · intro call hcall hdraws
    cases call with
    | spawnDraw component name => exact h _ hcall
    | _ => cases hdraws
  · trivial

/-! ## Quiet sections -/

/-- A step that keeps links, the living and the exits in progress. -/
theorem LinksSound.of_same {s t : CallsInProgress} (h : LinksSound s)
    (hstate : ∀ x st', t.reg.state x = some st' →
      ∃ st, s.reg.state x = some st ∧ st'.links = st.links)
    (halive : ∀ x, s.reg.Alive x → t.reg.Alive x)
    (hcalls : ∀ id call b a, s.calls.lookup id = some call → call.Reaches b a →
      ∃ id' call', t.calls.lookup id' = some call' ∧ call'.Reaches b a) :
    LinksSound t where
  symmetric a b sa' sb' ha hb := by
    obtain ⟨sa, hsa, hlinksa⟩ := hstate a sa' ha
    obtain ⟨sb, hsb, hlinksb⟩ := hstate b sb' hb
    rw [hlinksa, hlinksb]
    exact h.symmetric a b sa sb hsa hsb
  reached a b sa' ha hb hdead := by
    obtain ⟨sa, hsa, hlinks⟩ := hstate a sa' ha
    rw [hlinks] at hb
    obtain ⟨id, call, hcall, hreach⟩ :=
      h.reached a b sa hsa hb fun hlive => hdead (halive b hlive)
    exact hcalls id call b a hcall hreach

/-- The exits in progress after a section, if it unhooks nobody. -/
theorem reaches_settle {s : CallsInProgress} {id : Nat} {call : PendingCall}
    (hcall : s.calls.lookup id = some call) {reg : ParticleRegistry} {p : Progress}
    (hkeeps : ∀ x, call.unhooking = some x →
      p.pending.bind PendingCall.unhooking = some x) (id' : Nat)
    (call' : PendingCall) (b a : Pid) (hcall' : s.calls.lookup id' = some call')
    (hreach : call'.Reaches b a) :
    ∃ id'' call'', (s.settle id reg p).calls.lookup id'' = some call'' ∧
      call''.Reaches b a := by
  by_cases hid : id' = id
  · subst hid
    cases hcall.symm.trans hcall'
    obtain ⟨st, hst, ha⟩ := hreach
    obtain ⟨next, hnext, hunhooking⟩ := Option.bind_eq_some_iff.1 (hkeeps _ hst)
    refine ⟨id', next, ?_, st, hunhooking, ha⟩
    rw [lookup_settle, if_pos rfl, hnext]
  · refine ⟨id', call', ?_, hreach⟩
    rw [lookup_settle, if_neg hid, hcall']

/-- Nobody is linked to a pid that a spawn holds in transit. -/
theorem unlinked_of_spawning {s : CallsInProgress} (h : LinksSound s)
    (ht : TransitInv s) {id : Nat} {pid : Pid} {name : Option String}
    (hcall : s.calls.lookup id = some (.spawnState pid name)) :
    ∀ x st, s.reg.state x = some st → pid ∉ st.links := by
  intro x st hst hmem
  have hdead : ¬ s.reg.Alive pid := ht.dead id _ pid hcall rfl
  obtain ⟨id', call', hcall', st', hunhooking, -⟩ := h.reached x pid st hst hmem hdead
  have hid : id' = id := ht.single id' id call' _ pid hcall' hcall
    (PendingCall.inTransit_of_unhooking hunhooking) rfl
  rw [hid] at hcall'
  cases hcall.symm.trans hcall'
  cases hunhooking

/-- A particle that an exit unhooks is linked only to peers of its last
state. -/
theorem mem_links_of_unhooking {s : CallsInProgress} (h : LinksSound s)
    (ht : TransitInv s) {id : Nat} {call : PendingCall} {pid : Pid}
    {st : ParticleState} (hcall : s.calls.lookup id = some call)
    (hunhooking : call.unhooking = some (pid, st)) :
    ∀ x sx, s.reg.state x = some sx → pid ∈ sx.links → x ∈ st.links := by
  intro x sx hsx hmem
  have hdead : ¬ s.reg.Alive pid :=
    ht.dead id call pid hcall (PendingCall.inTransit_of_unhooking hunhooking)
  obtain ⟨id', call', hcall', st', hunhooking', hx⟩ :=
    h.reached x pid sx hsx hmem hdead
  have hid : id' = id := ht.single id' id call' call pid hcall' hcall
    (PendingCall.inTransit_of_unhooking hunhooking')
    (PendingCall.inTransit_of_unhooking hunhooking)
  rw [hid] at hcall'
  cases hcall.symm.trans hcall'
  cases hunhooking.symm.trans hunhooking'
  exact hx

theorem state_settle (s : CallsInProgress) (id : Nat) (call : PendingCall)
    (x : Pid) :
    (s.settle id (s.reg.critical call).1 (s.reg.critical call).2).reg.state x =
      call.onState x (s.reg.state x) := by
  rw [reg_settle, ParticleRegistry.state_critical]

/-- A section that leaves the links alone. -/
theorem LinksSound.settle_quiet {s : CallsInProgress} (h : LinksSound s)
    {id : Nat} {call : PendingCall} (hcall : s.calls.lookup id = some call)
    (hstate : ∀ x o, (call.onState x o).map (·.links) = o.map (·.links))
    (hkeeps : ∀ x, call.unhooking = some x →
      (s.reg.critical call).2.pending.bind PendingCall.unhooking = some x) :
    LinksSound (s.settle id (s.reg.critical call).1 (s.reg.critical call).2) := by
  refine h.of_same (fun x st' hst' => ?_) (fun x hx => ?_)
    (reaches_settle hcall hkeeps)
  · rw [state_settle] at hst'
    have hlinks := hstate x (s.reg.state x)
    rw [hst', Option.map_some] at hlinks
    obtain ⟨st, hst, heq⟩ := Option.map_eq_some_iff.1 hlinks.symm
    exact ⟨st, hst, heq.symm⟩
  · obtain ⟨st, hst⟩ := ParticleRegistry.alive_iff.1 hx
    have hlinks := hstate x (s.reg.state x)
    rw [hst, Option.map_some] at hlinks
    obtain ⟨st', hst', -⟩ := Option.map_eq_some_iff.1 hlinks
    rw [ParticleRegistry.alive_iff]
    refine ⟨st', ?_⟩
    rw [state_settle, hst, hst']

/-! ## The sections that change links -/

/-- A spawned particle has no links, and nobody is linked to it. -/
theorem LinksSound.spawnState {s : CallsInProgress} (h : LinksSound s)
    (ht : TransitInv s) {id : Nat} {pid : Pid} {name : Option String}
    (hcall : s.calls.lookup id = some (.spawnState pid name)) :
    LinksSound (s.settle id (s.reg.critical (.spawnState pid name)).1
      (s.reg.critical (.spawnState pid name)).2) := by
  have hfresh := unlinked_of_spawning h ht hcall
  have hstate : ∀ x st', (s.settle id (s.reg.critical (.spawnState pid name)).1
      (s.reg.critical (.spawnState pid name)).2).reg.state x = some st' →
      x = pid ∧ st' = .new ∨ x ≠ pid ∧ s.reg.state x = some st' := by
    intro x st' hst'
    rw [state_settle, PendingCall.onState] at hst'
    split at hst'
    · exact .inl ⟨‹_›, (Option.some_inj.1 hst').symm⟩
    · exact .inr ⟨‹_›, hst'⟩
  constructor
  · intro a b sa sb ha hb
    rcases hstate a sa ha with ⟨rfl, rfl⟩ | ⟨-, ha'⟩
    · refine iff_of_false (KeySet.not_mem_empty b) ?_
      rcases hstate b sb hb with ⟨rfl, rfl⟩ | ⟨-, hb'⟩
      · exact KeySet.not_mem_empty _
      · exact hfresh b sb hb'
    · rcases hstate b sb hb with ⟨rfl, rfl⟩ | ⟨-, hb'⟩
      · exact iff_of_false (hfresh a sa ha') (KeySet.not_mem_empty a)
      · exact h.symmetric a b sa sb ha' hb'
  · intro a b sa ha hb hdead
    rcases hstate a sa ha with ⟨rfl, rfl⟩ | ⟨-, ha⟩
    · exact absurd hb (KeySet.not_mem_empty b)
    · have hold : ¬ s.reg.Alive b := by
        intro hlive
        obtain ⟨st, hst⟩ := ParticleRegistry.alive_iff.1 hlive
        refine hdead (ParticleRegistry.alive_iff.2 ?_)
        rw [state_settle, PendingCall.onState]
        split
        · exact ⟨_, rfl⟩
        · exact ⟨st, hst⟩
      obtain ⟨id', call', hcall', hreach⟩ := h.reached a b sa ha hb hold
      exact reaches_settle hcall (fun x hx => by cases hx) id' call' b a hcall' hreach

/-- A particle is removed from the table.  Its peers must be reached, or it
must have none. -/
theorem LinksSound.remove {s : CallsInProgress} (h : LinksSound s) {id : Nat}
    {call : PendingCall} {pid : Pid} (hcall : s.calls.lookup id = some call)
    (hremove : ∀ x o, call.onState x o = if x = pid then none else o)
    (hkeeps : ∀ x, call.unhooking = some x →
      (s.reg.critical call).2.pending.bind PendingCall.unhooking = some x)
    (hreach : ∀ st, s.reg.state pid = some st → ∀ x sx, x ≠ pid →
      s.reg.state x = some sx → pid ∈ sx.links →
      (s.reg.critical call).2.pending.bind PendingCall.unhooking =
        some (pid, st)) :
    LinksSound (s.settle id (s.reg.critical call).1 (s.reg.critical call).2) := by
  have hstate : ∀ x st', (s.settle id (s.reg.critical call).1
      (s.reg.critical call).2).reg.state x = some st' →
      x ≠ pid ∧ s.reg.state x = some st' := by
    intro x st' hst'
    rw [state_settle, hremove] at hst'
    split at hst'
    · cases hst'
    · exact ⟨‹_›, hst'⟩
  constructor
  · intro a b sa sb ha hb
    exact h.symmetric a b sa sb (hstate a sa ha).2 (hstate b sb hb).2
  · intro a b sa ha hb hdead
    obtain ⟨hne, ha⟩ := hstate a sa ha
    by_cases hlive : s.reg.Alive b
    · -- `b` is the particle that was removed, so the call will reach `a`.
      obtain ⟨st, hst⟩ := ParticleRegistry.alive_iff.1 hlive
      have hpid : b = pid := by
        by_contra hbne
        refine hdead (ParticleRegistry.alive_iff.2 ⟨st, ?_⟩)
        rw [state_settle, hremove, if_neg hbne, hst]
      subst hpid
      obtain ⟨next, hnext, hunhooking⟩ :=
        Option.bind_eq_some_iff.1 (hreach st hst a sa hne ha hb)
      refine ⟨id, next, ?_, st, hunhooking, (h.symmetric a b sa st ha hst).1 hb⟩
      rw [lookup_settle, if_pos rfl, hnext]
    · obtain ⟨id', call', hcall', hreached⟩ := h.reached a b sa ha hb hlive
      exact reaches_settle hcall hkeeps id' call' b a hcall' hreached

/-- An exit unhooks its particle from everybody who is linked to it. -/
theorem LinksSound.exitUnhook {s : CallsInProgress} (h : LinksSound s)
    (ht : TransitInv s) {id : Nat} {pid : Pid} {st : ParticleState}
    {reason : ExitReason} {rest : List Pid}
    (hcall : s.calls.lookup id = some (.exitUnhook pid st reason rest)) :
    LinksSound (s.settle id (s.reg.critical (.exitUnhook pid st reason rest)).1
      (s.reg.critical (.exitUnhook pid st reason rest)).2) := by
  have hpeers := mem_links_of_unhooking h ht hcall rfl
  have hdead : ¬ s.reg.Alive pid := ht.dead id _ pid hcall rfl
  have hstate : ∀ x st', (s.settle id
      (s.reg.critical (.exitUnhook pid st reason rest)).1
      (s.reg.critical (.exitUnhook pid st reason rest)).2).reg.state x = some st' →
      ∃ sx, s.reg.state x = some sx ∧ ∀ y, y ∈ st'.links ↔ y ∈ sx.links ∧ y ≠ pid := by
    intro x st' hst'
    rw [state_settle] at hst'
    obtain ⟨sx, hsx, rfl⟩ := Option.map_eq_some_iff.1 hst'
    refine ⟨sx, hsx, fun y => ?_⟩
    rw [unhookFrom]
    dsimp only
    split
    · rw [KeySet.mem_remove, and_comm]
    · rename_i hx
      refine ⟨fun hy => ⟨hy, ?_⟩, And.left⟩
      rintro rfl
      exact hx (hpeers x sx hsx hy)
  constructor
  · intro a b sa' sb' ha hb
    obtain ⟨sa, hsa, hlinksa⟩ := hstate a sa' ha
    obtain ⟨sb, hsb, hlinksb⟩ := hstate b sb' hb
    have hne : ∀ x sx, s.reg.state x = some sx → x ≠ pid := by
      rintro x sx hsx rfl
      exact hdead (ParticleRegistry.alive_iff.2 ⟨sx, hsx⟩)
    rw [hlinksa, hlinksb, h.symmetric a b sa sb hsa hsb]
    exact and_congr_right fun _ => iff_of_true (hne b sb hsb) (hne a sa hsa)
  · intro a b sa' ha hb hgone
    obtain ⟨sa, hsa, hlinks⟩ := hstate a sa' ha
    obtain ⟨hb, hne⟩ := (hlinks b).1 hb
    have hold : ¬ s.reg.Alive b := by
      intro hlive
      obtain ⟨sb, hsb⟩ := ParticleRegistry.alive_iff.1 hlive
      refine hgone (ParticleRegistry.alive_iff.2 ⟨unhookFrom pid st b sb, ?_⟩)
      rw [state_settle, PendingCall.onState, hsb, Option.map_some]
    obtain ⟨id', call', hcall', hreach⟩ := h.reached a b sa hsa hb hold
    have hid : id' ≠ id := by
      rintro rfl
      cases hcall.symm.trans hcall'
      obtain ⟨st', hst', -⟩ := hreach
      cases hst'
      exact hne rfl
    refine ⟨id', call', ?_, hreach⟩
    rw [lookup_settle, if_neg hid, hcall']

/-- Every section keeps the links sound, under the condition. -/
theorem LinksSound.settle {s : CallsInProgress} (h : LinksSound s)
    (ht : TransitInv s) {id : Nat} {call : PendingCall}
    (hcall : s.calls.lookup id = some call) (hok : s.undoOk call) :
    LinksSound (s.settle id (s.reg.critical call).1 (s.reg.critical call).2) := by
  cases call with
  | spawnDraw component name =>
    exact h.settle_quiet hcall (fun _ _ => rfl) fun _ hx => by cases hx
  | spawnEntry pid component name =>
    exact h.settle_quiet hcall (fun _ _ => rfl) fun _ hx => by cases hx
  | spawnState pid name => exact h.spawnState ht hcall
  | spawnBind pid n =>
    exact h.settle_quiet hcall (fun _ _ => rfl) fun _ hx => by cases hx
  | spawnUndoState pid n =>
    refine h.remove hcall (fun _ _ => rfl) (fun _ hx => by cases hx)
      fun st hst x sx hne hsx hmem => ?_
    have halive : s.reg.Alive pid := ParticleRegistry.alive_iff.2 ⟨st, hst⟩
    exact absurd hmem (unlinked_iff.1 (hok halive) x sx hsx hne)
  | spawnUndoEntry pid n =>
    exact h.settle_quiet hcall (fun _ _ => rfl) fun _ hx => by cases hx
  | exitTake pid reason rest =>
    refine h.remove hcall (fun _ _ => rfl) (fun _ hx => by cases hx)
      fun st hst x sx _ _ _ => ?_
    rw [ParticleRegistry.critical, hst]
    rfl
  | exitEntry pid st reason rest =>
    exact h.settle_quiet hcall (fun _ _ => rfl) fun _ hx => hx
  | exitNames pid st reason rest =>
    exact h.settle_quiet hcall (fun _ _ => rfl) fun _ hx => hx
  | exitPublish pid st name reason rest =>
    exact h.settle_quiet hcall (fun _ _ => rfl) fun _ hx => hx
  | exitUnhook pid st reason rest => exact h.exitUnhook ht hcall
  | exitSignal reason sends rest =>
    refine h.settle_quiet hcall (fun x o => ?_) fun _ hx => by cases hx
    cases sends with
    | nil => rfl
    | cons d sends =>
      rw [PendingCall.onState, Option.map_map]
      congr 1
      funext st
      dsimp only [Function.comp_apply]
      split <;> rfl

/-! ## Single actions -/

/-- An action that keeps some links and adds others, at both ends. -/
theorem LinksSound.of_registry {s : CallsInProgress} (h : LinksSound s)
    {reg : ParticleRegistry} {f : Pid → ParticleState → ParticleState}
    {K N : Pid → Pid → Prop}
    (hstate : ∀ x, reg.state x = (s.reg.state x).map (f x))
    (hlinks : ∀ x y st, y ∈ (f x st).links ↔ y ∈ st.links ∧ K x y ∨ N x y)
    (hkept : ∀ x y, K x y ↔ K y x) (hadded : ∀ x y, N x y ↔ N y x)
    (halive : ∀ x y, N x y → s.reg.Alive y) : LinksSound { s with reg } where
  symmetric a b sa' sb' ha hb := by
    obtain ⟨sa, hsa, rfl⟩ := Option.map_eq_some_iff.1 ((hstate a).symm.trans ha)
    obtain ⟨sb, hsb, rfl⟩ := Option.map_eq_some_iff.1 ((hstate b).symm.trans hb)
    rw [hlinks, hlinks, h.symmetric a b sa sb hsa hsb, hkept a b, hadded a b]
  reached a b sa' ha hb hdead := by
    have hold : ¬ s.reg.Alive b := by
      intro hlive
      obtain ⟨sb, hsb⟩ := ParticleRegistry.alive_iff.1 hlive
      refine hdead (ParticleRegistry.alive_iff.2 ⟨f b sb, ?_⟩)
      rw [hstate, hsb, Option.map_some]
    obtain ⟨sa, hsa, rfl⟩ := Option.map_eq_some_iff.1 ((hstate a).symm.trans ha)
    rcases (hlinks a b sa).1 hb with ⟨hb, -⟩ | hnew
    · exact h.reached a b sa hsa hb hold
    · exact absurd (halive a b hnew) hold

/-- An action that leaves the links alone. -/
theorem LinksSound.of_quiet {s : CallsInProgress} (h : LinksSound s)
    {reg : ParticleRegistry} {f : Pid → ParticleState → ParticleState}
    (hstate : ∀ x, reg.state x = (s.reg.state x).map (f x))
    (hlinks : ∀ x st, (f x st).links = st.links) : LinksSound { s with reg } := by
  refine h.of_registry (K := fun _ _ => True) (N := fun _ _ => False) hstate
    (fun x y st => ?_) (fun _ _ => Iff.rfl) (fun _ _ => Iff.rfl) nofun
  rw [hlinks, and_true, or_false]

/-- The state of one particle is rewritten, and its links stay. -/
theorem LinksSound.modifyState {s : CallsInProgress} (h : LinksSound s) (pid : Pid)
    {f : ParticleState → ParticleState} (hlinks : ∀ st, (f st).links = st.links) :
    LinksSound { s with reg := s.reg.modifyState pid f } := by
  refine h.of_quiet (f := fun x st => if x = pid then f st else st) (fun x => ?_)
    fun x st => ?_
  · rw [ParticleRegistry.state_modifyState]
    cases s.reg.state x <;> split <;> rfl
  · split
    · exact hlinks st
    · rfl

/-- No action on the registry makes a link unsound. -/
theorem LinksSound.onRegistry {s : CallsInProgress} (h : LinksSound s)
    {a : LocalAction} (hlocal : a.isLocal = true) :
    LinksSound { s with reg := a.onRegistry s.reg } := by
  have hsame : ∀ reg : ParticleRegistry, (∀ x, reg.state x = s.reg.state x) →
      LinksSound { s with reg } := by
    intro reg hstate
    exact h.of_quiet (f := fun _ st => st) (fun x => by rw [hstate, Option.map_id'])
      fun _ _ => rfl
  cases a with
  | unlink a b =>
    refine h.of_registry (s.reg.state_unlink a b)
      (K := fun x y => ¬ (x = a ∧ y = b) ∧ ¬ (x = b ∧ y = a))
      (N := fun _ _ => False) (fun x y st => ?_) (fun x y => ?_)
      (fun _ _ => Iff.rfl) nofun
    · rw [ParticleRegistry.mem_withoutLink, or_false]
    · rw [and_comm, and_comm (a := x = a), and_comm (a := x = b)]
  | monitorWithRef watcher target refId =>
    exact h.of_quiet (fun x => s.reg.state_monitorWithRef watcher target x refId)
      fun _ _ => rfl
  | demonitor watcher refId =>
    exact h.of_quiet (fun x => s.reg.state_demonitor watcher x refId) fun _ _ => rfl
  | call a =>
    cases a with
    | register pid name => exact hsame _ (s.reg.state_registerName pid name)
    | unregister pid name => exact hsame _ (s.reg.state_unregisterName pid name)
    | beginSpawn | beginExit | advance => exact h
    | atomic op =>
      cases op with
      | registerComponent component => exact hsame _ fun _ => rfl
      | setTrapExit pid enabled => exact h.modifyState pid fun _ => rfl
      | deliverExit target source reason => exact h.modifyState target fun _ => rfl
      | deliverDown target source refId reason =>
        exact h.modifyState target fun _ => rfl
      | linkRemote | unlinkRemote | monitorRemote | forgetNode => cases hlocal
      | link a b =>
        show LinksSound { s with reg := (s.reg.link a b).1 }
        by_cases ha : s.reg.Alive a
        swap
        · exact hsame _ fun x => by rw [ParticleRegistry.link, if_pos ha]
        by_cases hb : s.reg.Alive b
        swap
        · exact hsame _ fun x => by
            rw [ParticleRegistry.link, if_neg (not_not.2 ha), if_pos hb]
        refine h.of_registry (ParticleRegistry.state_link ha hb)
          (K := fun _ _ => True) (N := fun x y => x = a ∧ y = b ∨ x = b ∧ y = a)
          (fun x y st => ?_) (fun _ _ => Iff.rfl) (fun x y => ?_) ?_
        · rw [ParticleRegistry.mem_withLink, and_true]
        · rw [or_comm, and_comm (a := x = a), and_comm (a := x = b)]
        · rintro x y (⟨-, rfl⟩ | ⟨-, rfl⟩)
          · exact hb
          · exact ha

/-! ## Runs -/

theorem linksSound_idle (node : EndpointId) : LinksSound (idle (.new node)) where
  symmetric _ _ _ _ ha := by cases ha
  reached _ _ _ ha := by cases ha

theorem LinksSound.localStep {s t : CallsInProgress} {a : LocalAction}
    (h : LinksSound s) (ht : TransitInv s) (hok : s.UndoesUnlinked a)
    (hstep : s.localStep a = some t) : LinksSound t := by
  obtain ⟨id, call, rfl, hcall, rfl⟩ | ⟨id, call, -, hnew, rfl⟩ | ⟨-, hlocal, rfl⟩ :=
    localStep_cases hstep
  · exact h.settle ht hcall (hok call hcall)
  · refine h.of_same (fun x st hst => ⟨st, hst, rfl⟩) (fun _ hx => hx) ?_
    intro id' call' b a hcall' hreach
    refine ⟨id', call', ?_, hreach⟩
    show (s.calls.insert id call).lookup id' = some call'
    rw [Table.lookup_insert_eq, if_neg, hcall']
    rintro rfl
    rw [hnew] at hcall'
    cases hcall'
  · exact h.onRegistry hlocal

/-- With no exit in progress, every link leads to a live particle. -/
theorem LinksSound.alive_of_settled {s : CallsInProgress} (h : LinksSound s)
    (hsettled : ∀ id call, s.calls.lookup id = some call → call.unhooking = none)
    {a b : Pid} {sa : ParticleState} (ha : s.reg.state a = some sa)
    (hb : b ∈ sa.links) : s.reg.Alive b := by
  by_contra hdead
  obtain ⟨id, call, hcall, st, hunhooking, -⟩ := h.reached a b sa ha hb hdead
  rw [hsettled id call hcall] at hunhooking
  cases hunhooking

structure LinksInv (s : CallsInProgress) : Prop where
  sound : LinksSound s
  transit : TransitInv s

theorem LinksInv.localStep {s t : CallsInProgress} {a : LocalAction}
    (h : LinksInv s) (hok : s.UndoesUnlinked a) (hstep : s.localStep a = some t) :
    LinksInv t :=
  ⟨h.sound.localStep h.transit hok hstep, h.transit.localStep hok.counts hstep⟩

/-- In every run that takes back no particle with a link, the links are
sound. -/
theorem links_symmetric (node : EndpointId) {s : CallsInProgress}
    (h : Run CallsInProgress.localStep UndoesUnlinked (idle (.new node)) s) :
    LinksSound s ∧
      ((∀ id call, s.calls.lookup id = some call → call.unhooking = none) →
        ∀ a b sa, s.reg.state a = some sa → b ∈ sa.links → s.reg.Alive b) := by
  have hinv : LinksInv s :=
    h.invariant (fun hinv hok hstep => hinv.localStep hok hstep)
      ⟨linksSound_idle node, transitInv_idle node⟩
  exact ⟨hinv.sound, fun hsettled a b sa => hinv.sound.alive_of_settled hsettled⟩

/-- Two particles. -/
def spawnTwo : List LocalAction :=
  ([.atomic (.registerComponent "worker"), .beginSpawn 0 "worker" none,
    .advance 0, .advance 0, .advance 0, .beginSpawn 0 "worker" none,
    .advance 0, .advance 0, .advance 0] : List CallAction).map .call

/-- They are linked, one is being removed, and the other is still linked to
it. -/
theorem links_symmetric_exiting :
    ∃ s, Run CallsInProgress.localStep UndoesUnlinked (idle (.new ⟨1⟩)) s ∧
      ((s.reg.state ⟨⟨1⟩, 2⟩).any fun st => ⟨⟨1⟩, 1⟩ ∈ st.links) = true ∧
      ¬ s.reg.Alive ⟨⟨1⟩, 1⟩ ∧ LinksSound s := by
  obtain ⟨s, h, hlinked, hdead⟩ : ∃ s,
      Run CallsInProgress.localStep UndoesUnlinked (idle (.new ⟨1⟩)) s ∧
        ((s.reg.state ⟨⟨1⟩, 2⟩).any fun st => ⟨⟨1⟩, 1⟩ ∈ st.links) = true ∧
        ¬ s.reg.Alive ⟨⟨1⟩, 1⟩ :=
    exec_run_of_any (α := LocalAction) (spawnTwo ++
      [.call (.atomic (.link ⟨⟨1⟩, 1⟩ ⟨⟨1⟩, 2⟩)),
        .call (.beginExit 0 ⟨⟨1⟩, 1⟩ .kill), .call (.advance 0)])
      (by decide +kernel)
  exact ⟨s, h, hlinked, hdead, (links_symmetric ⟨1⟩ h).1⟩

/-- The first particle links to the third one before the spawn of that one
finds its name taken. -/
theorem link_outlives_undone_spawn :
    ∃ s, Run CallsInProgress.localStep anyStep (idle (.new ⟨1⟩)) s ∧
      s.calls.keys = [] ∧
      ((s.reg.state ⟨⟨1⟩, 1⟩).any fun st => ⟨⟨1⟩, 3⟩ ∈ st.links) = true ∧
      ¬ s.reg.Alive ⟨⟨1⟩, 3⟩ ∧ ¬ LinksSound s := by
  obtain ⟨s, h, hcalls, hlinked, hdead⟩ : ∃ s,
      Run CallsInProgress.localStep anyStep (idle (.new ⟨1⟩)) s ∧
        s.calls.keys = [] ∧
        ((s.reg.state ⟨⟨1⟩, 1⟩).any fun st => ⟨⟨1⟩, 3⟩ ∈ st.links) = true ∧
        ¬ s.reg.Alive ⟨⟨1⟩, 3⟩ :=
    exec_run_of_any (α := LocalAction) (spawnTwo ++
      ([.beginSpawn 0 "worker" (some "db"), .advance 0, .advance 0, .advance 0,
        .register ⟨⟨1⟩, 2⟩ "db", .atomic (.link ⟨⟨1⟩, 1⟩ ⟨⟨1⟩, 3⟩), .advance 0,
        .advance 0, .advance 0] : List CallAction).map .call)
      (by decide +kernel)
  refine ⟨s, h, hcalls, hlinked, hdead, fun hsound => ?_⟩
  obtain ⟨st, hst, hlink⟩ := (Option.any_eq_true _ _).1 hlinked
  obtain ⟨id, call, hcall, -⟩ :=
    hsound.reached _ _ st hst (of_decide_eq_true hlink) hdead
  exact lookup_ne_of_idle hcalls id call hcall

end CallsInProgress

end Plasmoid
