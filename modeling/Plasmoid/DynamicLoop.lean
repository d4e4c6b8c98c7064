import Plasmoid.SubtreeDrain

/-!
# The loop of a dynamic supervisor

The policy of a pool holds the ids that are in use, and the loop holds the
instances that are running.  Commands, start failures, exits and overdue kills
each change one of the two tables or both.  They agree as long as every start
succeeds and no deadline is handled under an id that is in use again.
-/

namespace Plasmoid

open Machine ParticleRegistry

/-! ## Commands -/

inductive SupervisorOp where
  | startChild (spec : ChildSpec)
  | terminateChild (id : String)

/-- What a dynamic supervisor accepts on its mailbox. -/
structure SupervisorCommand where
  /-- The caller's pid, as a string. -/
  replyTo : String
  op : SupervisorOp

inductive SupervisorReply where
  | started (id : String)
  | terminated
  | refused (text : String)

/-- The encoding of commands and replies, and the text of an error. -/
structure CommandCodec where
  decode : List UInt8 → Except String SupervisorCommand
  encode : SupervisorReply → List UInt8
  debug : StartChildError → String

/-- Serve a command: the actions it asks for, and the reply. -/
def DynamicSupervisor.serve (sup : DynamicSupervisor) (codec : CommandCodec) :
    SupervisorOp → DynamicSupervisor × List Action × SupervisorReply
  | .startChild spec =>
    match sup.startChild spec with
    | (sup, .ok action) => (sup, [action], .started spec.id)
    | (sup, .error e) => (sup, [], .refused (codec.debug e))
  | .terminateChild id =>
    match sup.terminateChild id with
    | (sup, some action) => (sup, [action], .terminated)
    | (sup, none) => (sup, [], .refused s!"no child {id}")

/-- The policy of `run_dynamic_supervisor!`.  It does not hear of a child that
does not start. -/
def dynamicPolicy (codec : CommandCodec) : Policy DynamicSupervisor where
  startFailed sup _ _ := (sup, [])
  childExited sup id reason nowMs := sup.onChildExit id reason nowMs
  tagged sup payload :=
    match codec.decode payload with
    | .ok command =>
      let (sup, actions, reply) := sup.serve codec command.op
      (sup, actions, some (command.replyTo, codec.encode reply))
    | .error _ => (sup, [], none)

/-- `run_dynamic_supervisor!`, before the loop is entered. -/
def runDynamicSupervisor (node : EndpointId) (flags : SupFlags) :
    SupervisorLoop DynamicSupervisor :=
  .start node (.new flags, [])

/-! ## What the policy of a pool does -/

namespace DynamicSupervisor

variable {sup : DynamicSupervisor} {id : String}

theorem contains_iff :
    sup.contains id = true ↔ ∃ spec ∈ sup.children, spec.id = id := by
  simp [contains]

theorem id_ne_of_mem_eraseP {children : List ChildSpec} {spec : ChildSpec}
    (hids : (children.map (·.id)).Nodup)
    (h : spec ∈ children.eraseP fun c => c.id = id) : spec.id ≠ id := by
  induction children with
  | nil => exact absurd h List.not_mem_nil
  | cons c children ih =>
    rw [List.map_cons, List.nodup_cons] at hids
    by_cases hc : c.id = id
    · rw [List.eraseP_cons_of_pos (by simpa using hc)] at h
      rintro rfl
      exact hids.1 (hc ▸ List.mem_map_of_mem h)
    · rw [List.eraseP_cons_of_neg (by simpa using hc)] at h
      rcases List.mem_cons.1 h with rfl | h
      · exact hc
      · exact ih hids.2 h

/-- What the policy does about an exit. -/
theorem onChildExit_cases (sup : DynamicSupervisor) (id : String)
    (reason : ExitReason) (nowMs : UInt64) :
    ((∀ spec ∈ sup.children, spec.id ≠ id) ∧
      sup.onChildExit id reason nowMs = (sup, [])) ∨
    ∃ spec ∈ sup.children, spec.id = id ∧
      (sup.onChildExit id reason nowMs = ({ sup with
          children := sup.children.eraseP fun c => c.id = id }, []) ∨
        ∃ restarts,
          sup.onChildExit id reason nowMs =
              ({ sup with restarts }, [.start spec]) ∨
            sup.onChildExit id reason nowMs =
              ({ sup with restarts, children := [] },
                sup.children.map (fun c => .stop c.id c.shutdown) ++
                  [.giveUp])) := by
  unfold onChildExit
  cases hfind : sup.children.find? fun c => c.id = id with
  | none =>
    refine .inl ⟨fun spec hspec hid => ?_, rfl⟩
    have hno := List.find?_eq_none.1 hfind spec hspec
    simp [hid] at hno
  | some spec =>
    refine .inr ⟨spec, List.mem_of_find?_eq_some hfind,
      by simpa using List.find?_some hfind, ?_⟩
    dsimp only
    split
    · exact .inl rfl
    · right
      split
      · exact ⟨_, .inr rfl⟩
      · exact ⟨_, .inl rfl⟩

/-- What the policy does about a command: nothing, or it takes a child in, or
it lets one go. -/
theorem serve_cases (sup : DynamicSupervisor) (codec : CommandCodec)
    (op : SupervisorOp) :
    (∃ reply, sup.serve codec op = (sup, [], reply)) ∨
    (∃ spec reply, (∀ other ∈ sup.children, other.id ≠ spec.id) ∧
      sup.serve codec op = ({ sup with children := sup.children ++ [spec] },
        [.start spec], reply)) ∨
    ∃ spec ∈ sup.children, ∃ reply,
      sup.serve codec op = ({ sup with
          children := sup.children.eraseP fun c => c.id = spec.id },
        [.stop spec.id spec.shutdown], reply) := by
  cases op with
  | startChild spec =>
    rw [serve, startChild]
    by_cases hcontains : sup.contains spec.id = true
    · rw [if_pos hcontains]
      exact .inl ⟨_, rfl⟩
    · rw [if_neg hcontains]
      refine .inr (.inl ⟨spec, _, fun other hother hid => ?_, rfl⟩)
      exact hcontains (contains_iff.2 ⟨other, hother, hid⟩)
  | terminateChild id =>
    rw [serve, terminateChild]
    cases hfind : sup.children.find? fun c => c.id = id with
    | none => exact .inl ⟨_, rfl⟩
    | some spec =>
      obtain rfl : spec.id = id := by simpa using List.find?_some hfind
      exact .inr (.inr ⟨spec, List.mem_of_find?_eq_some hfind, _, rfl⟩)

/-- What waits, against what the policy holds and which children are known to
be running: a child that is about to be started is the only one that may not
be, and no child that is held is about to be stopped. -/
inductive Waits (known : String → Prop) (children : List ChildSpec)
    (actions : List Action) : Prop where
  | starting (spec : ChildSpec) (waiting : actions = [.start spec])
      (held : spec ∈ children)
      (others : ∀ other ∈ children, other.id ≠ spec.id → known other.id)
  | settled (starts : ∀ spec, .start spec ∉ actions)
      (stops : ∀ id shutdown, .stop id shutdown ∈ actions →
        ∀ spec ∈ children, spec.id ≠ id)
      (all : ∀ spec ∈ children, known spec.id)

variable {known : String → Prop} {children : List ChildSpec}

theorem Waits.nothing (h : ∀ spec ∈ children, known spec.id) :
    Waits known children [] :=
  .settled (fun _ hmem => absurd hmem List.not_mem_nil)
    (fun _ _ hmem => absurd hmem List.not_mem_nil) h

theorem Waits.all_of_nil (h : Waits known children []) :
    ∀ spec ∈ children, known spec.id := by
  cases h with
  | starting spec waiting => cases waiting
  | settled starts stops all => exact all

/-- What the policy returns for the exit of a child, when all others are
running. -/
theorem waits_onChildExit (hids : (sup.children.map (·.id)).Nodup)
    (hothers : ∀ spec ∈ sup.children, spec.id ≠ id → known spec.id)
    (reason : ExitReason) (nowMs : UInt64) :
    Waits known (sup.onChildExit id reason nowMs).1.children
        (sup.onChildExit id reason nowMs).2 ∧
      ((sup.onChildExit id reason nowMs).1.children.map (·.id)).Nodup := by
  obtain ⟨hnone, heq⟩ | ⟨spec, hspec, rfl, heq | ⟨restarts, heq | heq⟩⟩ :=
    sup.onChildExit_cases id reason nowMs
  · rw [heq]
    exact ⟨.nothing fun spec hspec => hothers spec hspec (hnone spec hspec), hids⟩
  · rw [heq]
    refine ⟨.nothing fun other hother => ?_,
      hids.sublist (List.eraseP_sublist.map _)⟩
    exact hothers other (List.mem_of_mem_eraseP hother)
      (id_ne_of_mem_eraseP hids hother)
  · rw [heq]
    exact ⟨.starting spec rfl hspec hothers, hids⟩
  · rw [heq]
    refine ⟨.settled ?_ ?_ ?_, List.nodup_nil⟩
    · simp
    · intro id shutdown _ other hother
      exact absurd hother List.not_mem_nil
    · intro other hother
      exact absurd hother List.not_mem_nil

/-- What the policy returns for a command, when all children are running. -/
theorem waits_serve (codec : CommandCodec)
    (hids : (sup.children.map (·.id)).Nodup)
    (hall : ∀ spec ∈ sup.children, known spec.id) (op : SupervisorOp) :
    Waits known (sup.serve codec op).1.children (sup.serve codec op).2.1 ∧
      ((sup.serve codec op).1.children.map (·.id)).Nodup := by
  obtain ⟨reply, heq⟩ | ⟨spec, reply, hnew, heq⟩ | ⟨spec, hspec, reply, heq⟩ :=
    sup.serve_cases codec op
  · rw [heq]
    exact ⟨.nothing hall, hids⟩
  · rw [heq]
    refine ⟨.starting spec rfl (by simp) fun other hother hne => ?_, ?_⟩
    · rcases List.mem_append.1 hother with hother | hother
      · exact hall other hother
      · exact absurd (congrArg ChildSpec.id (List.mem_singleton.1 hother)) hne
    · rw [List.map_append]
      refine hids.append (List.nodup_singleton _) ?_
      intro id hid hspec
      obtain ⟨other, hother, rfl⟩ := List.mem_map.1 hid
      exact hnew other hother (List.mem_singleton.1 hspec)
  · rw [heq]
    refine ⟨.settled ?_ ?_ ?_, hids.sublist (List.eraseP_sublist.map _)⟩
    · simp
    · intro id shutdown hstop other hother
      obtain ⟨rfl, -⟩ : id = spec.id ∧ shutdown = spec.shutdown := by
        simpa using hstop
      exact id_ne_of_mem_eraseP hids hother
    · intro other hother
      exact hall other (List.mem_of_mem_eraseP hother)

end DynamicSupervisor

/-! ## The instances that the loop knows -/

namespace SupervisorLoop

section Standing

variable {σ : Type} {P : Policy σ} {me : Pid} {s t : SupervisorLoop σ}

/-- Every child has one entry, and it is for an instance that the loop neither
killed nor heard of as gone. -/
structure Standing (s : SupervisorLoop σ) : Prop where
  liveNodup : (s.live.map (·.id)).Nodup
  counted : ∀ c ∈ s.live, c.nth < s.started.length
  endedCounted : ∀ c ∈ s.ended, c.nth < s.started.length
  unended : ∀ c ∈ s.live, c ∉ s.ended

theorem standing_start (node : EndpointId) (init : σ × List Action) :
    Standing (start node init) where
  liveNodup := List.nodup_nil
  counted _ hc := absurd hc List.not_mem_nil
  endedCounted _ hc := absurd hc List.not_mem_nil
  unended _ hc := absurd hc List.not_mem_nil

theorem Standing.keep (h : Standing s) (hlive : t.live = s.live)
    (hstarted : t.started = s.started) (hended : t.ended = s.ended) :
    Standing t where
  liveNodup := by
    rw [hlive]
    exact h.liveNodup
  counted := by
    rw [hlive, hstarted]
    exact h.counted
  endedCounted := by
    rw [hended, hstarted]
    exact h.endedCounted
  unended := by
    rw [hlive, hended]
    exact h.unended

/-- An instance is dropped when it ends. -/
theorem Standing.drop (h : Standing s) {child : Child} (hchild : child ∈ s.live)
    (hlive : t.live = s.dropLive child.id)
    (hstarted : t.started = s.started) (hended : t.ended = s.ended ++ [child]) :
    Standing t where
  liveNodup := by
    rw [hlive]
    exact nodup_dropLive h.liveNodup child.id
  counted c hc := by
    rw [hlive] at hc
    rw [hstarted]
    exact h.counted c (mem_dropLive.1 hc).1
  endedCounted c hc := by
    rw [hended] at hc
    rw [hstarted]
    rcases List.mem_append.1 hc with hc | hc
    · exact h.endedCounted c hc
    · rw [List.mem_singleton.1 hc]
      exact h.counted child hchild
  unended c hc hmem := by
    rw [hlive] at hc
    rw [hended] at hmem
    obtain ⟨hc, hid⟩ := mem_dropLive.1 hc
    rcases List.mem_append.1 hmem with hmem | hmem
    · exact h.unended c hc hmem
    · exact hid (congrArg Child.id (List.mem_singleton.1 hmem))

/-- A new instance takes the place of the one before it. -/
theorem Standing.add (h : Standing s) {child : Child}
    (hnth : child.nth = s.started.length)
    (hlive : t.live = s.dropLive child.id ++ [child])
    (hstarted : t.started = s.started ++ [child])
    (hended : t.ended = s.ended) : Standing t where
  liveNodup := by
    rw [hlive]
    exact nodup_replace h.liveNodup child
  counted c hc := by
    rw [hlive] at hc
    rw [hstarted, List.length_append]
    rcases List.mem_append.1 hc with hc | hc
    · exact Nat.lt_add_right _ (h.counted c (mem_dropLive.1 hc).1)
    · rw [List.mem_singleton.1 hc, hnth]
      exact Nat.lt_succ_self _
  endedCounted c hc := by
    rw [hended] at hc
    rw [hstarted, List.length_append]
    exact Nat.lt_add_right _ (h.endedCounted c hc)
  unended c hc hmem := by
    rw [hlive] at hc
    rw [hended] at hmem
    rcases List.mem_append.1 hc with hc | hc
    · exact h.unended c (mem_dropLive.1 hc).1 hmem
    · have hlt := h.endedCounted c hmem
      rw [List.mem_singleton.1 hc, hnth] at hlt
      exact lt_irrefl _ hlt

theorem Standing.step (h : Standing s) {a : LoopAction}
    (hstep : s.step P me a = some t) : Standing t := by
  obtain ⟨ctx, action, rest, rfl, -, -, rfl⟩ | ⟨msg, wake, rfl, -, -, rfl⟩ |
    ⟨wake, rfl, -, rfl⟩ | ⟨d, rest, rfl, -, rfl⟩ | ⟨hquiet, -⟩ :=
    step_cases hstep
  · cases action with
    | start spec =>
      show Standing (SupervisorLoop.performStart P me ctx _ spec)
      unfold performStart
      obtain ⟨-, reg, heq, -⟩ | ⟨-, reg, e, heq, -⟩ :=
        hostSpawnLink_cases s.reg me ctx (spawnArgs spec) rfl
      · rw [heq]
        exact h.add rfl rfl rfl rfl
      · rw [heq]
        exact h.keep rfl rfl rfl
    | stop id shutdown =>
      show Standing (SupervisorLoop.performStop me _ id shutdown)
      unfold performStop
      split
      · exact h.keep rfl rfl rfl
      · rename_i child hfind
        obtain ⟨hmem, rfl⟩ := find_some hfind
        cases shutdown with
        | brutalKill => exact h.drop hmem rfl rfl rfl
        | timeout ms => exact h.keep rfl rfl rfl
        | infinity => exact h.keep rfl rfl rfl
    | giveUp => exact h.keep rfl rfl rfl
  · cases msg with
    | exit sender reason =>
      show Standing (SupervisorLoop.handleExit P _ sender reason)
      unfold handleExit
      split
      · exact h.keep rfl rfl rfl
      · rename_i child hfind
        exact h.drop (List.mem_of_find?_eq_some hfind) rfl rfl rfl
    | tagged refId payload => exact h.keep rfl rfl rfl
    | data payload | down source refId reason | spawnReply refId outcome =>
      exact h.keep rfl rfl rfl
  · exact h.keep rfl rfl rfl
  · unfold reapOne
    split
    · exact h.keep rfl rfl rfl
    · rename_i child hfind
      obtain ⟨hmem, hid⟩ := find_some hfind
      refine h.drop hmem ?_ rfl rfl
      rw [hid]
      rfl
  · exact h.keep hquiet.live hquiet.started hquiet.ended

end Standing

/-! ## The two tables -/

/-- When nothing is left to do, every id that the policy holds has one entry,
and that entry is for an instance that the loop neither killed nor heard of as
gone. -/
def Agrees (s : SupervisorLoop DynamicSupervisor) : Prop :=
  s.waiting = [] → ∀ spec ∈ s.sup.children,
    (s.live.filter fun c => c.id = spec.id).length = 1 ∧
      ∀ c ∈ s.live, c.id = spec.id → c ∉ s.ended

instance (s : SupervisorLoop DynamicSupervisor) : Decidable s.Agrees :=
  inferInstanceAs (Decidable (_ → _))

/-- No child without an entry fails to start, and no deadline is handled for a
child that the policy holds. -/
def keepsPace (s : SupervisorLoop DynamicSupervisor) : LoopAction → Bool
  | .act ctx =>
    match s.batch with
    | .start spec :: _ =>
      s.reg.Spawnable ctx (spawnArgs spec) ∨ (s.find spec.id).isSome
    | _ => true
  | .reap =>
    match s.phase with
    | .reaping (d :: _) => (s.find d.id).isSome → ¬ s.sup.contains d.id
    | _ => true
  | _ => true

/-- The loop has an entry for the child. -/
def Knows (s : SupervisorLoop DynamicSupervisor) (id : String) : Prop :=
  ∃ c ∈ s.live, c.id = id

structure Corresponds (s : SupervisorLoop DynamicSupervisor) : Prop where
  standing : s.Standing
  childNodup : (s.sup.children.map (·.id)).Nodup
  waits : DynamicSupervisor.Waits s.Knows s.sup.children s.waiting
  idle : s.phase.parked = true → s.waiting = []

theorem corresponds_start (node : EndpointId) (flags : SupFlags) :
    Corresponds (runDynamicSupervisor node flags) where
  standing := standing_start node _
  childNodup := List.nodup_nil
  waits := .nothing fun _ h => absurd h List.not_mem_nil
  idle := nofun

section Pool

variable {codec : CommandCodec} {me : Pid}
  {s t : SupervisorLoop DynamicSupervisor}

theorem Corresponds.known (h : Corresponds s) (hwaiting : s.waiting = []) :
    ∀ spec ∈ s.sup.children, s.Knows spec.id := by
  have hwaits := h.waits
  rw [hwaiting] at hwaits
  exact hwaits.all_of_nil

theorem Corresponds.agrees (h : Corresponds s) : s.Agrees := by
  intro hwaiting spec hspec
  obtain ⟨c, hc, hid⟩ := h.known hwaiting spec hspec
  refine ⟨?_, fun c hc _ => h.standing.unended c hc⟩
  rw [← List.countP_eq_length_filter]
  have hcount : (s.live.map (·.id)).count spec.id = 1 :=
    List.count_eq_one_of_mem h.standing.liveNodup (hid ▸ List.mem_map_of_mem hc)
  rw [List.count, List.countP_map] at hcount
  rw [← hcount]
  apply List.countP_congr
  simp

theorem not_agrees_of_unknown (hwaiting : s.waiting = []) {spec : ChildSpec}
    (hspec : spec ∈ s.sup.children) (hunknown : ¬ s.Knows spec.id) :
    ¬ s.Agrees := by
  intro hagrees
  obtain ⟨c, hc⟩ := List.length_eq_one_iff.1 (hagrees hwaiting spec hspec).1
  have hmem : c ∈ s.live.filter fun c => c.id = spec.id := by
    rw [hc]
    exact List.mem_singleton_self c
  rw [List.mem_filter] at hmem
  exact hunknown ⟨c, hmem.1, of_decide_eq_true hmem.2⟩

theorem Knows.of_subset {id : String} (h : s.Knows id)
    (hlive : ∀ c ∈ s.live, c.id = id → c ∈ t.live) : t.Knows id := by
  obtain ⟨c, hc, hid⟩ := h
  exact ⟨c, hlive c hc hid, hid⟩

/-- An entry stands for another child than the one whose entry is dropped. -/
theorem Knows.of_drop {id dropped : String} (h : s.Knows id) (hne : id ≠ dropped) :
    ∃ c ∈ s.dropLive dropped, c.id = id := by
  obtain ⟨c, hc, hid⟩ := h
  exact ⟨c, mem_dropLive.2 ⟨hc, fun h => hne (hid.symm.trans h)⟩, hid⟩

/-- While a start waits, nothing else does. -/
theorem Corresponds.starting (h : Corresponds s) {spec : ChildSpec}
    {rest : List Action} (hbatch : s.batch = .start spec :: rest) :
    rest ++ s.queue = [] ∧ spec ∈ s.sup.children ∧
      ∀ other ∈ s.sup.children, other.id ≠ spec.id → s.Knows other.id := by
  have hwaits := h.waits
  rw [waiting, hbatch, List.cons_append] at hwaits
  cases hwaits with
  | settled starts => exact absurd List.mem_cons_self (starts spec)
  | starting spec' waiting held others =>
    obtain ⟨hspec, hrest⟩ := List.cons.inj waiting
    obtain rfl : spec = spec' := by simpa using hspec
    exact ⟨hrest, held, others⟩

/-- A start that succeeds, or that the old entry makes up for. -/
theorem Corresponds.performStart (codec : CommandCodec) (h : Corresponds s)
    {spec : ChildSpec} {rest : List Action} {ctx : SpawnContext}
    (hbatch : s.batch = .start spec :: rest)
    (hok : s.reg.Spawnable ctx (spawnArgs spec) ∨
      (s.find spec.id).isSome = true) (t : SupervisorLoop DynamicSupervisor)
    (ht : t = { s with batch := rest }.performStart (dynamicPolicy codec) me
      ctx spec) :
    t.sup = s.sup ∧ t.waiting = [] ∧ ∀ spec ∈ s.sup.children, t.Knows spec.id := by
  obtain ⟨hrest, -, hothers⟩ := h.starting hbatch
  unfold SupervisorLoop.performStart at ht
  obtain ⟨-, reg, heq, -⟩ | ⟨hspawn, reg, e, heq, -⟩ :=
    hostSpawnLink_cases s.reg me ctx (spawnArgs spec) rfl
  · rw [heq] at ht
    subst ht
    refine ⟨rfl, hrest, fun other hother => ?_⟩
    by_cases hid : other.id = spec.id
    · exact ⟨_, List.mem_append_right _ (List.mem_singleton_self _), hid.symm⟩
    · obtain ⟨c, hc, hcid⟩ := (hothers other hother hid).of_drop hid
      exact ⟨c, List.mem_append_left _ hc, hcid⟩
  · rw [heq] at ht
    subst ht
    refine ⟨rfl, ?_, fun other hother => ?_⟩
    · show rest ++ (s.queue ++ []) = []
      rw [List.append_nil, hrest]
    · by_cases hid : other.id = spec.id
      · obtain ⟨c, hc⟩ := Option.isSome_iff_exists.1 (hok.resolve_left hspawn)
        obtain ⟨hmem, hcid⟩ := find_some hc
        exact ⟨c, hmem, hcid.trans hid.symm⟩
      · exact hothers other hother hid

/-- A stop: only the entry of the child that is stopped goes. -/
theorem mem_live_performStop {id : String} {shutdown : Shutdown} {c : Child}
    (hc : c ∈ s.live) (hid : c.id ≠ id) :
    c ∈ (s.performStop me id shutdown).live := by
  unfold performStop
  split
  · exact hc
  · cases shutdown with
    | brutalKill => exact mem_dropLive.2 ⟨hc, hid⟩
    | timeout ms => exact hc
    | infinity => exact hc

theorem sup_performStop (s : SupervisorLoop DynamicSupervisor) (id : String)
    (shutdown : Shutdown) : (s.performStop me id shutdown).sup = s.sup := by
  unfold performStop
  split
  · rfl
  · cases shutdown <;> rfl

theorem Corresponds.performStop (h : Corresponds s) {id : String}
    {shutdown : Shutdown} {rest : List Action}
    (hbatch : s.batch = .stop id shutdown :: rest) :
    DynamicSupervisor.Waits
      ({ s with batch := rest }.performStop me id shutdown).Knows s.sup.children
      (rest ++ s.queue) := by
  have hwaits := h.waits
  rw [waiting, hbatch, List.cons_append] at hwaits
  cases hwaits with
  | starting spec waiting => cases waiting
  | settled starts stops all =>
    refine .settled (fun spec hmem => starts spec (List.mem_cons_of_mem _ hmem))
      (fun id shutdown hmem => stops id shutdown (List.mem_cons_of_mem _ hmem)) ?_
    intro spec hspec
    have hne := stops id shutdown List.mem_cons_self spec hspec
    refine (all spec hspec).of_subset fun c hc hcid => ?_
    have hc' : c ∈ ({ s with batch := rest } :
        SupervisorLoop DynamicSupervisor).live := hc
    exact mem_live_performStop hc' (hcid ▸ hne)

/-- An exit is taken when nothing waits. -/
theorem Corresponds.handleExit (codec : CommandCodec) (h : Corresponds s)
    (hwaiting : s.waiting = []) {reg : ParticleRegistry} {sender : Pid}
    {reason : ExitReason}
    (t : SupervisorLoop DynamicSupervisor)
    (ht : t = { s with reg := reg, phase := .acting }.handleExit
      (dynamicPolicy codec) sender reason) :
    DynamicSupervisor.Waits t.Knows t.sup.children t.waiting ∧
      (t.sup.children.map (·.id)).Nodup := by
  have hknown := h.known hwaiting
  unfold SupervisorLoop.handleExit at ht
  cases hfind : s.live.find? fun c => c.key = sender.display with
  | none =>
    simp only [hfind] at ht
    subst ht
    exact ⟨h.waits, h.childNodup⟩
  | some child =>
    simp only [hfind] at ht
    have hactions : t.waiting =
        (s.sup.onChildExit child.id reason s.nowMs).2 := by
      obtain ⟨hbatch, hqueue⟩ := List.append_eq_nil_iff.1 hwaiting
      rw [ht]
      show s.batch ++ (s.queue ++ _) = _
      rw [hbatch, hqueue]
      rfl
    rw [hactions, ht]
    exact DynamicSupervisor.waits_onChildExit h.childNodup
      (fun spec hspec hne => (hknown spec hspec).of_drop hne) reason s.nowMs

/-- So is a command. -/
theorem Corresponds.handleTagged (codec : CommandCodec) (h : Corresponds s)
    (hwaiting : s.waiting = []) {reg : ParticleRegistry} {refId : UInt64}
    {payload : List UInt8}
    (t : SupervisorLoop DynamicSupervisor)
    (ht : t = { s with reg := reg, phase := .acting }.handleTagged
      (dynamicPolicy codec) refId payload) :
    DynamicSupervisor.Waits t.Knows t.sup.children t.waiting ∧
      (t.sup.children.map (·.id)).Nodup := by
  have hknown := h.known hwaiting
  obtain ⟨hbatch, hqueue⟩ := List.append_eq_nil_iff.1 hwaiting
  have hlive : t.live = s.live := by rw [ht]; rfl
  have hsup : t.sup = ((dynamicPolicy codec).tagged s.sup payload).1 := by
    rw [ht]
    rfl
  have hactions : t.waiting =
      ((dynamicPolicy codec).tagged s.sup payload).2.1 := by
    rw [ht]
    show s.batch ++ (s.queue ++ _) = _
    rw [hbatch, hqueue]
    rfl
  have hknows : t.Knows = s.Knows := by
    funext id
    rw [Knows, Knows, hlive]
  rw [hsup, hactions, hknows]
  cases hdecode : codec.decode payload with
  | error e =>
    have heq : (dynamicPolicy codec).tagged s.sup payload = (s.sup, [], none) := by
      simp only [dynamicPolicy, hdecode]
    rw [heq]
    exact ⟨.nothing hknown, h.childNodup⟩
  | ok command =>
    have heq : (dynamicPolicy codec).tagged s.sup payload =
        ((s.sup.serve codec command.op).1, (s.sup.serve codec command.op).2.1,
          some (command.replyTo,
            codec.encode (s.sup.serve codec command.op).2.2)) := by
      simp only [dynamicPolicy, hdecode]
    rw [heq]
    exact DynamicSupervisor.waits_serve codec h.childNodup hknown command.op

/-- An overdue child that the policy does not hold is dropped. -/
theorem Corresponds.reapOne (h : Corresponds s) (hwaiting : s.waiting = [])
    {d : Deadline} {rest : List Deadline}
    (hok : (s.find d.id).isSome = true → ¬ s.sup.contains d.id = true)
    (t : SupervisorLoop DynamicSupervisor)
    (ht : t = { s with phase := .reaping rest }.reapOne me d) :
    t.sup = s.sup ∧ t.waiting = [] ∧ ∀ spec ∈ s.sup.children, t.Knows spec.id := by
  have hknown := h.known hwaiting
  unfold SupervisorLoop.reapOne at ht
  rw [show ({ s with phase := .reaping rest } :
    SupervisorLoop DynamicSupervisor).find d.id = s.find d.id from rfl] at ht
  cases hfind : s.find d.id with
  | none =>
    simp only [hfind] at ht
    subst ht
    exact ⟨rfl, hwaiting, hknown⟩
  | some child =>
    simp only [hfind] at ht
    subst ht
    refine ⟨rfl, hwaiting, fun spec hspec => ?_⟩
    refine (hknown spec hspec).of_drop fun hid => ?_
    exact hok (by rw [hfind]; rfl)
      (DynamicSupervisor.contains_iff.2 ⟨spec, hspec, hid⟩)

theorem Corresponds.step (h : Corresponds s) {a : LoopAction}
    (hok : s.keepsPace a = true)
    (hstep : s.step (dynamicPolicy codec) me a = some t) : Corresponds t := by
  have hboth : DynamicSupervisor.Waits t.Knows t.sup.children t.waiting ∧
      (t.sup.children.map (·.id)).Nodup := by
    obtain ⟨ctx, action, rest, rfl, hphase, hbatch, ht⟩ |
      ⟨msg, wake, rfl, hphase, -, ht⟩ | ⟨wake, rfl, hphase, ht⟩ |
      ⟨d, rest, rfl, hphase, ht⟩ | ⟨hquiet, -⟩ := step_cases hstep
    · cases action with
      | start spec =>
        simp only [keepsPace, hbatch, decide_eq_true_eq] at hok
        obtain ⟨hsup, hnothing, hknown⟩ := h.performStart codec hbatch hok t ht
        rw [hsup, hnothing]
        exact ⟨.nothing hknown, h.childNodup⟩
      | stop id shutdown =>
        have hsup : t.sup = s.sup := by
          rw [ht]
          exact sup_performStop _ id shutdown
        have hwaiting : t.waiting = rest ++ s.queue := by
          rw [ht]
          exact (performStop_frame me { s with batch := rest } id
            shutdown).2.2.2
        rw [hsup, hwaiting, ht]
        exact ⟨h.performStop hbatch, h.childNodup⟩
      | giveUp =>
        subst ht
        refine ⟨?_, h.childNodup⟩
        have hwaits := h.waits
        rw [waiting, hbatch, List.cons_append] at hwaits
        cases hwaits with
        | starting spec waiting => cases waiting
        | settled starts stops all =>
          exact .settled
            (fun spec hmem => starts spec (List.mem_cons_of_mem _ hmem))
            (fun id shutdown hmem =>
              stops id shutdown (List.mem_cons_of_mem _ hmem)) all
    · have hwaiting : s.waiting = [] := h.idle (by rw [hphase]; rfl)
      cases msg with
      | exit sender reason => exact h.handleExit codec hwaiting t ht
      | tagged refId payload => exact h.handleTagged codec hwaiting t ht
      | data payload | down source refId reason | spawnReply refId outcome =>
        subst ht
        exact ⟨h.waits, h.childNodup⟩
    · subst ht
      exact ⟨h.waits, h.childNodup⟩
    · have hwaiting : s.waiting = [] := h.idle (by rw [hphase]; rfl)
      simp only [keepsPace, hphase, decide_eq_true_eq] at hok
      obtain ⟨hsup, hnothing, hknown⟩ := h.reapOne hwaiting hok t ht
      rw [hsup, hnothing]
      exact ⟨.nothing hknown, h.childNodup⟩
    · have hknows : t.Knows = s.Knows := by
        funext id
        rw [Knows, Knows, hquiet.live]
      rw [show t.waiting = s.waiting from hquiet.actions, hquiet.sup, hknows]
      exact ⟨h.waits, h.childNodup⟩
  exact ⟨h.standing.step hstep, hboth.2, hboth.1, idle_step hstep h.idle⟩

/-- A child that does not start, and has no entry, stays without one. -/
theorem Corresponds.not_agrees_of_start (codec : CommandCodec)
    (h : Corresponds s) {spec : ChildSpec} {rest : List Action} {ctx : SpawnContext}
    (hbatch : s.batch = .start spec :: rest)
    (hspawn : ¬ s.reg.Spawnable ctx (spawnArgs spec))
    (hfind : (s.find spec.id).isSome = false)
    (ht : t = { s with batch := rest }.performStart (dynamicPolicy codec) me
      ctx spec) : ¬ t.Agrees := by
  obtain ⟨hrest, hheld, -⟩ := h.starting hbatch
  unfold SupervisorLoop.performStart at ht
  obtain ⟨hspawn', -⟩ | ⟨-, reg, e, heq, -⟩ :=
    hostSpawnLink_cases s.reg me ctx (spawnArgs spec) rfl
  · exact absurd hspawn' hspawn
  · rw [heq] at ht
    subst ht
    have hnothing : rest ++ (s.queue ++ []) = [] := by
      rw [List.append_nil, hrest]
    refine not_agrees_of_unknown hnothing hheld ?_
    rintro ⟨c, hc, hid⟩
    have hsome : (s.find spec.id).isSome = true := by
      rw [SupervisorLoop.find, List.find?_isSome]
      exact ⟨c, hc, by simpa using hid⟩
    rw [hfind] at hsome
    cases hsome

/-- A deadline that is handled for a child that the policy holds takes its
entry. -/
theorem not_agrees_of_reap (hwaiting : s.waiting = []) {d : Deadline}
    {rest : List Deadline} (hfind : (s.find d.id).isSome = true)
    (hcontains : s.sup.contains d.id = true)
    (ht : t = { s with phase := .reaping rest }.reapOne me d) : ¬ t.Agrees := by
  obtain ⟨child, hfind⟩ := Option.isSome_iff_exists.1 hfind
  obtain ⟨spec, hspec, hid⟩ := DynamicSupervisor.contains_iff.1 hcontains
  have hsame : ({ s with phase := .reaping rest } :
      SupervisorLoop DynamicSupervisor).find d.id = some child := hfind
  unfold SupervisorLoop.reapOne at ht
  rw [hsame] at ht
  subst ht
  refine not_agrees_of_unknown hwaiting hspec ?_
  rintro ⟨c, hc, hcid⟩
  exact (mem_dropLive.1 hc).2 (hcid.trans hid)

/-- A step that does not keep pace leaves a child without an entry. -/
theorem Corresponds.not_agrees (h : Corresponds s) {a : LoopAction}
    (hbad : s.keepsPace a = false)
    (hstep : s.step (dynamicPolicy codec) me a = some t) : ¬ t.Agrees := by
  cases a with
  | act ctx =>
    cases hbatch : s.batch with
    | nil => simp [keepsPace, hbatch] at hbad
    | cons action rest =>
      rw [step_act (phase_of_act hstep) hbatch, Option.some_inj] at hstep
      cases action with
      | start spec =>
        simp only [keepsPace, hbatch, decide_eq_false_iff_not, not_or,
          Bool.not_eq_true] at hbad
        exact h.not_agrees_of_start codec hbatch hbad.1 hbad.2 hstep.symm
      | stop id shutdown => simp [keepsPace, hbatch] at hbad
      | giveUp => simp [keepsPace, hbatch] at hbad
  | reap =>
    simp only [SupervisorLoop.step] at hstep
    split at hstep
    · rename_i d rest hphase
      simp only [keepsPace, hphase, decide_eq_false_iff_not, Classical.not_imp,
        not_not] at hbad
      rw [Option.some_inj] at hstep
      exact not_agrees_of_reap (h.idle (by rw [hphase]; rfl)) hbad.1 hbad.2
        hstep.symm
    · rename_i hphase
      simp [keepsPace, hphase] at hbad
    · cases hstep
  | enter | drain | park | timeout | tick => cases hbad
  | receive msg => cases hbad
  | world op => cases hbad
  | spawn ctx args => cases hbad
  | send pid payload => cases hbad
  | sendTagged pid refId payload => cases hbad

end Pool

end SupervisorLoop

/-- While every step of a dynamic supervisor keeps pace, its policy and its
loop agree about who is there; the first step that does not ends that. -/
theorem policy_and_loop_agree (codec : CommandCodec) (node : EndpointId)
    (me : Pid) (flags : SupFlags) {s : SupervisorLoop DynamicSupervisor}
    (h : Run (SupervisorLoop.step (dynamicPolicy codec) me)
      (fun s a => s.keepsPace a = true) (runDynamicSupervisor node flags) s) :
    s.Agrees ∧ ∀ a t, s.step (dynamicPolicy codec) me a = some t →
      (t.Agrees ↔ s.keepsPace a = true) := by
  have hinv : s.Corresponds := h.invariant
    (fun hs hok hstep => hs.step hok hstep)
    (SupervisorLoop.corresponds_start node flags)
  refine ⟨hinv.agrees, fun a t hstep => ⟨fun hagrees => ?_, fun hok => ?_⟩⟩
  · by_contra hbad
    exact hinv.not_agrees (Bool.eq_false_iff.2 hbad) hstep hagrees
  · exact (hinv.step hok hstep).agrees

/-- A command to start a child of the given component under the id `a`, as it
is encoded. -/
def startCommand (component : String) : List UInt8 :=
  [0, 0, 1] ++ utf8Bytes "a" ++ [.ofNat (utf8Bytes component).length] ++
    utf8Bytes component ++ [0, 0, 1, 1]

/-- What the codec makes of two commands, and of replies with short texts. -/
def shortCodec : CommandCodec where
  decode bytes :=
    if bytes = startCommand "worker" then
      .ok ⟨"", .startChild (worker "a" .permanent)⟩
    else if bytes = startCommand "ghost" then
      .ok ⟨"", .startChild
        { worker "a" .permanent with start := ⟨"ghost", ""⟩ }⟩
    else .error "decode error"
  encode
    | .started id => 0 :: .ofNat (utf8Bytes id).length :: utf8Bytes id
    | .terminated => [1]
    | .refused text => 2 :: .ofNat (utf8Bytes text).length :: utf8Bytes text
  debug
    | .duplicateId id => s!"DuplicateId({id.quote})"

/-- The supervisor, particle 1, is told to start a child. -/
def startOne (component : String) : List LoopAction :=
  [.world (.atomic (.registerComponent "worker")),
    .spawn sound ⟨"worker", none, ""⟩, .enter, .park,
    .sendTagged (particle 1) 1 (startCommand component),
    .receive (.tagged 1 (startCommand component)), .drain, .act sound, .park]

theorem policy_and_loop_agree_oneWorker :
    ∃ s, Run (SupervisorLoop.step (dynamicPolicy shortCodec) (particle 1))
        (fun s a => s.keepsPace a = true)
        (runDynamicSupervisor ⟨1⟩ oneForAll) s ∧
      s.phase = .waiting none ∧ s.sup.contains "a" = true ∧ s.Agrees := by
  have hrun : ∃ s, Run (SupervisorLoop.step (dynamicPolicy shortCodec)
      (particle 1)) (fun s a => s.keepsPace a = true)
      (runDynamicSupervisor ⟨1⟩ oneForAll) s ∧
      s.phase = .waiting none ∧ s.sup.contains "a" = true :=
    exec_run_of_any (α := LoopAction) (startOne "worker") (by decide +kernel)
  obtain ⟨s, h, hphase, hcontains⟩ := hrun
  exact ⟨s, h, hphase, hcontains, (policy_and_loop_agree _ _ _ _ h).1⟩

/-- There is no such component, and the id stays taken. -/
theorem failed_start_keeps_id :
    ∃ s, Run (SupervisorLoop.step (dynamicPolicy shortCodec) (particle 1))
        anyStep (runDynamicSupervisor ⟨1⟩ oneForAll) s ∧
      s.phase = .waiting none ∧ s.sup.contains "a" = true ∧ s.live = [] ∧
      ¬ s.Agrees :=
  exec_run_of_any (α := LoopAction) (startOne "ghost") (by decide +kernel)

end Plasmoid
