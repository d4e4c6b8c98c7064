import Plasmoid.Lib.Machine
import Plasmoid.Operations

/-!
# The lives of a node

A node keeps its secret key in its data directory, so it has the same
identity after every restart.  Its pid counter is in memory and starts at
one in every life.

`NodeLife` is a node over any number of starts and stops.  It logs each
particle it spawned with the life it was spawned in and with its place in
the pid counter of that life.  Two particles share a pid exactly when they
share that place modulo `2 ^ 64`, whatever their lives
(`pids_never_reused_iff`).
-/

namespace Plasmoid

open Machine

/-! ## The persisted identity -/

/-- A secret key is 32 bytes. -/
structure SecretKey where
  bytes : List UInt8
  length_eq : bytes.length = 32

/-- The data directory: the content of `secret_key`, if the file exists. -/
structure DataDir where
  secretKey : Option (List UInt8)

/-- `load_or_generate_secret_key`.  `generated` is the random key that is
drawn and written when there is no file yet. -/
def loadOrGenerateSecretKey (dir : DataDir) (generated : SecretKey) :
    Except String (SecretKey × DataDir) :=
  match dir.secretKey with
  | some bytes =>
    if h : bytes.length = 32 then .ok (⟨bytes, h⟩, dir)
    else .error "invalid secret key file (expected 32 bytes)"
  | none => .ok (generated, ⟨some generated.bytes⟩)

/-- The key that was answered is the key on disk afterwards. -/
theorem loadOrGenerateSecretKey_persisted {dir dir' : DataDir}
    {generated key : SecretKey}
    (h : loadOrGenerateSecretKey dir generated = .ok (key, dir')) :
    dir'.secretKey = some key.bytes := by
  rw [loadOrGenerateSecretKey] at h
  split at h
  · rename_i bytes hbytes
    split at h
    · cases h
      exact hbytes
    · cases h
  · cases h
    rfl

/-- A key on disk stays. -/
theorem loadOrGenerateSecretKey_stable {dir dir' : DataDir}
    {generated key : SecretKey} {bytes : List UInt8}
    (h : loadOrGenerateSecretKey dir generated = .ok (key, dir'))
    (hbytes : dir.secretKey = some bytes) : dir'.secretKey = some bytes := by
  rw [loadOrGenerateSecretKey, hbytes] at h
  dsimp only at h
  split at h
  · cases h
    exact hbytes
  · cases h

/-- The registry that `with_node_timeout` builds, and what it leaves on disk.
Without a data directory the key is random. -/
def withNodeTimeout (publicKey : SecretKey → EndpointId)
    (dataDir : Option DataDir) (generated : SecretKey) :
    Except String (ParticleRegistry × Option DataDir) :=
  match dataDir with
  | some dir =>
    match loadOrGenerateSecretKey dir generated with
    | .ok (key, dir') => .ok (.new (publicKey key), some dir')
    | .error err => .error err
  | none => .ok (.new (publicKey generated), none)

/-- The registry that comes up belongs to the key on disk, and a key that
was on disk before is still the one there. -/
theorem withNodeTimeout_ok {publicKey : SecretKey → EndpointId}
    {dir dir' : DataDir} {generated : SecretKey} {reg : ParticleRegistry}
    (h : withNodeTimeout publicKey (some dir) generated =
      .ok (reg, some dir')) :
    (∃ key : SecretKey, dir'.secretKey = some key.bytes ∧
      reg = .new (publicKey key)) ∧
    ∀ bytes, dir.secretKey = some bytes → dir'.secretKey = some bytes := by
  simp only [withNodeTimeout] at h
  split at h
  · rename_i key d hload
    cases h
    exact ⟨⟨key, loadOrGenerateSecretKey_persisted hload, rfl⟩,
      fun bytes => loadOrGenerateSecretKey_stable hload⟩
  · cases h

/-! ## The machine -/

/-- A particle that was spawned.  `draw` counts the pids drawn before its own
in the same life. -/
structure Birth where
  life : Nat
  draw : Nat
  pid : Pid
deriving DecidableEq

/-- A node over its lives: what is on disk, the registry while it runs, the
number of the current life, the pids drawn in it, and every particle spawned
so far. -/
structure NodeLife where
  dir : DataDir
  running : Option ParticleRegistry
  life : Nat
  draws : Nat
  spawned : List Birth

inductive NodeAction where
  | start (generated : SecretKey)
  /-- A start that loads or writes the key and then fails, as on a port that
  is taken. -/
  | startAndFail (generated : SecretKey)
  | stop
  | spawn (component : String) (name : Option String)
  | spawnOvertaken (component name : String)
  | perform (op : RegistryOp)

namespace NodeLife

/-- A node that was never started. -/
def fresh (dir : DataDir) : NodeLife := ⟨dir, none, 0, 0, []⟩

def step (publicKey : SecretKey → EndpointId) (s : NodeLife) :
    NodeAction → Option NodeLife
  | .start generated =>
    match s.running, withNodeTimeout publicKey (some s.dir) generated with
    | none, .ok (reg, some dir) =>
      some { s with dir, running := some reg, life := s.life + 1, draws := 0 }
    | _, _ => none
  | .startAndFail generated =>
    match s.running, loadOrGenerateSecretKey s.dir generated with
    | none, .ok (_, dir) => some { s with dir }
    | _, _ => none
  | .stop => s.running.map fun _ => { s with running := none }
  | .spawn component name =>
    s.running.map fun reg =>
      match reg.spawn component name with
      | (reg', .ok pid) =>
        { s with
          running := some reg', draws := s.draws + 1
          spawned := s.spawned ++ [⟨s.life, s.draws, pid⟩] }
      | (_, .error _) => s
  | .spawnOvertaken component name =>
    s.running.map fun reg =>
      if reg.spawnRefused component (some name) = none then
        { s with
          running := some (reg.spawnOvertaken component name).1
          draws := s.draws + 1 }
      else s
  | .perform op =>
    s.running.map fun reg => { s with running := some (reg.perform op) }

/-- A particle lives under `pid` now. -/
def Reaches (s : NodeLife) (pid : Pid) : Prop :=
  ∃ reg, s.running = some reg ∧ reg.Alive pid

/-- The pid at one place of a pid counter. -/
def pidAt (node : EndpointId) (draw : Nat) : Pid := ⟨node, .ofNat (draw + 1)⟩

theorem pidAt_inj {node : EndpointId} {m n : Nat} :
    pidAt node m = pidAt node n ↔ m % 2 ^ 64 = n % 2 ^ 64 := by
  have hseq : (UInt64.ofNat (m + 1) = UInt64.ofNat (n + 1)) ↔
      (m + 1) % 2 ^ 64 = (n + 1) % 2 ^ 64 := by
    rw [← UInt64.toNat_inj, UInt64.toNat_ofNat', UInt64.toNat_ofNat']
  simp only [pidAt, Pid.mk.injEq, true_and]
  rw [hseq]
  omega

theorem peek_next (node : EndpointId) (draw : Nat) :
    (⟨node, .ofNat (draw + 1)⟩ : PidGenerator).next.2 =
      ⟨node, .ofNat (draw + 1 + 1)⟩ := by
  simp only [PidGenerator.next, PidGenerator.mk.injEq, true_and]
  rw [UInt64.ofNat_add (draw + 1) 1]
  rfl

/-! ## The invariant -/

/-- What holds of a running node: its identity is the one on disk, its
counter stands at `draws`, and whoever is alive was spawned in this life. -/
structure RunningInv (publicKey : SecretKey → EndpointId) (s : NodeLife)
    (reg : ParticleRegistry) : Prop where
  counter : ∃ key : SecretKey, s.dir.secretKey = some key.bytes ∧
    reg.pidGen = ⟨publicKey key, .ofNat (s.draws + 1)⟩
  alive : ∀ p, reg.Alive p → ∃ b ∈ s.spawned, b.life = s.life ∧ b.pid = p

/-- The invariant of a node.  Every particle got the pid at its place of the
one counter that the persisted key fixes. -/
structure Inv (publicKey : SecretKey → EndpointId) (s : NodeLife) : Prop where
  births : ∀ b ∈ s.spawned, ∃ key : SecretKey,
    s.dir.secretKey = some key.bytes ∧ b.pid = pidAt (publicKey key) b.draw
  past : ∀ b ∈ s.spawned,
    b.life < s.life ∨ b.life = s.life ∧ b.draw < s.draws
  ordered : s.spawned.Pairwise fun b b' => b.life = b'.life → b.draw < b'.draw
  running : ∀ reg, s.running = some reg → RunningInv publicKey s reg

variable {publicKey : SecretKey → EndpointId} {s t : NodeLife}

theorem inv_fresh (dir : DataDir) : Inv publicKey (fresh dir) where
  births := by simp [fresh]
  past := by simp [fresh]
  ordered := List.Pairwise.nil
  running := by simp [fresh]

/-- A pid drawn and wasted. -/
private theorem inv_draw {reg reg' : ParticleRegistry} (h : Inv publicKey s)
    (hreg : s.running = some reg) (hdraw : ParticleRegistry.Draws reg reg')
    (halive : ∀ p, reg'.Alive p → reg.Alive p) :
    Inv publicKey { s with running := some reg', draws := s.draws + 1 } := by
  obtain ⟨⟨key, hkey, hgen⟩, hborn⟩ := h.running reg hreg
  refine ⟨h.births, ?_, h.ordered, ?_⟩
  · intro b hb
    rcases h.past b hb with hlt | ⟨heq, hlt⟩
    · exact Or.inl hlt
    · exact Or.inr ⟨heq, Nat.lt_succ_of_lt hlt⟩
  · intro r hr
    cases hr
    refine ⟨⟨key, hkey, ?_⟩, fun p hp => hborn p (halive p hp)⟩
    rw [hdraw.pidGen, hgen, peek_next]

/-- A particle spawned. -/
private theorem inv_spawn {reg reg' : ParticleRegistry} (h : Inv publicKey s)
    (hreg : s.running = some reg) (hdraw : ParticleRegistry.Draws reg reg') :
    Inv publicKey { s with
      running := some reg', draws := s.draws + 1
      spawned := s.spawned ++ [⟨s.life, s.draws, reg.pidGen.peek⟩] } := by
  obtain ⟨⟨key, hkey, hgen⟩, hborn⟩ := h.running reg hreg
  have hpid : reg.pidGen.peek = pidAt (publicKey key) s.draws := by
    rw [hgen]
    rfl
  refine ⟨?_, ?_, ?_, ?_⟩
  · intro b hb
    rcases List.mem_append.1 hb with hb | hb
    · exact h.births b hb
    · cases List.mem_singleton.1 hb
      exact ⟨key, hkey, hpid⟩
  · intro b hb
    rcases List.mem_append.1 hb with hb | hb
    · rcases h.past b hb with hlt | ⟨heq, hlt⟩
      · exact Or.inl hlt
      · exact Or.inr ⟨heq, Nat.lt_succ_of_lt hlt⟩
    · cases List.mem_singleton.1 hb
      exact Or.inr ⟨rfl, Nat.lt_succ_self _⟩
  · refine List.pairwise_append.2
      ⟨h.ordered, List.pairwise_singleton _ _, ?_⟩
    intro b hb b' hb' hlife
    cases List.mem_singleton.1 hb'
    rcases h.past b hb with hlt | ⟨-, hlt⟩
    · exact absurd hlife (Nat.ne_of_lt hlt)
    · exact hlt
  · intro r hr
    cases hr
    refine ⟨⟨key, hkey, ?_⟩, ?_⟩
    · rw [hdraw.pidGen, hgen, peek_next]
    · intro p hp
      rcases hdraw.alive p hp with rfl | hp
      · exact ⟨_, List.mem_append_right _ (List.mem_singleton_self _), rfl, rfl⟩
      · obtain ⟨b, hb, hlife, hb'⟩ := hborn p hp
        exact ⟨b, List.mem_append_left _ hb, hlife, hb'⟩

/-- Every action keeps the invariant. -/
theorem inv_step {a : NodeAction} (h : Inv publicKey s)
    (hstep : step publicKey s a = some t) : Inv publicKey t := by
  cases a with
  | start generated =>
    simp only [step] at hstep
    split at hstep
    · rename_i reg dir hrun hload
      cases hstep
      obtain ⟨⟨key, hkey, hnew⟩, hstable⟩ := withNodeTimeout_ok hload
      refine ⟨?_, ?_, h.ordered, ?_⟩
      · intro b hb
        obtain ⟨k, hk, hpid⟩ := h.births b hb
        exact ⟨k, hstable _ hk, hpid⟩
      · intro b hb
        rcases h.past b hb with hlt | ⟨heq, -⟩
        · exact Or.inl (Nat.lt_succ_of_lt hlt)
        · exact Or.inl (heq ▸ Nat.lt_succ_self _)
      · intro r hr
        cases hr
        refine ⟨⟨key, hkey, hnew ▸ rfl⟩, fun p hp => ?_⟩
        rw [hnew] at hp
        exact absurd hp (AList.notMem_empty p)
    · cases hstep
  | startAndFail generated =>
    simp only [step] at hstep
    split at hstep
    · rename_i key dir hrun hload
      cases hstep
      refine ⟨?_, h.past, h.ordered, ?_⟩
      · intro b hb
        obtain ⟨k, hk, hpid⟩ := h.births b hb
        exact ⟨k, loadOrGenerateSecretKey_stable hload hk, hpid⟩
      · intro r hr
        rw [hrun] at hr
        cases hr
    · cases hstep
  | stop =>
    obtain ⟨reg, -, rfl⟩ := Option.map_eq_some_iff.1 hstep
    exact ⟨h.births, h.past, h.ordered, fun r hr => by cases hr⟩
  | spawn component name =>
    obtain ⟨reg, hreg, hstep⟩ := Option.map_eq_some_iff.1 hstep
    cases hrefused : reg.spawnRefused component name with
    | some err =>
      rw [ParticleRegistry.spawn_of_refused hrefused] at hstep
      subst hstep
      exact h
    | none =>
      obtain ⟨hok, hdraw⟩ :=
        ParticleRegistry.spawn_of_not_refused hrefused
      rw [show reg.spawn component name =
        ((reg.spawn component name).1, .ok reg.pidGen.peek) from
          Prod.ext rfl hok] at hstep
      subst hstep
      exact inv_spawn h hreg hdraw
  | spawnOvertaken component name =>
    obtain ⟨reg, hreg, hstep⟩ := Option.map_eq_some_iff.1 hstep
    split at hstep
    · rename_i hrefused
      subst hstep
      obtain ⟨hdraw, halive⟩ :=
        ParticleRegistry.spawnOvertaken_of_not_refused hrefused
      exact inv_draw h hreg hdraw halive
    · subst hstep
      exact h
  | perform op =>
    obtain ⟨reg, hreg, rfl⟩ := Option.map_eq_some_iff.1 hstep
    obtain ⟨⟨key, hkey, hgen⟩, hborn⟩ := h.running reg hreg
    have hop := ParticleRegistry.noBirth_perform reg op
    refine ⟨h.births, h.past, h.ordered, ?_⟩
    intro r hr
    cases hr
    exact ⟨⟨key, hkey, hop.pidGen.trans hgen⟩,
      fun p hp => hborn p (hop.alive p hp)⟩

theorem inv_run {dir : DataDir}
    (h : Run (step publicKey) anyStep (fresh dir) s) : Inv publicKey s :=
  h.invariant (fun hinv _ hstep => inv_step hinv hstep) (inv_fresh dir)

/-! ## When pids are unique -/

/-- Two particles share a pid exactly when they share their place in the pid
counter.  The life does not matter: the key is the same in all of them. -/
theorem Inv.pid_eq_iff (h : Inv publicKey s) {b b' : Birth}
    (hb : b ∈ s.spawned) (hb' : b' ∈ s.spawned) :
    b.pid = b'.pid ↔ b.draw % 2 ^ 64 = b'.draw % 2 ^ 64 := by
  obtain ⟨k, hk, hpid⟩ := h.births b hb
  obtain ⟨k', hk', hpid'⟩ := h.births b' hb'
  have hkey : k = k' := by
    obtain ⟨bytes, hlen⟩ := k
    obtain ⟨bytes', hlen'⟩ := k'
    cases hk.symm.trans hk'
    rfl
  subst hkey
  rw [hpid, hpid', pidAt_inj]

/-- Pids are never reused, and a pid of an earlier life reaches nobody. -/
def NeverReused (s : NodeLife) : Prop :=
  (s.spawned.map Birth.pid).Nodup ∧
    ∀ b ∈ s.spawned, b.life < s.life → ¬ s.Reaches b.pid

/-- No two particles were spawned at the same place of the pid counter of
their life.  The counter is 64 bits wide. -/
def DrawsApart (s : NodeLife) : Prop :=
  (s.spawned.map fun b => b.draw % 2 ^ 64).Nodup

/-- In one life, up to `2 ^ 64` draws are apart. -/
theorem Inv.drawsApart_of_one_life (h : Inv publicKey s) {life : Nat}
    (hlife : ∀ b ∈ s.spawned, b.life = life ∧ b.draw < 2 ^ 64) :
    DrawsApart s := by
  refine List.pairwise_map.2 (h.ordered.imp_of_mem ?_)
  intro b b' hb hb' hord
  obtain ⟨h1, h2⟩ := hlife b hb
  obtain ⟨h1', h2'⟩ := hlife b' hb'
  have hlt := hord (h1.trans h1'.symm)
  rw [Nat.mod_eq_of_lt h2, Nat.mod_eq_of_lt h2']
  exact Nat.ne_of_lt hlt

/-- The pids of a node, over all of its lives, are unique exactly as long as
no two particles were spawned at the same place of the pid counter. -/
theorem pids_never_reused_iff (publicKey : SecretKey → EndpointId)
    (dir : DataDir) (s : NodeLife)
    (h : Run (step publicKey) anyStep (fresh dir) s) :
    s.NeverReused ↔ s.DrawsApart := by
  have hinv := inv_run h
  have hnodup : (s.spawned.map Birth.pid).Nodup ↔ s.DrawsApart := by
    rw [DrawsApart, List.Nodup, List.Nodup, List.pairwise_map,
      List.pairwise_map]
    refine List.Pairwise.iff_of_mem ?_
    intro b b' hb hb'
    exact not_congr (hinv.pid_eq_iff hb hb')
  constructor
  · intro hnever
    exact hnodup.1 hnever.1
  · intro hapart
    refine ⟨hnodup.2 hapart, ?_⟩
    rintro b hb hlt ⟨reg, hreg, halive⟩
    -- Whoever is alive was born in this life, so it is not `b`.
    obtain ⟨b', hb', hlife, hpid⟩ := (hinv.running reg hreg).alive _ halive
    have hsame : b' = b :=
      List.inj_on_of_nodup_map (hnodup.2 hapart) hb' hb hpid
    rw [hsame] at hlife
    exact absurd hlife (Nat.ne_of_lt hlt)

/-! ## Two lives of one node -/

/-- A key pair: the random key of the first start, and its public key. -/
def sampleKey : SecretKey :=
  ⟨[0x9d, 0x61, 0xb1, 0x9d, 0xef, 0xfd, 0x5a, 0x60, 0xba, 0x84, 0x4a, 0xf4,
    0x92, 0xec, 0x2c, 0xc4, 0x44, 0x49, 0xc5, 0x69, 0x7b, 0x32, 0x69, 0x19,
    0x70, 0x3b, 0xac, 0x03, 0x1c, 0xae, 0x7f, 0x60], rfl⟩

def samplePublicKey (_ : SecretKey) : EndpointId :=
  ⟨0xd75a980182b10ab7d54bfed3c964073a0ee172f3daa62325af021a68f707511a⟩

/-- Start, load a component and spawn one particle of it. -/
def lifeOfOne : List NodeAction :=
  [.start sampleKey, .perform (.atomic (.registerComponent "worker")),
    .spawn "worker" none]

/-- Two spawns of one life get two pids. -/
theorem pids_never_reused_iff_oneLife :
    ∃ s, Run (step samplePublicKey) anyStep (fresh ⟨none⟩) s ∧
      (s.spawned.length = 2 ∧ s.DrawsApart) ∧ s.NeverReused := by
  obtain ⟨s, hrun, happ⟩ : ∃ s,
      Run (step samplePublicKey) anyStep (fresh ⟨none⟩) s ∧
        (s.spawned.length = 2 ∧ (s.spawned.map fun b => b.draw % 2 ^ 64).Nodup) :=
    exec_run_of_any (lifeOfOne ++ [.spawn "worker" none]) (by decide)
  exact ⟨s, hrun, happ,
    (pids_never_reused_iff samplePublicKey ⟨none⟩ s hrun).2 happ.2⟩

/-- After a restart the first pid is handed out again: the particle spawned
then can be reached under the pid of the one spawned before. -/
theorem restart_reuses_pid :
    ¬ ∀ (publicKey : SecretKey → EndpointId) (dir : DataDir) (s : NodeLife),
      Run (step publicKey) anyStep (fresh dir) s → s.NeverReused := by
  intro h
  obtain ⟨s, hrun, hreused⟩ : ∃ s,
      Run (step samplePublicKey) anyStep (fresh ⟨none⟩) s ∧
        ¬ (s.spawned.map Birth.pid).Nodup :=
    exec_run_of_any (lifeOfOne ++ .stop :: lifeOfOne) (by decide)
  exact hreused (h samplePublicKey ⟨none⟩ s hrun).1

end NodeLife

end Plasmoid
