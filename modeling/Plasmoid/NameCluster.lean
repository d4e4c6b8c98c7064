import Plasmoid.Mesh
import Plasmoid.NameSync
import Plasmoid.Signals

/-!
# A cluster that names particles

Nodes join, exchange their name tables with each node that they learn, and claim
and give up names, all at the same time.

A claim reads the members once and commits at those it has locked.  `unregister`
drops a name at home, reads the members and then asks each of them to drop it.
The death reactor of a node does the same for a particle that has died, with the
one name that the node's own table has for it.

Names take part in no other exchange.  So a claim or a release that overlaps a
join may miss a node, and nobody asks again.
-/

namespace Plasmoid

open Machine

inductive ReleasePhase where
  /-- About to drop the name at home. -/
  | start
  /-- About to read the members. -/
  | roster
  | asking (rest : List EndpointId)
deriving DecidableEq

/-- A call of `unregister`, by the particle or by the death reactor. -/
structure Release where
  name : String
  pid : Pid
  reactor : Bool
  phase : ReleasePhase
deriving DecidableEq

/-- Every node with all that names depend on.  `deaths` are those that the death
reactors have yet to hear of.  The last four fields are a record of what
happened: the particles that `died`, the names that were `released` and not
claimed again, the pids that lost a conflict over a name since they claimed it,
and which nodes lost which. -/
structure NameCluster where
  mesh : Mesh
  sync : NameSync
  calls : List Call
  releases : List Release
  deaths : List Pid
  died : List Pid
  released : List (String × Pid)
  outdone : List (String × Pid)
  lost : List (EndpointId × EndpointId)

inductive NameAction where
  /-- `join_at` -/
  | join (now : Nat) (node : EndpointId) (peer : EndpointAddr)
  /-- A node opens a connection to another one. -/
  | connect (node peer : EndpointId)
  /-- An announcement arrives, or a handler goes on. -/
  | announce (i now : Nat)
  /-- An exchange of tables goes on. -/
  | sync (i : Nat)
  /-- A table is lost on its way. -/
  | syncFails (i : Nat)
  | register (name : String) (pid : Pid)
  /-- A claim takes its next step. -/
  | advance (i : Nat)
  /-- A claim gets no answer.  Its request may have been carried out. -/
  | unanswered (i : Nat) (carriedOut : Bool)
  | unregister (name : String) (pid : Pid)
  /-- A release takes its next step. -/
  | release (i : Nat)
  /-- The request of a release does not arrive. -/
  | releaseFails (i : Nat)
  | die (pid : Pid)
  /-- The death reactor of a node hears of a death. -/
  | react (node : EndpointId)
  /-- The membership reactor of a node hears of a loss. -/
  | lose (node peer : EndpointId)

/-- The table exchanges that a job starts. -/
def MeshNodes.syncs (s : MeshNodes) (now : Nat) : MeshJob → List SyncJob
  | .accept node remote =>
    if ((s node).cluster.learn now [remote]).2 = [] then []
    else [.begin node remote]
  | .introduce node learned _ => learned.map (.begin node)
  | .message .. | .greet .. | .answer .. => []

namespace Call

/-- The call has just taken the last lock. -/
def decides (c : Call) (phase : CallPhase) : Bool :=
  match c.phase, phase with
  | .taking .., .committing .. => true
  | _, _ => false

/-- What the call makes of a request to another node without an answer. -/
def unanswered (c : Call) : Option CallPhase :=
  match c.phase with
  | .locking attempts held node _ | .taking attempts held node _ =>
    if node = c.home then none
    else some (.releaseLocks attempts (.error .unsettled) held)
  | .committing attempts held node rest =>
    if node = c.home then none else some (.commitAll attempts held rest)
  | .releasing attempts node rest result =>
    if node = c.home then none else some (.releaseLocks attempts result rest)
  | .settling | .checking | .sorting _ | .returned _ => none

end Call

namespace NameCluster

def start (addrs : EndpointId → List TransportAddr) : NameCluster where
  mesh := ⟨fun e => .new e (addrs e), []⟩
  sync := .start .new
  calls := []
  releases := []
  deaths := []
  died := []
  released := []
  outdone := []
  lost := []

/-- The nodes that a node is clustered with. -/
def roster (s : NameCluster) (node : EndpointId) : List EndpointId :=
  (s.mesh.env node).cluster.members.toList

/-- The pid that the table of a node binds a name to. -/
def bound (s : NameCluster) (node : EndpointId) (name : String) : Option Pid :=
  (s.sync.env.node node).names.lookup name

def setMesh (s : NameCluster) (mesh : Mesh) : NameCluster :=
  { s with
    mesh
    lost := s.lost.filter fun x => x.2 ∉ (mesh.env x.1).cluster.members }

/-- Start some table exchanges. -/
def spawn (s : NameCluster) (jobs : List SyncJob) : NameCluster :=
  { s with sync := { s.sync with jobs := s.sync.jobs ++ jobs } }

/-- What the claims see. -/
def claims (s : NameCluster) : GlobalClaims := ⟨s.sync.env.node, s.calls⟩

def setNode (s : NameCluster) (node : EndpointId → GlobalNames) : NameCluster :=
  { s with sync := { s.sync with env := { s.sync.env with node } } }

/-- Take over what a claim did. -/
def setClaims (s : NameCluster) (t : GlobalClaims) : NameCluster :=
  { s.setNode t.node with calls := t.calls }

/-- The name belongs to the pid from now on. -/
def claimed (s : NameCluster) (name : String) (pid : Pid) : NameCluster :=
  { s with
    released := s.released.filter fun x => x ≠ (name, pid)
    outdone := s.outdone.filter fun x => x ≠ (name, pid) }

/-- Drop a name at one node. -/
def drop (s : NameCluster) (node : EndpointId) (name : String) (pid : Pid) :
    NameCluster :=
  s.setNode (Function.update s.sync.env.node node
    ((s.sync.env.node node).release name pid))

/-- The next step of `unregister`. -/
def releaseNext (s : NameCluster) (r : Release) : NameCluster × List Release :=
  match r.phase with
  | .start =>
    if s.bound r.pid.node r.name = some r.pid then
      (s.drop r.pid.node r.name r.pid, [{ r with phase := .roster }])
    -- Not ours to give up.
    else (s, [])
  | .roster => (s, [{ r with phase := .asking (s.roster r.pid.node) }])
  | .asking (node :: rest) =>
    (s.drop node r.name r.pid, [{ r with phase := .asking rest }])
  | .asking [] => (s, [])

/-- The deaths that wait for the reactor of a node.  The oldest one is dropped if
too many wait. -/
def deathsAt (s : NameCluster) (node : EndpointId) : List Pid :=
  s.deaths.filter fun pid => pid.node = node

def setReleases (s : NameCluster) (i : Nat) (next : List Release) :
    NameCluster :=
  { s with releases := s.releases.eraseIdx i ++ next }

/-- The particle has no other call in progress. -/
def idle (s : NameCluster) (pid : Pid) : Prop :=
  (∀ c ∈ s.calls, c.phase.active → c.pid ≠ pid) ∧
    ∀ r ∈ s.releases, r.reactor = false → r.pid ≠ pid

instance (s : NameCluster) (pid : Pid) : Decidable (s.idle pid) :=
  inferInstanceAs (Decidable (_ ∧ _))

def step (s : NameCluster) : NameAction → Option NameCluster
  | .join now node peer =>
    some ((s.setMesh (s.mesh.join now node peer)).spawn [.begin node peer.id])
  | .connect node peer =>
    if peer = node then none
    else some { s with mesh :=
      { s.mesh with jobs := s.mesh.jobs ++ [.accept peer node] } }
  | .announce i now => s.mesh.jobs[i]?.bind fun j =>
    (s.mesh.work MeshNodes.handle i now).map fun mesh =>
      (s.setMesh mesh).spawn (s.mesh.env.syncs now j)
  | .sync i => (s.sync.work SyncEnv.handle i ()).map fun sync =>
    { s with
      sync
      outdone := s.outdone ++
        (sync.env.verdicts.drop s.sync.env.verdicts.length).map fun v =>
          (v.name, v.loser) }
  | .syncFails i =>
    (s.sync.step (.fail i)).map fun sync => { s with sync }
  | .register name pid =>
    if s.idle pid then
      some { s with calls := s.calls ++ [⟨pid.node, name, pid, .settling⟩] }
    else none
  | .advance i => s.calls[i]?.bind fun c =>
    (s.claims.advance s.roster i c).map fun t =>
      if t.calls[i]?.any fun d => c.decides d.phase then
        (s.setClaims t).claimed c.name c.pid
      else s.setClaims t
  | .unanswered i carriedOut => s.calls[i]?.bind fun c =>
    c.unanswered.bind fun phase =>
      (s.claims.advance s.roster i c).map fun t =>
        let s := if carriedOut then s.setNode t.node else s
        { s with calls := s.calls.set i { c with phase } }
  | .unregister name pid =>
    if s.idle pid then some { s with
      releases := s.releases ++ [⟨name, pid, false, .start⟩]
      released := (name, pid) :: s.released }
    else none
  | .release i => s.releases[i]?.map fun r =>
    (s.releaseNext r).1.setReleases i (s.releaseNext r).2
  | .releaseFails i => s.releases[i]?.bind fun r =>
    match r.phase with
    | .asking (_ :: rest) =>
      some (s.setReleases i [{ r with phase := .asking rest }])
    | _ => none
  | .die pid =>
    if pid ∈ s.died then none
    else some { s with
      died := pid :: s.died
      deaths := s.deaths.diff ((s.deathsAt pid.node).take
        ((s.deathsAt pid.node).length + 1 -
          ParticleRegistry.deathBroadcastCapacity)) ++ [pid] }
  | .react node => (s.deathsAt node).head?.bind fun pid =>
      -- The reactor waits for its last release.
      if ∃ r ∈ s.releases, r.reactor ∧ r.pid.node = node then none
      else some { s with
        deaths := s.deaths.erase pid
        releases := s.releases ++
          ((s.sync.env.node node).nameOf pid).toList.map fun name =>
            ⟨name, pid, true, .start⟩ }
  | .lose node peer =>
    let n := { s.mesh.env node with
      cluster := (s.mesh.env node).cluster.forget peer }
    some { s with
      mesh := { s.mesh with env := Function.update s.mesh.env node n }
      lost := (node, peer) :: s.lost }

end NameCluster

/-! ## What the steps do -/

namespace CallPhase

/-- The claim holds no lock that it could still use. -/
def idle : CallPhase → Bool
  | locking .. | taking .. | committing .. => false
  | settling | checking | sorting _ | releasing .. | returned _ => true

/-- The claim has committed everywhere. -/
def won : CallPhase → Bool
  | releasing _ _ _ result | returned result => result.isOk
  | settling | checking | sorting _ | locking .. | taking .. | committing .. =>
    false

@[simp] theorem idle_releaseLocks (attempts : Nat)
    (result : Except ClaimError Unit) (nodes : List EndpointId) :
    (releaseLocks attempts result nodes).idle = true := by
  cases nodes with
  | nil =>
    show (claimed attempts result).idle = true
    unfold claimed
    split <;> rfl
  | cons node rest => rfl

@[simp] theorem won_releaseLocks (attempts : Nat)
    (result : Except ClaimError Unit) (nodes : List EndpointId) :
    (releaseLocks attempts result nodes).won = result.isOk := by
  cases nodes with
  | nil =>
    show (claimed attempts result).won = result.isOk
    unfold claimed
    split <;> rfl
  | cons node rest => rfl

end CallPhase

/-- What a claim may do next: its phase and the nodes afterwards. -/
inductive Call.Next (nodes : EndpointId → List EndpointId) (s : GlobalClaims)
    (c : Call) : CallPhase → (EndpointId → GlobalNames) → Prop where
  | sorted {attempts : Nat} (h : c.phase = .sorting (attempts + 1)) :
    c.Next nodes s
      (.lockAll attempts [] (claimMembers c.home (nodes c.home))) s.node
  | looked {attempts : Nat} {held rest : List EndpointId} {node : EndpointId}
      (h : c.phase = .locking attempts held node rest) :
    c.Next nodes s (.taking attempts held node rest) s.node
  | locked {attempts : Nat} {held rest : List EndpointId} {node : EndpointId}
      {g : GlobalNames} (h : c.phase = .taking attempts held node rest)
      (htake : (s.node node).lockTake c.name c.home = some g) :
    c.Next nodes s (.lockAll attempts (held ++ [node]) rest)
      (Function.update s.node node g)
  | committed {attempts : Nat} {held rest : List EndpointId}
      {node : EndpointId} (h : c.phase = .committing attempts held node rest) :
    c.Next nodes s (.commitAll attempts held rest)
      (Function.update s.node node ((s.node node).commit c.name c.pid))
  | rested {phase : CallPhase} {node : EndpointId → GlobalNames}
      (hnames : ∀ e, (node e).names = (s.node e).names)
      (hidle : phase.idle = true) (hwon : phase.won = true → c.phase.won = true)
      (hbefore : ∀ attempts held u rest,
        c.phase ≠ .committing attempts held u rest) :
    c.Next nodes s phase node

theorem GlobalClaims.advance_next {nodes : EndpointId → List EndpointId}
    {s t : GlobalClaims} {i : Nat} {c : Call}
    (h : s.advance nodes i c = some t) : ∃ phase,
      t.calls = s.calls.set i { c with phase } ∧ c.Next nodes s phase t.node := by
  cases hphase : c.phase with
  | settling =>
    simp only [advance, hphase] at h
    cases h
    refine ⟨_, rfl, .rested (fun _ => rfl) ?_ ?_ (by simp [hphase])⟩
    · split <;> rfl
    · split <;> simp [CallPhase.won, Except.isOk, Except.toBool]
  | checking =>
    simp only [advance, hphase] at h
    split at h <;> cases h <;>
      exact ⟨_, rfl, .rested (fun _ => rfl) rfl
        (by simp [CallPhase.won, Except.isOk, Except.toBool]) (by simp [hphase])⟩
  | sorting attempts =>
    cases attempts with
    | zero =>
      simp only [advance, hphase] at h
      cases h
      exact ⟨_, rfl, .rested (fun _ => rfl) rfl
        (by simp [CallPhase.won, Except.isOk, Except.toBool]) (by simp [hphase])⟩
    | succ attempts =>
      simp only [advance, hphase] at h
      cases h
      exact ⟨_, rfl, .sorted hphase⟩
  | locking attempts held node rest =>
    simp only [advance, hphase] at h
    split at h <;> cases h
    · exact ⟨_, rfl, .rested (fun _ => rfl) (CallPhase.idle_releaseLocks ..)
        (by simp [Except.isOk, Except.toBool]) (by simp [hphase])⟩
    · exact ⟨_, rfl, .looked hphase⟩
  | taking attempts held node rest =>
    simp only [advance, hphase] at h
    split at h <;> cases h
    · exact ⟨_, rfl, .locked hphase ‹_›⟩
    · exact ⟨_, rfl, .rested (fun _ => rfl) (CallPhase.idle_releaseLocks ..)
        (by simp [Except.isOk, Except.toBool]) (by simp [hphase])⟩
  | committing attempts held node rest =>
    simp only [advance, hphase] at h
    cases h
    exact ⟨_, rfl, .committed hphase⟩
  | releasing attempts node rest result =>
    simp only [advance, hphase] at h
    cases h
    refine ⟨_, rfl, .rested (fun e => ?_) (CallPhase.idle_releaseLocks ..) ?_
      (by simp [hphase])⟩
    · show (Function.update s.node node _ e).names = _
      by_cases he : e = node
      · subst he
        rw [Function.update_self, GlobalNames.names_unlock]
      · rw [Function.update_of_ne he]
    · rw [hphase, CallPhase.won_releaseLocks]
      exact id
  | returned result =>
    simp only [advance, hphase] at h
    cases h

theorem GlobalClaims.lookup_commit (s : GlobalClaims) (u e : EndpointId)
    (name name' : String) (pid : Pid) :
    (Function.update s.node u ((s.node u).commit name' pid) e).names.lookup name =
      if e = u ∧ name = name' then some pid else s.bound e name := by
  by_cases he : e = u
  · subst he
    rw [Function.update_self]
    show ((s.node e).names.insert name' pid).lookup name = _
    rw [Table.lookup_insert_eq]
    simp only [true_and]
    rfl
  · rw [Function.update_of_ne he, if_neg fun h => he h.1]
    rfl

/-- Only a commit changes a table of names. -/
theorem Call.Next.names {nodes : EndpointId → List EndpointId}
    {s : GlobalClaims} {c : Call} {phase : CallPhase}
    {node : EndpointId → GlobalNames} (h : c.Next nodes s phase node) :
    (∀ e name, (node e).names.lookup name = s.bound e name) ∨
      ∃ attempts held u rest, c.phase = .committing attempts held u rest ∧
        phase = .commitAll attempts held rest ∧
        ∀ e name, (node e).names.lookup name =
          if e = u ∧ name = c.name then some c.pid else s.bound e name := by
  cases h with
  | sorted _ => exact Or.inl fun e name => rfl
  | looked _ => exact Or.inl fun e name => rfl
  | rested hnames _ _ _ =>
    refine Or.inl fun e name => ?_
    rw [hnames e]
    rfl
  | @locked _ _ _ u g _ htake =>
    refine Or.inl fun e name => ?_
    by_cases he : e = u
    · subst he
      rw [Function.update_self, GlobalNames.lockTake_eq_some htake]
      rfl
    · rw [Function.update_of_ne he]
      rfl
  | @committed attempts held rest u hphase =>
    exact Or.inr ⟨attempts, held, u, rest, hphase, rfl, fun e name =>
      s.lookup_commit u e name c.name c.pid⟩

theorem GlobalNames.lookup_release (g : GlobalNames) (name name' : String)
    (pid : Pid) : (g.release name pid).names.lookup name' =
      if name' = name ∧ g.names.lookup name = some pid then none
      else g.names.lookup name' := by
  unfold release
  split
  · rename_i h
    rw [Table.lookup_erase_eq]
    simp only [h, and_true]
  · rename_i h
    simp only [h, and_false, if_false]

theorem NameCluster.bound_drop (s : NameCluster) (node e : EndpointId)
    (name name' : String) (pid : Pid) : (s.drop node name pid).bound e name' =
      if (e = node ∧ name' = name) ∧ s.bound node name = some pid then none
      else s.bound e name' := by
  show (Function.update s.sync.env.node node _ e).names.lookup name' = _
  by_cases he : e = node
  · subst he
    rw [Function.update_self, GlobalNames.lookup_release]
    simp only [true_and]
    rfl
  · rw [Function.update_of_ne he, if_neg fun h => he h.1.1]
    rfl

/-- Only a merge changes a table of names. -/
theorem SyncEnv.handle_names (s : SyncEnv) (j : SyncJob) :
    (∀ e, ((s.handle () j).1.node e).names = (s.node e).names) ∧
        (s.handle () j).1.verdicts = s.verdicts ∧
        (s.handle () j).1.kills = s.kills ∨
      ∃ node theirs reply, j = .merge node theirs reply := by
  have hupdate : ∀ (node : EndpointId) (f : GlobalNames → GlobalNames),
      (∀ g, (f g).names = g.names) →
      ∀ e, ((s.update node f).node e).names = (s.node e).names := by
    intro node f hf e
    show (Function.update s.node node (f (s.node node)) e).names = _
    by_cases he : e = node
    · subst he
      rw [Function.update_self, hf]
    · rw [Function.update_of_ne he]
  cases j with
  | begin node peer => exact Or.inl ⟨hupdate node _ fun _ => rfl, rfl, rfl⟩
  | answer node theirs reply =>
    exact Or.inl ⟨hupdate node _ fun _ => rfl, rfl, rfl⟩
  | close node losers reply =>
    exact Or.inl ⟨hupdate node _ fun _ => rfl, rfl, rfl⟩
  | merge node theirs reply => exact Or.inr ⟨node, theirs, reply, rfl⟩
  | request node peer msg =>
    simp only [SyncEnv.handle]
    split <;> exact Or.inl ⟨fun _ => rfl, rfl, rfl⟩
  | kill node losers reply =>
    cases losers <;> exact Or.inl ⟨fun _ => rfl, rfl, rfl⟩
  | snapshot node peer => exact Or.inl ⟨fun _ => rfl, rfl, rfl⟩
  | reply node msg => exact Or.inl ⟨fun _ => rfl, rfl, rfl⟩
  | settling node name => exact Or.inl ⟨fun _ => rfl, rfl, rfl⟩
  | peeking node name => exact Or.inl ⟨fun _ => rfl, rfl, rfl⟩

/-- What a list of entries offers is one of them. -/
theorem mem_of_offered {entries : List (String × Pid)} {name : String} {p : Pid}
    (h : offered entries name = p) : (name, p) ∈ entries := by
  induction entries with
  | nil => cases h
  | cons e rest ih =>
    rw [offered, List.foldr_cons] at h
    split at h
    · rename_i hname
      rcases min_choice (e.2 : WithTop Pid) (offered rest name) with hmin | hmin
      · have hp : e.2 = p := WithTop.coe_inj.1 (hmin.symm.trans h)
        rw [← hname, ← hp]
        exact List.mem_cons_self ..
      · exact List.mem_cons_of_mem _ (ih (hmin.symm.trans h))
    · exact List.mem_cons_of_mem _ (ih h)

/-- A merge takes up entries of the other table that are lower. -/
theorem SyncEnv.lookup_mergeAt {s : SyncEnv} {node e : EndpointId}
    {msg : NameMessage} {name : String} {p : Pid}
    (h : ((s.mergeAt node msg).node e).names.lookup name = some p) :
    (s.node e).names.lookup name = some p ∨ e = node ∧ (name, p) ∈ msg.names ∧
      ∀ q ∈ (s.node e).names.lookup name, p < q := by
  by_cases he : e = node
  · subst he
    have hspec := GlobalNames.mergeAll_spec msg.names (s.node e).names
    have hself : (s.mergeAt e msg).node e = ((s.node e).merge msg.names).1 :=
      Function.update_self ..
    have hmin : (p : WithTop Pid) =
        min (held (s.node e).names name) (offered msg.names name) := by
      rw [← hspec.held, ← held_eq_coe.2 h, hself]
      rfl
    rcases min_choice (held (s.node e).names name) (offered msg.names name) with
      hold | hnew
    · exact Or.inl (held_eq_coe.1 (hold.symm.trans hmin.symm))
    · by_cases hsame : (s.node e).names.lookup name = some p
      · exact Or.inl hsame
      · refine Or.inr ⟨rfl, mem_of_offered (hnew.symm.trans hmin.symm),
          fun q hq => ?_⟩
        have hle : (p : WithTop Pid) ≤ q := by
          rw [← held_eq_coe.2 hq, hmin]
          exact min_le_left _ _
        refine (WithTop.coe_le_coe.1 hle).lt_of_ne ?_
        rintro rfl
        exact hsame hq
  · have hother : (s.mergeAt node msg).node e = s.node e :=
      Function.update_of_ne he ..
    rw [hother] at h
    exact Or.inl h

end Plasmoid
