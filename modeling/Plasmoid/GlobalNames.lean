import Mathlib.Data.List.Sort
import Plasmoid.Lib.Machine
import Plasmoid.Lib.Table
import Plasmoid.Pid

/-!
# Cluster-wide names

`GlobalNames` is the name table of one node and the locks that guard changes
to it.  `register` claims a name: it locks every member in the order of their
ids, commits at every member and unlocks.  A `Call` is one `register` in
progress.

`GlobalClaims` is a cluster whose nodes answer the protocol steps.  A request
takes effect at its target some time before the caller goes on, so a step of
the machine is one request.  A lock request has two steps, because `lock`
reads the names and updates the locks under different guards.
-/

namespace Plasmoid

/-- Why a claim fails. -/
inductive ClaimError where
  | taken (pid : Pid)
  | alreadyNamed (name : String)
  | unsettled
deriving DecidableEq

/-- The replicated name table, and the locks guarding changes to it. -/
structure GlobalNames where
  me : EndpointId
  names : Table String Pid
  locks : Table String EndpointId
  merges : Nat

namespace GlobalNames

def new (me : EndpointId) : GlobalNames where
  me := me
  names := ∅
  locks := ∅
  merges := 0

/-- The first half of `lock`: the pid that the name is taken by. -/
def lockCheck (g : GlobalNames) (name : String) : Option Pid :=
  g.names.lookup name

/-- The second half of `lock`: take the lock for `holder`, unless another node
has it.  Re-entrant for the same holder. -/
def lockTake (g : GlobalNames) (name : String) (holder : EndpointId) :
    Option GlobalNames :=
  match g.locks.lookup name with
  | some h =>
    if h ≠ holder then none
    else some { g with locks := g.locks.insert name holder }
  | none => some { g with locks := g.locks.insert name holder }

def unlock (g : GlobalNames) (name : String) (holder : EndpointId) :
    GlobalNames :=
  if g.locks.lookup name = some holder then
    { g with locks := g.locks.erase name }
  else g

def commit (g : GlobalNames) (name : String) (pid : Pid) : GlobalNames :=
  { g with names := g.names.insert name pid }

/-- Drop a name, but only if the pid still owns it. -/
def release (g : GlobalNames) (name : String) (pid : Pid) : GlobalNames :=
  if g.names.lookup name = some pid then
    { g with names := g.names.erase name }
  else g

/-- The global name that a particle holds, if any. -/
def nameOf (g : GlobalNames) (pid : Pid) : Option String :=
  (g.names.entries.find? fun e => e.2 = pid).map (·.1)

/-- Whoever takes a lock enters its name and nothing else. -/
theorem lockTake_eq_some {g g' : GlobalNames} {name : String}
    {holder : EndpointId} (h : g.lockTake name holder = some g') :
    g' = { g with locks := g.locks.insert name holder } := by
  unfold lockTake at h
  split at h
  · split at h <;> cases h
    rfl
  · cases h
    rfl

@[simp] theorem locks_commit (g : GlobalNames) (name : String) (pid : Pid) :
    (g.commit name pid).locks = g.locks := rfl

@[simp] theorem names_unlock (g : GlobalNames) (name : String)
    (holder : EndpointId) : (g.unlock name holder).names = g.names := by
  unfold unlock
  split <;> rfl

theorem lookup_unlock (g : GlobalNames) (name : String)
    (holder : EndpointId) : (g.unlock name holder).locks.lookup name =
      if g.locks.lookup name = some holder then none
      else g.locks.lookup name := by
  unfold unlock
  split
  · exact AList.lookup_erase _ _
  · rfl

theorem lookup_unlock_ne (g : GlobalNames) {name name' : String}
    (holder : EndpointId) (h : name' ≠ name) :
    (g.unlock name holder).locks.lookup name' = g.locks.lookup name' := by
  unfold unlock
  split
  · exact AList.lookup_erase_ne h
  · rfl

end GlobalNames

/-- A protocol step, as it is asked of a node. -/
inductive GlobalRequest where
  | lock (name : String) (holder : EndpointId)
  | unlock (name : String) (holder : EndpointId)
  | commit (name : String) (pid : Pid) (holder : EndpointId)
  | release (name : String) (pid : Pid)
deriving DecidableEq

inductive GlobalResponse where
  | locked
  | taken (pid : Pid)
  | busy
  | ok
deriving DecidableEq

namespace GlobalNames

/-- Take the lock on a name: both halves without anything in between. -/
def lock (g : GlobalNames) (name : String) (holder : EndpointId) :
    GlobalNames × GlobalResponse :=
  match g.lockCheck name with
  | some pid => (g, .taken pid)
  | none =>
    match g.lockTake name holder with
    | some g => (g, .locked)
    | none => (g, .busy)

/-- Apply an incoming protocol step to our own table. -/
def apply (g : GlobalNames) : GlobalRequest → GlobalNames × GlobalResponse
  | .lock name holder => g.lock name holder
  | .unlock name holder => (g.unlock name holder, .ok)
  | .commit name pid _ => (g.commit name pid, .ok)
  | .release name pid => (g.release name pid, .ok)

end GlobalNames

/-- How many times a claim retries a busy or shifting cluster. -/
def claimRetries : Nat := 3

/-- The members to lock, in the order that every claimant uses. -/
def claimMembers (me : EndpointId) (nodes : List EndpointId) :
    List EndpointId :=
  (nodes ++ [me]).insertionSort (· ≤ ·)

theorem mem_claimMembers {me e : EndpointId} {nodes : List EndpointId} :
    e ∈ claimMembers me nodes ↔ e ∈ nodes ∨ e = me := by
  rw [claimMembers, List.mem_insertionSort, List.mem_append, List.mem_singleton]

/-! ## One call of `register` -/

/-- How far a call is.  `attempts` is how often it may still retry. -/
inductive CallPhase where
  | settling
  /-- About to look for a name that the claimant already holds. -/
  | checking
  | sorting (attempts : Nat)
  /-- About to read the names of `node`. -/
  | locking (attempts : Nat) (held : List EndpointId) (node : EndpointId)
      (rest : List EndpointId)
  /-- About to update the locks of `node`. -/
  | taking (attempts : Nat) (held : List EndpointId) (node : EndpointId)
      (rest : List EndpointId)
  | committing (attempts : Nat) (held : List EndpointId) (node : EndpointId)
      (rest : List EndpointId)
  | releasing (attempts : Nat) (node : EndpointId) (rest : List EndpointId)
      (result : Except ClaimError Unit)
  | returned (result : Except ClaimError Unit)
deriving DecidableEq

namespace CallPhase

/-- Has the call yet to return? -/
def active : CallPhase → Bool
  | returned _ => false
  | _ => true

/-- What `register` makes of the result of `try_claim`. -/
def claimed (attempts : Nat) : Except ClaimError Unit → CallPhase
  | .error .unsettled => sorting attempts
  | result => returned result

/-- `release_locks`, and the return from `try_claim`. -/
def releaseLocks (attempts : Nat) (result : Except ClaimError Unit) :
    List EndpointId → CallPhase
  | node :: rest => releasing attempts node rest result
  | [] => claimed attempts result

def commitAll (attempts : Nat) (held : List EndpointId) :
    List EndpointId → CallPhase
  | node :: rest => committing attempts held node rest
  | [] => releaseLocks attempts (.ok ()) held

/-- The loop of `try_claim` over the members that are left. -/
def lockAll (attempts : Nat) (held : List EndpointId) :
    List EndpointId → CallPhase
  | node :: rest => locking attempts held node rest
  | [] => commitAll attempts held held

end CallPhase

/-- A call of `register` on the node `home`. -/
structure Call where
  home : EndpointId
  name : String
  pid : Pid
  phase : CallPhase
deriving DecidableEq

/-! ## The machine -/

/-- The tables of every node, and the calls that were ever made. -/
structure GlobalClaims where
  node : EndpointId → GlobalNames
  calls : List Call

inductive ClaimAction where
  | register (home : EndpointId) (name : String) (pid : Pid)
  /-- The call takes its next step. -/
  | advance (i : Nat)

namespace GlobalClaims

open CallPhase

def start : GlobalClaims := ⟨.new, []⟩

def put (s : GlobalClaims) (u : EndpointId) (g : GlobalNames) : GlobalClaims :=
  { s with node := Function.update s.node u g }

def goto (s : GlobalClaims) (i : Nat) (c : Call) (phase : CallPhase) :
    GlobalClaims :=
  { s with calls := s.calls.set i { c with phase } }

/-- The next step of a call.  `nodes` are the nodes that its home knows. -/
def advance (nodes : EndpointId → List EndpointId) (s : GlobalClaims) (i : Nat)
    (c : Call) : Option GlobalClaims :=
  match c.phase with
  | .settling =>
    -- A merge that is still in flight has outlasted the deadline.
    some (s.goto i c
      (if (s.node c.home).merges = 0 then checking
        else returned (.error .unsettled)))
  | .checking =>
    match (s.node c.home).nameOf c.pid with
    | some existing => some (s.goto i c (returned (.error (.alreadyNamed existing))))
    | none => some (s.goto i c (sorting claimRetries))
  | .sorting 0 => some (s.goto i c (returned (.error .unsettled)))
  | .sorting (attempts + 1) =>
    some (s.goto i c (lockAll attempts [] (claimMembers c.home (nodes c.home))))
  | .locking attempts held node rest =>
    match (s.node node).lockCheck c.name with
    | some p => some (s.goto i c (releaseLocks attempts (.error (.taken p)) held))
    | none => some (s.goto i c (taking attempts held node rest))
  | .taking attempts held node rest =>
    match (s.node node).lockTake c.name c.home with
    | some g => some ((s.put node g).goto i c (lockAll attempts (held ++ [node]) rest))
    | none => some (s.goto i c (releaseLocks attempts (.error .unsettled) held))
  | .committing attempts held node rest =>
    some ((s.put node ((s.node node).commit c.name c.pid)).goto i c
      (commitAll attempts held rest))
  | .releasing attempts node rest result =>
    some ((s.put node ((s.node node).unlock c.name c.home)).goto i c
      (releaseLocks attempts result rest))
  | .returned _ => none

def step (nodes : EndpointId → List EndpointId) (s : GlobalClaims) :
    ClaimAction → Option GlobalClaims
  | .register home name pid =>
    some { s with calls := s.calls ++ [⟨home, name, pid, .settling⟩] }
  | .advance i => s.calls[i]?.bind fun c => s.advance nodes i c

/-- The pid that the table of a node binds a name to. -/
def bound (s : GlobalClaims) (u : EndpointId) (name : String) : Option Pid :=
  (s.node u).names.lookup name

/-- The call returned `Ok`. -/
def Succeeded (s : GlobalClaims) (i : Nat) (c : Call) : Prop :=
  s.calls[i]? = some c ∧ c.phase = .returned (.ok ())

instance (s : GlobalClaims) (i : Nat) (c : Call) :
    Decidable (s.Succeeded i c) :=
  inferInstanceAs (Decidable (_ ∧ _))

/-- At most one call for each name returned `Ok`. -/
def OneOk (s : GlobalClaims) : Prop :=
  ∀ i j c d, s.Succeeded i c → s.Succeeded j d → c.name = d.name → i = j

/-- A call that has returned stays so. -/
theorem active_of_advance {nodes : EndpointId → List EndpointId}
    {s t : GlobalClaims} {i : Nat} {c : Call}
    (h : s.advance nodes i c = some t) : c.phase.active = true := by
  cases hphase : c.phase with
  | returned result =>
    simp only [advance, hphase] at h
    cases h
  | _ => rfl

end GlobalClaims

end Plasmoid
