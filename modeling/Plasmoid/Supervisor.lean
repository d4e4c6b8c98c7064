import Plasmoid.Lib.Plan
import Plasmoid.Message

/-!
# Restart policies

The policy of a supervisor decides what to do when a child exits and returns
the actions to perform; it performs none of them.  `Supervisor` has a fixed
list of children and a strategy.  `DynamicSupervisor` has children that come
and go.

The reasons of the SDK are those of the host under other names, so
`ExitReason` serves for both.
-/

namespace Plasmoid

/-- Whether this reason restarts a `transient` child. -/
def ExitReason.warrantsRestart : ExitReason → Bool
  | .normal | .shutdown _ => false
  | _ => true

/-- When a terminated child is restarted. -/
inductive Restart where
  | permanent
  /-- Only after an abnormal exit. -/
  | transient
  | temporary
deriving DecidableEq

/-- How a child is stopped on purpose. -/
inductive Shutdown where
  /-- An untrappable kill, immediately. -/
  | brutalKill
  /-- Ask, wait this many milliseconds, then kill. -/
  | timeout (ms : UInt64)
  /-- Ask and wait indefinitely. -/
  | infinity
deriving DecidableEq

/-- What to start. -/
structure Start where
  component : String
  initArgs : String
deriving DecidableEq

/-- A child, as data the supervisor can hold and act on. -/
structure ChildSpec where
  /-- Stable across restarts, unlike the pid. -/
  id : String
  start : Start
  restart : Restart
  shutdown : Shutdown
deriving DecidableEq

/-- A child of `component` with the default settings. -/
def ChildSpec.new (id component : String) : ChildSpec where
  id := id
  start := ⟨component, ""⟩
  restart := .permanent
  shutdown := .timeout 5000

inductive Strategy where
  | oneForOne
  | oneForAll
  | restForOne
deriving DecidableEq

/-- Strategy plus the brake that stops a crash loop. -/
structure SupFlags where
  strategy : Strategy
  intensity : UInt32
  periodMs : UInt64

/-- Something the driver must do. -/
inductive Action where
  | start (spec : ChildSpec)
  | stop (id : String) (shutdown : Shutdown)
  | giveUp
deriving DecidableEq

/-- `saturating_sub`. -/
def saturatingSub (a b : UInt64) : UInt64 := if a < b then 0 else a - b

/-- Forget the restarts before the cutoff, from the oldest on. -/
def forgetRestartsBefore (cutoff : UInt64) (restarts : List UInt64) :
    List UInt64 :=
  restarts.dropWhile fun t => t < cutoff

/-- Whether a child of this restart type comes back. -/
def Restart.restarts (restart : Restart) (reason : ExitReason) : Bool :=
  match restart with
  | .permanent => true
  | .temporary => false
  | .transient => reason.warrantsRestart

/-! ## The supervisor with a strategy -/

/-- A supervisor's policy state. -/
structure Supervisor where
  flags : SupFlags
  children : List ChildSpec
  /-- Which children are believed to be running, parallel to `children`. -/
  running : Fin children.length → Bool
  /-- The times of recent restarts, oldest first. -/
  restarts : List UInt64

namespace Supervisor

def new (flags : SupFlags) (children : List ChildSpec) : Supervisor where
  flags := flags
  children := children
  running := fun _ => false
  restarts := []

/-- The positions of the children, in start order. -/
def positions (children : List ChildSpec) : List (Fin children.length) :=
  List.finRange children.length

def indexOf (children : List ChildSpec) (id : String) :
    Option (Fin children.length) :=
  (positions children).find? fun i => (children.get i).id = id

def isRunning (sup : Supervisor) (id : String) : Bool :=
  match indexOf sup.children id with
  | none => false
  | some i => sup.running i

/-- One turn of a loop that stops children.  The child at `spare` is passed
over. -/
def stopTurn (children : List ChildSpec) (spare : Option (Fin children.length))
    (w : (Fin children.length → Bool) × List Action)
    (i : Fin children.length) : (Fin children.length → Bool) × List Action :=
  if some i ≠ spare ∧ w.1 i = true then
    (Function.update w.1 i false,
      w.2 ++ [.stop (children.get i).id (children.get i).shutdown])
  else w

/-- One turn of the loop that restarts children.  The last component counts
the restarts. -/
def restartTurn (children : List ChildSpec)
    (w : (Fin children.length → Bool) × List Action × UInt32)
    (i : Fin children.length) :
    (Fin children.length → Bool) × List Action × UInt32 :=
  if (children.get i).restart = .temporary then w
  else
    (Function.update w.1 i true, w.2.1 ++ [.start (children.get i)], w.2.2 + 1)

/-- Start every child, left to right. -/
def init (sup : Supervisor) : Supervisor × List Action :=
  ({ sup with running := fun _ => true },
    (positions sup.children).map fun i => .start (sup.children.get i))

/-- Stop every running child, in reverse start order. -/
def shutdown (sup : Supervisor) : Supervisor × List Action :=
  let w := (positions sup.children).reverse.foldl (stopTurn sup.children none)
    (sup.running, [])
  ({ sup with running := w.1 }, w.2)

/-- Terminate everything still running, then stop. -/
def giveUp (sup : Supervisor) : Supervisor × List Action :=
  (sup.shutdown.1, sup.shutdown.2 ++ [.giveUp])

/-- The children that the strategy disturbs when the one at `idx` exits. -/
def affected (strategy : Strategy) (children : List ChildSpec)
    (idx : Fin children.length) : List (Fin children.length) :=
  match strategy with
  | .oneForOne => [idx]
  | .oneForAll => positions children
  | .restForOne => (positions children).drop idx

/-- The loops of a restart: stop the survivors in reverse order, then restart
forwards. -/
def restartLoops (sup : Supervisor) (idx : Fin sup.children.length) :
    (Fin sup.children.length → Bool) × List Action × UInt32 :=
  let affected := affected sup.flags.strategy sup.children idx
  let stopped := affected.reverse.foldl (stopTurn sup.children (some idx))
    (Function.update sup.running idx false, [])
  affected.foldl (restartTurn sup.children) (stopped.1, stopped.2, 0)

/-- A child exited. -/
def onChildExit (sup : Supervisor) (id : String) (reason : ExitReason)
    (nowMs : UInt64) : Supervisor × List Action :=
  match indexOf sup.children id with
  | none => (sup, [])
  | some idx =>
    if ¬ (sup.children.get idx).restart.restarts reason then
      ({ sup with running := Function.update sup.running idx false }, [])
    else
      let restarted := sup.restartLoops idx
      let restarts := forgetRestartsBefore
        (saturatingSub nowMs sup.flags.periodMs)
        (sup.restarts ++ List.replicate restarted.2.2.toNat nowMs)
      let sup := { sup with running := restarted.1, restarts }
      if sup.flags.intensity < UInt32.ofNat restarts.length then sup.giveUp
      else (sup, restarted.2.1)

theorem mem_positions {children : List ChildSpec} (i : Fin children.length) :
    i ∈ positions children :=
  List.mem_finRange i

theorem nodup_positions (children : List ChildSpec) :
    (positions children).Nodup :=
  List.nodup_finRange _

theorem nodup_affected (strategy : Strategy) (children : List ChildSpec)
    (idx : Fin children.length) : (affected strategy children idx).Nodup := by
  cases strategy with
  | oneForOne => exact List.nodup_singleton idx
  | oneForAll => exact nodup_positions children
  | restForOne => exact (nodup_positions children).sublist (List.drop_sublist _ _)

theorem indexOf_some {children : List ChildSpec} {id : String}
    {i : Fin children.length} (h : indexOf children id = some i) :
    (children.get i).id = id := by
  have := List.find?_some h
  simpa using this

/-- What a stopping loop does: every child it visits is marked as stopped, and
the running ones get a stop, in the order of the visits. -/
theorem foldl_stopTurn (children : List ChildSpec)
    (spare : Option (Fin children.length)) (is : List (Fin children.length))
    (his : is.Nodup) (running : Fin children.length → Bool)
    (actions : List Action) :
    is.foldl (stopTurn children spare) (running, actions) =
      (fun j => if j ∈ is ∧ some j ≠ spare then false else running j,
        actions ++ (is.filter fun i => some i ≠ spare ∧ running i = true).map
          fun i => .stop (children.get i).id (children.get i).shutdown) := by
  induction is generalizing running actions with
  | nil => simp
  | cons i is ih =>
    obtain ⟨hi, his⟩ := List.nodup_cons.1 his
    rw [List.foldl_cons, stopTurn]
    split
    · rename_i h
      rw [ih his]
      -- The loop does not come back to `i`.
      have hrest : (is.filter fun j =>
          some j ≠ spare ∧ Function.update running i false j = true) =
          is.filter fun j => some j ≠ spare ∧ running j = true := by
        apply List.filter_congr
        intro j hj
        have hne : j ≠ i := fun heq => hi (heq ▸ hj)
        rw [Function.update_of_ne hne]
      rw [hrest, List.filter_cons_of_pos (by simpa using h)]
      refine Prod.ext ?_ (by simp)
      funext j
      by_cases hj : j = i
      · subst hj
        simp [h.1]
      · simp [hj]
    · rename_i h
      rw [ih his, List.filter_cons_of_neg (by simpa using h)]
      refine Prod.ext ?_ rfl
      funext j
      by_cases hj : j = i
      · subst hj
        have hrunning : some j ≠ spare → running j = false := by
          intro hne
          simpa [hne] using h
        by_cases hne : some j = spare
        · simp [hne]
        · simp [hne, hi, hrunning hne]
      · simp [hj]

/-- What the restarting loop does: every child it visits but the `temporary`
ones is marked as running and gets a start, in the order of the visits. -/
theorem foldl_restartTurn (children : List ChildSpec)
    (is : List (Fin children.length)) (running : Fin children.length → Bool)
    (actions : List Action) (n : UInt32) :
    (is.foldl (restartTurn children) (running, actions, n)).1 =
        (fun j => if j ∈ is ∧ (children.get j).restart ≠ .temporary then true
          else running j) ∧
      (is.foldl (restartTurn children) (running, actions, n)).2.1 =
        actions ++
          (is.filter fun i => (children.get i).restart ≠ .temporary).map fun i =>
            .start (children.get i) := by
  induction is generalizing running actions n with
  | nil => simp
  | cons i is ih =>
    rw [List.foldl_cons, restartTurn]
    split
    · rename_i h
      obtain ⟨hrunning, hactions⟩ := ih running actions n
      rw [hrunning, hactions]
      refine ⟨?_, by rw [List.filter_cons_of_neg (by simpa using h)]⟩
      funext j
      by_cases hj : j = i
      · subst hj
        have htemp : children[(j : ℕ)].restart = .temporary := h
        simp [htemp]
      · simp [hj]
    · rename_i h
      obtain ⟨hrunning, hactions⟩ := ih (Function.update running i true)
        (actions ++ [.start (children.get i)]) (n + 1)
      rw [hrunning, hactions, List.filter_cons_of_pos (by simpa using h)]
      refine ⟨?_, by simp⟩
      funext j
      by_cases hj : j = i
      · subst hj
        have hkept : children[(j : ℕ)].restart ≠ .temporary := h
        simp [hkept]
      · simp [hj]

end Supervisor

/-! ## The supervisor of a pool -/

/-- Why a dynamic child could not be started. -/
inductive StartChildError where
  | duplicateId (id : String)

structure DynamicSupervisor where
  intensity : UInt32
  periodMs : UInt64
  children : List ChildSpec
  restarts : List UInt64

namespace DynamicSupervisor

def new (flags : SupFlags) : DynamicSupervisor where
  intensity := flags.intensity
  periodMs := flags.periodMs
  children := []
  restarts := []

def contains (sup : DynamicSupervisor) (id : String) : Bool :=
  sup.children.any fun c => c.id = id

/-- Add a child and start it. -/
def startChild (sup : DynamicSupervisor) (spec : ChildSpec) :
    DynamicSupervisor × Except StartChildError Action :=
  if sup.contains spec.id then (sup, .error (.duplicateId spec.id))
  else ({ sup with children := sup.children ++ [spec] }, .ok (.start spec))

/-- Stop a child by id. -/
def terminateChild (sup : DynamicSupervisor) (id : String) :
    DynamicSupervisor × Option Action :=
  match sup.children.find? fun c => c.id = id with
  | none => (sup, none)
  | some child =>
    ({ sup with children := sup.children.eraseP fun c => c.id = id },
      some (.stop child.id child.shutdown))

/-- Stop every child. -/
def shutdown (sup : DynamicSupervisor) : DynamicSupervisor × List Action :=
  ({ sup with children := [] },
    sup.children.map fun c => .stop c.id c.shutdown)

/-- A child exited. -/
def onChildExit (sup : DynamicSupervisor) (id : String) (reason : ExitReason)
    (nowMs : UInt64) : DynamicSupervisor × List Action :=
  match sup.children.find? fun c => c.id = id with
  | none => (sup, [])
  | some spec =>
    if ¬ spec.restart.restarts reason then
      ({ sup with children := sup.children.eraseP fun c => c.id = id }, [])
    else
      let restarts := forgetRestartsBefore (saturatingSub nowMs sup.periodMs)
        (sup.restarts ++ [nowMs])
      let sup := { sup with restarts }
      if sup.intensity < UInt32.ofNat restarts.length then
        (sup.shutdown.1, sup.shutdown.2 ++ [.giveUp])
      else (sup, [.start spec])

end DynamicSupervisor

end Plasmoid
