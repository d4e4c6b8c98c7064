import Plasmoid.Pid

/-!
# Exit reasons, system messages and mailboxes

A mailbox is the queue of a particle.  System messages (exit and down
signals) go to the front, everything else to the back.  The blocking half of
`recv` is absent: a state of the model is what the mailbox holds between two
critical sections.
-/

namespace Plasmoid

/-- Why a particle died. -/
inductive ExitReason where
  | normal
  /-- Asked for by name.  Untrappable only when sent directly. -/
  | kill
  /-- The result of being killed. -/
  | killed
  | shutdown (text : String)
  | exception (text : String)
  /-- The target did not exist. -/
  | noProc
  /-- The node holding the target was lost. -/
  | noConnection
deriving DecidableEq, Repr

/-- Every reason but `normal`. -/
def ExitReason.isAbnormal : ExitReason → Bool
  | .normal => false
  | _ => true

@[simp] theorem ExitReason.isAbnormal_iff {r : ExitReason} :
    r.isAbnormal = true ↔ r ≠ .normal := by
  cases r <;> simp [ExitReason.isAbnormal]

inductive SystemMessage where
  | exit (source : Pid) (reason : ExitReason)
  | down (source : Pid) (monitorRef : UInt64) (reason : ExitReason)
deriving DecidableEq, Repr

/-- Why a spawn did not produce a particle. -/
inductive SpawnFailure where
  | componentNotFound
  | initFailed
  | resourceLimit
  | nodeUnreachable
deriving DecidableEq, Repr

inductive MailboxMessage where
  | data (payload : List UInt8)
  | tagged (refId : UInt64) (payload : List UInt8)
  | exit (source : Pid) (reason : ExitReason)
  | down (source : Pid) (refId : UInt64) (reason : ExitReason)
  | spawnReply (refId : UInt64) (outcome : Pid ⊕ SpawnFailure)
deriving DecidableEq, Repr

namespace MailboxMessage

/-- Is the message one that `recv_ref` waits for? -/
def hasRef (ref : UInt64) : MailboxMessage → Bool
  | tagged r _ | down _ r _ | spawnReply r _ => r = ref
  | data _ | exit .. => false

def isTagged : MailboxMessage → Bool
  | tagged .. => true
  | _ => false

/-- Is the message pushed to the front? -/
def isUrgent : MailboxMessage → Bool
  | exit .. | down .. => true
  | _ => false

end MailboxMessage

/-- The first element that passes a test, and the others. -/
def takeFirst {α : Type} (p : α → Bool) : List α → Option (α × List α)
  | [] => none
  | a :: l =>
    if p a then some (a, l) else (takeFirst p l).map fun x => (x.1, a :: x.2)

theorem takeFirst_eq_some {α : Type} {p : α → Bool} {l rest : List α} {a : α} :
    takeFirst p l = some (a, rest) ↔
      ∃ before behind, l = before ++ a :: behind ∧ rest = before ++ behind ∧
        p a = true ∧ ∀ b ∈ before, p b = false := by
  constructor
  · intro h
    induction l generalizing rest with
    | nil => cases h
    | cons b l ih =>
      unfold takeFirst at h
      split at h
      · rename_i hb
        cases h
        exact ⟨[], l, rfl, rfl, hb, fun _ hx => absurd hx List.not_mem_nil⟩
      · rename_i hb
        obtain ⟨⟨a', rest'⟩, hrest, heq⟩ := Option.map_eq_some_iff.1 h
        cases heq
        obtain ⟨before, behind, rfl, rfl, ha, hbefore⟩ := ih hrest
        refine ⟨b :: before, behind, rfl, rfl, ha, fun x hx => ?_⟩
        rcases List.mem_cons.1 hx with rfl | hx
        · simpa using hb
        · exact hbefore x hx
  · rintro ⟨before, behind, rfl, rfl, ha, hbefore⟩
    induction before with
    | nil => exact if_pos ha
    | cons b before ih =>
      have hb : ¬ p b = true := by simp [hbefore b List.mem_cons_self]
      rw [List.cons_append, takeFirst, if_neg hb,
        ih fun x hx => hbefore x (List.mem_cons_of_mem _ hx)]
      rfl

theorem takeFirst_eq_none {α : Type} {p : α → Bool} {l : List α} :
    takeFirst p l = none ↔ ∀ a ∈ l, p a = false := by
  induction l with
  | nil => simp [takeFirst]
  | cons a l ih =>
    rw [takeFirst, List.forall_mem_cons, ← ih]
    cases ha : p a with
    | true => simp
    | false => simp

theorem takeFirst_map {α β : Type} (f : α → β) (p : β → Bool) (l : List α) :
    takeFirst p (l.map f) =
      (takeFirst (fun a => p (f a)) l).map fun x => (f x.1, x.2.map f) := by
  induction l with
  | nil => rfl
  | cons a l ih =>
    rw [List.map_cons, takeFirst, takeFirst, ih]
    split
    · rfl
    · cases takeFirst (fun a => p (f a)) l with
      | none => rfl
      | some x => rfl

/-- The queue entry of a system message. -/
def SystemMessage.toMailbox : SystemMessage → MailboxMessage
  | .exit source reason => .exit source reason
  | .down source monitorRef reason => .down source monitorRef reason

/-- The guarded fields of a mailbox. -/
structure Mailbox where
  queue : List MailboxMessage
  dataCount : Nat
  closed : Bool
deriving DecidableEq, Repr

namespace Mailbox

def new : Mailbox := ⟨[], 0, false⟩

/-- Push a data message.  Refused when the particle is gone. -/
def pushData (m : Mailbox) (payload : List UInt8) : Option Mailbox :=
  if m.closed then none
  else some { m with
    dataCount := m.dataCount + 1, queue := m.queue ++ [.data payload] }

/-- Push a tagged message.  Refused when the particle is gone. -/
def pushTagged (m : Mailbox) (refId : UInt64) (payload : List UInt8) :
    Option Mailbox :=
  if m.closed then none
  else some { m with
    dataCount := m.dataCount + 1, queue := m.queue ++ [.tagged refId payload] }

/-- Push an exit or down signal to the front.  A closed mailbox takes it
too. -/
def pushSystem (m : Mailbox) (msg : SystemMessage) : Mailbox :=
  { m with queue := msg.toMailbox :: m.queue }

def close (m : Mailbox) : Mailbox := { m with closed := true }

/-- Push several signals, in order. -/
def pushSystems (m : Mailbox) (msgs : List SystemMessage) : Mailbox :=
  msgs.foldl pushSystem m

@[simp] theorem pushSystems_nil (m : Mailbox) : m.pushSystems [] = m := rfl

@[simp] theorem pushSystems_cons (m : Mailbox) (msg : SystemMessage)
    (msgs : List SystemMessage) :
    m.pushSystems (msg :: msgs) = (m.pushSystem msg).pushSystems msgs := rfl

theorem pushSystems_append (m : Mailbox) (l₁ l₂ : List SystemMessage) :
    m.pushSystems (l₁ ++ l₂) = (m.pushSystems l₁).pushSystems l₂ :=
  List.foldl_append

/-- Nothing but the queue changes. -/
theorem pushSystems_eq (m : Mailbox) (msgs : List SystemMessage) :
    m.pushSystems msgs = { m with
      queue := (msgs.map SystemMessage.toMailbox).reverse ++ m.queue } := by
  induction msgs generalizing m with
  | nil => rfl
  | cons msg msgs ih =>
    rw [pushSystems_cons, ih]
    simp [pushSystem]

end Mailbox

end Plasmoid
