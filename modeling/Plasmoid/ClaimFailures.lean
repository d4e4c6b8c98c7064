import Mathlib.Data.List.TakeWhile
import Plasmoid.GlobalNames

/-!
# Claims whose steps fail

`try_claim` asks every member for the lock, then asks every member to commit
and to unlock.  A request to another node may be lost, or its reply may be lost
after the node has applied it.  Both look the same to the caller: a lock step
without a reply counts as `Busy`, and the other steps are not looked at.

The members that are asked for the lock are those before the first one that
refuses or does not answer.  `Spared` says that no failure does harm: a lock
that was taken but not acknowledged, a lost unlock or a lost commit.  A claim is
all or nothing exactly then (`tryClaim_allOrNothing_iff`).
-/

namespace Plasmoid

/-- What becomes of a request to another node. -/
inductive Fate where
  | delivered
  | requestLost
  | replyLost
deriving DecidableEq

/-- The tables of all nodes. -/
abbrev NameTables := EndpointId → GlobalNames

/-- Which protocol steps fail, and how. -/
abbrev Fates := EndpointId → GlobalRequest → Fate

namespace NameTables

/-- Send one protocol step, taking the local shortcut for ourselves. -/
def ask (fates : Fates) (me node : EndpointId) (req : GlobalRequest)
    (s : NameTables) : NameTables × Option GlobalResponse :=
  if node = me then
    (Function.update s node ((s node).apply req).1, ((s node).apply req).2)
  else
    match fates node req with
    | .delivered =>
      (Function.update s node ((s node).apply req).1, ((s node).apply req).2)
    | .requestLost => (s, none)
    | .replyLost => (Function.update s node ((s node).apply req).1, none)

/-- `release_locks`. -/
def releaseLocks (fates : Fates) (me : EndpointId) (name : String) :
    List EndpointId → NameTables → NameTables
  | [], s => s
  | node :: rest, s =>
    releaseLocks fates me name rest (ask fates me node (.unlock name me) s).1

/-- The second loop of `try_claim`. -/
def commitAll (fates : Fates) (me : EndpointId) (name : String) (pid : Pid) :
    List EndpointId → NameTables → NameTables
  | [], s => s
  | node :: rest, s =>
    commitAll fates me name pid rest
      (ask fates me node (.commit name pid me) s).1

/-- `try_claim` from its first loop on.  `held` are the members that are
locked. -/
def lockAll (fates : Fates) (me : EndpointId) (name : String) (pid : Pid)
    (held : List EndpointId) :
    List EndpointId → NameTables → NameTables × Except ClaimError Unit
  | [], s =>
    (releaseLocks fates me name held (commitAll fates me name pid held s),
      .ok ())
  | node :: rest, s =>
    match ask fates me node (.lock name me) s with
    | (s, some .locked) =>
      lockAll fates me name pid (held ++ [node]) rest s
    | (s, some (.taken p)) =>
      (releaseLocks fates me name held s, .error (.taken p))
    | (s, _) => (releaseLocks fates me name held s, .error .unsettled)

def tryClaim (fates : Fates) (me : EndpointId) (name : String) (pid : Pid)
    (members : List EndpointId) (s : NameTables) :
    NameTables × Except ClaimError Unit :=
  lockAll fates me name pid [] members s

/-- If the claim failed, no member holds its lock and no table has its entry; if
it succeeded, every member has its entry and none holds its lock. -/
def AllOrNothing (me : EndpointId) (name : String) (pid : Pid)
    (members : List EndpointId) (r : NameTables × Except ClaimError Unit) :
    Prop :=
  match r.2 with
  | .error _ => (∀ n ∈ members, (r.1 n).locks.lookup name ≠ some me) ∧
      ∀ n, (r.1 n).names.lookup name ≠ some pid
  | .ok () => ∀ n ∈ members, (r.1 n).names.lookup name = some pid ∧
      (r.1 n).locks.lookup name ≠ some me

/-! ## Which failures do harm -/

/-- The request takes effect. -/
def Arrives (fates : Fates) (me node : EndpointId) (req : GlobalRequest) :
    Prop :=
  node = me ∨ fates node req ≠ .requestLost

/-- The request takes effect and the caller hears of it. -/
def Answered (fates : Fates) (me node : EndpointId) (req : GlobalRequest) :
    Prop :=
  node = me ∨ fates node req = .delivered

instance (fates : Fates) (me node : EndpointId) (req : GlobalRequest) :
    Decidable (Arrives fates me node req) :=
  inferInstanceAs (Decidable (_ ∨ _))

instance (fates : Fates) (me node : EndpointId) (req : GlobalRequest) :
    Decidable (Answered fates me node req) :=
  inferInstanceAs (Decidable (_ ∨ _))

/-- The node grants the lock and says so. -/
def grants (fates : Fates) (me : EndpointId) (name : String) (s : NameTables)
    (node : EndpointId) : Bool :=
  ((s node).lock name me).2 = .locked ∧ Answered fates me node (.lock name me)

/-- No step fails in a way that matters: every lock that was granted is taken
back, every member commits if all are locked, and the member that ends the loop
has not taken the lock. -/
def Spared (fates : Fates) (me : EndpointId) (name : String) (pid : Pid)
    (members : List EndpointId) (s : NameTables) : Prop :=
  (∀ n ∈ members.takeWhile (grants fates me name s),
    Arrives fates me n (.unlock name me)) ∧
  (members.dropWhile (grants fates me name s) = [] →
    ∀ n ∈ members, Arrives fates me n (.commit name pid me)) ∧
  ∀ node ∈ (members.dropWhile (grants fates me name s)).head?,
    ((s node).lock name me).2 = .locked →
      ¬ Arrives fates me node (.lock name me)

instance (fates : Fates) (me : EndpointId) (name : String) (pid : Pid)
    (members : List EndpointId) (s : NameTables) :
    Decidable (Spared fates me name pid members s) :=
  inferInstanceAs (Decidable (_ ∧ _ ∧ _))

/-! ## What the loops do -/

/-- `lock` enters the holder, or changes nothing. -/
theorem lock_spec (g : GlobalNames) (name : String) (holder : EndpointId) :
    (g.lock name holder).1.names = g.names ∧
      ((g.lock name holder).2 = .locked → g.names.lookup name = none ∧
        (g.lock name holder).1.locks.lookup name = some holder) ∧
      ((g.lock name holder).2 ≠ .locked → (g.lock name holder).1 = g) := by
  unfold GlobalNames.lock
  cases hcheck : g.lockCheck name with
  | some p => exact ⟨rfl, by simp, fun _ => rfl⟩
  | none =>
    cases htake : g.lockTake name holder with
    | none => exact ⟨rfl, by simp, fun _ => rfl⟩
    | some g' =>
      obtain rfl := GlobalNames.lockTake_eq_some htake
      exact ⟨rfl, fun _ => ⟨hcheck, AList.lookup_insert _⟩,
        fun h => absurd rfl h⟩

variable {fates : Fates} {me : EndpointId} {name : String} {pid : Pid}

/-- A step changes its target, if it arrives. -/
theorem ask_fst (fates : Fates) (me node : EndpointId) (req : GlobalRequest)
    (s : NameTables) : (ask fates me node req s).1 =
      if Arrives fates me node req then
        Function.update s node ((s node).apply req).1
      else s := by
  by_cases hme : node = me
  · simp [ask, Arrives, hme]
  · cases hfate : fates node req <;> simp [ask, Arrives, hme, hfate]

theorem ask_snd (fates : Fates) (me node : EndpointId) (req : GlobalRequest)
    (s : NameTables) : (ask fates me node req s).2 =
      if Answered fates me node req then some ((s node).apply req).2
      else none := by
  by_cases hme : node = me
  · simp [ask, Answered, hme]
  · cases hfate : fates node req <;> simp [ask, Answered, hme, hfate]

/-- Whoever hears of a step that it took effect is right. -/
theorem Answered.arrives {node : EndpointId} {req : GlobalRequest}
    (h : Answered fates me node req) : Arrives fates me node req :=
  h.imp_right fun hfate => by
    rw [hfate]
    decide

theorem releaseLocks_apply {nodes : List EndpointId} (hnodup : nodes.Nodup)
    (s : NameTables) (n : EndpointId) :
    releaseLocks fates me name nodes s n =
      if n ∈ nodes ∧ Arrives fates me n (.unlock name me) then
        (s n).unlock name me
      else s n := by
  induction nodes generalizing s with
  | nil => simp [releaseLocks]
  | cons node rest ih =>
    obtain ⟨hnode, hrest⟩ := List.nodup_cons.1 hnodup
    rw [releaseLocks, ih hrest, ask_fst]
    by_cases heq : n = node
    · subst heq
      simp only [hnode, false_and, if_false, List.mem_cons_self, true_and]
      split <;> simp [GlobalNames.apply]
    · have hkept : (if Arrives fates me node (.unlock name me) then
          Function.update s node ((s node).apply (.unlock name me)).1
          else s) n = s n := by
        split
        · exact Function.update_of_ne heq ..
        · rfl
      simp only [hkept, List.mem_cons, heq, false_or]

theorem commitAll_apply {nodes : List EndpointId} (hnodup : nodes.Nodup)
    (s : NameTables) (n : EndpointId) :
    commitAll fates me name pid nodes s n =
      if n ∈ nodes ∧ Arrives fates me n (.commit name pid me) then
        (s n).commit name pid
      else s n := by
  induction nodes generalizing s with
  | nil => simp [commitAll]
  | cons node rest ih =>
    obtain ⟨hnode, hrest⟩ := List.nodup_cons.1 hnodup
    rw [commitAll, ih hrest, ask_fst]
    by_cases heq : n = node
    · subst heq
      simp only [hnode, false_and, if_false, List.mem_cons_self, true_and]
      split <;> simp [GlobalNames.apply]
    · have hkept : (if Arrives fates me node (.commit name pid me) then
          Function.update s node ((s node).apply (.commit name pid me)).1
          else s) n = s n := by
        split
        · exact Function.update_of_ne heq ..
        · rfl
      simp only [hkept, List.mem_cons, heq, false_or]

/-- The tables after the lock step took effect at some nodes. -/
def lockedAt (me : EndpointId) (name : String) (nodes : List EndpointId)
    (s : NameTables) : NameTables :=
  fun n => if n ∈ nodes then ((s n).lock name me).1 else s n

theorem lockedAt_append {nodes : List EndpointId} {node : EndpointId}
    (hnode : node ∉ nodes) (s : NameTables) :
    Function.update (lockedAt me name nodes s) node
      ((lockedAt me name nodes s node).apply (.lock name me)).1 =
        lockedAt me name (nodes ++ [node]) s := by
  funext n
  by_cases heq : n = node
  · subst heq
    simp [lockedAt, hnode, GlobalNames.apply]
  · rw [Function.update_of_ne heq]
    simp [lockedAt, heq]

/-- The first loop locks the members up to the first one that does not grant,
and that one too if its reply was lost. -/
theorem lockAll_eq (s : NameTables) {held rest : List EndpointId}
    (hnodup : (held ++ rest).Nodup) :
    match rest.dropWhile (grants fates me name s) with
    | [] => lockAll fates me name pid held rest (lockedAt me name held s) =
        (releaseLocks fates me name (held ++ rest)
          (commitAll fates me name pid (held ++ rest)
            (lockedAt me name (held ++ rest) s)), .ok ())
    | node :: _ => ∃ err,
        lockAll fates me name pid held rest (lockedAt me name held s) =
          (releaseLocks fates me name
            (held ++ rest.takeWhile (grants fates me name s))
            (lockedAt me name (held ++ rest.takeWhile (grants fates me name s) ++
              if Arrives fates me node (.lock name me) then [node] else []) s),
            .error err) := by
  induction rest generalizing held with
  | nil => simp [lockAll]
  | cons node rest ih =>
    have hnode : node ∉ held := fun h =>
      (List.nodup_append.1 hnodup).2.2 node h node (List.mem_cons_self ..) rfl
    have hasked : lockedAt me name held s node = s node := by
      simp [lockedAt, hnode]
    have htables : (ask fates me node (.lock name me)
        (lockedAt me name held s)).1 = lockedAt me name
          (held ++ if Arrives fates me node (.lock name me) then [node] else [])
            s := by
      rw [ask_fst]
      split
      · exact lockedAt_append hnode s
      · rw [List.append_nil]
    have hreply := ask_snd fates me node (.lock name me)
      (lockedAt me name held s)
    rw [hasked] at hreply
    by_cases hgrants : grants fates me name s node = true
    · obtain ⟨hlocked, hanswered⟩ := of_decide_eq_true hgrants
      rw [if_pos hanswered] at hreply
      rw [if_pos hanswered.arrives] at htables
      rw [show ((s node).apply (.lock name me)).2 = .locked from hlocked]
        at hreply
      rw [List.dropWhile_cons_of_pos hgrants,
        List.takeWhile_cons_of_pos hgrants, lockAll]
      have hask : ask fates me node (.lock name me)
          (lockedAt me name held s) =
            (lockedAt me name (held ++ [node]) s, some .locked) :=
        Prod.ext htables hreply
      rw [hask]
      have hih := @ih (held ++ [node]) (by simpa using hnodup)
      simpa using hih
    · rw [List.dropWhile_cons_of_neg hgrants,
        List.takeWhile_cons_of_neg hgrants, List.append_nil, lockAll]
      revert htables hreply
      generalize ask fates me node (.lock name me)
        (lockedAt me name held s) = r
      obtain ⟨tables, reply⟩ := r
      rintro rfl hreply
      replace hreply : reply = _ := hreply
      cases reply with
      | none => exact ⟨.unsettled, rfl⟩
      | some response =>
        cases response with
        | taken p => exact ⟨.taken p, rfl⟩
        | busy => exact ⟨.unsettled, rfl⟩
        | ok => exact ⟨.unsettled, rfl⟩
        | locked =>
          -- A node that grants the lock and says so does not end the loop.
          by_cases hanswered : Answered fates me node (.lock name me)
          · rw [if_pos hanswered, Option.some_inj] at hreply
            refine absurd ?_ hgrants
            simp only [grants, decide_eq_true_eq]
            exact ⟨hreply.symm, hanswered⟩
          · rw [if_neg hanswered] at hreply
            cases hreply

/-- The node has no lock and no entry of the claim. -/
def Clear (me : EndpointId) (name : String) (pid : Pid) (g : GlobalNames) :
    Prop :=
  g.locks.lookup name ≠ some me ∧ g.names.lookup name ≠ some pid

/-- What is left of a lock after the unlock. -/
theorem lookup_unlock_self {g : GlobalNames} {name : String}
    {me : EndpointId} : (g.unlock name me).locks.lookup name ≠ some me := by
  rw [GlobalNames.lookup_unlock]
  split
  · simp
  · assumption

/-- The lock step leaves a lock of the claim if it is granted. -/
theorem lookup_lock_self_iff {g : GlobalNames} (hclear : Clear me name pid g) :
    (g.lock name me).1.locks.lookup name = some me ↔
      (g.lock name me).2 = .locked := by
  obtain ⟨-, hgranted, hrefused⟩ := lock_spec g name me
  constructor
  · intro hlock
    by_contra hne
    rw [hrefused hne] at hlock
    exact hclear.1 hlock
  · exact fun h => (hgranted h).2

/-- What a node is left with that granted the lock. -/
theorem granted_clear_iff {nodes : List EndpointId} (hnodup : nodes.Nodup)
    {s : NameTables} {n : EndpointId} (hn : n ∈ nodes)
    (hlock : (s n).locks.lookup name = some me) :
    (releaseLocks fates me name nodes s n).locks.lookup name ≠ some me ↔
      Arrives fates me n (.unlock name me) := by
  rw [releaseLocks_apply hnodup]
  by_cases harrives : Arrives fates me n (.unlock name me)
  · rw [if_pos ⟨hn, harrives⟩]
    exact iff_of_true lookup_unlock_self harrives
  · rw [if_neg fun h => harrives h.2]
    exact iff_of_false (fun h => h hlock) harrives

theorem names_releaseLocks {nodes : List EndpointId} (hnodup : nodes.Nodup)
    (s : NameTables) (n : EndpointId) :
    (releaseLocks fates me name nodes s n).names = (s n).names := by
  rw [releaseLocks_apply hnodup]
  split
  · exact GlobalNames.names_unlock ..
  · rfl

theorem names_lockedAt (nodes : List EndpointId) (s : NameTables)
    (n : EndpointId) : (lockedAt me name nodes s n).names = (s n).names := by
  unfold lockedAt
  split
  · exact (lock_spec ..).1
  · rfl

/-- A claim that locked every member. -/
theorem committed_iff {members : List EndpointId} (hnodup : members.Nodup)
    {s : NameTables} (hclear : ∀ n, Clear me name pid (s n))
    (hgranted : ∀ n ∈ members, ((s n).lock name me).2 = .locked) :
    AllOrNothing me name pid members
      (releaseLocks fates me name members
        (commitAll fates me name pid members (lockedAt me name members s)),
          .ok ()) ↔
      (∀ n ∈ members, Arrives fates me n (.unlock name me)) ∧
        ∀ n ∈ members, Arrives fates me n (.commit name pid me) := by
  have hone : ∀ n ∈ members,
      ((releaseLocks fates me name members (commitAll fates me name pid members
        (lockedAt me name members s)) n).names.lookup name = some pid ↔
          Arrives fates me n (.commit name pid me)) ∧
      ((releaseLocks fates me name members (commitAll fates me name pid members
        (lockedAt me name members s)) n).locks.lookup name ≠ some me ↔
          Arrives fates me n (.unlock name me)) := by
    intro n hn
    constructor
    · rw [names_releaseLocks hnodup, commitAll_apply hnodup]
      by_cases harrives : Arrives fates me n (.commit name pid me)
      · rw [if_pos ⟨hn, harrives⟩]
        exact iff_of_true (AList.lookup_insert _) harrives
      · rw [if_neg fun h => harrives h.2, names_lockedAt]
        exact iff_of_false (hclear n).2 harrives
    · refine granted_clear_iff hnodup hn ?_
      have hlocked : (lockedAt me name members s n).locks.lookup name =
          some me := by
        rw [lockedAt, if_pos hn]
        exact (lookup_lock_self_iff (hclear n)).2 (hgranted n hn)
      rw [commitAll_apply hnodup]
      split
      · exact hlocked
      · exact hlocked
  constructor
  · exact fun h => ⟨fun n hn => (hone n hn).2.1 (h n hn).2,
      fun n hn => (hone n hn).1.1 (h n hn).1⟩
  · exact fun h n hn => ⟨(hone n hn).1.2 (h.2 n hn), (hone n hn).2.2 (h.1 n hn)⟩

/-- A claim that stopped at a member. -/
theorem stopped_iff {members held post : List EndpointId} {node : EndpointId}
    (hmembers : members = held ++ node :: post) (hnodup : members.Nodup)
    {s : NameTables} (hclear : ∀ n, Clear me name pid (s n))
    (hgranted : ∀ n ∈ held, ((s n).lock name me).2 = .locked)
    (err : ClaimError) :
    AllOrNothing me name pid members
      (releaseLocks fates me name held (lockedAt me name
        (held ++ if Arrives fates me node (.lock name me) then [node] else [])
          s), .error err) ↔
      (∀ n ∈ held, Arrives fates me n (.unlock name me)) ∧
        (((s node).lock name me).2 = .locked →
          ¬ Arrives fates me node (.lock name me)) := by
  subst hmembers
  obtain ⟨hheld, -, hdisjoint⟩ := List.nodup_append.1 hnodup
  have hnode : node ∉ held := fun h =>
    hdisjoint node h node (List.mem_cons_self ..) rfl
  set locked := lockedAt me name
    (held ++ if Arrives fates me node (.lock name me) then [node] else []) s
    with hlocked
  have hin : ∀ n ∈ held, (locked n).locks.lookup name = some me := by
    intro n hn
    rw [hlocked, lockedAt, if_pos (List.mem_append_left _ hn)]
    exact (lookup_lock_self_iff (hclear n)).2 (hgranted n hn)
  have hlast : (locked node).locks.lookup name ≠ some me ↔
      (((s node).lock name me).2 = .locked →
        ¬ Arrives fates me node (.lock name me)) := by
    rw [hlocked, lockedAt]
    by_cases harrives : Arrives fates me node (.lock name me)
    · simp only [harrives, if_true, List.mem_append, List.mem_singleton,
        or_true, not_true_eq_false, imp_false]
      exact not_congr (lookup_lock_self_iff (hclear node))
    · simp only [harrives, if_false, List.append_nil, hnode,
        not_false_eq_true, implies_true, iff_true]
      exact (hclear node).1
  have hout : ∀ n, n ∉ held → releaseLocks fates me name held locked n =
      locked n := by
    intro n hn
    rw [releaseLocks_apply hheld, if_neg fun h => hn h.1]
  have hnames : ∀ n, (releaseLocks fates me name held locked n).names.lookup
      name ≠ some pid := by
    intro n
    rw [names_releaseLocks hheld, hlocked, names_lockedAt]
    exact (hclear n).2
  constructor
  · intro h
    refine ⟨fun n hn => (granted_clear_iff hheld hn (hin n hn)).1
      (h.1 n (List.mem_append_left _ hn)), hlast.1 ?_⟩
    rw [← hout node hnode]
    exact h.1 node (List.mem_append_right _ (List.mem_cons_self ..))
  · rintro ⟨hunlocked, hstop⟩
    refine ⟨fun n hn => ?_, hnames⟩
    by_cases hmem : n ∈ held
    · exact (granted_clear_iff hheld hmem (hin n hmem)).2 (hunlocked n hmem)
    · show (releaseLocks fates me name held locked n).locks.lookup name ≠ some me
      rw [hout n hmem]
      by_cases heq : n = node
      · rw [heq]
        exact hlast.2 hstop
      · have hplain : locked n = s n := by
          rw [hlocked, lockedAt, if_neg]
          intro h
          rcases List.mem_append.1 h with h | h
          · exact hmem h
          · split at h
            · exact heq (List.mem_singleton.1 h)
            · cases h
        rw [hplain]
        exact (hclear n).1

/-- A new claim is all or nothing if and only if no failure does harm. -/
theorem tryClaim_allOrNothing_iff (fates : Fates) (me : EndpointId)
    (name : String) (pid : Pid) (members : List EndpointId) (s : NameTables)
    (hnodup : members.Nodup) (hclear : ∀ n, Clear me name pid (s n)) :
    AllOrNothing me name pid members
        (tryClaim fates me name pid members s) ↔
      Spared fates me name pid members s := by
  have hloop := @lockAll_eq fates me name pid s [] members
    (by simpa using hnodup)
  have hgranted : ∀ n ∈ members.takeWhile (grants fates me name s),
      ((s n).lock name me).2 = .locked := by
    intro n hn
    have hgrants : grants fates me name s n = true :=
      List.mem_takeWhile_imp hn
    exact (of_decide_eq_true hgrants).1
  have hsplit : members.takeWhile (grants fates me name s) ++
      members.dropWhile (grants fates me name s) = members :=
    List.takeWhile_append_dropWhile
  have hnone : lockedAt me name [] s = s := by
    funext n
    simp [lockedAt]
  unfold tryClaim Spared
  cases hdrop : members.dropWhile (grants fates me name s) with
  | nil =>
    rw [hdrop, List.append_nil] at hsplit
    rw [hdrop] at hloop
    rw [hsplit] at hgranted ⊢
    simp only [List.nil_append, hnone] at hloop
    rw [hloop, committed_iff hnodup hclear hgranted]
    simp
  | cons node post =>
    rw [hdrop] at hsplit hloop
    simp only [List.nil_append, hnone] at hloop
    obtain ⟨err, hloop⟩ := hloop
    rw [hloop, stopped_iff hsplit.symm hnodup hclear hgranted err]
    simp

/-- Node 2 refuses, and the lock of node 1 is taken back. -/
theorem tryClaim_allOrNothing_refused :
    AllOrNothing ⟨1⟩ "svc" ⟨⟨1⟩, 1⟩ [⟨1⟩, ⟨2⟩]
      (tryClaim (fun _ _ => .delivered) ⟨1⟩ "svc" ⟨⟨1⟩, 1⟩ [⟨1⟩, ⟨2⟩] fun n =>
        if n = ⟨2⟩ then (GlobalNames.new n).commit "svc" ⟨⟨2⟩, 7⟩
        else GlobalNames.new n) := by
  refine (tryClaim_allOrNothing_iff _ ⟨1⟩ "svc" ⟨⟨1⟩, 1⟩ [⟨1⟩, ⟨2⟩] _
    (by decide) fun n => ?_).2 (by decide)
  by_cases h : n = ⟨2⟩
  · rw [if_pos h]
    exact ⟨by simp [GlobalNames.commit, GlobalNames.new],
      by simp [GlobalNames.commit]⟩
  · rw [if_neg h]
    exact ⟨by simp [GlobalNames.new], by simp [GlobalNames.new]⟩

/-- Node 2 locks, but its reply is lost: the claim fails and the lock stays. -/
theorem lost_reply_leaves_lock :
    ¬ ∀ (fates : Fates) (me : EndpointId) (name : String) (pid : Pid)
      (members : List EndpointId) (s : NameTables), members.Nodup →
        (∀ n, Clear me name pid (s n)) →
          AllOrNothing me name pid members
            (tryClaim fates me name pid members s) := by
  intro hall
  have hclaim := hall
    (fun _ req => if req = .lock "svc" ⟨1⟩ then .replyLost else .delivered)
    ⟨1⟩ "svc" ⟨⟨1⟩, 1⟩ [⟨1⟩, ⟨2⟩] GlobalNames.new (by decide)
    fun n => ⟨by simp [GlobalNames.new], by simp [GlobalNames.new]⟩
  exact absurd (hclaim.1 ⟨2⟩ (by decide)) (by decide)

end NameTables

end Plasmoid
