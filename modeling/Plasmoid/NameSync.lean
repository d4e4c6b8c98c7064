import Mathlib.Data.Finset.Lattice.Fold
import Plasmoid.GlobalNames
import Plasmoid.Lib.Tasks

/-!
# Name tables exchanged

Two nodes that connect exchange their name tables, and each merges the table of
the other into its own.  Where they differ the lower pid keeps the name, and
whoever finds the loser on its own node kills it.

A `SyncJob` is a table on its way, or the rest of `sync_with`, `answer_sync` or
`lookup` at one of its awaits.  Jobs are done in any order.
-/

namespace Plasmoid

open Machine

/-- A conflict over a name, as a merge resolved it. -/
structure Verdict where
  name : String
  loser : Pid
  winner : Pid
deriving DecidableEq

namespace GlobalNames

/-- The whole table, for a merge. -/
def snapshot (g : GlobalNames) : List (String × Pid) :=
  g.names.entries.map fun e => (e.1, e.2)

/-- Read without waiting for merges. -/
def peek (g : GlobalNames) (name : String) : Option Pid :=
  g.names.lookup name

def mergeBegin (g : GlobalNames) : GlobalNames :=
  { g with merges := g.merges + 1 }

def mergeEnd (g : GlobalNames) : GlobalNames :=
  { g with merges := g.merges - 1 }

/-- Merge one entry of a peer's table. -/
def mergeOne (names : Table String Pid) (name : String) (theirs : Pid) :
    Table String Pid × List Verdict :=
  match names.lookup name with
  | some ours =>
    -- The same pid is agreement, not a conflict.
    if ours = theirs then (names, [])
    else if ours < theirs then
      (names.insert name ours, [⟨name, theirs, ours⟩])
    else (names.insert name theirs, [⟨name, ours, theirs⟩])
  | none => (names.insert name theirs, [])

def mergeAll (names : Table String Pid) :
    List (String × Pid) → Table String Pid × List Verdict
  | [] => (names, [])
  | (name, theirs) :: rest =>
    let (names, verdict) := mergeOne names name theirs
    let (names, verdicts) := mergeAll names rest
    (names, verdict ++ verdicts)

/-- Merge a peer's table into ours, and log every conflict. -/
def merge (g : GlobalNames) (theirs : List (String × Pid)) :
    GlobalNames × List Verdict :=
  ({ g with names := (mergeAll g.names theirs).1 },
    (mergeAll g.names theirs).2)

/-- The losers that live on this node, for the caller to kill. -/
def losers (me : EndpointId) (verdicts : List Verdict) : List Verdict :=
  verdicts.filter fun v => v.loser.isLocalTo me

end GlobalNames

/-! ## The machine -/

/-- A table on its way.  `sources` are the nodes whose tables at the start have
gone into it; the code does not keep track of them. -/
structure NameMessage where
  names : List (String × Pid)
  sources : Finset EndpointId

/-- What a lookup returned, and whom the conflicts over the name had condemned
by then. -/
structure LookupAnswer where
  node : EndpointId
  name : String
  result : Option Pid
  condemned : List Pid
deriving DecidableEq

/-- Every node, and a record of what happened.  `sources` is as in a message,
`kills` has what was put on a kill list where, and `killed` what was then
done. -/
structure SyncEnv where
  node : EndpointId → GlobalNames
  sources : EndpointId → Finset EndpointId
  verdicts : List Verdict
  kills : List (EndpointId × Verdict)
  killed : List (EndpointId × Verdict)
  answers : List LookupAnswer

/-- A table on its way, or work that is left at a node.  `reply` is whom to
answer once the merge is done, and with what. -/
inductive SyncJob where
  /-- `sync_with` starts. -/
  | begin (node peer : EndpointId)
  | snapshot (node peer : EndpointId)
  /-- A request on its way to `peer`. -/
  | request (node peer : EndpointId) (msg : NameMessage)
  /-- `answer_sync` has taken its own snapshot. -/
  | answer (node : EndpointId) (theirs : NameMessage)
      (reply : Option (EndpointId × NameMessage))
  | merge (node : EndpointId) (theirs : NameMessage)
      (reply : Option (EndpointId × NameMessage))
  | close (node : EndpointId) (losers : List Verdict)
      (reply : Option (EndpointId × NameMessage))
  | kill (node : EndpointId) (losers : List Verdict)
      (reply : Option (EndpointId × NameMessage))
  /-- A reply on its way to `node`. -/
  | reply (node : EndpointId) (msg : NameMessage)
  /-- `lookup` waits for merges. -/
  | settling (node : EndpointId) (name : String)
  | peeking (node : EndpointId) (name : String)

namespace SyncEnv

/-- Every node knows its own table only. -/
def start (init : EndpointId → GlobalNames) : SyncEnv where
  node := init
  sources e := {e}
  verdicts := []
  kills := []
  killed := []
  answers := []

def update (s : SyncEnv) (e : EndpointId) (f : GlobalNames → GlobalNames) :
    SyncEnv :=
  { s with node := Function.update s.node e (f (s.node e)) }

/-- What a node tells others about names. -/
def message (s : SyncEnv) (e : EndpointId) : NameMessage :=
  ⟨(s.node e).snapshot, s.sources e⟩

/-- The merge at a node. -/
def mergeAt (s : SyncEnv) (e : EndpointId) (msg : NameMessage) : SyncEnv :=
  { s with
    node := Function.update s.node e ((s.node e).merge msg.names).1
    sources := Function.update s.sources e (s.sources e ∪ msg.sources)
    verdicts := s.verdicts ++ ((s.node e).merge msg.names).2
    kills := s.kills ++
      (GlobalNames.losers e ((s.node e).merge msg.names).2).map fun v => (e, v) }

/-- The losers of the conflicts over a name so far. -/
def condemned (s : SyncEnv) (name : String) : List Pid :=
  (s.verdicts.filter fun v => v.name = name).map Verdict.loser

/-- Do one job. -/
def handle (s : SyncEnv) (_ : Unit) : SyncJob → SyncEnv × List SyncJob
  | .begin node peer => (s.update node .mergeBegin, [.snapshot node peer])
  | .snapshot node peer => (s, [.request node peer (s.message node)])
  | .request node peer msg =>
    -- A node cannot connect to itself.
    if peer = node then (s, [.close node [] none])
    else (s, [.answer peer msg (some (node, s.message peer))])
  | .answer node theirs reply =>
    (s.update node .mergeBegin, [.merge node theirs reply])
  | .merge node theirs reply =>
    (s.mergeAt node theirs, [.close node
      (GlobalNames.losers node ((s.node node).merge theirs.names).2) reply])
  | .close node losers reply =>
    (s.update node .mergeEnd, [.kill node losers reply])
  | .kill node (v :: rest) reply =>
    ({ s with killed := s.killed ++ [(node, v)] }, [.kill node rest reply])
  | .kill _ [] reply =>
    (s, match reply with
      | some (caller, mine) => [.reply caller mine]
      | none => [])
  | .reply node msg => (s, [.merge node msg none])
  | .settling node name =>
    -- A merge that is still in flight has outlasted the deadline.
    (s, if (s.node node).merges = 0 then [.peeking node name] else [])
  | .peeking node name =>
    ({ s with
      answers := s.answers ++
        [⟨node, name, (s.node node).peek name, s.condemned name⟩] }, [])

/-- What comes of a job. -/
inductive Causes (s : SyncEnv) : SyncJob → SyncJob → Prop
  | begin {node peer : EndpointId} :
      Causes s (.begin node peer) (.snapshot node peer)
  | snapshot {node peer : EndpointId} :
      Causes s (.snapshot node peer) (.request node peer (s.message node))
  | refuse {node : EndpointId} {msg : NameMessage} :
      Causes s (.request node node msg) (.close node [] none)
  | request {node peer : EndpointId} {msg : NameMessage} (hne : node ≠ peer) :
      Causes s (.request node peer msg)
        (.answer peer msg (some (node, s.message peer)))
  | answer {node : EndpointId} {theirs : NameMessage}
      {reply : Option (EndpointId × NameMessage)} :
      Causes s (.answer node theirs reply) (.merge node theirs reply)
  | merge {node : EndpointId} {theirs : NameMessage}
      {reply : Option (EndpointId × NameMessage)} :
      Causes s (.merge node theirs reply) (.close node
        (GlobalNames.losers node ((s.node node).merge theirs.names).2) reply)
  | close {node : EndpointId} {losers : List Verdict}
      {reply : Option (EndpointId × NameMessage)} :
      Causes s (.close node losers reply) (.kill node losers reply)
  | kill {node : EndpointId} {v : Verdict} {rest : List Verdict}
      {reply : Option (EndpointId × NameMessage)} :
      Causes s (.kill node (v :: rest) reply) (.kill node rest reply)
  | respond {node caller : EndpointId} {mine : NameMessage} :
      Causes s (.kill node [] (some (caller, mine))) (.reply caller mine)
  | reply {node : EndpointId} {msg : NameMessage} :
      Causes s (.reply node msg) (.merge node msg none)
  | settle {node : EndpointId} {name : String}
      (hmerges : (s.node node).merges = 0) :
      Causes s (.settling node name) (.peeking node name)

theorem mem_handle_iff {s : SyncEnv} {j k : SyncJob} :
    k ∈ (s.handle () j).2 ↔ s.Causes j k := by
  constructor
  · intro hk
    cases j with
    | request node peer msg =>
      simp only [handle] at hk
      split at hk
      · rename_i heq
        subst heq
        rw [List.mem_singleton.1 hk]
        exact .refuse
      · rename_i hne
        rw [List.mem_singleton.1 hk]
        exact .request (Ne.symm hne)
    | kill node losers back =>
      cases losers with
      | cons v rest =>
        rw [List.mem_singleton.1 hk]
        exact .kill
      | nil =>
        cases back with
        | none => cases hk
        | some r =>
          rw [List.mem_singleton.1 hk]
          exact .respond
    | settling node name =>
      simp only [handle] at hk
      split at hk
      · rename_i hmerges
        rw [List.mem_singleton.1 hk]
        exact .settle hmerges
      · cases hk
    | peeking node name => cases hk
    | begin node peer =>
      rw [List.mem_singleton.1 hk]
      exact .begin
    | snapshot node peer =>
      rw [List.mem_singleton.1 hk]
      exact .snapshot
    | answer node theirs back =>
      rw [List.mem_singleton.1 hk]
      exact .answer
    | merge node theirs back =>
      rw [List.mem_singleton.1 hk]
      exact .merge
    | close node losers back =>
      rw [List.mem_singleton.1 hk]
      exact .close
    | reply node msg =>
      rw [List.mem_singleton.1 hk]
      exact .reply
  · intro h
    cases h with
    | refuse => simp [handle]
    | request hne => simp [handle, hne.symm]
    | settle hmerges => simp [handle, hmerges]
    | _ => exact List.mem_singleton_self _

end SyncEnv

/-- A cluster whose nodes exchange name tables. -/
abbrev NameSync := Pool SyncEnv SyncJob

inductive SyncAction where
  /-- A node learned a peer. -/
  | sync (node peer : EndpointId)
  | lookup (node : EndpointId) (name : String)
  /-- The `i`-th job is done. -/
  | work (i : Nat)
  /-- The `i`-th job is a table on its way, and is lost. -/
  | fail (i : Nat)

/-- The caller of a sync hears that it failed. -/
def SyncJob.lost : SyncJob → Option SyncJob
  | .request node _ _ => some (.close node [] none)
  | .reply node _ => some (.close node [] none)
  | _ => none

namespace NameSync

def start (init : EndpointId → GlobalNames) : NameSync :=
  ⟨SyncEnv.start init, []⟩

def step (s : NameSync) : SyncAction → Option NameSync
  | .sync node peer => some { s with jobs := s.jobs ++ [.begin node peer] }
  | .lookup node name =>
    some { s with jobs := s.jobs ++ [.settling node name] }
  | .work i => s.work SyncEnv.handle i ()
  | .fail i => s.jobs[i]?.bind fun j => j.lost.map fun close =>
    { s with jobs := s.jobs.eraseIdx i ++ [close] }

end NameSync

/-! ## What a merge does -/

/-- The pid that a table binds a name to, `⊤` if it binds it to none. -/
def held (names : Table String Pid) (name : String) : WithTop Pid :=
  (names.lookup name).elim ⊤ WithTop.some

/-- The least pid that a list of entries binds a name to. -/
def offered (entries : List (String × Pid)) (name : String) : WithTop Pid :=
  entries.foldr (fun e m => if e.1 = name then min ↑e.2 m else m) ⊤

theorem held_eq_coe {names : Table String Pid} {name : String} {p : Pid} :
    held names name = p ↔ names.lookup name = some p := by
  unfold held
  cases names.lookup name with
  | none => simp
  | some q => exact WithTop.coe_inj.trans (Option.some_inj).symm

/-- Tables bind a name to the same pid, or to none. -/
theorem held_inj {names names' : Table String Pid} {name : String} :
    held names name = held names' name ↔
      names.lookup name = names'.lookup name := by
  refine ⟨fun h => ?_, fun h => by rw [held, held, h]⟩
  cases hlookup : names'.lookup name with
  | none =>
    rw [show held names' name = ⊤ by rw [held, hlookup]; rfl] at h
    cases hnone : names.lookup name with
    | none => rfl
    | some p =>
      rw [held_eq_coe.2 hnone] at h
      cases h
  | some p =>
    rw [held_eq_coe.2 hlookup] at h
    exact held_eq_coe.1 h

theorem held_insert (names : Table String Pid) (name name' : String) (p : Pid) :
    held (names.insert name p) name' =
      if name' = name then ↑p else held names name' := by
  unfold held
  rw [Table.lookup_insert_eq]
  split <;> rfl

/-- A snapshot offers what the table has. -/
theorem offered_snapshot (g : GlobalNames) (name : String) :
    offered g.snapshot name = held g.names name := by
  have hlist : ∀ l : List (Sigma fun _ : String => Pid), l.NodupKeys →
      offered (l.map fun e => (e.1, e.2)) name =
        (List.dlookup name l).elim ⊤ WithTop.some := by
    intro l
    induction l with
    | nil => exact fun _ => rfl
    | cons e l ih =>
      intro hl
      obtain ⟨name', p⟩ := e
      obtain ⟨hnew, hl⟩ := List.nodupKeys_cons.1 hl
      have htail := ih hl
      unfold offered at htail ⊢
      rw [List.map_cons, List.foldr_cons, htail]
      by_cases h : name' = name
      · subst h
        rw [if_pos rfl, List.dlookup_eq_none.2 hnew, List.dlookup_cons_eq]
        exact min_top_right _
      · rw [if_neg h, List.dlookup_cons_ne _ _ (Ne.symm h)]
  exact hlist g.names.entries g.names.nodupKeys

theorem mem_snapshot {g : GlobalNames} {name : String} {p : Pid} :
    (name, p) ∈ g.snapshot ↔ held g.names name = p := by
  rw [held_eq_coe, ← Option.mem_def, AList.mem_lookup_iff]
  simp only [GlobalNames.snapshot, List.mem_map, Prod.mk.injEq, Sigma.exists]
  constructor
  · rintro ⟨name', p', hmem, rfl, rfl⟩
    exact hmem
  · exact fun hmem => ⟨name, p, hmem, rfl, rfl⟩

theorem offered_le {entries : List (String × Pid)} {name : String} {p : Pid}
    (h : (name, p) ∈ entries) : offered entries name ≤ p := by
  induction entries with
  | nil => cases h
  | cons e rest ih =>
    rw [offered, List.foldr_cons]
    rcases List.mem_cons.1 h with rfl | h
    · rw [if_pos rfl]
      exact min_le_left _ _
    · split
      · exact (min_le_right _ _).trans (ih h)
      · exact ih h

namespace GlobalNames

/-- What merging entries into a table does. -/
structure Merges (names : Table String Pid) (theirs : List (String × Pid))
    (names' : Table String Pid) (verdicts : List Verdict) : Prop where
  held : ∀ name, held names' name = min (held names name) (offered theirs name)
  loses : ∀ v ∈ verdicts,
    Plasmoid.held names' v.name ≤ v.winner ∧ v.winner < v.loser
  pid : ∀ v ∈ verdicts,
    Plasmoid.held names v.name = v.loser ∨ (v.name, v.loser) ∈ theirs
  displaced : ∀ name (p : Pid), Plasmoid.held names name = ↑p →
    Plasmoid.held names' name < p → ∃ v ∈ verdicts, v.name = name ∧ v.loser = p

theorem mergeOne_spec (names : Table String Pid) (name : String)
    (theirs : Pid) : Merges names [(name, theirs)]
      (mergeOne names name theirs).1 (mergeOne names name theirs).2 := by
  have hoffered : ∀ name', offered [(name, theirs)] name' =
      if name = name' then ↑theirs else ⊤ := by
    intro name'
    simp [offered]
  have hother : ∀ (p : Pid) (v : List Verdict),
      Plasmoid.held names name ⊓ theirs = p →
      (∀ x ∈ v, x.name = name ∧ x.winner = p ∧ p < x.loser ∧
        (Plasmoid.held names name = x.loser ∨ x.loser = theirs)) →
      (∀ q : Pid, Plasmoid.held names name = q → p < q →
        ∃ x ∈ v, x.name = name ∧ x.loser = q) →
      Merges names [(name, theirs)] (names.insert name p) v := by
    intro p v hmin hv hlost
    refine ⟨fun name' => ?_, fun x hx => ?_, fun x hx => ?_,
      fun name' q hq hlt => ?_⟩
    · rw [held_insert, hoffered]
      by_cases h : name' = name
      · subst h
        rw [if_pos rfl, if_pos rfl]
        exact hmin.symm
      · rw [if_neg h, if_neg (Ne.symm h)]
        exact (min_top_right _).symm
    · obtain ⟨hname, hwinner, hlt, -⟩ := hv x hx
      rw [held_insert, if_pos hname, hwinner]
      exact ⟨le_rfl, hlt⟩
    · obtain ⟨hname, -, -, hpid⟩ := hv x hx
      rw [hname, List.mem_singleton, Prod.mk.injEq]
      exact hpid.imp_right fun heq => ⟨rfl, heq⟩
    · rw [held_insert] at hlt
      split at hlt
      · rename_i heq
        subst heq
        exact hlost q hq (WithTop.coe_lt_coe.1 hlt)
      · exact absurd hlt (hq.symm ▸ lt_irrefl _)
  unfold mergeOne
  cases hlookup : names.lookup name with
  | none =>
    have htop : Plasmoid.held names name = ⊤ := by
      unfold Plasmoid.held
      rw [hlookup]
      rfl
    refine hother theirs [] ?_ (by simp) fun q hq _ => ?_
    · rw [htop]
      exact min_top_left _
    · rw [htop] at hq
      cases hq
  | some ours =>
    have hours : Plasmoid.held names name = ours := held_eq_coe.2 hlookup
    dsimp only
    split
    · rename_i heq
      subst heq
      refine ⟨fun name' => ?_, by simp, by simp, fun name' q hq hlt => ?_⟩
      · rw [hoffered]
        split
        · rename_i h
          rw [← h, hours, min_self]
        · exact (min_top_right _).symm
      · exact absurd hlt (hq.symm ▸ lt_irrefl _)
    · rename_i hne
      split
      · rename_i hlt
        refine hother ours _ ?_ ?_ fun q hq hq' => ?_
        · rw [hours]
          exact min_eq_left (WithTop.coe_le_coe.2 hlt.le)
        · intro x hx
          rw [List.mem_singleton.1 hx]
          exact ⟨rfl, rfl, hlt, Or.inr rfl⟩
        · rw [hours, WithTop.coe_inj] at hq
          exact absurd hq' (hq ▸ lt_irrefl _)
      · rename_i hnot
        have hlt : theirs < ours := (not_lt.1 hnot).lt_of_ne (Ne.symm hne)
        refine hother theirs _ ?_ ?_ fun q hq _ => ?_
        · rw [hours]
          exact min_eq_right (WithTop.coe_le_coe.2 hlt.le)
        · intro x hx
          rw [List.mem_singleton.1 hx]
          exact ⟨rfl, rfl, hlt, Or.inl hours⟩
        · rw [hours, WithTop.coe_inj] at hq
          exact ⟨_, List.mem_singleton_self _, rfl, hq⟩

theorem Merges.cons {names names₁ names₂ : Table String Pid}
    {e : String × Pid} {rest : List (String × Pid)} {v₁ v₂ : List Verdict}
    (h₁ : Merges names [e] names₁ v₁) (h₂ : Merges names₁ rest names₂ v₂) :
    Merges names (e :: rest) names₂ (v₁ ++ v₂) := by
  have hsplit : ∀ name, offered (e :: rest) name =
      min (offered [e] name) (offered rest name) := by
    intro name
    simp only [offered, List.foldr_cons, List.foldr_nil]
    split
    · rw [min_top_right]
    · exact (min_top_left _).symm
  have hle : ∀ name, Plasmoid.held names₂ name ≤ Plasmoid.held names₁ name :=
    fun name => (h₂.held name).trans_le (min_le_left _ _)
  refine ⟨fun name => ?_, fun v hv => ?_, fun v hv => ?_,
    fun name p hp hlt => ?_⟩
  · rw [h₂.held, h₁.held, hsplit, min_assoc]
  · rcases List.mem_append.1 hv with hv | hv
    · exact ⟨(hle _).trans (h₁.loses v hv).1, (h₁.loses v hv).2⟩
    · exact h₂.loses v hv
  · rcases List.mem_append.1 hv with hv | hv
    · refine (h₁.pid v hv).imp_right fun hmem => ?_
      exact List.mem_cons.2 (Or.inl (List.mem_singleton.1 hmem))
    · rcases h₂.pid v hv with heq | hmem
      · -- What the table holds by now was there before or is the first entry.
        have hmin := h₁.held v.name
        rw [heq] at hmin
        rcases min_choice (Plasmoid.held names v.name) (offered [e] v.name) with
          hleft | hright
        · rw [hleft] at hmin
          exact Or.inl hmin.symm
        · rw [hright] at hmin
          refine Or.inr (List.mem_cons.2 (Or.inl ?_))
          simp only [offered, List.foldr_cons, List.foldr_nil,
            min_top_right] at hmin
          split at hmin
          · rename_i hname
            rw [WithTop.coe_inj] at hmin
            rw [← hname, hmin]
          · cases hmin
      · exact Or.inr (List.mem_cons_of_mem _ hmem)
  · have hle₁ : Plasmoid.held names₁ name ≤ p := by
      rw [h₁.held, hp]
      exact min_le_left _ _
    rcases hle₁.lt_or_eq with hlt₁ | heq₁
    · obtain ⟨v, hv, hvp⟩ := h₁.displaced name p hp hlt₁
      exact ⟨v, List.mem_append_left _ hv, hvp⟩
    · obtain ⟨v, hv, hvp⟩ := h₂.displaced name p heq₁ hlt
      exact ⟨v, List.mem_append_right _ hv, hvp⟩

theorem mergeAll_spec (theirs : List (String × Pid))
    (names : Table String Pid) : Merges names theirs
      (mergeAll names theirs).1 (mergeAll names theirs).2 := by
  induction theirs generalizing names with
  | nil =>
    refine ⟨fun name => (min_top_right _).symm, by simp [mergeAll],
      by simp [mergeAll], fun name p hp hlt => ?_⟩
    exact absurd hlt (hp.symm ▸ lt_irrefl _)
  | cons e rest ih =>
    obtain ⟨name, p⟩ := e
    exact (mergeOne_spec names name p).cons (ih _)

theorem dropped_mergeOne {names : Table String Pid} {name : String} {p : Pid}
    (hlt : held (mergeOne names name p).1 name < p) :
    ∃ v ∈ (mergeOne names name p).2, v.name = name ∧ v.loser = p := by
  unfold mergeOne at hlt ⊢
  cases hlookup : names.lookup name with
  | none =>
    simp only [hlookup] at hlt
    rw [held_insert, if_pos rfl] at hlt
    exact absurd hlt (lt_irrefl _)
  | some ours =>
    simp only [hlookup] at hlt ⊢
    by_cases heq : ours = p
    · rw [if_pos heq, ← heq, held_eq_coe.2 hlookup] at hlt
      exact absurd hlt (lt_irrefl _)
    · rw [if_neg heq] at hlt ⊢
      by_cases hours : ours < p
      · rw [if_pos hours]
        exact ⟨_, List.mem_singleton_self _, rfl, rfl⟩
      · rw [if_neg hours, held_insert, if_pos rfl] at hlt
        exact absurd hlt (lt_irrefl _)

/-- An entry that does not make it into the table lost a conflict. -/
theorem dropped_mergeAll {theirs : List (String × Pid)} {name : String}
    {p : Pid} (hmem : (name, p) ∈ theirs) (names : Table String Pid)
    (hlt : held (mergeAll names theirs).1 name < p) :
    ∃ v ∈ (mergeAll names theirs).2, v.name = name ∧ v.loser = p := by
  induction theirs generalizing names with
  | nil => cases hmem
  | cons e rest ih =>
    obtain ⟨name', p'⟩ := e
    rcases List.mem_cons.1 hmem with heq | hmem
    · cases heq
      have hle : held (mergeOne names name p).1 name ≤ p := by
        rw [(mergeOne_spec names name p).held]
        exact (min_le_right _ _).trans (offered_le (List.mem_singleton_self _))
      -- The table has the pid by now, unless the pid has just lost.
      rcases hle.eq_or_lt with heq | hless
      · obtain ⟨v, hv, hvp⟩ :=
          (mergeAll_spec rest (mergeOne names name p).1).displaced name p heq hlt
        exact ⟨v, List.mem_append_right _ hv, hvp⟩
      · obtain ⟨v, hv, hvp⟩ := dropped_mergeOne hless
        exact ⟨v, List.mem_append_left _ hv, hvp⟩
    · obtain ⟨v, hv, hvp⟩ := ih hmem _ hlt
      exact ⟨v, List.mem_append_right _ hv, hvp⟩

end GlobalNames

end Plasmoid
