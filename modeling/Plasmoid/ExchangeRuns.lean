import Plasmoid.SyncLimits

/-!
# A table exchange in the cluster

`NameSync` is the cluster in which the steps of many exchanges interleave and
any message can be lost.  One exchange between two nodes, with all its limits,
is one of its runs: a message that is too large is a message that is lost.
-/

namespace Plasmoid

open Machine

namespace NameSync

open GlobalNames

variable {a b : EndpointId}

/-- The one job that there is is done. -/
theorem run_work (s : SyncEnv) (j : SyncJob) :
    Run step anyStep ⟨s, [j]⟩ ⟨(s.handle () j).1, (s.handle () j).2⟩ :=
  .single (a := .work 0) trivial rfl

/-- A list of losers is carried out. -/
theorem run_kill (s : SyncEnv) (node : EndpointId) (losers : List Verdict)
    (reply : Option (EndpointId × NameMessage)) :
    Run step anyStep ⟨s, [.kill node losers reply]⟩
      ⟨{ s with killed := s.killed ++ losers.map (Prod.mk node) },
        [.kill node [] reply]⟩ := by
  induction losers generalizing s with
  | nil =>
    rw [List.map_nil, List.append_nil]
    exact .refl
  | cons v rest ih =>
    refine (run_work s _).trans ((ih _).trans ?_)
    rw [List.map_cons, List.append_cons]
    exact .refl

/-- A merge at a node, from the open gate to the end of the kill list. -/
def mergeDone (s : SyncEnv) (e : EndpointId) (msg : NameMessage) : SyncEnv :=
  let closed := (s.mergeAt e msg).update e .mergeEnd
  { closed with killed := closed.killed ++
      (losers e ((s.node e).merge msg.names).2).map (Prod.mk e) }

theorem run_merge (s : SyncEnv) (e : EndpointId) (msg : NameMessage)
    (reply : Option (EndpointId × NameMessage)) :
    Run step anyStep ⟨s, [.merge e msg reply]⟩
      ⟨mergeDone s e msg, [.kill e [] reply]⟩ :=
  (run_work s _).trans ((run_work _ _).trans (run_kill _ e _ reply))

/-- The cluster when the caller has opened its gate. -/
def asked (init : EndpointId → GlobalNames) (a : EndpointId) : SyncEnv :=
  (SyncEnv.start init).update a .mergeBegin

/-- The caller sends its table. -/
theorem run_request (init : EndpointId → GlobalNames) (a b : EndpointId) :
    Run step anyStep (start init)
      ⟨asked init a, [.request a b ((asked init a).message a)]⟩ :=
  (Run.single (a := .sync a b) trivial rfl).trans
    ((run_work _ _).trans (run_work _ _))

/-- The peer merges the table of the caller, and sends its own. -/
theorem run_answer (hne : a ≠ b) (s : SyncEnv) (msg : NameMessage) :
    Run step anyStep ⟨s, [.request a b msg]⟩
      ⟨mergeDone (s.update b .mergeBegin) b msg, [.reply a (s.message b)]⟩ := by
  have hasked : Run step anyStep ⟨s, [.request a b msg]⟩
      ⟨s, [.answer b msg (some (a, s.message b))]⟩ := by
    have hwork := run_work s (.request a b msg)
    rwa [SyncEnv.handle, if_neg hne.symm] at hwork
  exact hasked.trans ((run_work _ _).trans
    ((run_merge _ b msg _).trans (run_work _ _)))

/-- The caller merges the table of the peer. -/
theorem run_reply (s : SyncEnv) (a : EndpointId) (msg : NameMessage) :
    Run step anyStep ⟨s, [.reply a msg]⟩ ⟨mergeDone s a msg, []⟩ :=
  (run_work _ _).trans ((run_merge s a msg none).trans (run_work _ _))

/-- A message to or from the caller is lost. -/
theorem run_lost (s : SyncEnv) {j : SyncJob} (hlost : j.lost = some (.close a [] none)) :
    Run step anyStep ⟨s, [j]⟩ ⟨s.update a .mergeEnd, []⟩ := by
  have hfail : step ⟨s, [j]⟩ (.fail 0) = some ⟨s, [.close a [] none]⟩ := by
    show (j.lost.map _) = _
    rw [hlost]
    rfl
  exact (Run.single trivial hfail).trans ((run_work _ _).trans (run_work _ _))

/-! ## The tables along the way -/

theorem node_mergeDone {s : SyncEnv} {e : EndpointId} {g : GlobalNames}
    (h : s.node e = g.mergeBegin) (msg : NameMessage) :
    (mergeDone s e msg).node = Function.update s.node e (g.merged msg.names) := by
  show Function.update (Function.update s.node e _) e
    (Function.update s.node e ((s.node e).merge msg.names).1 e).mergeEnd = _
  rw [Function.update_idem, Function.update_self, h]
  rfl

theorem killed_mergeDone {s : SyncEnv} {e : EndpointId} {g : GlobalNames}
    (h : s.node e = g.mergeBegin) (hme : g.me = e) (msg : NameMessage) :
    (mergeDone s e msg).killed =
      s.killed ++ (g.mergeKills msg.names).map (Prod.mk e) := by
  show s.killed ++ (losers e ((s.node e).merge msg.names).2).map (Prod.mk e) = _
  rw [h, mergeKills, hme]
  rfl

theorem names_asked (init : EndpointId → GlobalNames) (a : EndpointId) :
    ((asked init a).message a).names = (init a).snapshot := by
  show (Function.update init a _ a).snapshot = _
  rw [Function.update_self]
  rfl

/-- The cluster when the peer has answered. -/
def answered (init : EndpointId → GlobalNames) (a b : EndpointId) : SyncEnv :=
  mergeDone ((asked init a).update b .mergeBegin) b ((asked init a).message a)

theorem node_asked_of_ne (init : EndpointId → GlobalNames) (hne : a ≠ b) :
    (asked init a).node b = init b :=
  Function.update_of_ne hne.symm ..

theorem gate_asked (init : EndpointId → GlobalNames) (hne : a ≠ b) :
    ((asked init a).update b .mergeBegin).node b = (init b).mergeBegin := by
  show Function.update (asked init a).node b _ b = _
  rw [Function.update_self, node_asked_of_ne init hne]

theorem node_answered (init : EndpointId → GlobalNames) (hne : a ≠ b) :
    (answered init a b).node =
      Function.update (Function.update init a (init a).mergeBegin) b
        ((init b).merged (init a).snapshot) := by
  rw [answered, node_mergeDone (gate_asked init hne), names_asked]
  exact Function.update_idem ..

theorem gate_answered (init : EndpointId → GlobalNames) (hne : a ≠ b) :
    (answered init a b).node a = (init a).mergeBegin := by
  rw [node_answered init hne, Function.update_of_ne hne, Function.update_self]

theorem killed_answered (init : EndpointId → GlobalNames) (hme : ∀ e, (init e).me = e)
    (hne : a ≠ b) : (answered init a b).killed =
      ((init b).mergeKills (init a).snapshot).map (Prod.mk b) := by
  rw [answered, killed_mergeDone (gate_asked init hne) (hme b), names_asked]
  exact List.nil_append _

theorem update_answered (init : EndpointId → GlobalNames) (hne : a ≠ b)
    (g : GlobalNames) :
    Function.update (answered init a b).node a g =
      Function.update (Function.update init b ((init b).merged (init a).snapshot))
        a g := by
  rw [node_answered init hne, Function.update_comm hne, Function.update_idem]

/-- Whatever comes of an exchange between two nodes can come of it in the
cluster, where messages that are too large are lost. -/
theorem exists_run_syncWith {w : WireFormat} (hw : w.Lawful)
    (init : EndpointId → GlobalNames) (hme : ∀ e, (init e).me = e) (hne : a ≠ b) :
    let o := syncWith w (init a) (init b)
    ∃ t, Run step anyStep (start init) t ∧ t.jobs = [] ∧
      t.env.node = Function.update (Function.update init b o.peer) a o.caller ∧
      t.env.killed = (o.peerKills.getD []).map (Prod.mk b) ++
        (o.callerKills.getD []).map (Prod.mk a) := by
  intro o
  have hasked := run_request init a b
  by_cases hrequest : w.commands.Fits (.sync (init a).snapshot)
  · have hanswered : Run step anyStep (start init)
        ⟨answered init a b, [.reply a ((asked init a).message b)]⟩ :=
      hasked.trans (run_answer hne _ _)
    by_cases hreply : w.responses.Fits (.names (init b).snapshot)
    · have ho : o = _ := SyncOutcome.syncWith_of_reply hw hrequest hreply
      have hnames : ((asked init a).message b).names = (init b).snapshot :=
        congrArg snapshot (node_asked_of_ne init hne)
      refine ⟨_, hanswered.trans (run_reply _ a _), rfl, ?_, ?_⟩
      · rw [ho, node_mergeDone (gate_answered init hne), hnames]
        exact update_answered init hne _
      · rw [ho, killed_mergeDone (gate_answered init hne) (hme a), hnames,
          killed_answered init hme hne]
        rfl
    · have ho : o = _ := SyncOutcome.syncWith_of_no_reply hw hrequest hreply
      refine ⟨_, hanswered.trans (run_lost (a := a) _ rfl), rfl, ?_, ?_⟩
      · show Function.update (answered init a b).node a
          ((answered init a b).node a).mergeEnd = _
        rw [ho, gate_answered init hne, mergeEnd_mergeBegin]
        exact update_answered init hne _
      · show (answered init a b).killed = _
        rw [ho, killed_answered init hme hne]
        exact (List.append_nil _).symm
  · have ho : o = _ := SyncOutcome.syncWith_of_no_request hw hrequest
    refine ⟨_, hasked.trans (run_lost (a := a) _ rfl), rfl, ?_, ?_⟩
    · show Function.update (asked init a).node a
        ((asked init a).node a).mergeEnd = _
      rw [ho, Function.update_eq_self]
      show Function.update (Function.update init a _) a
        (Function.update init a (init a).mergeBegin a).mergeEnd = _
      rw [Function.update_idem, Function.update_self]
      rfl
    · rw [ho]
      rfl

end NameSync

end Plasmoid
