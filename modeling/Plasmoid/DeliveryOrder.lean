import Plasmoid.DeliveryBalance

/-!
# Deliveries in order

A particle performs one delivery at a time, so what it sends on its own node
arrives in the order in which it was sent.  Between two nodes the order is
that of their link, as long as the handlers of its streams take turns: no
handler goes back to an older stream, and none reads while another one still
delivers.
-/

namespace Plasmoid

open Framing Machine

/-- The link that a task serves. -/
def DeliveryTask.lane : DeliveryTask → Option (EndpointId × EndpointId)
  | .sender _ => none
  | .handler home node _ _ => some (home, node)

/-- What a message over a link of two nodes delivers. -/
def LinkMessage.parcel? {κ : Type} (home node : EndpointId) :
    LinkMessage κ → Option Parcel
  | .deliver envelope => some ⟨home, node, envelope⟩
  | _ => none

namespace DeliveryNet

variable {κ : Type} (s : DeliveryNet κ)

/-- What particles of a node have sent to another one, in order. -/
def sentOver (home node : EndpointId) : List Parcel :=
  (s.sent.map Sending.parcel).filter fun p => p.TravelsOver home node

/-- What the handlers of a link have delivered, in order. -/
def gotOver (home node : EndpointId) : List Parcel :=
  (s.got.filter fun g => g.task.lane = some (home, node)).map Receipt.parcel

/-- What a particle has sent on its own node, in order. -/
def sentBy (pid : Pid) : List Parcel :=
  (s.sent.filter fun x => x.source = pid ∧ x.parcel.node = pid.node).map
    Sending.parcel

/-- What a particle has delivered on its own node, in order. -/
def gotBy (pid : Pid) : List Parcel :=
  (s.got.filter fun g => g.task = .sender pid).map Receipt.parcel

/-- What came off a link. -/
def offLane (home node : EndpointId) : List Parcel :=
  (s.lanes home node).streams.processed.filterMap (LinkMessage.parcel? home node)

/-- What went onto a link. -/
def onLane (home node : EndpointId) : List Parcel :=
  (s.lanes home node).streams.sent.filterMap (LinkMessage.parcel? home node)

/-- No handler of the link is delivering. -/
def laneIdle (home node : EndpointId) : Bool :=
  s.tasks.keys.all fun task => task.lane ≠ some (home, node)

/-- The handlers of a link take turns. -/
def TakesTurns : NetAction κ → Prop
  | .read home node w i =>
    (s.lanes home node).streams.inTurn (.handle w i) = true ∧
      s.laneIdle home node = true
  | _ => True

instance : DecidablePred s.TakesTurns := fun a => by
  unfold TakesTurns
  split <;> infer_instance

variable {s} {t : DeliveryNet κ}

theorem lookup_of_laneIdle {home node : EndpointId} (h : s.laneIdle home node = true)
    {task : DeliveryTask} (htask : task.lane = some (home, node)) :
    s.tasks.lookup task = none := by
  refine AList.lookup_eq_none.2 fun hmem => ?_
  have hne := List.all_eq_true.1 h task hmem
  simp [htask] at hne

/-! ## On one node -/

/-- What a particle delivers on its own node it delivers in order. -/
def LocalInv (s : DeliveryNet κ) : Prop :=
  ∀ pid, (s.gotBy pid ++
    ((s.tasks.lookup (.sender pid)).map Delivery.parcel).toList).Sublist (s.sentBy pid)

theorem localInv_start : LocalInv (start : DeliveryNet κ) :=
  fun _ => .refl []

/-- The tasks of the particles stay as they are. -/
theorem LocalInv.of_same (hs : LocalInv s) (hgot : t.got = s.got)
    (hsent : ∀ pid, (s.sentBy pid).Sublist (t.sentBy pid))
    (htasks : ∀ pid, t.tasks.lookup (.sender pid) = s.tasks.lookup (.sender pid)) :
    LocalInv t := by
  intro pid
  rw [gotBy, hgot, htasks]
  exact (hs pid).trans (hsent pid)

theorem sentBy_record (source : Pid) (q : Parcel) (pid : Pid) :
    (s.record source q).sentBy pid = s.sentBy pid ++
      if source = pid ∧ q.node = pid.node then [q] else [] := by
  rw [sentBy, record, List.filter_append, List.map_append, sentBy]
  by_cases h : source = pid ∧ q.node = pid.node
  · rw [if_pos h]
    simp [h]
  · rw [if_neg h]
    simp [h]

theorem sentBy_record_sublist (source : Pid) (q : Parcel) (pid : Pid) :
    (s.sentBy pid).Sublist ((s.record source q).sentBy pid) := by
  rw [sentBy_record]
  exact List.sublist_append_left _ _

theorem LocalInv.deliverTo (codec : WireCodec (LinkMessage κ)) (hs : LocalInv s)
    {source : Pid} (hidle : s.tasks.lookup (.sender source) = none)
    (dest : Destination) (refId : Option UInt64) (payload : List UInt8) :
    LocalInv (s.deliverTo codec source dest refId payload) := by
  unfold DeliveryNet.deliverTo
  split
  · exact hs
  · rename_i target hhere
    intro pid
    have hpid := hs pid
    show (s.gotBy pid ++ (((s.tasks.insert (.sender source) _).lookup
      (.sender pid)).map Delivery.parcel).toList).Sublist ((s.record _ _).sentBy pid)
    rw [Table.lookup_insert_eq, sentBy_record]
    by_cases heq : pid = source
    · subst heq
      rw [hidle] at hpid
      simp only [Option.map_none, Option.toList_none, List.append_nil] at hpid
      simp only [if_pos, and_self, Option.map_some, Option.toList_some]
      exact hpid.append (.refl _)
    · rw [if_neg (by simpa using heq), if_neg fun h => heq h.1.symm, List.append_nil]
      exact hpid
  · rename_i node target helse
    dsimp only
    split
    all_goals
      exact hs.of_same rfl (sentBy_record_sublist source _) fun pid => rfl

theorem LocalInv.of_erase (hs : LocalInv s) {task : DeliveryTask}
    (hsent : t.sent = s.sent) (hgot : t.got = s.got)
    (htasks : t.tasks = s.tasks.erase task) : LocalInv t := by
  intro pid
  rw [gotBy, hgot, sentBy, hsent, htasks, Table.lookup_erase_eq]
  split
  · simp only [Option.map_none, Option.toList_none, List.append_nil]
    exact (List.sublist_append_left _ _).trans (hs pid)
  · exact hs pid

theorem LocalInv.of_accept (hs : LocalInv s) {task : DeliveryTask} {d : Delivery}
    (hd : s.tasks.lookup task = some d) {pid : Pid} (hsent : t.sent = s.sent)
    (hgot : t.got = s.got ++ [⟨task, d.parcel, pid⟩])
    (htasks : t.tasks = s.tasks.erase task) : LocalInv t := by
  intro x
  have hx := hs x
  rw [gotBy, hgot, sentBy, hsent, htasks, Table.lookup_erase_eq, List.filter_append,
    List.map_append]
  by_cases heq : DeliveryTask.sender x = task
  · subst heq
    rw [hd] at hx
    simp only [if_pos, Option.map_none, Option.toList_none, List.append_nil]
    simp only [Option.map_some, Option.toList_some] at hx
    simpa [gotBy, sentBy] using hx
  · have hne : task ≠ DeliveryTask.sender x := Ne.symm heq
    rw [if_neg heq]
    simp only [List.filter_singleton, hne, decide_false, cond_false, List.map_nil,
      List.append_nil]
    exact hx

theorem LocalInv.setTask (hs : LocalInv s) {task : DeliveryTask} {d : Delivery}
    (hd : s.tasks.lookup task = some d) (phase : DeliveryPhase) :
    LocalInv (s.setTask task d.parcel phase) := by
  intro pid
  have hpid := hs pid
  show (s.gotBy pid ++ (((s.tasks.insert task _).lookup
    (.sender pid)).map Delivery.parcel).toList).Sublist (s.sentBy pid)
  rw [Table.lookup_insert_eq]
  split
  · rename_i heq
    subst heq
    rw [hd] at hpid
    exact hpid
  · exact hpid

theorem LocalInv.advance (hs : LocalInv s) {task : DeliveryTask} {d : Delivery}
    (hd : s.tasks.lookup task = some d) (late : Bool) :
    LocalInv (s.advance task late d) := by
  obtain ⟨parcel, phase⟩ := d
  cases phase with
  | resolving =>
    rw [DeliveryNet.advance]
    split
    · exact hs.of_erase rfl rfl rfl
    · exact hs.setTask hd _
  | finding pid =>
    rw [DeliveryNet.advance]
    split
    · exact hs.setTask hd _
    · exact hs.of_erase rfl rfl rfl
  | pushing pid =>
    rw [DeliveryNet.advance]
    split
    · exact hs.of_accept hd rfl rfl rfl
    · split
      · exact hs.of_accept hd rfl rfl rfl
      · exact hs.of_erase rfl rfl rfl

theorem LocalInv.step {codec : WireCodec (LinkMessage κ)} (hs : LocalInv s)
    {a : NetAction κ} (h : s.step codec a = some t) : LocalInv t := by
  cases a with
  | send source dest refId payload =>
    rw [DeliveryNet.step] at h
    split at h
    · cases h
    · rename_i hidle
      cases h
      exact hs.deliverTo codec (AList.lookup_eq_none.2 hidle) dest refId payload
  | post home node msg =>
    cases h
    exact hs
  | transport home node a =>
    rw [DeliveryNet.step] at h
    split at h
    · obtain ⟨lane, -, rfl⟩ := Option.map_eq_some_iff.1 h
      exact hs
    · cases h
  | read home node w i =>
    rw [DeliveryNet.step] at h
    split at h
    · cases h
    · obtain ⟨lane, -, h⟩ := Option.bind_eq_some_iff.1 h
      obtain ⟨msg, -, rfl⟩ := Option.map_eq_some_iff.1 h
      cases msg with
      | deliver envelope =>
        refine hs.of_same rfl (fun pid => .refl _) fun pid => ?_
        exact (Table.lookup_insert_eq _ _ _ _).trans (if_neg fun heq => by cases heq)
      | control msg =>
        have hsame := sameBooks_control codec (s.setLane home node lane) home node
          (.handler home node w i) msg
        refine hs.of_same hsame.got (fun pid => ?_) fun pid =>
          congrArg (AList.lookup _) hsame.tasks
        rw [sentBy, sentBy, hsame.sent]
        exact .refl _
      | other msg => exact hs
  | advance task late =>
    obtain ⟨d, hd, rfl⟩ := Option.map_eq_some_iff.1 h
    exact hs.advance hd late
  | operate node op =>
    cases h
    exact hs
  | spawn node component name =>
    cases h
    exact hs
  | receive pid call =>
    cases h
    exact hs

/-! ## Between two nodes -/

variable (codec : WireCodec (LinkMessage κ))

/-- What the handlers of a link deliver they deliver in order. -/
structure LaneInv (s : DeliveryNet κ) (home node : EndpointId) : Prop where
  streams : (s.lanes home node).streams.StreamsInv (frameReader codec)
  on : (s.onLane home node).Sublist (s.sentOver home node)
  got : (s.gotOver home node).Sublist (s.offLane home node)
  /-- What a handler is delivering comes after what was delivered. -/
  busy : ∀ task d, s.tasks.lookup task = some d → task.lane = some (home, node) →
    (s.gotOver home node ++ [d.parcel]).Sublist (s.offLane home node)
  one : ∀ task task' d d', s.tasks.lookup task = some d →
    s.tasks.lookup task' = some d' → task.lane = some (home, node) →
    task'.lane = some (home, node) → task = task'

variable {codec}

theorem laneInv_start (home node : EndpointId) :
    LaneInv codec (start : DeliveryNet κ) home node where
  streams := PeerStreams.streamsInv_start
  on := .refl []
  got := .refl []
  busy _ _ h := by cases h
  one _ _ _ _ h := by cases h

/-- The link and the tasks that serve it stay as they are. -/
theorem LaneInv.of_same {home node : EndpointId} (hs : LaneInv codec s home node)
    (hlane : t.lanes home node = s.lanes home node)
    (hsent : (s.sentOver home node).Sublist (t.sentOver home node))
    (hgot : t.gotOver home node = s.gotOver home node)
    (htasks : ∀ task, task.lane = some (home, node) →
      t.tasks.lookup task = s.tasks.lookup task) : LaneInv codec t home node where
  streams := by
    rw [hlane]
    exact hs.streams
  on := by
    rw [onLane, hlane]
    exact hs.on.trans hsent
  got := by
    rw [hgot, offLane, hlane]
    exact hs.got
  busy task d hd htask := by
    rw [hgot, offLane, hlane]
    exact hs.busy task d ((htasks task htask) ▸ hd) htask
  one task task' d d' hd hd' htask htask' :=
    hs.one task task' d d' ((htasks task htask) ▸ hd) ((htasks task' htask') ▸ hd')
      htask htask'

theorem sentOver_record (source : Pid) (q : Parcel) (home node : EndpointId) :
    (s.record source q).sentOver home node = s.sentOver home node ++
      if q.TravelsOver home node then [q] else [] := by
  rw [sentOver, record, List.map_append, List.filter_append, sentOver]
  by_cases h : q.TravelsOver home node
  · rw [if_pos h]
    simp [h]
  · rw [if_neg h]
    simp [h]

theorem lanes_sendOver (s : DeliveryNet κ) (h n home node : EndpointId)
    (msg : LinkMessage κ) : (s.sendOver codec h n msg).lanes home node =
      if home = h ∧ node = n then (s.lanes h n).send codec msg
      else s.lanes home node := rfl

theorem offLane_sendOver (h n home node : EndpointId) (msg : LinkMessage κ) :
    (s.sendOver codec h n msg).offLane home node = s.offLane home node := by
  rw [offLane, lanes_sendOver]
  split
  · rename_i hon
    rw [LossyStreams.processed_send, offLane, hon.1, hon.2]
  · rfl

/-- A message goes onto a link that it may use. -/
theorem LaneInv.sendOver (hcodec : codec.RoundTrips) {home node : EndpointId}
    (hs : LaneInv codec s home node) (h n : EndpointId) (msg : LinkMessage κ)
    (hon : ((s.sendOver codec h n msg).onLane home node).Sublist
      (s.sentOver home node)) :
    LaneInv codec (s.sendOver codec h n msg) home node where
  streams := by
    rw [lanes_sendOver]
    split
    · rename_i hsame
      have hstreams := hs.streams
      rw [hsame.1, hsame.2] at hstreams
      exact hstreams.send codec hcodec msg
    · exact hs.streams
  on := hon
  got := by
    rw [offLane_sendOver]
    exact hs.got
  busy task d hd htask := by
    rw [offLane_sendOver]
    exact hs.busy task d hd htask
  one := hs.one

/-- Something that is no particle message goes onto a link. -/
theorem LaneInv.post (hcodec : codec.RoundTrips) {home node : EndpointId}
    (hs : LaneInv codec s home node) (h n : EndpointId) {msg : LinkMessage κ}
    (hmsg : ∀ home node, msg.parcel? home node = none) :
    LaneInv codec (s.sendOver codec h n msg) home node := by
  refine hs.sendOver hcodec h n msg ?_
  have hsame : (s.sendOver codec h n msg).onLane home node = s.onLane home node := by
    rw [onLane, lanes_sendOver]
    split
    · rename_i hon
      rw [onLane, hon.1, hon.2, LossyStreams.send, PeerStreams.send]
      split
      · rfl
      · rw [List.filterMap_append, List.filterMap_cons_none (hmsg h n),
          List.filterMap_nil, List.append_nil]
    · rfl
  rw [hsame]
  exact hs.on

theorem LaneInv.answers (hcodec : codec.RoundTrips) {home node : EndpointId}
    (here : EndpointId) (answers : List (EndpointId × PeerMessage)) :
    ∀ {s : DeliveryNet κ}, LaneInv codec s home node → LaneInv codec
      (answers.foldl (fun s m => s.sendOver codec here m.1 (.control m.2)) s)
      home node := by
  induction answers with
  | nil => exact fun hs => hs
  | cons m answers ih =>
    exact fun hs => ih (hs.post hcodec here m.1 fun _ _ => rfl)

theorem LaneInv.record {home node : EndpointId} (hs : LaneInv codec s home node)
    (source : Pid) (q : Parcel) : LaneInv codec (s.record source q) home node := by
  refine hs.of_same rfl ?_ rfl fun task _ => rfl
  rw [sentOver_record]
  exact List.sublist_append_left _ _

/-- A particle sends. -/
theorem LaneInv.deliverTo (hcodec : codec.RoundTrips) {home node : EndpointId}
    (hs : LaneInv codec s home node) (source : Pid) (dest : Destination)
    (refId : Option UInt64) (payload : List UInt8) :
    LaneInv codec (s.deliverTo codec source dest refId payload) home node := by
  unfold DeliveryNet.deliverTo
  split
  · exact hs
  · rename_i target hhere
    refine (hs.record source _).of_same rfl (.refl _) rfl fun task htask => ?_
    refine (Table.lookup_insert_eq _ _ _ _).trans (if_neg ?_)
    rintro rfl
    cases htask
  · rename_i n target helse
    dsimp only
    split
    · exact (hs.record source _).of_same rfl (.refl _) rfl fun task _ => rfl
    · rename_i frame hframe
      refine (hs.record source _).sendOver hcodec source.node n _ ?_
      rw [sentOver_record, onLane, lanes_sendOver]
      by_cases hon : home = source.node ∧ node = n
      · obtain ⟨rfl, rfl⟩ := hon
        have htravels : Parcel.TravelsOver
            ⟨source.node, node, target, refId, payload⟩ source.node node := ⟨rfl, rfl⟩
        rw [if_pos ⟨rfl, rfl⟩, if_pos htravels, LossyStreams.send,
          (PeerStreams.send_of_encoded hframe).1, List.filterMap_append]
        exact hs.on.append (.refl _)
      · rw [if_neg hon]
        exact hs.on.trans (List.sublist_append_left _ _)

/-- A handler reads a message, and acts on it. -/
theorem LaneInv.read (hcodec : codec.RoundTrips) {home node : EndpointId}
    (hs : LaneInv codec s home node) {h n : EndpointId} {w i : Nat}
    (hturns : s.TakesTurns (.read h n w i)) {lane : LossyStreams (LinkMessage κ)}
    {msg : LinkMessage κ}
    (hlane : (s.lanes h n).step codec (.handle w i) = some lane)
    (hmsg : lane.streams.processed.getLast? = some msg) :
    LaneInv codec ((s.setLane h n lane).dispatch codec h n (.handler h n w i) msg)
      home node := by
  obtain ⟨msg', hsent, hprocessed⟩ := LossyStreams.step_handle hlane
  have hlast : msg' = msg := by
    rw [hprocessed, List.getLast?_concat] at hmsg
    exact Option.some_inj.1 hmsg
  subst hlast
  by_cases hon : home = h ∧ node = n
  · obtain ⟨rfl, rfl⟩ := hon
    have hthis : (s.setLane home node lane).lanes home node = lane :=
      if_pos ⟨rfl, rfl⟩
    have hoff : (s.setLane home node lane).offLane home node =
        s.offLane home node ++ (msg'.parcel? home node).toList := by
      rw [offLane, hthis, hprocessed, List.filterMap_append, offLane]
      cases msg' <;> rfl
    have hbase : LaneInv codec (s.setLane home node lane) home node := by
      refine ⟨?_, ?_, ?_, ?_, hs.one⟩
      · obtain ⟨streams, hstreams, rfl⟩ := Option.map_eq_some_iff.1 hlane
        rw [hthis]
        exact hs.streams.step codec hcodec hturns.1 hstreams
      · rw [onLane, hthis, hsent]
        exact hs.on
      · rw [hoff]
        exact hs.got.trans (List.sublist_append_left _ _)
      · intro task d hd htask
        have hd : s.tasks.lookup task = some d := hd
        rw [lookup_of_laneIdle hturns.2 htask] at hd
        cases hd
    cases msg' with
    | deliver envelope =>
      refine ⟨hbase.streams, hbase.on, hbase.got, ?_, ?_⟩
      · intro task d hd htask
        have hd' := (Table.lookup_insert_eq s.tasks (.handler home node w i) task
          ⟨⟨home, node, envelope⟩, .resolving⟩).symm.trans hd
        split at hd'
        · cases hd'
          show (s.gotOver home node ++ [_]).Sublist
            ((s.setLane home node lane).offLane home node)
          rw [hoff]
          exact hs.got.append (.refl _)
        · rw [lookup_of_laneIdle hturns.2 htask] at hd'
          cases hd'
      · intro task task' d d' hd hd' htask htask'
        have hnew : ∀ {task : DeliveryTask} {d}, (s.tasks.insert
            (.handler home node w i) (Delivery.mk ⟨home, node, envelope⟩
              .resolving)).lookup task = some d →
            task.lane = some (home, node) → task = .handler home node w i := by
          intro task d hd htask
          rw [Table.lookup_insert_eq] at hd
          split at hd
          · assumption
          · rw [lookup_of_laneIdle hturns.2 htask] at hd
            cases hd
        exact (hnew hd htask).trans (hnew hd' htask').symm
    | control msg =>
      have hset : LaneInv codec ((s.setLane home node lane).setReg node
          ((s.regs node).handlePeerMessage msg).1) home node :=
        hbase.of_same rfl (.refl _) rfl fun task _ => rfl
      exact hset.answers hcodec node _
    | other msg => exact hbase
  · have hbase : LaneInv codec (s.setLane h n lane) home node :=
      hs.of_same (if_neg hon) (.refl _) rfl fun task _ => rfl
    cases msg' with
    | deliver envelope =>
      refine hbase.of_same rfl (.refl _) rfl fun task htask => ?_
      refine (Table.lookup_insert_eq _ _ _ _).trans (if_neg ?_)
      rintro rfl
      cases htask
      exact hon ⟨rfl, rfl⟩
    | control msg =>
      have hset : LaneInv codec ((s.setLane h n lane).setReg n
          ((s.regs n).handlePeerMessage msg).1) home node :=
        hbase.of_same rfl (.refl _) rfl fun task _ => rfl
      exact hset.answers hcodec n _
    | other msg => exact hbase

/-- A delivery ends without a push. -/
theorem LaneInv.of_erase {home node : EndpointId} (hs : LaneInv codec s home node)
    {task : DeliveryTask} (hlanes : t.lanes = s.lanes) (hsent : t.sent = s.sent)
    (hgot : t.got = s.got) (htasks : t.tasks = s.tasks.erase task) :
    LaneInv codec t home node := by
  have hlookup : ∀ task' d, t.tasks.lookup task' = some d →
      s.tasks.lookup task' = some d := by
    intro task' d hd
    rw [htasks, Table.lookup_erase_eq] at hd
    split at hd
    · cases hd
    · exact hd
  refine ⟨?_, ?_, ?_, fun task' d hd hlane => ?_, fun task' task'' d d' hd hd' => ?_⟩
  · rw [hlanes]
    exact hs.streams
  · rw [onLane, sentOver, hlanes, hsent]
    exact hs.on
  · rw [gotOver, offLane, hlanes, hgot]
    exact hs.got
  · rw [gotOver, offLane, hlanes, hgot]
    exact hs.busy task' d (hlookup task' d hd) hlane
  · exact hs.one task' task'' d d' (hlookup _ _ hd) (hlookup _ _ hd')

/-- A delivery ends with a push. -/
theorem LaneInv.of_accept {home node : EndpointId} (hs : LaneInv codec s home node)
    {task : DeliveryTask} {d : Delivery} (hd : s.tasks.lookup task = some d)
    {pid : Pid} (hlanes : t.lanes = s.lanes) (hsent : t.sent = s.sent)
    (hgot : t.got = s.got ++ [⟨task, d.parcel, pid⟩])
    (htasks : t.tasks = s.tasks.erase task) : LaneInv codec t home node := by
  have hbase : LaneInv codec { t with got := s.got } home node :=
    hs.of_erase hlanes hsent rfl htasks
  by_cases htask : task.lane = some (home, node)
  · have hadd : t.gotOver home node = s.gotOver home node ++ [d.parcel] := by
      rw [gotOver, hgot, List.filter_append, List.map_append, gotOver]
      simp [htask]
    have hoff : t.offLane home node = s.offLane home node := by
      rw [offLane, hlanes, offLane]
    refine ⟨hbase.streams, hbase.on, ?_, ?_, hbase.one⟩
    · rw [hadd, hoff]
      exact hs.busy task d hd htask
    · intro task' d' hd' htask'
      -- No other handler of the link is delivering.
      rw [htasks, Table.lookup_erase_eq] at hd'
      split at hd'
      · cases hd'
      · rename_i hne
        exact absurd (hs.one task' task d' d hd' hd htask' htask) hne
  · have hsame : t.gotOver home node = s.gotOver home node := by
      rw [gotOver, hgot, List.filter_append, List.map_append, gotOver]
      simp [htask]
    exact hbase.of_same rfl (.refl _) hsame fun task _ => rfl

theorem LaneInv.setTask {home node : EndpointId} (hs : LaneInv codec s home node)
    {task : DeliveryTask} {d : Delivery} (hd : s.tasks.lookup task = some d)
    (phase : DeliveryPhase) :
    LaneInv codec (s.setTask task d.parcel phase) home node := by
  have hlookup : ∀ task' d', (s.setTask task d.parcel phase).tasks.lookup task' =
      some d' → ∃ d₀, s.tasks.lookup task' = some d₀ ∧ d'.parcel = d₀.parcel := by
    intro task' d' hd'
    by_cases heq : task' = task
    · subst heq
      have hnew : (s.setTask task' d.parcel phase).tasks.lookup task' =
          some ⟨d.parcel, phase⟩ := AList.lookup_insert _
      cases hnew.symm.trans hd'
      exact ⟨d, hd, rfl⟩
    · exact ⟨d', (AList.lookup_insert_ne heq).symm.trans hd', rfl⟩
  refine ⟨hs.streams, hs.on, hs.got, fun task' d' hd' hlane => ?_, ?_⟩
  · obtain ⟨d₀, hd₀, hparcel⟩ := hlookup task' d' hd'
    rw [hparcel]
    exact hs.busy task' d₀ hd₀ hlane
  · intro task' task'' d' d'' hd' hd''
    obtain ⟨d₀, hd₀, -⟩ := hlookup task' d' hd'
    obtain ⟨d₁, hd₁, -⟩ := hlookup task'' d'' hd''
    exact hs.one task' task'' d₀ d₁ hd₀ hd₁

theorem LaneInv.advance {home node : EndpointId} (hs : LaneInv codec s home node)
    {task : DeliveryTask} {d : Delivery} (hd : s.tasks.lookup task = some d)
    (late : Bool) : LaneInv codec (s.advance task late d) home node := by
  obtain ⟨parcel, phase⟩ := d
  cases phase with
  | resolving =>
    rw [DeliveryNet.advance]
    split
    · exact hs.of_erase rfl rfl rfl rfl
    · exact hs.setTask hd _
  | finding pid =>
    rw [DeliveryNet.advance]
    split
    · exact hs.setTask hd _
    · exact hs.of_erase rfl rfl rfl rfl
  | pushing pid =>
    rw [DeliveryNet.advance]
    split
    · exact hs.of_accept hd rfl rfl rfl rfl
    · split
      · exact hs.of_accept hd rfl rfl rfl rfl
      · exact hs.of_erase rfl rfl rfl rfl

theorem LaneInv.step (hcodec : codec.RoundTrips) {home node : EndpointId}
    (hs : LaneInv codec s home node) {a : NetAction κ} (hturns : s.TakesTurns a)
    (h : s.step codec a = some t) : LaneInv codec t home node := by
  cases a with
  | send source dest refId payload =>
    rw [DeliveryNet.step] at h
    split at h
    · cases h
    · cases h
      exact hs.deliverTo hcodec source dest refId payload
  | post here there msg =>
    cases h
    refine hs.post hcodec here there fun _ _ => ?_
    cases msg <;> rfl
  | transport here there a =>
    rw [DeliveryNet.step] at h
    split at h
    · rename_i ha
      obtain ⟨lane, hlane, rfl⟩ := Option.map_eq_some_iff.1 h
      obtain ⟨hsent, hprocessed⟩ := LossyStreams.step_transport ha hlane
      by_cases hon : home = here ∧ node = there
      · obtain ⟨rfl, rfl⟩ := hon
        have hthis : (s.setLane home node lane).lanes home node = lane :=
          if_pos ⟨rfl, rfl⟩
        refine ⟨?_, ?_, ?_, fun task d hd htask => ?_, hs.one⟩
        · obtain ⟨streams, hstreams, rfl⟩ := Option.map_eq_some_iff.1 hlane
          rw [hthis]
          refine hs.streams.step codec hcodec ?_ hstreams
          cases a <;> first | rfl | cases ha
        · rw [onLane, hthis, hsent]
          exact hs.on
        · rw [offLane, hthis, hprocessed]
          exact hs.got
        · rw [offLane, hthis, hprocessed]
          exact hs.busy task d hd htask
      · exact hs.of_same (if_neg hon) (.refl _) rfl fun task _ => rfl
    · cases h
  | read here there w i =>
    rw [DeliveryNet.step] at h
    split at h
    · cases h
    · obtain ⟨lane, hlane, h⟩ := Option.bind_eq_some_iff.1 h
      obtain ⟨msg, hmsg, rfl⟩ := Option.map_eq_some_iff.1 h
      exact hs.read hcodec hturns hlane hmsg
  | advance task late =>
    obtain ⟨d, hd, rfl⟩ := Option.map_eq_some_iff.1 h
    exact hs.advance hd late
  | operate n op =>
    cases h
    exact hs.of_same rfl (.refl _) rfl fun task _ => rfl
  | spawn n component name =>
    cases h
    exact hs.of_same rfl (.refl _) rfl fun task _ => rfl
  | receive pid call =>
    cases h
    exact hs.of_same rfl (.refl _) rfl fun task _ => rfl

/-! ## The result -/

theorem laneInv_run (hcodec : codec.RoundTrips)
    (h : Run (step codec) TakesTurns start s) (home node : EndpointId) :
    LaneInv codec s home node := by
  have hstep : ∀ {s t : DeliveryNet κ} {a : NetAction κ}, LaneInv codec s home node →
      s.TakesTurns a → s.step codec a = some t → LaneInv codec t home node :=
    fun hs hturns hnext => hs.step hcodec hturns hnext
  have hrun := h.invariant hstep (laneInv_start home node)
  exact hrun

theorem localInv_run {ok : DeliveryNet κ → NetAction κ → Prop}
    (h : Run (step codec) ok start s) : LocalInv s :=
  h.invariant (fun hs _ hstep => hs.step hstep) localInv_start

/-- What particles send arrives in the order in which it was sent: what one
particle sends on its own node, in every run, and what goes from one node to
another, in every run whose handlers take turns. -/
theorem messages_arrive_in_order (hcodec : codec.RoundTrips) :
    (∀ s, Run (step codec) anyStep start s → ∀ pid,
      (s.gotBy pid).Sublist (s.sentBy pid)) ∧
    ∀ s, Run (step codec) TakesTurns start s → ∀ home node,
      (s.gotOver home node).Sublist (s.sentOver home node) := by
  constructor
  · intro s h pid
    exact (List.sublist_append_left _ _).trans (localInv_run h pid)
  · intro s h home node
    have hs := laneInv_run hcodec h home node
    have hlink : (s.offLane home node).Sublist (s.onLane home node) :=
      hs.streams.in_order.filterMap _
    exact hs.got.trans (hlink.trans hs.on)

/-- Two letters to one name.  The first one is read and delivered before the
second one is read. -/
def sendLetters : List (NetAction Unit) :=
  [.operate ⟨2⟩ (.atomic (.registerComponent "worker")),
    .spawn ⟨2⟩ "worker" (some "b"),
    .send ⟨⟨1⟩, 1⟩ (.named (some ⟨2⟩) "b") none [7],
    .send ⟨⟨1⟩, 2⟩ (.named (some ⟨2⟩) "b") none [8],
    .transport ⟨1⟩ ⟨2⟩ (.take 0), .transport ⟨1⟩ ⟨2⟩ (.openLink 0 true),
    .transport ⟨1⟩ ⟨2⟩ (.write 0), .transport ⟨1⟩ ⟨2⟩ (.take 0),
    .transport ⟨1⟩ ⟨2⟩ (.write 0)] ++
    (.read ⟨1⟩ ⟨2⟩ 0 0 :: List.replicate 3 (.advance (.handler ⟨1⟩ ⟨2⟩ 0 0) false)) ++
    (.read ⟨1⟩ ⟨2⟩ 0 0 :: List.replicate 3 (.advance (.handler ⟨1⟩ ⟨2⟩ 0 0) false))

theorem messages_arrive_in_order_letters :
    ∃ s : DeliveryNet Unit, Run (step letterWire) TakesTurns start s ∧
      (s.gotOver ⟨1⟩ ⟨2⟩).map (fun p => p.envelope.payload) = [[7], [8]] ∧
      (s.gotOver ⟨1⟩ ⟨2⟩).Sublist (s.sentOver ⟨1⟩ ⟨2⟩) := by
  obtain ⟨s, hrun, hgot⟩ : ∃ s : DeliveryNet Unit,
      Run (step letterWire) TakesTurns start s ∧
        (s.gotOver ⟨1⟩ ⟨2⟩).map (fun p => p.envelope.payload) = [[7], [8]] :=
    exec_run_of_any sendLetters (by decide +kernel)
  exact ⟨s, hrun, hgot,
    (messages_arrive_in_order letterWire_roundTrips).2 s hrun ⟨1⟩ ⟨2⟩⟩

end DeliveryNet

end Plasmoid
