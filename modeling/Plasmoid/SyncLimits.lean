import Plasmoid.Frames
import Plasmoid.Lib.SelfDelimiting
import Plasmoid.NameSync

/-!
# Table exchanges and their limits

A table exchange is a command and a response on one stream.  The reader on
either side takes no more than a fixed number of bytes, and no writer checks
how many it has.  The responder merges before it answers.  So when its own
table is too large for the response, it has merged and killed, and the caller
does neither.

The serializers of the wire format are parameters.  The connection does not
fail, and nothing else happens on the two nodes.
-/

namespace Plasmoid

/-- What the reader of a command or of a response takes at most. -/
def maxStreamLen : Nat := 1024 * 1024

/-- The commands that are about names. -/
inductive WireCommand where
  | global (req : GlobalRequest)
  | sync (names : List (String × Pid))
deriving DecidableEq

/-- The responses to them. -/
inductive WireResponse where
  | global (resp : GlobalResponse)
  | names (names : List (String × Pid))
deriving DecidableEq

/-- The serializers of the request/response path. -/
structure WireFormat where
  commands : WireCodec WireCommand
  responses : WireCodec WireResponse

/-- What was serialized is read back, and no bytes are no response. -/
structure WireFormat.Lawful (w : WireFormat) : Prop where
  commands : w.commands.RoundTrips
  responses : w.responses.RoundTrips
  nothing : ∀ r, w.responses.deserialize [] ≠ .ok r

/-- `read_to_end`, with its limit. -/
def readToEnd (limit : Nat) (bytes : List UInt8) : Except String (List UInt8) :=
  if bytes.length ≤ limit then .ok bytes else .error "stream too long"

namespace GlobalNames

/-- Answer a peer's sync with the table as it was, and merge theirs. -/
def answerSync (g : GlobalNames) (theirs : List (String × Pid)) :
    GlobalNames × List Verdict × WireResponse :=
  let mine := g.snapshot
  let (merged, verdicts) := g.mergeBegin.merge theirs
  (merged.mergeEnd, losers g.me verdicts, .names mine)

/-- What a node makes of a command: its tables, whom it kills if it merges, and
the bytes that it sends back. -/
structure Handled where
  node : GlobalNames
  kills : Option (List Verdict)
  sent : List UInt8

/-- `handle_stream`.  If it fails, the stream ends and nothing is sent. -/
def handleStream (w : WireFormat) (g : GlobalNames) (requestBytes : List UInt8) :
    Handled :=
  match readToEnd maxStreamLen requestBytes with
  | .error _ => ⟨g, none, []⟩
  | .ok bytes =>
    match w.commands.deserialize bytes with
    | .error _ => ⟨g, none, []⟩
    | .ok (.global req) =>
      let (g, resp) := g.apply req
      ⟨g, none, respond w (.global resp)⟩
    | .ok (.sync names) =>
      let (g, kills, resp) := g.answerSync names
      ⟨g, some kills, respond w resp⟩
where
  /-- The bytes of a response, none if it cannot be serialized. -/
  respond (w : WireFormat) (resp : WireResponse) : List UInt8 :=
    match w.responses.serialize resp with
    | .error _ => []
    | .ok bytes => bytes

/-- `ask_remote`: send a command and read the response. -/
def askRemote (w : WireFormat) (peer : GlobalNames) (cmd : WireCommand) :
    Handled × Except String WireResponse :=
  match w.commands.serialize cmd with
  | .error e => (⟨peer, none, []⟩, .error e)
  | .ok request =>
    let handled := peer.handleStream w request
    (handled, do w.responses.deserialize (← readToEnd maxStreamLen handled.sent))

end GlobalNames

/-- Both nodes after an exchange.  `none` is a node that has not merged. -/
structure SyncOutcome where
  caller : GlobalNames
  callerKills : Option (List Verdict)
  peer : GlobalNames
  peerKills : Option (List Verdict)

/-- `sync_with`: exchange tables with a node. -/
def syncWith (w : WireFormat) (caller peer : GlobalNames) : SyncOutcome :=
  let caller := caller.mergeBegin
  let (handled, reply) := peer.askRemote w (.sync caller.snapshot)
  match reply with
  | .ok (.names theirs) =>
    let (merged, verdicts) := caller.merge theirs
    ⟨merged.mergeEnd, some (GlobalNames.losers caller.me verdicts),
      handled.node, handled.kills⟩
  | _ => ⟨caller.mergeEnd, none, handled.node, handled.kills⟩

namespace SyncOutcome

/-- The list has the losers of all conflicts between two tables that live on
a node. -/
def ListsLosers (me : EndpointId) (kills : List Verdict)
    (caller peer : GlobalNames) : Prop :=
  ∀ name p q, caller.names.lookup name = some p → peer.names.lookup name = some q →
    p ≠ q → (max p q).isLocalTo me = true →
      ∃ v ∈ kills, v.name = name ∧ v.loser = max p q

/-- Both nodes have merged.  They have the same table, and each kills the
losers that live on it. -/
def BothMerged (o : SyncOutcome) (caller peer : GlobalNames) : Prop :=
  ∃ kills kills', o.callerKills = some kills ∧ o.peerKills = some kills' ∧
    (∀ name, o.caller.names.lookup name = o.peer.names.lookup name) ∧
    ListsLosers caller.me kills caller peer ∧ ListsLosers peer.me kills' caller peer

/-- Neither node has changed its table, and neither kills anything. -/
def NeitherChanged (o : SyncOutcome) (caller peer : GlobalNames) : Prop :=
  (∀ name, o.caller.names.lookup name = caller.names.lookup name) ∧
    (∀ name, o.peer.names.lookup name = peer.names.lookup name) ∧
    o.callerKills.getD [] = [] ∧ o.peerKills.getD [] = []

/-- Both sides have reached the same verdict. -/
def SameVerdict (o : SyncOutcome) (caller peer : GlobalNames) : Prop :=
  o.BothMerged caller peer ∨ o.NeitherChanged caller peer

end SyncOutcome

/-! ## When a message gets through -/

/-- The message can be serialized, and the reader takes all of it. -/
def WireCodec.Fits {α : Type} (codec : WireCodec α) (msg : α) : Prop :=
  ∃ bytes, codec.serialize msg = .ok bytes ∧ bytes.length ≤ maxStreamLen

/-- The table of the caller has nothing for the peer: every name of it is bound
by the peer to the same pid or to a lower one, and then the loser does not live
on the peer. -/
def TellsNothing (caller peer : GlobalNames) : Prop :=
  ∀ name p, caller.names.lookup name = some p →
    ∃ q, peer.names.lookup name = some q ∧
      (q = p ∨ q < p ∧ p.isLocalTo peer.me = false)

theorem readToEnd_of_le {limit : Nat} {bytes : List UInt8}
    (h : bytes.length ≤ limit) : readToEnd limit bytes = .ok bytes :=
  if_pos h

theorem readToEnd_of_lt {limit : Nat} {bytes : List UInt8}
    (h : limit < bytes.length) : readToEnd limit bytes = .error "stream too long" :=
  if_neg (Nat.not_le.2 h)

namespace GlobalNames

@[simp] theorem mergeEnd_mergeBegin (g : GlobalNames) : g.mergeBegin.mergeEnd = g :=
  rfl

/-- A node after a merge, with its gate closed again. -/
def merged (g : GlobalNames) (theirs : List (String × Pid)) : GlobalNames :=
  { g with names := (mergeAll g.names theirs).1 }

/-- Whom a node kills after a merge. -/
def mergeKills (g : GlobalNames) (theirs : List (String × Pid)) : List Verdict :=
  losers g.me (mergeAll g.names theirs).2

theorem answerSync_eq (g : GlobalNames) (theirs : List (String × Pid)) :
    g.answerSync theirs =
      (g.merged theirs, g.mergeKills theirs, .names g.snapshot) := rfl

variable {w : WireFormat} {names : List (String × Pid)}

/-- The command does not get through, so the peer does nothing. -/
theorem askRemote_of_not_fits (peer : GlobalNames) (hw : w.Lawful)
    (h : ¬ w.commands.Fits (.sync names)) :
    (peer.askRemote w (.sync names)).1.node = peer ∧
      (peer.askRemote w (.sync names)).1.kills = none ∧
      ∀ r, (peer.askRemote w (.sync names)).2 ≠ .ok r := by
  rw [askRemote]
  cases hserialize : w.commands.serialize (.sync names) with
  | error e => simp
  | ok request =>
    have hlong : maxStreamLen < request.length := by
      by_contra hle
      exact h ⟨request, hserialize, Nat.not_lt.1 hle⟩
    simp only [handleStream, readToEnd_of_lt hlong, true_and]
    rw [readToEnd_of_le (Nat.zero_le _)]
    exact hw.nothing

/-- The command gets through, so the peer merges. -/
theorem handled_of_fits (peer : GlobalNames) (hw : w.Lawful)
    (h : w.commands.Fits (.sync names)) :
    (peer.askRemote w (.sync names)).1 =
      ⟨peer.merged names, some (peer.mergeKills names),
        handleStream.respond w (.names peer.snapshot)⟩ ∧
    (peer.askRemote w (.sync names)).2 =
      (readToEnd maxStreamLen
        (handleStream.respond w (.names peer.snapshot))).bind
          w.responses.deserialize := by
  obtain ⟨request, hserialize, hlength⟩ := h
  have hhandled : peer.handleStream w request =
      ⟨peer.merged names, some (peer.mergeKills names),
        handleStream.respond w (.names peer.snapshot)⟩ := by
    simp only [handleStream, readToEnd_of_le hlength,
      hw.commands _ _ hserialize, answerSync_eq]
  rw [askRemote, hserialize]
  dsimp only
  rw [hhandled]
  exact ⟨rfl, rfl⟩

theorem reply_of_fits {peer : GlobalNames} (hw : w.Lawful)
    (h : w.commands.Fits (.sync names))
    (hreply : w.responses.Fits (.names peer.snapshot)) :
    (peer.askRemote w (.sync names)).2 = .ok (.names peer.snapshot) := by
  obtain ⟨response, hserialize, hlength⟩ := hreply
  rw [(handled_of_fits peer hw h).2, handleStream.respond, hserialize]
  dsimp only
  rw [readToEnd_of_le hlength]
  exact hw.responses _ _ hserialize

theorem reply_of_not_fits {peer : GlobalNames} (hw : w.Lawful)
    (h : w.commands.Fits (.sync names))
    (hreply : ¬ w.responses.Fits (.names peer.snapshot)) (r : WireResponse) :
    (peer.askRemote w (.sync names)).2 ≠ .ok r := by
  rw [(handled_of_fits peer hw h).2, handleStream.respond]
  cases hserialize : w.responses.serialize (.names peer.snapshot) with
  | error e =>
    rw [readToEnd_of_le (Nat.zero_le _)]
    exact hw.nothing r
  | ok response =>
    have hlong : maxStreamLen < response.length := by
      by_contra hle
      exact hreply ⟨response, hserialize, Nat.not_lt.1 hle⟩
    dsimp only
    rw [readToEnd_of_lt hlong]
    intro heq
    cases heq

/-! ## The losers of a merge -/

/-- Merging the table of another node keeps the lower pid of each name. -/
theorem held_merged (g other : GlobalNames) (name : String) :
    held (g.merged other.snapshot).names name =
      min (held g.names name) (held other.names name) := by
  rw [← offered_snapshot other]
  exact (mergeAll_spec other.snapshot g.names).held name

/-- The higher pid of a conflict is a loser. -/
theorem exists_max_loser {g other : GlobalNames} {name : String} {p q : Pid}
    (hp : g.names.lookup name = some p) (hq : other.names.lookup name = some q)
    (hne : p ≠ q) :
    ∃ v ∈ (mergeAll g.names other.snapshot).2, v.name = name ∧ v.loser = max p q := by
  have hheld := held_merged g other name
  rw [held_eq_coe.2 hp, held_eq_coe.2 hq] at hheld
  rcases lt_or_gt_of_ne hne with hlt | hlt
  · rw [max_eq_right hlt.le]
    refine dropped_mergeAll (mem_snapshot.2 (held_eq_coe.2 hq)) _ ?_
    rw [show held (mergeAll g.names other.snapshot).1 name = _ from hheld]
    exact min_lt_iff.2 (.inl (WithTop.coe_lt_coe.2 hlt))
  · rw [max_eq_left hlt.le]
    refine (mergeAll_spec other.snapshot g.names).displaced name p
      (held_eq_coe.2 hp) ?_
    rw [show held (mergeAll g.names other.snapshot).1 name = _ from hheld]
    exact min_lt_iff.2 (.inr (WithTop.coe_lt_coe.2 hlt))

theorem mem_mergeKills {g : GlobalNames} {theirs : List (String × Pid)}
    {v : Verdict} : v ∈ g.mergeKills theirs ↔
      v ∈ (mergeAll g.names theirs).2 ∧ v.loser.isLocalTo g.me = true :=
  List.mem_filter

/-- A peer that neither changes its table nor kills anything had nothing to
learn. -/
theorem tellsNothing_of_idle {caller peer : GlobalNames}
    (hsame : ∀ name, (peer.merged caller.snapshot).names.lookup name =
      peer.names.lookup name) (hkills : peer.mergeKills caller.snapshot = []) :
    TellsNothing caller peer := by
  intro name p hp
  have hheld := held_merged peer caller name
  rw [held_inj.2 (hsame name), held_eq_coe.2 hp] at hheld
  have hle : held peer.names name ≤ p := by
    rw [hheld]
    exact min_le_right _ _
  obtain ⟨q, hq⟩ := WithTop.ne_top_iff_exists.1 (hle.trans_lt (WithTop.coe_lt_top p)).ne
  refine ⟨q, held_eq_coe.1 hq.symm, ?_⟩
  rw [← hq, WithTop.coe_le_coe] at hle
  refine hle.eq_or_lt.imp_right fun hlt => ⟨hlt, ?_⟩
  by_contra hlocal
  have hlost : held (mergeAll peer.names caller.snapshot).1 name < p := by
    rw [show held (mergeAll peer.names caller.snapshot).1 name = _ from
      held_inj.2 (hsame name), ← hq]
    exact WithTop.coe_lt_coe.2 hlt
  obtain ⟨v, hv, -, hloser⟩ :=
    dropped_mergeAll (mem_snapshot.2 (held_eq_coe.2 hp)) _ hlost
  have hmem : v ∈ peer.mergeKills caller.snapshot :=
    mem_mergeKills.2 ⟨hv, by rw [hloser]; simpa using hlocal⟩
  rw [hkills] at hmem
  cases hmem

/-- A peer that has nothing to learn keeps its table. -/
theorem held_of_tellsNothing {caller peer : GlobalNames}
    (h : TellsNothing caller peer) (name : String) :
    held (peer.merged caller.snapshot).names name = held peer.names name := by
  rw [held_merged]
  refine min_eq_left ?_
  cases hlookup : caller.names.lookup name with
  | none =>
    rw [show held caller.names name = ⊤ by rw [held, hlookup]; rfl]
    exact le_top
  | some p =>
    obtain ⟨q, hq, hle⟩ := h name p hlookup
    rw [held_eq_coe.2 hlookup, held_eq_coe.2 hq, WithTop.coe_le_coe]
    exact hle.elim Eq.le fun h => h.1.le

/-- It kills nothing. -/
theorem mergeKills_of_tellsNothing {caller peer : GlobalNames}
    (h : TellsNothing caller peer) : peer.mergeKills caller.snapshot = [] := by
  have hspec := mergeAll_spec caller.snapshot peer.names
  refine List.eq_nil_iff_forall_not_mem.2 fun v hv => ?_
  obtain ⟨hv, hlocal⟩ := mem_mergeKills.1 hv
  obtain ⟨hwinner, hlt⟩ := hspec.loses v hv
  have hlost : held peer.names v.name < v.loser := by
    rw [← held_of_tellsNothing h]
    exact hwinner.trans_lt (WithTop.coe_lt_coe.2 hlt)
  rcases hspec.pid v hv with hours | htheirs
  · exact absurd hours hlost.ne
  · obtain ⟨q, hq, hcase⟩ := h v.name v.loser
      (held_eq_coe.1 (mem_snapshot.1 htheirs))
    rcases hcase with rfl | ⟨-, hfar⟩
    · exact absurd (held_eq_coe.2 hq) hlost.ne
    · rw [hlocal] at hfar
      cases hfar

/-- A peer that has nothing to learn neither changes its table nor kills
anything, and no other peer does so. -/
theorem merge_idle_iff {caller peer : GlobalNames} :
    (∀ name, (peer.merged caller.snapshot).names.lookup name =
        peer.names.lookup name) ∧ peer.mergeKills caller.snapshot = [] ↔
      TellsNothing caller peer := by
  constructor
  · rintro ⟨hsame, hkills⟩
    exact tellsNothing_of_idle hsame hkills
  · intro h
    exact ⟨fun name => held_inj.1 (held_of_tellsNothing h name),
      mergeKills_of_tellsNothing h⟩

end GlobalNames

/-! ## The format of a table -/

section Tables

open SelfDelimiting Code

def nodeCode : Code EndpointId :=
  fixed 32 (fun e => toBytes 32 e.key.toNat)
    (fun bytes => some ⟨BitVec.ofNat 256 (ofBytes bytes)⟩)
    (fun _ => length_toBytes ..)
    (fun e => by rw [ofBytes_toBytes e.key.isLt, BitVec.ofNat_toNat,
      BitVec.setWidth_eq])

def pidCode : Code Pid :=
  (nodeCode.pair (number.via UInt64.toNat UInt64.ofNat fun _ =>
    UInt64.ofNat_toNat)).via (fun p => (p.node, p.seq)) (fun x => ⟨x.1, x.2⟩)
      fun _ => rfl

def readName (bytes : List UInt8) : Option String :=
  String.fromUTF8? ⟨bytes.toArray⟩

def nameCode : Code String := sized utf8Bytes readName fromUTF8_utf8Bytes

def tableCode : Code (List (String × Pid)) := (nameCode.pair pidCode).list

/-- The messages that carry a table.  Two bytes in front say which message it
is. -/
def tableCodec {α : Type} (wrap : List (String × Pid) → α)
    (unwrap : α → Option (List (String × Pid))) : WireCodec α where
  serialize msg :=
    match unwrap msg with
    | some names => .ok (2 :: 4 :: tableCode.encode names)
    | none => .error "no table"
  deserialize
    | 2 :: 4 :: bytes =>
      match tableCode.decode bytes with
      | some (names, _) => .ok (wrap names)
      | none => .error "unexpected end"
    | _ => .error "no table"

/-- The format of the messages of a sync. -/
def tableFormat : WireFormat where
  commands := tableCodec .sync fun
    | .sync names => some names
    | .global _ => none
  responses := tableCodec .names fun
    | .names names => some names
    | .global _ => none

theorem tableCodec_roundTrips {α : Type} {wrap : List (String × Pid) → α}
    {unwrap : α → Option (List (String × Pid))}
    (h : ∀ msg names, unwrap msg = some names → wrap names = msg) :
    (tableCodec wrap unwrap).RoundTrips := by
  intro msg body hbody
  cases hunwrap : unwrap msg with
  | none =>
    simp only [tableCodec, hunwrap] at hbody
    cases hbody
  | some names =>
    simp only [tableCodec, hunwrap] at hbody
    cases hbody
    have hread := tableCode.decode_encode names []
    rw [List.append_nil] at hread
    simp only [tableCodec, hread, h msg names hunwrap]

theorem tableFormat_lawful : tableFormat.Lawful where
  commands := by
    refine tableCodec_roundTrips fun msg names h => ?_
    cases msg with
    | sync names' => exact congrArg _ (Option.some_inj.1 h).symm
    | global req => cases h
  responses := by
    refine tableCodec_roundTrips fun msg names h => ?_
    cases msg with
    | names names' => exact congrArg _ (Option.some_inj.1 h).symm
    | global resp => cases h
  nothing r h := by cases h

/-- The length of a table with one entry. -/
theorem length_tableCode_singleton (name : String) (p : Pid) :
    (tableCode.encode [(name, p)]).length =
      1 + ((number.encode name.utf8ByteSize).length + name.utf8ByteSize +
        (32 + (number.encode p.seq.toNat).length)) := by
  have hnode : (nodeCode.encode p.node).length = 32 := length_toBytes ..
  have hpid : (pidCode.encode p).length =
      (nodeCode.encode p.node).length + (number.encode p.seq.toNat).length :=
    List.length_append
  have hname := length_sized utf8Bytes readName fromUTF8_utf8Bytes name
  rw [length_utf8Bytes] at hname
  rw [tableCode, length_list_singleton, length_pair, hpid, hnode,
    show (nameCode.encode name).length = _ from hname]

/-- A table fits if and only if it is not too long. -/
theorem tableCodec_fits_iff {α : Type} {wrap : List (String × Pid) → α}
    {unwrap : α → Option (List (String × Pid))} {msg : α}
    {names : List (String × Pid)} (h : unwrap msg = some names) :
    (tableCodec wrap unwrap).Fits msg ↔
      2 + (tableCode.encode names).length ≤ maxStreamLen := by
  have hserialize : (tableCodec wrap unwrap).serialize msg =
      .ok (2 :: 4 :: tableCode.encode names) := by
    simp only [tableCodec, h]
  have hlength : (2 :: 4 :: tableCode.encode names).length =
      2 + (tableCode.encode names).length := by
    simp only [List.length_cons]
    omega
  rw [← hlength]
  constructor
  · rintro ⟨bytes, hbytes, hle⟩
    rw [hserialize] at hbytes
    cases hbytes
    exact hle
  · exact fun hle => ⟨_, hserialize, hle⟩

theorem fits_sync_iff (names : List (String × Pid)) :
    tableFormat.commands.Fits (.sync names) ↔
      2 + (tableCode.encode names).length ≤ maxStreamLen :=
  tableCodec_fits_iff rfl

theorem fits_names_iff (names : List (String × Pid)) :
    tableFormat.responses.Fits (.names names) ↔
      2 + (tableCode.encode names).length ≤ maxStreamLen :=
  tableCodec_fits_iff rfl

/-- A node whose table has one name. -/
def oneName (me : EndpointId) (name : String) (p : Pid) : GlobalNames :=
  { GlobalNames.new me with names := AList.singleton name p }

/-- A short name fits. -/
theorem fits_oneName (p : Pid) (hseq : p.seq.toNat < 128) :
    2 + (tableCode.encode [("svc", p)]).length ≤ maxStreamLen := by
  have hsize : "svc".utf8ByteSize = 3 := by decide
  rw [length_tableCode_singleton, hsize, length_number hseq,
    length_number (by decide)]
  decide

/-- A name of as many bytes as a reader takes. -/
def longName : String := String.ofList (List.replicate maxStreamLen 'b')

theorem le_utf8ByteSize_ofList (l : List Char) :
    l.length ≤ (String.ofList l).utf8ByteSize := by
  induction l with
  | nil => exact Nat.zero_le _
  | cons c l ih =>
    have hcons : String.ofList (c :: l) = String.singleton c ++ String.ofList l := by
      simp
    rw [hcons, String.utf8ByteSize_append, String.utf8ByteSize_singleton]
    have hpos := c.utf8Size_pos
    simp only [List.length_cons]
    omega

theorem maxStreamLen_le_longName : maxStreamLen ≤ longName.utf8ByteSize := by
  have hle := le_utf8ByteSize_ofList (List.replicate maxStreamLen 'b')
  rwa [List.length_replicate] at hle

/-- Its table does not fit. -/
theorem not_fits_longName (p : Pid) :
    ¬ 2 + (tableCode.encode [(longName, p)]).length ≤ maxStreamLen := by
  rw [length_tableCode_singleton]
  have hle := maxStreamLen_le_longName
  omega

theorem longName_ne : "svc" ≠ longName := by
  intro heq
  have hle := maxStreamLen_le_longName
  rw [← heq] at hle
  revert hle
  decide

end Tables

/-! ## Both sides -/

namespace SyncOutcome

open GlobalNames

variable {w : WireFormat} {caller peer : GlobalNames}

/-- The tables are equal after two merges. -/
theorem lookup_merged (caller peer : GlobalNames) (name : String) :
    (caller.merged peer.snapshot).names.lookup name =
      (peer.merged caller.snapshot).names.lookup name := by
  rw [← held_inj, held_merged, held_merged, min_comm]

theorem listsLosers_caller (caller peer : GlobalNames) :
    ListsLosers caller.me (caller.mergeKills peer.snapshot) caller peer := by
  intro name p q hp hq hne hlocal
  obtain ⟨v, hv, hname, hloser⟩ := exists_max_loser hp hq hne
  exact ⟨v, mem_mergeKills.2 ⟨hv, by rw [hloser, hlocal]⟩, hname, hloser⟩

theorem listsLosers_peer (caller peer : GlobalNames) :
    ListsLosers peer.me (peer.mergeKills caller.snapshot) caller peer := by
  intro name p q hp hq hne hlocal
  rw [max_comm] at hlocal ⊢
  exact listsLosers_caller peer caller name q p hq hp hne.symm hlocal

theorem syncWith_of_error
    (h : ∀ r, (peer.askRemote w (.sync caller.snapshot)).2 ≠ .ok r) :
    syncWith w caller peer = ⟨caller, none,
      (peer.askRemote w (.sync caller.snapshot)).1.node,
      (peer.askRemote w (.sync caller.snapshot)).1.kills⟩ := by
  have hsnapshot : caller.mergeBegin.snapshot = caller.snapshot := rfl
  rw [syncWith, hsnapshot]
  cases hask : peer.askRemote w (.sync caller.snapshot) with
  | mk handled reply =>
    cases reply with
    | error e => rfl
    | ok r =>
      rw [hask] at h
      exact absurd rfl (h r)

/-- The request does not get through. -/
theorem syncWith_of_no_request (hw : w.Lawful)
    (h : ¬ w.commands.Fits (.sync caller.snapshot)) :
    syncWith w caller peer = ⟨caller, none, peer, none⟩ := by
  obtain ⟨hnode, hkills, herror⟩ := askRemote_of_not_fits peer hw h
  rw [syncWith_of_error herror, hnode, hkills]

/-- Only the request gets through, so the caller does not merge. -/
theorem syncWith_of_no_reply (hw : w.Lawful)
    (h : w.commands.Fits (.sync caller.snapshot))
    (hreply : ¬ w.responses.Fits (.names peer.snapshot)) :
    syncWith w caller peer = ⟨caller, none,
      peer.merged caller.snapshot, some (peer.mergeKills caller.snapshot)⟩ := by
  rw [syncWith_of_error (reply_of_not_fits hw h hreply), (handled_of_fits peer hw h).1]

/-- Request and reply get through. -/
theorem syncWith_of_reply (hw : w.Lawful)
    (h : w.commands.Fits (.sync caller.snapshot))
    (hreply : w.responses.Fits (.names peer.snapshot)) :
    syncWith w caller peer =
      ⟨caller.merged peer.snapshot, some (caller.mergeKills peer.snapshot),
        peer.merged caller.snapshot, some (peer.mergeKills caller.snapshot)⟩ := by
  have hask := reply_of_fits hw h hreply
  have hhandled := (handled_of_fits peer hw h).1
  have hsnapshot : caller.mergeBegin.snapshot = caller.snapshot := rfl
  rw [syncWith, hsnapshot]
  generalize peer.askRemote w (.sync caller.snapshot) = asked at hask hhandled
  obtain ⟨handled, reply⟩ := asked
  obtain rfl : reply = _ := hask
  obtain rfl : handled = _ := hhandled
  rfl

/-- When only the request gets through, the peer must have nothing to do. -/
theorem sameVerdict_of_no_reply_iff (hw : w.Lawful)
    (h : w.commands.Fits (.sync caller.snapshot))
    (hreply : ¬ w.responses.Fits (.names peer.snapshot)) :
    (syncWith w caller peer).SameVerdict caller peer ↔ TellsNothing caller peer := by
  rw [syncWith_of_no_reply hw h hreply, ← merge_idle_iff]
  constructor
  · rintro (⟨kills, -, hnone, -⟩ | ⟨-, hsame, -, hkills⟩)
    · cases hnone
    · exact ⟨hsame, hkills⟩
  · rintro ⟨hsame, hkills⟩
    exact .inr ⟨fun _ => rfl, hsame, rfl, hkills⟩

/-- Both sides of a table exchange reach the same verdict if and only if the
request is too large, or the reply is not, or the request has nothing for the
peer. -/
theorem same_verdict_iff (w : WireFormat) (hw : w.Lawful)
    (caller peer : GlobalNames) :
    (syncWith w caller peer).SameVerdict caller peer ↔
      ¬ w.commands.Fits (.sync caller.snapshot) ∨
        w.responses.Fits (.names peer.snapshot) ∨ TellsNothing caller peer := by
  by_cases hrequest : w.commands.Fits (.sync caller.snapshot)
  · by_cases hreply : w.responses.Fits (.names peer.snapshot)
    · refine iff_of_true ?_ (.inr (.inl hreply))
      rw [syncWith_of_reply hw hrequest hreply]
      exact .inl ⟨_, _, rfl, rfl, lookup_merged caller peer,
        listsLosers_caller caller peer, listsLosers_peer caller peer⟩
    · rw [sameVerdict_of_no_reply_iff hw hrequest hreply]
      tauto
  · refine iff_of_true ?_ (.inl hrequest)
    rw [syncWith_of_no_request hw hrequest]
    exact .inr ⟨fun _ => rfl, fun _ => rfl, rfl, rfl⟩

/-- A node that has claimed a name. -/
def svcAtOne : GlobalNames := oneName ⟨1⟩ "svc" ⟨⟨1⟩, 1⟩

/-- A node that has claimed the same name. -/
def svcAtTwo : GlobalNames := oneName ⟨2⟩ "svc" ⟨⟨2⟩, 1⟩

/-- A node that has claimed a long name. -/
def longAtTwo : GlobalNames := oneName ⟨2⟩ longName ⟨⟨2⟩, 1⟩

theorem same_verdict_iff_svc :
    (syncWith tableFormat svcAtOne svcAtTwo).SameVerdict svcAtOne svcAtTwo :=
  (same_verdict_iff tableFormat tableFormat_lawful svcAtOne svcAtTwo).2
    (.inr (.inl ((fits_names_iff _).2 (fits_oneName ⟨⟨2⟩, 1⟩ (by decide)))))

/-- The peer takes over the name of the caller, and the caller learns nothing
of the name of the peer. -/
theorem peer_merges_alone :
    (syncWith tableFormat svcAtOne longAtTwo).callerKills = none ∧
    (syncWith tableFormat svcAtOne longAtTwo).peer.names.lookup "svc" =
      some ⟨⟨1⟩, 1⟩ ∧
    ¬ ∀ (w : WireFormat) (caller peer : GlobalNames), w.Lawful →
      (syncWith w caller peer).SameVerdict caller peer := by
  have hrequest : tableFormat.commands.Fits (.sync svcAtOne.snapshot) :=
    (fits_sync_iff _).2 (fits_oneName ⟨⟨1⟩, 1⟩ (by decide))
  have hreply : ¬ tableFormat.responses.Fits (.names longAtTwo.snapshot) :=
    fun h => not_fits_longName ⟨⟨2⟩, 1⟩ ((fits_names_iff _).1 h)
  have hbound : svcAtOne.names.lookup "svc" = some ⟨⟨1⟩, 1⟩ := rfl
  have hunbound : longAtTwo.names.lookup "svc" = none :=
    List.dlookup_cons_ne _ _ longName_ne
  have hsync := syncWith_of_no_reply tableFormat_lawful hrequest hreply
  refine ⟨?_, ?_, fun h => ?_⟩
  · rw [hsync]
  · rw [hsync]
    refine held_eq_coe.1 ((held_merged longAtTwo svcAtOne "svc").trans ?_)
    rw [held, hunbound, held_eq_coe.2 hbound]
    exact min_top_left _
  · have hsame := h tableFormat svcAtOne longAtTwo tableFormat_lawful
    rw [sameVerdict_of_no_reply_iff tableFormat_lawful hrequest hreply] at hsame
    obtain ⟨q, hq, -⟩ := hsame "svc" ⟨⟨1⟩, 1⟩ hbound
    rw [hunbound] at hq
    cases hq

end SyncOutcome

end Plasmoid
