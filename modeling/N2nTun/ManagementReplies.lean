import N2nTun.ManagementParsing
import N2nTun.ManagementTexts

/-!
# The lengths of the management replies

The calls of `send_reply` that a datagram on the management port of an edge or of a supernode leads
to, and those of the event publisher: the length that is sent is that of the text that `snprintf`
was asked for, whether or not it found room in the buffer.

## Main definitions

* `SendReply` — a call of `send_reply`.
* `MgmtReply.sends` — the calls that make up a reply.
* `EdgeMgmt.mgmtEventPost` — the publisher.
* `EdgeMgmt.Reach` — the states of the port of an edge.
* `MgmtSource` — what replies come from.

## Main results

* `MgmtSource.repliesWithin_iff` — **the replies fit into their buffers unless an event is too long**, or a
  description or a version runs on.
-/

namespace N2n

open Bytes Tokens Printf

/-! ### Calls of `send_reply` -/

/-- A call of `send_reply`: the text that `snprintf` was asked for, whose length is `msg_len`, and
the size of the buffer. -/
structure SendReply where
  dest : Sock
  text : List UInt8
  size : ℕ

/-- The call sends what is in the buffer. -/
def SendReply.Within (x : SendReply) : Prop := x.text.length ≤ x.size

/-- All calls do. -/
def AllWithin (xs : List SendReply) : Prop := ∀ x ∈ xs, x.Within

/-- The calls that make up a reply.  What has the type "event" is from the publisher, which has a
buffer of its own. -/
def MgmtReply.sends (lib : AddressTexts) (rows : List UInt8 → String → List (List UInt8)) :
    MgmtReply → List SendReply
  | .str dest tag type key val =>
    [⟨dest, genJson1str tag (ascii type) (ascii key) val,
      if type = "event" then eventSize else replySize⟩]
  | .uint dest tag type key val =>
    [⟨dest, genJson1uint tag (ascii type) (ascii key) val, replySize⟩]
  | .help dest tag cmd text => [⟨dest, mgmtHelpRow tag (ascii cmd) (ascii text), replySize⟩]
  | .topic dest tag cmd subTag subSock text =>
    [⟨dest, mgmtHelpEventsRow lib tag (ascii cmd) subTag subSock (ascii text), replySize⟩]
  | .rows dest tag table => (rows tag table).map fun text => ⟨dest, text, replySize⟩
  | .console _ => []

/-- The calls that some replies come to. -/
def sendsOf (lib : AddressTexts) (rows : List UInt8 → String → List (List UInt8))
    (replies : List MgmtReply) : List SendReply := replies.flatMap (·.sends lib rows)

/-! ### The publisher -/

namespace EdgeMgmt

variable (s : EdgeMgmt EdgeView) (lib : AddressTexts)

/-- `mgmt_event_post`, and `mgmt_event_post2`, which it calls. -/
def mgmtEventPost (ev : MgmtEvent) : List SendReply :=
  let debug := s.subscribers .debug
  let sub := s.subscribers ev.topic
  if sub.type ≠ .sub ∧ debug.type ≠ .sub then []
  else
    let tag := if sub.type = .sub then sub.tag else debug.tag
    let text := ev.text lib tag
    let post := fun (req : MgmtReq) =>
      if req.type = .sub then [(⟨req.senderSock, text, eventSize⟩ : SendReply)] else []
    post sub ++ post debug

/-! ### Datagrams -/

/-- The help of the console. -/
def helpText : List UInt8 :=
  ["Help for edge management console:\n",
    "\tstop    | Gracefully exit edge\n",
    "\thelp    | This help message\n",
    "\t+verb   | Increase verbosity of logging\n",
    "\t-verb   | Decrease verbosity of logging\n",
    "\tr ...   | start query with JSON reply\n",
    "\tw ...   | start update with JSON reply\n",
    "\ts ...   | subscribe to event channel JSON reply\n",
    "\t<enter> | Display statistics\n\n"].flatMap ascii

/-- The calls of `handleMgmtJson`; there is none where the behaviour is undefined. -/
def jsonSends (passwordHash : UInt64) (sender : Sock) (udpBuf : List UInt8) : List SendReply :=
  match mgmtReqInit2 passwordHash (.from sender) (cmdlineOf udpBuf) with
  | .ready req => sendsOf lib (s.eee.rows lib) (s.handleReq req).2
  | .failed reply => sendsOf lib (s.eee.rows lib) [reply]
  | .undefined => []

/-- The calls of `readFromMgmtSocket`: the console is sent its status with `sendto`. -/
def datagramSends (passwordHash : UInt64) (sender : Sock) (udpBuf : List UInt8) :
    List SendReply :=
  let level := fun (fmt : String) (l : Int32) =>
    [(⟨sender, printf [fmt] [decimal l.toUInt32.toNat], replySize⟩ : SendReply)]
  if startsWith "help" udpBuf || startsWith "?" udpBuf then [⟨sender, helpText, replySize⟩]
  else if startsWith "stop" udpBuf then []
  else if startsWith "+verb" udpBuf then level "> +OK traceLevel=%u\n" (s.traceLevel + 1)
  else if startsWith "-verb" udpBuf then
    if 0 < s.traceLevel then level "> -OK traceLevel=%u\n" (s.traceLevel - 1)
    else level "> -NOK traceLevel=%u\n" s.traceLevel
  else if isJson udpBuf then s.jsonSends lib passwordHash sender udpBuf
  else []

/-! ### The states of the port of an edge -/

/-- The states that an edge comes to: at first nobody subscribes, datagrams come in on the port, and
the rest of the edge goes on meanwhile. -/
inductive Reach {σ : Type*} : EdgeMgmt σ → Prop
  | init (m : MgmtState) (eee : σ) :
    Reach ⟨m, fun _ => ⟨.unknown, [], none, [], .zero⟩, eee⟩
  | datagram {s : EdgeMgmt σ} {r : EdgeMgmt σ × List MgmtReply} {passwordHash : UInt64}
      {sender : Sock} {udpBuf : List UInt8} (h : Reach s)
      (hread : s.readFromMgmtSocket passwordHash sender udpBuf = some r) : Reach r.1
  | rest {s : EdgeMgmt σ} (m : MgmtState) (eee : σ) (h : Reach s) :
    Reach ⟨m, s.subscribers, eee⟩

/-! ### When the replies fit -/

/-- The event is not too long for the publisher, if somebody subscribes to it. -/
def EventFits (ev : MgmtEvent) : Prop :=
  let debug := s.subscribers .debug
  let sub := s.subscribers ev.topic
  let tag := if sub.type = .sub then sub.tag else debug.tag
  sub.type = .sub ∨ debug.type = .sub →
    match ev with
    | .debug => True
    | .test arg => tag.length + arg.length ≤ 54
    | .peer action p =>
      tag.length + (signed action.toInt).length + (macText p.macAddr).length +
        (sockToCstr lib p.sock).length ≤ 27

/-- The function that `handleMgmtJson` calls for a request. -/
def called (req : MgmtReq) : Option EdgeMgmtFunc :=
  if req.type = .sub then none
  else
    (lookupHandler MgmtHandler.cmd edgeMgmtHandlers req.argv0).bind fun handler =>
      if req.type = .write ∧ handler.wrok = false then none else some handler.func

/-- The rows of a command have room, and the event that it posts. -/
def CallFits (req : MgmtReq) : EdgeMgmtFunc → Prop
  | .edges =>
    (∀ p ∈ s.eee.pendingPeers, EdgeView.EdgesRowFits lib req.tag p "pSp") ∧
      ∀ p ∈ s.eee.knownPeers, EdgeView.EdgesRowFits lib req.tag p "p2p"
  | .supernodes => ∀ i p, s.eee.supernodes[i]? = some p →
    s.eee.SupernodesRowFits lib req.tag p i
  | .info => s.eee.InfoFits lib req.tag
  | .postTest => s.EventFits lib (.test (req.argv.getD (ascii "(null)")))
  | _ => True

/-- What `mgmt_req_init2` comes to for a datagram that is a line of the JSON protocol. -/
def jsonInit (passwordHash : UInt64) (sender : Sock) (udpBuf : List UInt8) : Option MgmtInit :=
  if startsWith "help" udpBuf || startsWith "?" udpBuf || startsWith "stop" udpBuf ||
      startsWith "+verb" udpBuf || startsWith "-verb" udpBuf || !isJson udpBuf then none
  else some (mgmtReqInit2 passwordHash (.from sender) (cmdlineOf udpBuf))

/-- The request in a datagram, if there is one, calls nothing that is too long. -/
def DatagramFits (passwordHash : UInt64) (sender : Sock) (udpBuf : List UInt8) : Prop :=
  ∀ req, jsonInit passwordHash sender udpBuf = some (.ready req) →
    ∀ func ∈ called req, s.CallFits lib req func

end EdgeMgmt

namespace SnMgmt

/-- The function that `handleMgmtJson` calls for a request. -/
def called (req : MgmtReq) : Option SnMgmtFunc :=
  (lookupHandler MgmtHandler.cmd snMgmtHandlers req.argv0).bind fun handler =>
    if req.type = .write ∧ handler.wrok = false then none else some handler.func

variable (s : SnMgmt) (v : SnView) (lib : AddressTexts) (file : Option CommunityFile)

/-- The calls of `handleMgmtJson`; there is none where the behaviour is undefined. -/
def jsonSends (passwordHash : UInt64) (sender : Sock) (mgmtBuf : List UInt8) : List SendReply :=
  match mgmtReqInit2 passwordHash (.from sender) (cmdlineOf mgmtBuf) with
  | .ready req => sendsOf lib (v.rows lib) (s.handleReq file req).2
  | .failed reply => sendsOf lib (v.rows lib) [reply]
  | .undefined => []

/-- The calls of `process_mgmt`: all but the replies to a line of the JSON protocol is sent with
`sendto_mgmt`. -/
def datagramSends (passwordHash : UInt64) (sender : Sock) (mgmtBuf : List UInt8) :
    List SendReply :=
  if EdgeMgmt.startsWith "help" mgmtBuf || EdgeMgmt.startsWith "?" mgmtBuf then []
  else if EdgeMgmt.startsWith "reload_communities" mgmtBuf then []
  else if isJson mgmtBuf then s.jsonSends v lib file passwordHash sender mgmtBuf
  else []

/-- What `mgmt_req_init2` comes to for a datagram that is a line of the JSON protocol. -/
def jsonInit (passwordHash : UInt64) (sender : Sock) (mgmtBuf : List UInt8) : Option MgmtInit :=
  if EdgeMgmt.startsWith "help" mgmtBuf || EdgeMgmt.startsWith "?" mgmtBuf ||
      EdgeMgmt.startsWith "reload_communities" mgmtBuf || !isJson mgmtBuf then none
  else some (mgmtReqInit2 passwordHash (.from sender) (cmdlineOf mgmtBuf))

/-- The request in a datagram, if there is one, does not list an edge whose row is too long. -/
def DatagramFits (passwordHash : UInt64) (sender : Sock) (mgmtBuf : List UInt8) : Prop :=
  ∀ req, jsonInit passwordHash sender mgmtBuf = some (.ready req) → called req = some .edges →
    ∀ c ∈ v.communities, ∀ p ∈ c.edges, v.EdgesRowFits lib req.tag p c

end SnMgmt

/-- What replies come from: a datagram on the port of an edge or of a supernode, or an event. -/
inductive MgmtSource where
  | edge (s : EdgeMgmt EdgeView) (reach : s.Reach) (passwordHash : UInt64) (sender : Sock)
    (udpBuf : List UInt8)
  | sn (s : SnMgmt) (v : SnView) (file : Option CommunityFile) (passwordHash : UInt64)
    (sender : Sock) (mgmtBuf : List UInt8)
  | event (s : EdgeMgmt EdgeView) (reach : s.Reach) (ev : MgmtEvent)

namespace MgmtSource

/-- The calls of `send_reply`. -/
def sends (lib : AddressTexts) : MgmtSource → List SendReply
  | .edge s _ passwordHash sender udpBuf => s.datagramSends lib passwordHash sender udpBuf
  | .sn s v file passwordHash sender mgmtBuf =>
    s.datagramSends v lib file passwordHash sender mgmtBuf
  | .event s _ ev => s.mgmtEventPost lib ev

/-- The events are short enough, and the rows have room. -/
def Fits (lib : AddressTexts) : MgmtSource → Prop
  | .edge s _ passwordHash sender udpBuf => s.DatagramFits lib passwordHash sender udpBuf
  | .sn _ v _ passwordHash sender mgmtBuf =>
    SnMgmt.DatagramFits v lib passwordHash sender mgmtBuf
  | .event s _ ev => s.EventFits lib ev

end MgmtSource

/-! ### What a request can be -/

/-- The parts of a request are short. -/
structure MgmtReq.Bounded (req : MgmtReq) : Prop where
  tag : req.tag.length ≤ 9
  argv0 : req.argv0.length ≤ 79

theorem mgmtReqInit2_bounded {passwordHash : UInt64} {sender : Sock} {udpBuf : List UInt8}
    {req : MgmtReq}
    (h : mgmtReqInit2 passwordHash (.from sender) (cmdlineOf udpBuf) = .ready req) :
    req.Bounded := by
  have hline : (cmdlineOf udpBuf).length ≤ 79 := List.length_take_le _ _
  unfold mgmtReqInit2 at h
  dsimp only at h
  split at h
  · cases h
  · next htype =>
    split at h
    · cases h
    · split at h
      · cases h
      · next hoptions =>
        split at h
        · cases h
        · next hcmd =>
          split at h
          · cases h
          · next hsplit =>
            split_ifs at h
            cases h
            refine ⟨splitOptions_length_le hsplit, ?_⟩
            have hrest := (strtok_length_le htype).2
            have hrest' := (strtok_length_le hoptions).2
            have hargv0 := (strtok_length_le hcmd).1
            dsimp only
            omega

/-- The tags of the subscribers are short. -/
def EdgeMgmt.TagsBounded {σ : Type*} (s : EdgeMgmt σ) : Prop :=
  ∀ topic, (s.subscribers topic).tag.length ≤ 9

namespace EdgeMgmt

variable {σ : Type*} {s : EdgeMgmt σ}

theorem call_subscribers (s : EdgeMgmt σ) (req : MgmtReq) (func : EdgeMgmtFunc) :
    (s.call req func).1.subscribers = s.subscribers := by
  cases func <;> rfl

theorem TagsBounded.handleReq (h : s.TagsBounded) {req : MgmtReq} (hreq : req.Bounded) :
    (s.handleReq req).1.TagsBounded := by
  unfold EdgeMgmt.handleReq
  split_ifs
  · split
    · exact h
    · intro topic
      unfold subscribe
      dsimp only
      rw [Function.update_apply]
      split_ifs
      · exact hreq.tag
      · exact h topic
  · split
    · exact h
    · split_ifs
      · exact h
      · intro topic
        dsimp only
        rw [call_subscribers]
        exact h topic

/-- A datagram leaves the tags short. -/
theorem TagsBounded.read (h : s.TagsBounded) {r : EdgeMgmt σ × List MgmtReply}
    {passwordHash : UInt64} {sender : Sock} {udpBuf : List UInt8}
    (hread : s.readFromMgmtSocket passwordHash sender udpBuf = some r) : r.1.TagsBounded := by
  unfold readFromMgmtSocket handleMgmtJson at hread
  split_ifs at hread
  · cases hread
    exact h
  · cases hread
    exact h
  · cases hread
    exact h
  · cases hread
    exact h
  · cases hread
    exact h
  · split at hread
    · next req hinit =>
      cases hread
      exact h.handleReq (mgmtReqInit2_bounded hinit)
    · cases hread
      exact h
    · cases hread
  · cases hread
    exact h

theorem Reach.tagsBounded (h : s.Reach) : s.TagsBounded := by
  induction h with
  | init m eee => exact fun _ => Nat.zero_le _
  | datagram _ hread ih => exact ih.read hread
  | rest m eee _ ih => exact ih

end EdgeMgmt

/-! ### Replies that always fit -/

@[simp] theorem allWithin_nil : AllWithin [] := fun x hx => by cases hx

@[simp] theorem allWithin_append {xs ys : List SendReply} :
    AllWithin (xs ++ ys) ↔ AllWithin xs ∧ AllWithin ys := List.forall_mem_append

theorem allWithin_singleton {x : SendReply} : AllWithin [x] ↔ x.Within :=
  List.forall_mem_singleton

section

variable {lib : AddressTexts} {rows : List UInt8 → String → List (List UInt8)}

/-- A reply of short parts, which is not an event or a table. -/
def MgmtReply.Plain : MgmtReply → Prop
  | .str _ tag type key val =>
    type ≠ "event" ∧ Short tag ∧ Short (ascii type) ∧ Short (ascii key) ∧ Short val
  | .uint _ tag type key _ => Short tag ∧ Short (ascii type) ∧ Short (ascii key)
  | .help _ tag cmd text => Short tag ∧ Short (ascii cmd) ∧ Short (ascii text)
  | .topic _ tag cmd subTag _ text =>
    Short tag ∧ Short (ascii cmd) ∧ Short subTag ∧ Short (ascii text)
  | .rows _ _ _ => False
  | .console _ => True

theorem MgmtReply.Plain.within {r : MgmtReply} (h : r.Plain) : AllWithin (r.sends lib rows) := by
  cases r with
  | str dest tag type key val =>
    obtain ⟨hne, htag, htype, hkey, hval⟩ := h
    unfold MgmtReply.sends
    dsimp only
    rw [if_neg hne]
    exact allWithin_singleton.mpr (fits_genJson1str htag htype hkey hval)
  | uint dest tag type key val =>
    exact allWithin_singleton.mpr (fits_genJson1uint h.1 h.2.1 h.2.2 val)
  | help dest tag cmd text =>
    exact allWithin_singleton.mpr (fits_mgmtHelpRow h.1 h.2.1 h.2.2)
  | topic dest tag cmd subTag subSock text =>
    exact allWithin_singleton.mpr
      (fits_mgmtHelpEventsRow lib h.1 h.2.1 h.2.2.1 subSock h.2.2.2)
  | rows dest tag table => exact h.elim
  | console dest => exact allWithin_nil

theorem sendsOf_append (replies replies' : List MgmtReply) :
    sendsOf lib rows (replies ++ replies') =
      sendsOf lib rows replies ++ sendsOf lib rows replies' := List.flatMap_append

theorem sendsOf_cons (r : MgmtReply) (replies : List MgmtReply) :
    sendsOf lib rows (r :: replies) = r.sends lib rows ++ sendsOf lib rows replies :=
  List.flatMap_cons

theorem allWithin_sendsOf {replies : List MgmtReply} (h : ∀ r ∈ replies, r.Plain) :
    AllWithin (sendsOf lib rows replies) := by
  intro x hx
  obtain ⟨r, hr, hx⟩ := List.mem_flatMap.mp hx
  exact (h r hr).within x hx

theorem allWithin_rows {dest : Sock} {tag : List UInt8} {table : String} :
    AllWithin (sendsOf lib rows [.rows dest tag table]) ↔
      ∀ text ∈ rows tag table, text.length ≤ replySize := by
  unfold sendsOf
  rw [List.flatMap_singleton]
  exact List.forall_mem_map

theorem short_of_length_le {a : List UInt8} (h : a.length ≤ 79) : Short a := h.trans (by decide)

/-- A reply with one text, of short parts. -/
theorem plain_json1str {req : MgmtReq} {type key : String} {val : List UInt8}
    (hne : type ≠ "event") (htag : req.tag.length ≤ 9) (htype : Short (ascii type))
    (hkey : Short (ascii key)) (hval : Short val) : (req.json1str type key val).Plain :=
  ⟨hne, htag.trans (by decide), htype, hkey, hval⟩

theorem plain_json1uint {req : MgmtReq} {type key : String} {val : UInt32}
    (htag : req.tag.length ≤ 9) (htype : Short (ascii type)) (hkey : Short (ascii key)) :
    (req.json1uint type key val).Plain := ⟨htag.trans (by decide), htype, hkey⟩

theorem plain_error {req : MgmtReq} {msg : String} (htag : req.tag.length ≤ 9)
    (hmsg : Short (ascii msg)) : (req.error msg).Plain :=
  plain_json1str (by decide) htag (by decide) (by decide) hmsg

end

/-- The error of a line that is no request. -/
theorem failed_within {lib : AddressTexts} {rows : List UInt8 → String → List (List UInt8)}
    {passwordHash : UInt64} {req : MgmtReq} {cmdline : List UInt8} {reply : MgmtReply}
    (h : mgmtReqInit2 passwordHash req cmdline = .failed reply) :
    AllWithin (sendsOf lib rows [reply]) := by
  obtain ⟨tag, htag, msg, hmsg, rfl⟩ := mgmtReqInit2_failed h
  have hshort : ∀ msg ∈ mgmtInitErrors, Short (ascii msg) := by decide
  exact allWithin_sendsOf (List.forall_mem_singleton.mpr
    ⟨by decide, htag.trans (by decide), by decide, by decide, hshort msg hmsg⟩)

/-- The names and the helps of the tables are short. -/
theorem short_handlers :
    (∀ h ∈ edgeMgmtHandlers, Short (ascii h.cmd) ∧ Short (ascii h.help)) ∧
      (∀ h ∈ snMgmtHandlers, Short (ascii h.cmd) ∧ Short (ascii h.help)) ∧
        ∀ e ∈ mgmtEventNames, Short (ascii e.cmd) ∧ Short (ascii e.help) := by
  decide +kernel

/-! ### Events -/

theorem MgmtEvent.text_fits_iff (lib : AddressTexts) {tag : List UInt8} (ev : MgmtEvent) :
    (ev.text lib tag).length ≤ eventSize ↔
      match ev with
      | .debug => True
      | .test arg => tag.length + arg.length ≤ 54
      | .peer action p =>
        tag.length + (signed action.toInt).length + (macText p.macAddr).length +
          (sockToCstr lib p.sock).length ≤ 27 := by
  cases ev with
  | debug => simp [MgmtEvent.text]
  | test arg => exact eventTest_fits_iff arg
  | peer action p => exact eventPeer_fits_iff lib action p

namespace EdgeMgmt

variable (s : EdgeMgmt EdgeView) (lib : AddressTexts)

/-- What a test posts is an event of the publisher. -/
theorem sendsOf_eventPost2 (rows : List UInt8 → String → List (List UInt8)) (arg : List UInt8) :
    sendsOf lib rows
        (mgmtEventPost2 (s.subscribers .debug) (s.subscribers .test) "event" "test" arg) =
      s.mgmtEventPost lib (.test arg) := by
  unfold mgmtEventPost2 mgmtEventPost MgmtEvent.topic MgmtEvent.text eventTest
  dsimp only
  by_cases hsub : (s.subscribers .test).type = .sub <;>
    by_cases hdebug : (s.subscribers .debug).type = .sub <;>
      simp [hsub, hdebug, sendsOf, MgmtReply.sends]

/-- **The event of the publisher fits** if it is not too long, or if nobody subscribes. -/
theorem mgmtEventPost_within_iff (ev : MgmtEvent) :
    AllWithin (s.mgmtEventPost lib ev) ↔ s.EventFits lib ev := by
  unfold mgmtEventPost EventFits
  dsimp only
  rw [← MgmtEvent.text_fits_iff]
  by_cases hsub : (s.subscribers ev.topic).type = .sub <;>
    by_cases hdebug : (s.subscribers .debug).type = .sub <;>
      simp [hsub, hdebug, AllWithin, SendReply.Within]

/-! ### Requests to an edge -/

variable {s lib} {req : MgmtReq}

theorem plain_helpEvents (hs : s.TagsBounded) (hreq : req.Bounded) :
    ∀ r ∈ (s.mgmtHelpEvents req).2, r.Plain := by
  have htag : Short req.tag := hreq.tag.trans (by decide)
  intro r hr
  obtain ⟨e, he, rfl⟩ := List.mem_map.mp hr
  obtain ⟨hcmd, hhelp⟩ := short_handlers.2.2 e he
  exact ⟨htag, hcmd, (hs e.topic).trans (by decide), hhelp⟩

/-- **What a command sends fits** if its rows have room, and the event that it posts is not too
long. -/
theorem call_within_iff (hs : s.TagsBounded) (hreq : req.Bounded) (func : EdgeMgmtFunc) :
    AllWithin (sendsOf lib (s.eee.rows lib) (s.call req func).2) ↔ s.CallFits lib req func := by
  have htag : Short req.tag := hreq.tag.trans (by decide)
  -- most commands send plain replies, or rows that always fit
  have hplain : ∀ {replies : List MgmtReply}, (∀ r ∈ replies, r.Plain) →
      (AllWithin (sendsOf lib (s.eee.rows lib) replies) ↔ True) :=
    fun h => iff_true_intro (allWithin_sendsOf h)
  cases func with
  | unimplemented =>
    exact hplain (List.forall_mem_singleton.mpr (plain_error hreq.tag (by decide)))
  | stop =>
    exact hplain (List.forall_mem_singleton.mpr
      (plain_json1uint hreq.tag (by decide) (by decide)))
  | verbose =>
    exact hplain (List.forall_mem_singleton.mpr
      (plain_json1uint hreq.tag (by decide) (by decide)))
  | help =>
    refine hplain fun r hr => ?_
    obtain ⟨h, hh, rfl⟩ := List.mem_map.mp hr
    exact ⟨htag, short_handlers.1 h hh⟩
  | helpEvents => exact hplain (plain_helpEvents hs hreq)
  | communities => exact allWithin_rows.trans (iff_true_intro (s.eee.fits_communities htag))
  | timestamps =>
    exact allWithin_rows.trans
      (iff_true_intro (List.forall_mem_singleton.mpr (s.eee.fits_timestampsRow htag)))
  | packetstats => exact allWithin_rows.trans (iff_true_intro (s.eee.fits_packetstats htag))
  | info =>
    exact allWithin_rows.trans
      (List.forall_mem_singleton.trans EdgeView.infoRow_fits_iff)
  | edges =>
    refine allWithin_rows.trans ?_
    unfold EdgeView.rows CallFits
    simp only [List.forall_mem_append, List.forall_mem_map, EdgeView.edgesRow_fits_iff]
  | supernodes =>
    refine allWithin_rows.trans ?_
    unfold EdgeView.rows CallFits
    simp only [List.mem_mapIdx, ← EdgeView.supernodesRow_fits_iff]
    constructor
    · intro h i p hp
      obtain ⟨hi, rfl⟩ := List.getElem?_eq_some_iff.mp hp
      exact h _ ⟨i, hi, rfl⟩
    · rintro h text ⟨i, hi, rfl⟩
      exact h i _ (List.getElem?_eq_getElem hi)
  | postTest =>
    have hsending : (req.json1str "row" "sending" (ascii "test")).Plain :=
      plain_json1str (by decide) hreq.tag (by decide) (by decide) (by decide)
    change AllWithin (sendsOf lib (s.eee.rows lib) (_ :: _)) ↔ s.EventFits lib _
    rw [sendsOf_cons, allWithin_append, sendsOf_eventPost2, mgmtEventPost_within_iff]
    exact and_iff_right hsending.within

theorem plain_subscribe (hs : s.TagsBounded) (hreq : req.Bounded) (topic : EventTopic) :
    ∀ r ∈ (s.subscribe req topic).2, r.Plain := by
  have hargv0 := short_of_length_le hreq.argv0
  have hsubscribe : (req.json1str "subscribe" "topic" req.argv0).Plain :=
    plain_json1str (by decide) hreq.tag (by decide) (by decide) hargv0
  unfold subscribe
  dsimp only
  split_ifs
  · simp only [List.cons_append, List.nil_append, List.forall_mem_cons, List.not_mem_nil,
      false_imp_iff, implies_true, and_true]
    exact ⟨plain_json1str (by decide) (hs topic) (by decide) (by decide) hargv0,
      plain_json1str (by decide) hreq.tag (by decide) (by decide) hargv0, hsubscribe⟩
  · exact List.forall_mem_singleton.mpr hsubscribe

/-- What is sent for a request fits if it does for the command that is called. -/
theorem handleReq_within_iff (hs : s.TagsBounded) (hreq : req.Bounded) :
    AllWithin (sendsOf lib (s.eee.rows lib) (s.handleReq req).2) ↔
      ∀ func ∈ called req, s.CallFits lib req func := by
  have hargv0 := short_of_length_le hreq.argv0
  have herror : ∀ msg : String, Short (ascii msg) →
      AllWithin (sendsOf lib (s.eee.rows lib) [req.error msg]) :=
    fun _ h => allWithin_sendsOf (List.forall_mem_singleton.mpr (plain_error hreq.tag h))
  unfold handleReq called
  split_ifs with hsub
  · cases lookupHandler MgmtEvents.cmd mgmtEventNames req.argv0 with
    | none => simp [herror "unknowntopic" (by decide)]
    | some e => simp [allWithin_sendsOf (plain_subscribe hs hreq e.topic)]
  · cases lookupHandler MgmtHandler.cmd edgeMgmtHandlers req.argv0 with
    | none => simp [herror "unknowncmd" (by decide)]
    | some handler =>
      dsimp only [Option.bind_some]
      split_ifs with hwrite
      · simp [herror "readonly" (by decide)]
      · have hbegin : (req.json1str "begin" "cmd" req.argv0).Plain :=
          plain_json1str (by decide) hreq.tag (by decide) (by decide) hargv0
        have hend : (req.json1str "end" "cmd" req.argv0).Plain :=
          plain_json1str (by decide) hreq.tag (by decide) (by decide) hargv0
        have hcall : AllWithin (sendsOf lib (s.eee.rows lib) (s.call req handler.func).2) ↔
            s.CallFits lib req handler.func := call_within_iff hs hreq handler.func
        rw [sendsOf_append, sendsOf_cons, allWithin_append, allWithin_append, hcall]
        simp [hbegin.within, allWithin_sendsOf (List.forall_mem_singleton.mpr hend)]

section

variable {passwordHash : UInt64} {sender : Sock} {udpBuf : List UInt8}

theorem jsonSends_within_iff (hs : s.TagsBounded) :
    AllWithin (s.jsonSends lib passwordHash sender udpBuf) ↔
      ∀ req, mgmtReqInit2 passwordHash (.from sender) (cmdlineOf udpBuf) = .ready req →
        ∀ func ∈ called req, s.CallFits lib req func := by
  unfold jsonSends
  cases hinit : mgmtReqInit2 passwordHash (.from sender) (cmdlineOf udpBuf) with
  | ready req =>
    have hreq : AllWithin (sendsOf lib (s.eee.rows lib) (s.handleReq req).2) ↔
        ∀ func ∈ called req, s.CallFits lib req func :=
      handleReq_within_iff hs (mgmtReqInit2_bounded hinit)
    simpa using hreq
  | failed reply => simpa using failed_within hinit
  | undefined => simp

/-- The replies of the console to the levels of the trace. -/
theorem fits_level (fmt : String) {n : ℕ} (hfixed : fixedLength false (chars [fmt]) = n)
    (hconv : conversions false (chars [fmt]) = 1) (hn : n ≤ 100) (l : Int32) :
    (printf [fmt] [decimal l.toUInt32.toNat]).length ≤ replySize := by
  have hlen := length_printf hfixed hconv (rfl : [decimal l.toUInt32.toNat].length = 1)
  have hdigits : Short (decimal l.toUInt32.toNat) :=
    short_decimal (l.toUInt32.toNat_lt.trans (by decide))
  have hsize : replySize = 4088 := rfl
  rw [total_cons, total_nil] at hlen
  unfold Short at hdigits
  omega

theorem datagramFits_of_none (h : jsonInit passwordHash sender udpBuf = none) :
    s.DatagramFits lib passwordHash sender udpBuf := fun req hreq => by
  rw [h] at hreq
  cases hreq

/-- **What is sent for a datagram fits** if it does for its request. -/
theorem datagramSends_within_iff (hs : s.TagsBounded) :
    AllWithin (s.datagramSends lib passwordHash sender udpBuf) ↔
      s.DatagramFits lib passwordHash sender udpBuf := by
  have hhelp : helpText.length ≤ replySize := by decide +kernel
  have hplus := fits_level "> +OK traceLevel=%u\n" rfl rfl (by decide) (s.traceLevel + 1)
  have hminus := fits_level "> -OK traceLevel=%u\n" rfl rfl (by decide) (s.traceLevel - 1)
  have hzero := fits_level "> -NOK traceLevel=%u\n" rfl rfl (by decide) s.traceLevel
  unfold datagramSends
  dsimp only
  split_ifs with h₁ h₂ h₃ h₄ hpos h₅
  · exact iff_of_true (allWithin_singleton.mpr hhelp)
      (datagramFits_of_none (by simp [jsonInit, h₁]))
  · exact iff_of_true allWithin_nil (datagramFits_of_none (by simp [jsonInit, h₂]))
  · exact iff_of_true (allWithin_singleton.mpr hplus)
      (datagramFits_of_none (by simp [jsonInit, h₃]))
  · exact iff_of_true (allWithin_singleton.mpr hminus)
      (datagramFits_of_none (by simp [jsonInit, h₄]))
  · exact iff_of_true (allWithin_singleton.mpr hzero)
      (datagramFits_of_none (by simp [jsonInit, h₄]))
  · have hinit : jsonInit passwordHash sender udpBuf =
        some (mgmtReqInit2 passwordHash (.from sender) (cmdlineOf udpBuf)) := by
      simp [jsonInit, h₁, h₂, h₃, h₄, h₅]
    unfold DatagramFits
    rw [jsonSends_within_iff hs, hinit]
    simp only [Option.some.injEq]
  · exact iff_of_true allWithin_nil (datagramFits_of_none (by simp [jsonInit, h₅]))

end

end EdgeMgmt

/-! ### Requests to a supernode -/

namespace SnMgmt

variable {s : SnMgmt} {v : SnView} {lib : AddressTexts} {file : Option CommunityFile}
  {req : MgmtReq}

/-- What a command sends fits if the rows of the edges have room. -/
theorem call_within_iff (hreq : req.Bounded) (func : SnMgmtFunc) :
    AllWithin (sendsOf lib (v.rows lib) (s.call file req func).2) ↔
      (func = .edges → ∀ c ∈ v.communities, ∀ p ∈ c.edges, v.EdgesRowFits lib req.tag p c) := by
  have htag : Short req.tag := hreq.tag.trans (by decide)
  have hplain : ∀ {replies : List MgmtReply}, (∀ r ∈ replies, r.Plain) →
      AllWithin (sendsOf lib (v.rows lib) replies) := fun h => allWithin_sendsOf h
  have herror : ∀ msg : String, Short (ascii msg) →
      AllWithin (sendsOf lib (v.rows lib) [req.error msg]) :=
    fun _ h => hplain (List.forall_mem_singleton.mpr (plain_error hreq.tag h))
  cases func with
  | edges =>
    refine allWithin_rows.trans ?_
    constructor
    · intro h _ c hc p hp
      exact SnView.edgesRow_fits_iff.mp
        (h _ (List.mem_flatMap.mpr ⟨c, hc, List.mem_map_of_mem hp⟩))
    · intro h text htext
      obtain ⟨c, hc, hrow⟩ := List.mem_flatMap.mp htext
      obtain ⟨p, hp, rfl⟩ := List.mem_map.mp hrow
      exact SnView.edgesRow_fits_iff.mpr (h rfl c hc p hp)
  | unimplemented => exact iff_of_true (herror "unimplemented" (by decide)) nofun
  | stop =>
    exact iff_of_true (hplain (List.forall_mem_singleton.mpr
      (plain_json1uint hreq.tag (by decide) (by decide)))) nofun
  | verbose =>
    exact iff_of_true (hplain (List.forall_mem_singleton.mpr
      (plain_json1uint hreq.tag (by decide) (by decide)))) nofun
  | reloadCommunities =>
    refine iff_of_true ?_ nofun
    unfold call mgmtReloadCommunities
    dsimp only
    split_ifs
    · exact herror "writeonly" (by decide)
    · exact herror "nofile" (by decide)
    · exact hplain (List.forall_mem_singleton.mpr
        (plain_json1uint hreq.tag (by decide) (by decide)))
  | communities =>
    refine iff_of_true (allWithin_rows.mpr ?_) nofun
    exact List.forall_mem_map.mpr fun c _ => SnView.fits_communitiesRow htag c
  | timestamps =>
    exact iff_of_true
      (allWithin_rows.mpr (List.forall_mem_singleton.mpr (v.fits_timestampsRow htag))) nofun
  | packetstats => exact iff_of_true (allWithin_rows.mpr (v.fits_packetstats htag)) nofun
  | help =>
    refine iff_of_true (hplain fun r hr => ?_) nofun
    obtain ⟨h, hh, rfl⟩ := List.mem_map.mp hr
    exact ⟨htag, short_handlers.2.1 h hh⟩

/-- What is sent for a request fits if it does for the command that is called. -/
theorem handleReq_within_iff (hreq : req.Bounded) :
    AllWithin (sendsOf lib (v.rows lib) (s.handleReq file req).2) ↔
      (called req = some .edges →
        ∀ c ∈ v.communities, ∀ p ∈ c.edges, v.EdgesRowFits lib req.tag p c) := by
  have hargv0 := short_of_length_le hreq.argv0
  have herror : ∀ msg : String, Short (ascii msg) →
      AllWithin (sendsOf lib (v.rows lib) [req.error msg]) :=
    fun _ h => allWithin_sendsOf (List.forall_mem_singleton.mpr (plain_error hreq.tag h))
  unfold handleReq called
  cases lookupHandler MgmtHandler.cmd snMgmtHandlers req.argv0 with
  | none => simp [herror "unknowncmd" (by decide)]
  | some handler =>
    dsimp only [Option.bind_some]
    split_ifs with hwrite
    · simp [herror "readonly" (by decide)]
    · have hbegin : (req.json1str "begin" "cmd" req.argv0).Plain :=
        plain_json1str (by decide) hreq.tag (by decide) (by decide) hargv0
      have hend : (req.json1str "end" "cmd" req.argv0).Plain :=
        plain_json1str (by decide) hreq.tag (by decide) (by decide) hargv0
      have hcall : AllWithin (sendsOf lib (v.rows lib) (s.call file req handler.func).2) ↔
          (handler.func = .edges →
            ∀ c ∈ v.communities, ∀ p ∈ c.edges, v.EdgesRowFits lib req.tag p c) :=
        call_within_iff hreq handler.func
      rw [sendsOf_append, sendsOf_cons, allWithin_append, allWithin_append, hcall]
      simp [hbegin.within, allWithin_sendsOf (List.forall_mem_singleton.mpr hend)]

/-- What is sent for a datagram fits if it does for its request. -/
theorem datagramSends_within_iff {passwordHash : UInt64} {sender : Sock}
    {mgmtBuf : List UInt8} :
    AllWithin (s.datagramSends v lib file passwordHash sender mgmtBuf) ↔
      DatagramFits v lib passwordHash sender mgmtBuf := by
  unfold datagramSends DatagramFits
  have hnone : jsonInit passwordHash sender mgmtBuf = none →
      ∀ req, jsonInit passwordHash sender mgmtBuf = some (.ready req) → called req = some .edges →
        ∀ c ∈ v.communities, ∀ p ∈ c.edges, v.EdgesRowFits lib req.tag p c := by
    intro h req hreq
    rw [h] at hreq
    cases hreq
  split_ifs with h₁ h₂ h₃
  · exact iff_of_true allWithin_nil (hnone (by simp [jsonInit, h₁]))
  · exact iff_of_true allWithin_nil (hnone (by simp [jsonInit, h₂]))
  · have hjson : jsonInit passwordHash sender mgmtBuf =
        some (mgmtReqInit2 passwordHash (.from sender) (cmdlineOf mgmtBuf)) := by
      simp [jsonInit, h₁, h₂, h₃]
    rw [hjson]
    unfold jsonSends
    cases hinit : mgmtReqInit2 passwordHash (.from sender) (cmdlineOf mgmtBuf) with
    | ready req =>
      have hreq : AllWithin (sendsOf lib (v.rows lib) (s.handleReq file req).2) ↔
          (called req = some .edges →
            ∀ c ∈ v.communities, ∀ p ∈ c.edges, v.EdgesRowFits lib req.tag p c) :=
        handleReq_within_iff (mgmtReqInit2_bounded hinit)
      simpa using hreq
    | failed reply => simpa using failed_within hinit
    | undefined => simp
  · exact iff_of_true allWithin_nil (hnone (by simp [jsonInit, h₃]))

end SnMgmt

/-- **The replies fit into the buffers that they are sent from** if and only if no event is too
long for the buffer of the publisher, and the descriptions and versions that are listed leave room
in their rows. -/
theorem MgmtSource.repliesWithin_iff (lib : AddressTexts) (source : MgmtSource) :
    AllWithin (source.sends lib) ↔ source.Fits lib := by
  cases source with
  | edge s reach passwordHash sender udpBuf =>
    exact EdgeMgmt.datagramSends_within_iff reach.tagsBounded
  | sn s v file passwordHash sender mgmtBuf => exact SnMgmt.datagramSends_within_iff
  | event s reach ev => exact s.mgmtEventPost_within_iff lib ev

/-! ### An event that is too long -/

/-- The line "s 1:1:n2n test" with the right password. -/
theorem mgmtReqInit2_subscribe :
    mgmtReqInit2 (pearsonHash64 (ascii "n2n")) (.from .zero) (cmdlineOf (ascii "s 1:1:n2n test")) =
      .ready ⟨.sub, ascii "test", none, ascii "1", .zero⟩ := by
  decide +kernel

/-- An edge on which nothing has happened yet. -/
def EdgeView.started : EdgeView :=
  ⟨.replicate 20 0, .none, [], some .load, .zero, 0, false, [], [], nullMac, .replicate 4 0,
    .replicate 4 0, 0, 0, 0, (0, 0), (0, 0), (0, 0), (0, 0)⟩

/-- The port of an edge on which nothing has happened yet. -/
def EdgeMgmt.started : EdgeMgmt EdgeView :=
  ⟨⟨true, 2⟩, fun _ => ⟨.unknown, [], none, [], .zero⟩, .started⟩

/-- The port after the line "s 1:1:n2n test". -/
def EdgeMgmt.subscribed : EdgeMgmt EdgeView :=
  (EdgeMgmt.started.handleReq ⟨.sub, ascii "test", none, ascii "1", .zero⟩).1

theorem EdgeMgmt.reach_subscribed : EdgeMgmt.subscribed.Reach := by
  have hread : EdgeMgmt.started.readFromMgmtSocket (pearsonHash64 (ascii "n2n")) .zero
      (ascii "s 1:1:n2n test") =
        some (EdgeMgmt.started.handleReq ⟨.sub, ascii "test", none, ascii "1", .zero⟩) := by
    unfold readFromMgmtSocket handleMgmtJson
    rw [mgmtReqInit2_subscribe]
    rfl
  exact .datagram (.init _ _) hread

/-- A test event with 60 letters, for the one who subscribed with the tag "1". -/
theorem MgmtSource.not_within_longTest :
    ¬ AllWithin ((MgmtSource.event .subscribed EdgeMgmt.reach_subscribed
      (.test (List.replicate 60 0x61))).sends ⟨fun _ => [], fun _ => none, ascii "3.1.1"⟩) := by
  intro h
  unfold sends at h
  dsimp only at h
  have hfits := (EdgeMgmt.subscribed.mgmtEventPost_within_iff _ _).mp h
  exact absurd (hfits (.inl rfl)) (by decide)

end N2n
