import Mathlib.Logic.Function.Basic
import N2nTun.Management

/-!
# The management port of an edge

`edge_management.c`: the commands of an edge, the subscribers to its events, and the datagrams that
come in on the port.  What else the edge consists of is a parameter.

## Main definitions

* `EdgeMgmt` — the edge, as far as the port is concerned.
* `edgeMgmtHandlers`, `mgmtEventNames` — the tables of commands and of topics.
* `EdgeMgmt.handleMgmtJson` — a line of the JSON protocol.
* `EdgeMgmt.readFromMgmtSocket` — a datagram.

## Main results

* `EdgeMgmt.handleMgmtJson_iff` — **a line without the password changes nothing**, unless its
  behaviour is not defined.
-/

namespace N2n

open Tokens

/-- `enum n2n_event_topic`. -/
inductive EventTopic where
  | debug
  | test
  | peer
  deriving DecidableEq

/-- The edge: what its commands change, `mgmt_event_subscribers`, and the rest. -/
structure EdgeMgmt (σ : Type*) extends MgmtState where
  subscribers : EventTopic → MgmtReq
  eee : σ

/-- `N2N_PKT_BUF_SIZE`, which is also `N2N_SN_PKTBUF_SIZE`. -/
def mgmtBufSize : ℕ := 4096

/-! ### The tables -/

/-- The function of a command. -/
inductive EdgeMgmtFunc where
  | unimplemented
  | stop
  | verbose
  | communities
  | edges
  | supernodes
  | info
  | timestamps
  | packetstats
  | postTest
  | help
  | helpEvents
  deriving DecidableEq

/-- `mgmt_handler_t`; `wrok` is the flag `FLAG_WROK`. -/
structure MgmtHandler (φ : Type*) where
  cmd : String
  wrok : Bool
  help : String
  func : φ

/-- `mgmt_handlers`. -/
def edgeMgmtHandlers : List (MgmtHandler EdgeMgmtFunc) :=
  [⟨"reload_communities", true, "Reserved for supernode", .unimplemented⟩,
    ⟨"stop", true, "Gracefully exit edge", .stop⟩,
    ⟨"verbose", true, "Manage verbosity level", .verbose⟩,
    ⟨"communities", false, "Show current community", .communities⟩,
    ⟨"edges", false, "List current edges/peers", .edges⟩,
    ⟨"supernodes", false, "List current supernodes", .supernodes⟩,
    ⟨"info", false, "Provide basic edge information", .info⟩,
    ⟨"timestamps", false, "Event timestamps", .timestamps⟩,
    ⟨"packetstats", false, "traffic counters", .packetstats⟩,
    ⟨"post.test", false, "send a test event", .postTest⟩,
    ⟨"help", true, "Show JSON commands", .help⟩,
    ⟨"help.events", false, "Show available Subscribe topics", .helpEvents⟩]

/-- `mgmt_events_t`. -/
structure MgmtEvents where
  cmd : String
  topic : EventTopic
  help : String

/-- `mgmt_event_names`. -/
def mgmtEventNames : List MgmtEvents :=
  [⟨"debug", .debug, "All events - for event debugging"⟩,
    ⟨"test", .test, "Used only by post.test"⟩,
    ⟨"peer", .peer, "Changes to peer list"⟩]

/-- `lookup_handler`: the entry with a name. -/
def lookupHandler {α : Type*} (cmd : α → String) (list : List α) (argv0 : List UInt8) : Option α :=
  list.find? fun entry => ascii (cmd entry) == argv0

/-! ### Commands -/

namespace EdgeMgmt

variable {σ : Type*} (s : EdgeMgmt σ) (req : MgmtReq)

/-- A command that both programs have. -/
def shared (r : MgmtState × List MgmtReply) : EdgeMgmt σ × List MgmtReply :=
  ({ s with toMgmtState := r.1 }, r.2)

/-- A command that only lists what a table says. -/
def listing (table : String) : EdgeMgmt σ × List MgmtReply :=
  (s, [.rows req.senderSock req.tag table])

/-- `mgmt_communities`: the name, or "noaccess" if headers are encrypted. -/
def mgmtCommunities : EdgeMgmt σ × List MgmtReply := s.listing req "communities"

/-- `mgmt_edges`. -/
def mgmtEdges : EdgeMgmt σ × List MgmtReply := s.listing req "edges"

/-- `mgmt_supernodes`. -/
def mgmtSupernodes : EdgeMgmt σ × List MgmtReply := s.listing req "supernodes"

/-- `mgmt_edge_info`. -/
def mgmtEdgeInfo : EdgeMgmt σ × List MgmtReply := s.listing req "info"

/-- `mgmt_timestamps`. -/
def mgmtTimestamps : EdgeMgmt σ × List MgmtReply := s.listing req "timestamps"

/-- `mgmt_packetstats`. -/
def mgmtPacketstats : EdgeMgmt σ × List MgmtReply := s.listing req "packetstats"

/-- `mgmt_post_test`: `printf` shows a missing text as "(null)". -/
def mgmtPostTest : EdgeMgmt σ × List MgmtReply :=
  (s, req.json1str "row" "sending" (ascii "test") ::
    mgmtEventPost2 (s.subscribers .debug) (s.subscribers .test) "event" "test"
      (req.argv.getD (ascii "(null)")))

/-- `mgmt_help`. -/
def mgmtHelp : EdgeMgmt σ × List MgmtReply :=
  (s, edgeMgmtHandlers.map fun h => .help req.senderSock req.tag h.cmd h.help)

/-- `mgmt_help_events`. -/
def mgmtHelpEvents : EdgeMgmt σ × List MgmtReply :=
  (s, mgmtEventNames.map fun e =>
    let sub := s.subscribers e.topic
    .topic req.senderSock req.tag e.cmd sub.tag
      (if sub.type = .sub then some sub.senderSock else none) e.help)

/-- The call of a function of the table. -/
def call : EdgeMgmtFunc → EdgeMgmt σ × List MgmtReply
  | .unimplemented => s.shared (mgmtUnimplemented req s.toMgmtState)
  | .stop => s.shared (mgmtStop req s.toMgmtState)
  | .verbose => s.shared (mgmtVerbose req s.toMgmtState)
  | .communities => s.mgmtCommunities req
  | .edges => s.mgmtEdges req
  | .supernodes => s.mgmtSupernodes req
  | .info => s.mgmtEdgeInfo req
  | .timestamps => s.mgmtTimestamps req
  | .packetstats => s.mgmtPacketstats req
  | .postTest => s.mgmtPostTest req
  | .help => s.mgmtHelp req
  | .helpEvents => s.mgmtHelpEvents req

/-! ### Requests -/

/-- A subscription: it replaces the one there was. -/
def subscribe (topic : EventTopic) : EdgeMgmt σ × List MgmtReply :=
  let old := s.subscribers topic
  let replacing :=
    if old.type = .sub then
      [old.json1str "unsubscribed" "topic" req.argv0, req.json1str "replacing" "topic" req.argv0]
    else []
  ({ s with subscribers := Function.update s.subscribers topic req },
    replacing ++ [req.json1str "subscribe" "topic" req.argv0])

/-- What `handleMgmtJson` does with a request. -/
def handleReq : EdgeMgmt σ × List MgmtReply :=
  if req.type = .sub then
    match lookupHandler MgmtEvents.cmd mgmtEventNames req.argv0 with
    | none => (s, [req.error "unknowntopic"])
    | some e => s.subscribe req e.topic
  else
    match lookupHandler MgmtHandler.cmd edgeMgmtHandlers req.argv0 with
    | none => (s, [req.error "unknowncmd"])
    | some handler =>
      if req.type = .write ∧ handler.wrok = false then (s, [req.error "readonly"])
      else
        let r := s.call req handler.func
        (r.1, req.json1str "begin" "cmd" req.argv0 :: r.2 ++ [req.json1str "end" "cmd" req.argv0])

/-- `handleMgmtJson`; `none` if the behaviour is undefined. -/
def handleMgmtJson (passwordHash : UInt64) (sender : Sock) (udpBuf : List UInt8) :
    Option (EdgeMgmt σ × List MgmtReply) :=
  match mgmtReqInit2 passwordHash (.from sender) (cmdlineOf udpBuf) with
  | .ready req => some (s.handleReq req)
  | .failed reply => some (s, [reply])
  | .undefined => none

/-- `memcmp` with a text at the start of the buffer: the zero behind the datagram is no part of
one. -/
def startsWith (text : String) (udpBuf : List UInt8) : Bool := (ascii text).isPrefixOf udpBuf

/-- The test for the JSON protocol. -/
def isJson (udpBuf : List UInt8) : Bool :=
  0x61 ≤ udpBuf.getD 0 0 && udpBuf.getD 0 0 ≤ 0x7a && udpBuf.getD 1 0 == 0x20

/-- `readFromMgmtSocket`: `none` if the behaviour is undefined.  A datagram that fills the buffer
is followed by a zero all the same. -/
def readFromMgmtSocket (passwordHash : UInt64) (sender : Sock) (udpBuf : List UInt8) :
    Option (EdgeMgmt σ × List MgmtReply) :=
  if mgmtBufSize ≤ udpBuf.length then none
  else if startsWith "help" udpBuf || startsWith "?" udpBuf then some (s, [.console sender])
  else if startsWith "stop" udpBuf then some ({ s with keepRunning := false }, [])
  else if startsWith "+verb" udpBuf then
    some ({ s with traceLevel := s.traceLevel + 1 }, [.console sender])
  else if startsWith "-verb" udpBuf then
    some (if 0 < s.traceLevel then { s with traceLevel := s.traceLevel - 1 } else s,
      [.console sender])
  else if isJson udpBuf then s.handleMgmtJson passwordHash sender udpBuf
  else some (s, [.console sender])

end EdgeMgmt

/-! ### What reads and requests without the password change -/

namespace EdgeMgmt

variable {σ : Type*}

/-- **A read request changes nothing.** -/
theorem call_fst (s : EdgeMgmt σ) {req : MgmtReq} (hread : req.type = .read)
    (func : EdgeMgmtFunc) : (s.call req func).1 = s := by
  cases func with
  | stop => simp [call, shared, mgmtStop, hread]
  | verbose => simp [call, shared, mgmtVerbose, hread]
  | _ => rfl

theorem handleReq_fst (s : EdgeMgmt σ) {req : MgmtReq} (hread : req.type = .read) :
    (s.handleReq req).1 = s := by
  unfold handleReq
  rw [hread, if_neg (by decide)]
  cases lookupHandler MgmtHandler.cmd edgeMgmtHandlers req.argv0 with
  | none => rfl
  | some handler =>
    dsimp only
    rw [if_neg (by simp)]
    exact s.call_fst hread handler.func

/-- **A line without the password changes nothing**, if its behaviour is defined. -/
theorem handleMgmtJson_iff (s : EdgeMgmt σ) {passwordHash : UInt64} {udpBuf : List UInt8}
    (hline : Unprivileged passwordHash (cmdlineOf udpBuf)) (sender : Sock) :
    (s.handleMgmtJson passwordHash sender udpBuf).map Prod.fst = some s ↔
      ¬ Tagless (cmdlineOf udpBuf) := by
  rw [← mgmtReqInit2_undefined_iff passwordHash (.from sender)]
  unfold handleMgmtJson
  cases hinit : mgmtReqInit2 passwordHash (.from sender) (cmdlineOf udpBuf) with
  | ready req =>
    have hsame := s.handleReq_fst (mgmtReqInit2_ready hinit hline)
    simp [hsame]
  | failed reply => simp
  | undefined => simp

end EdgeMgmt

end N2n
