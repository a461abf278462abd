import N2nTun.CommunityFile
import N2nTun.EdgeManagement

/-!
# The management port of a supernode

`sn_management.c`: the commands of a supernode, and the datagrams that `run_sn_loop` receives on
the port.

## Main definitions

* `SnMgmt` — the supernode.
* `snMgmtHandlers` — the table of commands.
* `SnMgmt.handleMgmtJson` — a line of the JSON protocol.
* `SnMgmt.mgmtInput`, `SnMgmt.processMgmt` — a datagram.

## Main results

* `SnMgmt.handleMgmtJson_iff` — **a line without the password changes nothing**, unless its
  behaviour is not defined.
-/

namespace N2n

open Tokens

/-- The supernode: what the shared commands change, whether `community_file` was given, and the
rest. -/
structure SnMgmt extends MgmtState where
  communityFile : Bool
  world : World

/-- What is in the community file, and the secrets that belong to its users. -/
structure CommunityFile where
  lines : List CommunityLine
  secret : List UInt8 → List UInt8

/-- The function of a command. -/
inductive SnMgmtFunc where
  | unimplemented
  | stop
  | verbose
  | reloadCommunities
  | communities
  | edges
  | timestamps
  | packetstats
  | help
  deriving DecidableEq

/-- `mgmt_handlers`. -/
def snMgmtHandlers : List (MgmtHandler SnMgmtFunc) :=
  [⟨"supernodes", false, "Reserved for edge", .unimplemented⟩,
    ⟨"stop", true, "Gracefully exit edge", .stop⟩,
    ⟨"verbose", true, "Manage verbosity level", .verbose⟩,
    ⟨"reload_communities", true, "Reloads communities and user's public keys", .reloadCommunities⟩,
    ⟨"communities", false, "List current communities", .communities⟩,
    ⟨"edges", false, "List current edges/peers", .edges⟩,
    ⟨"timestamps", false, "Event timestamps", .timestamps⟩,
    ⟨"packetstats", false, "Traffic statistics", .packetstats⟩,
    ⟨"help", true, "Show JSON commands", .help⟩]

namespace SnMgmt

variable (s : SnMgmt) (file : Option CommunityFile) (req : MgmtReq)

/-- A command that both programs have. -/
def shared (r : MgmtState × List MgmtReply) : SnMgmt × List MgmtReply :=
  ({ s with toMgmtState := r.1 }, r.2)

/-- A command that only lists what a table says. -/
def listing (table : String) : SnMgmt × List MgmtReply :=
  (s, [.rows req.senderSock req.tag table])

/-- `load_allowed_sn_community`, with the file that is there now. -/
def loadAllowed : SnMgmt × ℤ :=
  match file with
  | none => (s, -1)
  | some file =>
    let r := s.world.loadAllowedSnCommunity file.lines file.secret
    ({ s with world := r.1 }, r.2)

/-- `mgmt_reload_communities`. -/
def mgmtReloadCommunities : SnMgmt × List MgmtReply :=
  if req.type ≠ .write then (s, [req.error "writeonly"])
  else if s.communityFile = false then (s, [req.error "nofile"])
  else
    let r := s.loadAllowed file
    (r.1, [req.json1uint "row" "ok" (UInt32.ofInt r.2)])

/-- `mgmt_timestamps`. -/
def mgmtTimestamps : SnMgmt × List MgmtReply := s.listing req "timestamps"

/-- `mgmt_packetstats`. -/
def mgmtPacketstats : SnMgmt × List MgmtReply := s.listing req "packetstats"

/-- `mgmt_communities`. -/
def mgmtCommunities : SnMgmt × List MgmtReply := s.listing req "communities"

/-- `mgmt_edges`. -/
def mgmtEdges : SnMgmt × List MgmtReply := s.listing req "edges"

/-- `mgmt_help`. -/
def mgmtHelp : SnMgmt × List MgmtReply :=
  (s, snMgmtHandlers.map fun h => .help req.senderSock req.tag h.cmd h.help)

/-- The call of a function of the table. -/
def call : SnMgmtFunc → SnMgmt × List MgmtReply
  | .unimplemented => s.shared (mgmtUnimplemented req s.toMgmtState)
  | .stop => s.shared (mgmtStop req s.toMgmtState)
  | .verbose => s.shared (mgmtVerbose req s.toMgmtState)
  | .reloadCommunities => s.mgmtReloadCommunities file req
  | .communities => s.mgmtCommunities req
  | .edges => s.mgmtEdges req
  | .timestamps => s.mgmtTimestamps req
  | .packetstats => s.mgmtPacketstats req
  | .help => s.mgmtHelp req

/-- What `handleMgmtJson` does with a request: a subscription is looked up like a command. -/
def handleReq : SnMgmt × List MgmtReply :=
  match lookupHandler MgmtHandler.cmd snMgmtHandlers req.argv0 with
  | none => (s, [req.error "unknowncmd"])
  | some handler =>
    if req.type = .write ∧ handler.wrok = false then (s, [req.error "readonly"])
    else
      let r := s.call file req handler.func
      (r.1, req.json1str "begin" "cmd" req.argv0 :: r.2 ++ [req.json1str "end" "cmd" req.argv0])

/-- `handleMgmtJson`; `none` if the behaviour is undefined. -/
def handleMgmtJson (passwordHash : UInt64) (sender : Sock) (mgmtBuf : List UInt8) :
    Option (SnMgmt × List MgmtReply) :=
  match mgmtReqInit2 passwordHash (.from sender) (cmdlineOf mgmtBuf) with
  | .ready req => some (s.handleReq file req)
  | .failed reply => some (s, [reply])
  | .undefined => none

/-- The test for the JSON protocol, whose first half is true of every byte. -/
def isJson (mgmtBuf : List UInt8) : Bool :=
  (0x61 ≤ mgmtBuf.getD 0 0 || mgmtBuf.getD 0 0 ≤ 0x7a) && mgmtBuf.getD 1 0 == 0x20

/-- `process_mgmt`: `none` if the behaviour is undefined. -/
def processMgmt (passwordHash : UInt64) (sender : Sock) (mgmtBuf : List UInt8) :
    Option (SnMgmt × List MgmtReply) :=
  if mgmtBufSize ≤ mgmtBuf.length then none
  else if EdgeMgmt.startsWith "help" mgmtBuf || EdgeMgmt.startsWith "?" mgmtBuf then
    some (s, [.console sender])
  else if EdgeMgmt.startsWith "reload_communities" mgmtBuf then
    some (if s.communityFile then (s.loadAllowed file).1 else s, [.console sender])
  else if isJson mgmtBuf then s.handleMgmtJson file passwordHash sender mgmtBuf
  else some (s, [.console sender])

/-- `run_sn_loop` receives a datagram on the port: it ends with an empty one. -/
def mgmtInput (passwordHash : UInt64) (sender : Sock) (mgmtBuf : List UInt8) :
    Option (SnMgmt × List MgmtReply) :=
  if mgmtBuf = [] then some ({ s with keepRunning := false }, [])
  else s.processMgmt file passwordHash sender mgmtBuf

end SnMgmt

/-! ### What reads and requests without the password change -/

namespace SnMgmt

/-- **A read request changes nothing.** -/
theorem call_fst (s : SnMgmt) (file : Option CommunityFile) {req : MgmtReq}
    (hread : req.type = .read) (func : SnMgmtFunc) : (s.call file req func).1 = s := by
  cases func with
  | stop => simp [call, shared, mgmtStop, hread]
  | verbose => simp [call, shared, mgmtVerbose, hread]
  | reloadCommunities => simp [call, mgmtReloadCommunities, hread]
  | _ => rfl

theorem handleReq_fst (s : SnMgmt) (file : Option CommunityFile) {req : MgmtReq}
    (hread : req.type = .read) : (s.handleReq file req).1 = s := by
  unfold handleReq
  cases lookupHandler MgmtHandler.cmd snMgmtHandlers req.argv0 with
  | none => rfl
  | some handler =>
    dsimp only
    rw [if_neg (by simp [hread])]
    exact s.call_fst file hread handler.func

/-- **A line without the password changes nothing**, if its behaviour is defined. -/
theorem handleMgmtJson_iff (s : SnMgmt) (file : Option CommunityFile) {passwordHash : UInt64}
    {mgmtBuf : List UInt8} (hline : Unprivileged passwordHash (cmdlineOf mgmtBuf)) (sender : Sock) :
    (s.handleMgmtJson file passwordHash sender mgmtBuf).map Prod.fst = some s ↔
      ¬ Tagless (cmdlineOf mgmtBuf) := by
  rw [← mgmtReqInit2_undefined_iff passwordHash (.from sender)]
  unfold handleMgmtJson
  cases hinit : mgmtReqInit2 passwordHash (.from sender) (cmdlineOf mgmtBuf) with
  | ready req =>
    have hsame := s.handleReq_fst file (mgmtReqInit2_ready hinit hline)
    simp [hsame]
  | failed reply => simp
  | undefined => simp

end SnMgmt

end N2n
