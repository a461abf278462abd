import N2nTun.Lib.Token
import N2nTun.SnState

/-!
# Requests on the management port

`management.c`, which the edge and the supernode share: how a line of the JSON protocol is taken
apart, who is authorised, and the commands that both have.

The rows that a command lists from the tables of the program are not part of the model, only that
they are sent; the texts for a console are left out in the same way.

## Main definitions

* `MgmtReq` — a request, with what is needed to reply to it.
* `mgmtAuth`, `mgmtReqInit2` — the authorisation, and the request that a line makes.
* `mgmtStop`, `mgmtVerbose`, … — the commands.
* `Unprivileged`, `Tagless` — lines without the password, and lines without a tag.

## Main results

* `mgmtReqInit2_ready` — **without the password there are only read requests.**
* `mgmtReqInit2_undefined_iff` — when the tag of a line is read through `NULL`.
-/

namespace N2n

open Bytes Tokens

/-! ### Requests and replies -/

/-- `enum n2n_mgmt_type`. -/
inductive MgmtType where
  | unknown
  | read
  | write
  | sub
  deriving DecidableEq

/-- `mgmt_req_t`. -/
structure MgmtReq where
  type : MgmtType
  argv0 : List UInt8
  argv : Option (List UInt8)
  tag : List UInt8
  senderSock : Sock
  deriving DecidableEq

/-- A packet that goes out on the management socket. -/
inductive MgmtReply where
  /-- `gen_json_1str` -/
  | str (dest : Sock) (tag : List UInt8) (type key : String) (val : List UInt8)
  /-- `gen_json_1uint` -/
  | uint (dest : Sock) (tag : List UInt8) (type key : String) (val : UInt32)
  /-- `mgmt_help_row` -/
  | help (dest : Sock) (tag : List UInt8) (cmd help : String)
  /-- `mgmt_help_events_row`, with the tag and the socket of the subscriber -/
  | topic (dest : Sock) (tag : List UInt8) (cmd : String) (subTag : List UInt8)
      (subSock : Option Sock) (help : String)
  /-- the rows of a table of the program -/
  | rows (dest : Sock) (tag : List UInt8) (table : String)
  /-- a text for a console -/
  | console (dest : Sock)
  deriving DecidableEq

namespace MgmtReq

/-- `send_json_1str`. -/
def json1str (req : MgmtReq) (type key : String) (val : List UInt8) : MgmtReply :=
  .str req.senderSock req.tag type key val

/-- `send_json_1uint`. -/
def json1uint (req : MgmtReq) (type key : String) (val : UInt32) : MgmtReply :=
  .uint req.senderSock req.tag type key val

/-- `mgmt_error`. -/
def error (req : MgmtReq) (msg : String) : MgmtReply := req.json1str "error" "error" (ascii msg)

end MgmtReq

/-! ### Commands -/

/-- What the commands of both programs can change: `*keep_running` and the level of the trace. -/
structure MgmtState where
  keepRunning : Bool
  traceLevel : Int32
  deriving DecidableEq

/-- An `unsigned long` in an `int`. -/
def toInt (v : UInt64) : Int32 := v.toUInt32.toInt32

/-- `mgmt_stop`. -/
def mgmtStop (req : MgmtReq) (m : MgmtState) : MgmtState × List MgmtReply :=
  let m := if req.type = .write then { m with keepRunning := false } else m
  (m, [req.json1uint "row" "keep_running" m.keepRunning.toUInt32])

/-- `mgmt_verbose`. -/
def mgmtVerbose (req : MgmtReq) (m : MgmtState) : MgmtState × List MgmtReply :=
  let m :=
    match req.type, req.argv with
    | .write, some argv => { m with traceLevel := toInt (strtoul argv 0) }
    | _, _ => m
  (m, [req.json1uint "row" "traceLevel" m.traceLevel.toUInt32])

/-- `mgmt_unimplemented`. -/
def mgmtUnimplemented (req : MgmtReq) (m : MgmtState) : MgmtState × List MgmtReply :=
  (m, [req.error "unimplemented"])

/-- `mgmt_event_post2`, for an event with one text. -/
def mgmtEventPost2 (debug sub : MgmtReq) (type key : String) (val : List UInt8) :
    List MgmtReply :=
  -- both get the tag of the subscriber to the topic, if there is one
  let tag := if sub.type = .sub then sub.tag else debug.tag
  let post := fun (req : MgmtReq) =>
    if req.type = .sub then [MgmtReply.str req.senderSock tag type key val] else []
  post sub ++ post debug

/-! ### Lines -/

/-- `mgmt_auth`. -/
def mgmtAuth (passwordHash : UInt64) (type : MgmtType) (auth : Option (List UInt8)) : Bool :=
  match auth with
  | some auth => passwordHash == pearsonHash64 auth
  | none => type == .read

/-- The type of a request. -/
def mgmtType (typechar : List UInt8) : Option MgmtType :=
  match typechar.headD 0 with
  | 0x72 => some .read
  | 0x77 => some .write
  | 0x73 => some .sub
  | _ => none

/-- What separates the parts of a line. -/
def lineDelims : List UInt8 := ascii " \r\n"

/-- What separates the parts of the options. -/
def optionDelims : List UInt8 := ascii ":"

/-- The tag and the password in the options of a line; `none` if there is no tag, which is copied
from `NULL` then. -/
def splitOptions (options : List UInt8) : Option (List UInt8 × Option (List UInt8)) :=
  match strtok optionDelims options with
  | none => none
  | some (tagp, rest) =>
    let (flags, rest) :=
      match strtok optionDelims rest with
      | some (flagstr, rest) => (toInt (strtoul flagstr 16), rest)
      | none => (0, rest)
    let auth := if flags &&& 1 ≠ 0 then (strtok optionDelims rest).map Prod.fst else none
    some (tagp.take 9, auth)

/-- What `mgmt_req_init2` comes to: a request, an error that has been reported, or no defined
behaviour. -/
inductive MgmtInit where
  | ready (req : MgmtReq)
  | failed (reply : MgmtReply)
  | undefined
  deriving DecidableEq

/-- `mgmt_req_init2`. -/
def mgmtReqInit2 (passwordHash : UInt64) (req : MgmtReq) (cmdline : List UInt8) : MgmtInit :=
  let req := { req with tag := ascii "-1" }
  match strtok lineDelims cmdline with
  | none => .failed (req.error "notype")
  | some (typechar, rest) =>
    match mgmtType typechar with
    | none => .failed (req.error "badtype")
    | some type =>
      match strtok lineDelims rest with
      | none => .failed (req.error "nooptions")
      | some (options, rest) =>
        match strtok lineDelims rest with
        | none => .failed (req.error "nocmd")
        | some (argv0, rest) =>
          let argv := (strtok (ascii "\r\n") rest).map Prod.fst
          match splitOptions options with
          | none => .undefined
          | some (tag, auth) =>
            let req := { req with type := type, argv0 := argv0, argv := argv, tag := tag }
            if mgmtAuth passwordHash type auth then .ready req else .failed (req.error "badauth")

/-- The command line that a datagram is copied to: `cmdlinebuf`. -/
def cmdlineOf (udpBuf : List UInt8) : List UInt8 := (cstr udpBuf).take 79

/-- A request whose parts are yet to be found. -/
def MgmtReq.from (sender : Sock) : MgmtReq := ⟨.unknown, [], none, [], sender⟩

/-! ### Privileges -/

/-- The type of the request in a line. -/
def lineType (cmdline : List UInt8) : Option MgmtType :=
  (strtok lineDelims cmdline).bind fun t => mgmtType t.1

/-- The options of a line. -/
def lineOptions (cmdline : List UInt8) : Option (List UInt8) :=
  (strtok lineDelims cmdline).bind fun t => (strtok lineDelims t.2).map Prod.fst

/-- The command of a line. -/
def lineCommand (cmdline : List UInt8) : Option (List UInt8) :=
  (strtok lineDelims cmdline).bind fun t =>
    (strtok lineDelims t.2).bind fun t => (strtok lineDelims t.2).map Prod.fst

/-- The password in the options of a line. -/
def linePassword (cmdline : List UInt8) : Option (List UInt8) :=
  (lineOptions cmdline).bind fun options => (splitOptions options).bind Prod.snd

/-- A read request, or one whose options do not contain a password with the configured hash. -/
def Unprivileged (passwordHash : UInt64) (cmdline : List UInt8) : Prop :=
  lineType cmdline = some .write ∨ lineType cmdline = some .sub →
    ∀ auth, linePassword cmdline = some auth → pearsonHash64 auth ≠ passwordHash

/-- The request is complete, but its options consist of colons. -/
def Tagless (cmdline : List UInt8) : Prop :=
  (lineType cmdline).isSome ∧ (lineCommand cmdline).isSome ∧
    ∃ options, lineOptions cmdline = some options ∧ ∀ b ∈ options, b ∈ optionDelims

theorem splitOptions_eq_none_iff {options : List UInt8} :
    splitOptions options = none ↔ ∀ b ∈ options, b ∈ optionDelims := by
  rw [← strtok_eq_none_iff]
  unfold splitOptions
  cases strtok optionDelims options <;> simp

theorem mgmtType_ne_unknown {typechar : List UInt8} {type : MgmtType}
    (h : mgmtType typechar = some type) : type ≠ .unknown := by
  rintro rfl
  unfold mgmtType at h
  split at h <;> cases h

section

variable {passwordHash : UInt64} {req req' : MgmtReq} {cmdline : List UInt8}

/-- **Without the password there are only read requests.** -/
theorem mgmtReqInit2_ready (h : mgmtReqInit2 passwordHash req cmdline = .ready req')
    (hline : Unprivileged passwordHash cmdline) : req'.type = .read := by
  unfold mgmtReqInit2 at h
  dsimp only at h
  unfold Unprivileged lineType linePassword lineOptions at hline
  cases htype : strtok lineDelims cmdline with
  | none =>
    rw [htype] at h
    cases h
  | some t =>
    rw [htype] at h hline
    dsimp only [Option.bind_some] at h hline
    cases hchar : mgmtType t.1 with
    | none =>
      rw [hchar] at h
      cases h
    | some type =>
      rw [hchar] at h hline
      dsimp only at h
      cases hopt : strtok lineDelims t.2 with
      | none =>
        rw [hopt] at h
        cases h
      | some o =>
        rw [hopt] at h hline
        dsimp only [Option.map_some, Option.bind_some] at h hline
        cases hcmd : strtok lineDelims o.2 with
        | none =>
          rw [hcmd] at h
          cases h
        | some a =>
          rw [hcmd] at h
          dsimp only at h
          cases hsplit : splitOptions o.1 with
          | none =>
            rw [hsplit] at h
            cases h
          | some s =>
            rw [hsplit] at h hline
            dsimp only [Option.bind_some] at h hline
            split_ifs at h with hauth
            cases h
            -- the request is authorised: by its type, or by the password
            unfold mgmtAuth at hauth
            cases hs : s.2 with
            | none =>
              rw [hs] at hauth
              exact beq_iff_eq.mp hauth
            | some auth =>
              rw [hs] at hauth hline
              by_contra hne
              have hwrite : some type = some .write ∨ some type = some .sub := by
                have hknown := mgmtType_ne_unknown hchar
                cases type <;> simp_all
              exact hline hwrite auth rfl (beq_iff_eq.mp hauth).symm

/-- **The tag of a line is read through `NULL`** if the options consist of colons, and the rest of
the line is complete. -/
theorem mgmtReqInit2_undefined_iff (passwordHash : UInt64) (req : MgmtReq) :
    mgmtReqInit2 passwordHash req cmdline = .undefined ↔ Tagless cmdline := by
  unfold mgmtReqInit2 Tagless lineType lineCommand lineOptions
  cases strtok lineDelims cmdline with
  | none => simp
  | some t =>
    dsimp only [Option.bind_some]
    cases mgmtType t.1 with
    | none => simp
    | some type =>
      dsimp only
      cases strtok lineDelims t.2 with
      | none => simp
      | some o =>
        dsimp only [Option.bind_some, Option.map_some]
        cases strtok lineDelims o.2 with
        | none => simp
        | some a =>
          have hsplit := @splitOptions_eq_none_iff o.1
          cases hopt : splitOptions o.1 with
          | none => simpa using hsplit.mp hopt
          | some s =>
            have hne : ¬ ∀ b ∈ o.1, b ∈ optionDelims := fun h => by
              rw [hsplit.mpr h] at hopt
              cases hopt
            dsimp only
            split_ifs <;> simpa using hne

end

end N2n
