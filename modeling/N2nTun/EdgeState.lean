import N2nTun.EdgeAuth
import N2nTun.EdgeTransport
import N2nTun.SnHandlers

/-!
# The state of an edge

The part of `n2n_edge_t` that the registration with a supernode works on, and the
surroundings it works in.  `curr_sn` is an address in the list of supernodes; the
transport's copy of the current supernode's socket is refreshed before it is used.

## Main definitions

* `Edge` — the edge, its surroundings and the history of what it has sent.
* `Edge.onTransport` — an operation on the transport.
* `Edge.sendtoSock`, `Edge.sendRegister` — sending.
* `Edge.findPeerTimeStampAndVerify` — the check of a time stamp.

## Main results

* `Edge.Quiet` — what sending and the transports leave alone, and **what they can do to a
  request that is under way: nothing, or end it.**
-/

namespace N2n

open Bytes

/-- `current_supernode_rx_transport`. -/
inductive RxTransport where
  | none
  | udp
  | tcp
  | kcp
  deriving DecidableEq

/-- `struct peer_info`, as far as an edge uses it for another edge. -/
structure EdgePeer extends PeerInfo where
  /-- `local` -/
  isLocal : Bool
  lastP2p : ℤ
  timeout : ℤ
  lastSentQuery : ℤ
  deriving DecidableEq

/-- What happens in a call of `sendto_sock`: over TCP it may fail; the supernode's control
session of KCP may be set up. -/
structure EdgeSend where
  failed : Bool
  kcpCtrl : EdgeKcpCtx
  deriving DecidableEq

/-- The answers that are still to come: of `sendto_sock`, of the opening of sockets, of
`setsockopt` for the multicast group, of `n2n_rand` and `gettimeofday`. -/
structure EdgeEnv where
  sends : Stream' EdgeSend
  sockets : Stream' SocketResults
  joins : Stream' Bool
  rands : Stream' UInt64
  tods : Stream' Tod

/-- A registration message of the edge, and whom it was for. -/
inductive EdgeSent where
  | registerSuper (dest : Sock) (reg : RegisterSuper) (pktbuf : List UInt8)
  | unregisterSuper (dest : Sock) (unreg : UnregisterSuper) (pktbuf : List UInt8)
  deriving DecidableEq

/-- `n2n_edge_t`. -/
structure Edge where
  conf : EdgeConf
  /-- `conf.preferred_sock` -/
  preferredSock : Sock
  /-- `conf.dev_desc` -/
  devDesc : Desc
  /-- `conf.register_interval` -/
  registerInterval : ℤ
  /-- `conf.local_port` -/
  localPort : ℤ
  /-- `conf.allow_p2p` -/
  allowP2p : Bool
  /-- `conf.supernodes` -/
  supernodes : Table PeerInfo
  currSn : ℕ
  /-- `device.mac_addr` -/
  macAddr : Mac
  /-- `device.ip_addr` and `device.device_mask`, in the order of the host -/
  ipAddr : UInt32
  deviceMask : UInt32
  transport : EdgeTransport
  knownPeers : Table EdgePeer
  pendingPeers : Table EdgePeer
  multicastJoined : Bool
  multicastPeer : Sock
  lastRegisterReq : ℤ
  lastSweep : ℤ
  lastSup : ℤ
  lastUdpSup : ℤ
  closeSocketCounter : ℕ
  resolutionRequest : Bool
  currentSupernodeRxTransport : RxTransport
  previouslyIssuedTimeStamp : UInt64
  env : EdgeEnv
  sent : List EdgeSent

namespace Edge

/-! ### Surroundings -/

/-- `n2n_rand`. -/
def rand (e : Edge) : Edge × UInt64 :=
  ({ e with env := { e.env with rands := e.env.rands.tail } }, e.env.rands.head)

/-- `memrnd` of 16 bytes: four words. -/
def memrnd (e : Edge) : Edge × List.Vector UInt8 16 :=
  let words := (e.env.rands.take 4).flatMap fun r => leBytes32 r.toUInt32
  ({ e with env := { e.env with rands := e.env.rands.drop 4 } }, sliceVec words 0 16)

/-- `gettimeofday`. -/
def tod (e : Edge) : Edge × Tod :=
  ({ e with env := { e.env with tods := e.env.tods.tail } }, e.env.tods.head)

/-- `time_stamp`. -/
def timeStamp (e : Edge) : Edge × UInt64 :=
  let (e, tod) := e.tod
  let stamp := N2n.timeStamp e.previouslyIssuedTimeStamp tod
  ({ e with previouslyIssuedTimeStamp := stamp }, stamp)

/-- `n2n_kcp_now_ms`. -/
def nowMs (e : Edge) : Edge × UInt32 :=
  let (e, tod) := e.tod
  (e, (tod.sec * 1000 + tod.usec / 1000).toUInt32)

/-- The next answers to the opening of sockets. -/
def openSockets (e : Edge) : Edge × SocketResults :=
  ({ e with env := { e.env with sockets := e.env.sockets.tail } }, e.env.sockets.head)

/-! ### The current supernode and the transports -/

/-- `*curr_sn`. -/
def sn (e : Edge) : PeerInfo := (e.supernodes.get? e.currSn).getD PeerInfo.zero

/-- The transport with the socket of the current supernode. -/
def link (e : Edge) : EdgeTransport := { e.transport with currSnSock := e.sn.sock }

/-- An operation on the transport. -/
def onTransport (e : Edge) (f : EdgeTransport → EdgeTransport) : Edge :=
  { e with transport := f e.link }

/-- `edge_tcp_fallback_is_establishing`. -/
def tcpFallbackIsEstablishing (e : Edge) : Bool :=
  e.transport.tcpFallbackActive && edgeTransportUsesTcp e.transport && e.transport.snWait != 0

/-- `supernode_connect`. -/
def connect (e : Edge) : Edge :=
  let (e, os) := e.openSockets
  e.onTransport (supernodeConnect · os)

/-- `sendto_sock`. -/
def sendtoSock (e : Edge) (dest : Sock) : Edge :=
  if dest.family = 0 then e
  else if e.transport.sock < 0 then e
  else if e.tcpFallbackIsEstablishing && !e.transport.sendingSupernodeControl then e
  else
    let r := e.env.sends.head
    let e := { e with env := { e.env with sends := e.env.sends.tail } }
    if edgeTransportUsesTcp e.transport then
      if r.failed then
        let (e, os) := e.openSockets
        let (e, ms) := e.nowMs
        e.onTransport (sendtoFdErrOut · os ms)
      else e
    else if sockEqual dest e.sn.sock && e.transport.sendingSupernodeControl then
      e.onTransport fun t => { t with snKcpCtrl := r.kcpCtrl }
    else e

/-- `sending_register_super` and `sending_supernode_control` are set. -/
def setSending (e : Edge) (registerSuper control : Bool) : Edge :=
  e.onTransport fun t =>
    { t with sendingRegisterSuper := registerSuper, sendingSupernodeControl := control }

/-- The header of a packet is encrypted under the static or the dynamic key. -/
def encryptHeader (e : Edge) (pktbuf : List UInt8) (ctx iv : Option SpeckContext) :
    Edge × List UInt8 :=
  if e.conf.headerEncryption then
    let (e, stamp) := e.timeStamp
    let (e, r) := e.rand
    match ctx, iv with
    | some ctx, some iv =>
      let len := UInt16.ofNat pktbuf.length
      (e, packetHeaderEncrypt pktbuf len len ctx iv stamp r.toUInt32)
    | _, _ => (e, pktbuf)
  else (e, pktbuf)

/-- The socket of the supernode is the destination. -/
def destIsCurrentSupernode (e : Edge) (sock : Sock) : Bool := sockEqual sock e.sn.sock

/-- `send_register`, with what it does to the transport. -/
def sendRegister (e : Edge) (remotePeer : Sock) : Edge :=
  if !e.allowP2p then e
  else
    -- the encryption of the header takes a stamp and a random number
    let e := if e.conf.headerEncryption then e.timeStamp.1.rand.1 else e
    let e := if e.destIsCurrentSupernode remotePeer then
        e.onTransport fun t => { t with sendingSupernodeControl := true }
      else e
    let e := e.sendtoSock remotePeer
    e.onTransport fun t => { t with sendingSupernodeControl := false }

/-! ### What sending leaves alone -/

/-- From `t` to `t'` a request is left as it is, or ended. -/
def RequestKept (t t' : EdgeTransport) : Prop :=
  t'.registerSuperRequestActive = false ∨
    t'.registerSuperRequestActive = t.registerSuperRequestActive ∧
      t'.registerSuperCookie = t.registerSuperCookie ∧ t'.registerSuperAuth = t.registerSuperAuth

theorem RequestKept.refl (t : EdgeTransport) : RequestKept t t := Or.inr ⟨rfl, rfl, rfl⟩

theorem RequestKept.trans {t t' t'' : EdgeTransport} (h : RequestKept t t')
    (h' : RequestKept t' t'') : RequestKept t t'' := by
  rcases h' with h' | ⟨hactive, hcookie, hauth⟩
  · exact Or.inl h'
  · rcases h with h | ⟨hactive₀, hcookie₀, hauth₀⟩
    · exact Or.inl (hactive.trans h)
    · exact Or.inr ⟨hactive.trans hactive₀, hcookie.trans hcookie₀, hauth.trans hauth₀⟩

theorem RequestKept.of_eq {t t' : EdgeTransport}
    (hactive : t'.registerSuperRequestActive = t.registerSuperRequestActive)
    (hcookie : t'.registerSuperCookie = t.registerSuperCookie)
    (hauth : t'.registerSuperAuth = t.registerSuperAuth) : RequestKept t t' :=
  Or.inr ⟨hactive, hcookie, hauth⟩

theorem RequestKept.ite {c : Prop} [Decidable c] {t t₁ t₂ : EdgeTransport}
    (h₁ : RequestKept t t₁) (h₂ : RequestKept t t₂) : RequestKept t (if c then t₁ else t₂) := by
  split
  · exact h₁
  · exact h₂

section

variable (t : EdgeTransport) (os : SocketResults)

theorem requestKept_release : RequestKept t (edgeReleaseTcpStickyAfterDisconnect t) := by
  unfold edgeReleaseTcpStickyAfterDisconnect
  exact .ite (.refl t) (Or.inl rfl)

theorem requestKept_markUdpRecovered : RequestKept t (edgeMarkUdpRecovered t) := by
  unfold edgeMarkUdpRecovered
  exact .ite (.refl t) (.ite (.refl t) (Or.inl rfl))

theorem requestKept_connectUdpSocket : RequestKept t (supernodeConnectUdpSocket t os).1 := by
  unfold supernodeConnectUdpSocket
  split_ifs <;> exact .of_eq rfl rfl rfl

theorem requestKept_connectTcpSocket : RequestKept t (supernodeConnectTcpSocket t os).1 := by
  unfold supernodeConnectTcpSocket
  dsimp only
  split_ifs <;> exact .of_eq rfl rfl rfl

theorem requestKept_connect : RequestKept t (supernodeConnect t os) := by
  unfold supernodeConnect
  extract_lets kcpElsewhere t₁ t₂
  have h₁ : RequestKept t t₁ := .ite (.of_eq rfl rfl rfl) (.refl t)
  have h₂ : RequestKept t t₂ := .ite (h₁.trans (.of_eq rfl rfl rfl)) h₁
  have h₃ : RequestKept t (if t₂.connectTcp then (t₂, true)
      else supernodeConnectUdpSocket t₂ os).1 := by
    split
    · exact h₂
    · exact h₂.trans (requestKept_connectUdpSocket t₂ os)
  generalize (if t₂.connectTcp then (t₂, true) else supernodeConnectUdpSocket t₂ os) = r₃ at h₃ ⊢
  obtain ⟨t₃, udpOk⟩ := r₃
  refine .ite h₃ (.ite ?_ (h₃.trans (.of_eq rfl rfl rfl)))
  have h₄ := h₃.trans (requestKept_connectTcpSocket t₃ os)
  exact .ite h₄ (h₄.trans (.of_eq rfl rfl rfl))

theorem requestKept_switchToTcp : RequestKept t (edgeSwitchToTcpSupernode t os).1 := by
  unfold edgeSwitchToTcpSupernode
  split
  · exact .refl t
  · split
    · exact .refl t
    · extract_lets t₁
      have h₀ : RequestKept t t₁ := .of_eq rfl rfl rfl
      have h₁ := h₀.trans (requestKept_connectTcpSocket t₁ os)
      generalize supernodeConnectTcpSocket t₁ os = r at h₁ ⊢
      obtain ⟨t₂, tcpOk⟩ := r
      dsimp only
      split <;> exact h₁.trans (.of_eq rfl rfl rfl)

theorem requestKept_recycleUdp : RequestKept t (edgeRecycleUdpSupernodeSocket t os) := by
  unfold edgeRecycleUdpSupernodeSocket
  refine .ite (.refl t) ?_
  have h₀ : RequestKept t (supernodeDisconnectUdp t) := .of_eq rfl rfl rfl
  have h₁ := h₀.trans (requestKept_connectUdpSocket _ os)
  generalize supernodeConnectUdpSocket (supernodeDisconnectUdp t) os = r at h₁ ⊢
  refine .ite h₁ ?_
  have h₂ : RequestKept t (if edgeTransportUsesTcp r.1 then r.1
      else edgeSetActiveTransport r.1 .udp) := .ite h₁ (h₁.trans (.of_eq rfl rfl rfl))
  exact h₂.trans (.of_eq rfl rfl rfl)

theorem requestKept_sendtoFdErrOut (nowMs : UInt32) :
    RequestKept t (sendtoFdErrOut t os nowMs) := by
  unfold sendtoFdErrOut
  refine .ite (.refl t) (.ite ?_ ?_)
  · extract_lets t₁
    have h₀ : RequestKept t (supernodeDisconnectTcp t₁) := .of_eq rfl rfl rfl
    have h₁ := h₀.trans (requestKept_connectTcpSocket _ os)
    generalize supernodeConnectTcpSocket (supernodeDisconnectTcp t₁) os = r at h₁ ⊢
    have h₂ : RequestKept t (if r.2 then edgeSetActiveTransport r.1 .tcp else r.1) :=
      .ite (h₁.trans (.of_eq rfl rfl rfl)) h₁
    exact h₂.trans (.of_eq rfl rfl rfl)
  · have h₀ : RequestKept t (supernodeDisconnectTcp t) := .of_eq rfl rfl rfl
    exact (h₀.trans (requestKept_release _)).trans (.of_eq rfl rfl rfl)

/-- **Whatever the edge does to its transports, a request is left as it is or ended.** -/
theorem requestKept_apply (op : TransportOp) : RequestKept t (op.apply t) := by
  cases op with
  | connect os => exact requestKept_connect t os
  | disconnect => exact .of_eq rfl rfl rfl
  | switchToTcp os => exact requestKept_switchToTcp t os
  | recycleUdp os => exact requestKept_recycleUdp t os
  | markUdpRecovered => exact requestKept_markUdpRecovered t
  | sendError os nowMs => exact requestKept_sendtoFdErrOut t os nowMs
  | setCurrSn sock => exact .of_eq rfl rfl rfl
  | setSnWait value => exact .of_eq rfl rfl rfl
  | setSending registerSuper control => exact .of_eq rfl rfl rfl

end

/-- The requests, the keys, the supernodes and the messages sent are the same before and after,
but that a request may have ended. -/
structure Quiet (e e' : Edge) : Prop where
  conf : e'.conf = e.conf
  supernodes : e'.supernodes = e.supernodes
  currSn : e'.currSn = e.currSn
  sent : e'.sent = e.sent
  request : RequestKept e.transport e'.transport

theorem Quiet.refl (e : Edge) : e.Quiet e := ⟨rfl, rfl, rfl, rfl, .refl _⟩

theorem Quiet.trans {e e' e'' : Edge} (h : e.Quiet e') (h' : e'.Quiet e'') : e.Quiet e'' :=
  ⟨h'.conf.trans h.conf, h'.supernodes.trans h.supernodes, h'.currSn.trans h.currSn,
    h'.sent.trans h.sent, h.request.trans h'.request⟩

theorem Quiet.onTransport {e v : Edge} (h : e.Quiet v) {f : EdgeTransport → EdgeTransport}
    (hf : ∀ t, RequestKept t (f t)) : e.Quiet (v.onTransport f) :=
  ⟨h.conf, h.supernodes, h.currSn, h.sent,
    h.request.trans ((RequestKept.of_eq rfl rfl rfl).trans (hf v.link))⟩

/-- Only the surroundings have changed. -/
theorem Quiet.of_eq {e v : Edge} (hconf : v.conf = e.conf) (hsn : v.supernodes = e.supernodes)
    (hcurr : v.currSn = e.currSn) (hsent : v.sent = e.sent) (ht : v.transport = e.transport) :
    e.Quiet v :=
  ⟨hconf, hsn, hcurr, hsent, ht ▸ .refl _⟩

theorem quiet_connect (e : Edge) : e.Quiet e.connect := by
  have h : e.Quiet e.openSockets.1 := .of_eq rfl rfl rfl rfl rfl
  exact h.onTransport fun t => requestKept_connect t _

theorem quiet_setSending (e : Edge) (registerSuper control : Bool) :
    e.Quiet (e.setSending registerSuper control) :=
  (Quiet.refl e).onTransport fun _ => .of_eq rfl rfl rfl

theorem quiet_sendtoSock (e : Edge) (dest : Sock) : e.Quiet (e.sendtoSock dest) := by
  unfold sendtoSock
  dsimp only
  split_ifs
  · exact .refl e
  · exact .refl e
  · exact .refl e
  · refine Quiet.onTransport ?_ fun t => requestKept_sendtoFdErrOut t _ _
    exact .of_eq rfl rfl rfl rfl rfl
  · exact .of_eq rfl rfl rfl rfl rfl
  · refine Quiet.onTransport ?_ fun _ => .of_eq rfl rfl rfl
    exact .of_eq rfl rfl rfl rfl rfl
  · exact .of_eq rfl rfl rfl rfl rfl

theorem Quiet.ite {c : Prop} [Decidable c] {e e₁ e₂ : Edge} (h₁ : e.Quiet e₁)
    (h₂ : e.Quiet e₂) : e.Quiet (if c then e₁ else e₂) := by
  split
  · exact h₁
  · exact h₂

theorem quiet_sendRegister (e : Edge) (remotePeer : Sock) :
    e.Quiet (e.sendRegister remotePeer) := by
  unfold sendRegister
  refine .ite (.refl e) ?_
  extract_lets e₁ e₂ e₃
  have h₁ : e.Quiet e₁ := .ite (.of_eq rfl rfl rfl rfl rfl) (.refl e)
  have h₂ : e.Quiet e₂ := .ite (h₁.onTransport fun _ => .of_eq rfl rfl rfl) h₁
  have h₃ := h₂.trans (quiet_sendtoSock e₂ remotePeer)
  exact h₃.onTransport fun _ => .of_eq rfl rfl rfl

/-! ### Time stamps -/

/-- `find_peer_time_stamp_and_verify`: the last valid stamp is the one of the supernode `sn`, or
else that of the peer with the MAC. -/
def findPeerTimeStampAndVerify (e : Edge) (sn : Option ℕ) (mac : Mac) (stamp : UInt64)
    (allowJitter : Bool) : Edge × Bool :=
  let (e, now) := e.timeStamp
  let verify := fun previous => timeStampVerifyAndUpdate stamp now previous allowJitter
  match sn with
  | some p =>
    match e.supernodes.get? p with
    | some s =>
      let r := verify (some s.lastValidTimeStamp)
      ({ e with
        supernodes := e.supernodes.modify p fun s =>
          { s with lastValidTimeStamp := r.2.getD s.lastValidTimeStamp } }, r.1)
    | none => (e, (verify none).1)
  | none =>
    match e.pendingPeers.find? (·.macAddr == mac) with
    | some (p, peer) =>
      let r := verify (some peer.lastValidTimeStamp)
      ({ e with
        pendingPeers := e.pendingPeers.modify p fun peer =>
          { peer with lastValidTimeStamp := r.2.getD peer.lastValidTimeStamp } }, r.1)
    | none =>
      match e.knownPeers.find? (·.macAddr == mac) with
      | some (p, peer) =>
        let r := verify (some peer.lastValidTimeStamp)
        ({ e with
          knownPeers := e.knownPeers.modify p fun peer =>
            { peer with lastValidTimeStamp := r.2.getD peer.lastValidTimeStamp } }, r.1)
      | none => (e, (verify none).1)

end Edge

end N2n
