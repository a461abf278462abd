import N2nTun.AutoIp
import N2nTun.EdgeReceive

/-!
# How the edge keeps itself registered

The functions of `edge_utils.c` that send REGISTER_SUPER, UNREGISTER_SUPER and
QUERY_PEER, and those that the main loop calls to see whether it is time to do so:
they choose the supernode, and the transport to it.

Every opening of sockets takes the next answer of the operating system.  The order
that the selection criterion gives is an argument.

## Main definitions

* `Edge.sendRegisterSuper`, `Edge.sendUnregisterSuper`, `Edge.sendQueryPeer` — the messages.
* `Edge.updateSupernodeReg` — `update_supernode_reg`.
* `Edge.sortSupernodes` — `sort_supernodes`.
* `Edge.handleDeadKcpSession`, `Edge.handleIdleDataKcpSession` — the timers of KCP.
-/

namespace N2n

open Bytes

/-- `N2N_SUPERNODE_UDP_ACTIVITY_GRACE_SECS`. -/
def supernodeUdpActivityGraceSecs : ℤ := 2

/-- `N2N_TCP_FALLBACK_KCP_PROBE_INTERVAL`. -/
def tcpFallbackKcpProbeInterval : ℤ := 5

/-- `N2N_CLOSE_SOCKET_COUNTER_MAX`. -/
def closeSocketCounterMax : ℕ := 15

/-- `REGISTER_SUPER_INTERVAL_DFL`. -/
def registerSuperIntervalDfl : ℤ := 20

/-- `SWEEP_TIME`. -/
def sweepTime : ℤ := 30

namespace Edge

/-! ### The challenge and the request -/

/-- `get_local_auth`; the challenge is drawn only if there is a user. -/
def localAuth (e : Edge) (auth : Auth) : Edge × Auth :=
  let (e, challenge) :=
    if e.conf.auth.scheme = authUserPassword then e.memrnd
    else (e, List.Vector.replicate 16 0)
  let r := e.conf.getLocalAuth auth challenge
  ({ e with conf := r.1 }, r.2)

/-- A new request, unless one is under way. -/
def startRequest (e : Edge) : Edge :=
  if e.transport.registerSuperRequestActive then e
  else
    let (e, cookie) := e.rand
    let (e, auth) := e.localAuth e.transport.registerSuperAuth
    e.onTransport fun t =>
      { t with
        registerSuperCookie := cookie.toUInt32
        registerSuperAuth := auth
        registerSuperRequestActive := true }

/-- The current supernode is changed in place. -/
def modifySn (e : Edge) (f : PeerInfo → PeerInfo) : Edge :=
  { e with supernodes := e.supernodes.modify e.currSn f }

/-- The common part of what is sent. -/
def common (e : Edge) (pc : UInt8) (flags : UInt16) : Common :=
  ⟨defaultTtl, pc, flags, e.conf.communityName⟩

/-- The REGISTER_SUPER of the request that is under way. -/
def registerSuper (e : Edge) : RegisterSuper where
  cookie := e.transport.registerSuperCookie
  edgeMac := e.macAddr
  sock := if e.preferredSock.family = afInvalid then Sock.zero else e.preferredSock
  devAddr := ⟨e.ipAddr, mask2bitlen e.deviceMask⟩
  devDesc := e.devDesc
  auth := e.transport.registerSuperAuth
  keyTime := 0

/-- A message is sent to the supernode, as control traffic. -/
def sendControl (e : Edge) (dest : Sock) : Edge :=
  let e := e.onTransport fun t => { t with sendingSupernodeControl := true }
  let e := e.sendtoSock dest
  e.onTransport fun t => { t with sendingSupernodeControl := false }

/-- The flags around the sending of REGISTER_SUPER. -/
def sendRegistration (e : Edge) (dest : Sock) : Edge :=
  let e := (e.setSending true true).onTransport fun t =>
    { t with registerSuperSoftRetryArmed := false }
  let e := e.sendtoSock dest
  (e.setSending false false).onTransport fun t => { t with registerSuperSoftRetryArmed := false }

/-- `send_register_super`. -/
def sendRegisterSuper (e : Edge) : Edge :=
  let flags := if e.preferredSock.family = afInvalid then 0 else flagsSocket
  let e := e.startRequest
  let e := e.modifySn fun sn => { sn with lastCookie := e.transport.registerSuperCookie }
  let reg := e.registerSuper
  let pktbuf :=
    (encodeRegisterSuper (encodeStart []) (e.common msgTypeRegisterSuper flags) reg).bytes
  let (e, pktbuf) := e.encryptHeader pktbuf e.conf.keys.ctxStatic e.conf.keys.ivStatic
  let pktbuf :=
    if e.conf.headerEncryption && e.conf.sharedSecret.isSome then
      pktbuf ++ speck128Encrypt (pearsonHash128 pktbuf) e.conf.sharedSecretCtx
    else pktbuf
  let dest := e.sn.sock
  let e := { e with sent := e.sent ++ [EdgeSent.registerSuper dest reg pktbuf] }
  e.sendRegistration dest

/-- `send_unregister_super`. -/
def sendUnregisterSuper (e : Edge) : Edge :=
  let (e, auth) := e.localAuth Auth.zero
  let unreg : UnregisterSuper := ⟨auth, e.macAddr⟩
  let pktbuf :=
    (encodeUnregisterSuper (encodeStart []) (e.common msgTypeUnregisterSuper 0) unreg).bytes
  let (e, pktbuf) := e.encryptHeader pktbuf e.conf.keys.ctxDynamic e.conf.keys.ivDynamic
  let dest := e.sn.sock
  let e := { e with sent := e.sent ++ [EdgeSent.unregisterSuper dest unreg pktbuf] }
  e.sendControl dest

/-! ### QUERY_PEER -/

/-- The supernodes that get a PING: `floor(n / 2)` at the top of the list, and after some that
are skipped `ceiling(n / 2)` of the rest. -/
def pinged (socks : List Sock) (pings skip : ℕ) : List Sock :=
  socks.take (pings / 2) ++ ((socks.drop (pings / 2)).drop skip).take ((pings + 1) / 2)

/-- `send_query_peer`, with `number_max_sn_pings` and what `n2n_rand_sqr` gives. -/
def sendQueryPeer (e : Edge) (dstMac : Mac) (pings skip : ℕ) : Edge :=
  let query : QueryPeer := ⟨0, e.macAddr, dstMac⟩
  let pktbuf := (encodeQueryPeer (encodeStart []) (e.common msgTypeQueryPeer 0) query).bytes
  let (e, _) := e.encryptHeader pktbuf e.conf.keys.ctxDynamic e.conf.keys.ivDynamic
  if isNullMac dstMac then
    let socks := e.supernodes.values.map (·.sock)
    let (e, skip) := if pings ≤ socks.length then (e.rand.1, skip) else (e, 0)
    let e := e.onTransport fun t => { t with sendingSupernodeControl := true }
    let e := (pinged socks pings skip).foldl sendtoSock e
    e.onTransport fun t => { t with sendingSupernodeControl := false }
  else e.sendControl e.sn.sock

/-! ### The choice of the supernode -/

/-- The first supernode in the list. -/
def headSn (e : Edge) : ℕ := (e.supernodes.entries.head?.map Prod.fst).getD 0

/-- `sn_selection_sort`. -/
def selectionSort (e : Edge) (rank : ℕ → ℕ) : Edge :=
  { e with supernodes := e.supernodes.sortOn rank }

/-- `curr_sn = conf.supernodes`, with new attempts. -/
def takeHeadSn (e : Edge) : Edge :=
  let e := { e with currSn := e.headSn }
  e.onTransport resetSupAttempts

/-- `edge_switch_to_tcp_supernode`. -/
def switchToTcp (e : Edge) : Edge × Bool :=
  let (e, os) := e.openSockets
  let r := edgeSwitchToTcpSupernode e.link os
  ({ e with transport := r.1 }, r.2)

/-- `edge_recycle_udp_supernode_socket`. -/
def recycleUdp (e : Edge) : Edge :=
  let (e, os) := e.openSockets
  e.onTransport (edgeRecycleUdpSupernodeSocket · os)

/-- `supernode_disconnect`. -/
def disconnect (e : Edge) : Edge := e.onTransport supernodeDisconnect

/-- `sort_supernodes`; `pings` and `skip` are for the PINGs at its end. -/
def sortSupernodes (e : Edge) (now : ℤ) (rank : ℕ → ℕ) (pings skip : ℕ) : Edge :=
  if now - e.lastSweep ≤ sweepTime then e
  else
    let e := if e.transport.snWait = 0 then e.selectionSort rank else e
    let e :=
      if e.currSn ≠ e.headSn then
        -- not connected to the best one
        let e := e.sendUnregisterSuper.takeHeadSn.connect.sendRegisterSuper
        { e with lastRegisterReq := now }.onTransport fun t => { t with snWait := 1 }
      else e
    let e := if e.transport.connectTcp then e else e.sendQueryPeer nullMac pings skip
    { e with lastSweep := now }

/-! ### `update_supernode_reg` -/

/-- `edge_recent_supernode_udp_activity`. -/
def recentSupernodeUdpActivity (e : Edge) (now : ℤ) : Bool :=
  e.lastUdpSup != 0 && now - e.lastUdpSup ≤ supernodeUdpActivityGraceSecs

/-- `edge_recent_supernode_kcp_activity`. -/
def recentSupernodeKcpActivity (e : Edge) (now : ℤ) : Bool :=
  e.transport.snKcpCtrl.active && e.transport.snKcpCtrlConfirmed &&
    e.transport.snKcpCtrl.lastSeen != 0 &&
    now - e.transport.snKcpCtrl.lastSeen ≤ supernodeUdpActivityGraceSecs

/-- `edge_register_retry_interval_ms`. -/
def registerRetryIntervalMs (t : EdgeTransport) : UInt32 :=
  [300, 600, 1000].getD t.registerFastRetryCount.toNat 1500

/-- Another registration is due before the interval has passed. -/
def fastRetryDue (t : EdgeTransport) (currentMs : UInt32) : Bool :=
  t.snWait == 2 ||
    (t.snWait != 0 && t.lastRegisterReqMs != 0 &&
      registerRetryIntervalMs t ≤ currentMs - t.lastRegisterReqMs)

/-- `check_join_multicast_group`. -/
def checkJoinMulticastGroup (e : Edge) : Edge :=
  if e.allowP2p && e.preferredSock.family == afInvalid && !e.multicastJoined then
    { e with
      multicastJoined := e.env.joins.head
      env := { e.env with joins := e.env.joins.tail } }
  else e

/-- `register_with_local_peers`. -/
def registerWithLocalPeers (e : Edge) : Edge :=
  if e.multicastJoined && e.allowP2p && e.preferredSock.family == afInvalid then
    e.sendRegister e.multicastPeer
  else e

/-- While the fallback is active the supernode is tried over UDP from time to time, unless the
edge is to stay with TCP. -/
def probeUdp (e : Edge) (now : ℤ) : Edge :=
  if e.transport.tcpFallbackActive && edgeTransportUsesTcp e.transport then
    let due := e.transport.lastKcpProbe = 0 ∨
      e.transport.lastKcpProbe + tcpFallbackKcpProbeInterval ≤ now
    let e :=
      if e.transport.tcpStickyAfterFallback = false ∧ due then
        let savedTransport := e.transport.activeSnTransport
        let e := e.onTransport fun t => edgeSetActiveTransport { t with lastKcpProbe := now } .udp
        e.sendRegisterSuper.onTransport (edgeSetActiveTransport · savedTransport)
      else e
    e.onTransport fun t => { t with supAttempts := 1 }
  else e

/-- There has been traffic from the supernode, so the fallback is put off. -/
def defersFallback (e : Edge) (now : ℤ) : Bool :=
  !e.transport.connectTcp && !edgeTransportUsesTcp e.transport &&
    (e.recentSupernodeUdpActivity now || e.recentSupernodeKcpActivity now)

/-- What the transport is left with then. -/
def deferFallback (t : EdgeTransport) : EdgeTransport :=
  resetSupAttempts { t with
    snWait := 0
    registerFastRetryCount := 0
    tcpRegisterSoftRetryBudget := 0
    registerSuperSoftRetryArmed := false }

/-- All the sockets are closed when the edge has moved on too many times without a peer that it
reaches from outside the local network. -/
def closesSockets (e : Edge) : Bool :=
  let max := if e.transport.allowTcpFallback then closeSocketCounterMax else 3
  (e.localPort == 0 || decide (1024 < e.localPort)) && e.knownPeers.values.all (·.isLocal) &&
    decide (max ≤ e.closeSocketCounter + 1)

/-- The counting, and the closing. -/
def countReconnect (e : Edge) : Edge :=
  if e.closesSockets then { e with closeSocketCounter := 0 }.disconnect
  else if (e.localPort == 0 || decide (1024 < e.localPort)) &&
      e.knownPeers.values.all (·.isLocal) then
    { e with closeSocketCounter := e.closeSocketCounter + 1 }
  else e

/-- The next supernode becomes the current one, and sockets may be closed. -/
def giveUp (e : Edge) (rank : ℕ → ℕ) : Edge :=
  let e := (e.selectionSort rank).takeHeadSn
  { e with resolutionRequest := true }.countReconnect

/-- An attempt less, or the fallback to TCP, or the next supernode. -/
def nextAttempt (e : Edge) (rank : ℕ → ℕ) : Edge :=
  if e.transport.supAttempts = 0 then
    let (e, switched) := e.switchToTcp
    if switched then e else (e.giveUp rank).connect
  else e.onTransport fun t => { t with supAttempts := t.supAttempts - 1 }

/-- A TCP connection that has been lost is opened again: whether the edge can go on. -/
def reconnectTcp (e : Edge) : Edge × Bool :=
  if edgeTransportUsesTcp e.transport && e.transport.tcpSock < 0 then
    let (e, os) := e.openSockets
    let r := supernodeConnectTcpSocket e.link os
    if r.2 then ({ e with transport := edgeSetActiveTransport r.1 .tcp }, true)
    else ({ e with transport := r.1 }, false)
  else (e, true)

/-- One more stage of the fast retries. -/
def nextRetryStage (t : EdgeTransport) : EdgeTransport :=
  { t with
    registerFastRetryCount :=
      if t.registerFastRetryCount < 3 then t.registerFastRetryCount + 1
      else t.registerFastRetryCount }

/-- The connections to the known peers are kept alive by registering there. -/
def registerWithKnownPeers (e : Edge) (now : ℤ) : Edge :=
  ((e.knownPeers.values.filter fun peer => registerSuperIntervalDfl < now - peer.lastSeen).map
    (·.sock)).foldl sendRegister e

/-- The registration itself, and the wait for the answer. -/
def register (e : Edge) (now off : ℤ) (currentMs : UInt32) (wasWaiting : Bool) : Edge :=
  let e := e.sendRegisterSuper.registerWithLocalPeers
  let e := if e.transport.snWait = 1 then e.registerWithKnownPeers now else e
  { e with lastRegisterReq := now - off }.onTransport fun t =>
    let t := { t with snWait := 1, lastRegisterReqMs := currentMs }
    if wasWaiting then nextRetryStage t else { t with registerFastRetryCount := 0 }

/-- The TCP connection is not there yet, so the edge waits. -/
def awaitTcp (e : Edge) (now : ℤ) (currentMs : UInt32) (wasWaiting : Bool) : Edge :=
  { e with lastRegisterReq := now }.onTransport fun t =>
    let t := { t with snWait := 1, lastRegisterReqMs := currentMs }
    if wasWaiting then nextRetryStage t else t

/-- What `last_register_req` is set back by, so that not all the edges register at once. -/
def retryOffset (e : Edge) : ℤ :=
  if e.transport.snWait = 2 then
    ((e.rand.2.toNat % (e.registerInterval * 3 / 4).toNat : ℕ) : ℤ)
  else 0

/-- `update_supernode_reg` up to the choice of what to do about missing answers. -/
def beforeAttempt (e : Edge) (now : ℤ) : Edge :=
  let e := if e.transport.snWait = 2 then e.rand.1 else e
  e.checkJoinMulticastGroup.probeUdp now

/-- A registration is due. -/
def registrationDue (e : Edge) (now : ℤ) (currentMs : UInt32) : Bool :=
  fastRetryDue e.transport currentMs || decide (e.lastRegisterReq + e.registerInterval ≤ now)

/-- `update_supernode_reg`. -/
def updateSupernodeReg (e : Edge) (now : ℤ) (rank : ℕ → ℕ) : Edge :=
  let (e, currentMs) := e.nowMs
  if !e.registrationDue now currentMs then e
  else
    let wasWaiting := e.transport.snWait != 0
    let off := e.retryOffset
    let e := e.beforeAttempt now
    if e.transport.supAttempts = 0 ∧ e.defersFallback now then e.onTransport deferFallback
    else
      let (e, connected) := (e.nextAttempt rank).reconnectTcp
      if connected then e.register now off currentMs wasWaiting
      else e.awaitTcp now currentMs wasWaiting

/-! ### The timers of KCP -/

/-- `edge_handle_dead_kcp_session`: which of the two sessions have reached the limit of their
retransmissions is an argument. -/
def handleDeadKcpSession (e : Edge) (ctrlDead dataDead : Bool) : Edge :=
  if e.transport.connectTcp || edgeTransportUsesTcp e.transport then e
  else
    let e :=
      if e.transport.snKcpData.active && dataDead then
        e.onTransport fun t => { t with snKcpData := .term, snKcpDataConfirmed := false }
      else e
    if !e.transport.snKcpCtrl.active || !ctrlDead then e
    else
      let (e, switched) := (e.onTransport edgeResetSupernodeKcpState).switchToTcp
      if switched then e.onTransport fun t => { t with snWait := 2 }
      else e.recycleUdp.onTransport fun t => { resetSupAttempts t with snWait := 2 }

/-- `edge_handle_idle_data_kcp_session`: whether the session is alive, with nothing to send and
nothing heard for long, is an argument. -/
def handleIdleDataKcpSession (e : Edge) (idle : Bool) : Edge :=
  if e.transport.connectTcp || edgeTransportUsesTcp e.transport then e
  else if e.transport.snKcpData.active && e.transport.snKcpDataConfirmed && idle then
    e.onTransport fun t => { t with snKcpData := .term, snKcpDataConfirmed := false }
  else e

end Edge

end N2n
