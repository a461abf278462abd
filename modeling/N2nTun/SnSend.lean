import N2nTun.SnState
import N2nTun.Wire

/-!
# Sending from a supernode

`close_tcp_connection` and the chain of functions from `try_broadcast` and
`try_forward` down to the kernel.  A failed send on a TCP connection closes it, and
with it goes a peer.

## Main definitions

* `closeTcpConnection` — the first peer with the connection's descriptor is removed.
* `World.acceptConnection` — a new connection.
* `World.sendtoFd`, `World.sendtoSock`, `World.sendtoPeer` — one packet.
* `World.tryBroadcast`, `World.tryForward` — relaying.
-/

namespace N2n

open Bytes

/-! ### Closing a connection -/

/-- The first edge of a community with a descriptor. -/
def Community.edgeByFd (comm : Community) (fd : ℤ) : Option (ℕ × PeerInfo) :=
  comm.edges.first? (·.socketFd == fd)

/-- The first edge with a descriptor, over all communities, is removed. -/
def Sn.removePeerByFd (sss : Sn) (fd : ℤ) : Sn :=
  match sss.communities.first? (fun c => (c.edgeByFd fd).isSome) with
  | none => sss
  | some (comm, _) =>
    sss.modifyComm comm fun c =>
      match c.edgeByFd fd with
      | some (edge, _) => { c with edges := c.edges.del edge }
      | none => c

/-- `close_tcp_connection`, with `none` for `NULL`. -/
def closeTcpConnection (sss : Sn) : Option (ℕ × TcpConnection) → Sn
  | none => sss
  | some (p, conn) =>
    let sss := sss.removePeerByFd conn.socketFd
    { sss with tcpConnections := sss.tcpConnections.modify p TcpConnection.close }

theorem Sn.removePeerByFd_sock (sss : Sn) (fd : ℤ) : (sss.removePeerByFd fd).sock = sss.sock := by
  unfold Sn.removePeerByFd
  split <;> rfl

theorem closeTcpConnection_sock (sss : Sn) (conn : Option (ℕ × TcpConnection)) :
    (closeTcpConnection sss conn).sock = sss.sock := by
  cases conn with
  | none => rfl
  | some c => exact sss.removePeerByFd_sock c.2.socketFd

theorem Sn.removePeerByFd_federation (sss : Sn) (fd : ℤ) :
    (sss.removePeerByFd fd).federation = sss.federation := by
  unfold Sn.removePeerByFd
  split <;> rfl

theorem closeTcpConnection_federation (sss : Sn) (conn : Option (ℕ × TcpConnection)) :
    (closeTcpConnection sss conn).federation = sss.federation := by
  cases conn with
  | none => rfl
  | some conn => exact sss.removePeerByFd_federation conn.2.socketFd

theorem closeTcpConnection_keyTime (sss : Sn) (conn : Option (ℕ × TcpConnection)) :
    (closeTcpConnection sss conn).dynamicKeyTime = sss.dynamicKeyTime := by
  cases conn with
  | none => rfl
  | some conn =>
    unfold closeTcpConnection Sn.removePeerByFd
    dsimp only
    split <;> rfl

theorem closeTcpConnection_rules (sss : Sn) (conn : Option (ℕ × TcpConnection)) :
    (closeTcpConnection sss conn).rules = sss.rules := by
  cases conn with
  | none => rfl
  | some conn =>
    unfold closeTcpConnection Sn.removePeerByFd
    dsimp only
    split <;> rfl

/-- `run_sn_loop` removes the connections that have been closed. -/
def Sn.removeInactive (sss : Sn) : Sn :=
  { sss with tcpConnections := sss.tcpConnections.keep (!·.inactive) }

/-- `run_sn_loop` accepts a connection on the descriptor `fd`, after the closed ones
have been removed. -/
def World.acceptConnection (w : World) (fd : ℤ) (sock : Sock) : World :=
  let sss := w.sss.removeInactive
  { w with
    sss := { sss with tcpConnections := sss.tcpConnections.add (.accepted fd sock) }
    written := Function.update w.written fd [] }

/-! ### One packet -/

/-- `enum n2n_sn_transport_policy`. -/
inductive TransportPolicy where
  | default
  | forceRawUdp
  | preferKcp
  deriving DecidableEq

/-- `packet_transport_policy_from_flags`. -/
def packetTransportPolicyFromFlags (_flags : UInt16) : TransportPolicy := .forceRawUdp

/-- `N2N_SN_LEGACY_SAFE_UDP_SIZE`. -/
def snLegacySafeUdpSize : ℕ := 2048

/-- `LAST_SEEN_SN_INACTIVE`. -/
def lastSeenSnInactive : ℤ := 90

/-- The IPv4 address and port of a socket, as `fill_sockaddr` takes them. -/
def fillSockaddr (sock : Sock) : Sock :=
  { sock with type := 0, addr := v4Addr (sliceVec sock.addr.toList 0 4) }

/-- There is an active session of either channel with the remote socket: the lookups of
`sendto_fd`. -/
def Sn.hasKcpCtx (sss : Sn) (remote : Sock) : Bool :=
  sss.udpKcpCtrlConnections.contains remote || sss.udpKcpDataConnections.contains remote

/-- `peer_has_active_kcp`. -/
def Sn.peerHasActiveKcp (sss : Sn) (peer : PeerInfo) : Bool :=
  !sss.isTcp peer.socketFd && sss.hasKcpCtx peer.sock

namespace World

/-- `sendto`: a TCP descriptor that is not open gives an error. -/
def sendto (w : World) (fd : ℤ) (p : List UInt8) : World × SendResult :=
  let r := if w.sss.isTcp fd && !w.sss.isOpen fd then ⟨none, true⟩ else w.env.sends.head
  ({ w with
    env := { w.env with sends := w.env.sends.tail }
    written := if w.sss.isTcp fd then
        Function.update w.written fd (w.written fd ++ r.written p) else w.written }, r)

/-- `n2n_kcp_sn_send`, where there is a session for the packet. -/
def kcpSnSend (w : World) (pktsize : ℕ) : World × ℤ :=
  ({ w with env := { w.env with kcpSends := w.env.kcpSends.tail } },
    if w.env.kcpSends.head then pktsize else -1)

/-- The part of `sendto_fd` after the attempt to use KCP. -/
def sendtoFdRaw (w : World) (fd : ℤ) (pktbuf : List UInt8) : World × ℤ :=
  let (w, r) := w.sendto fd pktbuf
  if r.failed pktbuf && w.sss.isTcp fd then
    (w.setSss fun sss => closeTcpConnection sss (sss.findConn fd), -1)
  else (w, r.sent pktbuf)

/-- `sendto_fd`. -/
def sendtoFd (w : World) (fd : ℤ) (socket : Sock) (pktbuf : List UInt8)
    (policy : TransportPolicy) : World × ℤ :=
  if fd = w.sss.sock ∧ policy ≠ .forceRawUdp ∧ w.sss.hasKcpCtx socket then
    let (w, kcpSent) := w.kcpSnSend pktbuf.length
    if 0 ≤ kcpSent then (w, kcpSent) else w.sendtoFdRaw fd pktbuf
  else w.sendtoFdRaw fd pktbuf

/-- The calls of `sendto_fd` in `sendto_sock`: on TCP the length of the packet goes
first. -/
def sendFrame (w : World) (fd : ℤ) (socket : Sock) (pktbuf : List UInt8)
    (policy : TransportPolicy) : World × ℤ :=
  if w.sss.isTcp fd then
    let (w, sent) := w.sendtoFd fd socket (bytes16 (UInt16.ofNat pktbuf.length)) policy
    if sent ≤ 0 then (w, -1) else w.sendtoFd fd socket pktbuf policy
  else w.sendtoFd fd socket pktbuf policy

/-- A call of `sendto_sock` goes into the history. -/
def emit (w : World) (e : Emission) : World := { w with emitted := w.emitted ++ [e] }

/-- `sendto_sock`. -/
def sendtoSock (w : World) (target : Target) (fd : ℤ) (socket : Sock) (pkt : Pkt)
    (policy : TransportPolicy) : World × ℤ :=
  (w.emit ⟨target, socket, fd, pkt⟩).sendFrame fd socket pkt.bytes policy

/-- `sendto_peer`, to an edge of the community `comm`. -/
def sendtoPeer (w : World) (comm : ℕ) (peer : PeerInfo) (pkt : Pkt)
    (dropOversizedBusinessPacket : Bool) (policy : TransportPolicy) : World × ℤ :=
  if peer.sock.family = afInet then
    if dropOversizedBusinessPacket && peer.socketFd == w.sss.sock &&
        !w.sss.peerHasActiveKcp peer && snLegacySafeUdpSize < pkt.bytes.length then
      (w, pkt.bytes.length)
    else
      w.sendtoSock (.entry comm) (if 0 ≤ peer.socketFd then peer.socketFd else w.sss.sock)
        (fillSockaddr peer.sock) pkt policy
  else (w, -1)

/-! ### Relaying -/

/-- `HASH_ITER` over the edges of a community, with a body that may remove entries. -/
def forEdges (w : World) (comm : ℕ) (body : World → ℕ → PeerInfo → World) : World :=
  ((w.sss.edges comm).entries.map Prod.fst).foldl
    (fun w p =>
      match (w.sss.edges comm).get? p with
      | some scan => body w p scan
      | none => w) w

/-- The policy for the packet type. -/
def policyOf (cmn : Common) : TransportPolicy :=
  if cmn.pc = msgTypePacket then packetTransportPolicyFromFlags cmn.flags else .default

/-- `try_broadcast`, with `none` for a `NULL` community. -/
def tryBroadcast (w : World) (comm : Option ℕ) (cmn : Common) (srcMac : Mac)
    (fromSupernode : Bool) (pkt : Pkt) (now : ℤ) : World :=
  let fed := w.sss.federation
  let w :=
    if fromSupernode then w
    else
      w.forEdges fed fun w _ scan =>
        -- only forward to active supernodes
        if scan.lastSeen + lastSeenSnInactive > now then
          (w.sendtoPeer fed scan pkt false (policyOf cmn)).1
        else w
  match comm with
  | none => w
  | some comm =>
    w.forEdges comm fun w _ scan =>
      if scan.macAddr ≠ srcMac then
        (w.sendtoPeer comm scan pkt (cmn.pc == msgTypePacket) (policyOf cmn)).1
      else w

/-- `try_forward`. -/
def tryForward (w : World) (comm : ℕ) (cmn : Common) (dstMac : Mac) (fromSupernode : Bool)
    (pkt : Pkt) (now : ℤ) : World :=
  match (w.sss.edges comm).find? (·.hasMac dstMac) with
  | some (_, scan) => (w.sendtoPeer comm scan pkt (cmn.pc == msgTypePacket) (policyOf cmn)).1
  | none =>
    if fromSupernode then w
    else
      match (w.sss.communities.get? comm).bind fun c => c.assoc.find? (·.mac == dstMac) with
      | some (_, assoc) =>
        (w.sendtoSock (.assoc comm) w.sss.sock assoc.sock pkt
          (packetTransportPolicyFromFlags cmn.flags)).1
      | none => w.tryBroadcast none cmn w.sss.macAddr fromSupernode pkt now

end World

end N2n
