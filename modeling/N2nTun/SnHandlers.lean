import N2nTun.SnPeriodic
import N2nTun.SnReceive
import N2nTun.UpdateEdge

/-!
# The handlers of the supernode's `process_udp`

One function for each message type, from the decoding of the message to the packets it
gives rise to, and `process_udp` itself.

The history notes which packets pass the check of their time stamp without jitter: the
REGISTER, REGISTER_SUPER and UNREGISTER_SUPER messages of communities with encrypted
headers.  When an edge gets its entry, the notes for its MAC begin anew with the stamp of
the registration.

## Main definitions

* `World.findEdgeTimeStampAndVerify`, `World.checkStamp`, `World.checkFresh` — time stamps.
* `addSnToListByMacOrSock` — supernodes by MAC or by socket.
* `World.handlePacket`, `World.handleRegisterSuper`, … — the handlers.
* `World.processUdp` — a received datagram.
-/

namespace N2n

open Bytes

/-! ### Time stamps -/

namespace World

/-- Where the last valid stamp for a message is kept: in the entry of the supernode it came
from, or else in the entry of the edge with its MAC.  The community, the address and the
entry. -/
def stampHolder (w : World) (comm : ℕ) (sn : Option ℕ) (mac : Mac) : Option (ℕ × ℕ × PeerInfo) :=
  match sn with
  | some p => ((w.sss.edges w.sss.federation).get? p).map fun e => (w.sss.federation, p, e)
  | none => ((w.sss.edges comm).find? (·.hasMac mac)).map fun e => (comm, e.1, e.2)

/-- `find_edge_time_stamp_and_verify`. -/
def findEdgeTimeStampAndVerify (w : World) (comm : ℕ) (sn : Option ℕ) (mac : Mac)
    (stamp : UInt64) (allowJitter : Bool) : World × Bool :=
  let holder := w.stampHolder comm sn mac
  let (w, now) := w.timeStamp
  match holder with
  | none => (w, (timeStampVerifyAndUpdate stamp now none allowJitter).1)
  | some (c, p, e) =>
    let r := timeStampVerifyAndUpdate stamp now (some e.lastValidTimeStamp) allowJitter
    (w.setSss (·.modifyEdges c (·.modify p fun e =>
      { e with lastValidTimeStamp := r.2.getD e.lastValidTimeStamp })), r.1)

/-- The headers of the community are encrypted. -/
def isEnabled (w : World) (comm : ℕ) : Bool :=
  match w.sss.communities.get? comm with
  | some c => c.headerEncryption == .enabled
  | none => false

/-- The check of a message's stamp, if the community's headers are encrypted. -/
def checkStamp (w : World) (comm : ℕ) (d : Dispatch) (mac : Mac) (allowJitter : Bool) :
    World × Bool :=
  if w.isEnabled comm then w.findEdgeTimeStampAndVerify comm d.sn mac d.stamp allowJitter
  else (w, true)

/-- A packet from a MAC passed its check. -/
def noteAccepted (w : World) (comm : ℕ) (mac : Mac) (stamps : List UInt64) : World :=
  { w with
    accepted := Function.update w.accepted comm (Function.update (w.accepted comm) mac stamps) }

/-- The check without jitter, with a note in the history. -/
def checkFresh (w : World) (comm : ℕ) (d : Dispatch) (mac : Mac) : World × Bool :=
  match w.checkStamp comm d mac false with
  | (w, true) =>
    (if w.isEnabled comm then w.noteAccepted comm mac (w.accepted comm mac ++ [d.stamp]) else w,
      true)
  | (w, false) => (w, false)

/-- A handler goes on if the check succeeds. -/
def afterCheck (r : World × Bool) (next : World → World) : World := if r.2 then next r.1 else r.1

end World

/-! ### Peers -/

/-- `is_multi_broadcast`. -/
def isMultiBroadcast (mac : Mac) : Bool :=
  mac.toList == [0xff, 0xff, 0xff, 0xff, 0xff, 0xff] ||
    (mac.toList.take 3 == [0x01, 0x00, 0x5e] && mac.toList.getD 3 0 >>> 7 == 0) ||
    mac.toList.take 2 == [0x33, 0x33]

/-- `add_sn_to_list_by_mac_or_sock`: the list, the address of the supernode's entry and
`*skip_add` afterwards; `stamp` is the value of `initial_time_stamp`. -/
def addSnToListByMacOrSock (snList : Table PeerInfo) (sock : Sock) (mac : Mac) (skipAdd : SkipAdd)
    (stamp : UInt64) : Table PeerInfo × Option ℕ × SkipAdd :=
  match if isNullMac mac then none else snList.find? (·.hasMac mac) with
  | some (p, _) => (snList, some p, skipAdd)
  | none =>
    match snList.first? (·.sock == sock) with
    | some (p, _) =>
      (if isNullMac mac then snList else snList.rekey p (·.keyed mac),
        some p, skipAdd)
    | none =>
      if skipAdd = .add then
        (snList.add { PeerInfo.zero with
            lastValidTimeStamp := stamp
            purgeable := true
            sock := sock
            macAddr := mac
            hashKey := mac },
          some snList.next, .added)
      else (snList, none, skipAdd)

namespace World

/-- `add_sn_to_list_by_mac_or_sock` on the federation. -/
def addSn (w : World) (sock : Sock) (mac : Mac) (skipAdd : SkipAdd) :
    World × Option ℕ × SkipAdd :=
  let stamp := initialTimeStamp w.timeStamp.2
  let r := addSnToListByMacOrSock (w.sss.edges w.sss.federation) sock mac skipAdd stamp
  -- the clock is read only for a new entry
  let w := if r.2.2 = .added then w.timeStamp.1 else w
  (w.setSss fun sss => sss.modifyEdges sss.federation fun _ => r.1, r.2)

/-- A write to an entry of the federation. -/
def modifySn (w : World) (p : ℕ) (f : PeerInfo → PeerInfo) : World :=
  w.setSss fun sss => sss.modifyEdges sss.federation (·.modify p f)

/-- A peer is removed, with the connection it came over if that is TCP. -/
def dropPeer (w : World) (comm p : ℕ) (socketFd : ℤ) : World :=
  if w.sss.isTcp socketFd then
    w.setSss fun sss => closeTcpConnection sss (sss.findConn socketFd)
  else w.setSss (·.modifyEdges comm (·.del p))

/-- `update_node_supernode_association`: an association that is already there is left as it
is. -/
def updateNodeSupernodeAssociation (w : World) (comm : ℕ) (edgeMac : Mac) (sender : Sock)
    (now : ℤ) : World :=
  w.setSss (·.modifyComm comm fun c =>
    match c.assoc.find? (·.mac == edgeMac) with
    | some _ => c
    | none => { c with assoc := c.assoc.add ⟨edgeMac, sender, now⟩ })

end World

/-! ### PACKET and REGISTER -/

/-- The flags that a message gets when it is passed on for an edge. -/
def relayFlags (flags : UInt16) : UInt16 := flags ||| (flagsSocket ||| flagsFromSupernode)

/-- `N2N_SPECK_IVEC_SIZE`. -/
def speckIvecSize : ℕ := 16

namespace World

/-- How much of a payload of `n` bytes is encrypted with the header: the start of it in
communities with users. -/
def ivLen (w : World) (comm n : ℕ) : ℕ :=
  match w.sss.communities.get? comm with
  | some c => if c.hasUsers then min n speckIvecSize else 0
  | none => 0

/-- The packet `rec_buf` that a PACKET is passed on as: with the socket of the sender, or, if
it comes from a supernode, as it is. -/
def packetToForward (w : World) (rx : Rx) (d : Dispatch) (comm : ℕ) (m : Decoded Packet) :
    World × Pkt :=
  if d.isFromSn then
    w.sealDynamic comm d.udpBuf (m.cur.idx + w.ivLen comm (d.udpBuf.length - m.cur.idx))
  else
    let cmn2 := { d.cmn with flags := relayFlags d.cmn.flags }
    let head := encodePacket (encodeStart []) cmn2 { m.out with sock := rx.sender }
    let payload := d.udpBuf.drop m.cur.idx
    w.sealDynamic comm (encodeBuf head payload).bytes (head.idx + w.ivLen comm payload.length)

/-- `MSG_TYPE_PACKET`. -/
def handlePacket (w : World) (rx : Rx) (d : Dispatch) (comm : ℕ) : World :=
  let m := decodePacket d.cmn d.udpBuf d.cur
  afterCheck (w.checkStamp comm d m.out.srcMac true) fun w =>
    let (w, pkt) := w.packetToForward rx d comm m
    if isMultiBroadcast m.out.dstMac then
      w.tryBroadcast (some comm) d.cmn m.out.srcMac d.isFromSn pkt rx.now
    else w.tryForward comm d.cmn m.out.dstMac d.isFromSn pkt rx.now

/-- `MSG_TYPE_REGISTER`. -/
def handleRegister (w : World) (rx : Rx) (d : Dispatch) (comm : ℕ) : World :=
  let reg := (decodeRegister d.cmn d.udpBuf d.cur).out
  afterCheck (w.checkFresh comm d reg.srcMac) fun w =>
    if isMultiBroadcast reg.dstMac then w
    else
      let plain :=
        if d.isFromSn then d.udpBuf
        else
          (encodeRegister (encodeStart []) { d.cmn with flags := relayFlags d.cmn.flags }
            { reg with sock := rx.sender }).bytes
      let (w, pkt) := w.sealDynamic comm plain plain.length
      w.tryForward comm d.cmn reg.dstMac d.isFromSn pkt rx.now

end World

/-! ### REGISTER_SUPER -/

/-- The loops over `sss->rules`: some rule matches the whole name. -/
def Sn.allowsCommunity (sss : Sn) (name : CommunityName) : Bool :=
  sss.rules.any fun re =>
    let m := re.matchp (cstr name.toList)
    m.2 == (cstr name.toList).length && m.1 == 0

/-- The name that `comm_init` stores. -/
def commInitName (cmn : List UInt8) : CommunityName :=
  let s := (cstr cmn).take (communitySize - 1)
  ⟨s ++ List.replicate (communitySize - s.length) 0, by
    have h : s.length ≤ 19 := by simp [s, communitySize]
    simp [communitySize]
    omega⟩

/-- A community that a registration brings up: it has plain headers and may be purged. -/
def newCommunity (cmn : CommunityName) : Community :=
  { Community.zero with
    community := commInitName cmn.toList
    key := cstr (commInitName cmn.toList).toList
    headerEncryption := .none
    purgeable := true }

/-- `assign_one_ip_subnet`.  A search without end leaves the community without a
sub-network here. -/
def Sn.withSubnet (sss : Sn) (comm : ℕ) (name : CommunityName) : Sn :=
  let net := (sss.assignOneIpSubnet comm name).getD ⟨0, 0⟩
  sss.modifyComm comm fun c => { c with autoIpNet := net }

/-- The table with a new community. -/
def Sn.addCommunity (sss : Sn) (cmn : CommunityName) : Sn :=
  let sss' := { sss with communities := sss.communities.add (newCommunity cmn) }
  sss'.withSubnet sss.communities.next (newCommunity cmn).community

/-- The community of a registration, which is brought up if that is allowed. -/
def Sn.provideCommunity (sss : Sn) (d : Dispatch) : Sn × Option ℕ :=
  match d.comm with
  | some comm => (sss, some comm)
  | none =>
    if sss.lockCommunities && !sss.allowsCommunity d.cmn.community then (sss, none)
    else (sss.addCommunity d.cmn.community, some sss.communities.next)

/-- The check of the hash that ends a user's registration: `none` if it fails, else
`hash_buf` and the user. -/
def checkHash (comm : Community) (d : Dispatch) (reg : RegisterSuper) :
    Option (List UInt8 × Option SnUser) :=
  if comm.hasUsers then
    match comm.findUser reg.auth.token with
    | some user =>
      let hashBuf := speck128Encrypt d.hashBuf user.sharedSecretCtx
      if slice d.udpBuf (d.udpBuf.length - regSupHashCheckLen) regSupHashCheckLen = hashBuf then
        some (hashBuf, some user)
      else none
    | none => some (d.hashBuf, none)
  else some (d.hashBuf, none)

/-- The registration asks for an address. -/
def asksAddress (reg : RegisterSuper) : Bool :=
  reg.devAddr.netAddr == 0 || reg.devAddr.netAddr == 0xffffffff || reg.devAddr.netBitlen == 0 ||
    reg.devAddr.netAddr &&& 0xffff0000 == 0xa9fe0000

/-- An address for the edge: `assign_one_ip_addr` sorts the edges.  A search without end
gives no address here. -/
def Sn.autoAddress (sss : Sn) (comm : ℕ) (reg : RegisterSuper) (success : Bool) : Sn × IpSubnet :=
  match sss.communities.get? comm with
  | some c =>
    if !c.isFederation && asksAddress reg then
      let edges := c.edges.sort peerTapIpLe
      (sss.modifyEdges comm (·.sort peerTapIpLe),
        (assignOneIpAddr edges c.autoIpNet reg.devDesc success).getD ⟨0, 0⟩)
    else (sss, ⟨0, 0⟩)
  | none => (sss, ⟨0, 0⟩)

/-- An entry of the list of supernodes in a REGISTER_SUPER_ACK. -/
def payloadEntry (peer : PeerInfo) : List UInt8 :=
  (encodeSockPayload (encodeStart []) peer.sock).bytes ++ peer.macAddr.toList

/-- The list of supernodes: `num` and `payload_buf`, of which `num` entries have been
written.  The count includes the entry that no longer fits. -/
def assemblePayload (sender : Sock) (now : ℤ) :
    List PeerInfo → ℕ → ℕ → List UInt8 → ℕ × List UInt8
  | [], _, num, buf => (num, buf)
  | _ :: rest, skip + 1, num, buf => assemblePayload sender now rest skip num buf
  | peer :: rest, 0, num, buf =>
    if peer.sock.family = afInvalid ∨ peer.sock = sender ∨ now - peer.lastSeen ≥ lastSeenSnNew then
      assemblePayload sender now rest 0 num buf
    else if (num + 1) * regSuperAckPayloadEntrySize > regSuperAckPayloadSpace then (num + 1, buf)
    else
      assemblePayload sender now rest 0 (num + 1)
        (overwrite buf (num * regSuperAckPayloadEntrySize) (payloadEntry peer))

/-- `skip_add` for a registration. -/
def skipAddFor (d : Dispatch) (reg : RegisterSuper) : SkipAdd :=
  if d.isFromSn || isNullMac reg.edgeMac then .skip else .add

/-- `reg_lifetime`. -/
def regLifetime : UInt16 := 15

/-- The common part of an answer. -/
def answerCommon (d : Dispatch) (pc : UInt8) (flags : UInt16) : Common :=
  ⟨defaultTtl, pc, flags, d.cmn.community⟩

namespace World

/-- A supernode registers: it is added to the federation, or its entry is updated. -/
def registerSn (w : World) (rx : Rx) (reg : RegisterSuper) : World :=
  match w.addSn rx.sender reg.edgeMac .add with
  | (w, some p, _) =>
    w.modifySn p fun e => { e with lastSeen := rx.now, socketFd := w.sss.sock }
  | (w, none, _) => w

/-- The list of supernodes for an edge, after a random number of them has been skipped. -/
def supernodeList (w : World) (rx : Rx) : World × ℕ × List UInt8 :=
  let peers := (w.sss.edges w.sss.federation).values
  let (w, skip) := if peers.length < 1 then (w, 0) else w.randSqr
  (w, assemblePayload rx.sender rx.now peers skip 0 rx.stack.payloadBuf)

/-- The call of `update_edge`: it may add an entry for a registration that comes from an edge
and is no request for an address. -/
def callUpdateEdge (w : World) (rx : Rx) (d : Dispatch) (c : Community) (reg : RegisterSuper) :
    UpdateEdge :=
  updateEdge w.sss d.cmn reg c rx.sender rx.socketFd Auth.zero (skipAddFor d reg)
    (initialTimeStamp w.timeStamp.2) rx.now

/-- `update_edge` on the community at `comm`.  If the MAC of the registration gets an
entry, the history for this MAC begins anew. -/
def updateEdgeAt (w : World) (rx : Rx) (d : Dispatch) (comm : ℕ) (c : Community)
    (reg : RegisterSuper) : World × UpdateEdgeRet × Auth :=
  let r := w.callUpdateEdge rx d c reg
  let known := (c.edges.find? (·.hasMac reg.edgeMac)).isSome
  -- the clock is read only for a new entry
  let w := if r.ret = .newSn ∧ skipAddFor d reg = .add then w.timeStamp.1 else w
  let w := w.setSss (·.modifyEdges comm fun _ => r.edges)
  let w :=
    if !known && (r.edges.find? (·.hasMac reg.edgeMac)).isSome then
      w.noteAccepted comm reg.edgeMac [d.stamp]
    else w
  (w, r.ret, r.answer)

/-- A registration or its answer under the static key, with a hash that is encrypted for
the user where there are users. -/
def sealHashed (w : World) (comm : ℕ) (plain : List UInt8) (user : Option SnUser) : World × Pkt :=
  let (w, pkt) := w.sealStatic comm plain
  match w.sss.communities.get? comm, user with
  | some c, some user =>
    if c.headerEncryption = .enabled ∧ c.hasUsers then
      (w, { pkt with
        bytes := pkt.bytes ++
          slice (speck128Encrypt (pearsonHash128 pkt.bytes) user.sharedSecretCtx) 0
            regSupHashCheckLen })
    else (w, pkt)
  | _, _ => (w, pkt)

/-- A NAK under the static key, with 16 more bytes where there are users. -/
def sealNak (w : World) (comm : ℕ) (plain hashBuf : List UInt8) : World × Pkt :=
  let (w, pkt) := w.sealStatic comm plain
  match w.sss.communities.get? comm with
  | some c =>
    if c.headerEncryption = .enabled ∧ c.hasUsers then
      (w, { pkt with bytes := pkt.bytes ++ slice hashBuf 0 regSupHashCheckLen })
    else (w, pkt)
  | none => (w, pkt)

/-- A packet goes back to where the received one came from. -/
def replySock (w : World) (rx : Rx) (pkt : Pkt) : World :=
  (w.sendtoSock .sender rx.socketFd rx.sender pkt .default).1

/-- The registration has failed. -/
def nakRegistration (w : World) (rx : Rx) (d : Dispatch) (comm : ℕ) (reg : RegisterSuper)
    (hashBuf : List UInt8) : World :=
  let cmn2 := answerCommon d msgTypeRegisterSuperNak (flagsSocket ||| flagsFromSupernode)
  let nak : RegisterSuperNak := ⟨reg.cookie, reg.edgeMac, Auth.zero⟩
  let (w, pkt) :=
    w.sealNak comm (encodeRegisterSuperNak (encodeStart []) cmn2 nak).bytes hashBuf
  w.replySock rx pkt

/-- The registration is passed on to all other supernodes, unless it only asks for an
address. -/
def forwardRegistration (w : World) (rx : Rx) (d : Dispatch) (comm : ℕ) (reg : RegisterSuper)
    (user : Option SnUser) : World :=
  if isNullMac reg.edgeMac then w
  else
    let cmn2 := answerCommon d msgTypeRegisterSuper (flagsSocket ||| flagsFromSupernode)
    let (w, pkt) := w.sealHashed comm
      (encodeRegisterSuper (encodeStart []) cmn2 { reg with sock := rx.sender }).bytes user
    w.tryBroadcast none d.cmn reg.edgeMac d.isFromSn pkt rx.now

/-- The key time of the federation: a later one is taken over.  The key time for the answer
comes with it. -/
def keyTimeHandling (w : World) (c : Community) (keyTime : UInt32) : World × UInt32 :=
  if c.isFederation then
    let w := w.takeKeyTime keyTime
    (w, w.sss.dynamicKeyTime)
  else (w, 0)

/-- The registration is passed on and answered. -/
def ackRegistration (w : World) (rx : Rx) (d : Dispatch) (comm : ℕ) (c : Community)
    (reg : RegisterSuper) (user : Option SnUser) (ack : RegisterSuperAck)
    (payloadBuf : List UInt8) : World :=
  let w := w.forwardRegistration rx d comm reg user
  let (w, keyTime) := w.keyTimeHandling c reg.keyTime
  let cmn2 := answerCommon d msgTypeRegisterSuperAck (flagsSocket ||| flagsFromSupernode)
  let plain :=
    (encodeRegisterSuperAck (encodeStart []) cmn2 { ack with keyTime := keyTime } payloadBuf).bytes
  let (w, pkt) := w.sealHashed comm plain user
  w.replySock rx pkt

/-- An edge has registered with another supernode. -/
def associateEdge (w : World) (rx : Rx) (comm : ℕ) (reg : RegisterSuper) : World :=
  let w := w.updateNodeSupernodeAssociation comm reg.edgeMac rx.sender rx.now
  match (w.sss.edges comm).find? (·.hasMac reg.edgeMac) with
  | some (p, peer) => w.dropPeer comm p peer.socketFd
  | none => w

/-- What follows once the result of `update_edge` is known. -/
def finishRegistration (w : World) (rx : Rx) (d : Dispatch) (comm : ℕ) (c : Community)
    (reg : RegisterSuper) (hash : List UInt8 × Option SnUser) (ret : UpdateEdgeRet)
    (ack : RegisterSuperAck) (payloadBuf : List UInt8) : World :=
  if ret = .authFail then w.nakRegistration rx d comm reg hash.1
  else if d.cmn.flags &&& flagsFromSupernode = 0 ∨ d.cmn.flags &&& flagsSocket = 0 then
    w.ackRegistration rx d comm c reg hash.2 ack payloadBuf
  else w.associateEdge rx comm reg

/-- The answer to a registration, before `update_edge` has filled in the authentication. -/
def ackOf (w : World) (rx : Rx) (reg : RegisterSuper) (addr : IpSubnet) (num : ℕ) :
    RegisterSuperAck :=
  ⟨reg.cookie, w.sss.macAddr, addr, regLifetime, rx.sender, Auth.zero, UInt8.ofNat num, 0⟩

/-- The registration of a supernode, which needs no authentication. -/
def registerSupernode (w : World) (rx : Rx) (d : Dispatch) (comm : ℕ) (c : Community)
    (reg : RegisterSuper) (hash : List UInt8 × Option SnUser) (addr : IpSubnet) : World :=
  let w := w.registerSn rx reg
  let (w, num, payloadBuf) := w.supernodeList rx
  w.finishRegistration rx d comm c reg hash .noChange (w.ackOf rx reg addr num) payloadBuf

/-- The registration of an edge. -/
def registerEdge (w : World) (rx : Rx) (d : Dispatch) (comm : ℕ) (c : Community)
    (reg : RegisterSuper) (hash : List UInt8 × Option SnUser) (addr : IpSubnet) : World :=
  let (w, num, payloadBuf) := w.supernodeList rx
  match w.sss.communities.get? comm with
  | none => w
  | some c' =>
    let ack := w.ackOf rx reg addr num
    let (w, ret, answer) := w.updateEdgeAt rx d comm c' reg
    w.finishRegistration rx d comm c reg hash ret { ack with auth := answer } payloadBuf

/-- A REGISTER_SUPER that is neither too old nor for a community that is not allowed. -/
def acceptRegistration (w : World) (rx : Rx) (d : Dispatch) (comm : ℕ) (reg : RegisterSuper) :
    World :=
  match w.sss.communities.get? comm with
  | none => w
  | some c =>
    match checkHash c d reg with
    | none => w
    | some hash =>
      if reg.edgeMac = w.sss.macAddr then w
      else
        let (sss, addr) := w.sss.autoAddress comm reg rx.stack.success
        let w : World := { w with sss := sss }
        if c.isFederation then w.registerSupernode rx d comm c reg hash addr
        else w.registerEdge rx d comm c reg hash addr

/-- `MSG_TYPE_REGISTER_SUPER`. -/
def handleRegisterSuper (w : World) (rx : Rx) (d : Dispatch) : World :=
  let reg := (decodeRegisterSuper d.cmn d.udpBuf d.cur).out
  let checked :=
    match d.comm with
    | some comm => w.checkFresh comm d reg.edgeMac
    | none => (w, true)
  afterCheck checked fun w =>
    match w.sss.provideCommunity d with
    | (_, none) => w
    | (sss, some comm) => World.acceptRegistration { w with sss := sss } rx d comm reg

/-! ### UNREGISTER_SUPER and the answers to registrations -/

/-- `MSG_TYPE_UNREGISTER_SUPER`.  The flag for messages of supernodes is compared with 1,
which it never is. -/
def handleUnregisterSuper (w : World) (d : Dispatch) (comm : ℕ) : World :=
  match w.sss.communities.get? comm with
  | none => w
  | some c =>
    if d.fromSupernode = 1 ∨ c.isFederation then w
    else
      let unreg := (decodeUnregisterSuper d.udpBuf d.cur).out
      afterCheck (w.checkFresh comm d unreg.srcMac) fun w =>
        match (w.sss.edges comm).find? (·.hasMac unreg.srcMac) with
        | none => w
        | some (p, peer) =>
          if (authEdge peer.auth unreg.auth Auth.zero c).1 then w.dropPeer comm p peer.socketFd
          else w

/-- One supernode from the list of a REGISTER_SUPER_ACK; `payload_sock` is what the
previous one has left. -/
def learnSn (payloadSock : Sock) (dec : List UInt8) (now : ℤ) (w : World) (i : ℕ) : World × Sock :=
  let entry := slice dec (i * regSuperAckPayloadEntrySize) regSuperAckPayloadEntrySize
  let sock := (decodeSockPayload payloadSock entry ⟨20, 0⟩).out
  match w.addSn sock (sliceVec entry 20 6) .add with
  | (w, some p, skipAdd) =>
    (w.modifySn p fun e =>
      { e with
        socketFd := w.sss.sock
        lastSeen := if skipAdd = .added then now - lastSeenSnNew else e.lastSeen }, sock)
  | (w, none, _) => (w, sock)

/-- The list of supernodes of a REGISTER_SUPER_ACK. -/
def learnSns (w : World) (rx : Rx) (dec : List UInt8) (numSn : ℕ) : World :=
  ((List.range numSn).foldl (fun s i => learnSn s.2 dec rx.now s.1 i) (w, rx.stack.payloadSock)).1

/-- `MSG_TYPE_REGISTER_SUPER_ACK`: only between supernodes. -/
def handleRegisterSuperAck (w : World) (rx : Rx) (d : Dispatch) (comm : ℕ) : World :=
  match w.sss.communities.get? comm with
  | none => w
  | some c =>
    if d.fromSupernode = 0 ∨ c.isFederation = false then w
    else
      let (ack, dec) := (decodeRegisterSuperAck d.udpBuf d.cur rx.stack.decTmpbuf).out
      afterCheck (w.checkStamp comm d ack.srcMac false) fun w =>
        match w.addSn rx.sender ack.srcMac .skip with
        | (w, none, _) => w
        | (w, some p, _) =>
          let w := w.modifySn p fun e => { e with lastSeen := rx.now }
          match (w.sss.edges w.sss.federation).get? p with
          | none => w
          | some scan =>
            if ack.cookie = scan.lastCookie then
              (w.learnSns rx dec ack.numSn.toNat).takeKeyTime ack.keyTime
            else w

/-- `MSG_TYPE_REGISTER_SUPER_NAK`: it is passed on to the edge, whose entry is removed.  If
the packet could not be sent, the entry is gone already, and its memory is read once more. -/
def handleRegisterSuperNak (w : World) (d : Dispatch) (comm : ℕ) : World :=
  let nak := (decodeRegisterSuperNak d.udpBuf d.cur).out
  afterCheck (w.checkStamp comm d nak.srcMac false) fun w =>
    match w.sss.communities.get? comm with
    | none => w
    | some c =>
      match c.isFederation, c.edges.find? (·.hasMac nak.srcMac) with
      | false, some (p, peer) =>
        let (w, pkt) :=
          w.sealNak comm (encodeRegisterSuperNak (encodeStart []) d.cmn nak).bytes d.hashBuf
        let (w, _) := w.sendtoPeer comm peer pkt false .default
        w.dropPeer comm p peer.socketFd
      | _, _ => w

/-! ### QUERY_PEER and PEER_INFO -/

/-- `sn_selection_criterion_gather_data`, cut to the 32 bits of the field it goes to. -/
def gatherData (w : World) : UInt32 :=
  let data := (w.sss.communities.values.map fun c =>
    let tmp := c.edges.entries.length + 1
    if c.headerEncryption = .enabled then tmp * 2 else tmp).sum
  -- `htobe64`
  (be64At (leBytes64 (UInt64.ofNat data)) 0).toUInt32

/-- The answer to a PING. -/
def pong (w : World) (rx : Rx) (query : QueryPeer) : PeerInfoMsg :=
  let version := cstr w.sss.version.toList
  { rx.stack.pi with
    aflags := 0
    mac := query.targetMac
    srcMac := w.sss.macAddr
    sock := rx.sender
    load := w.gatherData
    -- `snprintf` ends the text, and leaves the bytes behind it alone
    version := sliceVec
      (overwrite rx.stack.pi.version.toList 0 ((version.take 19) ++ [0])) 0 20
    uptime := UInt64.ofInt (rx.now - w.sss.startTime) }

/-- The answer to a query for the edge `scan`. -/
def peerAnswer (rx : Rx) (query : QueryPeer) (scan : PeerInfo) : PeerInfoMsg :=
  { rx.stack.pi with
    aflags := 0
    srcMac := query.srcMac
    mac := query.targetMac
    sock := scan.sock
    preferredSock :=
      if scan.preferredSock.family ≠ afInvalid then scan.preferredSock
      else rx.stack.pi.preferredSock }

/-- A header is encrypted if there is a community and it uses this. -/
def sealIf (w : World) (comm : Option ℕ) (plain : List UInt8) : World × Pkt :=
  match comm with
  | some comm => w.sealDynamic comm plain plain.length
  | none => (w, .ofPlain plain)

/-- A PING is answered, whether or not there is a community. -/
def answerPing (w : World) (rx : Rx) (d : Dispatch) (query : QueryPeer) : World :=
  let cmn2 := answerCommon d msgTypePeerInfo flagsFromSupernode
  let (w, pkt) := w.sealIf d.comm (encodePeerInfo (encodeStart []) cmn2 (w.pong rx query)).bytes
  w.replySock rx pkt

/-- A query for an edge is answered, or passed on to all other supernodes. -/
def answerQuery (w : World) (rx : Rx) (d : Dispatch) (comm : ℕ) (query : QueryPeer) : World :=
  match (w.sss.edges comm).find? (·.hasMac query.targetMac) with
  | some (_, scan) =>
    let flags :=
      if scan.preferredSock.family ≠ afInvalid then flagsFromSupernode ||| flagsSocket
      else flagsFromSupernode
    let plain :=
      (encodePeerInfo (encodeStart []) (answerCommon d msgTypePeerInfo flags)
        (peerAnswer rx query scan)).bytes
    let (w, pkt) := w.sealDynamic comm plain plain.length
    w.replySock rx pkt
  | none =>
    if d.isFromSn then w
    else
      let cmn2 := { d.cmn with flags := d.cmn.flags ||| flagsFromSupernode }
      let plain := (encodeQueryPeer (encodeStart []) cmn2 query).bytes
      let (w, pkt) := w.sealDynamic comm plain plain.length
      w.tryBroadcast none d.cmn query.srcMac d.isFromSn pkt rx.now

/-- `MSG_TYPE_QUERY_PEER`. -/
def handleQueryPeer (w : World) (rx : Rx) (d : Dispatch) : World :=
  if d.comm.isNone && w.sss.lockCommunities && !w.sss.allowsCommunity d.cmn.community then w
  else
    let query := (decodeQueryPeer d.udpBuf d.cur).out
    let checked :=
      match d.comm with
      | some comm => w.checkStamp comm d query.srcMac true
      | none => (w, true)
    afterCheck checked fun w =>
      if isNullMac query.targetMac then w.answerPing rx d query
      else
        match d.comm with
        | none => w
        | some comm => w.answerQuery rx d comm query

/-- `MSG_TYPE_PEER_INFO`: it is passed on to the edge that has asked. -/
def handlePeerInfo (w : World) (rx : Rx) (d : Dispatch) (comm : ℕ) : World :=
  let pi := (decodePeerInfo d.cmn d.udpBuf d.cur).out
  afterCheck (w.checkStamp comm d pi.srcMac false) fun w =>
    match w.sss.communities.get? comm with
    | none => w
    | some c =>
      match c.edges.find? (·.hasMac pi.srcMac) with
      | some (_, peer) =>
        if c.isFederation || isNullMac pi.srcMac then w
        else
          let w := w.updateNodeSupernodeAssociation comm pi.mac rx.sender rx.now
          let plain := (encodePeerInfo (encodeStart []) d.cmn pi).bytes
          let (w, pkt) := w.sealDynamic comm plain plain.length
          (w.sendtoPeer comm peer pkt false .default).1
      | none => w

/-! ### All messages -/

/-- The `switch` of `process_udp`. -/
def dispatch (w : World) (rx : Rx) (d : Dispatch) : World :=
  if d.cmn.pc = msgTypeRegisterSuper then w.handleRegisterSuper rx d
  else if d.cmn.pc = msgTypeQueryPeer then w.handleQueryPeer rx d
  else
    match d.comm with
    | none => w
    | some comm =>
      if d.cmn.pc = msgTypePacket then w.handlePacket rx d comm
      else if d.cmn.pc = msgTypeRegister then w.handleRegister rx d comm
      else if d.cmn.pc = msgTypeUnregisterSuper then w.handleUnregisterSuper d comm
      else if d.cmn.pc = msgTypeRegisterSuperAck then w.handleRegisterSuperAck rx d comm
      else if d.cmn.pc = msgTypeRegisterSuperNak then w.handleRegisterSuperNak d comm
      else if d.cmn.pc = msgTypePeerInfo then w.handlePeerInfo rx d comm
      else w

/-- The supernode after the first stage of `process_udp`. -/
def opened (w : World) (rx : Rx) : World := { w with sss := (w.sss.openHeader rx).1 }

/-- The message that `process_udp` dispatches, if it gets so far. -/
def dispatched (w : World) (rx : Rx) : Option Dispatch :=
  match (w.sss.openHeader rx).2 with
  | .accepted o => (w.opened rx).sss.toDispatch rx.sender o
  | _ => none

/-- `process_udp`. -/
def processUdp (w : World) (rx : Rx) : World :=
  match w.dispatched rx with
  | some d => (w.opened rx).dispatch rx d
  | none => w.opened rx

end World

end N2n
