import N2nTun.EdgeState

/-!
# The edge's `process_udp`

The messages that concern the registration with a supernode.  A received packet is tried
with the dynamic key and then with the static one; only on the way to the second trial is the
hash taken that a REGISTER_SUPER_ACK is checked against.

## Main definitions

* `EdgeRx` — the arguments of `process_udp` and what its automatic variables hold at first.
* `EdgeConf.openHeader`, `Edge.toDispatch` — up to the `switch`.
* `Edge.handleRegisterSuperAck`, `Edge.handleRegisterSuperNak`, … — the handlers.
* `Edge.processRegistration` — `process_udp` for these messages.
-/

namespace N2n

open Bytes

/-- The arguments of `process_udp`, and what `hash_buf`, `tmpbuf` and `payload_sock` hold
before they are set. -/
structure EdgeRx where
  sender : Sock
  inSock : ℤ
  udpBuf : List UInt8
  now : ℤ
  hashBuf : List UInt8
  tmpbuf : List UInt8
  payloadSock : Sock

/-- A packet after its header has been dealt with. -/
structure EdgeOpened where
  headerEnc : HeaderEnc
  udpBuf : List UInt8
  stamp : UInt64
  hashBuf : List UInt8
  deriving DecidableEq

/-- The header of a received packet. -/
def EdgeConf.openHeader (conf : EdgeConf) (rx : EdgeRx) : Option EdgeOpened :=
  if conf.headerEncryption then
    match conf.keys.ctxDynamic, conf.keys.ivDynamic with
    | some ctx, some iv =>
      let d := packetHeaderDecrypt rx.udpBuf (UInt16.ofNat rx.udpBuf.length)
        conf.communityName.toList ctx iv 0
      if d.ok then some ⟨.byDynamic, d.packet, d.stamp, rx.hashBuf⟩
      else
        match conf.keys.ctxStatic, conf.keys.ivStatic with
        | some ctx, some iv =>
          let size := rx.udpBuf.length - regSupHashCheckLen
          let hashBuf :=
            if conf.sharedSecret.isSome then pearsonHash128 (slice d.packet 0 size)
            else rx.hashBuf
          let d := packetHeaderDecrypt d.packet (UInt16.ofNat size) conf.communityName.toList ctx iv
            d.stamp
          if d.ok then some ⟨.byStatic, d.packet, d.stamp, hashBuf⟩ else none
        | _, _ => none
    | _, _ => none
  else some ⟨.plain, rx.udpBuf, 0, rx.hashBuf⟩

/-- A message on its way to its handler. -/
structure EdgeDispatch where
  headerEnc : HeaderEnc
  stamp : UInt64
  udpBuf : List UInt8
  hashBuf : List UInt8
  cmn : Common
  cur : Cursor
  sender : Sock
  sn : Option ℕ
  deriving DecidableEq

/-- `is_valid_peer_sock`. -/
def isValidPeerSock (sock : Sock) : Bool :=
  if sock.family = afInet then sock.addr.toList.take 4 != [127, 0, 0, 1]
  else if sock.family = afInet6 then sock.addr.toList != List.replicate 15 0 ++ [1]
  else false

namespace Edge

/-- `process_udp` from the decoding of the common part up to the `switch`. -/
def toDispatch (e : Edge) (rx : EdgeRx) (o : EdgeOpened) : Option EdgeDispatch :=
  let common := decodeCommon Common.zero o.udpBuf ⟨o.udpBuf.length, 0⟩
  if common.ret < 0 then none
  else
    let cmn := common.out
    if e.conf.sharedSecret.isSome && cmn.pc != msgTypeRegisterSuperAck &&
        cmn.pc != msgTypeRegisterSuperNak && o.headerEnc != .byDynamic then none
    else
      let sender :=
        if 0 ≤ e.transport.tcpSock ∧ rx.inSock = e.transport.tcpSock then e.sn.sock else rx.sender
      let fromSn := cmn.flags &&& flagsFromSupernode != 0
      let sn := (addSnToListByMacOrSock e.supernodes sender nullMac .skip 0).2.1
      if fromSn && sn.isNone then none
      else if cmn.community ≠ e.conf.communityName then none
      else
        some
          { headerEnc := o.headerEnc
            stamp := o.stamp
            udpBuf := o.udpBuf
            hashBuf := o.hashBuf
            cmn := cmn
            cur := common.cur
            sender := sender
            sn := if fromSn then sn else none }

/-- The message that is dispatched, if there is one. -/
def dispatched (e : Edge) (rx : EdgeRx) : Option EdgeDispatch :=
  (e.conf.openHeader rx).bind (e.toDispatch rx)

/-- The check of the stamp, if headers are encrypted. -/
def checkStamp (e : Edge) (d : EdgeDispatch) (mac : Mac) (allowJitter : Bool) : Edge × Bool :=
  if e.conf.headerEncryption then e.findPeerTimeStampAndVerify d.sn mac d.stamp allowJitter
  else (e, true)

/-- A handler goes on if the check succeeds. -/
def afterCheck (r : Edge × Bool) (next : Edge → Edge) : Edge := if r.2 then next r.1 else r.1

/-- A sign of life of a supernode. -/
def supernodeSeen (e : Edge) (now : ℤ) : Edge :=
  { e with
    lastSup := now
    lastUdpSup := if e.currentSupernodeRxTransport = .udp then now else e.lastUdpSup }

/-! ### REGISTER_SUPER_ACK -/

/-- The check of the hash: the last bytes have to be `hash_buf`, encrypted. -/
def checkHash (e : Edge) (d : EdgeDispatch) : Bool :=
  e.conf.sharedSecret.isNone ||
    slice d.udpBuf (d.udpBuf.length - regSupHashCheckLen) regSupHashCheckLen ==
      speck128Encrypt d.hashBuf e.conf.sharedSecretCtx

/-- One supernode from the list. -/
def learnSn (tmpbuf : List UInt8) (r : Edge × Sock) (i : ℕ) : Edge × Sock :=
  let (e, payloadSock) := r
  let entry := slice tmpbuf (i * regSuperAckPayloadEntrySize) regSuperAckPayloadEntrySize
  let sock := (decodeSockPayload payloadSock entry ⟨20, 0⟩).out
  -- the clock is read only for a new entry
  let (clock, stamp) := e.timeStamp
  let r := addSnToListByMacOrSock e.supernodes sock (sliceVec entry 20 6) .add
    (initialTimeStamp stamp)
  let e := if r.2.2 = .added then clock else e
  ({ e with supernodes := r.1 }, sock)

/-- A gratuitous ARP, as far as the transport is concerned. -/
def sendGratArp (e : Edge) : Edge :=
  let e := if e.conf.headerEncryption then e.timeStamp.1.rand.1 else e
  if e.tcpFallbackIsEstablishing then e
  else if e.transport.snWait ≠ 0 then
    (e.knownPeers.values.map (·.sock)).foldl sendtoSock e
  else e.sendtoSock e.sn.sock

/-- `curr_sn` gets the MAC of the supernode, if it has none: it is taken out of the table and
put back. -/
def adoptMac (e : Edge) (mac : Mac) : Edge :=
  if isNullMac e.sn.macAddr then
    { e with supernodes := e.supernodes.rekey e.currSn (·.keyed mac) }
  else e

/-- The registration is done. -/
def endRequest (t : EdgeTransport) : EdgeTransport :=
  resetSupAttempts (edgeResetRegisterSuperRequest { t with
    snWait := 0
    registerFastRetryCount := 0
    tcpRegisterSoftRetryBudget := 0
    registerSuperSoftRetryArmed := false })

/-- What an accepted REGISTER_SUPER_ACK leads to. -/
def acceptAck (e : Edge) (rx : EdgeRx) (ra : RegisterSuperAck) (tmpbuf : List UInt8) : Edge :=
  let e := { e with closeSocketCounter := 0 }
  let e := if e.transport.tcpFallbackActive ∧ 0 ≤ e.transport.udpSock ∧
      rx.inSock = e.transport.udpSock then e.onTransport edgeMarkUdpRecovered else e
  let e := e.adoptMac ra.srcMac
  let e := ((List.range ra.numSn.toNat).foldl (learnSn tmpbuf) (e, rx.payloadSock)).1
  let e := e.onTransport endRequest
  if isNullMac e.macAddr then e
  else
    let e := if e.lastSup = 0 then e.sendGratArp.sendGratArp else e
    e.supernodeSeen rx.now

/-- `MSG_TYPE_REGISTER_SUPER_ACK`. -/
def handleRegisterSuperAck (e : Edge) (rx : EdgeRx) (d : EdgeDispatch) : Edge :=
  let (ra, tmpbuf) := (decodeRegisterSuperAck d.udpBuf d.cur rx.tmpbuf).out
  if e.transport.snWait = 0 then e
  else
    afterCheck (e.checkStamp d ra.srcMac false) fun e =>
      if !e.checkHash d then e
      else if ra.cookie ≠ e.sn.lastCookie then e
      else
        match e.conf.handleRemoteAuth ra.auth with
        | (false, _) => e
        | (true, conf) => acceptAck { e with conf := conf } rx ra tmpbuf

/-! ### The other messages of supernodes -/

/-- `MSG_TYPE_REGISTER_SUPER_NAK`. -/
def handleRegisterSuperNak (e : Edge) (d : EdgeDispatch) : Edge :=
  if e.transport.snWait = 0 then e
  else
    let nak := (decodeRegisterSuperNak d.udpBuf d.cur).out
    afterCheck (e.checkStamp d nak.srcMac false) fun e =>
      if nak.cookie ≠ e.sn.lastCookie then e else e.onTransport edgeResetRegisterSuperRequest

/-- `MSG_TYPE_RE_REGISTER_SUPER`. -/
def handleReRegisterSuper (e : Edge) (d : EdgeDispatch) : Edge :=
  afterCheck (e.checkStamp d nullMac false) fun e =>
    if e.conf.sharedSecret.isNone then e else e.onTransport fun t => { t with snWait := 2 }

/-- The socket of a peer is learned, and the edge registers there. -/
def learnPeer (e : Edge) (cmn : Common) (pi : PeerInfoMsg) (now : ℤ)
    (store : Edge → (EdgePeer → EdgePeer) → Edge) : Edge :=
  let e := e.supernodeSeen now
  let e := store e fun peer => { peer with sock := pi.sock }
  let e := if cmn.flags &&& flagsSocket ≠ 0 then
      (store e fun peer => { peer with preferredSock := pi.preferredSock }).sendRegister
        pi.preferredSock
    else e
  e.sendRegister pi.sock

/-- `MSG_TYPE_PEER_INFO`: a PONG, or where a peer is. -/
def handlePeerInfo (e : Edge) (rx : EdgeRx) (d : EdgeDispatch) : Edge :=
  let pi := (decodePeerInfo d.cmn d.udpBuf d.cur).out
  afterCheck (e.checkStamp d nullMac true) fun e =>
    if d.cmn.flags &&& flagsSocket ≠ 0 ∧ isValidPeerSock pi.sock = false then e
    else if isNullMac pi.mac then
      match addSnToListByMacOrSock e.supernodes d.sender pi.srcMac .skip 0 with
      | (list, some p, _) =>
        { e with supernodes := list.modify p fun s => { s with lastSeen := rx.now } }.supernodeSeen
          rx.now
      | (list, none, _) => { e with supernodes := list }
    else
      match e.pendingPeers.find? (·.macAddr == pi.mac) with
      | some (p, _) =>
        e.learnPeer d.cmn pi rx.now fun e f => { e with pendingPeers := e.pendingPeers.modify p f }
      | none =>
        match e.knownPeers.find? (·.macAddr == pi.mac) with
        | some (p, _) =>
          e.learnPeer d.cmn pi rx.now fun e f => { e with knownPeers := e.knownPeers.modify p f }
        | none => e

/-- `process_udp`, for the messages that concern the supernodes. -/
def processRegistration (e : Edge) (rx : EdgeRx) : Edge :=
  match e.dispatched rx with
  | none => e
  | some d =>
    if d.cmn.pc = msgTypeRegisterSuperAck then e.handleRegisterSuperAck rx d
    else if d.cmn.pc = msgTypeRegisterSuperNak then e.handleRegisterSuperNak d
    else if d.cmn.pc = msgTypePeerInfo then e.handlePeerInfo rx d
    else if d.cmn.pc = msgTypeReRegisterSuper then e.handleReRegisterSuper d
    else e

end Edge

end N2n
