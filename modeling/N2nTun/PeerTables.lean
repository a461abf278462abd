import N2nTun.SockIdentity
import N2nTun.TransportState

/-!
# The peers of an edge

An edge keeps two tables of other edges: those it is trying to reach directly, and
those that it has reached.  An entry is found by its MAC, or else by its socket; it
moves from the first table to the second when the other edge answers, and it may get
another MAC on the way.

## Main definitions

* `Edge.registerWithNewPeer`, `Edge.checkPeerRegistrationNeeded`, `Edge.peerSetP2pConfirmed`,
  `Edge.checkKnownPeerSockChange`, `Edge.findPeerDestination` — the functions of
  `edge_utils.c` that change the tables.
* `Edge.handlePacket`, `Edge.handleRegister`, `Edge.handleRegisterAck` — the messages of
  other edges, as far as the tables are concerned.
* `PeersOk`, `Edge.KeepsPeers` — no MAC occurs twice; what leaves the tables alone.
* `Edge.NeedOk`, `Edge.ConfirmOk` — where a MAC may be changed.
* `PeerEvent`, `peerMachine` — the runs.

## Main results

* `Edge.registerWithNewPeer_ok`, `Edge.findPeerDestination_ok`, … — each function keeps `PeersOk`.
* `Edge.peerSetP2pConfirmed_iff`, `Edge.checkPeerRegistrationNeeded_iff` — **the conditions
  are exact.**
* `peers_of_reach` — the tables in runs; `peers_fail` — what happens without the conditions.
-/

namespace N2n

open Bytes Machines

/-- `N2N_NO_REG_COOKIE`. -/
def noRegCookie : UInt32 := 0

/-- `N2N_FORWARDED_REG_COOKIE`. -/
def forwardedRegCookie : UInt32 := 0x00001000

/-- `N2N_REGULAR_REG_COOKIE`. -/
def regularRegCookie : UInt32 := 0x00010000

/-- `is_empty_ip_address`. -/
def isEmptyIpAddress (sock : Sock) : Bool :=
  (sock.addr.toList.take (if sock.family = afInet6 then 16 else 4)).all (· == 0)

/-- A peer after `calloc`. -/
def EdgePeer.zero : EdgePeer := ⟨PeerInfo.zero, false, 0, 0, 0⟩

/-- `memcpy(scan->mac_addr, mac)`, between `HASH_DEL` and `HASH_ADD`. -/
def EdgePeer.rename (peer : EdgePeer) (mac : Mac) : EdgePeer :=
  { peer with macAddr := mac, hashKey := mac }

/-- The socket of the answer is taken, but those from lower ranked inbound ways are ignored for a
while. -/
def EdgePeer.answered (scan : EdgePeer) (cookie : UInt32) (peer : Sock) (now : ℤ) : EdgePeer :=
  if registrationTimeout / 4 < now - scan.lastSeen ∨ scan.lastCookie < cookie then
    { scan with sock := peer, lastCookie := cookie }
  else scan

@[simp] theorem EdgePeer.answered_macAddr (scan : EdgePeer) (cookie : UInt32) (peer : Sock)
    (now : ℤ) : (scan.answered cookie peer now).macAddr = scan.macAddr := by
  unfold answered
  split_ifs <;> rfl

/-- The entry with a MAC. -/
def peerByMac (peers : Table EdgePeer) (mac : Mac) : Option (ℕ × EdgePeer) :=
  peers.find? (·.macAddr == mac)

/-- `find_peer_by_sock`. -/
def findPeerBySock (sock : Sock) (peers : Table EdgePeer) : Option (ℕ × EdgePeer) :=
  peers.first? fun peer => memcmpSock peer.sock sock

/-- `find_and_remove_peer`. -/
def findAndRemovePeer (peers : Table EdgePeer) (mac : Mac) : Table EdgePeer :=
  match peerByMac peers mac with
  | some (p, _) => peers.del p
  | none => peers

/-- `purge_peer_list`; the peers of an edge have no connections of their own. -/
def purgePeerList (peers : Table EdgePeer) (purgeBefore : ℤ) : Table EdgePeer :=
  peers.keep fun peer => !(peer.purgeable && decide (peer.lastSeen < purgeBefore))

namespace Edge

/-- `time(NULL)`. -/
def time (e : Edge) : Edge × ℤ := (e.tod.1, e.tod.2.sec.toNat)

/-- A structure in `known_peers` is changed in place. -/
def modifyKnown (e : Edge) (p : ℕ) (f : EdgePeer → EdgePeer) : Edge :=
  { e with knownPeers := e.knownPeers.modify p f }

/-- A structure in `pending_peers` is changed in place. -/
def modifyPending (e : Edge) (p : ℕ) (f : EdgePeer → EdgePeer) : Edge :=
  { e with pendingPeers := e.pendingPeers.modify p f }

/-- `HASH_ADD_PEER` to `pending_peers`. -/
def addPending (e : Edge) (scan : EdgePeer) : Edge :=
  { e with pendingPeers := e.pendingPeers.add scan }

/-! ### Registering with a peer -/

/-- The first REGISTERs to a new peer; `registerTtl` is `conf.register_ttl`. -/
def sendFirstRegister (e : Edge) (registerTtl : ℤ) (fromSupernode : Bool) (sock : Sock) : Edge :=
  if fromSupernode then
    let e :=
      if registerTtl = 1 then e
      else if 1 < registerTtl then
        -- the ports that the NAT may have given out next
        ((List.range 16).map fun i => { sock with port := sock.port + UInt16.ofNat i }).foldl
          sendRegister e
      else e.sendRegister sock
    e.sendRegister e.sn.sock
  else e.sendRegister sock

/-- A new entry for `pending_peers`. -/
def newPending (e : Edge) (mac : Mac) (stamp : UInt64) : EdgePeer :=
  { EdgePeer.zero.rename mac with
    timeout := e.registerInterval
    lastValidTimeStamp := initialTimeStamp stamp
    purgeable := true }

/-- The end of `register_with_new_peer`. -/
def touchPending (e : Edge) (p : ℕ) (devAddr : Option IpSubnet) (devDesc : Option Desc) : Edge :=
  let (e, now) := e.time
  e.modifyPending p fun scan =>
    { scan with
      lastSeen := now
      devAddr := devAddr.getD scan.devAddr
      devDesc := devDesc.getD scan.devDesc }

/-- `register_with_new_peer`. -/
def registerWithNewPeer (e : Edge) (registerTtl : ℤ) (fromSupernode viaMulticast : Bool)
    (mac : Mac) (devAddr : Option IpSubnet) (devDesc : Option Desc) (peer : Sock) : Edge :=
  match peerByMac e.pendingPeers mac with
  | none =>
    let (e, stamp) := e.timeStamp
    let p := e.pendingPeers.next
    let e := e.addPending { e.newPending mac stamp with sock := peer, isLocal := viaMulticast }
    let e := (e.sendFirstRegister registerTtl fromSupernode peer).registerWithLocalPeers
    e.touchPending p devAddr devDesc
  | some (p, _) =>
    (e.modifyPending p fun scan => { scan with sock := peer }).touchPending p devAddr devDesc

/-- `check_known_peer_sock_change`. -/
def checkKnownPeerSockChange (e : Edge) (registerTtl : ℤ) (fromSupernode viaMulticast : Bool)
    (mac : Mac) (devAddr : Option IpSubnet) (devDesc : Option Desc) (peer : Sock) (now : ℤ) :
    Edge :=
  if isEmptyIpAddress peer then e
  else if isMultiBroadcast mac then e
  else
    match peerByMac e.knownPeers mac with
    | none => e
    | some (p, scan) =>
      if !sockEqual scan.sock peer then
        if !fromSupernode then
          { e with knownPeers := e.knownPeers.del p }.registerWithNewPeer registerTtl fromSupernode
            viaMulticast mac devAddr devDesc peer
        else e
      else e.modifyKnown p fun scan => { scan with lastSeen := now }

/-- The entry in `known_peers` for a MAC; one with the same socket gets the MAC. -/
def findKnown (e : Edge) (mac : Mac) (peer : Sock) : Edge × Option ℕ :=
  match peerByMac e.knownPeers mac with
  | some (p, _) => (e, some p)
  | none =>
    match findPeerBySock peer e.knownPeers with
    | some (p, _) =>
      ({ e with knownPeers := e.knownPeers.rekey p fun scan =>
          { scan.rename mac with lastCookie := noRegCookie } }, some p)
    | none => (e, none)

/-- `check_peer_registration_needed`. -/
def checkPeerRegistrationNeeded (e : Edge) (registerTtl : ℤ) (fromSupernode viaMulticast : Bool)
    (mac : Mac) (cookie : UInt32) (devAddr : Option IpSubnet) (devDesc : Option Desc)
    (peer : Sock) : Edge :=
  match e.findKnown mac peer with
  | (e, none) =>
    e.registerWithNewPeer registerTtl fromSupernode viaMulticast mac devAddr devDesc peer
  | (e, some p) =>
    let (e, now) := e.time
    let e := e.modifyKnown p fun scan =>
      { scan with
        lastP2p := if fromSupernode then scan.lastP2p else now
        isLocal := scan.isLocal || viaMulticast }
    match e.knownPeers.get? p with
    | none => e
    | some scan =>
      if 0 < now - scan.lastSeen ∨ scan.lastCookie < cookie then
        e.checkKnownPeerSockChange registerTtl fromSupernode viaMulticast mac devAddr devDesc peer
          now
      else e

/-- The entry in `pending_peers` that an answer is for, with the change of its cookie. -/
def findPending (e : Edge) (mac : Mac) (peer : Sock) : Option (ℕ × EdgePeer) :=
  match peerByMac e.pendingPeers mac with
  | some found => some found
  | none => (findPeerBySock peer e.pendingPeers).map fun found =>
      (found.1, { found.2 with lastCookie := noRegCookie })

/-- `peer_set_p2p_confirmed`. -/
def peerSetP2pConfirmed (e : Edge) (mac : Mac) (cookie : UInt32) (peer : Sock) (now : ℤ) : Edge :=
  match e.findPending mac peer with
  | none => e
  | some (p, scan) =>
    let e := { e with pendingPeers := e.pendingPeers.del p }
    match findPeerBySock peer e.knownPeers with
    | some (q, _) =>
      -- the known peer at this socket takes the place
      { e with knownPeers := e.knownPeers.rekey q fun scan =>
          { scan.rename mac with lastCookie := noRegCookie, lastP2p := now, lastSeen := now } }
    | none =>
      { e with
        knownPeers := e.knownPeers.add
          { scan.answered cookie peer now with lastP2p := now, lastSeen := now } }

/-! ### Outgoing packets -/

/-- `check_query_peer_info`; `pings` and `skip` are for a null MAC. -/
def checkQueryPeerInfo (e : Edge) (now : ℤ) (mac : Mac) (pings skip : ℕ) : Edge :=
  let (e, p) :=
    match peerByMac e.pendingPeers mac with
    | some (p, _) => (e, p)
    | none =>
      let (e, stamp) := e.timeStamp
      (e.addPending { e.newPending mac stamp with lastSeen := now }, e.pendingPeers.next)
  let lastSentQuery := ((e.pendingPeers.get? p).getD EdgePeer.zero).lastSentQuery
  if e.registerInterval < now - lastSentQuery then
    ((e.sendRegister e.sn.sock).sendQueryPeer mac pings skip).modifyPending p fun scan =>
      { scan with lastSentQuery := now }
  else e

/-- `find_peer_destination`: the destination, if it is a peer. -/
def findPeerDestination (e : Edge) (mac : Mac) (pings skip : ℕ) : Edge × Option Sock :=
  let (e, now) := e.time
  if isMultiBroadcast mac then (e, none)
  else
    match peerByMac e.knownPeers mac with
    | some (p, scan) =>
      if 0 < scan.lastSeen then
        if scan.timeout.tdiv 2 ≤ now - scan.lastP2p then
          -- the address may have changed since
          ({ e with knownPeers := e.knownPeers.del p }.checkQueryPeerInfo now mac pings skip, none)
        else (e, some scan.sock)
      else (e.checkQueryPeerInfo now mac pings skip, none)
    | none => (e.checkQueryPeerInfo now mac pings skip, none)

/-- `send_packet`. -/
def sendPacket (e : Edge) (dstMac : Mac) (pings skip : ℕ) : Edge :=
  if e.tcpFallbackIsEstablishing then e
  else
    let (e, destination) := e.findPeerDestination dstMac pings skip
    if isMultiBroadcast dstMac && e.transport.snWait != 0 then
      (e.knownPeers.values.map (·.sock)).foldl sendtoSock e
    else e.sendtoSock (destination.getD e.sn.sock)

/-! ### Messages of other edges -/

/-- `send_register_ack`. -/
def sendRegisterAck (e : Edge) (remotePeer : Sock) : Edge :=
  if !e.allowP2p then e
  else (if e.conf.headerEncryption then e.timeStamp.1.rand.1 else e).sendtoSock remotePeer

/-- The flag of the common part. -/
def isFromSupernode (cmn : Common) : Bool := cmn.flags &&& flagsFromSupernode != 0

/-- `orig_sender`: the socket in the message, if there is one that can be used. -/
def origSender (d : EdgeDispatch) (sock : Sock) : Sock :=
  if isValidPeerSock sock then sock else d.sender

/-- `MSG_TYPE_PACKET`, up to what the payload is used for. -/
def handlePacket (e : Edge) (registerTtl : ℤ) (rx : EdgeRx) (d : EdgeDispatch) : Edge :=
  let pkt := (decodePacket d.cmn d.udpBuf d.cur).out
  let fromSupernode := isFromSupernode d.cmn
  let viaMulticast := rx.inSock == e.transport.udpMulticastSock
  afterCheck (e.checkStamp d pkt.srcMac true) fun e =>
    if e.lastSup = 0 then e
    else
      let e :=
        if fromSupernode then e
        else { e with pendingPeers := findAndRemovePeer e.pendingPeers pkt.srcMac }
      let e := e.checkPeerRegistrationNeeded registerTtl fromSupernode viaMulticast pkt.srcMac
        (if fromSupernode then forwardedRegCookie else regularRegCookie) none none
        (if fromSupernode then origSender d pkt.sock else d.sender)
      let (e, now) := e.time
      if fromSupernode then { e with closeSocketCounter := 0 }.supernodeSeen now else e

/-- A REGISTER of the edge itself, or for another one. -/
def skipsRegister (e : Edge) (viaMulticast : Bool) (reg : Register) : Bool :=
  if viaMulticast then reg.srcMac == e.macAddr else reg.dstMac != e.macAddr

/-- `MSG_TYPE_REGISTER`. -/
def handleRegister (e : Edge) (registerTtl : ℤ) (rx : EdgeRx) (d : EdgeDispatch) : Edge :=
  let reg := (decodeRegister d.cmn d.udpBuf d.cur).out
  let fromSupernode := isFromSupernode d.cmn
  let viaMulticast := rx.inSock == e.transport.udpMulticastSock && isNullMac reg.dstMac
  afterCheck (e.checkStamp d reg.srcMac viaMulticast) fun e =>
    let origSender := origSender d reg.sock
    if e.skipsRegister viaMulticast reg then e
    else
      let e :=
        if fromSupernode then e
        else { e with
          pendingPeers := findAndRemovePeer e.pendingPeers reg.srcMac }.sendRegisterAck origSender
      e.checkPeerRegistrationNeeded registerTtl fromSupernode viaMulticast reg.srcMac reg.cookie
        (some reg.devAddr) (some reg.devDesc) origSender

/-- `MSG_TYPE_REGISTER_ACK`. -/
def handleRegisterAck (e : Edge) (rx : EdgeRx) (d : EdgeDispatch) : Edge :=
  let ra := (decodeRegisterAck d.cmn d.udpBuf d.cur).out
  afterCheck (e.checkStamp d ra.srcMac false) fun e =>
    e.peerSetP2pConfirmed ra.srcMac ra.cookie d.sender rx.now

/-- `process_udp`, for the messages that concern other edges. -/
def processPeers (e : Edge) (registerTtl : ℤ) (rx : EdgeRx) : Edge :=
  match e.dispatched rx with
  | none => e
  | some d =>
    if d.cmn.pc = msgTypePacket then e.handlePacket registerTtl rx d
    else if d.cmn.pc = msgTypeRegister then e.handleRegister registerTtl rx d
    else if d.cmn.pc = msgTypeRegisterAck then e.handleRegisterAck rx d
    else if d.cmn.pc = msgTypePeerInfo then e.handlePeerInfo rx d
    else e

end Edge

/-! ### Entries that stay -/

/-- The address of the entry with a MAC. -/
def macAt (peers : Table EdgePeer) (mac : Mac) : Option ℕ := (peerByMac peers mac).map Prod.fst

/-- The address of the first entry with a socket. -/
def sockAt (peers : Table EdgePeer) (sock : Sock) : Option ℕ :=
  (findPeerBySock sock peers).map Prod.fst

theorem macAt_eq_none {peers : Table EdgePeer} {mac : Mac} :
    macAt peers mac = none ↔ ∀ peer ∈ peers, peer.macAddr ≠ mac := by
  simp [macAt, peerByMac, Table.find?_eq_none]

theorem exists_of_macAt {peers : Table EdgePeer} {mac : Mac} (h : macAt peers mac ≠ none) :
    ∃ peer ∈ peers, peer.macAddr = mac := by
  rw [ne_eq, macAt_eq_none] at h
  push Not at h
  exact h

theorem peerByMac_eq_some {peers : Table EdgePeer} {mac : Mac} {found : ℕ × EdgePeer}
    (h : peerByMac peers mac = some found) :
    peers.get? found.1 = some found.2 ∧ found.2.macAddr = mac := by
  obtain ⟨hget, hmac⟩ := Table.find?_eq_some h
  exact ⟨hget, by simpa using hmac⟩

/-- Entries may go, and those that stay keep their MACs and have still been seen. -/
def Kept (peers peers' : Table EdgePeer) : Prop :=
  ∀ p peer', peers'.get? p = some peer' →
    ∃ peer, peers.get? p = some peer ∧ peer'.macAddr = peer.macAddr ∧
      (0 < peer.lastSeen → 0 < peer'.lastSeen)

theorem Kept.refl (peers : Table EdgePeer) : Kept peers peers :=
  fun _ peer' h => ⟨peer', h, rfl, id⟩

theorem Kept.of_eq {peers peers' : Table EdgePeer} (h : peers' = peers) : Kept peers peers' :=
  h ▸ .refl peers

theorem Kept.trans {peers peers' peers'' : Table EdgePeer} (h : Kept peers peers')
    (h' : Kept peers' peers'') : Kept peers peers'' := by
  intro p peer'' hget''
  obtain ⟨peer', hget', hmac', hseen'⟩ := h' p peer'' hget''
  obtain ⟨peer, hget, hmac, hseen⟩ := h p peer' hget'
  exact ⟨peer, hget, hmac'.trans hmac, hseen' ∘ hseen⟩

theorem Kept.del (peers : Table EdgePeer) (p : ℕ) : Kept peers (peers.del p) := by
  intro q peer' hget
  rw [Table.get?_del] at hget
  split_ifs at hget
  exact ⟨peer', hget, rfl, id⟩

theorem Kept.modify (peers : Table EdgePeer) (p : ℕ) {f : EdgePeer → EdgePeer}
    (hf : ∀ peer, (f peer).macAddr = peer.macAddr ∧ (0 < peer.lastSeen → 0 < (f peer).lastSeen)) :
    Kept peers (peers.modify p f) := by
  intro q peer' hget
  rw [Table.get?_modify] at hget
  split_ifs at hget
  · obtain ⟨peer, hpeer, rfl⟩ := Option.map_eq_some_iff.mp hget
    exact ⟨peer, hpeer, hf peer⟩
  · exact ⟨peer', hget, rfl, id⟩

theorem Kept.purge (peers : Table EdgePeer) (purgeBefore : ℤ) :
    Kept peers (purgePeerList peers purgeBefore) := by
  intro q peer' hget
  exact ⟨peer', Table.get?_of_keep hget, rfl, id⟩

/-- Nobody gets a MAC. -/
theorem Kept.macAt_eq_none {peers peers' : Table EdgePeer} (h : Kept peers peers') {mac : Mac}
    (hnone : macAt peers mac = none) : macAt peers' mac = none := by
  rw [N2n.macAt_eq_none] at hnone ⊢
  intro peer' hmem
  obtain ⟨p, hp⟩ := Table.mem_iff_get?.mp hmem
  obtain ⟨peer, hpeer, hmac, -⟩ := h p peer' hp
  rw [hmac]
  exact hnone peer (Table.mem_of_get? hpeer)

/-! ### What the two tables satisfy -/

/-- **No MAC occurs twice, in one table or in both**, and the known peers have been seen. -/
structure PeersOk (known pending : Table EdgePeer) : Prop where
  knownDistinct : known.DistinctOn (·.macAddr) fun _ => True
  pendingDistinct : pending.DistinctOn (·.macAddr) fun _ => True
  apart : ∀ a ∈ known, ∀ b ∈ pending, a.macAddr ≠ b.macAddr
  seen : ∀ a ∈ known, 0 < a.lastSeen

theorem PeersOk.of_kept {known pending known' pending' : Table EdgePeer}
    (h : PeersOk known pending) (hk : Kept known known') (hp : Kept pending pending') :
    PeersOk known' pending' where
  knownDistinct := h.knownDistinct.of_kept fun q e' he' =>
    have ⟨e, he, hmac, _⟩ := hk q e' he'
    ⟨e, he, hmac⟩
  pendingDistinct := h.pendingDistinct.of_kept fun q e' he' =>
    have ⟨e, he, hmac, _⟩ := hp q e' he'
    ⟨e, he, hmac⟩
  apart := by
    intro a' ha' b' hb'
    obtain ⟨p, hp'⟩ := Table.mem_iff_get?.mp ha'
    obtain ⟨q, hq'⟩ := Table.mem_iff_get?.mp hb'
    obtain ⟨a, ha, hmaca, -⟩ := hk p a' hp'
    obtain ⟨b, hb, hmacb, -⟩ := hp q b' hq'
    rw [hmaca, hmacb]
    exact h.apart a (Table.mem_of_get? ha) b (Table.mem_of_get? hb)
  seen := by
    intro a' ha'
    obtain ⟨p, hp'⟩ := Table.mem_iff_get?.mp ha'
    obtain ⟨a, ha, -, hseen⟩ := hk p a' hp'
    exact hseen (h.seen a (Table.mem_of_get? ha))

/-- A pending peer with a MAC that nobody has. -/
theorem PeersOk.addPending {known pending : Table EdgePeer} (h : PeersOk known pending)
    {peer : EdgePeer} (hk : macAt known peer.macAddr = none)
    (hp : macAt pending peer.macAddr = none) : PeersOk known (pending.add peer) where
  knownDistinct := h.knownDistinct
  pendingDistinct := h.pendingDistinct.add fun _ => macAt_eq_none.mp hp
  apart := by
    intro a ha b hb
    rcases Table.mem_add.mp hb with hb | rfl
    · exact h.apart a ha b hb
    · exact macAt_eq_none.mp hk a ha
  seen := h.seen

/-- A known peer with a MAC that nobody has. -/
theorem PeersOk.addKnown {known pending : Table EdgePeer} (h : PeersOk known pending)
    {peer : EdgePeer} (hseen : 0 < peer.lastSeen) (hk : macAt known peer.macAddr = none)
    (hp : macAt pending peer.macAddr = none) : PeersOk (known.add peer) pending where
  knownDistinct := h.knownDistinct.add fun _ => macAt_eq_none.mp hk
  pendingDistinct := h.pendingDistinct
  apart := by
    intro a ha b hb
    rcases Table.mem_add.mp ha with ha | rfl
    · exact h.apart a ha b hb
    · exact (macAt_eq_none.mp hp b hb).symm
  seen := by
    intro a ha
    rcases Table.mem_add.mp ha with ha | rfl
    · exact h.seen a ha
    · exact hseen

/-- The known peer at `q` gets a MAC that nobody else has. -/
theorem PeersOk.renameKnown {known pending : Table EdgePeer} (h : PeersOk known pending) {q : ℕ}
    {mac : Mac} {f : EdgePeer → EdgePeer} (hmac : ∀ peer, (f peer).macAddr = mac)
    (hseen : ∀ peer, 0 < peer.lastSeen → 0 < (f peer).lastSeen)
    (hk : macAt known mac = none ∨ macAt known mac = some q) (hp : macAt pending mac = none) :
    PeersOk (known.rekey q f) pending where
  knownDistinct := by
    refine h.knownDistinct.of_new q mac ?_ ?_ ?_
    · intro p hpq
      rw [Table.get?_rekey, if_neg hpq]
    · intro e he
      rw [Table.get?_rekey, if_pos rfl] at he
      obtain ⟨peer, -, rfl⟩ := Option.map_eq_some_iff.mp he
      exact hmac peer
    · intro _ p peer hpq hget heq
      rcases hk with hk | hk
      · exact macAt_eq_none.mp hk peer (Table.mem_of_get? hget) heq
      · -- the entry at `q` has the MAC already, and no other one can have it
        obtain ⟨found, hfound, hq⟩ := Option.map_eq_some_iff.mp hk
        obtain ⟨hgetq, hmacq⟩ := peerByMac_eq_some hfound
        rw [hq] at hgetq
        exact hpq (h.knownDistinct p peer q found.2 hget hgetq (heq.trans hmacq.symm) trivial)
  pendingDistinct := h.pendingDistinct
  apart := by
    intro a ha b hb
    rcases Table.mem_rekey ha with ha | ⟨peer, -, rfl⟩
    · exact h.apart a ha b hb
    · rw [hmac]
      exact (macAt_eq_none.mp hp b hb).symm
  seen := by
    intro a ha
    rcases Table.mem_rekey ha with ha | ⟨peer, hget, rfl⟩
    · exact h.seen a ha
    · exact hseen peer (h.seen peer (Table.mem_of_get? hget))

/-- After the entry with a MAC is deleted nobody has the MAC. -/
theorem macAt_del {peers : Table EdgePeer} (h : peers.DistinctOn (·.macAddr) fun _ => True)
    {mac : Mac} {p : ℕ} (hp : macAt peers mac = some p) : macAt (peers.del p) mac = none := by
  obtain ⟨found, hfound, rfl⟩ := Option.map_eq_some_iff.mp hp
  obtain ⟨hget, hmac⟩ := peerByMac_eq_some hfound
  rw [macAt_eq_none]
  intro peer hmem heq
  obtain ⟨q, hq⟩ := Table.mem_iff_get?.mp hmem
  rw [Table.get?_del] at hq
  split_ifs at hq with hqp
  exact hqp (h q peer found.1 found.2 hq hget (heq.trans hmac.symm) trivial)

theorem macAt_findAndRemovePeer {peers : Table EdgePeer}
    (h : peers.DistinctOn (·.macAddr) fun _ => True) (mac : Mac) :
    macAt (findAndRemovePeer peers mac) mac = none := by
  unfold findAndRemovePeer
  cases hfound : peerByMac peers mac with
  | none => exact congrArg (Option.map Prod.fst) hfound
  | some found => exact macAt_del h (congrArg (Option.map Prod.fst) hfound)

theorem Kept.findAndRemovePeer (peers : Table EdgePeer) (mac : Mac) :
    Kept peers (findAndRemovePeer peers mac) := by
  unfold N2n.findAndRemovePeer
  split
  · exact .del peers _
  · exact .refl peers

/-- A pending peer that is in nobody's way moves to `known_peers`. -/
theorem PeersOk.confirm {known pending : Table EdgePeer} (h : PeersOk known pending) {p : ℕ}
    {scan : EdgePeer} (hget : pending.get? p = some scan) {peer : EdgePeer}
    (hmac : scan.macAddr = peer.macAddr) (hseen : 0 < peer.lastSeen) :
    PeersOk (known.add peer) (pending.del p) := by
  have hmem := Table.mem_of_get? hget
  have hknown : macAt known peer.macAddr = none := by
    rw [macAt_eq_none, ← hmac]
    exact fun a ha => h.apart a ha scan hmem
  have hpending : macAt (pending.del p) peer.macAddr = none := by
    rw [macAt_eq_none, ← hmac]
    intro b hb heq
    obtain ⟨q, hq⟩ := Table.mem_iff_get?.mp hb
    rw [Table.get?_del] at hq
    split_ifs at hq with hqp
    exact hqp (h.pendingDistinct q b p scan hq hget heq trivial)
  exact (h.of_kept (.refl _) (.del pending p)).addKnown hseen hknown hpending

/-- Who is pending is not known. -/
theorem PeersOk.macAt_known {known pending : Table EdgePeer} (h : PeersOk known pending)
    {mac : Mac} (hp : macAt pending mac ≠ none) : macAt known mac = none := by
  obtain ⟨p, hp⟩ := Option.ne_none_iff_exists'.mp hp
  obtain ⟨found, hfound, -⟩ := Option.map_eq_some_iff.mp hp
  obtain ⟨hget, hmac⟩ := peerByMac_eq_some hfound
  rw [macAt_eq_none, ← hmac]
  exact fun a ha => h.apart a ha found.2 (Table.mem_of_get? hget)

namespace Edge

/-! ### What leaves the tables alone -/

/-- The clock is past 1970. -/
def ClockOk (e : Edge) : Prop := ∀ n, 0 < (e.env.tods.get n).sec

/-- Entries may go, no entry is new, and the clock stays past 1970. -/
structure KeepsPeers (e e' : Edge) : Prop where
  known : Kept e.knownPeers e'.knownPeers
  pending : Kept e.pendingPeers e'.pendingPeers
  clock : e.ClockOk → e'.ClockOk

theorem KeepsPeers.refl (e : Edge) : e.KeepsPeers e := ⟨.refl _, .refl _, id⟩

theorem KeepsPeers.trans {e e' e'' : Edge} (h : e.KeepsPeers e') (h' : e'.KeepsPeers e'') :
    e.KeepsPeers e'' :=
  ⟨h.known.trans h'.known, h.pending.trans h'.pending, h'.clock ∘ h.clock⟩

theorem KeepsPeers.of_eq {e e' : Edge} (hk : e'.knownPeers = e.knownPeers)
    (hp : e'.pendingPeers = e.pendingPeers) (ht : e'.env.tods = e.env.tods) : e.KeepsPeers e' :=
  ⟨.of_eq hk, .of_eq hp, fun h n => ht ▸ h n⟩

theorem KeepsPeers.ite {c : Prop} [Decidable c] {e e₁ e₂ : Edge} (h₁ : e.KeepsPeers e₁)
    (h₂ : e.KeepsPeers e₂) : e.KeepsPeers (if c then e₁ else e₂) := by
  split
  · exact h₁
  · exact h₂

theorem KeepsPeers.foldl {α : Type} {f : Edge → α → Edge} (hf : ∀ e a, KeepsPeers e (f e a))
    (l : List α) : ∀ e : Edge, e.KeepsPeers (l.foldl f e) := by
  induction l with
  | nil => exact .refl
  | cons a l ih => exact fun e => (hf e a).trans (ih (f e a))

theorem keepsPeers_tod (e : Edge) : e.KeepsPeers e.tod.1 :=
  ⟨.refl _, .refl _, fun h n => h (n + 1)⟩

theorem keepsPeers_timeStamp (e : Edge) : e.KeepsPeers e.timeStamp.1 :=
  ⟨.refl _, .refl _, fun h n => h (n + 1)⟩

/-- What the encryption of a header takes. -/
theorem keepsPeers_stamped (e : Edge) : e.KeepsPeers e.timeStamp.1.rand.1 :=
  ⟨.refl _, .refl _, fun h n => h (n + 1)⟩

theorem keepsPeers_onTransport (e : Edge) (f : EdgeTransport → EdgeTransport) :
    e.KeepsPeers (e.onTransport f) :=
  .of_eq rfl rfl rfl

theorem keepsPeers_sendtoSock (e : Edge) (dest : Sock) : e.KeepsPeers (e.sendtoSock dest) := by
  unfold sendtoSock
  dsimp only
  split_ifs
  · exact .refl e
  · exact .refl e
  · exact .refl e
  · exact ⟨.refl _, .refl _, fun h n => h (n + 1)⟩
  · exact .of_eq rfl rfl rfl
  · exact .of_eq rfl rfl rfl
  · exact .of_eq rfl rfl rfl

theorem keepsPeers_sendRegister (e : Edge) (remotePeer : Sock) :
    e.KeepsPeers (e.sendRegister remotePeer) := by
  unfold sendRegister
  refine .ite (.refl e) ?_
  extract_lets e₁ e₂ e₃
  have h₁ : e.KeepsPeers e₁ := .ite (keepsPeers_stamped e) (.refl e)
  have h₂ : e₁.KeepsPeers e₂ := .ite (keepsPeers_onTransport e₁ _) (.refl e₁)
  exact ((h₁.trans h₂).trans (keepsPeers_sendtoSock e₂ remotePeer)).trans
    (keepsPeers_onTransport e₃ _)

theorem keepsPeers_registerWithLocalPeers (e : Edge) :
    e.KeepsPeers e.registerWithLocalPeers := by
  unfold registerWithLocalPeers
  exact .ite (keepsPeers_sendRegister e _) (.refl e)

theorem keepsPeers_encryptHeader (e : Edge) (pktbuf : List UInt8) (ctx iv : Option SpeckContext) :
    e.KeepsPeers (e.encryptHeader pktbuf ctx iv).1 := by
  unfold encryptHeader
  split_ifs
  · dsimp only
    cases ctx <;> cases iv <;> exact keepsPeers_stamped e
  · exact .refl e

theorem keepsPeers_sendControl (e : Edge) (dest : Sock) : e.KeepsPeers (e.sendControl dest) := by
  unfold sendControl
  extract_lets e₁ e₂
  exact ((keepsPeers_onTransport e _).trans (keepsPeers_sendtoSock e₁ dest)).trans
    (keepsPeers_onTransport e₂ _)

theorem keepsPeers_sendQueryPeer (e : Edge) (dstMac : Mac) (pings skip : ℕ) :
    e.KeepsPeers (e.sendQueryPeer dstMac pings skip) := by
  unfold sendQueryPeer
  extract_lets query pktbuf
  have h := keepsPeers_encryptHeader e pktbuf e.conf.keys.ctxDynamic e.conf.keys.ivDynamic
  generalize e.encryptHeader pktbuf e.conf.keys.ctxDynamic e.conf.keys.ivDynamic = r at h ⊢
  obtain ⟨e₁, _⟩ := r
  refine h.trans (.ite ?_ (keepsPeers_sendControl e₁ _))
  extract_lets socks
  have h₂ : e₁.KeepsPeers (if pings ≤ socks.length then (e₁.rand.1, skip) else (e₁, 0)).1 := by
    split
    · exact .of_eq rfl rfl rfl
    · exact .refl e₁
  generalize (if pings ≤ socks.length then (e₁.rand.1, skip) else (e₁, 0)) = r at h₂ ⊢
  obtain ⟨e₂, skip'⟩ := r
  have h₃ : ∀ f, e₂.KeepsPeers ((pinged socks pings skip').foldl sendtoSock (e₂.onTransport f)) :=
    fun f => (keepsPeers_onTransport e₂ f).trans (.foldl keepsPeers_sendtoSock _ _)
  exact (h₂.trans (h₃ _)).trans (keepsPeers_onTransport _ fun t =>
    { t with sendingSupernodeControl := false })

theorem keepsPeers_sendFirstRegister (e : Edge) (registerTtl : ℤ) (fromSupernode : Bool)
    (sock : Sock) : e.KeepsPeers (e.sendFirstRegister registerTtl fromSupernode sock) := by
  unfold sendFirstRegister
  refine .ite ?_ (keepsPeers_sendRegister e sock)
  extract_lets e₁
  have h₁ : e.KeepsPeers e₁ :=
    .ite (.refl e) (.ite (.foldl keepsPeers_sendRegister _ e) (keepsPeers_sendRegister e sock))
  exact h₁.trans (keepsPeers_sendRegister e₁ _)

theorem keepsPeers_sendRegisterAck (e : Edge) (remotePeer : Sock) :
    e.KeepsPeers (e.sendRegisterAck remotePeer) := by
  unfold sendRegisterAck
  refine .ite (.refl e) ?_
  have h₁ : e.KeepsPeers (if e.conf.headerEncryption then e.timeStamp.1.rand.1 else e) :=
    .ite (keepsPeers_stamped e) (.refl e)
  exact h₁.trans (keepsPeers_sendtoSock _ remotePeer)

theorem keepsPeers_supernodeSeen (e : Edge) (now : ℤ) : e.KeepsPeers (e.supernodeSeen now) :=
  .of_eq rfl rfl rfl

theorem keepsPeers_modifyKnown (e : Edge) (p : ℕ) {f : EdgePeer → EdgePeer}
    (hf : ∀ peer, (f peer).macAddr = peer.macAddr ∧ (0 < peer.lastSeen → 0 < (f peer).lastSeen)) :
    e.KeepsPeers (e.modifyKnown p f) :=
  ⟨.modify _ p hf, .refl _, id⟩

theorem keepsPeers_modifyPending (e : Edge) (p : ℕ) {f : EdgePeer → EdgePeer}
    (hf : ∀ peer, (f peer).macAddr = peer.macAddr ∧ (0 < peer.lastSeen → 0 < (f peer).lastSeen)) :
    e.KeepsPeers (e.modifyPending p f) :=
  ⟨.refl _, .modify _ p hf, id⟩

/-! ### The functions that change the tables -/

/-- The tables of an edge, and its clock. -/
structure TablesOk (e : Edge) : Prop where
  peers : PeersOk e.knownPeers e.pendingPeers
  clock : e.ClockOk

theorem TablesOk.keeps {e e' : Edge} (h : e.TablesOk) (hkeeps : e.KeepsPeers e') : e'.TablesOk :=
  ⟨h.peers.of_kept hkeeps.known hkeeps.pending, hkeeps.clock h.clock⟩

theorem TablesOk.ite {c : Prop} [Decidable c] {e₁ e₂ : Edge} (h₁ : e₁.TablesOk)
    (h₂ : e₂.TablesOk) : (if c then e₁ else e₂).TablesOk := by
  split
  · exact h₁
  · exact h₂

theorem time_pos {e : Edge} (h : e.ClockOk) : 0 < e.time.2 := by
  have hsec := UInt64.lt_iff_toNat_lt.mp (h 0)
  exact Int.natCast_pos.mpr hsec

theorem keepsPeers_touchPending {e : Edge} (h : e.ClockOk) (p : ℕ) (devAddr : Option IpSubnet)
    (devDesc : Option Desc) : e.KeepsPeers (e.touchPending p devAddr devDesc) :=
  (keepsPeers_tod e).trans
    (keepsPeers_modifyPending _ p fun _ => ⟨rfl, fun _ => time_pos h⟩)

/-- A pending peer with a MAC that nobody has, after its first stamp has been drawn. -/
theorem TablesOk.addPending {e : Edge} (h : e.TablesOk) {mac : Mac}
    (hknown : macAt e.knownPeers mac = none) (hpending : macAt e.pendingPeers mac = none)
    (scan : EdgePeer) (hscan : scan.macAddr = mac) : (e.timeStamp.1.addPending scan).TablesOk :=
  ⟨h.peers.addPending (hscan ▸ hknown) (hscan ▸ hpending), (keepsPeers_timeStamp e).clock h.clock⟩

theorem registerWithNewPeer_ok {e : Edge} (h : e.TablesOk) (registerTtl : ℤ)
    (fromSupernode viaMulticast : Bool) {mac : Mac} (hmac : macAt e.knownPeers mac = none)
    (devAddr : Option IpSubnet) (devDesc : Option Desc) (peer : Sock) :
    (e.registerWithNewPeer registerTtl fromSupernode viaMulticast mac devAddr devDesc
      peer).TablesOk := by
  unfold registerWithNewPeer
  cases hfound : peerByMac e.pendingPeers mac with
  | none =>
    dsimp only
    have hpending : macAt e.pendingPeers mac = none := congrArg (Option.map Prod.fst) hfound
    have h₁ := h.addPending hmac hpending { e.newPending mac e.timeStamp.2 with
      sock := peer, isLocal := viaMulticast } rfl
    have h₂ := h₁.keeps (keepsPeers_sendFirstRegister _ registerTtl fromSupernode peer)
    have h₃ := h₂.keeps (keepsPeers_registerWithLocalPeers _)
    exact h₃.keeps (keepsPeers_touchPending h₃.clock e.pendingPeers.next devAddr devDesc)
  | some found =>
    have hmodify : e.KeepsPeers (e.modifyPending found.1 fun scan => { scan with sock := peer }) :=
      keepsPeers_modifyPending e found.1 fun _ => ⟨rfl, id⟩
    have h₁ := h.keeps hmodify
    exact h₁.keeps (keepsPeers_touchPending h₁.clock found.1 devAddr devDesc)

theorem checkKnownPeerSockChange_ok {e : Edge} (h : e.TablesOk) (registerTtl : ℤ)
    (fromSupernode viaMulticast : Bool) (mac : Mac) (devAddr : Option IpSubnet)
    (devDesc : Option Desc) (peer : Sock) {now : ℤ} (hnow : 0 < now) :
    (e.checkKnownPeerSockChange registerTtl fromSupernode viaMulticast mac devAddr devDesc peer
      now).TablesOk := by
  unfold checkKnownPeerSockChange
  refine .ite h (.ite h ?_)
  cases hfound : peerByMac e.knownPeers mac with
  | none => exact h
  | some found =>
    have hat : macAt e.knownPeers mac = some found.1 := congrArg (Option.map Prod.fst) hfound
    refine .ite (.ite ?_ h) ?_
    · -- the known peer goes before the pending one is added
      have hdel : e.KeepsPeers { e with knownPeers := e.knownPeers.del found.1 } :=
        ⟨.del _ _, .refl _, id⟩
      exact registerWithNewPeer_ok (h.keeps hdel) registerTtl fromSupernode viaMulticast
        (macAt_del h.peers.knownDistinct hat) devAddr devDesc peer
    · exact h.keeps (keepsPeers_modifyKnown e found.1 fun _ => ⟨rfl, fun _ => hnow⟩)

/-- What `check_peer_registration_needed` relies on: where it gives a known peer the MAC of the
message, no pending peer has this MAC. -/
def NeedOk (e : Edge) (mac : Mac) (peer : Sock) : Prop :=
  macAt e.knownPeers mac = none → sockAt e.knownPeers peer ≠ none → macAt e.pendingPeers mac = none

instance (e : Edge) (mac : Mac) (peer : Sock) : Decidable (e.NeedOk mac peer) :=
  inferInstanceAs (Decidable (_ → _))

theorem findKnown_ok {e : Edge} (h : e.TablesOk) {mac : Mac} {peer : Sock}
    (hneed : e.NeedOk mac peer) : (e.findKnown mac peer).1.TablesOk := by
  unfold findKnown
  cases hmac : peerByMac e.knownPeers mac with
  | some found => exact h
  | none =>
    have hknown : macAt e.knownPeers mac = none := congrArg (Option.map Prod.fst) hmac
    cases hsock : findPeerBySock peer e.knownPeers with
    | none => exact h
    | some found =>
      have hpending : macAt e.pendingPeers mac = none :=
        hneed hknown (by simp [sockAt, hsock])
      exact ⟨h.peers.renameKnown (fun _ => rfl) (fun _ => id) (Or.inl hknown) hpending, h.clock⟩

theorem findKnown_none {e : Edge} {mac : Mac} {peer : Sock}
    (hnone : (e.findKnown mac peer).2 = none) :
    (e.findKnown mac peer).1 = e ∧ macAt e.knownPeers mac = none := by
  unfold findKnown at hnone ⊢
  cases hmac : peerByMac e.knownPeers mac with
  | some found => simp [hmac] at hnone
  | none =>
    cases hsock : findPeerBySock peer e.knownPeers with
    | none => exact ⟨rfl, congrArg (Option.map Prod.fst) hmac⟩
    | some found => simp [hmac, hsock] at hnone

theorem checkPeerRegistrationNeeded_ok {e : Edge} (h : e.TablesOk) (registerTtl : ℤ)
    (fromSupernode viaMulticast : Bool) {mac : Mac} (cookie : UInt32)
    (devAddr : Option IpSubnet) (devDesc : Option Desc) {peer : Sock} (hneed : e.NeedOk mac peer) :
    (e.checkPeerRegistrationNeeded registerTtl fromSupernode viaMulticast mac cookie devAddr devDesc
      peer).TablesOk := by
  unfold checkPeerRegistrationNeeded
  have hfind := findKnown_ok h hneed
  have hnone := @findKnown_none e mac peer
  generalize e.findKnown mac peer = r at hfind hnone ⊢
  obtain ⟨e₁, found⟩ := r
  cases found with
  | none =>
    obtain ⟨heq, hmac⟩ := hnone rfl
    dsimp only at heq ⊢
    rw [heq]
    exact registerWithNewPeer_ok h registerTtl fromSupernode viaMulticast hmac devAddr devDesc peer
  | some p =>
    have hnow : 0 < e₁.time.2 := time_pos hfind.clock
    have h₂ := hfind.keeps (keepsPeers_tod e₁)
    have h₃ := h₂.keeps (keepsPeers_modifyKnown _ p (f := fun scan =>
      { scan with
        lastP2p := if fromSupernode then scan.lastP2p else e₁.time.2
        isLocal := scan.isLocal || viaMulticast }) fun _ => ⟨rfl, id⟩)
    dsimp only
    split
    · exact h₃
    · exact .ite (checkKnownPeerSockChange_ok h₃ registerTtl fromSupernode viaMulticast mac devAddr
        devDesc peer hnow) h₃

/-- What leaves a peer both known and pending. -/
def InBoth (e : Edge) (mac : Mac) : Prop :=
  macAt e.knownPeers mac ≠ none ∧ macAt e.pendingPeers mac ≠ none

theorem InBoth.not_tablesOk {e : Edge} {mac : Mac} (h : e.InBoth mac) : ¬ e.TablesOk :=
  fun hok => h.1 (hok.peers.macAt_known h.2)

theorem InBoth.modifyKnown {e : Edge} {mac : Mac} (h : e.InBoth mac) (p : ℕ)
    {f : EdgePeer → EdgePeer} (hf : ∀ peer, (f peer).macAddr = peer.macAddr) :
    (e.modifyKnown p f).InBoth mac := by
  refine ⟨fun hnone => h.1 ?_, h.2⟩
  unfold macAt peerByMac at hnone ⊢
  unfold Edge.modifyKnown at hnone
  rw [Table.find?_modify _ p fun peer => by rw [hf], Option.map_map, Option.map_eq_none_iff]
    at hnone
  rw [hnone]
  rfl

/-- The supernode may see another socket, so that a known peer stays known. -/
theorem InBoth.checkKnownPeerSockChange {e : Edge} {mac : Mac} (h : e.InBoth mac)
    (registerTtl : ℤ) (viaMulticast : Bool) (devAddr : Option IpSubnet) (devDesc : Option Desc)
    (peer : Sock) (now : ℤ) :
    (e.checkKnownPeerSockChange registerTtl true viaMulticast mac devAddr devDesc peer
      now).InBoth mac := by
  unfold Edge.checkKnownPeerSockChange
  simp only [Bool.not_true, Bool.false_eq_true, if_false]
  split_ifs
  · exact h
  · exact h
  · cases peerByMac e.knownPeers mac with
    | none => exact h
    | some found =>
      dsimp only
      split_ifs
      · exact h
      · exact h.modifyKnown found.1 fun _ => rfl

/-- **The condition is exact** for a message that comes through a supernode: without it the peer is
known and pending. -/
theorem checkPeerRegistrationNeeded_iff {e : Edge} (h : e.TablesOk) (registerTtl : ℤ)
    (viaMulticast : Bool) {mac : Mac} (cookie : UInt32) (devAddr : Option IpSubnet)
    (devDesc : Option Desc) {peer : Sock} :
    (e.checkPeerRegistrationNeeded registerTtl true viaMulticast mac cookie devAddr devDesc
      peer).TablesOk ↔ e.NeedOk mac peer := by
  refine ⟨fun htables hknown hpeer => ?_, checkPeerRegistrationNeeded_ok h registerTtl true
    viaMulticast cookie devAddr devDesc⟩
  by_contra hpending
  suffices hboth : (e.checkPeerRegistrationNeeded registerTtl true viaMulticast mac cookie devAddr
      devDesc peer).InBoth mac from hboth.not_tablesOk htables
  obtain ⟨q, hq⟩ := Option.ne_none_iff_exists'.mp hpeer
  obtain ⟨found, hfound, -⟩ := Option.map_eq_some_iff.mp hq
  -- the entry with the socket gets the MAC
  have hnone : peerByMac e.knownPeers mac = none := Option.map_eq_none_iff.mp hknown
  have hfind : e.findKnown mac peer = ({ e with knownPeers := e.knownPeers.rekey found.1 fun scan =>
      { scan.rename mac with lastCookie := noRegCookie } }, some found.1) := by
    rw [findKnown, hnone]
    dsimp only
    rw [hfound]
  have hboth : InBoth { e with knownPeers := e.knownPeers.rekey found.1 fun scan =>
      { scan.rename mac with lastCookie := noRegCookie } } mac := by
    refine ⟨?_, hpending⟩
    rw [ne_eq, macAt_eq_none]
    intro hall
    have hself := Table.get?_rekey_self (f := fun scan : EdgePeer =>
      { scan.rename mac with lastCookie := noRegCookie }) (Table.first?_eq_some hfound).1
    exact hall _ (Table.mem_of_get? hself) rfl
  unfold checkPeerRegistrationNeeded
  rw [hfind]
  dsimp only
  generalize { e with knownPeers := e.knownPeers.rekey found.1 fun scan =>
      { scan.rename mac with lastCookie := noRegCookie } } = e₁ at hboth ⊢
  have htime : e₁.time.1.InBoth mac := hboth
  have hmodify := htime.modifyKnown found.1 (f := fun scan =>
    { scan with lastP2p := scan.lastP2p, isLocal := scan.isLocal || viaMulticast }) fun _ => rfl
  split
  · exact hmodify
  · split
    · exact hmodify.checkKnownPeerSockChange registerTtl viaMulticast devAddr devDesc peer _
    · exact hmodify

/-- What `peer_set_p2p_confirmed` relies on: a pending peer that is found by its socket only has
its MAC changed on the way, and to a MAC that no other known peer has. -/
def ConfirmOk (e : Edge) (mac : Mac) (peer : Sock) : Prop :=
  macAt e.pendingPeers mac ≠ none ∨ sockAt e.pendingPeers peer = none ∨
    if sockAt e.knownPeers peer = none then macAt e.knownPeers mac ≠ none
    else macAt e.knownPeers mac = none ∨ macAt e.knownPeers mac = sockAt e.knownPeers peer

instance (e : Edge) (mac : Mac) (peer : Sock) : Decidable (e.ConfirmOk mac peer) :=
  inferInstanceAs (Decidable (_ ∨ _ ∨ ite _ _ _))

/-- The entry that is found is in the table. -/
theorem findPending_get {e : Edge} {mac : Mac} {peer : Sock} {found : ℕ × EdgePeer}
    (h : e.findPending mac peer = some found) :
    ∃ scan, e.pendingPeers.get? found.1 = some scan ∧ scan.macAddr = found.2.macAddr := by
  unfold findPending at h
  cases hmac : peerByMac e.pendingPeers mac with
  | some found' =>
    rw [hmac] at h
    cases h
    exact ⟨_, (peerByMac_eq_some hmac).1, rfl⟩
  | none =>
    rw [hmac] at h
    obtain ⟨found', hfound', rfl⟩ := Option.map_eq_some_iff.mp h
    exact ⟨_, (Table.first?_eq_some hfound').1, rfl⟩

/-- It has the MAC, or nobody there has it and it has the socket. -/
theorem findPending_cases {e : Edge} {mac : Mac} {peer : Sock} {found : ℕ × EdgePeer}
    (h : e.findPending mac peer = some found) :
    (macAt e.pendingPeers mac ≠ none ∧ found.2.macAddr = mac) ∨
      (macAt e.pendingPeers mac = none ∧ sockAt e.pendingPeers peer ≠ none) := by
  unfold findPending at h
  cases hmac : peerByMac e.pendingPeers mac with
  | some found' =>
    rw [hmac] at h
    cases h
    exact Or.inl ⟨by simp [macAt, hmac], (peerByMac_eq_some hmac).2⟩
  | none =>
    rw [hmac] at h
    obtain ⟨found', hfound', rfl⟩ := Option.map_eq_some_iff.mp h
    exact Or.inr ⟨by simp [macAt, hmac], by simp [sockAt, hfound']⟩

/-- Once the entry found is taken out of `pending_peers`, nobody there has the MAC. -/
theorem findPending_del {e : Edge} (h : e.TablesOk) {mac : Mac} {peer : Sock}
    {found : ℕ × EdgePeer} (hfound : e.findPending mac peer = some found) :
    macAt (e.pendingPeers.del found.1) mac = none := by
  unfold findPending at hfound
  cases hmac : peerByMac e.pendingPeers mac with
  | some found' =>
    rw [hmac] at hfound
    cases hfound
    exact macAt_del h.peers.pendingDistinct (congrArg (Option.map Prod.fst) hmac)
  | none =>
    exact (Kept.del e.pendingPeers found.1).macAt_eq_none (congrArg (Option.map Prod.fst) hmac)

/-- **`peer_set_p2p_confirmed`**: the tables stay as they should be, and if an entry is found the
peer is known by its MAC. -/
theorem peerSetP2pConfirmed_ok {e : Edge} (h : e.TablesOk) {mac : Mac} (cookie : UInt32)
    {peer : Sock} {now : ℤ} (hnow : 0 < now) (hconfirm : e.ConfirmOk mac peer) :
    (e.peerSetP2pConfirmed mac cookie peer now).TablesOk ∧
      ((e.findPending mac peer).isSome →
        ∃ scan ∈ (e.peerSetP2pConfirmed mac cookie peer now).knownPeers, scan.macAddr = mac) := by
  unfold peerSetP2pConfirmed
  cases hfound : e.findPending mac peer with
  | none => exact ⟨h, by simp⟩
  | some found =>
    obtain ⟨scan, hget, hscan⟩ := findPending_get hfound
    have hdel := findPending_del h hfound
    have hcases := findPending_cases hfound
    dsimp only
    cases hsock : findPeerBySock peer e.knownPeers with
    | some foundq =>
      have hat : sockAt e.knownPeers peer = some foundq.1 := congrArg (Option.map Prod.fst) hsock
      have hknown : macAt e.knownPeers mac = none ∨ macAt e.knownPeers mac = some foundq.1 := by
        rcases hcases with ⟨hpending, -⟩ | ⟨hpending, hpeer⟩
        · exact Or.inl (h.peers.macAt_known hpending)
        · rcases hconfirm with hne | hnone | hknown
          · exact absurd hpending hne
          · exact absurd hnone hpeer
          · rwa [if_neg (by simp [hat]), hat] at hknown
      refine ⟨⟨?_, h.clock⟩, fun _ => ?_⟩
      · exact (h.peers.of_kept (.refl _) (.del _ found.1)).renameKnown (fun _ => rfl)
          (fun _ _ => hnow) hknown hdel
      · have hget := (Table.first?_eq_some hsock).1
        exact ⟨_, Table.mem_of_get? (Table.get?_rekey_self hget), rfl⟩
    | none =>
      have hmac : scan.macAddr = (found.2.answered cookie peer now).macAddr := by
        rw [hscan, EdgePeer.answered_macAddr]
      refine ⟨⟨h.peers.confirm hget hmac hnow, h.clock⟩, fun _ => ?_⟩
      rcases hcases with ⟨-, heq⟩ | ⟨hpending, hpeer⟩
      · exact ⟨_, Table.mem_add.mpr (Or.inr rfl), (EdgePeer.answered_macAddr ..).trans heq⟩
      · -- the MAC of the answer is known already, at another socket
        have hknown : macAt e.knownPeers mac ≠ none := by
          rcases hconfirm with hne | hnone | hknown
          · exact absurd hpending hne
          · exact absurd hnone hpeer
          · rwa [if_pos (by simp [sockAt, hsock])] at hknown
        obtain ⟨known, hmem, heq⟩ := exists_of_macAt hknown
        exact ⟨known, Table.mem_add.mpr (Or.inl hmem), heq⟩

/-- **The condition is exact** for the answer of a peer: without it a MAC is known twice, or not at
all. -/
theorem peerSetP2pConfirmed_iff {e : Edge} (h : e.TablesOk) {mac : Mac} (cookie : UInt32)
    {peer : Sock} {now : ℤ} (hnow : 0 < now) :
    (e.peerSetP2pConfirmed mac cookie peer now).TablesOk ∧
      ((e.findPending mac peer).isSome →
        ∃ scan ∈ (e.peerSetP2pConfirmed mac cookie peer now).knownPeers, scan.macAddr = mac) ↔
    e.ConfirmOk mac peer := by
  refine ⟨fun ⟨htables, hknown⟩ => ?_, peerSetP2pConfirmed_ok h cookie hnow⟩
  by_contra hnot
  simp only [ConfirmOk, not_or, not_ne_iff] at hnot
  obtain ⟨hpending, hpeer, hnot⟩ := hnot
  obtain ⟨p, hp⟩ := Option.ne_none_iff_exists'.mp hpeer
  obtain ⟨foundp, hfoundp, -⟩ := Option.map_eq_some_iff.mp hp
  have hnone : peerByMac e.pendingPeers mac = none := Option.map_eq_none_iff.mp hpending
  have hfound : e.findPending mac peer =
      some (foundp.1, { foundp.2 with lastCookie := noRegCookie }) := by
    rw [findPending, hnone]
    exact congrArg (Option.map _) hfoundp
  have hmacp : foundp.2.macAddr ≠ mac :=
    macAt_eq_none.mp hpending _ (Table.mem_of_get? (Table.first?_eq_some hfoundp).1)
  unfold peerSetP2pConfirmed at htables hknown
  rw [hfound] at htables hknown
  dsimp only at htables hknown
  cases hsock : findPeerBySock peer e.knownPeers with
  | none =>
    -- the peer becomes known by its old MAC
    rw [hsock] at hknown
    rw [if_pos (by simp [sockAt, hsock]), not_ne_iff] at hnot
    obtain ⟨scan, hmem, hscan⟩ := hknown rfl
    rcases Table.mem_add.mp hmem with hmem | rfl
    · exact macAt_eq_none.mp hnot scan hmem hscan
    · exact hmacp ((EdgePeer.answered_macAddr { foundp.2 with lastCookie := noRegCookie } cookie
        peer now).symm.trans hscan)
  | some foundq =>
    -- a known peer gets the MAC of another one
    rw [hsock] at htables
    have hat : sockAt e.knownPeers peer = some foundq.1 := congrArg (Option.map Prod.fst) hsock
    rw [if_neg (by simp [hat]), hat, not_or] at hnot
    obtain ⟨found, hfound, -⟩ :=
      Option.map_eq_some_iff.mp (Option.ne_none_iff_exists'.mp hnot.1).choose_spec
    obtain ⟨hget, hmac⟩ := peerByMac_eq_some hfound
    have hne : found.1 ≠ foundq.1 := fun heq =>
      hnot.2 ((congrArg (Option.map Prod.fst) hfound).trans (congrArg some heq))
    refine hne (htables.peers.knownDistinct found.1 found.2 foundq.1 _ ?_
      (Table.get?_rekey_self (Table.first?_eq_some hsock).1) hmac trivial)
    rw [Table.get?_rekey, if_neg hne]
    exact hget

theorem checkQueryPeerInfo_ok {e : Edge} (h : e.TablesOk) {mac : Mac}
    (hmac : macAt e.knownPeers mac = none) (now : ℤ) (pings skip : ℕ) :
    (e.checkQueryPeerInfo now mac pings skip).TablesOk := by
  unfold checkQueryPeerInfo
  -- the query is sent for an entry that is there already, or that is added now
  have hquery : ∀ (e : Edge) (p : ℕ), e.TablesOk →
      (if e.registerInterval <
          now - ((e.pendingPeers.get? p).getD EdgePeer.zero).lastSentQuery then
        ((e.sendRegister e.sn.sock).sendQueryPeer mac pings skip).modifyPending p fun scan =>
          { scan with lastSentQuery := now }
      else e).TablesOk := by
    intro e p h
    refine .ite ?_ h
    have h₁ := h.keeps (keepsPeers_sendRegister e e.sn.sock)
    have h₂ := h₁.keeps (keepsPeers_sendQueryPeer _ mac pings skip)
    exact h₂.keeps (keepsPeers_modifyPending _ p fun _ => ⟨rfl, id⟩)
  cases hfound : peerByMac e.pendingPeers mac with
  | none =>
    have hpending : macAt e.pendingPeers mac = none := congrArg (Option.map Prod.fst) hfound
    exact hquery _ e.pendingPeers.next (h.addPending hmac hpending
      { e.newPending mac e.timeStamp.2 with lastSeen := now } rfl)
  | some found => exact hquery e found.1 h

theorem findPeerDestination_ok {e : Edge} (h : e.TablesOk) (mac : Mac) (pings skip : ℕ) :
    (e.findPeerDestination mac pings skip).1.TablesOk := by
  unfold findPeerDestination
  have h₁ : e.time.1.TablesOk := h.keeps (keepsPeers_tod e)
  generalize e.time = r at h₁ ⊢
  obtain ⟨e₁, now⟩ := r
  dsimp only at h₁ ⊢
  split_ifs
  · exact h₁
  · cases hfound : peerByMac e₁.knownPeers mac with
    | none =>
      exact checkQueryPeerInfo_ok h₁ (congrArg (Option.map Prod.fst) hfound) now pings skip
    | some found =>
      have hat : macAt e₁.knownPeers mac = some found.1 := congrArg (Option.map Prod.fst) hfound
      dsimp only
      split_ifs with hseen hold
      · have hdel : e₁.KeepsPeers { e₁ with knownPeers := e₁.knownPeers.del found.1 } :=
          ⟨.del _ _, .refl _, id⟩
        exact checkQueryPeerInfo_ok (h₁.keeps hdel) (macAt_del h₁.peers.knownDistinct hat) now
          pings skip
      · exact h₁
      · -- a known peer has been seen
        have hget := (peerByMac_eq_some hfound).1
        exact absurd (h₁.peers.seen _ (Table.mem_of_get? hget)) hseen

theorem sendPacket_ok {e : Edge} (h : e.TablesOk) (dstMac : Mac) (pings skip : ℕ) :
    (e.sendPacket dstMac pings skip).TablesOk := by
  unfold sendPacket
  refine .ite h ?_
  have h₁ := findPeerDestination_ok h dstMac pings skip
  generalize e.findPeerDestination dstMac pings skip = r at h₁ ⊢
  exact .ite (h₁.keeps (.foldl keepsPeers_sendtoSock _ r.1))
    (h₁.keeps (keepsPeers_sendtoSock r.1 _))

/-! ### The check of a time stamp -/

/-- A write to the stamps of a table. -/
theorem macAt_modify_stamp (peers : Table EdgePeer) (p : ℕ) (stamp : EdgePeer → UInt64)
    (mac : Mac) :
    macAt (peers.modify p fun peer => { peer with lastValidTimeStamp := stamp peer }) mac =
      macAt peers mac := by
  unfold macAt peerByMac
  rw [Table.find?_modify peers p (f := fun peer =>
    { peer with lastValidTimeStamp := stamp peer }) fun _ => rfl, Option.map_map]
  congr 1
  exact funext fun found => Table.updateAt_fst p _ found

theorem sockAt_modify_stamp (peers : Table EdgePeer) (p : ℕ) (stamp : EdgePeer → UInt64)
    (sock : Sock) :
    sockAt (peers.modify p fun peer => { peer with lastValidTimeStamp := stamp peer }) sock =
      sockAt peers sock := by
  unfold sockAt findPeerBySock
  rw [Table.first?_modify peers p (f := fun peer =>
    { peer with lastValidTimeStamp := stamp peer }) fun _ => rfl, Option.map_map]
  congr 1
  exact funext fun found => Table.updateAt_fst p _ found

/-- The two tables hold the same peers, but for the stamps. -/
structure SamePeers (e e' : Edge) : Prop extends KeepsPeers e e' where
  macKnown : ∀ mac, macAt e'.knownPeers mac = macAt e.knownPeers mac
  macPending : ∀ mac, macAt e'.pendingPeers mac = macAt e.pendingPeers mac
  sockKnown : ∀ sock, sockAt e'.knownPeers sock = sockAt e.knownPeers sock
  sockPending : ∀ sock, sockAt e'.pendingPeers sock = sockAt e.pendingPeers sock
  lastSup : e'.lastSup = e.lastSup
  macAddr : e'.macAddr = e.macAddr

theorem SamePeers.of_eq {e e' : Edge} (hkeeps : e.KeepsPeers e')
    (hk : e'.knownPeers = e.knownPeers) (hp : e'.pendingPeers = e.pendingPeers)
    (hsup : e'.lastSup = e.lastSup) (hmac : e'.macAddr = e.macAddr) : e.SamePeers e' :=
  ⟨hkeeps, fun _ => by rw [hk], fun _ => by rw [hp], fun _ => by rw [hk], fun _ => by rw [hp],
    hsup, hmac⟩

theorem samePeers_findPeerTimeStampAndVerify (e : Edge) (sn : Option ℕ) (mac : Mac)
    (stamp : UInt64) (allowJitter : Bool) :
    e.SamePeers (e.findPeerTimeStampAndVerify sn mac stamp allowJitter).1 := by
  have h := keepsPeers_timeStamp e
  unfold findPeerTimeStampAndVerify
  dsimp only
  split
  · split
    · exact .of_eq (h.trans (.of_eq rfl rfl rfl)) rfl rfl rfl rfl
    · exact .of_eq h rfl rfl rfl rfl
  · split
    · refine ⟨h.trans (keepsPeers_modifyPending _ _ fun _ => ⟨rfl, id⟩), fun _ => rfl, fun _ => ?_,
        fun _ => rfl, fun _ => ?_, rfl, rfl⟩
      · exact macAt_modify_stamp _ _ _ _
      · exact sockAt_modify_stamp _ _ _ _
    · split
      · refine ⟨h.trans (keepsPeers_modifyKnown _ _ fun _ => ⟨rfl, id⟩), fun _ => ?_,
          fun _ => rfl, fun _ => ?_, fun _ => rfl, rfl, rfl⟩
        · exact macAt_modify_stamp _ _ _ _
        · exact sockAt_modify_stamp _ _ _ _
      · exact .of_eq h rfl rfl rfl rfl

theorem samePeers_checkStamp (e : Edge) (d : EdgeDispatch) (mac : Mac) (allowJitter : Bool) :
    e.SamePeers (e.checkStamp d mac allowJitter).1 := by
  unfold checkStamp
  split_ifs
  · exact samePeers_findPeerTimeStampAndVerify e d.sn mac d.stamp allowJitter
  · exact .of_eq (.refl e) rfl rfl rfl rfl

theorem SamePeers.needOk {e e' : Edge} (h : e.SamePeers e') (mac : Mac) (peer : Sock) :
    e'.NeedOk mac peer ↔ e.NeedOk mac peer := by
  rw [NeedOk, NeedOk, h.macKnown, h.macPending, h.sockKnown]

theorem SamePeers.confirmOk {e e' : Edge} (h : e.SamePeers e') (mac : Mac) (peer : Sock) :
    e'.ConfirmOk mac peer ↔ e.ConfirmOk mac peer := by
  rw [ConfirmOk, ConfirmOk, h.macKnown, h.macPending, h.sockKnown, h.sockPending]

/-! ### Received messages -/

theorem keepsPeers_learnPeer (e : Edge) (cmn : Common) (pi : PeerInfoMsg) (now : ℤ)
    {store : Edge → (EdgePeer → EdgePeer) → Edge}
    (hstore : ∀ (e : Edge) (f : EdgePeer → EdgePeer), (∀ peer, (f peer).macAddr = peer.macAddr ∧
      (0 < peer.lastSeen → 0 < (f peer).lastSeen)) → e.KeepsPeers (store e f)) :
    e.KeepsPeers (e.learnPeer cmn pi now store) := by
  unfold learnPeer
  extract_lets e₁ e₂ e₃
  have h₁ : e.KeepsPeers e₁ := keepsPeers_supernodeSeen e now
  have h₂ : e₁.KeepsPeers e₂ := hstore e₁ _ fun _ => ⟨rfl, id⟩
  have hpreferred := hstore e₂ (fun peer => { peer with preferredSock := pi.preferredSock })
    fun _ => ⟨rfl, id⟩
  have h₃ : e₂.KeepsPeers e₃ :=
    .ite (hpreferred.trans (keepsPeers_sendRegister _ pi.preferredSock)) (.refl e₂)
  exact ((h₁.trans h₂).trans h₃).trans (keepsPeers_sendRegister e₃ _)

theorem keepsPeers_handlePeerInfo (e : Edge) (rx : EdgeRx) (d : EdgeDispatch) :
    e.KeepsPeers (e.handlePeerInfo rx d) := by
  unfold handlePeerInfo
  have h := (samePeers_checkStamp e d nullMac true).toKeepsPeers
  dsimp only
  generalize e.checkStamp d nullMac true = r at h ⊢
  obtain ⟨e₁, ok⟩ := r
  refine .ite (h.trans (.ite (.refl e₁) (.ite ?_ ?_))) h
  · split <;> exact .of_eq rfl rfl rfl
  · split
    · exact keepsPeers_learnPeer e₁ _ _ _ fun e f hf => keepsPeers_modifyPending e _ hf
    · split
      · exact keepsPeers_learnPeer e₁ _ _ _ fun e f hf => keepsPeers_modifyKnown e _ hf
      · exact .refl e₁

/-- A pending registration is purged. -/
theorem keepsPeers_findAndRemovePeer (e : Edge) (mac : Mac) :
    e.KeepsPeers { e with pendingPeers := findAndRemovePeer e.pendingPeers mac } :=
  ⟨.refl _, .findAndRemovePeer _ mac, id⟩

/-- A message that comes from the peer itself: no pending registration is left. -/
theorem needOk_of_pending {e : Edge} {mac : Mac} (peer : Sock)
    (h : macAt e.pendingPeers mac = none) : e.NeedOk mac peer := fun _ _ => h

/-- What the handling of a PACKET relies on. -/
def PacketOk (e : Edge) (d : EdgeDispatch) : Prop :=
  let pkt := (decodePacket d.cmn d.udpBuf d.cur).out
  isFromSupernode d.cmn = true → (e.checkStamp d pkt.srcMac true).2 = true → e.lastSup ≠ 0 →
    e.NeedOk pkt.srcMac (origSender d pkt.sock)

/-- What the handling of a REGISTER relies on. -/
def RegisterOk (e : Edge) (rx : EdgeRx) (d : EdgeDispatch) : Prop :=
  let reg := (decodeRegister d.cmn d.udpBuf d.cur).out
  let viaMulticast := rx.inSock == e.transport.udpMulticastSock && isNullMac reg.dstMac
  isFromSupernode d.cmn = true → (e.checkStamp d reg.srcMac viaMulticast).2 = true →
    e.skipsRegister viaMulticast reg = false → e.NeedOk reg.srcMac (origSender d reg.sock)

/-- What the handling of a REGISTER_ACK relies on. -/
def RegisterAckOk (e : Edge) (d : EdgeDispatch) : Prop :=
  let ra := (decodeRegisterAck d.cmn d.udpBuf d.cur).out
  (e.checkStamp d ra.srcMac false).2 = true → e.ConfirmOk ra.srcMac d.sender

theorem TablesOk.afterCheck {r : Edge × Bool} {next : Edge → Edge} (h : r.1.TablesOk)
    (hnext : r.2 = true → (next r.1).TablesOk) : (Edge.afterCheck r next).TablesOk := by
  unfold Edge.afterCheck
  split
  · next hr => exact hnext hr
  · exact h

theorem handlePacket_ok {e : Edge} (h : e.TablesOk) (registerTtl : ℤ) (rx : EdgeRx)
    {d : EdgeDispatch} (hok : e.PacketOk d) : (e.handlePacket registerTtl rx d).TablesOk := by
  unfold handlePacket
  extract_lets pkt fromSupernode viaMulticast
  have hsame := samePeers_checkStamp e d pkt.srcMac true
  have h₁ := h.keeps hsame.toKeepsPeers
  refine .afterCheck h₁ fun hcheck => ?_
  by_cases hsup : (e.checkStamp d pkt.srcMac true).1.lastSup = 0
  · rwa [if_pos hsup]
  rw [if_neg hsup]
  cases hfrom : fromSupernode with
  | true =>
    have hneed := hok hfrom hcheck fun h0 => hsup (hsame.lastSup.trans h0)
    have h₂ := checkPeerRegistrationNeeded_ok h₁ registerTtl true viaMulticast forwardedRegCookie
      none none ((hsame.needOk pkt.srcMac (origSender d pkt.sock)).mpr hneed)
    exact h₂.keeps ((keepsPeers_tod _).trans (.of_eq rfl rfl rfl))
  | false =>
    have hremoved := macAt_findAndRemovePeer h₁.peers.pendingDistinct pkt.srcMac
    have h₂ := checkPeerRegistrationNeeded_ok (h₁.keeps (keepsPeers_findAndRemovePeer _ pkt.srcMac))
      registerTtl false viaMulticast regularRegCookie none none
      (needOk_of_pending d.sender hremoved)
    exact h₂.keeps (keepsPeers_tod _)

theorem handleRegister_ok {e : Edge} (h : e.TablesOk) (registerTtl : ℤ) (rx : EdgeRx)
    {d : EdgeDispatch} (hok : e.RegisterOk rx d) :
    (e.handleRegister registerTtl rx d).TablesOk := by
  unfold handleRegister
  extract_lets reg fromSupernode viaMulticast
  have hsame := samePeers_checkStamp e d reg.srcMac viaMulticast
  have h₁ := h.keeps hsame.toKeepsPeers
  refine .afterCheck h₁ fun hcheck => ?_
  have hskips : (e.checkStamp d reg.srcMac viaMulticast).1.skipsRegister viaMulticast reg =
      e.skipsRegister viaMulticast reg := by
    rw [skipsRegister, hsame.macAddr]
    rfl
  rw [hskips]
  cases hskip : e.skipsRegister viaMulticast reg with
  | true => exact h₁
  | false =>
    cases hfrom : fromSupernode with
    | true =>
      have hneed := hok hfrom hcheck hskip
      exact checkPeerRegistrationNeeded_ok h₁ registerTtl true viaMulticast reg.cookie
        (some reg.devAddr) (some reg.devDesc)
        ((hsame.needOk reg.srcMac (origSender d reg.sock)).mpr hneed)
    | false =>
      have hremoved := macAt_findAndRemovePeer h₁.peers.pendingDistinct reg.srcMac
      have hack := keepsPeers_sendRegisterAck
        { (e.checkStamp d reg.srcMac viaMulticast).1 with
          pendingPeers := findAndRemovePeer (e.checkStamp d reg.srcMac viaMulticast).1.pendingPeers
            reg.srcMac } (origSender d reg.sock)
      have h₂ := (h₁.keeps (keepsPeers_findAndRemovePeer _ reg.srcMac)).keeps hack
      exact checkPeerRegistrationNeeded_ok h₂ registerTtl false viaMulticast reg.cookie
        (some reg.devAddr) (some reg.devDesc)
        (needOk_of_pending _ (hack.pending.macAt_eq_none hremoved))

theorem handleRegisterAck_ok {e : Edge} (h : e.TablesOk) {rx : EdgeRx} (hnow : 0 < rx.now)
    {d : EdgeDispatch} (hok : e.RegisterAckOk d) : (e.handleRegisterAck rx d).TablesOk := by
  unfold handleRegisterAck
  extract_lets ra
  have hsame := samePeers_checkStamp e d ra.srcMac false
  have h₁ := h.keeps hsame.toKeepsPeers
  refine .afterCheck h₁ fun hcheck => ?_
  exact (peerSetP2pConfirmed_ok h₁ ra.cookie hnow
    ((hsame.confirmOk ra.srcMac d.sender).mpr (hok hcheck))).1

/-- The condition on a received packet, in the state before. -/
def ReceiveOk (e : Edge) (rx : EdgeRx) : Prop :=
  ∀ d ∈ e.dispatched rx,
    if d.cmn.pc = msgTypePacket then e.PacketOk d
    else if d.cmn.pc = msgTypeRegister then e.RegisterOk rx d
    else if d.cmn.pc = msgTypeRegisterAck then e.RegisterAckOk d
    else True

section

variable (e : Edge) (rx : EdgeRx) (d : EdgeDispatch)

instance : Decidable (e.PacketOk d) := inferInstanceAs (Decidable (_ → _ → _ → _))

instance : Decidable (e.RegisterOk rx d) := inferInstanceAs (Decidable (_ → _ → _ → _))

instance : Decidable (e.RegisterAckOk d) := inferInstanceAs (Decidable (_ → _))

instance : Decidable (e.ReceiveOk rx) :=
  inferInstanceAs (Decidable (∀ d ∈ e.dispatched rx, ite _ _ (ite _ _ (ite _ _ _))))

end

theorem processPeers_ok {e : Edge} (h : e.TablesOk) (registerTtl : ℤ) {rx : EdgeRx}
    (hnow : 0 < rx.now) (hok : e.ReceiveOk rx) : (e.processPeers registerTtl rx).TablesOk := by
  unfold processPeers
  cases hd : e.dispatched rx with
  | none => exact h
  | some d =>
    have hok := hok d hd
    dsimp only
    split_ifs at hok ⊢
    · exact handlePacket_ok h registerTtl rx hok
    · exact handleRegister_ok h registerTtl rx hok
    · exact handleRegisterAck_ok h hnow hok
    · exact h.keeps (keepsPeers_handlePeerInfo e rx d)
    · exact h

end Edge

/-! ### Runs -/

/-- What happens to the tables. -/
inductive PeerEvent where
  /-- a message of another edge, directly or through a supernode -/
  | receive (registerTtl : ℤ) (rx : EdgeRx)
  | sendPacket (dstMac : Mac) (pings skip : ℕ)
  | purgeKnown (purgeBefore : ℤ)
  | purgePending (purgeBefore : ℤ)
  /-- anything else that the edge does: it does not add to the tables -/
  | other (e' : Edge)

/-- An event happens. -/
def PeerEvent.apply (e : Edge) : PeerEvent → Edge
  | receive registerTtl rx => e.processPeers registerTtl rx
  | sendPacket dstMac pings skip => e.sendPacket dstMac pings skip
  | purgeKnown purgeBefore => { e with knownPeers := purgePeerList e.knownPeers purgeBefore }
  | purgePending purgeBefore => { e with pendingPeers := purgePeerList e.pendingPeers purgeBefore }
  | other e' => e'

/-- Messages come in past 1970; the known peers are not purged while there is no supernode. -/
def PeerEvent.Enabled (e : Edge) : PeerEvent → Prop
  | receive _ rx => 0 < rx.now
  | purgeKnown _ => e.transport.snWait = 0
  | other e' => e.KeepsPeers e'
  | _ => True

/-- The edge as it is started, without peers. -/
structure Edge.InitialPeers (e : Edge) : Prop extends e.Initial where
  known : e.knownPeers = Table.empty
  pending : e.pendingPeers = Table.empty
  clock : e.ClockOk

/-- The runs of an edge, as far as its peers are concerned. -/
def peerMachine : Machine Edge PeerEvent := ⟨Edge.InitialPeers, PeerEvent.Enabled, PeerEvent.apply⟩

/-- The condition on an event, in the state before. -/
def PeerEvent.Ok (e : Edge) : PeerEvent → Prop
  | receive _ rx => e.ReceiveOk rx
  | _ => True

theorem Edge.TablesOk.initial {e : Edge} (h : e.InitialPeers) : e.TablesOk := by
  refine ⟨?_, h.clock⟩
  rw [h.known, h.pending]
  exact ⟨.empty, .empty, fun a ha => absurd ha List.not_mem_nil,
    fun a ha => absurd ha List.not_mem_nil⟩

theorem Edge.TablesOk.apply {e : Edge} (h : e.TablesOk) {ev : PeerEvent} (hen : ev.Enabled e)
    (hok : ev.Ok e) : (ev.apply e).TablesOk := by
  cases ev with
  | receive registerTtl rx => exact Edge.processPeers_ok h registerTtl hen hok
  | sendPacket dstMac pings skip => exact Edge.sendPacket_ok h dstMac pings skip
  | purgeKnown purgeBefore => exact h.keeps ⟨.purge _ purgeBefore, .refl _, id⟩
  | purgePending purgeBefore => exact h.keeps ⟨.refl _, .purge _ purgeBefore, id⟩
  | other e' => exact h.keeps hen

theorem tablesOk_of_reach {e : Edge} (h : peerMachine.Reach PeerEvent.Ok e) : e.TablesOk :=
  h.invariant (fun _ => .initial) fun _ _ h hen hok => h.apply hen hok

/-! ### Runs of one edge -/

theorem length_macOf (b : UInt8) : [2, 0, 0, 0, 0, b].length = 6 :=
  rfl

/-- A MAC that is locally administered. -/
def macOf (b : UInt8) : Mac := ⟨[2, 0, 0, 0, 0, b], length_macOf b⟩

/-- A socket, as `fill_n2nsock` makes it. -/
def sockOf (port : UInt16) : Sock := fillN2nSock (.v4 port ⟨[10, 0, 0, 1], rfl⟩)

/-- An edge of a community without encryption, with one supernode. -/
def plainEdge : Edge :=
  { startedEdge false sparedSockets with
    conf := { userConf with headerEncryption := false, sharedSecret := none }
    macAddr := macOf 9
    supernodes := Table.empty.add { PeerInfo.zero with sock := sockOf 1 }
    env := { (startedEdge false sparedSockets).env with tods := Stream'.const ⟨1000, 0⟩ } }

theorem plainEdge_initial : plainEdge.InitialPeers where
  toInitial := ⟨⟨rfl, rfl, rfl⟩, rfl, rfl, ⟨rfl, rfl⟩, ⟨rfl, rfl⟩, rfl, rfl, sparedSockets_ok⟩
  known := rfl
  pending := rfl
  clock := fun _ => show 0 < (1000 : UInt64) by decide

/-- A datagram. -/
def plainRx (sender : Sock) (pkt : Encoded) : EdgeRx :=
  ⟨sender, 3, pkt.bytes, 1000, [], [], Sock.zero⟩

/-- The common part of a message in this community. -/
def plainCommon (pc : UInt8) (flags : UInt16) : Common :=
  ⟨defaultTtl, pc, flags, plainEdge.conf.communityName⟩

/-- A REGISTER for this edge. -/
def registerFrom (mac : Mac) (flags : UInt16) (sock : Sock) : Encoded :=
  encodeRegister (encodeStart []) (plainCommon msgTypeRegister flags)
    ⟨regularRegCookie, mac, plainEdge.macAddr, sock, ⟨0, 0⟩, List.Vector.replicate 16 0⟩

/-- A REGISTER_ACK for this edge. -/
def registerAckFrom (mac : Mac) : Encoded :=
  encodeRegisterAck (encodeStart []) (plainCommon msgTypeRegisterAck 0)
    ⟨regularRegCookie, plainEdge.macAddr, mac, Sock.zero⟩

/-- A PEER_INFO from the supernode. -/
def peerInfoOf (mac : Mac) (sock : Sock) : Encoded :=
  encodePeerInfo (encodeStart []) (plainCommon msgTypePeerInfo flagsFromSupernode)
    ⟨0, nullMac, mac, sock, Sock.zero, 0, List.Vector.replicate 20 0, 0⟩

/-- The edge is connected. -/
theorem connectedEdge_reach {cond : Edge → PeerEvent → Prop}
    (hcond : cond plainEdge (.other plainEdge.connect)) :
    peerMachine.Reach cond plainEdge.connect :=
  have hconnect : plainEdge.KeepsPeers plainEdge.connect := .of_eq rfl rfl rfl
  .step (PeerEvent.other plainEdge.connect) (.init plainEdge_initial) hconnect hcond

/-- A peer registers with it. -/
def registeredEdge : Edge :=
  PeerEvent.apply plainEdge.connect
    (.receive 0 (plainRx (sockOf 7) (registerFrom (macOf 1) 0 Sock.zero)))

theorem registeredEdge_reach : peerMachine.Reach PeerEvent.Ok registeredEdge :=
  have hok : plainEdge.connect.ReceiveOk
      (plainRx (sockOf 7) (registerFrom (macOf 1) 0 Sock.zero)) := by decide +kernel
  Machine.Reach.step (M := peerMachine)
    (PeerEvent.receive 0 (plainRx (sockOf 7) (registerFrom (macOf 1) 0 Sock.zero)))
    (connectedEdge_reach trivial) (show (0 : ℤ) < 1000 by decide) hok

/-- **The tables in a run in which no MAC changes at a bad moment**: no MAC occurs twice in one
table, none occurs in both, and after `peer_set_p2p_confirmed` has found an entry, and does not
find it by a socket whose owner has changed, the peer is known by its MAC. -/
theorem peers_of_reach {e : Edge} (h : peerMachine.Reach PeerEvent.Ok e) :
    e.knownPeers.DistinctOn (·.macAddr) (fun _ => True) ∧
    e.pendingPeers.DistinctOn (·.macAddr) (fun _ => True) ∧
    (∀ a ∈ e.knownPeers, ∀ b ∈ e.pendingPeers, a.macAddr ≠ b.macAddr) ∧
    ∀ mac cookie peer now, 0 < now → e.ConfirmOk mac peer → (e.findPending mac peer).isSome →
      ∃ scan ∈ (e.peerSetP2pConfirmed mac cookie peer now).knownPeers, scan.macAddr = mac := by
  have hok := tablesOk_of_reach h
  refine ⟨hok.peers.knownDistinct, hok.peers.pendingDistinct, hok.peers.apart, ?_⟩
  intro mac cookie peer now hnow hconfirm
  exact (Edge.peerSetP2pConfirmed_ok hok cookie hnow hconfirm).2

/-- The peer that has registered confirms. -/
theorem peers_registered :
    ∃ scan ∈ (registeredEdge.peerSetP2pConfirmed (macOf 1) regularRegCookie (sockOf 7)
      1000).knownPeers, scan.macAddr = macOf 1 :=
  (peers_of_reach registeredEdge_reach).2.2.2 (macOf 1) regularRegCookie (sockOf 7) 1000
    (by decide) (by decide +kernel) (by decide +kernel)

/-- The peer is known, a PEER_INFO tells its socket, and the edge looks for another one, which then
registers from there. -/
def renamingRun : List PeerEvent :=
  [.receive 0 (plainRx (sockOf 7) (registerAckFrom (macOf 1))),
    .receive 0 (plainRx (sockOf 1) (peerInfoOf (macOf 1) (sockOf 7))),
    .sendPacket (macOf 2) 0 0,
    .receive 0 (plainRx (sockOf 1)
      (registerFrom (macOf 2) (flagsFromSupernode ||| flagsSocket) (sockOf 7)))]

/-- **Neither half holds in every run.**  The MAC of a known peer changes to one that is pending;
and the answer of a peer whose MAC has changed makes the old MAC known. -/
theorem peers_fail :
    (∃ e, peerMachine.Reach anyStep e ∧
      ∃ a ∈ e.knownPeers, ∃ b ∈ e.pendingPeers, a.macAddr = b.macAddr) ∧
    ∃ e, peerMachine.Reach anyStep e ∧ ∃ mac cookie peer now, 0 < now ∧
      (e.findPending mac peer).isSome ∧
      ∀ scan ∈ (e.peerSetP2pConfirmed mac cookie peer now).knownPeers, scan.macAddr ≠ mac := by
  have hreach : peerMachine.Reach anyStep registeredEdge :=
    registeredEdge_reach.mono fun _ _ _ => trivial
  have hnow : (0 : ℤ) < 1000 := by decide
  constructor
  · have hruns : peerMachine.Runs registeredEdge renamingRun :=
      ⟨hnow, hnow, trivial, hnow, trivial⟩
    have hknown : macAt (renamingRun.foldl PeerEvent.apply registeredEdge).knownPeers (macOf 2) ≠
        none := by
      decide +kernel
    have hpending : macAt (renamingRun.foldl PeerEvent.apply registeredEdge).pendingPeers
        (macOf 2) ≠ none := by
      decide +kernel
    obtain ⟨a, ha, hmaca⟩ := exists_of_macAt hknown
    obtain ⟨b, hb, hmacb⟩ := exists_of_macAt hpending
    exact ⟨_, hreach.runs hruns, a, ha, b, hb, hmaca.trans hmacb.symm⟩
  · refine ⟨registeredEdge, hreach, macOf 2, regularRegCookie, sockOf 7, 1000, hnow, ?_, ?_⟩
    · decide +kernel
    · rw [← macAt_eq_none]
      decide +kernel

end N2n
