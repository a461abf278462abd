import N2nTun.AutoIp
import N2nTun.SnSend

/-!
# What a supernode does on its own

Registrations with other supernodes, requests for the edges to register again, dynamic
keys, and the purges of `run_sn_loop`.

## Main definitions

* `World.sealStatic`, `World.sealDynamic` — a header is encrypted, if the community uses it.
* `World.sendReRegisterSuper`, `Sn.calculateDynamicKeys`, `World.newKeyTime`.
* `World.reRegisterAndPurgeSupernodes`, `Sn.purgeExpiredCommunities`, `Sn.sortCommunities`.
-/

namespace N2n

open Bytes

/-! ### Encrypting a header -/

namespace World

/-- `packet_header_encrypt` with the stamp of `time_stamp`.  A `NULL` context would end the
program; the packet is left as it is then. -/
def encryptHeader (w : World) (ctx iv : Option SpeckContext) (pkt : Pkt) (headerLen : ℕ) :
    World × Pkt :=
  let (w, stamp) := w.timeStamp
  match ctx, iv with
  | some ctx, some iv =>
    let (w, rand) := w.rand
    (w, { pkt with
      bytes := packetHeaderEncrypt pkt.bytes (UInt16.ofNat headerLen)
        (UInt16.ofNat pkt.bytes.length) ctx iv stamp rand.toUInt32 })
  | _, _ => (w, pkt)

/-- Under the static key, if the community's headers are encrypted. -/
def sealStatic (w : World) (comm : ℕ) (plain : List UInt8) : World × Pkt :=
  match w.sss.communities.get? comm with
  | some c =>
    if c.headerEncryption = .enabled then
      w.encryptHeader c.keys.ctxStatic c.keys.ivStatic (.ofPlain plain) plain.length
    else (w, .ofPlain plain)
  | none => (w, .ofPlain plain)

/-- Under the dynamic key, if the community's headers are encrypted. -/
def sealDynamic (w : World) (comm : ℕ) (plain : List UInt8) (headerLen : ℕ) : World × Pkt :=
  match w.sss.communities.get? comm with
  | some c =>
    if c.headerEncryption = .enabled then
      w.encryptHeader c.keys.ctxDynamic c.keys.ivDynamic (.ofPlain plain) headerLen
    else (w, .ofPlain plain)
  | none => (w, .ofPlain plain)

/-- `HASH_ITER` over the communities. -/
def forComms (w : World) (body : World → ℕ → Community → World) : World :=
  (w.sss.communities.entries.map Prod.fst).foldl
    (fun w p =>
      match w.sss.communities.get? p with
      | some c => body w p c
      | none => w) w

/-- `send_re_register_super`. -/
def sendReRegisterSuper (w : World) : World :=
  w.forComms fun w comm c =>
    if c.isFederation then w
    else if c.hasUsers then
      let cmn : Common := ⟨defaultTtl, msgTypeReRegisterSuper, flagsFromSupernode, c.community⟩
      w.forEdges comm fun w _ edge =>
        let plain := (encodeCommon (encodeStart []) cmn).bytes
        let (w, pkt) := w.encryptHeader c.keys.ctxDynamic c.keys.ivDynamic (.ofPlain plain)
          plain.length
        (w.sendtoPeer comm edge pkt false .default).1
    else w

end World

/-! ### Dynamic keys -/

/-- `calculate_dynamic_key`. -/
def calculateDynamicKey (keyTime : UInt32) (comm fed : CommunityName) : List UInt8 :=
  let key := pearsonHash128 (pearsonHash128 (pearsonHash128 comm.toList))
  let tmp := pearsonHash128 (pearsonHash128 (pearsonHash128 fed.toList))
  let ctx := speckInit (xorBytes key tmp)
  let out := pearsonHash128 (pearsonHash128 (pearsonHash128 (leBytes32 keyTime)))
  speck128Encrypt out ctx

/-- `sss->federation->community`. -/
def Sn.federationName (sss : Sn) : CommunityName :=
  match sss.communities.get? sss.federation with
  | some c => c.community
  | none => List.Vector.replicate 20 0

/-- The dynamic key of one community. -/
def Community.withDynamicKey (keyTime : UInt32) (fed : CommunityName) (comm : Community) :
    Community :=
  if comm.isFederation || !comm.hasUsers then comm
  else
    let dynamicKey := calculateDynamicKey keyTime comm.community fed
    { comm with
      dynamicKey := dynamicKey
      keys := packetHeaderChangeDynamicKey comm.keys dynamicKey }

/-- `calculate_dynamic_keys`. -/
def Sn.calculateDynamicKeys (sss : Sn) : Sn :=
  { sss with
    communities := sss.communities.mapValues
      (Community.withDynamicKey sss.dynamicKeyTime sss.federationName) }

/-! ### Other supernodes -/

/-- `ntohl` on a little-endian machine. -/
def ntohl (v : UInt32) : UInt32 := be32At (leBytes32 v) 0

/-- The REGISTER_SUPER that a supernode sends to another one. -/
def Sn.registerSuperOf (sss : Sn) (peer : PeerInfo) (cookie : UInt32) : RegisterSuper where
  cookie := cookie
  edgeMac := sss.macAddr
  sock := Sock.zero
  devAddr :=
    ⟨ntohl peer.devAddr.netAddr, mask2bitlen (ntohl peer.devAddr.netBitlen.toUInt32)⟩
  devDesc := Desc.zero
  auth := sss.auth.copied
  keyTime := sss.dynamicKeyTime

/-- `purge_peer_list` removes a peer, and its connection. -/
def Sn.purgePeer (sss : Sn) (comm p : ℕ) (scan : PeerInfo) : Sn :=
  let sss :=
    if sss.isTcp scan.socketFd then
      match sss.findConn scan.socketFd with
      | some (conn, _) => { sss with tcpConnections := sss.tcpConnections.del conn }
      | none => sss
    else sss
  sss.modifyEdges comm (·.del p)

/-- `purge_peer_list`. -/
def Sn.purgePeerList (sss : Sn) (comm : ℕ) (purgeBefore : ℤ) : Sn :=
  (sss.edges comm).entries.foldl
    (fun sss e =>
      if e.2.purgeable && e.2.lastSeen < purgeBefore then sss.purgePeer comm e.1 e.2 else sss)
    sss

/-- `LAST_SEEN_SN_ACTIVE`. -/
def lastSeenSnActive : ℤ := 20

/-- `RE_REG_AND_PURGE_FREQUENCY`. -/
def reRegAndPurgeFrequency : ℤ := 10

/-- `LAST_SEEN_SN_NEW`. -/
def lastSeenSnNew : ℤ := lastSeenSnInactive - 3 * reRegAndPurgeFrequency

namespace World

/-- A REGISTER_SUPER to one supernode of the federation, which is at `fed`. -/
def reRegister (fed : ℕ) (w : World) (p : ℕ) (peer : PeerInfo) : World :=
  match w.sss.communities.get? fed with
  | none => w
  | some c =>
    let cmn : Common := ⟨defaultTtl, msgTypeRegisterSuper, flagsFromSupernode, c.community⟩
    let (w, cookie) := w.rand
    let cookie := cookie.toUInt32
    let w := w.setSss (·.modifyEdges fed (·.modify p fun e => { e with lastCookie := cookie }))
    let plain :=
      (encodeRegisterSuper (encodeStart []) cmn (w.sss.registerSuperOf peer cookie)).bytes
    let (w, pkt) := w.encryptHeader c.keys.ctxStatic c.keys.ivStatic (.ofPlain plain) plain.length
    (w.sendtoPeer fed peer pkt false .default).1

/-- `re_register_and_purge_supernodes`, forced. -/
def reRegisterSupernodes (w : World) : World :=
  w.forEdges w.sss.federation (reRegister w.sss.federation)

/-- `re_register_and_purge_supernodes`, not forced: the new `*p_last_re_reg_and_purge` comes
with it. -/
def reRegisterAndPurgeSupernodes (w : World) (last now : ℤ) : World × ℤ :=
  if now - last < reRegAndPurgeFrequency then (w, last)
  else
    -- `purge_expired_nodes` looks at the clock again
    let (w, time) := w.time
    let fed := w.sss.federation
    let (w, last) :=
      if time - last < reRegAndPurgeFrequency then (w, last)
      else (w.setSss (·.purgePeerList fed (time - lastSeenSnInactive)), time)
    (w.forEdges fed fun w p peer =>
      if now - peer.lastSeen ≤ lastSeenSnActive then w else reRegister fed w p peer, last)

/-- A later key time: the edges register again, with the old key, then come the new keys,
and the supernodes register again. -/
def newKeyTime (w : World) (keyTime : UInt32) : World :=
  let w := w.sendReRegisterSuper
  let w := (w.noteKeyTime keyTime).setSss fun sss => { sss with dynamicKeyTime := keyTime }
  let w := w.setSss Sn.calculateDynamicKeys
  w.reRegisterSupernodes

/-- The key time of another supernode: a later one is taken over. -/
def takeKeyTime (w : World) (keyTime : UInt32) : World :=
  if w.sss.dynamicKeyTime < keyTime then w.newKeyTime keyTime else w.noteKeyTime keyTime

end World

/-! ### Purging and sorting communities -/

/-- `REGISTRATION_TIMEOUT`. -/
def registrationTimeout : ℤ := 60

/-- `PURGE_REGISTRATION_FREQUENCY`. -/
def purgeRegistrationFrequency : ℤ := 30

/-- `SORT_COMMUNITIES_INTERVAL`. -/
def sortCommunitiesInterval : ℤ := 90

/-- The associations of a community after a purge: it is the age of the table's first entry
that decides on every entry. -/
def purgeAssoc (assoc : Table Assoc) (now : ℤ) : Table Assoc :=
  assoc.entries.foldl
    (fun t e =>
      match t.first? fun _ => true with
      | some (_, head) => if head.lastSeen < now - 3 * registrationTimeout then t.del e.1 else t
      | none => t)
    assoc

/-- A community without edges is removed, if it may be. -/
def Sn.purgeIdle (sss : Sn) (comm : ℕ) : Sn :=
  match sss.communities.get? comm with
  | some c =>
    if c.edges.entries.isEmpty && c.purgeable then
      { sss with communities := sss.communities.del comm }
    else sss
  | none => sss

/-- `purge_expired_communities` for one community. -/
def Sn.purgeCommunity (sss : Sn) (comm : ℕ) (now : ℤ) : Sn :=
  let sss := sss.purgePeerList comm (now - registrationTimeout)
  let sss := sss.modifyComm comm fun c => { c with assoc := purgeAssoc c.assoc now }
  sss.purgeIdle comm

/-- `purge_expired_communities`. -/
def Sn.purgeExpiredCommunities (sss : Sn) (last now : ℤ) : Sn × ℤ :=
  if now - last < purgeRegistrationFrequency then (sss, last)
  else
    (sss.communities.entries.foldl
      (fun sss e => if e.2.isFederation then sss else sss.purgeCommunity e.1 now) sss, now)

/-- `number_enc_packets_sort(a, b) <= 0`; the difference is cut to an `int`. -/
def numberEncPacketsLe (a b : Community) : Bool :=
  (BitVec.ofInt 32 (b.numberEncPackets - a.numberEncPackets)).toInt ≤ 0

/-- `sort_communities`. -/
def Sn.sortCommunities (sss : Sn) (last now : ℤ) : Sn × ℤ :=
  if now - last < sortCommunitiesInterval then (sss, last)
  else
    ({ sss with
      communities := (sss.communities.sort numberEncPacketsLe).mapValues
        fun c => { c with numberEncPackets := 0 } }, now)

end N2n
