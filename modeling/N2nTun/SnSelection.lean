import N2nTun.EdgeReceive
import N2nTun.WireRoundTrip
import N2nTun.HeaderRoundTrip

/-!
# The selection of a supernode

A supernode answers a PING with a PONG, a PEER_INFO for the null MAC which carries its load.  From
each PONG an edge computes the criterion by which it sorts its supernodes: the load, the time since
the PING, or the MAC of the supernode.

The conversions between the order of the host and that of the network are those of either kind of
host.

## Main definitions

* `ByteOrder` — of a host, with `htobe64` and `be32toh`.
* `World.gatherDataOn` — the supernode's part.
* `EdgeSelection` — the edge with the strategy and the data of the criterion.
* `EdgeSelection.commonDataDefault`, `EdgeSelection.criterion` — the edge's part.

## Main results

* `Ping.answerPing_eq` — the answer of the supernode.
* `readPeerInfo_load` — what the edge reads in a PONG is what the supernode wrote there.
* `Ping.received_eq` — **the load as the edge receives it.**
-/

namespace N2n

open Bytes

/-! ### Byte order -/

/-- How a host keeps a word. -/
inductive ByteOrder where
  | little
  | big
  deriving DecidableEq

namespace ByteOrder

/-- The bytes of a word in the memory of the host. -/
def hostBytes32 : ByteOrder → UInt32 → List UInt8
  | .little => leBytes32
  | .big => bytes32

/-- The bytes of a word of 64 bits. -/
def hostBytes64 : ByteOrder → UInt64 → List UInt8
  | .little => leBytes64
  | .big => bytes64

/-- `htobe64`. -/
def htobe64 (o : ByteOrder) (v : UInt64) : UInt64 := be64At (o.hostBytes64 v) 0

/-- `be32toh`. -/
def be32toh (o : ByteOrder) (v : UInt32) : UInt32 := be32At (o.hostBytes32 v) 0

@[simp] theorem htobe64_big (v : UInt64) : htobe64 .big v = v := by
  have h := be64At_bytes64 v []
  rwa [List.append_nil] at h

@[simp] theorem be32toh_big (v : UInt32) : be32toh .big v = v := by
  have h := be32At_bytes32 v []
  rwa [List.append_nil] at h

/-- A word whose bytes are exchanged stays the same only if they read the same from both ends. -/
theorem be32toh_little_iff (v : UInt32) : be32toh .little v = v ↔ leBytes32 v = bytes32 v := by
  constructor
  · intro h
    have hbytes : bytes32 (be32toh .little v) = leBytes32 v := bytes32_be32 _ _ _ _
    rw [← hbytes, h]
  · intro h
    show be32At (leBytes32 v) 0 = v
    rw [h]
    exact be32toh_big v

/-- What is left of a word of 64 bits in the 32 bits of a field. -/
theorem toUInt32_htobe64_little {v : UInt64} (h : v.toNat < 2 ^ 32) :
    (htobe64 .little v).toUInt32 = 0 := by
  have hhigh : (v >>> 32).toUInt32 = 0 := by
    apply UInt32.toNat_inj.mp
    rw [UInt64.toNat_toUInt32, UInt64.toNat_shiftRight, show (32 : UInt64).toNat % 64 = 32 from rfl,
      Nat.shiftRight_eq_div_pow, Nat.div_eq_of_lt h]
    rfl
  have hbytes : leBytes64 v = leBytes32 v.toUInt32 ++ leBytes32 0 := by
    rw [leBytes64, bytes64_eq, hhigh, List.reverse_append]
    rfl
  have hlow : be32At (leBytes32 v.toUInt32 ++ leBytes32 0) 4 = 0 :=
    be32At_append (leBytes32 v.toUInt32) (leBytes32 0) 0
  apply UInt32.toNat_inj.mp
  rw [htobe64, hostBytes64, hbytes, be64At, UInt64.toNat_toUInt32, toNat_word64, Nat.zero_add, hlow]
  simp

end ByteOrder

/-! ### The supernode -/

/-- The load of a supernode: the edges of each community and one more, twice if it is encrypted. -/
def World.load (w : World) : ℕ :=
  (w.sss.communities.values.map fun c =>
    let tmp := c.edges.entries.length + 1
    if c.headerEncryption = .enabled then tmp * 2 else tmp).sum

/-- `sn_selection_criterion_gather_data`, cut to the 32 bits of the field, on any host. -/
def World.gatherDataOn (w : World) (o : ByteOrder) : UInt32 :=
  (o.htobe64 (UInt64.ofNat w.load)).toUInt32

theorem World.gatherData_eq (w : World) : w.gatherData = w.gatherDataOn .little := rfl

/-- A PING and the supernode that answers it; `fill_n2nsock` knows the two families of the
sender. -/
structure Ping where
  host : ByteOrder
  world : World
  rx : Rx
  dispatch : Dispatch
  query : QueryPeer
  target : isNullMac query.targetMac = true
  sender : rx.sender.family = afInet ∨ rx.sender.family = afInet6

namespace Ping

/-- The load of the supernode. -/
def load (a : Ping) : ℕ := a.world.load

/-- The answer. -/
def pong (a : Ping) : PeerInfoMsg :=
  { a.world.pong a.rx a.query with load := a.world.gatherDataOn a.host }

/-- The bytes of the answer, before the header is encrypted. -/
def bytes (a : Ping) : List UInt8 :=
  (encodePeerInfo (encodeStart []) (answerCommon a.dispatch msgTypePeerInfo flagsFromSupernode)
    a.pong).bytes

/-- On a little-endian host these are the bytes that the supernode answers with. -/
theorem answerPing_eq (a : Ping) (h : a.host = .little) :
    a.world.answerPing a.rx a.dispatch a.query =
      (a.world.sealIf a.dispatch.comm a.bytes).1.replySock a.rx
        (a.world.sealIf a.dispatch.comm a.bytes).2 := by
  have hpong : a.pong = a.world.pong a.rx a.query := by
    rw [pong, h, ← World.gatherData_eq]
    rfl
  rw [bytes, hpong]
  rfl

end Ping

/-! ### The edge -/

/-- `sn_selection_strategy`. -/
inductive SnSelectionStrategy where
  | load
  | rtt
  | mac
  deriving DecidableEq

/-- The edge with what the selection needs in addition. -/
structure EdgeSelection extends Edge where
  /-- `conf.sn_selection_strategy` -/
  snSelectionStrategy : SnSelectionStrategy
  /-- `sn_selection_criterion_common_data` -/
  commonData : UInt64

/-- `HASH_COUNT`. -/
def hashCount {α : Type} (t : Table α) : UInt32 := UInt32.ofNat t.entries.length

namespace EdgeSelection

/-- `sn_selection_criterion_common_data_default`; with no supernode, where the code divides by
zero, the quotient is 0. -/
def commonDataDefault (e : EdgeSelection) : EdgeSelection :=
  match e.snSelectionStrategy with
  | .load =>
    let tmp := (hashCount e.pendingPeers).toUInt64
    let tmp := if e.conf.headerEncryption then tmp * 2 else tmp
    { e with commonData := tmp / (hashCount e.supernodes).toUInt64 }
  | .rtt =>
    let (edge, stamp) := e.toEdge.timeStamp
    { e with toEdge := edge, commonData := (stamp.toUInt32 >>> 22).toUInt64 }
  | .mac => { e with commonData := 0 }

/-- `sn_selection_criterion_calculate` for the supernode `p`: the criterion that is stored. -/
def criterion (e : EdgeSelection) (o : ByteOrder) (p : ℕ) (data : UInt64) :
    EdgeSelection × UInt64 :=
  match e.snSelectionStrategy with
  | .load =>
    let criterion := (o.be32toh data.toUInt32).toUInt64 + e.commonData
    if p = e.currSn then
      let sum := (hashCount e.knownPeers + hashCount e.pendingPeers).toInt32
      (e, criterion * sum.toInt64.toUInt64 / (sum + 1).toInt64.toUInt64)
    else (e, criterion)
  | .rtt =>
    let (edge, stamp) := e.toEdge.timeStamp
    ({ e with toEdge := edge }, (stamp.toUInt32 >>> 22).toUInt64 - e.commonData)
  | .mac =>
    let mac := ((e.supernodes.get? p).getD PeerInfo.zero).macAddr
    (e, be64At (mac.toList ++ [0, 0]) 0 >>> 16)

/-- What `process_udp` computes from a PONG of the supernode `p`. -/
def pongCriterion (e : EdgeSelection) (o : ByteOrder) (p : ℕ) (pi : PeerInfoMsg) :
    EdgeSelection × UInt64 :=
  -- `sn_sel_tmp`
  e.criterion o p pi.load.toUInt64

end EdgeSelection

/-- The PEER_INFO in a datagram whose header is plain again. -/
def readPeerInfo (udpBuf : List UInt8) : PeerInfoMsg :=
  let common := decodeCommon ⟨0, 0, 0, List.Vector.replicate 20 0⟩ udpBuf ⟨udpBuf.length, 0⟩
  (decodePeerInfo common.out udpBuf common.cur).out

/-! ### On the wire -/

/-- A socket as it comes out of a message: of the type only "stream" is told. -/
def Sock.onWire (s : Sock) : Sock where
  family := s.family
  type := if s.type = sockStream then sockStream else sockDgram
  port := s.port
  addr := if s.family = afInet then v4Addr (sliceVec s.addr.toList 0 4) else s.addr

theorem Sock.onWire_ok {s : Sock} (h : s.family = afInet ∨ s.family = afInet6) : s.onWire.Ok := by
  constructor
  · rcases h with h | h
    · refine .inl ⟨h, ?_⟩
      rw [onWire, if_pos h]
      rfl
    · exact .inr h
  · unfold onWire
    dsimp only
    split_ifs
    · exact .inl rfl
    · exact .inr rfl

theorem Sock.wire_onWire (s : Sock) : s.onWire.wire = s.wire := by
  have hword : ∀ f, s.onWire.word f = s.word f := by
    intro f
    unfold Sock.word onWire
    dsimp only
    by_cases hstream : s.type = sockStream
    · rw [if_pos hstream, if_pos rfl, if_pos hstream]
    · rw [if_neg hstream, if_neg (by decide), if_neg hstream]
  have hfamily : s.onWire.family = s.family := rfl
  have hport : s.onWire.port = s.port := rfl
  unfold Sock.wire
  rw [hfamily, hport, hword, hword]
  by_cases hv4 : s.family = afInet
  · have haddr : s.onWire.addr.toList.take 4 = s.addr.toList.take 4 := by
      rw [onWire, if_pos hv4]
      show (slice s.addr.toList 0 4 ++ List.replicate 12 0).take 4 = _
      rw [List.take_left' (length_slice _ _ _), slice_eq_take_drop (by simp), List.drop_zero]
    rw [if_pos hv4, if_pos hv4, haddr]
  · have haddr : s.onWire.addr = s.addr := if_neg hv4
    rw [if_neg hv4, if_neg hv4, haddr]

/-- **What an edge reads is what the supernode wrote**, as far as the load is concerned. -/
theorem readPeerInfo_load {cmn : Common} {pi : PeerInfoMsg} (hpc : cmn.pc < 32)
    (hflags : cmn.flags &&& flagsBitsMask = cmn.flags)
    (hsock : pi.sock.family = afInet ∨ pi.sock.family = afInet6)
    (hpref : cmn.flags &&& flagsSocket = 0) :
    (readPeerInfo (encodePeerInfo (encodeStart []) cmn pi).bytes).load = pi.load := by
  -- of the uptime, 32 bits are sent
  let sent : PeerInfoMsg :=
    { pi with sock := pi.sock.onWire, uptime := pi.uptime.toUInt32.toUInt64 }
  have hbody : (Msg.peerInfo pi).body cmn = (Msg.peerInfo sent).body cmn := by
    have htime : sent.uptime.toUInt32 = pi.uptime.toUInt32 := UInt32.toUInt32_toUInt64 _
    simp only [Msg.body, htime, sent, Sock.wire_onWire]
  have hbytes : (encodePeerInfo (encodeStart []) cmn pi).bytes =
      cmn.header ++ ((Msg.peerInfo sent).body cmn ++ []) := by
    rw [List.append_nil, ← hbody]
    exact ((Msg.peerInfo pi).encode_wrote [] cmn).bytes
  generalize (encodePeerInfo (encodeStart []) cmn pi).bytes = base at hbytes
  have hstart : Cursor.At ⟨base.length, 0⟩ base
      (cmn.header ++ ((Msg.peerInfo sent).body cmn ++ [])) :=
    ⟨congrArg List.length hbytes, [], hbytes, rfl⟩
  have hcommon := decodeCommon_header_body ⟨0, 0, 0, List.Vector.replicate 20 0⟩ hpc hflags hstart
  have hencodable : (Msg.peerInfo sent).Encodable cmn := by
    refine ⟨Sock.onWire_ok hsock, fun hflag => absurd hpref hflag, ?_⟩
    show pi.uptime.toUInt32.toUInt64.toNat < 2 ^ 32
    rw [UInt32.toNat_toUInt64]
    exact pi.uptime.toUInt32.toNat_lt
  have hread := decodePeerInfo_body hencodable hcommon.left
  unfold readPeerInfo
  dsimp only
  rw [hcommon.out, hread.out]

/-- **The load as the edge receives it.** -/
theorem Ping.received_eq (a : Ping) : (readPeerInfo a.bytes).load = a.world.gatherDataOn a.host :=
  readPeerInfo_load (show msgTypePeerInfo < 32 by decide)
    (show flagsFromSupernode &&& flagsBitsMask = flagsFromSupernode by decide) a.sender
    (show flagsFromSupernode &&& flagsSocket = 0 by decide)

end N2n
