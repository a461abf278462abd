import Mathlib.Data.List.TakeWhile
import N2nTun.DispatchActs
import N2nTun.Relay
import N2nTun.SealedHeader
import N2nTun.TapFrames
import N2nTun.WireRoundTrip

/-!
# The way of a frame

A frame that one edge reads from its TAP device goes out as a PACKET, directly to another edge or
over supernodes, each of which may put in the socket of the sender and encrypts the header anew.
The edge that receives the PACKET unpacks the same frame, if both edges have the same keys and
libraries and if the transform had room for the frame.

## Main definitions

* `PacketOf`, `PacketOf.Same` — a PACKET with its payload; what does not change on the way.
* `EdgeConf.SealsWith`, `Community.SealsWith` — the keys for the headers.
* `Sn.Recognises` — a supernode finds the community of a received PACKET.
* `Travels` — the way over supernodes.

## Main results

* `Edge.encodeFrame_sealed` — what an edge sends for a frame that fits.
* `SealedAs.packetReceived` — what an edge receives.
* `Sn.Recognises.same` — a supernode passes on the same.
* `frame_delivered` — **the frame arrives as it was.**
-/

namespace N2n

open Bytes

/-! ### A PACKET with its payload -/

/-- A PACKET as it can be sent, and the bytes behind it. -/
structure PacketOf where
  cmn : Common
  pkt : Packet
  payload : List UInt8
  pc : cmn.pc = msgTypePacket
  flags : cmn.flags &&& flagsBitsMask = cmn.flags
  sock : cmn.flags &&& flagsSocket ≠ 0 → pkt.sock.Ok

namespace PacketOf

variable (m m' : PacketOf)

/-- The wire format. -/
def bytes : List UInt8 := m.cmn.header ++ ((Msg.packet m.pkt).body m.cmn ++ m.payload)

/-- What does not change on the way: all but the TTL, the flags and the socket. -/
structure Same : Prop where
  community : m'.cmn.community = m.cmn.community
  srcMac : m'.pkt.srcMac = m.pkt.srcMac
  dstMac : m'.pkt.dstMac = m.pkt.dstMac
  transform : m'.pkt.transform = m.pkt.transform
  compression : m'.pkt.compression = m.pkt.compression
  payload : m'.payload = m.payload

theorem Same.refl : m.Same m := ⟨rfl, rfl, rfl, rfl, rfl, rfl⟩

variable {m m'}

theorem Same.trans {m'' : PacketOf} (h : m.Same m') (h' : m'.Same m'') : m.Same m'' :=
  ⟨h'.community.trans h.community, h'.srcMac.trans h.srcMac, h'.dstMac.trans h.dstMac,
    h'.transform.trans h.transform, h'.compression.trans h.compression,
    h'.payload.trans h.payload⟩

variable (m)

theorem length_header (cmn : Common) : cmn.header.length = 24 := by
  have hname : cmn.community.toList.length = 20 := cmn.community.2
  simp [Common.header, hname]

theorem length_body_le : 14 ≤ ((Msg.packet m.pkt).body m.cmn).length ∧
    ((Msg.packet m.pkt).body m.cmn).length ≤ 34 := by
  have hsrc : m.pkt.srcMac.toList.length = 6 := m.pkt.srcMac.2
  have hdst : m.pkt.dstMac.toList.length = 6 := m.pkt.dstMac.2
  have haddr : m.pkt.sock.addr.toList.length = 16 := m.pkt.sock.addr.2
  have hsock : (m.pkt.sock.wireIf m.cmn).length ≤ 20 := by
    unfold Sock.wireIf Sock.wire
    split_ifs <;> simp [haddr]
  simp only [Msg.body, List.length_append, hsrc, hdst, List.length_singleton]
  omega

theorem slice_name : slice m.bytes 4 communitySize = m.cmn.community.toList := by
  have hname : m.cmn.community.toList.length = communitySize := m.cmn.community.2
  have hmid := slice_middle (x := [pktVersion, m.cmn.ttl] ++ bytes16 m.cmn.word)
    (z := (Msg.packet m.pkt).body m.cmn ++ m.payload) (i := 4) (by rfl) hname
  simpa [bytes, Common.header] using hmid

/-- **What is decoded of the bytes**: the common part, the message and the payload. -/
theorem decoded (out : Common) :
    let common := decodeCommon out m.bytes ⟨m.bytes.length, 0⟩
    let d := decodePacket m.cmn m.bytes common.cur
    common.out = m.cmn ∧ 0 ≤ common.ret ∧ d.out = { m.pkt with sock := m.pkt.sock.sent m.cmn } ∧
      d.cur.idx = (m.cmn.header ++ (Msg.packet m.pkt).body m.cmn).length ∧
      m.bytes.drop d.cur.idx = m.payload := by
  intro common d
  have hstart : (⟨m.bytes.length, 0⟩ : Cursor).At m.bytes
      (m.cmn.header ++ ((Msg.packet m.pkt).body m.cmn ++ m.payload)) := ⟨rfl, [], rfl, rfl⟩
  have hcommon := decodeCommon_header_body out (by rw [m.pc]; decide) m.flags hstart
  have hpacket := decodePacket_body m.sock hcommon.left
  obtain ⟨pre, hpre, hidx⟩ := hpacket.left.bytes
  have hsplit : pre = m.cmn.header ++ (Msg.packet m.pkt).body m.cmn := by
    rw [bytes, ← List.append_assoc] at hpre
    exact (List.append_cancel_right hpre).symm
  have hver : (decodeUint8 0 m.bytes ⟨m.bytes.length, 0⟩).out = pktVersion := by
    have hread := Cursor.At.uint8 (v := pktVersion) (p := m.cmn.ttl :: (bytes16 m.cmn.word ++
      m.cmn.community.toList ++ ((Msg.packet m.pkt).body m.cmn ++ m.payload)))
      (by simpa [Common.header] using hstart) 0
    exact hread.out
  refine ⟨hcommon.out, ?_, hpacket.out, ?_, ?_⟩
  · show 0 ≤ (decodeCommon out m.bytes ⟨m.bytes.length, 0⟩).ret
    unfold decodeCommon
    dsimp only
    rw [if_neg (not_not.mpr hver)]
    exact Int.sub_nonneg_of_le (Int.natCast_nonneg _)
  · rw [← hsplit]
    exact hidx
  · show m.bytes.drop (decodePacket m.cmn m.bytes common.cur).cur.idx = _
    rw [hidx, hsplit, bytes, ← List.append_assoc, List.drop_left' rfl]

end PacketOf

/-! ### What an edge sends -/

/-- The keys for the headers: `none` for plain headers. -/
def EdgeConf.SealsWith (conf : EdgeConf) : Option (SpeckContext × SpeckContext) → Prop
  | none => conf.headerEncryption = false
  | some (ctx, iv) => conf.headerEncryption = true ∧ conf.keys.ctxDynamic = some ctx ∧
      conf.keys.ivDynamic = some iv

/-- The transform does not change what headers are sealed with. -/
theorem Edge.encodePayload_eq (e : Edge) (transop : EdgeTransop) (b : TransopBuffers)
    (outLen inLen : ℕ) :
    (e.encodePayload transop b outLen inLen).1.conf = e.conf ∧
      ∃ rand₁ rand₂, (e.encodePayload transop b outLen inLen).2 =
        transop.fwd b outLen inLen rand₁ rand₂ := by
  cases transop with
  | null => exact ⟨rfl, 0, 0, rfl⟩
  | keyed transop =>
    refine ⟨?_, _, _, rfl⟩
    unfold encodePayload
    dsimp only
    split_ifs <;> rfl

/-- **What is sent of a packet in a buffer** is the packet, sealed. -/
theorem Edge.sealPacket_sealed {e : Edge} {keys : Option (SpeckContext × SpeckContext)}
    (hkeys : e.conf.SealsWith keys) {plain : List UInt8} {name : CommunityName}
    (hname : slice plain 4 communitySize = name.toList) {headerIdx : ℕ} (hmin : 24 ≤ headerIdx)
    (hle : headerIdx ≤ plain.length) (hlen : plain.length < 65536) (behind : List UInt8) :
    SealedAs keys plain
      ((e.sealPacket (plain ++ behind) headerIdx plain.length).2.take plain.length) := by
  match keys, hkeys with
  | none, hkeys =>
    have hno : ¬ e.conf.headerEncryption = true := by rw [hkeys]; decide
    refine .plain rfl ?_
    unfold sealPacket
    rw [if_neg hno]
    exact List.take_left' rfl
  | some (ctx, iv), ⟨henabled, hctx, hiv⟩ =>
    have hconf : e.timeStamp.1.rand.1.conf = e.conf := rfl
    obtain ⟨start, rest, hparts, hstart⟩ := exists_parts (hmin.trans hle) hname
    have hnamelen : name.toList.length = communitySize := name.2
    have hsub : sizeSub plain.length headerIdx = plain.length - headerIdx :=
      sizeSub_eq hle (by omega)
    -- the header, and of the payload the initial value if it has one
    generalize hivLen : (if e.conf.sharedSecret.isSome then
      min (sizeSub plain.length headerIdx) speckIvecSize else 0) = ivLen
    have hhead : headerIdx + ivLen ≤ plain.length := by
      rw [← hivLen, hsub]
      split_ifs <;> omega
    have hheadNat : (UInt16.ofNat (headerIdx + ivLen)).toNat = headerIdx + ivLen :=
      UInt16.toNat_ofNat_of_lt' (lt_of_le_of_lt hhead hlen)
    have hlenNat : (UInt16.ofNat plain.length).toNat = plain.length :=
      UInt16.toNat_ofNat_of_lt' hlen
    have hpacket : 24 ≤ UInt16.ofNat plain.length := by
      rw [UInt16.le_iff_toNat_le, hlenNat]
      exact hmin.trans hle
    have hrun : (e.sealPacket (plain ++ behind) headerIdx plain.length).2 =
        packetHeaderEncrypt (plain ++ behind) (UInt16.ofNat (headerIdx + ivLen))
          (UInt16.ofNat plain.length) ctx iv e.timeStamp.2 e.timeStamp.1.rand.2.toUInt32 := by
      unfold sealPacket
      rw [if_pos henabled]
      dsimp only
      rw [hconf, hctx, hiv, hivLen]
    rw [hrun]
    have hbehind := packetHeaderEncrypt_behind hstart hnamelen hpacket
      (by rw [hlenNat, hparts]) (by rw [hheadNat, hlenNat]; exact hhead) ctx iv e.timeStamp.2
      e.timeStamp.1.rand.2.toUInt32 behind
    have hlength := @length_packetHeaderEncrypt _ _ rest hstart hnamelen _ hpacket
      (UInt16.ofNat (headerIdx + ivLen)) ctx iv e.timeStamp.2 e.timeStamp.1.rand.2.toUInt32
    rw [← hparts] at hbehind hlength
    refine .encrypted ctx iv rfl (UInt16.ofNat (headerIdx + ivLen)) e.timeStamp.2
      e.timeStamp.1.rand.2.toUInt32 (by rw [hheadNat]; omega) (by rw [hheadNat]; exact hhead)
      hlen ?_
    rw [hbehind, List.take_left' hlength]

/-- The room behind the header of a PACKET without a socket. -/
def payloadRoom : ℕ := pktBufSize - 38

/-- The frame fits into a PACKET: the transform has room for it, compressed if that helps. -/
def Tap.Fits (tap : Tap) (f : Frame) (b : SendBuffers) : Prop :=
  tap.transop.Fits payloadRoom
    (tap.compressors.pack tap.compression ⟨.of f.bytes, b.compressionBuf, b.assembly⟩ f.size).2.2

/-- The flags that tell the transport of a frame are flags of a message, and not those of a socket
or of a supernode. -/
theorem Frame.transportFlags_bits (f : Frame) :
    f.transportFlags &&& flagsBitsMask = f.transportFlags ∧ f.transportFlags &&& flagsSocket = 0 ∧
      f.transportFlags &&& flagsFromSupernode = 0 := by
  unfold transportFlags
  split_ifs <;> decide

/-- The PACKET for a frame, with its payload. -/
def Edge.packetFor (e : Edge) (tap : Tap) (f : Frame) (compression : UInt8)
    (payload : List UInt8) : PacketOf where
  cmn := e.packetCommon f
  pkt := ⟨e.macAddr, tap.destMac f.dhost, Sock.zero, tap.transop.transformId.code, compression⟩
  payload := payload
  pc := rfl
  flags := f.transportFlags_bits.1
  sock := fun h => absurd f.transportFlags_bits.2.1 h

/-- The encoded header is that of the PACKET, and has 38 bytes. -/
theorem Edge.packetFor_head (e : Edge) (tap : Tap) (f : Frame) (compression : UInt8)
    (payload : List UInt8) :
    let head := encodePacket (encodeStart []) (e.packetCommon f)
      ⟨e.macAddr, tap.destMac f.dhost, Sock.zero, tap.transop.transformId.code, compression⟩
    head.bytes ++ payload = (e.packetFor tap f compression payload).bytes ∧
      head.bytes.length = 38 ∧ head.idx = 38 := by
  intro head
  have hwrote : head.Wrote _ := Msg.encode_wrote [] (e.packetCommon f) (.packet ⟨e.macAddr,
    tap.destMac f.dhost, Sock.zero, tap.transop.transformId.code, compression⟩)
  have hsrc : e.macAddr.toList.length = 6 := e.macAddr.2
  have hdst : (tap.destMac f.dhost).toList.length = 6 := (tap.destMac f.dhost).2
  have hsock : (Sock.zero.wireIf (e.packetCommon f)) = [] :=
    if_neg (not_not.mpr f.transportFlags_bits.2.1)
  have hlen : head.bytes.length = 38 := by
    rw [hwrote.bytes, List.length_append, PacketOf.length_header]
    simp [Msg.body, hsock, hsrc, hdst]
  have hidx : head.idx = 38 := by
    have htake : head.bytes.length = min head.idx head.base.length := List.length_take
    have := hwrote.inside
    omega
  refine ⟨?_, hlen, hidx⟩
  rw [hwrote.bytes, List.append_assoc]
  rfl

/-- The buffer that is sealed is the PACKET, with more behind it. -/
theorem Edge.encodeFrame_eq (e : Edge) (tap : Tap) (f : Frame) (b : SendBuffers)
    {compression : UInt8} {src : Memory} {n : ℕ}
    (hpack : tap.compressors.pack tap.compression ⟨.of f.bytes, b.compressionBuf, b.assembly⟩
      f.size = (compression, src, n)) :
    ∃ (e' : Edge) (r : ℤ × TransopBuffers) (head : List UInt8), e'.conf = e.conf ∧
      (∃ rand₁ rand₂, r = tap.transop.fwd ⟨src, b.pktbuf, b.assembly⟩ payloadRoom n rand₁ rand₂) ∧
      head.length = 38 ∧
      (∀ payload, head ++ payload = (e.packetFor tap f compression payload).bytes) ∧
      (e.encodeFrame tap f b).2.pktbuf =
        (e'.sealPacket (head ++ r.2.outbuf.slice 0 payloadRoom) 38 ((38 : ℤ) + r.1).toNat).2.take
          ((38 : ℤ) + r.1).toNat := by
  obtain ⟨hconf, rands⟩ := e.encodePayload_eq tap.transop ⟨src, b.pktbuf, b.assembly⟩ payloadRoom n
  have hhead := fun payload => e.packetFor_head tap f compression payload
  dsimp only at hhead
  refine ⟨_, _, _, hconf, rands, (hhead []).2.1, fun payload => (hhead payload).1, ?_⟩
  unfold encodeFrame
  rw [hpack]
  dsimp only
  rw [(hhead []).2.2]
  rfl

/-- **What an edge sends for a frame that fits**: a PACKET that stands for the frame, sealed. -/
theorem Edge.encodeFrame_sealed {e : Edge} {tap : Tap} {f : Frame} {b : SendBuffers}
    {keys : Option (SpeckContext × SpeckContext)} (hkeys : e.conf.SealsWith keys)
    (hlawful : tap.transop.Lawful) (hcompress : tap.compressors.Lawful)
    (hsize : f.size ≤ pktBufSize) (hfits : tap.Fits f b) :
    ∃ compression payload,
      let m := e.packetFor tap f compression payload
      SealedAs keys m.bytes (e.encodeFrame tap f b).2.pktbuf ∧ m.bytes.length ≤ pktBufSize ∧
        StandsFor tap m.pkt m.payload f.data := by
  have hbuf : pktBufSize = 4096 := rfl
  have hroom : payloadRoom = 4058 := rfl
  have hpacks := Compressors.packs_pack (b := ⟨.of f.bytes, b.compressionBuf, b.assembly⟩) hcompress
    hsize tap.compression
  unfold Tap.Fits at hfits
  generalize hpack : tap.compressors.pack tap.compression
    ⟨.of f.bytes, b.compressionBuf, b.assembly⟩ f.size = packed at hpacks hfits
  obtain ⟨compression, src, n⟩ := packed
  replace hfits : tap.transop.Fits payloadRoom n := hfits
  obtain ⟨e', r, head, hconf, ⟨rand₁, rand₂, hr⟩, hheadlen, hhead, hsent⟩ :=
    e.encodeFrame_eq tap f b hpack
  obtain ⟨hret, hback⟩ := EdgeTransop.rev_fwd (b := ⟨src, b.pktbuf, b.assembly⟩) hlawful hfits
    (by omega) rand₁ rand₂
  rw [← hr] at hret hback
  have hinside := hfits.room
  generalize tap.transop.preamble = k at *
  have hpayload : (r.2.outbuf.slice 0 (n + k)).length = n + k := Memory.length_slice _ _ _
  have hlen : (e.packetFor tap f compression (r.2.outbuf.slice 0 (n + k))).bytes.length =
      38 + (n + k) := by
    rw [← hhead, List.length_append, hheadlen, hpayload]
  refine ⟨compression, r.2.outbuf.slice 0 (n + k), ?_, by omega, rfl, ?_⟩
  · -- the PACKET lies at the start of the buffer
    have hidx : ((38 : ℤ) + r.1).toNat = 38 + (n + k) := by rw [hret]; omega
    have hsplit : r.2.outbuf.slice 0 payloadRoom = r.2.outbuf.slice 0 (n + k) ++
        r.2.outbuf.slice (0 + (n + k)) (payloadRoom - (n + k)) := by
      rw [← Memory.slice_add, Nat.add_sub_cancel' hinside]
    have hkeys' : e'.conf.SealsWith keys := by rwa [hconf]
    have hsealed := Edge.sealPacket_sealed hkeys'
      (e.packetFor tap f compression (r.2.outbuf.slice 0 (n + k))).slice_name
      (by decide : 24 ≤ 38) (by omega) (by omega)
      (r.2.outbuf.slice (0 + (n + k)) (payloadRoom - (n + k)))
    rw [hsent, hidx, hsplit, ← List.append_assoc, hhead, ← hlen]
    exact hsealed
  · -- and is unpacked to the frame
    intro b₁ b₂ hin
    change b₁.inbuf.slice 0 (r.2.outbuf.slice 0 (n + k)).length = _ at hin
    rw [hpayload] at hin
    obtain ⟨hlen', hslice⟩ := hback b₁ hin
    obtain ⟨hle, eth, hunpack, heth⟩ := @Compressors.unpack_pack _ _ _ _ hpacks hsize
      { b₂ with inbuf := (tap.transop.rev b₁ pktBufSize (n + k)).2.outbuf } hslice
    have hdata : f.data.length = f.size := Memory.length_slice _ _ _
    refine ⟨eth, ?_, ?_⟩
    · show tap.compressors.unpack compression { b₂ with
        inbuf := (tap.transop.rev b₁ pktBufSize (r.2.outbuf.slice 0 (n + k)).length).2.outbuf }
        (toSize (tap.transop.rev b₁ pktBufSize (r.2.outbuf.slice 0 (n + k)).length).1) = _
      rw [hpayload, hlen', toSize_natCast (hle.trans hsize), hdata]
      exact hunpack
    · rw [hdata]
      exact heth

/-! ### What an edge receives -/

section

variable {b : Edge} {rx : EdgeRx} {keys : Option (SpeckContext × SpeckContext)} {m : PacketOf}

/-- An edge with the keys opens what was sealed. -/
theorem SealedAs.openHeader (hkeys : b.conf.SealsWith keys)
    (hname : b.conf.communityName = m.cmn.community) (h : SealedAs keys m.bytes rx.udpBuf)
    {o : EdgeOpened} (ho : b.conf.openHeader rx = some o) : o.udpBuf = m.bytes := by
  match keys, hkeys with
  | none, hkeys =>
    cases h with
    | plain _ hp =>
      rw [EdgeConf.openHeader, if_neg (by rw [hkeys]; decide)] at ho
      rw [← Option.some.inj ho, ← hp]
    | encrypted ctx iv hno => cases hno
  | some (ctx, iv), ⟨henabled, hctx, hiv⟩ =>
    obtain ⟨hlen, stamp, hopened⟩ := h.opened m.slice_name
    rw [EdgeConf.openHeader, if_pos henabled, hctx, hiv, hname, hlen] at ho
    dsimp only at ho
    rw [hopened 0, if_pos rfl] at ho
    rw [← Option.some.inj ho]

/-- **What an edge receives**, if it accepts the PACKET: the message, with the payload as it was
sent. -/
theorem SealedAs.packetReceived (hkeys : b.conf.SealsWith keys)
    (hname : b.conf.communityName = m.cmn.community) (h : SealedAs keys m.bytes rx.udpBuf)
    {r : Packet × List UInt8} (hr : b.packetReceived rx = some r) :
    r = ({ m.pkt with sock := m.pkt.sock.sent m.cmn }, m.payload) := by
  obtain ⟨hcmn, -, hpkt, -, hpayload⟩ := m.decoded Common.zero
  dsimp only at hcmn hpkt hpayload
  unfold Edge.packetReceived Edge.dispatched at hr
  cases hopen : b.conf.openHeader rx with
  | none => rw [hopen] at hr; cases hr
  | some o =>
    have ho := h.openHeader hkeys hname hopen
    rw [hopen, Option.bind_some] at hr
    obtain ⟨d, hd, hr⟩ := Option.bind_eq_some_iff.mp hr
    -- the common part is what was sent
    have hdispatch : d.cmn = m.cmn ∧ d.udpBuf = m.bytes ∧
        d.cur = (decodeCommon Common.zero m.bytes ⟨m.bytes.length, 0⟩).cur := by
      unfold Edge.toDispatch at hd
      dsimp only at hd
      rw [ho] at hd
      split_ifs at hd <;> · rw [← Option.some.inj hd]; exact ⟨hcmn, rfl, rfl⟩
    obtain ⟨hdcmn, hdbuf, hdcur⟩ := hdispatch
    rw [if_pos (hdcmn ▸ m.pc), hdcmn, hdbuf, hdcur] at hr
    dsimp only at hr
    rw [hpkt, hpayload] at hr
    split_ifs at hr
    exact (Option.some.inj hr).symm

end

/-! ### What a supernode passes on -/

/-- The keys for the headers of a community: `none` if they are plain. -/
def Community.SealsWith (c : Community) : Option (SpeckContext × SpeckContext) → Prop
  | none => c.headerEncryption ≠ .enabled
  | some (ctx, iv) => c.headerEncryption ≠ .none ∧ c.keys.ctxDynamic = some ctx ∧
      c.keys.ivDynamic = some iv

/-- The supernode finds the community of a datagram: by its name if the header is plain; or else the
keys of the communities before it do not fit, and leave no traces. -/
inductive Sn.Recognises (sss : Sn) (comm : ℕ) (keys : Option (SpeckContext × SpeckContext))
    (name : CommunityName) (p : List UInt8) : Prop
  | byName (c : Community) (hkeys : keys = none) (hseals : c.SealsWith none)
      (hlast : name.toList.getD 19 0 = 0)
      (hfind : sss.communities.find? (·.hasName (cstr name.toList)) = some (comm, c))
  | byKey (c : Community) (before rest : List (ℕ × Community)) (k : SpeckContext × SpeckContext)
      (hkeys : keys = some k) (hseals : c.SealsWith keys) (hname : c.community = name)
      (hplain : looksPlain p = false)
      (hentries : sss.communities.entries = before ++ (comm, c) :: rest)
      (hbefore : ∀ e ∈ before, e.2.Passes p.length p)

/-- A name that ends inside its field is read up to there. -/
theorem cstr_append {name : List UInt8} (hlen : name.length = 20) (hlast : name.getD 19 0 = 0)
    (p : List UInt8) : cstr (name ++ p) = cstr name := by
  have hnot : ¬ (name.takeWhile (· != 0)).length = name.length := by
    intro heq
    have hall := List.takeWhile_eq_self_iff.mp ((List.takeWhile_sublist _).eq_of_length heq)
    have hmem : (0 : UInt8) ∈ name := by
      rw [← hlast, List.getD_eq_getElem _ _ (by omega)]
      exact List.getElem_mem _
    exact absurd (hall 0 hmem) (by decide)
  rw [cstr, List.takeWhile_append, if_neg hnot]
  rfl

/-- The community at an address encrypts headers with the keys, or not at all. -/
def Sn.SealsFor (sss : Sn) (comm : ℕ) (keys : Option (SpeckContext × SpeckContext)) : Prop :=
  ∃ c, sss.communities.get? comm = some c ∧
    match keys with
    | none => c.headerEncryption ≠ .enabled
    | some (ctx, iv) => c.headerEncryption = .enabled ∧ c.keys.ctxDynamic = some ctx ∧
        c.keys.ivDynamic = some iv

theorem decryptTrial_append {before : List (ℕ × Community)} {n : ℕ} {p : List UInt8}
    (h : 24 ≤ p.length) (hbefore : ∀ e ∈ before, e.2.Passes n p) (rest : List (ℕ × Community))
    (stamp : UInt64) (hashBuf : List UInt8) :
    (decryptTrial n (before ++ rest) p stamp hashBuf).outcome =
      (decryptTrial n rest p stamp hashBuf).outcome := by
  induction before with
  | nil => rfl
  | cons e before ih =>
    obtain ⟨q, comm⟩ := e
    have hpass : comm.Passes n p := hbefore _ List.mem_cons_self
    rw [List.cons_append, hpass.decryptTrial h]
    exact ih fun e he => hbefore e (List.mem_cons_of_mem _ he)

section

variable {w : World} {rx : Rx} {comm : ℕ} {keys : Option (SpeckContext × SpeckContext)}
  {m : PacketOf}

/-- A PACKET with a plain header looks like one. -/
theorem PacketOf.looksPlain (m : PacketOf) (hlast : m.cmn.community.toList.getD 19 0 = 0) :
    looksPlain m.bytes = true := by
  have hname : m.cmn.community.toList.length = 20 := m.cmn.community.2
  have hword : be16At m.bytes 2 = m.cmn.word := by
    have h := be16At_append [pktVersion, m.cmn.ttl] (bytes16 m.cmn.word ++
      (m.cmn.community.toList ++ ((Msg.packet m.pkt).body m.cmn ++ m.payload))) 0
    rw [be16At_bytes16] at h
    rw [← h]
    simp [bytes, Common.header]
  have htype : m.cmn.word &&& flagsTypeMask ≤ msgTypeMaxType := by
    have hsmallPc : m.cmn.pc < 32 := by
      rw [m.pc]
      decide
    have hpc := (Common.word_parts hsmallPc m.flags).1
    have hsmall : (m.cmn.word &&& flagsTypeMask).toNat < 256 := by
      rw [UInt16.toNat_and]
      exact lt_of_le_of_lt Nat.and_le_right (by decide)
    have hnat : (m.cmn.word &&& flagsTypeMask).toNat = 3 := by
      have := congrArg UInt8.toNat (hpc.trans m.pc)
      rw [UInt16.toNat_toUInt8, Nat.mod_eq_of_lt hsmall] at this
      exact this
    rw [UInt16.le_iff_toNat_le, hnat]
    decide
  have hend : m.bytes.getD 23 0 = 0 := by
    have happend : m.bytes.getD 23 0 = m.cmn.community.toList.getD 19 0 := by
      simp [bytes, Common.header, bytes16, List.getD_eq_getElem?_getD, hname]
    rw [happend, hlast]
  unfold N2n.looksPlain
  rw [hword, hend]
  simpa [bytes, Common.header] using htype

/-- **A supernode with the keys opens what was sealed**, and will encrypt headers with the same
keys. -/
theorem Sn.Recognises.opened (hrec : w.sss.Recognises comm keys m.cmn.community rx.udpBuf)
    (h : SealedAs keys m.bytes rx.udpBuf) {o : Opened}
    (ho : (w.sss.openHeader rx).2 = .accepted o) :
    o.comm = some comm ∧ o.udpBuf = m.bytes ∧ (w.opened rx).sss.SealsFor comm keys := by
  have hsize : communitySize = 20 := rfl
  have hnamelen : m.cmn.community.toList.length = 20 := m.cmn.community.2
  have hshort : ¬ rx.udpBuf.length < 24 := by
    intro hlt
    rw [Sn.openHeader, if_pos hlt] at ho
    cases ho
  unfold World.opened
  rw [Sn.openHeader, if_neg hshort] at ho ⊢
  cases hrec with
  | byName c hkeys hseals hlast hfind =>
    subst hkeys
    cases h with
    | encrypted ctx iv hno => cases hno
    | plain _ hp =>
      have hplain : N2n.looksPlain rx.udpBuf = true := by rw [hp, m.looksPlain hlast]
      have hfind' : w.sss.communities.find? (·.hasName (cstr (rx.udpBuf.drop 4))) =
          some (comm, c) := by
        have hdrop : rx.udpBuf.drop 4 = m.cmn.community.toList ++
            ((Msg.packet m.pkt).body m.cmn ++ m.payload) := by
          simp [hp, PacketOf.bytes, Common.header, bytes16]
        rw [hdrop, cstr_append hnamelen hlast]
        exact hfind
      have hget := (Table.find?_eq_some hfind).1
      rw [if_pos hplain, hfind'] at ho ⊢
      dsimp only at ho ⊢
      cases henc : c.headerEncryption with
      | enabled => exact absurd henc hseals
      | unknown =>
        rw [henc] at ho
        rw [← Trial.accepted.inj ho]
        refine ⟨rfl, hp, c.lockPlain, ?_, show HeaderMode.none ≠ .enabled by decide⟩
        show (w.sss.communities.modify comm Community.lockPlain).get? comm = _
        rw [Table.get?_modify, if_pos rfl, hget]
        rfl
      | none =>
        rw [henc] at ho
        rw [← Trial.accepted.inj ho]
        exact ⟨rfl, hp, c, hget, hseals⟩
  | byKey c before rest k hkeys hseals hname hplain hentries hbefore =>
    obtain ⟨ctx, iv⟩ := k
    rw [hkeys] at h hseals ⊢
    obtain ⟨hnone, hctx, hiv⟩ := hseals
    obtain ⟨hlen, stamp, hopened⟩ := h.opened m.slice_name
    have hget : w.sss.communities.get? comm = some c := by
      rw [Table.get?_eq_some, hentries]
      simp
    have htrial : (decryptTrial rx.udpBuf.length w.sss.communities.entries rx.udpBuf
        rx.stack.stamp (List.replicate 16 0)).outcome =
        some ⟨some comm, .byDynamic, m.bytes, stamp, []⟩ := by
      rw [hentries, decryptTrial_append (not_lt.mp hshort) hbefore, decryptTrial, if_neg hnone,
        hctx, hiv, hname, hlen]
      dsimp only
      rw [hopened rx.stack.stamp, if_pos rfl]
      rfl
    rw [if_neg (by rw [hplain]; decide)] at ho ⊢
    generalize decryptTrial rx.udpBuf.length w.sss.communities.entries rx.udpBuf rx.stack.stamp
      (List.replicate 16 0) = trial at htrial ho ⊢
    cases trial with
    | nullContext => cases htrial
    | noMatch => cases htrial
    | accepted o' =>
      dsimp only at ho ⊢
      rw [← Trial.accepted.inj ho]
      have ho' : o'.comm = some comm ∧ o'.udpBuf = m.bytes := by
        have hsome := Option.some.inj htrial
        split_ifs at hsome
        · rw [hsome]
          exact ⟨rfl, rfl⟩
        · exact ⟨congrArg Opened.comm hsome, congrArg Opened.udpBuf hsome⟩
      refine ⟨ho'.1, ho'.2, c.countEncrypted, ?_, ?_, hctx, hiv⟩
      · rw [ho'.1]
        show (w.sss.communities.modify comm Community.countEncrypted).get? comm = _
        rw [Table.get?_modify, if_pos rfl, hget]
        rfl
      · unfold Community.countEncrypted
        cases henc : c.headerEncryption with
        | none => exact absurd henc hnone
        | unknown => simp
        | enabled => simp

end

/-! ### One supernode -/

/-- **What a supernode encrypts** with the keys for the headers is sealed. -/
theorem World.sealDynamic_sealed {w : World} {comm : ℕ}
    {keys : Option (SpeckContext × SpeckContext)} (hseals : w.sss.SealsFor comm keys)
    {plain : List UInt8} {n : ℕ} (hmin : 24 ≤ n) (hle : n ≤ plain.length)
    (hlen : plain.length < 65536) :
    SealedAs keys plain (w.sealDynamic comm plain n).2.bytes := by
  obtain ⟨c, hget, hkeys⟩ := hseals
  unfold sealDynamic
  rw [hget]
  dsimp only
  match keys, hkeys with
  | none, hkeys =>
    rw [if_neg hkeys]
    exact .plain rfl rfl
  | some (ctx, iv), ⟨henabled, hctx, hiv⟩ =>
    have hnat : (UInt16.ofNat n).toNat = n := UInt16.toNat_ofNat_of_lt' (lt_of_le_of_lt hle hlen)
    rw [if_pos henabled, hctx, hiv]
    exact .encrypted ctx iv rfl (UInt16.ofNat n) _ _ (by rw [hnat]; exact hmin)
      (by rw [hnat]; exact hle) hlen rfl

/-- Writes to the entries of edges keep the keys of the communities. -/
theorem Sn.SealsFor.modifyEdges {sss : Sn} {comm : ℕ}
    {keys : Option (SpeckContext × SpeckContext)} (h : sss.SealsFor comm keys) (p : ℕ)
    (f : Table PeerInfo → Table PeerInfo) : (sss.modifyEdges p f).SealsFor comm keys := by
  obtain ⟨c, hget, hkeys⟩ := h
  unfold Sn.modifyEdges Sn.modifyComm
  by_cases hp : p = comm
  · refine ⟨{ c with edges := f c.edges }, ?_, hkeys⟩
    dsimp only
    rw [Table.get?_modify, if_pos hp.symm, hget]
    rfl
  · refine ⟨c, ?_, hkeys⟩
    dsimp only
    rw [Table.get?_modify, if_neg (fun heq => hp heq.symm)]
    exact hget

theorem Sn.SealsFor.checkStamp {w : World} {comm : ℕ}
    {keys : Option (SpeckContext × SpeckContext)} (h : w.sss.SealsFor comm keys) (p : ℕ)
    (d : Dispatch) (mac : Mac) (jitter : Bool) :
    (w.checkStamp p d mac jitter).1.sss.SealsFor comm keys := by
  rcases w.checkStamp_cases p d mac jitter with heq | ⟨q, r, stamp, heq⟩
  · rw [heq]
    exact h
  · rw [heq]
    exact h.modifyEdges q _

/-- All packets that a sequence of acts sends are as `P` says. -/
theorem Acts.emitted {P : Emission → Prop} {w v : World} (h : Acts P (fun _ _ => False) w v) :
    ∃ new, v.emitted = w.emitted ++ new ∧ ∀ e ∈ new, P e := by
  refine h.invariant (I := fun v => ∃ new, v.emitted = w.emitted ++ new ∧ ∀ e ∈ new, P e) ?_
    ⟨[], by simp, by simp⟩
  rintro v v' ⟨new, hnew, hall⟩ hact
  rcases hact.emitted with hsame | ⟨e, he, happ, -⟩ | hno
  · exact ⟨new, hsame.trans hnew, hall⟩
  · refine ⟨new ++ [e], by rw [happ, hnew, List.append_assoc], fun e' he' => ?_⟩
    rcases List.mem_append.mp he' with hold | hsingle
    · exact hall e' hold
    · rwa [List.mem_singleton.mp hsingle]
  · exact hno.elim

section

variable {m : PacketOf} {d : Dispatch} {keys : Option (SpeckContext × SpeckContext)}

/-- The message is what was received of the PACKET. -/
structure Dispatch.Carries (d : Dispatch) (m : PacketOf) : Prop where
  cmn : d.cmn = { m.cmn with ttl := m.cmn.ttl - 1 }
  udpBuf : d.udpBuf = m.bytes
  cur : d.cur = (decodeCommon Common.zero m.bytes ⟨m.bytes.length, 0⟩).cur

/-- The message that is passed on for an edge: with the socket that it came from. -/
def PacketOf.relayed (m : PacketOf) (sender : Sock) (h : sender.Ok) : PacketOf where
  cmn := { m.cmn with ttl := m.cmn.ttl - 1, flags := relayFlags m.cmn.flags }
  pkt := { m.pkt with sock := sender }
  payload := m.payload
  pc := m.pc
  flags := by
    have hbits : (flagsSocket ||| flagsFromSupernode) &&& flagsBitsMask =
        flagsSocket ||| flagsFromSupernode := by decide
    show relayFlags m.cmn.flags &&& flagsBitsMask = relayFlags m.cmn.flags
    rw [relayFlags, or_and_flag, m.flags, hbits]
  sock := fun _ => h

/-- **The packet that a PACKET is passed on as** says the same. -/
theorem World.packetToForward_same {w : World} {rx : Rx} {comm : ℕ} (hcarries : d.Carries m)
    (hseals : w.sss.SealsFor comm keys) (hsender : rx.sender.Ok)
    (hroom : m.bytes.length + 20 ≤ snPktbufSize) :
    ∃ m', m.Same m' ∧ SealedAs keys m'.bytes
      (w.packetToForward rx d comm (decodePacket d.cmn d.udpBuf d.cur)).2.bytes := by
  have hbuf : snPktbufSize = 4096 := rfl
  obtain ⟨-, -, hpkt, hidx, hpayload⟩ := m.decoded Common.zero
  obtain ⟨hbodyMin, hbodyMax⟩ := m.length_body_le
  have hdecode : decodePacket d.cmn m.bytes d.cur = decodePacket m.cmn m.bytes
      (decodeCommon Common.zero m.bytes ⟨m.bytes.length, 0⟩).cur := by
    rw [hcarries.cmn, hcarries.cur]
    rfl
  rw [hcarries.udpBuf, hdecode]
  dsimp only at hpkt hidx hpayload
  generalize decodePacket m.cmn m.bytes
    (decodeCommon Common.zero m.bytes ⟨m.bytes.length, 0⟩).cur = dec at hpkt hidx hpayload ⊢
  rw [List.length_append, PacketOf.length_header] at hidx
  have hlen : m.bytes.length =
      24 + (((Msg.packet m.pkt).body m.cmn).length + m.payload.length) := by
    rw [PacketOf.bytes, List.length_append, PacketOf.length_header, List.length_append]
  have hiv : ∀ k, w.ivLen comm k ≤ k := by
    intro k
    unfold World.ivLen
    split
    · split_ifs
      · exact min_le_left _ _
      · exact Nat.zero_le k
    · exact Nat.zero_le k
  unfold packetToForward
  split_ifs with hsn
  · -- as it is
    refine ⟨m, .refl m, ?_⟩
    rw [hcarries.udpBuf]
    have := hiv (m.bytes.length - dec.cur.idx)
    exact World.sealDynamic_sealed hseals (by omega) (by omega) (by omega)
  · refine ⟨m.relayed rx.sender hsender, ⟨rfl, rfl, rfl, rfl, rfl, rfl⟩, ?_⟩
    rw [hcarries.udpBuf]
    dsimp only
    rw [hpkt, hpayload, hcarries.cmn]
    obtain ⟨hrelayMin, hrelayMax⟩ := (m.relayed rx.sender hsender).length_body_le
    have hwrote : (encodePacket (encodeStart []) (m.relayed rx.sender hsender).cmn
        (m.relayed rx.sender hsender).pkt).Wrote _ :=
      Msg.encode_wrote [] (m.relayed rx.sender hsender).cmn
        (.packet (m.relayed rx.sender hsender).pkt)
    have hbytes := (hwrote.encodeBuf m.payload).bytes
    have hrelayed : (encodeBuf (encodePacket (encodeStart []) (m.relayed rx.sender hsender).cmn
        (m.relayed rx.sender hsender).pkt) m.payload).bytes =
        (m.relayed rx.sender hsender).bytes := by
      rw [hbytes, List.append_assoc]
      rfl
    have hrelayLen : (m.relayed rx.sender hsender).bytes.length =
        24 + (((Msg.packet (m.relayed rx.sender hsender).pkt).body
          (m.relayed rx.sender hsender).cmn).length + m.payload.length) := by
      rw [PacketOf.bytes, List.length_append, PacketOf.length_header, List.length_append]
      rfl
    have hheadIdx : (encodePacket (encodeStart []) (m.relayed rx.sender hsender).cmn
        (m.relayed rx.sender hsender).pkt).idx =
        24 + ((Msg.packet (m.relayed rx.sender hsender).pkt).body
          (m.relayed rx.sender hsender).cmn).length := by
      have hpre := congrArg List.length hwrote.bytes
      have hinside := hwrote.inside
      rw [Encoded.bytes, List.length_take, List.length_append, PacketOf.length_header] at hpre
      omega
    show SealedAs keys _ (w.sealDynamic comm (encodeBuf (encodePacket (encodeStart [])
      (m.relayed rx.sender hsender).cmn (m.relayed rx.sender hsender).pkt) m.payload).bytes
      ((encodePacket (encodeStart []) (m.relayed rx.sender hsender).cmn
        (m.relayed rx.sender hsender).pkt).idx + w.ivLen comm m.payload.length)).2.bytes
    rw [hrelayed, hheadIdx]
    have := hiv m.payload.length
    exact World.sealDynamic_sealed hseals (by omega) (by omega) (by omega)

end

/-- Nothing is sent before the packet is ready. -/
theorem World.sealDynamic_keeps_emitted (w : World) (comm : ℕ) (plain : List UInt8) (n : ℕ) :
    (w.sealDynamic comm plain n).1.emitted = w.emitted := by
  have hencrypt : ∀ ctx iv pkt, (w.encryptHeader ctx iv pkt n).1.emitted = w.emitted := by
    intro ctx iv pkt
    unfold encryptHeader
    dsimp only
    split <;> rfl
  unfold sealDynamic
  split
  · split_ifs
    · exact hencrypt _ _ _
    · rfl
  · rfl

theorem World.packetToForward_keeps_emitted (w : World) (rx : Rx) (d : Dispatch) (comm : ℕ)
    (m : Decoded Packet) : (w.packetToForward rx d comm m).1.emitted = w.emitted := by
  unfold packetToForward
  split_ifs <;> exact w.sealDynamic_keeps_emitted comm _ _

/-- **A supernode passes on the same**, to whomever it sends it. -/
theorem Sn.Recognises.same {w : World} {rx : Rx} {comm : ℕ}
    {keys : Option (SpeckContext × SpeckContext)} {m : PacketOf}
    (hrec : w.sss.Recognises comm keys m.cmn.community rx.udpBuf)
    (h : SealedAs keys m.bytes rx.udpBuf) (hsender : rx.sender.Ok)
    (hroom : rx.udpBuf.length + 20 ≤ snPktbufSize) {e : Emission} (he : e ∈ w.emissions rx) :
    ∃ m', m.Same m' ∧ SealedAs keys m'.bytes e.pkt.bytes := by
  obtain ⟨hcmn, -⟩ := m.decoded Common.zero
  unfold World.emissions World.processUdp at he
  cases hd : w.dispatched rx with
  | none =>
    rw [hd] at he
    simp [World.opened] at he
  | some d =>
    rw [hd] at he
    unfold World.dispatched at hd
    split at hd
    · rename_i o hopen
      obtain ⟨hcomm, hbuf, hseals⟩ := hrec.opened h hopen
      have hadm := Sn.toDispatch_eq_some hd
      have hcarries : d.Carries m := by
        have hcommon : o.common = decodeCommon Common.zero m.bytes ⟨m.bytes.length, 0⟩ := by
          rw [Opened.common, hbuf]
        refine ⟨?_, hadm.udpBuf.trans hbuf, by rw [hadm.cur, hcommon]⟩
        rw [hadm.cmn, hcommon, hcmn]
      have hpc : d.cmn.pc = msgTypePacket := by
        rw [hcarries.cmn]
        exact m.pc
      have hdispatch : (w.opened rx).dispatch rx d = (w.opened rx).handlePacket rx d comm := by
        unfold World.dispatch
        rw [hpc, hadm.comm, hcomm, if_neg (by decide), if_neg (by decide)]
        exact if_pos rfl
      have hsent : ∃ new, ((w.opened rx).handlePacket rx d comm).emitted = w.emitted ++ new ∧
          ∀ e ∈ new, ∃ m', m.Same m' ∧ SealedAs keys m'.bytes e.pkt.bytes := by
        let check := (w.opened rx).checkStamp comm d
          (decodePacket d.cmn d.udpBuf d.cur).out.srcMac true
        have hchecked : Checked (w.opened rx) d check.1 :=
          .stamp comm _ true (hadm.comm.trans hcomm)
        have hkept : check.1.emitted = w.emitted := hchecked.emitted_eq
        have hroom' : m.bytes.length + 20 ≤ snPktbufSize := by
          rwa [h.length_eq m.slice_name] at hroom
        obtain ⟨m', hsame, hsealed⟩ := World.packetToForward_same (w := check.1) hcarries
          (hseals.checkStamp comm d _ true) hsender hroom'
        have hkept' : (check.1.packetToForward rx d comm
            (decodePacket d.cmn d.udpBuf d.cur)).1.emitted = w.emitted :=
          (World.packetToForward_keeps_emitted check.1 rx d comm _).trans hkept
        have hcopy : ∀ e : Emission, e.pkt = (check.1.packetToForward rx d comm
            (decodePacket d.cmn d.udpBuf d.cur)).2 →
            ∃ m', m.Same m' ∧ SealedAs keys m'.bytes e.pkt.bytes :=
          fun e heq => ⟨m', hsame, heq ▸ hsealed⟩
        unfold World.handlePacket World.afterCheck
        dsimp only
        split_ifs with hok hmulti
        · obtain ⟨new, hnew, hall⟩ := Acts.emitted (World.tryBroadcast_acts _ _ _ _ _ _ _
            (fun _ e _ => hcopy e) fun p _ e _ => hcopy e)
          exact ⟨new, hnew.trans (congrArg (· ++ new) hkept'), hall⟩
        · obtain ⟨new, hnew, hall⟩ := Acts.emitted (World.tryForward_acts _ _ _ _ _ _ _
            (fun _ => hcopy) fun e _ => hcopy e)
          exact ⟨new, hnew.trans (congrArg (· ++ new) hkept'), hall⟩
        · exact ⟨[], by rw [List.append_nil]; exact hkept, by simp⟩
      obtain ⟨new, hnew, hall⟩ := hsent
      dsimp only at he
      rw [hdispatch, hnew, List.drop_left] at he
      exact hall e he
    · cases hd

/-! ### Over supernodes -/

/-- How a packet of a community gets from an edge to another: directly, or over supernodes that know
the community and its keys. -/
inductive Travels (keys : Option (SpeckContext × SpeckContext)) (name : CommunityName)
    (p : List UInt8) : List UInt8 → Prop
  | direct : Travels keys name p p
  | relayed {w : World} {rx : Rx} {comm : ℕ} {e : Emission} (h : Travels keys name p rx.udpBuf)
      (hrec : w.sss.Recognises comm keys name rx.udpBuf) (hsender : rx.sender.Ok)
      (hroom : rx.udpBuf.length + 20 ≤ snPktbufSize) (he : e ∈ w.emissions rx) :
      Travels keys name p e.pkt.bytes

/-- What arrives says the same as what was sent. -/
theorem Travels.same {keys : Option (SpeckContext × SpeckContext)} {m : PacketOf}
    {p q : List UInt8} (htravel : Travels keys m.cmn.community p q) (h : SealedAs keys m.bytes p) :
    ∃ m', m.Same m' ∧ SealedAs keys m'.bytes q := by
  induction htravel with
  | direct => exact ⟨m, .refl m, h⟩
  | relayed _ hrec hsender hroom he ih =>
    obtain ⟨m₁, hsame, hsealed⟩ := ih
    obtain ⟨m₂, hsame', hsealed'⟩ := Sn.Recognises.same (hsame.community ▸ hrec) hsealed hsender
      hroom he
    exact ⟨m₂, hsame.trans hsame', hsealed'⟩

/-- **The frame arrives as it was.**  If an edge sends a PACKET for a frame that fits, and another
edge of the community with the same keys and the same libraries accepts what became of the PACKET on
its way, then the other edge handles the same frame, as one that comes from the MAC of the first
edge; and if it writes a frame to its TAP device, it is this one. -/
theorem frame_delivered {a a' b : Edge} {ta ta' tb : Tap} {f : Frame} {out : TapPacket}
    {sb : SendBuffers} {keys : Option (SpeckContext × SpeckContext)} {rx : EdgeRx}
    (hkeys : a.conf.SealsWith keys) (hkeys' : b.conf.SealsWith keys)
    (hname : b.conf.communityName = a.conf.communityName) (htransop : tb.transop = ta.transop)
    (hcompressors : tb.compressors = ta.compressors) (hlawful : ta.transop.Lawful)
    (hlawful' : ta.compressors.Lawful) (hsize : f.size ≤ pktBufSize) (hfits : ta.Fits f sb)
    (hread : a.edgeReadFromTap ta f sb = (ta', some (a', out)))
    (htravel : Travels keys a.conf.communityName out.pktbuf rx.udpBuf)
    (haccepted : (b.packetReceived rx).isSome) (now : ℤ) (rb : ReceiveBuffers) :
    ∃ g : Frame, g.data = f.data ∧
      b.receiveFrame tb rx now rb = tb.handleFrame b.ipAddr a.macAddr now g ∧
      ∀ g', (b.receiveFrame tb rx now rb).2 = some g' → g'.data = f.data := by
  obtain ⟨⟨filter, rfl⟩, hsent⟩ := Edge.edgeReadFromTap_sent hread
  obtain ⟨compression, payload, hsealed, -, hstands⟩ := @Edge.encodeFrame_sealed a
    { ta with networkTrafficFilter := filter } f sb keys hkeys hlawful hlawful' hsize hfits
  rw [← hsent] at hsealed
  obtain ⟨m, hsame, hsealed'⟩ := htravel.same hsealed
  obtain ⟨r, hr⟩ := Option.isSome_iff_exists.mp haccepted
  have hreceived := hsealed'.packetReceived hkeys' (hname.trans hsame.community.symm) hr
  have hstands' : StandsFor tb r.1 r.2 f.data := by
    rw [hreceived, hsame.payload]
    refine ⟨?_, ?_⟩
    · rw [htransop]
      exact hsame.transform.trans hstands.transform
    · rw [htransop, hcompressors, show ({ m.pkt with sock := m.pkt.sock.sent m.cmn } :
        Packet).compression = _ from hsame.compression]
      exact hstands.payload
  obtain ⟨g, hdata, hhandled⟩ := hstands'.handlePayload b.ipAddr now rb
  have hmac : r.1.srcMac = a.macAddr := by
    rw [hreceived]
    exact hsame.srcMac
  have hreceive : b.receiveFrame tb rx now rb = tb.handleFrame b.ipAddr a.macAddr now g := by
    rw [Edge.receiveFrame, hr, ← hmac]
    exact hhandled
  refine ⟨g, hdata, hreceive, fun g' hg' => ?_⟩
  rw [hreceive] at hg'
  rw [Tap.handleFrame_written hg', hdata]

/-! ### Two edges and a supernode -/

/-- The edges of the hosts 1 and 2 in the community "net", with the supernode of the host 3. -/
def netEdge (b : UInt8) : Edge :=
  { plainEdge with
    conf := { plainEdge.conf with communityName := netName }
    macAddr := hostMac b
    supernodes := Table.empty.add { PeerInfo.zero with sock := hostSock 3 7654 }
    lastSup := 100 }

/-- The libraries are not called. -/
def noCompressors : Compressors where
  lzoCompress := fun _ => none
  lzoDecompress := id
  zstdCompress := fun _ _ => none
  zstdDecompress := fun _ _ => none

theorem noCompressors_lawful : noCompressors.Lawful where
  lzo := fun _ _ h => absurd h.symm (Option.some_ne_none _)
  zstd := fun _ _ _ _ h => absurd h.symm (Option.some_ne_none _)

/-- Without routing, encryption of payloads, compression and rules. -/
def netTap : Tap where
  allowRouting := false
  dropMulticast := false
  compression := compressionIdNone
  transop := .null
  compressors := noCompressors
  knownHosts := Table.empty
  networkTrafficFilter := createNetworkTrafficFilter []

/-- An ARP frame from the host 2 to the host 1. -/
def arpFrame : Frame where
  bytes := fun i => ((hostMac 1).toList ++ (hostMac 2).toList ++ [8, 6, 0, 1]).getD i 0
  size := 16

/-- Automatic variables that happen to be zero. -/
def zeroSendBuffers : SendBuffers := ⟨.of fun _ => 0, .of fun _ => 0, .of fun _ => 0⟩

/-- The packet arrives at the supernode from the host 2. -/
def relayRx (p : List UInt8) : Rx :=
  { packetRx 2 0 (hostMac 1) with
    sender := { hostSock 2 7654 with type := sockDgram }
    udpBuf := p }

/-- The packet arrives at the host 1 from the supernode. -/
def deliveredRx (p : List UInt8) : EdgeRx := ⟨hostSock 3 7654, 3, p, 100, [], [], Sock.zero⟩

/-- An ARP frame goes over a supernode. -/
theorem frame_delivered_net :
    ∃ r, ((netEdge 2).edgeReadFromTap netTap arpFrame zeroSendBuffers).2 = some r ∧
      ∃ e ∈ (World.start relaySn).emissions (relayRx r.2.pktbuf), e.dest = hostSock 1 7654 ∧
        ∃ g, ((netEdge 1).receiveFrame netTap (deliveredRx e.pkt.bytes) 100
          ⟨.of fun _ => 0, .of fun _ => 0, .of fun _ => 0, fun _ => 0⟩).2 = some g ∧
          g.data = arpFrame.data := by
  have hsent : ∃ p, (((netEdge 2).edgeReadFromTap netTap arpFrame zeroSendBuffers).2.map
      fun r => r.2.pktbuf) = some p ∧ p.length + 20 ≤ snPktbufSize ∧
      ∃ e ∈ (World.start relaySn).emissions (relayRx p), e.dest = hostSock 1 7654 ∧
        ((netEdge 1).packetReceived (deliveredRx e.pkt.bytes)).isSome ∧
        ((netEdge 1).receiveFrame netTap (deliveredRx e.pkt.bytes) 100
          ⟨.of fun _ => 0, .of fun _ => 0, .of fun _ => 0, fun _ => 0⟩).2.isSome := by
    refine ⟨_, rfl, by decide +kernel, by decide +kernel⟩
  obtain ⟨p, hp, hlen, e, he, hdest, haccepted, hwritten⟩ := hsent
  obtain ⟨r, hr, rfl⟩ := Option.map_eq_some_iff.mp hp
  obtain ⟨g, hg⟩ := Option.isSome_iff_exists.mp hwritten
  -- the supernode knows the community by its name
  have hknown : ((World.start relaySn).sss.communities.find?
      (·.hasName (cstr netName.toList))).map (fun c => (c.1, c.2.headerEncryption)) =
      some (1, .unknown) := by decide +kernel
  obtain ⟨⟨q, c⟩, hfind, hc⟩ := Option.map_eq_some_iff.mp hknown
  obtain ⟨rfl, henc⟩ := Prod.mk.inj hc
  have hrec : (World.start relaySn).sss.Recognises 1 none (netEdge 2).conf.communityName
      (relayRx r.2.pktbuf).udpBuf := by
    refine .byName c rfl ?_ (by decide) hfind
    show c.headerEncryption ≠ .enabled
    rw [show c.headerEncryption = .unknown from henc]
    decide
  have htravel : Travels none (netEdge 2).conf.communityName r.2.pktbuf
      (deliveredRx e.pkt.bytes).udpBuf :=
    .relayed .direct hrec ⟨Or.inl ⟨rfl, rfl⟩, Or.inr rfl⟩ hlen he
  have hread : (netEdge 2).edgeReadFromTap netTap arpFrame zeroSendBuffers =
      (((netEdge 2).edgeReadFromTap netTap arpFrame zeroSendBuffers).1, some (r.1, r.2)) :=
    Prod.ext rfl hr
  have hkeys : (netEdge 2).conf.SealsWith none := rfl
  have hkeys' : (netEdge 1).conf.SealsWith none := rfl
  have hlawful : netTap.transop.Lawful := trivial
  have hsize : arpFrame.size ≤ pktBufSize := by decide
  have hfits : netTap.Fits arpFrame zeroSendBuffers := show 16 ≤ payloadRoom by decide
  obtain ⟨-, -, -, hall⟩ := frame_delivered hkeys hkeys' rfl rfl rfl hlawful
    noCompressors_lawful hsize hfits hread htravel haccepted 100
    ⟨.of fun _ => 0, .of fun _ => 0, .of fun _ => 0, fun _ => 0⟩
  exact ⟨r, hr, e, he, hdest, g, hg, hall g hg⟩

end N2n
