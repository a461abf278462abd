import N2nTun.FilterCache
import N2nTun.Payload
import N2nTun.PeerTables

/-!
# Frames at an edge

A frame that is read from the TAP device is packed into the payload of a PACKET, and the payload of
a received PACKET is unpacked into a frame that is written to the TAP device.  On both ways frames
are dropped: multicast frames if the edge is told so, frames of or for other hosts if the edge does
not route, and what the filter says.  An edge that routes remembers behind which edge a host is.

The callbacks that a program may set for the packets are left out.

## Main definitions

* `Frame` — a buffer with a frame.
* `Tap` — what an edge has for the frames.
* `Edge.edgeReadFromTap`, `Edge.edgeSendPacket2net` — from the TAP device to a PACKET.
* `Tap.handlePayload`, `Tap.handleFrame` — what `handle_PACKET` does with a payload.
* `Edge.receiveFrame` — `process_udp` and `handle_PACKET` for a PACKET.

## Main results

* `Tap.handleFrame_written` — what is written is the frame that was unpacked.
* `StandsFor.handlePayload` — **what was packed is written as it was, or dropped for what it is.**
-/

namespace N2n

open Bytes

/-! ### Frames -/

/-- `eth_payload` and `eth_size`, `eth_pkt` and `len`: a buffer, of which the first bytes are the
frame. -/
structure Frame where
  bytes : ℕ → UInt8
  size : ℕ

/-- The six bytes of a MAC. -/
def macOfBytes (bytes : ℕ → UInt8) (i : ℕ) : Mac :=
  ⟨(List.range 6).map fun k => bytes (i + k), by simp⟩

namespace Frame

variable (f : Frame)

/-- The bytes of the frame. -/
def data : List UInt8 := (Memory.of f.bytes).slice 0 f.size

/-- `dhost` of the header. -/
def dhost : Mac := macOfBytes f.bytes 0

/-- `shost` of the header. -/
def shost : Mac := macOfBytes f.bytes 6

/-- An address of an IPv4 header, in the order of the host. -/
def addr (i : ℕ) : UInt32 :=
  be32 (f.bytes i) (f.bytes (i + 1)) (f.bytes (i + 2)) (f.bytes (i + 3))

/-- `is_ethMulticast`. -/
def isEthMulticast : Bool :=
  decide (14 ≤ f.size) && (f.bytes 0 == 0x01 && f.bytes 1 == 0x00 && f.bytes 2 == 0x5e &&
    f.bytes 3 &&& 0x80 == 0)

/-- `is_ip6_discovery`. -/
def isIp6Discovery : Bool := decide (14 ≤ f.size) && (f.bytes 0 == 0x33 && f.bytes 1 == 0x33)

/-- `is_multicast`. -/
def isMulticast : Bool := f.isIp6Discovery || f.isEthMulticast

/-- `edge_packet_transport_flags`. -/
def transportFlags : UInt16 :=
  if f.size < 14 then 0
  else if etherType f.bytes = 0x0800 then
    if f.size - 14 < 20 then 0
    else if ipVersion f.bytes ≠ 4 ∨ ipIhl f.bytes < 5 ∨ f.size - 14 < ipIhl f.bytes * 4 then 0
    else if ipProtocol f.bytes = 0x06 then 0x0100
    else if ipProtocol f.bytes = 0x11 then 0x0200
    else 0
  else 0

/-- An IPv4 packet of another host; of short frames the bytes behind are looked at. -/
def isFromOther (ipAddr : UInt32) : Bool := etherType f.bytes == 0x0800 && f.addr 26 != ipAddr

/-- An IPv4 packet for another host, which was not sent to all hosts. -/
def isForOther (ipAddr : UInt32) : Bool :=
  etherType f.bytes == 0x0800 && decide (34 ≤ f.size) &&
    (f.dhost.toList != [0xff, 0xff, 0xff, 0xff, 0xff, 0xff] && f.addr 30 != ipAddr)

end Frame

/-! ### The edge -/

/-- `struct host_info`. -/
structure HostInfo where
  macAddr : Mac
  edgeAddr : Mac
  lastSeen : ℤ

/-- The members of `n2n_edge_t` for the frames. -/
structure Tap where
  /-- `conf.allow_routing` -/
  allowRouting : Bool
  /-- `conf.drop_multicast` -/
  dropMulticast : Bool
  /-- `conf.compression` -/
  compression : UInt8
  transop : EdgeTransop
  /-- `transop_lzo` and `transop_zstd` -/
  compressors : Compressors
  knownHosts : Table HostInfo
  networkTrafficFilter : TrafficFilter

/-- What the automatic variables of `edge_send_packet2net` and of the transform hold at first;
`pktbuf` begins behind the header. -/
structure SendBuffers where
  compressionBuf : Memory
  pktbuf : Memory
  assembly : Memory

/-- What the automatic variables of `handle_PACKET` and of the transform hold at first, and the
bytes behind the datagram. -/
structure ReceiveBuffers where
  decodeBuf : Memory
  deflateBuf : Memory
  assembly : Memory
  behind : ℕ → UInt8

/-- What is passed to `send_packet`. -/
structure TapPacket where
  destMac : Mac
  pktbuf : List UInt8

/-! ### From the TAP device -/

/-- `destMac`: with routing, the edge that the host is behind. -/
def Tap.destMac (tap : Tap) (mac : Mac) : Mac :=
  if tap.allowRouting && !isMultiBroadcast mac then
    match tap.knownHosts.find? (·.macAddr == mac) with
    | some (_, host) => host.edgeAddr
    | none => mac
  else mac

namespace Edge

/-- The call of `transop.fwd`; the preamble takes two random values. -/
def encodePayload (e : Edge) (transop : EdgeTransop) (b : TransopBuffers) (outLen inLen : ℕ) :
    Edge × ℤ × TransopBuffers :=
  let (e₁, rand₁) := e.rand
  let (e₂, rand₂) := e₁.rand
  let r := transop.fwd b outLen inLen rand₁ rand₂
  match transop with
  | .null => (e, r)
  | .keyed _ => (if 0 < r.1 then e₂ else e, r)

/-- The header of a PACKET is encrypted, for users with the initial value of the payload. -/
def sealPacket (e : Edge) (pktbuf : List UInt8) (headerIdx idx : ℕ) : Edge × List UInt8 :=
  if e.conf.headerEncryption then
    let (e, stamp) := e.timeStamp
    let (e, r) := e.rand
    match e.conf.keys.ctxDynamic, e.conf.keys.ivDynamic with
    | some ctx, some iv =>
      let ivLen := if e.conf.sharedSecret.isSome then min (sizeSub idx headerIdx) speckIvecSize
        else 0
      (e, packetHeaderEncrypt pktbuf (UInt16.ofNat (headerIdx + ivLen)) (UInt16.ofNat idx) ctx iv
        stamp r.toUInt32)
    | _, _ => (e, pktbuf)
  else (e, pktbuf)

/-- `cmn` in `edge_send_packet2net`. -/
def packetCommon (e : Edge) (f : Frame) : Common where
  ttl := defaultTtl
  pc := msgTypePacket
  flags := f.transportFlags
  community := e.conf.communityName

/-- `edge_send_packet2net` up to `send_packet`, for a frame that is not discarded. -/
def encodeFrame (e : Edge) (tap : Tap) (f : Frame) (b : SendBuffers) : Edge × TapPacket :=
  let destMac := tap.destMac f.dhost
  let (compression, encSrc, encLen) :=
    tap.compressors.pack tap.compression ⟨.of f.bytes, b.compressionBuf, b.assembly⟩ f.size
  let head := encodePacket (encodeStart []) (e.packetCommon f)
    ⟨e.macAddr, destMac, Sock.zero, tap.transop.transformId.code, compression⟩
  let outLen := pktBufSize - head.idx
  let (e, retval, buffers) := e.encodePayload tap.transop ⟨encSrc, b.pktbuf, b.assembly⟩ outLen
    encLen
  -- a transform that fails takes a byte off the header
  let idx := ((head.idx : ℤ) + retval).toNat
  let (e, pktbuf) := e.sealPacket (head.bytes ++ buffers.outbuf.slice 0 outLen) head.idx idx
  (e, ⟨destMac, pktbuf.take idx⟩)

/-- `edge_send_packet2net` up to `send_packet`. -/
def edgeSendPacket2net (e : Edge) (tap : Tap) (f : Frame) (b : SendBuffers) :
    Option (Edge × TapPacket) :=
  if !tap.allowRouting && f.isFromOther e.ipAddr then none else some (e.encodeFrame tap f b)

/-- `edge_read_from_tap`, for a frame that has been read. -/
def edgeReadFromTap (e : Edge) (tap : Tap) (f : Frame) (b : SendBuffers) :
    Tap × Option (Edge × TapPacket) :=
  if f.size = 0 then (tap, none)
  else if tap.dropMulticast && f.isMulticast then (tap, none)
  else if e.lastSup = 0 then (tap, none)
  else
    let (filter, verdict) :=
      tap.networkTrafficFilter.filterPacketFromTap f.bytes (UInt16.ofNat f.size)
    let tap := { tap with networkTrafficFilter := filter }
    if verdict = some .drop then (tap, none) else (tap, e.edgeSendPacket2net tap f b)

end Edge

/-! ### To the TAP device -/

namespace Tap

/-- With routing, the host that a frame comes from is behind the edge that sent the PACKET. -/
def learnHost (tap : Tap) (srcMac : Mac) (now : ℤ) (f : Frame) : Tap :=
  if tap.allowRouting && !isMultiBroadcast f.shost then
    match tap.knownHosts.find? (·.macAddr == f.shost) with
    | none => { tap with knownHosts := tap.knownHosts.add ⟨f.shost, srcMac, now⟩ }
    | some (p, _) =>
      { tap with knownHosts := tap.knownHosts.modify p fun host =>
          { host with edgeAddr := srcMac, lastSeen := now } }
  else tap

/-- `handle_PACKET` from the unpacked frame on: what is passed to `tuntap_write`. -/
def handleFrame (tap : Tap) (ipAddr : UInt32) (srcMac : Mac) (now : ℤ) (f : Frame) :
    Tap × Option Frame :=
  if tap.dropMulticast && f.isMulticast then (tap, none)
  else if !tap.allowRouting && !f.isMulticast && f.isForOther ipAddr then (tap, none)
  else
    let tap := tap.learnHost srcMac now f
    let (filter, verdict) :=
      tap.networkTrafficFilter.filterPacketFromPeer f.bytes (UInt16.ofNat f.size)
    let tap := { tap with networkTrafficFilter := filter }
    if verdict = some .drop then (tap, none) else (tap, some f)

/-- `handle_PACKET` with a payload. -/
def handlePayload (tap : Tap) (ipAddr : UInt32) (now : ℤ) (pkt : Packet) (payload : Memory)
    (psize : ℕ) (b : ReceiveBuffers) : Tap × Option Frame :=
  if pkt.transform = tap.transop.transformId.code then
    let r := tap.transop.rev ⟨payload, b.decodeBuf, b.assembly⟩ pktBufSize psize
    -- the result of the transform is not looked at
    match tap.compressors.unpack pkt.compression ⟨r.2.outbuf, b.deflateBuf, b.assembly⟩
        (toSize r.1) with
    | none => (tap, none)
    | some (eth, ethSize) => tap.handleFrame ipAddr pkt.srcMac now ⟨eth.bytes, ethSize⟩
  else (tap, none)

end Tap

/-- Bytes in front of others. -/
def memoryOf (p : List UInt8) (behind : ℕ → UInt8) : Memory :=
  .of fun i => if i < p.length then p.getD i 0 else behind (i - p.length)

/-- What `process_udp` passes on to `handle_PACKET`: a PACKET that is accepted, with its payload. -/
def Edge.packetReceived (e : Edge) (rx : EdgeRx) : Option (Packet × List UInt8) :=
  (e.dispatched rx).bind fun d =>
    if d.cmn.pc = msgTypePacket then
      let m := decodePacket d.cmn d.udpBuf d.cur
      let (e, fresh) := e.checkStamp d m.out.srcMac true
      if fresh ∧ e.lastSup ≠ 0 then some (m.out, d.udpBuf.drop m.cur.idx) else none
    else none

/-- `process_udp` and `handle_PACKET`, for what is written to the TAP device. -/
def Edge.receiveFrame (e : Edge) (tap : Tap) (rx : EdgeRx) (now : ℤ) (b : ReceiveBuffers) :
    Tap × Option Frame :=
  match e.packetReceived rx with
  | none => (tap, none)
  | some (pkt, payload) =>
    tap.handlePayload e.ipAddr now pkt (memoryOf payload b.behind) payload.length b

/-! ### What is sent and written -/

/-- What is sent is sent for the frame; only the filter changes. -/
theorem Edge.edgeReadFromTap_sent {e : Edge} {tap tap' : Tap} {f : Frame} {b : SendBuffers}
    {r : Edge × TapPacket} (h : e.edgeReadFromTap tap f b = (tap', some r)) :
    (∃ filter, tap' = { tap with networkTrafficFilter := filter }) ∧
      r = e.encodeFrame tap' f b := by
  unfold edgeReadFromTap at h
  split_ifs at h with hempty hmulticast hwaits
  · cases h
  · cases h
  · cases h
  dsimp only at h
  split_ifs at h with hdrop
  · cases h
  · obtain ⟨rfl, hsent⟩ := Prod.mk.inj h
    unfold edgeSendPacket2net at hsent
    split_ifs at hsent with hother
    exact ⟨⟨_, rfl⟩, (Option.some.inj hsent).symm⟩

/-- What is written is the frame that was unpacked. -/
theorem Tap.handleFrame_written {tap : Tap} {ipAddr : UInt32} {srcMac : Mac} {now : ℤ}
    {f g : Frame} (h : (tap.handleFrame ipAddr srcMac now f).2 = some g) : g = f := by
  unfold handleFrame at h
  split_ifs at h with hmulticast hother
  dsimp only at h
  split_ifs at h with hdrop
  exact (Option.some.inj h).symm

theorem slice_memoryOf (p : List UInt8) (behind : ℕ → UInt8) :
    (memoryOf p behind).slice 0 p.length = p := by
  apply List.ext_getElem
  · simp
  · intro i h₁ h₂
    simp [Memory.slice, memoryOf, Memory.of, h₂]

/-- What a PACKET is like that stands for a frame: the payload is what the transform has made of
the packed frame. -/
structure StandsFor (tap : Tap) (pkt : Packet) (payload data : List UInt8) : Prop where
  transform : pkt.transform = tap.transop.transformId.code
  payload : ∀ b b' : TransopBuffers, b.inbuf.slice 0 payload.length = payload →
    ∃ eth, (tap.compressors.unpack pkt.compression
      { b' with inbuf := (tap.transop.rev b pktBufSize payload.length).2.outbuf }
      (toSize (tap.transop.rev b pktBufSize payload.length).1)) = some (eth, data.length) ∧
      eth.slice 0 data.length = data

/-- **What was packed is written as it was, or dropped for what it is**: only the frame counts, in
whatever buffer. -/
theorem StandsFor.handlePayload {tap : Tap} {pkt : Packet} {payload data : List UInt8}
    (h : StandsFor tap pkt payload data) (ipAddr : UInt32) (now : ℤ) (b : ReceiveBuffers) :
    ∃ f : Frame, f.data = data ∧
      tap.handlePayload ipAddr now pkt (memoryOf payload b.behind) payload.length b =
        tap.handleFrame ipAddr pkt.srcMac now f := by
  obtain ⟨eth, hunpack, hslice⟩ := h.payload
    ⟨memoryOf payload b.behind, b.decodeBuf, b.assembly⟩ ⟨b.deflateBuf, b.deflateBuf, b.assembly⟩
    (slice_memoryOf payload b.behind)
  refine ⟨⟨eth.bytes, data.length⟩, hslice, ?_⟩
  unfold Tap.handlePayload
  rw [if_pos h.transform]
  dsimp only at hunpack ⊢
  rw [hunpack]

end N2n
