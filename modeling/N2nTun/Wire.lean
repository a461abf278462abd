import N2nTun.Define

/-!
# The wire format

The routines of `wire.c`.  Encoders write into a buffer at a running index;
decoders read a buffer at a cursor that counts the remaining bytes down.  A
decoder that finds too few bytes returns `0`, leaves its output and the cursor
as they are, and decoding goes on with the next field.

## Main definitions

* `Cursor`, `Decoded` — the pair `*rem`, `*idx`, and what a decoder returns.
* `Encoded` — the buffer, the index and the count an encoder returns.
* `decodeRegisterSuper`, … — one decoder for each message type.
* `Msg`, `Msg.encode` — the messages, and the encoder of each.
-/

namespace N2n

open Bytes

/-! ### Decoding primitives -/

/-- The state `*rem`, `*idx` of a decoder. -/
structure Cursor where
  rem : ℕ
  idx : ℕ
  deriving DecidableEq

/-- The result of a decoder: the returned count, the output and the cursor. -/
structure Decoded (α : Type) where
  ret : ℤ
  out : α
  cur : Cursor

/-- The cursor after `n` bytes have been taken. -/
def Cursor.advance (c : Cursor) (n : ℕ) : Cursor := ⟨c.rem - n, c.idx + n⟩

/-- A field of `n` bytes whose value is `v`, or `out` as it was if there are
fewer than `n` bytes: the shape of every decoding primitive. -/
def decodeField {α : Type} (n : ℕ) (v out : α) (c : Cursor) : Decoded α :=
  if c.rem < n then ⟨0, out, c⟩ else ⟨n, v, c.advance n⟩

/-- A field that is there. -/
theorem decodeField_of_le {α : Type} {n : ℕ} {c : Cursor} (h : n ≤ c.rem) (v out : α) :
    decodeField n v out c = ⟨n, v, c.advance n⟩ := if_neg (not_lt.mpr h)

/-- `decode_uint8`. -/
def decodeUint8 (out : UInt8) (base : List UInt8) (c : Cursor) : Decoded UInt8 :=
  decodeField 1 (base.getD c.idx 0) out c

/-- `decode_uint16`. -/
def decodeUint16 (out : UInt16) (base : List UInt8) (c : Cursor) : Decoded UInt16 :=
  decodeField 2 (be16At base c.idx) out c

/-- `decode_uint32`. -/
def decodeUint32 (out : UInt32) (base : List UInt8) (c : Cursor) : Decoded UInt32 :=
  decodeField 4 (be32At base c.idx) out c

/-- `decode_buf` into an array of the copied size. -/
def decodeVec {n : ℕ} (out : List.Vector UInt8 n) (base : List UInt8) (c : Cursor) :
    Decoded (List.Vector UInt8 n) :=
  decodeField n (sliceVec base c.idx n) out c

/-- `decode_buf`: the only check is against the remaining bytes, and the copy
goes to the memory at `out` whatever the size of the array there. -/
def decodeBuf (out : List UInt8) (bufsize : ℕ) (base : List UInt8) (c : Cursor) :
    Decoded (List UInt8) :=
  decodeField bufsize (copyTo out (slice base c.idx bufsize)) out c

/-- `decode_mac`. -/
def decodeMac (out : Mac) (base : List UInt8) (c : Cursor) : Decoded Mac := decodeVec out base c

/-- `decode_cookie`. -/
def decodeCookie (out : UInt32) (base : List UInt8) (c : Cursor) : Decoded UInt32 :=
  decodeUint32 out base c

/-- `decode_common`: `-1` for a wrong version, else the number of bytes taken. -/
def decodeCommon (out : Common) (base : List UInt8) (c : Cursor) : Decoded Common :=
  let dummy := decodeUint8 0 base c
  if dummy.out ≠ pktVersion then ⟨-1, out, dummy.cur⟩
  else
    let ttl := decodeUint8 out.ttl base dummy.cur
    let flags := decodeUint16 out.flags base ttl.cur
    let community := decodeVec out.community base flags.cur
    ⟨(community.cur.idx : ℤ) - c.idx,
      { ttl := ttl.out
        pc := (flags.out &&& flagsTypeMask).toUInt8
        flags := flags.out &&& flagsBitsMask
        community := community.out },
      community.cur⟩

/-- The IPv4 address `a` in the union, whose other bytes have been cleared. -/
def v4Addr (a : List.Vector UInt8 4) : List.Vector UInt8 16 :=
  ⟨a.toList ++ List.replicate 12 0, by simp⟩

/-- `decode_sock`.  It returns the difference of a pointer and itself. -/
def decodeSock (out : Sock) (base : List UInt8) (c : Cursor) : Decoded Sock :=
  let f := decodeUint16 0 base c
  let port := decodeUint16 out.port base f.cur
  let type := if f.out &&& 0x4000 ≠ 0 then sockStream else sockDgram
  if f.out &&& 0x8000 ≠ 0 then
    let addr := decodeVec out.addr base port.cur
    ⟨0, ⟨afInet6, type, port.out, addr.out⟩, addr.cur⟩
  else
    let addr := decodeVec (List.Vector.replicate 4 0) base port.cur
    ⟨0, ⟨afInet, type, port.out, v4Addr addr.out⟩, addr.cur⟩

/-- `decode_sock_payload`.  The blank byte is skipped without a look at the
remaining bytes, whose count may wrap; the socket's type is left alone. -/
def decodeSockPayload (out : Sock) (base : List UInt8) (c : Cursor) : Decoded Sock :=
  let family := decodeUint8 out.family base c
  let c₁ : Cursor := ⟨(family.cur.rem + 2 ^ 64 - 1) % 2 ^ 64, family.cur.idx + 1⟩
  let portLow := decodeUint8 0 base c₁
  let portHigh := decodeUint8 0 base portLow.cur
  let addr := decodeVec out.addr base portHigh.cur
  ⟨family.ret + 1 + portLow.ret + portHigh.ret + addr.ret,
    ⟨family.out, out.type, be16 portHigh.out portLow.out, addr.out⟩, addr.cur⟩

/-! ### Decoding messages

Each decoder clears its output first. -/

/-- The socket of a message that carries one only under `N2N_FLAGS_SOCKET`. -/
def decodeSockIf (cmn : Common) (base : List UInt8) (c : Cursor) : Decoded Sock :=
  if cmn.flags &&& flagsSocket ≠ 0 then decodeSock Sock.zero base c else ⟨0, Sock.zero, c⟩

/-- The fields `auth.scheme`, `auth.token_size` and `auth.token` of a message. -/
def decodeAuth (base : List UInt8) (c : Cursor) : Decoded Auth :=
  let scheme := decodeUint16 0 base c
  let tokenSize := decodeUint16 0 base scheme.cur
  let token := decodeBuf Auth.zero.token tokenSize.out.toNat base tokenSize.cur
  ⟨scheme.ret + tokenSize.ret + token.ret, ⟨scheme.out, tokenSize.out, token.out⟩, token.cur⟩

/-- The fields `dev_addr.net_addr` and `dev_addr.net_bitlen` of a message. -/
def decodeDevAddr (base : List UInt8) (c : Cursor) : Decoded IpSubnet :=
  let netAddr := decodeUint32 0 base c
  let netBitlen := decodeUint8 0 base netAddr.cur
  ⟨netAddr.ret + netBitlen.ret, ⟨netAddr.out, netBitlen.out⟩, netBitlen.cur⟩

/-- The cleared `dev_desc` of a message. -/
def Desc.zero : Desc := List.Vector.replicate 16 0

/-- `decode_REGISTER`. -/
def decodeRegister (cmn : Common) (base : List UInt8) (c : Cursor) : Decoded Register :=
  let cookie := decodeCookie 0 base c
  let srcMac := decodeMac nullMac base cookie.cur
  let dstMac := decodeMac nullMac base srcMac.cur
  let sock := decodeSockIf cmn base dstMac.cur
  let devAddr := decodeDevAddr base sock.cur
  let devDesc := decodeVec Desc.zero base devAddr.cur
  ⟨cookie.ret + srcMac.ret + dstMac.ret + sock.ret + devAddr.ret + devDesc.ret,
    ⟨cookie.out, srcMac.out, dstMac.out, sock.out, devAddr.out, devDesc.out⟩, devDesc.cur⟩

/-- `decode_REGISTER_SUPER`. -/
def decodeRegisterSuper (cmn : Common) (base : List UInt8) (c : Cursor) :
    Decoded RegisterSuper :=
  let cookie := decodeCookie 0 base c
  let edgeMac := decodeMac nullMac base cookie.cur
  let sock := decodeSockIf cmn base edgeMac.cur
  let devAddr := decodeDevAddr base sock.cur
  let devDesc := decodeVec Desc.zero base devAddr.cur
  let auth := decodeAuth base devDesc.cur
  let keyTime := decodeUint32 0 base auth.cur
  ⟨cookie.ret + edgeMac.ret + sock.ret + devAddr.ret + devDesc.ret + auth.ret + keyTime.ret,
    ⟨cookie.out, edgeMac.out, sock.out, devAddr.out, devDesc.out, auth.out, keyTime.out⟩,
    keyTime.cur⟩

/-- `decode_UNREGISTER_SUPER`. -/
def decodeUnregisterSuper (base : List UInt8) (c : Cursor) : Decoded UnregisterSuper :=
  let auth := decodeAuth base c
  let srcMac := decodeMac nullMac base auth.cur
  ⟨auth.ret + srcMac.ret, ⟨auth.out, srcMac.out⟩, srcMac.cur⟩

/-- `decode_REGISTER_ACK`. -/
def decodeRegisterAck (cmn : Common) (base : List UInt8) (c : Cursor) : Decoded RegisterAck :=
  let cookie := decodeCookie 0 base c
  let dstMac := decodeMac nullMac base cookie.cur
  let srcMac := decodeMac nullMac base dstMac.cur
  let sock := decodeSockIf cmn base srcMac.cur
  ⟨cookie.ret + dstMac.ret + srcMac.ret + sock.ret,
    ⟨cookie.out, srcMac.out, dstMac.out, sock.out⟩, sock.cur⟩

/-- `decode_REGISTER_SUPER_ACK`: besides the message it fills the caller's
`tmpbuf` with the list of supernodes. -/
def decodeRegisterSuperAck (base : List UInt8) (c : Cursor) (tmpbuf : List UInt8) :
    Decoded (RegisterSuperAck × List UInt8) :=
  let cookie := decodeCookie 0 base c
  let srcMac := decodeMac nullMac base cookie.cur
  let devAddr := decodeDevAddr base srcMac.cur
  let lifetime := decodeUint16 0 base devAddr.cur
  let sock := decodeSock Sock.zero base lifetime.cur
  let auth := decodeAuth base sock.cur
  let numSn := decodeUint8 0 base auth.cur
  let tmp := decodeBuf tmpbuf (numSn.out.toNat * regSuperAckPayloadEntrySize) base numSn.cur
  let keyTime := decodeUint32 0 base tmp.cur
  ⟨cookie.ret + srcMac.ret + devAddr.ret + lifetime.ret + sock.ret + auth.ret + numSn.ret
      + tmp.ret + keyTime.ret,
    (⟨cookie.out, srcMac.out, devAddr.out, lifetime.out, sock.out, auth.out, numSn.out,
      keyTime.out⟩, tmp.out), keyTime.cur⟩

/-- `decode_REGISTER_SUPER_NAK`. -/
def decodeRegisterSuperNak (base : List UInt8) (c : Cursor) : Decoded RegisterSuperNak :=
  let cookie := decodeCookie 0 base c
  let srcMac := decodeMac nullMac base cookie.cur
  let auth := decodeAuth base srcMac.cur
  ⟨cookie.ret + srcMac.ret + auth.ret, ⟨cookie.out, srcMac.out, auth.out⟩, auth.cur⟩

/-- `decode_PACKET`. -/
def decodePacket (cmn : Common) (base : List UInt8) (c : Cursor) : Decoded Packet :=
  let srcMac := decodeMac nullMac base c
  let dstMac := decodeMac nullMac base srcMac.cur
  let sock := decodeSockIf cmn base dstMac.cur
  let compression := decodeUint8 0 base sock.cur
  let transform := decodeUint8 0 base compression.cur
  ⟨srcMac.ret + dstMac.ret + sock.ret + compression.ret + transform.ret,
    ⟨srcMac.out, dstMac.out, sock.out, transform.out, compression.out⟩, transform.cur⟩

/-- `decode_PEER_INFO`. -/
def decodePeerInfo (cmn : Common) (base : List UInt8) (c : Cursor) : Decoded PeerInfoMsg :=
  let aflags := decodeUint16 0 base c
  let srcMac := decodeMac nullMac base aflags.cur
  let mac := decodeMac nullMac base srcMac.cur
  let sock := decodeSock Sock.zero base mac.cur
  let preferredSock := decodeSockIf cmn base sock.cur
  let load := decodeUint32 0 base preferredSock.cur
  let uptime := decodeUint32 0 base load.cur
  let version := decodeVec (List.Vector.replicate 20 0) base uptime.cur
  ⟨aflags.ret + srcMac.ret + mac.ret + sock.ret + preferredSock.ret + load.ret + uptime.ret
      + version.ret,
    ⟨aflags.out, srcMac.out, mac.out, sock.out, preferredSock.out, load.out, version.out,
      uptime.out.toUInt64⟩, version.cur⟩

/-- `decode_QUERY_PEER`. -/
def decodeQueryPeer (base : List UInt8) (c : Cursor) : Decoded QueryPeer :=
  let srcMac := decodeMac nullMac base c
  let targetMac := decodeMac nullMac base srcMac.cur
  let aflags := decodeUint16 0 base targetMac.cur
  ⟨srcMac.ret + targetMac.ret + aflags.ret, ⟨aflags.out, srcMac.out, targetMac.out⟩, aflags.cur⟩

/-! ### Encoding primitives -/

/-- The buffer, `*idx` and the count an encoder returns. -/
structure Encoded where
  base : List UInt8
  idx : ℕ
  ret : ℤ

/-- `encode_buf`; the shape of every encoding primitive. -/
def encodeBuf (e : Encoded) (p : List UInt8) : Encoded :=
  ⟨overwrite e.base e.idx p, e.idx + p.length, e.ret + p.length⟩

/-- `encode_uint8`. -/
def encodeUint8 (e : Encoded) (v : UInt8) : Encoded := encodeBuf e [v]

/-- `encode_uint16`. -/
def encodeUint16 (e : Encoded) (v : UInt16) : Encoded := encodeBuf e (bytes16 v)

/-- `encode_uint32`. -/
def encodeUint32 (e : Encoded) (v : UInt32) : Encoded := encodeBuf e (bytes32 v)

/-- `encode_mac`. -/
def encodeMac (e : Encoded) (m : Mac) : Encoded := encodeBuf e m.toList

/-- `encode_cookie`. -/
def encodeCookie (e : Encoded) (c : UInt32) : Encoded := encodeUint32 e c

/-- The word that carries the message type and the flags. -/
def Common.word (common : Common) : UInt16 :=
  (common.pc.toUInt16 &&& flagsTypeMask) ||| (common.flags &&& flagsBitsMask)

/-- `encode_common`; it returns `-1` whatever it wrote. -/
def encodeCommon (e : Encoded) (common : Common) : Encoded :=
  let e₁ := encodeUint8 e pktVersion
  let e₂ := encodeUint8 e₁ common.ttl
  let e₃ := encodeUint16 e₂ common.word
  let e₄ := encodeBuf e₃ common.community.toList
  { e₄ with ret := e.ret - 1 }

/-- The word that carries the family and the type of a socket. -/
def Sock.word (sock : Sock) (f : UInt16) : UInt16 :=
  if sock.type = sockStream then f ||| 0x4000 else f

/-- `encode_sock`: a socket of no known family is not written. -/
def encodeSock (e : Encoded) (sock : Sock) : Encoded :=
  if sock.family = afInet then
    encodeBuf (encodeUint16 (encodeUint16 e (sock.word 0)) sock.port) (sock.addr.toList.take 4)
  else if sock.family = afInet6 then
    encodeBuf (encodeUint16 (encodeUint16 e (sock.word 0x8000)) sock.port) sock.addr.toList
  else { e with ret := e.ret - 1 }

/-- `encode_sock_payload`. -/
def encodeSockPayload (e : Encoded) (sock : Sock) : Encoded :=
  let e₁ := encodeUint8 e sock.family
  let e₂ := encodeUint8 e₁ 0
  let e₃ := encodeUint8 e₂ sock.port.toUInt8
  let e₄ := encodeUint8 e₃ (sock.port >>> 8).toUInt8
  encodeBuf e₄ sock.addr.toList

/-- The socket of a message that carries one only under `N2N_FLAGS_SOCKET`. -/
def encodeSockIf (e : Encoded) (common : Common) (sock : Sock) : Encoded :=
  if common.flags &&& flagsSocket ≠ 0 then encodeSock e sock else e

/-- The fields of an `n2n_auth_t`; `token_size` bytes of the token are written. -/
def encodeAuth (e : Encoded) (auth : Auth) : Encoded :=
  encodeBuf (encodeUint16 (encodeUint16 e auth.scheme) auth.tokenSize)
    (slice auth.token 0 auth.tokenSize.toNat)

/-- The fields of an `n2n_ip_subnet_t`. -/
def encodeDevAddr (e : Encoded) (a : IpSubnet) : Encoded :=
  encodeUint8 (encodeUint32 e a.netAddr) a.netBitlen

/-! ### Encoding messages -/

/-- `encode_REGISTER`. -/
def encodeRegister (e : Encoded) (common : Common) (reg : Register) : Encoded :=
  let e := encodeCommon e common
  let e := encodeCookie e reg.cookie
  let e := encodeMac e reg.srcMac
  let e := encodeMac e reg.dstMac
  let e := encodeSockIf e common reg.sock
  let e := encodeDevAddr e reg.devAddr
  encodeBuf e reg.devDesc.toList

/-- `encode_REGISTER_SUPER`. -/
def encodeRegisterSuper (e : Encoded) (common : Common) (reg : RegisterSuper) : Encoded :=
  let e := encodeCommon e common
  let e := encodeCookie e reg.cookie
  let e := encodeMac e reg.edgeMac
  let e := encodeSockIf e common reg.sock
  let e := encodeDevAddr e reg.devAddr
  let e := encodeBuf e reg.devDesc.toList
  let e := encodeAuth e reg.auth
  encodeUint32 e reg.keyTime

/-- `encode_UNREGISTER_SUPER`. -/
def encodeUnregisterSuper (e : Encoded) (common : Common) (unreg : UnregisterSuper) : Encoded :=
  let e := encodeCommon e common
  let e := encodeAuth e unreg.auth
  encodeMac e unreg.srcMac

/-- `encode_REGISTER_ACK`. -/
def encodeRegisterAck (e : Encoded) (common : Common) (reg : RegisterAck) : Encoded :=
  let e := encodeCommon e common
  let e := encodeCookie e reg.cookie
  let e := encodeMac e reg.dstMac
  let e := encodeMac e reg.srcMac
  encodeSockIf e common reg.sock

/-- `encode_REGISTER_SUPER_ACK`; the socket is mandatory here. -/
def encodeRegisterSuperAck (e : Encoded) (common : Common) (reg : RegisterSuperAck)
    (tmpbuf : List UInt8) : Encoded :=
  let e := encodeCommon e common
  let e := encodeCookie e reg.cookie
  let e := encodeMac e reg.srcMac
  let e := encodeDevAddr e reg.devAddr
  let e := encodeUint16 e reg.lifetime
  let e := encodeSock e reg.sock
  let e := encodeAuth e reg.auth
  let e := encodeUint8 e reg.numSn
  let e := encodeBuf e (slice tmpbuf 0 (reg.numSn.toNat * regSuperAckPayloadEntrySize))
  encodeUint32 e reg.keyTime

/-- `encode_REGISTER_SUPER_NAK`. -/
def encodeRegisterSuperNak (e : Encoded) (common : Common) (nak : RegisterSuperNak) : Encoded :=
  let e := encodeCommon e common
  let e := encodeCookie e nak.cookie
  let e := encodeMac e nak.srcMac
  encodeAuth e nak.auth

/-- `encode_PACKET`. -/
def encodePacket (e : Encoded) (common : Common) (pkt : Packet) : Encoded :=
  let e := encodeCommon e common
  let e := encodeMac e pkt.srcMac
  let e := encodeMac e pkt.dstMac
  let e := encodeSockIf e common pkt.sock
  let e := encodeUint8 e pkt.compression
  encodeUint8 e pkt.transform

/-- `encode_PEER_INFO`. -/
def encodePeerInfo (e : Encoded) (cmn : Common) (pkt : PeerInfoMsg) : Encoded :=
  let e := encodeCommon e cmn
  let e := encodeUint16 e pkt.aflags
  let e := encodeMac e pkt.srcMac
  let e := encodeMac e pkt.mac
  let e := encodeSock e pkt.sock
  let e := encodeSockIf e cmn pkt.preferredSock
  let e := encodeUint32 e pkt.load
  let e := encodeUint32 e pkt.uptime.toUInt32
  encodeBuf e pkt.version.toList

/-- `encode_QUERY_PEER`. -/
def encodeQueryPeer (e : Encoded) (common : Common) (pkt : QueryPeer) : Encoded :=
  let e := encodeCommon e common
  let e := encodeMac e pkt.srcMac
  let e := encodeMac e pkt.targetMac
  encodeUint16 e pkt.aflags

/-- A message with everything its encoder reads besides the common header. -/
inductive Msg where
  | register (reg : Register)
  | registerSuper (reg : RegisterSuper)
  | unregisterSuper (unreg : UnregisterSuper)
  | registerAck (reg : RegisterAck)
  | registerSuperAck (reg : RegisterSuperAck) (tmpbuf : List UInt8)
  | registerSuperNak (nak : RegisterSuperNak)
  | packet (pkt : Packet)
  | peerInfo (pkt : PeerInfoMsg)
  | queryPeer (pkt : QueryPeer)

/-- The encoder `encode_<MESSAGE>` of a message. -/
def Msg.encode (e : Encoded) (common : Common) : Msg → Encoded
  | .register reg => encodeRegister e common reg
  | .registerSuper reg => encodeRegisterSuper e common reg
  | .unregisterSuper unreg => encodeUnregisterSuper e common unreg
  | .registerAck reg => encodeRegisterAck e common reg
  | .registerSuperAck reg tmpbuf => encodeRegisterSuperAck e common reg tmpbuf
  | .registerSuperNak nak => encodeRegisterSuperNak e common nak
  | .packet pkt => encodePacket e common pkt
  | .peerInfo pkt => encodePeerInfo e common pkt
  | .queryPeer pkt => encodeQueryPeer e common pkt

/-- What an encoder that started at `idx = 0` has written: the bytes that are
sent. -/
def Encoded.bytes (e : Encoded) : List UInt8 := e.base.take e.idx

/-- An encoder at the start of a buffer. -/
def encodeStart (buf : List UInt8) : Encoded := ⟨buf, 0, 0⟩

end N2n
