import N2nTun.WireEncode

/-!
# Messages on the wire and back

The wire format of each message as a string of bytes, without buffers and indices.  The
encoders write it, and the decoders read it back, whatever follows.

## Main definitions

* `Msg.body` — the bytes of a message after the common header.
* `MsgKind`, `MsgKind.decode` — the decoder for each type.
* `Cursor.At` — what remains at a cursor.
* `Msg.Encodable`, `Msg.Same` — what a message must be like, and what is read back.

## Main results

* `Msg.encode_wrote` — the encoders write the wire format.
* `MsgKind.decode_body` — the decoders read it.
* `wire_roundTrip` — **a message is decoded to itself.**
-/

namespace N2n

open Bytes

/-! ### The wire format -/

/-- The bytes of a socket. -/
def Sock.wire (sock : Sock) : List UInt8 :=
  if sock.family = afInet then
    bytes16 (sock.word 0) ++ (bytes16 sock.port ++ sock.addr.toList.take 4)
  else if sock.family = afInet6 then
    bytes16 (sock.word 0x8000) ++ (bytes16 sock.port ++ sock.addr.toList)
  else []

/-- The bytes of a socket that is only sent under `N2N_FLAGS_SOCKET`. -/
def Sock.wireIf (sock : Sock) (cmn : Common) : List UInt8 :=
  if cmn.flags &&& flagsSocket ≠ 0 then sock.wire else []

/-- The bytes of an `n2n_auth_t`. -/
def Auth.wire (auth : Auth) : List UInt8 :=
  bytes16 auth.scheme ++ (bytes16 auth.tokenSize ++ slice auth.token 0 auth.tokenSize.toNat)

/-- The bytes of an `n2n_ip_subnet_t`. -/
def IpSubnet.wire (a : IpSubnet) : List UInt8 := bytes32 a.netAddr ++ [a.netBitlen]

/-- The bytes of the list of supernodes. -/
def snListBytes (numSn : UInt8) (tmpbuf : List UInt8) : List UInt8 :=
  slice tmpbuf 0 (numSn.toNat * regSuperAckPayloadEntrySize)

/-- The bytes of a message after the common header. -/
def Msg.body (cmn : Common) : Msg → List UInt8
  | .register reg =>
    bytes32 reg.cookie ++ (reg.srcMac.toList ++ (reg.dstMac.toList ++ (reg.sock.wireIf cmn ++
      (reg.devAddr.wire ++ reg.devDesc.toList))))
  | .registerSuper reg =>
    bytes32 reg.cookie ++ (reg.edgeMac.toList ++ (reg.sock.wireIf cmn ++ (reg.devAddr.wire ++
      (reg.devDesc.toList ++ (reg.auth.wire ++ bytes32 reg.keyTime)))))
  | .unregisterSuper unreg => unreg.auth.wire ++ unreg.srcMac.toList
  | .registerAck reg =>
    bytes32 reg.cookie ++ (reg.dstMac.toList ++ (reg.srcMac.toList ++ reg.sock.wireIf cmn))
  | .registerSuperAck reg tmpbuf =>
    bytes32 reg.cookie ++ (reg.srcMac.toList ++ (reg.devAddr.wire ++ (bytes16 reg.lifetime ++
      (reg.sock.wire ++ (reg.auth.wire ++ ([reg.numSn] ++ (snListBytes reg.numSn tmpbuf ++
        bytes32 reg.keyTime)))))))
  | .registerSuperNak nak => bytes32 nak.cookie ++ (nak.srcMac.toList ++ nak.auth.wire)
  | .packet pkt =>
    pkt.srcMac.toList ++ (pkt.dstMac.toList ++ (pkt.sock.wireIf cmn ++ ([pkt.compression] ++
      [pkt.transform])))
  | .peerInfo pkt =>
    bytes16 pkt.aflags ++ (pkt.srcMac.toList ++ (pkt.mac.toList ++ (pkt.sock.wire ++
      (pkt.preferredSock.wireIf cmn ++ (bytes32 pkt.load ++ (bytes32 pkt.uptime.toUInt32 ++
        pkt.version.toList))))))
  | .queryPeer pkt => pkt.srcMac.toList ++ (pkt.targetMac.toList ++ bytes16 pkt.aflags)

namespace Encoded.Wrote

variable {e : Encoded} {w : List UInt8}

theorem uint8 (h : e.Wrote w) (v : UInt8) : (encodeUint8 e v).Wrote (w ++ [v]) := h.encodeBuf _

theorem uint16 (h : e.Wrote w) (v : UInt16) : (encodeUint16 e v).Wrote (w ++ bytes16 v) :=
  h.encodeBuf _

theorem uint32 (h : e.Wrote w) (v : UInt32) : (encodeUint32 e v).Wrote (w ++ bytes32 v) :=
  h.encodeBuf _

theorem mac (h : e.Wrote w) (m : Mac) : (encodeMac e m).Wrote (w ++ m.toList) := h.encodeBuf _

theorem sock (h : e.Wrote w) (s : Sock) : (encodeSock e s).Wrote (w ++ s.wire) := by
  unfold encodeSock Sock.wire
  split_ifs
  · simpa using ((h.uint16 (s.word 0)).uint16 s.port).encodeBuf (s.addr.toList.take 4)
  · simpa using ((h.uint16 (s.word 0x8000)).uint16 s.port).encodeBuf s.addr.toList
  · simpa using (⟨h.inside, h.bytes⟩ : Encoded.Wrote { e with ret := e.ret - 1 } w)

theorem sockIf (h : e.Wrote w) (cmn : Common) (s : Sock) :
    (encodeSockIf e cmn s).Wrote (w ++ s.wireIf cmn) := by
  unfold encodeSockIf Sock.wireIf
  split_ifs
  · exact h.sock s
  · simpa using h

theorem auth (h : e.Wrote w) (a : Auth) : (encodeAuth e a).Wrote (w ++ a.wire) := by
  have hw := ((h.uint16 a.scheme).uint16 a.tokenSize).encodeBuf (slice a.token 0 a.tokenSize.toNat)
  simp only [List.append_assoc] at hw
  exact hw

theorem devAddr (h : e.Wrote w) (a : IpSubnet) : (encodeDevAddr e a).Wrote (w ++ a.wire) := by
  have hw := (h.uint32 a.netAddr).uint8 a.netBitlen
  simp only [List.append_assoc] at hw
  exact hw

end Encoded.Wrote

/-- **The encoders write the wire format.** -/
theorem Msg.encode_wrote (buf : List UInt8) (cmn : Common) (m : Msg) :
    (m.encode (encodeStart buf) cmn).Wrote (cmn.header ++ m.body cmn) := by
  have h := encodeCommon_wrote buf cmn
  cases m with
  | register reg =>
    have hw := (((((h.uint32 reg.cookie).mac reg.srcMac).mac reg.dstMac).sockIf cmn
      reg.sock).devAddr reg.devAddr).encodeBuf reg.devDesc.toList
    simp only [List.append_assoc] at hw
    exact hw
  | registerSuper reg =>
    have hw := ((((((h.uint32 reg.cookie).mac reg.edgeMac).sockIf cmn reg.sock).devAddr
      reg.devAddr).encodeBuf reg.devDesc.toList).auth reg.auth).uint32 reg.keyTime
    simp only [List.append_assoc] at hw
    exact hw
  | unregisterSuper unreg =>
    have hw := (h.auth unreg.auth).mac unreg.srcMac
    simp only [List.append_assoc] at hw
    exact hw
  | registerAck reg =>
    have hw := (((h.uint32 reg.cookie).mac reg.dstMac).mac reg.srcMac).sockIf cmn reg.sock
    simp only [List.append_assoc] at hw
    exact hw
  | registerSuperAck reg tmpbuf =>
    have hw := ((((((((h.uint32 reg.cookie).mac reg.srcMac).devAddr reg.devAddr).uint16
      reg.lifetime).sock reg.sock).auth reg.auth).uint8 reg.numSn).encodeBuf (snListBytes
      reg.numSn tmpbuf)).uint32 reg.keyTime
    simp only [List.append_assoc] at hw
    exact hw
  | registerSuperNak nak =>
    have hw := ((h.uint32 nak.cookie).mac nak.srcMac).auth nak.auth
    simp only [List.append_assoc] at hw
    exact hw
  | packet pkt =>
    have hw := ((((h.mac pkt.srcMac).mac pkt.dstMac).sockIf cmn pkt.sock).uint8
      pkt.compression).uint8 pkt.transform
    simp only [List.append_assoc] at hw
    exact hw
  | peerInfo pkt =>
    have hw := (((((((h.uint16 pkt.aflags).mac pkt.srcMac).mac pkt.mac).sock pkt.sock).sockIf cmn
      pkt.preferredSock).uint32 pkt.load).uint32 pkt.uptime.toUInt32).encodeBuf
      pkt.version.toList
    simp only [List.append_assoc] at hw
    exact hw
  | queryPeer pkt =>
    have hw := ((h.mac pkt.srcMac).mac pkt.targetMac).uint16 pkt.aflags
    simp only [List.append_assoc] at hw
    exact hw

/-! ### Reading fields -/

/-- The bytes `rest` remain at the cursor. -/
structure Cursor.At (c : Cursor) (base rest : List UInt8) : Prop where
  rem : c.rem = rest.length
  bytes : ∃ pre, base = pre ++ rest ∧ c.idx = pre.length

/-- A decoder has read `v`, and `rest` remains. -/
structure Reads {α : Type} (d : Decoded α) (v : α) (base rest : List UInt8) : Prop where
  out : d.out = v
  left : d.cur.At base rest

namespace Cursor.At

variable {c : Cursor} {base p : List UInt8}

/-- A field of the length of `q` is taken off. -/
theorem field {α : Type} {q : List UInt8} (h : c.At base (q ++ p)) {n : ℕ} (hn : q.length = n)
    {v v' : α} (hv : v = v') (out : α) : Reads (decodeField n v out c) v' base p := by
  obtain ⟨pre, hbase, hidx⟩ := h.bytes
  have hrem : c.rem = n + p.length := by rw [h.rem, List.length_append, hn]
  rw [decodeField_of_le (by omega)]
  refine ⟨hv, ?_, pre ++ q, ?_, ?_⟩
  · dsimp only [Cursor.advance]
    omega
  · rw [hbase, List.append_assoc]
  · rw [List.length_append, hn, Cursor.advance, hidx]

theorem uint8 {v : UInt8} (h : c.At base ([v] ++ p)) (out : UInt8) :
    Reads (decodeUint8 out base c) v base p := by
  refine h.field rfl ?_ out
  obtain ⟨pre, rfl, hidx⟩ := h.bytes
  rw [hidx, ← Nat.add_zero pre.length, getD_append_add]
  rfl

theorem uint16 {v : UInt16} (h : c.At base (bytes16 v ++ p)) (out : UInt16) :
    Reads (decodeUint16 out base c) v base p := by
  refine h.field rfl ?_ out
  obtain ⟨pre, rfl, hidx⟩ := h.bytes
  rw [hidx, ← Nat.add_zero pre.length, be16At_append, be16At_bytes16]

theorem uint32 {v : UInt32} (h : c.At base (bytes32 v ++ p)) (out : UInt32) :
    Reads (decodeUint32 out base c) v base p := by
  refine h.field rfl ?_ out
  obtain ⟨pre, rfl, hidx⟩ := h.bytes
  rw [hidx, ← Nat.add_zero pre.length, be32At_append, be32At_bytes32]

theorem cookie {v : UInt32} (h : c.At base (bytes32 v ++ p)) (out : UInt32) :
    Reads (decodeCookie out base c) v base p := h.uint32 out

theorem slice_eq {q : List UInt8} (h : c.At base (q ++ p)) : slice base c.idx q.length = q := by
  obtain ⟨pre, rfl, hidx⟩ := h.bytes
  rw [hidx, ← Nat.add_zero pre.length, slice_append, slice_left]

theorem vec {n : ℕ} {v : List.Vector UInt8 n} (h : c.At base (v.toList ++ p))
    (out : List.Vector UInt8 n) : Reads (decodeVec out base c) v base p := by
  have hlen : v.toList.length = n := v.2
  refine h.field hlen (Subtype.ext ?_) out
  have hslice := h.slice_eq
  rw [hlen] at hslice
  exact hslice

theorem mac {m : Mac} (h : c.At base (m.toList ++ p)) (out : Mac) :
    Reads (decodeMac out base c) m base p := h.vec out

/-- Bytes are copied to the start of an array. -/
theorem buf {q : List UInt8} (h : c.At base (q ++ p)) {n : ℕ} (hn : n = q.length)
    (out : List UInt8) : Reads (decodeBuf out n base c) (copyTo out q) base p := by
  subst hn
  refine h.field rfl ?_ out
  rw [h.slice_eq]

theorem devAddr {a : IpSubnet} (h : c.At base (a.wire ++ p)) :
    Reads (decodeDevAddr base c) a base p := by
  rw [IpSubnet.wire, List.append_assoc] at h
  have hnet := h.uint32 0
  have hlen := hnet.left.uint8 0
  refine ⟨?_, hlen.left⟩
  show (⟨_, _⟩ : IpSubnet) = a
  rw [hnet.out, hlen.out]

end Cursor.At

/-- The same scheme and the same bytes of the token. -/
structure Auth.Same (a a' : Auth) : Prop where
  scheme : a'.scheme = a.scheme
  tokenSize : a'.tokenSize = a.tokenSize
  token : slice a'.token 0 a.tokenSize.toNat = slice a.token 0 a.tokenSize.toNat

/-- What has been copied is found at the start of the array. -/
theorem slice_copyTo (out q : List UInt8) : slice (copyTo out q) 0 q.length = q := slice_left q _

theorem Cursor.At.auth {c : Cursor} {base p : List UInt8} {a : Auth}
    (h : c.At base (a.wire ++ p)) :
    a.Same (decodeAuth base c).out ∧ (decodeAuth base c).cur.At base p := by
  rw [Auth.wire, List.append_assoc, List.append_assoc] at h
  have hscheme := h.uint16 0
  have hsize := hscheme.left.uint16 0
  have hlen : (decodeUint16 0 base (decodeUint16 0 base c).cur).out.toNat =
      (slice a.token 0 a.tokenSize.toNat).length := by
    rw [hsize.out, length_slice]
  have htoken := hsize.left.buf hlen Auth.zero.token
  refine ⟨⟨hscheme.out, hsize.out, ?_⟩, htoken.left⟩
  show slice (decodeBuf _ _ _ _).out 0 _ = _
  have hcopy := slice_copyTo Auth.zero.token (slice a.token 0 a.tokenSize.toNat)
  rw [length_slice] at hcopy
  rw [htoken.out, hcopy]

/-! ### Sockets -/

/-- A socket that can be sent: of IPv4, with nothing behind the address, or of IPv6, and of one
of the two types. -/
structure Sock.Ok (s : Sock) : Prop where
  family : s.family = afInet ∧ s.addr.toList.drop 4 = List.replicate 12 0 ∨ s.family = afInet6
  type : s.type = sockStream ∨ s.type = sockDgram

/-- The bits of the first word of a socket. -/
theorem Sock.word_bits (s : Sock) (f : UInt16) (hf : f = 0 ∨ f = 0x8000) :
    (s.word f &&& 0x4000 ≠ 0 ↔ s.type = sockStream) ∧ (s.word f &&& 0x8000 ≠ 0 ↔ f = 0x8000) := by
  unfold Sock.word
  rcases hf with rfl | rfl <;> split_ifs with h <;> simp [h] <;> decide

theorem Cursor.At.sock {c : Cursor} {base p : List UInt8} {s : Sock} (hs : s.Ok)
    (h : c.At base (s.wire ++ p)) : Reads (decodeSock Sock.zero base c) s base p := by
  have htype : ∀ f, f = 0 ∨ f = 0x8000 →
      (if s.word f &&& 0x4000 ≠ 0 then sockStream else sockDgram) = s.type := by
    intro f hf
    have hstream := (s.word_bits f hf).1
    rcases hs.type with ht | ht
    · rw [if_pos (hstream.mpr ht), ht]
    · rw [if_neg (fun hbit => ?_), ht]
      exact absurd (ht.symm.trans (hstream.mp hbit)) (by decide)
  rcases hs.family with ⟨hfam, htail⟩ | hfam
  · -- IPv4
    let v4 : List.Vector UInt8 4 := ⟨s.addr.toList.take 4, by simp⟩
    have hv4 : v4Addr v4 = s.addr := by
      refine Subtype.ext ?_
      show s.addr.toList.take 4 ++ List.replicate 12 0 = s.addr.toList
      rw [← htail, List.take_append_drop]
    rw [Sock.wire, if_pos hfam, List.append_assoc, List.append_assoc] at h
    have hword := h.uint16 0
    have hport := hword.left.uint16 Sock.zero.port
    have haddr := Cursor.At.vec (v := v4) hport.left (List.Vector.replicate 4 0)
    have hno : ¬ (s.word 0 &&& 0x8000 ≠ 0) := fun hbit =>
      absurd ((s.word_bits 0 (Or.inl rfl)).2.mp hbit) (by decide)
    unfold decodeSock
    dsimp only
    rw [hword.out, if_neg hno, htype 0 (Or.inl rfl), hport.out, haddr.out, hv4, ← hfam]
    exact ⟨rfl, haddr.left⟩
  · -- IPv6
    have hne : s.family ≠ afInet := by rw [hfam]; decide
    rw [Sock.wire, if_neg hne, if_pos hfam, List.append_assoc, List.append_assoc] at h
    have hword := h.uint16 0
    have hport := hword.left.uint16 Sock.zero.port
    have haddr := hport.left.vec Sock.zero.addr
    have hbit : s.word 0x8000 &&& 0x8000 ≠ 0 := (s.word_bits _ (Or.inr rfl)).2.mpr rfl
    unfold decodeSock
    dsimp only
    rw [hword.out, if_pos hbit, htype _ (Or.inr rfl), hport.out, haddr.out, ← hfam]
    exact ⟨rfl, haddr.left⟩

/-- A socket that may have been left out. -/
def Sock.sent (s : Sock) (cmn : Common) : Sock :=
  if cmn.flags &&& flagsSocket ≠ 0 then s else Sock.zero

theorem Cursor.At.sockIf {c : Cursor} {base p : List UInt8} {s : Sock} {cmn : Common}
    (hs : cmn.flags &&& flagsSocket ≠ 0 → s.Ok) (h : c.At base (s.wireIf cmn ++ p)) :
    Reads (decodeSockIf cmn base c) (s.sent cmn) base p := by
  unfold decodeSockIf Sock.sent
  rw [Sock.wireIf] at h
  split_ifs at h ⊢ with hflag
  · exact h.sock (hs hflag)
  · exact ⟨rfl, h⟩

/-! ### Reading messages -/

/-- The types of messages. -/
inductive MsgKind where
  | register
  | registerSuper
  | unregisterSuper
  | registerAck
  | registerSuperAck
  | registerSuperNak
  | packet
  | peerInfo
  | queryPeer
  deriving DecidableEq

/-- The type of a message. -/
def Msg.kind : Msg → MsgKind
  | .register _ => .register
  | .registerSuper _ => .registerSuper
  | .unregisterSuper _ => .unregisterSuper
  | .registerAck _ => .registerAck
  | .registerSuperAck _ _ => .registerSuperAck
  | .registerSuperNak _ => .registerSuperNak
  | .packet _ => .packet
  | .peerInfo _ => .peerInfo
  | .queryPeer _ => .queryPeer

/-- A decoder whose output is taken for a message. -/
def Decoded.map {α β : Type} (f : α → β) (d : Decoded α) : Decoded β := ⟨d.ret, f d.out, d.cur⟩

/-- The decoder `decode_<MESSAGE>` of a type; `tmpbuf` is the caller's buffer for the list of
supernodes. -/
def MsgKind.decode (cmn : Common) (base : List UInt8) (c : Cursor) (tmpbuf : List UInt8) :
    MsgKind → Decoded Msg
  | .register => (decodeRegister cmn base c).map .register
  | .registerSuper => (decodeRegisterSuper cmn base c).map .registerSuper
  | .unregisterSuper => (decodeUnregisterSuper base c).map .unregisterSuper
  | .registerAck => (decodeRegisterAck cmn base c).map .registerAck
  | .registerSuperAck =>
    (decodeRegisterSuperAck base c tmpbuf).map fun r => .registerSuperAck r.1 r.2
  | .registerSuperNak => (decodeRegisterSuperNak base c).map .registerSuperNak
  | .packet => (decodePacket cmn base c).map .packet
  | .peerInfo => (decodePeerInfo cmn base c).map .peerInfo
  | .queryPeer => (decodeQueryPeer base c).map .queryPeer

/-- What is required of a message: the sockets that are sent can be sent, a token fits into its
array, and an uptime into 32 bits. -/
def Msg.Encodable (cmn : Common) : Msg → Prop
  | .register reg => cmn.flags &&& flagsSocket ≠ 0 → reg.sock.Ok
  | .registerSuper reg =>
    (cmn.flags &&& flagsSocket ≠ 0 → reg.sock.Ok) ∧ reg.auth.tokenSize.toNat ≤ authMaxTokenSize
  | .unregisterSuper unreg => unreg.auth.tokenSize.toNat ≤ authMaxTokenSize
  | .registerAck reg => cmn.flags &&& flagsSocket ≠ 0 → reg.sock.Ok
  | .registerSuperAck reg _ => reg.sock.Ok ∧ reg.auth.tokenSize.toNat ≤ authMaxTokenSize
  | .registerSuperNak nak => nak.auth.tokenSize.toNat ≤ authMaxTokenSize
  | .packet pkt => cmn.flags &&& flagsSocket ≠ 0 → pkt.sock.Ok
  | .peerInfo pkt =>
    pkt.sock.Ok ∧ (cmn.flags &&& flagsSocket ≠ 0 → pkt.preferredSock.Ok) ∧
      pkt.uptime.toNat < 2 ^ 32
  | .queryPeer _ => True

/-- The message `m` has been read back as `m'`.  A socket that is not sent is cleared; of a
token and of the list of supernodes the bytes that are in use count. -/
def Msg.Same (cmn : Common) : Msg → Msg → Prop
  | .register reg, .register reg' => reg' = { reg with sock := reg.sock.sent cmn }
  | .registerSuper reg, .registerSuper reg' =>
    reg' = { reg with sock := reg.sock.sent cmn, auth := reg'.auth } ∧ reg.auth.Same reg'.auth
  | .unregisterSuper unreg, .unregisterSuper unreg' =>
    unreg' = { unreg with auth := unreg'.auth } ∧ unreg.auth.Same unreg'.auth
  | .registerAck reg, .registerAck reg' => reg' = { reg with sock := reg.sock.sent cmn }
  | .registerSuperAck reg tmpbuf, .registerSuperAck reg' tmpbuf' =>
    reg' = { reg with auth := reg'.auth } ∧ reg.auth.Same reg'.auth ∧
      snListBytes reg.numSn tmpbuf' = snListBytes reg.numSn tmpbuf
  | .registerSuperNak nak, .registerSuperNak nak' =>
    nak' = { nak with auth := nak'.auth } ∧ nak.auth.Same nak'.auth
  | .packet pkt, .packet pkt' => pkt' = { pkt with sock := pkt.sock.sent cmn }
  | .peerInfo pkt, .peerInfo pkt' =>
    pkt' = { pkt with preferredSock := pkt.preferredSock.sent cmn }
  | .queryPeer pkt, .queryPeer pkt' => pkt' = pkt
  | _, _ => False

section

variable {cmn : Common} {base post tmpbuf : List UInt8} {c : Cursor}

theorem decodeRegister_body {reg : Register} (hm : (Msg.register reg).Encodable cmn)
    (h : c.At base ((Msg.register reg).body cmn ++ post)) :
    Reads (decodeRegister cmn base c) { reg with sock := reg.sock.sent cmn } base post := by
  simp only [Msg.body, List.append_assoc] at h
  have hcookie := h.cookie 0
  have hsrc := hcookie.left.mac nullMac
  have hdst := hsrc.left.mac nullMac
  have hsock := hdst.left.sockIf hm
  have hdev := hsock.left.devAddr
  have hdesc := hdev.left.vec Desc.zero
  refine ⟨?_, hdesc.left⟩
  show (⟨_, _, _, _, _, _⟩ : Register) = _
  rw [hcookie.out, hsrc.out, hdst.out, hsock.out, hdev.out, hdesc.out]

theorem decodeRegisterSuper_body {reg : RegisterSuper}
    (hm : (Msg.registerSuper reg).Encodable cmn)
    (h : c.At base ((Msg.registerSuper reg).body cmn ++ post)) :
    (Msg.registerSuper reg).Same cmn (.registerSuper (decodeRegisterSuper cmn base c).out) ∧
      (decodeRegisterSuper cmn base c).cur.At base post := by
  simp only [Msg.body, List.append_assoc] at h
  unfold decodeRegisterSuper
  dsimp only
  have hcookie := h.cookie 0
  generalize decodeCookie 0 base c = cookie at hcookie ⊢
  have hmac := hcookie.left.mac nullMac
  generalize decodeMac nullMac base cookie.cur = edgeMac at hmac ⊢
  have hsock := hmac.left.sockIf hm.1
  generalize decodeSockIf cmn base edgeMac.cur = sock at hsock ⊢
  have hdev := hsock.left.devAddr
  generalize decodeDevAddr base sock.cur = devAddr at hdev ⊢
  have hdesc := hdev.left.vec Desc.zero
  generalize decodeVec Desc.zero base devAddr.cur = devDesc at hdesc ⊢
  obtain ⟨hsame, hleft⟩ := hdesc.left.auth
  generalize decodeAuth base devDesc.cur = auth at hsame hleft ⊢
  have htime := hleft.uint32 0
  refine ⟨⟨?_, hsame⟩, htime.left⟩
  rw [hcookie.out, hmac.out, hsock.out, hdev.out, hdesc.out, htime.out]

theorem decodeUnregisterSuper_body {unreg : UnregisterSuper}
    (h : c.At base ((Msg.unregisterSuper unreg).body cmn ++ post)) :
    (Msg.unregisterSuper unreg).Same cmn (.unregisterSuper (decodeUnregisterSuper base c).out) ∧
      (decodeUnregisterSuper base c).cur.At base post := by
  simp only [Msg.body, List.append_assoc] at h
  obtain ⟨hsame, hleft⟩ := h.auth
  have hmac := hleft.mac nullMac
  refine ⟨⟨?_, hsame⟩, hmac.left⟩
  show (⟨_, _⟩ : UnregisterSuper) = ⟨_, _⟩
  rw [hmac.out]
  rfl

theorem decodeRegisterAck_body {reg : RegisterAck} (hm : (Msg.registerAck reg).Encodable cmn)
    (h : c.At base ((Msg.registerAck reg).body cmn ++ post)) :
    Reads (decodeRegisterAck cmn base c) { reg with sock := reg.sock.sent cmn } base post := by
  simp only [Msg.body, List.append_assoc] at h
  have hcookie := h.cookie 0
  have hdst := hcookie.left.mac nullMac
  have hsrc := hdst.left.mac nullMac
  have hsock := hsrc.left.sockIf hm
  refine ⟨?_, hsock.left⟩
  show (⟨_, _, _, _⟩ : RegisterAck) = _
  rw [hcookie.out, hdst.out, hsrc.out, hsock.out]

theorem decodeRegisterSuperAck_body {reg : RegisterSuperAck} {list : List UInt8}
    (hm : (Msg.registerSuperAck reg list).Encodable cmn)
    (h : c.At base ((Msg.registerSuperAck reg list).body cmn ++ post)) :
    (Msg.registerSuperAck reg list).Same cmn
        (.registerSuperAck (decodeRegisterSuperAck base c tmpbuf).out.1
          (decodeRegisterSuperAck base c tmpbuf).out.2) ∧
      (decodeRegisterSuperAck base c tmpbuf).cur.At base post := by
  simp only [Msg.body, List.append_assoc] at h
  unfold decodeRegisterSuperAck
  dsimp only
  have hcookie := h.cookie 0
  generalize decodeCookie 0 base c = cookie at hcookie ⊢
  have hsrc := hcookie.left.mac nullMac
  generalize decodeMac nullMac base cookie.cur = srcMac at hsrc ⊢
  have hdev := hsrc.left.devAddr
  generalize decodeDevAddr base srcMac.cur = devAddr at hdev ⊢
  have hlife := hdev.left.uint16 0
  generalize decodeUint16 0 base devAddr.cur = lifetime at hlife ⊢
  have hsock := hlife.left.sock hm.1
  generalize decodeSock Sock.zero base lifetime.cur = sock at hsock ⊢
  obtain ⟨hsame, hleft⟩ := hsock.left.auth
  generalize decodeAuth base sock.cur = auth at hsame hleft ⊢
  have hnum := hleft.uint8 0
  generalize decodeUint8 0 base auth.cur = numSn at hnum ⊢
  have hsize : numSn.out.toNat * regSuperAckPayloadEntrySize =
      (snListBytes reg.numSn list).length := by
    rw [hnum.out, snListBytes, length_slice]
  have hlist := hnum.left.buf hsize tmpbuf
  generalize decodeBuf tmpbuf _ base numSn.cur = tmp at hlist ⊢
  have htime := hlist.left.uint32 0
  refine ⟨⟨?_, hsame, ?_⟩, htime.left⟩
  · rw [hcookie.out, hsrc.out, hdev.out, hlife.out, hsock.out, hnum.out, htime.out]
  · have hcopy := slice_copyTo tmpbuf (snListBytes reg.numSn list)
    rw [snListBytes, length_slice] at hcopy
    rw [hlist.out]
    exact hcopy

theorem decodeRegisterSuperNak_body {nak : RegisterSuperNak}
    (h : c.At base ((Msg.registerSuperNak nak).body cmn ++ post)) :
    (Msg.registerSuperNak nak).Same cmn (.registerSuperNak (decodeRegisterSuperNak base c).out) ∧
      (decodeRegisterSuperNak base c).cur.At base post := by
  simp only [Msg.body, List.append_assoc] at h
  have hcookie := h.cookie 0
  have hsrc := hcookie.left.mac nullMac
  obtain ⟨hsame, hleft⟩ := hsrc.left.auth
  refine ⟨⟨?_, hsame⟩, hleft⟩
  show (⟨_, _, _⟩ : RegisterSuperNak) = ⟨_, _, _⟩
  rw [hcookie.out, hsrc.out]
  rfl

theorem decodePacket_body {pkt : Packet} (hm : (Msg.packet pkt).Encodable cmn)
    (h : c.At base ((Msg.packet pkt).body cmn ++ post)) :
    Reads (decodePacket cmn base c) { pkt with sock := pkt.sock.sent cmn } base post := by
  simp only [Msg.body, List.append_assoc] at h
  have hsrc := h.mac nullMac
  have hdst := hsrc.left.mac nullMac
  have hsock := hdst.left.sockIf hm
  have hcomp := hsock.left.uint8 0
  have htrans := hcomp.left.uint8 0
  refine ⟨?_, htrans.left⟩
  show (⟨_, _, _, _, _⟩ : Packet) = _
  rw [hsrc.out, hdst.out, hsock.out, hcomp.out, htrans.out]

theorem decodePeerInfo_body {pkt : PeerInfoMsg} (hm : (Msg.peerInfo pkt).Encodable cmn)
    (h : c.At base ((Msg.peerInfo pkt).body cmn ++ post)) :
    Reads (decodePeerInfo cmn base c)
      { pkt with preferredSock := pkt.preferredSock.sent cmn } base post := by
  obtain ⟨hsockOk, hprefOk, huptime⟩ := hm
  have htime : pkt.uptime.toUInt32.toUInt64 = pkt.uptime := by
    apply UInt64.toNat_inj.mp
    rw [UInt32.toNat_toUInt64, UInt64.toNat_toUInt32, Nat.mod_eq_of_lt huptime]
  simp only [Msg.body, List.append_assoc] at h
  have hflags := h.uint16 0
  have hsrc := hflags.left.mac nullMac
  have hmac := hsrc.left.mac nullMac
  have hsock := hmac.left.sock hsockOk
  have hpref := hsock.left.sockIf hprefOk
  have hload := hpref.left.uint32 0
  have hup := hload.left.uint32 0
  have hversion := hup.left.vec (List.Vector.replicate 20 0)
  refine ⟨?_, hversion.left⟩
  show (⟨_, _, _, _, _, _, _, _⟩ : PeerInfoMsg) = _
  rw [hflags.out, hsrc.out, hmac.out, hsock.out, hpref.out, hload.out, hup.out, hversion.out, htime]

theorem decodeQueryPeer_body {pkt : QueryPeer}
    (h : c.At base ((Msg.queryPeer pkt).body cmn ++ post)) :
    Reads (decodeQueryPeer base c) pkt base post := by
  simp only [Msg.body, List.append_assoc] at h
  have hsrc := h.mac nullMac
  have htarget := hsrc.left.mac nullMac
  have hflags := htarget.left.uint16 0
  refine ⟨?_, hflags.left⟩
  show (⟨_, _, _⟩ : QueryPeer) = _
  rw [hsrc.out, htarget.out, hflags.out]

/-- **The decoders read the wire format.** -/
theorem MsgKind.decode_body {m : Msg} (hm : m.Encodable cmn) (h : c.At base (m.body cmn ++ post))
    (tmpbuf : List UInt8) :
    m.Same cmn (m.kind.decode cmn base c tmpbuf).out ∧
      (m.kind.decode cmn base c tmpbuf).cur.At base post := by
  cases m with
  | register reg =>
    obtain ⟨hout, hleft⟩ := decodeRegister_body hm h
    exact ⟨hout, hleft⟩
  | registerSuper reg =>
    dsimp only [Msg.kind, MsgKind.decode, Decoded.map]
    exact decodeRegisterSuper_body hm h
  | unregisterSuper unreg =>
    dsimp only [Msg.kind, MsgKind.decode, Decoded.map]
    exact decodeUnregisterSuper_body h
  | registerAck reg =>
    obtain ⟨hout, hleft⟩ := decodeRegisterAck_body hm h
    exact ⟨hout, hleft⟩
  | registerSuperAck reg list =>
    dsimp only [Msg.kind, MsgKind.decode, Decoded.map]
    exact decodeRegisterSuperAck_body hm h
  | registerSuperNak nak =>
    dsimp only [Msg.kind, MsgKind.decode, Decoded.map]
    exact decodeRegisterSuperNak_body h
  | packet pkt =>
    obtain ⟨hout, hleft⟩ := decodePacket_body hm h
    exact ⟨hout, hleft⟩
  | peerInfo pkt =>
    obtain ⟨hout, hleft⟩ := decodePeerInfo_body hm h
    exact ⟨hout, hleft⟩
  | queryPeer pkt =>
    obtain ⟨hout, hleft⟩ := decodeQueryPeer_body h
    exact ⟨hout, hleft⟩

end

/-! ### The common header -/

/-- The type and the flags do not overlap. -/
theorem Common.word_parts {cmn : Common} (hpc : cmn.pc < 32)
    (hflags : cmn.flags &&& flagsBitsMask = cmn.flags) :
    (cmn.word &&& flagsTypeMask).toUInt8 = cmn.pc ∧ cmn.word &&& flagsBitsMask = cmn.flags := by
  have hpc' : cmn.pc.toNat < 32 := UInt8.lt_iff_toNat_lt.mp hpc
  have hdisjoint : flagsBitsMask &&& flagsTypeMask = 0 := by decide
  have htype : cmn.pc.toUInt16 &&& flagsTypeMask = cmn.pc.toUInt16 := by
    apply UInt16.toNat_inj.mp
    rw [UInt16.toNat_and, UInt8.toNat_toUInt16, show flagsTypeMask.toNat = 2 ^ 5 - 1 from rfl,
      Nat.and_two_pow_sub_one_of_lt_two_pow hpc']
  refine ⟨?_, ?_⟩
  · rw [Common.word, or_and_flag, UInt16.and_assoc, UInt16.and_assoc, UInt16.and_self, hdisjoint,
      htype]
    simp
  · rw [Common.word, or_and_flag, UInt16.and_assoc, UInt16.and_assoc, UInt16.and_self,
      UInt16.and_comm flagsTypeMask, hdisjoint, hflags]
    simp

theorem decodeCommon_header_body {cmn : Common} (out : Common) (hpc : cmn.pc < 32)
    (hflags : cmn.flags &&& flagsBitsMask = cmn.flags) {base rest : List UInt8} {c : Cursor}
    (h : c.At base (cmn.header ++ rest)) : Reads (decodeCommon out base c) cmn base rest := by
  simp only [Common.header, List.append_assoc, List.cons_append, List.nil_append] at h
  have hver := Cursor.At.uint8 (v := pktVersion) h 0
  have httl := Cursor.At.uint8 (v := cmn.ttl) hver.left out.ttl
  have hword := httl.left.uint16 out.flags
  have hname := hword.left.vec out.community
  obtain ⟨htype, hbits⟩ := Common.word_parts hpc hflags
  unfold decodeCommon
  dsimp only
  rw [if_neg (not_not.mpr hver.out), httl.out, hword.out, hname.out, htype, hbits]
  exact ⟨rfl, hname.left⟩

/-- **A message is decoded to itself.**  The common header is read back as it was and the
message as it was sent; the index stands behind the message, and the bytes that follow
remain. -/
theorem wire_roundTrip (buf : List UInt8) {cmn : Common} {m : Msg} (hpc : cmn.pc < 32)
    (hflags : cmn.flags &&& flagsBitsMask = cmn.flags) (hm : m.Encodable cmn) (out : Common)
    (post tmpbuf : List UInt8) :
    let encoded := (m.encode (encodeStart buf) cmn).bytes
    let base := encoded ++ post
    let common := decodeCommon out base ⟨base.length, 0⟩
    let msg := m.kind.decode common.out base common.cur tmpbuf
    common.out = cmn ∧ m.Same cmn msg.out ∧ msg.cur = ⟨post.length, encoded.length⟩ := by
  intro encoded base common msg
  have hbytes : encoded = cmn.header ++ m.body cmn := (m.encode_wrote buf cmn).bytes
  have hbase : base = cmn.header ++ (m.body cmn ++ post) := by
    show encoded ++ post = _
    rw [hbytes, List.append_assoc]
  have hstart : Cursor.At ⟨base.length, 0⟩ base (cmn.header ++ (m.body cmn ++ post)) :=
    ⟨congrArg List.length hbase, [], hbase, rfl⟩
  have hcommon := decodeCommon_header_body out hpc hflags hstart
  have hout : common.out = cmn := hcommon.out
  have hmsg : msg = m.kind.decode cmn base common.cur tmpbuf := by
    show m.kind.decode common.out base common.cur tmpbuf = _
    rw [hout]
  obtain ⟨hsame, hrem, pre, hpre, hidx⟩ := MsgKind.decode_body hm hcommon.left tmpbuf
  refine ⟨hout, hmsg ▸ hsame, ?_⟩
  have hencoded : pre = encoded := (List.append_cancel_right hpre).symm
  rw [hmsg, ← hrem, ← hencoded, ← hidx]

/-- A REGISTER_SUPER with an IPv6 socket, followed by three more bytes. -/
theorem wire_roundTrip_registerSuper :
    let cmn : Common := ⟨2, msgTypeRegisterSuper, flagsSocket, List.Vector.replicate 20 97⟩
    let reg : RegisterSuper := ⟨7, ⟨[2, 0, 0, 0, 0, 1], rfl⟩,
      ⟨afInet6, sockStream, 7654, List.Vector.replicate 16 5⟩, ⟨0x0a000001, 24⟩,
      List.Vector.replicate 16 98, ⟨2, 48, List.replicate authMaxTokenSize 9⟩, 100⟩
    let encoded := ((Msg.registerSuper reg).encode (encodeStart []) cmn).bytes
    let base := encoded ++ [1, 2, 3]
    let common := decodeCommon ⟨0, 0, 0, List.Vector.replicate 20 0⟩ base ⟨base.length, 0⟩
    let msg := MsgKind.registerSuper.decode common.out base common.cur []
    common.out = cmn ∧ (Msg.registerSuper reg).Same cmn msg.out ∧
      msg.cur = ⟨3, encoded.length⟩ := by
  refine wire_roundTrip [] (by decide) (by decide) ?_ _ [1, 2, 3] []
  exact ⟨fun _ => ⟨Or.inr rfl, Or.inl rfl⟩, by decide⟩

end N2n
