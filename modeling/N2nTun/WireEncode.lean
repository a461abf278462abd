import N2nTun.Wire

/-!
# What the encoders write

Every encoder of `wire.c` writes at its index and moves it past what it wrote, so
that a message is the concatenation of its fields and starts with the common
header, whatever stood in the buffer.

## Main definitions

* `Encoded.Wrote`, `Encoded.Extends` — what has been written, and that more follows.
* `Common.header` — the bytes of the common header.
* `Msg.datagram` — a message under a plain header, with a payload.
* `HasHeader`, `IsFlagged`, `ttlOf` — the header of a packet, its flag and its TTL.

## Main results

* `Msg.encode_extends` — every encoder starts with the common header.
-/

namespace N2n

open Bytes

/-- An encoder appends: after `p` it has written what it had written, then `p`. -/
structure Encoded.Wrote (e : Encoded) (written : List UInt8) : Prop where
  inside : e.idx ≤ e.base.length
  bytes : e.bytes = written

theorem Encoded.Wrote.encodeBuf {e : Encoded} {w : List UInt8} (h : e.Wrote w) (p : List UInt8) :
    (encodeBuf e p).Wrote (w ++ p) := by
  refine ⟨?_, ?_⟩
  · simp only [N2n.encodeBuf, overwrite, List.length_append, List.length_take]
    have := h.inside
    omega
  · rw [← h.bytes]
    exact take_overwrite_end h.inside

/-- `e` is reached from what `e₀` has written by writing more. -/
def Encoded.Extends (e₀ e : Encoded) : Prop :=
  ∀ w : List UInt8, e₀.Wrote w → ∃ p, e.Wrote (w ++ p)

namespace Encoded.Extends

variable {e₀ e : Encoded}

theorem refl : e.Extends e := fun _ h => ⟨[], by simpa using h⟩

theorem buf (h : e₀.Extends e) (p : List UInt8) : e₀.Extends (encodeBuf e p) := by
  intro w hw
  obtain ⟨q, hq⟩ := h w hw
  exact ⟨q ++ p, by simpa using hq.encodeBuf p⟩

theorem uint8 (h : e₀.Extends e) (v : UInt8) : e₀.Extends (encodeUint8 e v) := h.buf _

theorem uint16 (h : e₀.Extends e) (v : UInt16) : e₀.Extends (encodeUint16 e v) := h.buf _

theorem uint32 (h : e₀.Extends e) (v : UInt32) : e₀.Extends (encodeUint32 e v) := h.buf _

theorem mac (h : e₀.Extends e) (m : Mac) : e₀.Extends (encodeMac e m) := h.buf _

theorem auth (h : e₀.Extends e) (a : Auth) : e₀.Extends (encodeAuth e a) :=
  ((h.uint16 _).uint16 _).buf _

theorem devAddr (h : e₀.Extends e) (a : IpSubnet) : e₀.Extends (encodeDevAddr e a) :=
  (h.uint32 _).uint8 _

/-- The count an encoder returns does not matter. -/
theorem ret (h : e₀.Extends e) (r : ℤ) : e₀.Extends { e with ret := r } := by
  intro w hw
  obtain ⟨q, hq⟩ := h w hw
  exact ⟨q, hq.inside, hq.bytes⟩

theorem sock (h : e₀.Extends e) (s : Sock) : e₀.Extends (encodeSock e s) := by
  unfold encodeSock
  split_ifs
  · exact ((h.uint16 _).uint16 _).buf _
  · exact ((h.uint16 _).uint16 _).buf _
  · exact h.ret _

theorem sockIf (h : e₀.Extends e) (cmn : Common) (s : Sock) :
    e₀.Extends (encodeSockIf e cmn s) := by
  unfold encodeSockIf
  split_ifs
  · exact h.sock s
  · exact h

end Encoded.Extends

/-- The 24 bytes every message starts with. -/
def Common.header (cmn : Common) : List UInt8 :=
  [pktVersion, cmn.ttl] ++ bytes16 cmn.word ++ cmn.community.toList

theorem encodeCommon_wrote (buf : List UInt8) (cmn : Common) :
    (encodeCommon (encodeStart buf) cmn).Wrote cmn.header := by
  have h₀ : (encodeStart buf).Wrote [] := ⟨Nat.zero_le _, rfl⟩
  have h := (((h₀.encodeBuf [pktVersion]).encodeBuf [cmn.ttl]).encodeBuf
    (bytes16 cmn.word)).encodeBuf cmn.community.toList
  exact ⟨h.inside, h.bytes⟩

/-- Every encoder writes the common header and goes on from there. -/
theorem Msg.encode_extends (e : Encoded) (cmn : Common) (m : Msg) :
    (encodeCommon e cmn).Extends (m.encode e cmn) := by
  have h : (encodeCommon e cmn).Extends (encodeCommon e cmn) := .refl
  cases m with
  | register reg => exact (((((h.uint32 _).mac _).mac _).sockIf _ _).devAddr _).buf _
  | registerSuper reg =>
    exact ((((((h.uint32 _).mac _).sockIf _ _).devAddr _).buf _).auth _).uint32 _
  | unregisterSuper unreg => exact (h.auth _).mac _
  | registerAck reg => exact (((h.uint32 _).mac _).mac _).sockIf _ _
  | registerSuperAck reg tmpbuf =>
    exact ((((((((h.uint32 _).mac _).devAddr _).uint16 _).sock _).auth _).uint8 _).buf _).uint32 _
  | registerSuperNak nak => exact ((h.uint32 _).mac _).auth _
  | packet pkt => exact ((((h.mac _).mac _).sockIf _ _).uint8 _).uint8 _
  | peerInfo pkt =>
    exact (((((((h.uint16 _).mac _).mac _).sock _).sockIf _ _).uint32 _).uint32 _).buf _
  | queryPeer pkt => exact ((h.mac _).mac _).uint16 _

/-- The datagram with the message `m` under a plain header and a payload. -/
def Msg.datagram (m : Msg) (buf : List UInt8) (cmn : Common) (payload : List UInt8) : List UInt8 :=
  (m.encode (encodeStart buf) cmn).bytes ++ payload

/-- A datagram starts with the common header. -/
theorem Msg.datagram_eq (m : Msg) (buf : List UInt8) (cmn : Common) (payload : List UInt8) :
    ∃ rest, m.datagram buf cmn payload = cmn.header ++ rest := by
  obtain ⟨p, hp⟩ := m.encode_extends (encodeStart buf) cmn _ (encodeCommon_wrote buf cmn)
  exact ⟨p ++ payload, by rw [Msg.datagram, hp.bytes, List.append_assoc]⟩

/-- The packet starts with the common header of `cmn`. -/
def HasHeader (plain : List UInt8) (cmn : Common) : Prop := ∃ rest, plain = cmn.header ++ rest

theorem encodeCommon_hasHeader (buf : List UInt8) (cmn : Common) :
    HasHeader (encodeCommon (encodeStart buf) cmn).bytes cmn :=
  ⟨[], by rw [(encodeCommon_wrote buf cmn).bytes, List.append_nil]⟩

theorem Msg.encode_hasHeader (m : Msg) (buf : List UInt8) (cmn : Common) :
    HasHeader (m.encode (encodeStart buf) cmn).bytes cmn := by
  obtain ⟨p, hp⟩ := m.encode_extends (encodeStart buf) cmn _ (encodeCommon_wrote buf cmn)
  exact ⟨p, hp.bytes⟩

theorem Msg.encodeBuf_hasHeader (m : Msg) (buf : List UInt8) (cmn : Common)
    (payload : List UInt8) :
    HasHeader (encodeBuf (m.encode (encodeStart buf) cmn) payload).bytes cmn := by
  obtain ⟨p, hp⟩ := m.encode_extends (encodeStart buf) cmn _ (encodeCommon_wrote buf cmn)
  exact ⟨p ++ payload, by rw [(hp.encodeBuf payload).bytes, List.append_assoc]⟩

/-- The flag `N2N_FLAGS_FROM_SUPERNODE` in a plain header. -/
def IsFlagged (plain : List UInt8) : Prop := be16At plain 2 &&& flagsFromSupernode ≠ 0

/-- The TTL in a plain header. -/
def ttlOf (plain : List UInt8) : UInt8 := plain.getD 1 0

theorem or_and_flag (x y z : UInt16) : (x ||| y) &&& z = (x &&& z) ||| (y &&& z) :=
  UInt16.toBitVec_inj.1 BitVec.and_or_distrib_right

/-- The type of a message and its flags do not overlap. -/
theorem Common.word_and_flag (cmn : Common) :
    cmn.word &&& flagsFromSupernode = cmn.flags &&& flagsFromSupernode := by
  have htype : flagsTypeMask &&& flagsFromSupernode = 0 := by decide
  have hbits : flagsBitsMask &&& flagsFromSupernode = flagsFromSupernode := by decide
  rw [Common.word, or_and_flag, UInt16.and_assoc, UInt16.and_assoc, htype, hbits]
  simp

/-- What is encoded with the flag carries it. -/
theorem HasHeader.isFlagged {plain : List UInt8} {cmn : Common} (h : HasHeader plain cmn)
    (hflag : cmn.flags &&& flagsFromSupernode ≠ 0) : IsFlagged plain := by
  obtain ⟨rest, rfl⟩ := h
  have hword : be16At (cmn.header ++ rest) 2 = cmn.word := be16_bytes16 cmn.word
  rw [IsFlagged, hword, cmn.word_and_flag]
  exact hflag

theorem HasHeader.ttlOf {plain : List UInt8} {cmn : Common} (h : HasHeader plain cmn) :
    ttlOf plain = cmn.ttl := by
  obtain ⟨rest, rfl⟩ := h
  rfl

end N2n
