import N2nTun.Crypto
import N2nTun.Define

/-!
# Header encryption

The routines of `header_encryption.c`.  They work on the packet in place; a
decryption that fails may leave it, and the stamp, changed.

## Main definitions

* `packetHeaderDecrypt`, `packetHeaderEncrypt` — the header of a packet.
* `HeaderKeys`, `packetHeaderSetupKey`, `packetHeaderChangeDynamicKey` — the contexts
  of a community.
-/

namespace N2n

open Bytes

/-- The magic word "n2__", whose low half carries the length of the header. -/
def headerMagic : UInt32 := 0x6e320000

/-- Counter mode in place on the `len` bytes at offset `i`; what lies behind the end of
the buffer is not part of it. -/
def speckCtrAt (packet : List UInt8) (i len : ℕ) (n : List UInt8) (ctx : SpeckContext) :
    List UInt8 :=
  packet.take i ++ speckCtr ((packet.drop i).take len) n ctx ++ (packet.drop i).drop len

/-- What `packet_header_decrypt` leaves behind. -/
structure HeaderDecrypt where
  ok : Bool
  packet : List UInt8
  stamp : UInt64
  deriving DecidableEq

theorem HeaderDecrypt.ext_ok {d : HeaderDecrypt} (h : d.ok = true) :
    d = ⟨true, d.packet, d.stamp⟩ := by
  rw [← h]

/-- `packet_header_decrypt`.  Lengths are those of the source's types, so that a header
of less than 16 bytes gives a length of almost `2 ^ 32`. -/
def packetHeaderDecrypt (packet : List UInt8) (packetLen : UInt16) (communityName : List UInt8)
    (ctx ctxIv : SpeckContext) (stamp : UInt64) : HeaderDecrypt :=
  let testMagic := be32At (speckCtr (slice packet 16 4) packet ctx) 0
  let headerLen := testMagic - headerMagic
  if headerLen.toNat ≤ packetLen.toNat then
    let packet := speckCtrAt packet 16 (headerLen - 16).toNat packet ctx
    let packet := speck128Decrypt packet ctxIv
    let stamp := be64At packet 4
    let checksumHigh := be32At packet 0
    let packet := overwrite packet 0 (slice packet 20 4)
    let packet := overwrite packet 4 communityName
    let checksum := pearsonHash64 (slice packet 0 packetLen.toNat)
    if checksum >>> 32 ≠ checksumHigh.toUInt64 then ⟨false, packet, stamp⟩
    else ⟨true, packet, stamp ^^^ (checksum <<< 32)⟩
  else ⟨false, packet, stamp⟩

/-- `packet_header_encrypt`, with the value of `n2n_rand`. -/
def packetHeaderEncrypt (packet : List UInt8) (headerLen packetLen : UInt16)
    (ctx ctxIv : SpeckContext) (stamp : UInt64) (rand : UInt32) : List UInt8 :=
  let magic := headerMagic + headerLen.toUInt32
  if packetLen < 24 then packet
  else
    let checksum := pearsonHash64 (slice packet 0 packetLen.toNat)
    let packet := overwrite packet 20 (slice packet 0 4)
    let packet := overwrite packet 0 (bytes64 checksum)
    let packet := overwrite packet 4
      (xorBytes (slice packet 4 4) (bytes32 (stamp >>> 32).toUInt32))
    let packet := overwrite packet 8 (bytes32 stamp.toUInt32)
    let packet := overwrite packet 12 (leBytes32 rand)
    let packet := speck128Encrypt packet ctxIv
    let packet := overwrite packet 16 (bytes32 magic)
    speckCtrAt packet 16 (headerLen.toNat - 16) packet ctx

/-- The four contexts of a community: `header_encryption_ctx_static`,
`header_encryption_ctx_dynamic`, `header_iv_ctx_static` and `header_iv_ctx_dynamic`;
`none` is `NULL`. -/
structure HeaderKeys where
  ctxStatic : Option SpeckContext
  ctxDynamic : Option SpeckContext
  ivStatic : Option SpeckContext
  ivDynamic : Option SpeckContext
  deriving DecidableEq

/-- No context has been set up. -/
def HeaderKeys.null : HeaderKeys := ⟨none, none, none, none⟩

/-- None of the contexts is `NULL`. -/
def HeaderKeys.Ready (k : HeaderKeys) : Prop :=
  k.ctxStatic.isSome ∧ k.ctxDynamic.isSome ∧ k.ivStatic.isSome ∧ k.ivDynamic.isSome

/-- `packet_header_setup_key`; `speck_init` allocates, whatever was there. -/
def packetHeaderSetupKey (communityName : List UInt8) : HeaderKeys :=
  let key := pearsonHash128 (slice communityName 0 communitySize)
  let keyIv := pearsonHash128 key
  ⟨some (speckInit key), some (speckInit key), some (speckInit keyIv), some (speckInit keyIv)⟩

/-- `packet_header_change_dynamic_key`. -/
def packetHeaderChangeDynamicKey (k : HeaderKeys) (keyDynamic : List UInt8) : HeaderKeys :=
  let key := pearsonHash128 (slice keyDynamic 0 authChallengeSize)
  let keyIv := pearsonHash128 key
  { k with ctxDynamic := some (speckInit key), ivDynamic := some (speckInit keyIv) }

theorem packetHeaderSetupKey_ready (name : List UInt8) : (packetHeaderSetupKey name).Ready :=
  ⟨rfl, rfl, rfl, rfl⟩

theorem HeaderKeys.Ready.changeDynamicKey {k : HeaderKeys} (h : k.Ready) (keyDynamic : List UInt8) :
    (packetHeaderChangeDynamicKey k keyDynamic).Ready :=
  ⟨h.1, rfl, h.2.2.1, rfl⟩

end N2n
