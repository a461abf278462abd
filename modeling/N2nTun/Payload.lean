import N2nTun.RegisterTiming
import N2nTun.TransformBounds

/-!
# The payload of a PACKET

A frame is compressed, if that makes it shorter, and then goes through the transform of the edge.
The stages report a failure in different ways: the transforms with AES and Twofish return `0`, the
others `-1`, and the compression returns `0`.  The receiving edge turns the stages around.

The libraries for the ciphers and for the compression are arguments.

## Main definitions

* `EdgeTransop`, `EdgeTransop.fwd`, `EdgeTransop.rev` — the transform of an edge, with its key.
* `Compressors` — what is called of the libraries for LZO and Zstandard.
* `Compressors.pack`, `Compressors.unpack` — the choice of the compression, and the way back.
* `EdgeTransop.Fits` — the room that a transform needs.
* `EdgeTransop.Lawful`, `Compressors.Lawful` — what is relied on of the libraries.

## Main results

* `EdgeTransop.rev_fwd` — **what fits comes back through the transform.**
* `EdgeTransop.fwd_of_not_fits` — what does not fit is not transformed.
* `Compressors.unpack_pack` — **what is packed is unpacked.**
-/

namespace N2n

open Bytes

/-! ### The transforms -/

/-- `transop_encode_null` and `transop_decode_null`. -/
def nullCopy (b : TransopBuffers) (outLen inLen : ℕ) : ℤ × TransopBuffers :=
  if inLen ≤ outLen then
    let (p, inbuf) := b.inbuf.read 0 inLen
    (inLen, ⟨inbuf, b.outbuf.write 0 p, b.assembly⟩)
  else (-1, b)

/-- `transop_encode_null`. -/
def transopEncodeNull (b : TransopBuffers) (outLen inLen : ℕ) : ℤ × TransopBuffers :=
  nullCopy b outLen inLen

/-- `transop_decode_null`. -/
def transopDecodeNull (b : TransopBuffers) (outLen inLen : ℕ) : ℤ × TransopBuffers :=
  nullCopy b outLen inLen

/-- `transop_encode_cc20` and `transop_encode_speck` with two random values: the preamble is the
nonce. -/
def streamEncode (cipher : StreamCipher) (b : TransopBuffers) (outLen inLen : ℕ)
    (rand₁ rand₂ : UInt64) : ℤ × TransopBuffers :=
  if inLen ≤ pktBufSize then
    if inLen + transopBlockSize ≤ outLen then
      let outbuf := (b.outbuf.write 0 (bytes64 rand₁)).write 8 (bytes64 rand₂)
      let (p, inbuf) := b.inbuf.read 0 inLen
      let (iv, outbuf) := outbuf.read 0 transopBlockSize
      ((inLen + transopBlockSize : ℕ),
        ⟨inbuf, outbuf.write transopBlockSize (cipher iv p), b.assembly⟩)
    else (-1, b)
  else (-1, b)

/-- `transop_encode_cc20`. -/
def transopEncodeCc20 (cc20 : StreamCipher) (b : TransopBuffers) (outLen inLen : ℕ)
    (rand₁ rand₂ : UInt64) : ℤ × TransopBuffers := streamEncode cc20 b outLen inLen rand₁ rand₂

/-- `transop_encode_speck`. -/
def transopEncodeSpeck (speck : StreamCipher) (b : TransopBuffers) (outLen inLen : ℕ)
    (rand₁ rand₂ : UInt64) : ℤ × TransopBuffers := streamEncode speck b outLen inLen rand₁ rand₂

/-- `transop`: what `edge_init` sets up for `conf.transop_id`. -/
inductive EdgeTransop where
  | null
  | keyed (transop : Transop)

/-- `N2N_TRANSFORM_ID_NULL` and so on, as they are sent. -/
def TransformId.code : TransformId → UInt8
  | .inval => 0
  | .null => 1
  | .twofish => 2
  | .aes => 3
  | .chacha20 => 4
  | .speck => 5

namespace EdgeTransop

/-- The member `transform_id`; `edge_init` fails if it is not `conf.transop_id`. -/
def transformId : EdgeTransop → TransformId
  | null => .null
  | keyed (.tf _) => .twofish
  | keyed (.aes _) => .aes
  | keyed (.cc20 _) => .chacha20
  | keyed (.speck _) => .speck

/-- The member `fwd`, with the random values for the preamble. -/
def fwd (transop : EdgeTransop) (b : TransopBuffers) (outLen inLen : ℕ) (rand₁ rand₂ : UInt64) :
    ℤ × TransopBuffers :=
  match transop with
  | null => transopEncodeNull b outLen inLen
  | keyed (.aes cipher) => transopEncodeAes cipher b outLen inLen rand₁ rand₂
  | keyed (.tf cipher) => transopEncodeTf cipher b outLen inLen rand₁ rand₂
  | keyed (.cc20 cipher) => transopEncodeCc20 cipher b outLen inLen rand₁ rand₂
  | keyed (.speck cipher) => transopEncodeSpeck cipher b outLen inLen rand₁ rand₂

/-- The member `rev`; `out_len` is looked at by the null transform only. -/
def rev (transop : EdgeTransop) (b : TransopBuffers) (outLen inLen : ℕ) : ℤ × TransopBuffers :=
  match transop with
  | null => transopDecodeNull b outLen inLen
  | keyed transop => transop.rev b inLen

/-- What the transform puts before the payload. -/
def preamble : EdgeTransop → ℕ
  | null => 0
  | keyed _ => transopBlockSize

/-- There is room for `n` bytes: behind the preamble, the block ciphers want a block more. -/
def Fits (transop : EdgeTransop) (outLen n : ℕ) : Prop :=
  match transop with
  | null => n ≤ outLen
  | keyed (.aes _) => n ≤ pktBufSize ∧ n + 32 ≤ outLen
  | keyed (.tf _) => n ≤ pktBufSize ∧ n + 32 ≤ outLen
  | keyed (.cc20 _) => n ≤ pktBufSize ∧ n + 16 ≤ outLen
  | keyed (.speck _) => n ≤ pktBufSize ∧ n + 16 ≤ outLen

instance (transop : EdgeTransop) (outLen n : ℕ) : Decidable (transop.Fits outLen n) :=
  match transop with
  | null => inferInstanceAs (Decidable (n ≤ outLen))
  | keyed (.aes _) => inferInstanceAs (Decidable (n ≤ pktBufSize ∧ n + 32 ≤ outLen))
  | keyed (.tf _) => inferInstanceAs (Decidable (n ≤ pktBufSize ∧ n + 32 ≤ outLen))
  | keyed (.cc20 _) => inferInstanceAs (Decidable (n ≤ pktBufSize ∧ n + 16 ≤ outLen))
  | keyed (.speck _) => inferInstanceAs (Decidable (n ≤ pktBufSize ∧ n + 16 ≤ outLen))

theorem Fits.room {transop : EdgeTransop} {outLen n : ℕ} (h : transop.Fits outLen n) :
    n + transop.preamble ≤ outLen := by
  have hblock : transopBlockSize = 16 := rfl
  match transop, h with
  | null, h => exact h
  | keyed (.aes _), h => exact le_trans (by simp [preamble, hblock]) h.2
  | keyed (.tf _), h => exact le_trans (by simp [preamble, hblock]) h.2
  | keyed (.cc20 _), h => exact h.2
  | keyed (.speck _), h => exact h.2

/-- What `fwd` returns if there is no room. -/
def failure : EdgeTransop → ℤ
  | null => -1
  | keyed (.aes _) => 0
  | keyed (.tf _) => 0
  | keyed (.cc20 _) => -1
  | keyed (.speck _) => -1

end EdgeTransop

/-- The cipher adds a key stream that depends on the initial value. -/
def StreamCipher.Implements (cipher : StreamCipher) (stream : List UInt8 → ℕ → UInt8) : Prop :=
  ∀ iv p, cipher iv p = p.mapIdx fun i b => b ^^^ stream iv i

/-- The ciphers are what their names say: a block cipher in CBC mode, or a stream cipher. -/
def EdgeTransop.Lawful : EdgeTransop → Prop
  | null => True
  | keyed (.aes cipher) => ∃ enc dec, cipher.Implements enc dec
  | keyed (.tf cipher) => ∃ enc dec, cipher.Implements enc dec
  | keyed (.cc20 cipher) => ∃ stream, cipher.Implements stream
  | keyed (.speck cipher) => ∃ stream, cipher.Implements stream

/-! ### What does not fit -/

/-- **What does not fit is not transformed**, and the buffer stays as it is. -/
theorem EdgeTransop.fwd_of_not_fits {transop : EdgeTransop} {b : TransopBuffers} {outLen n : ℕ}
    (h : ¬ transop.Fits outLen n) (rand₁ rand₂ : UInt64) :
    transop.fwd b outLen n rand₁ rand₂ = (transop.failure, b) := by
  have hblock : transopBlockSize = 16 := rfl
  have hcts : ∀ cipher, ¬ (n ≤ pktBufSize ∧ n + 32 ≤ outLen) →
      ctsEncode cipher b outLen n rand₁ rand₂ = (0, b) := by
    intro cipher hnot
    unfold ctsEncode
    split_ifs with hin hout
    · exact absurd ⟨hin, by omega⟩ hnot
    · rfl
    · rfl
  have hstream : ∀ cipher, ¬ (n ≤ pktBufSize ∧ n + 16 ≤ outLen) →
      streamEncode cipher b outLen n rand₁ rand₂ = (-1, b) := by
    intro cipher hnot
    unfold streamEncode
    split_ifs with hin hout
    · exact absurd ⟨hin, by omega⟩ hnot
    · rfl
    · rfl
  match transop, h with
  | .null, h => exact if_neg h
  | .keyed (.aes cipher), h => exact hcts cipher h
  | .keyed (.tf cipher), h => exact hcts cipher h
  | .keyed (.cc20 cipher), h => exact hstream cipher h
  | .keyed (.speck cipher), h => exact hstream cipher h

/-! ### There and back -/

section

variable {transop : EdgeTransop} {b b' : TransopBuffers} {outLen n : ℕ}

/-- What a transform does with `n` bytes that fit, and what its other half makes of the result. -/
structure PassesThrough (transop : EdgeTransop) (b : TransopBuffers) (n : ℕ)
    (sent : ℤ × TransopBuffers) : Prop where
  length : sent.1 = (n + transop.preamble : ℕ)
  back : ∀ b', b'.inbuf.slice 0 (n + transop.preamble) =
      sent.2.outbuf.slice 0 (n + transop.preamble) →
    (transop.rev b' pktBufSize (n + transop.preamble)).1 = n ∧
      (transop.rev b' pktBufSize (n + transop.preamble)).2.outbuf.slice 0 n = b.inbuf.slice 0 n

theorem nullCopy_passesThrough (h : n ≤ outLen) (hout : outLen ≤ pktBufSize) :
    PassesThrough .null b n (nullCopy b outLen n) := by
  have hcopy : ∀ b : TransopBuffers, ∀ len, n ≤ len →
      (nullCopy b len n).1 = n ∧ (nullCopy b len n).2.outbuf.slice 0 n = b.inbuf.slice 0 n := by
    intro b len hlen
    have hself := b.outbuf.slice_write_self 0 (b.inbuf.slice 0 n)
    rw [Memory.length_slice] at hself
    rw [nullCopy, if_pos hlen]
    exact ⟨rfl, hself⟩
  obtain ⟨hlen, hslice⟩ := hcopy b outLen h
  refine ⟨hlen, fun b' hin => ?_⟩
  obtain ⟨hlen', hslice'⟩ := hcopy b' pktBufSize (h.trans hout)
  exact ⟨hlen', hslice'.trans (hin.trans hslice)⟩

/-- A key stream that is added twice is gone, also if more bytes follow. -/
theorem StreamCipher.Implements.take_twice {cipher : StreamCipher}
    {stream : List UInt8 → ℕ → UInt8} (h : cipher.Implements stream) (iv p q : List UInt8) :
    (cipher iv (cipher iv p ++ q)).take p.length = p := by
  rw [h, h]
  apply List.ext_getElem
  · simp
  · intro i h₁ h₂
    simp [List.getElem_append_left, h₂, UInt8.xor_assoc]

/-- The preamble and the bytes behind it, as they are sent. -/
theorem slice_streamEncode (cipher : StreamCipher) (b : TransopBuffers) (hin : n ≤ pktBufSize)
    (hout : n + 16 ≤ outLen) (rand₁ rand₂ : UInt64)
    (hlen : ∀ iv p, (cipher iv p).length = p.length) :
    let iv := bytes64 rand₁ ++ bytes64 rand₂
    (streamEncode cipher b outLen n rand₁ rand₂).1 = (n + 16 : ℕ) ∧
      (streamEncode cipher b outLen n rand₁ rand₂).2.outbuf.slice 0 (n + 16) =
        iv ++ cipher iv (b.inbuf.slice 0 n) := by
  intro iv
  let m := (b.outbuf.write 0 (bytes64 rand₁)).write 8 (bytes64 rand₂)
  have hiv : m.slice 0 16 = iv := by
    have hsplit := m.slice_add 0 8 8
    have hfirst := (b.outbuf.write 0 (bytes64 rand₁)).slice_write_before (i := 8) (j := 0) (n := 8)
      (bytes64 rand₂) (by rfl)
    have hsecond := (b.outbuf.write 0 (bytes64 rand₁)).slice_write_self 8 (bytes64 rand₂)
    have hkept := b.outbuf.slice_write_self 0 (bytes64 rand₁)
    rw [hsplit, show m.slice 0 8 = _ from hfirst.trans hkept,
      show m.slice (0 + 8) 8 = _ from hsecond]
  have hrun : streamEncode cipher b outLen n rand₁ rand₂ = (((n + 16 : ℕ) : ℤ),
      ⟨(b.inbuf.read 0 n).2, (m.read 0 16).2.write 16 (cipher (m.slice 0 16) (b.inbuf.slice 0 n)),
        b.assembly⟩) := by
    unfold streamEncode
    rw [if_pos hin, if_pos (show n + transopBlockSize ≤ outLen from hout)]
    rfl
  rw [hrun, hiv]
  refine ⟨rfl, ?_⟩
  have hbody : (cipher iv (b.inbuf.slice 0 n)).length = n := by
    rw [hlen, Memory.length_slice]
  have hself := (m.read 0 16).2.slice_write_self 16 (cipher iv (b.inbuf.slice 0 n))
  have hbefore := (m.read 0 16).2.slice_write_before (i := 16) (j := 0) (n := 16)
    (cipher iv (b.inbuf.slice 0 n)) (by rfl)
  rw [Memory.read_slice, hiv] at hbefore
  rw [hbody] at hself
  rw [Nat.add_comm n 16, Memory.slice_add, hbefore, Nat.zero_add, hself]

/-- Both decoders give their cipher the bytes behind the preamble, and the one of ChaCha20 more. -/
theorem stream_passesThrough {cipher : StreamCipher} {stream : List UInt8 → ℕ → UInt8}
    (himpl : cipher.Implements stream) (htransop : transop = .keyed (.cc20 cipher) ∨
      transop = .keyed (.speck cipher)) (hin : n ≤ pktBufSize) (hout : n + 16 ≤ outLen)
    (rand₁ rand₂ : UInt64) :
    PassesThrough transop b n (streamEncode cipher b outLen n rand₁ rand₂) := by
  have hlen : ∀ iv p, (cipher iv p).length = p.length := fun iv p => by
    rw [himpl, List.length_mapIdx]
  have hpreamble : transop.preamble = 16 := by rcases htransop with rfl | rfl <;> rfl
  have hbuf : pktBufSize = 4096 := rfl
  obtain ⟨hret, hsent⟩ := slice_streamEncode cipher b hin hout rand₁ rand₂ hlen
  set iv := bytes64 rand₁ ++ bytes64 rand₂ with hiv
  rw [← hpreamble] at hret
  refine ⟨hret, fun b' hin' => ?_⟩
  rw [hpreamble, hsent] at hin'
  have hguard := (transopGuard_iff (show n + 16 < 2 ^ 64 by omega)).mpr ⟨by omega, by omega⟩
  have hread : b'.inbuf.slice 0 16 = iv ∧
      b'.inbuf.slice 16 n = cipher iv (b.inbuf.slice 0 n) := by
    rw [Nat.add_comm n 16, Memory.slice_add] at hin'
    exact List.append_inj hin' (by rw [Memory.length_slice]; rfl)
  -- whatever is read behind the payload
  have hwritten : ∀ k, n ≤ k → (b'.outbuf.write 0 (cipher iv (b'.inbuf.slice 16 k))).slice 0 n =
      b.inbuf.slice 0 n := by
    intro k hk
    obtain ⟨rest, rfl⟩ := Nat.exists_eq_add_of_le hk
    have hinside := b'.outbuf.slice_write_inside (i := 0) (a := 0) (n := n)
      (cipher iv (b'.inbuf.slice 16 (n + rest))) (by rw [hlen, Memory.length_slice]; omega)
    rw [Nat.add_zero, List.drop_zero, Memory.slice_add, hread.2] at hinside
    have htwice := himpl.take_twice iv (b.inbuf.slice 0 n) (b'.inbuf.slice (16 + n) rest)
    rw [Memory.length_slice] at htwice
    rw [Memory.slice_add, hread.2, hinside, htwice]
  have hsub : ((n + 16 - 16 : ℕ) : ℤ) = n := by rw [Nat.add_sub_cancel]
  rw [hpreamble]
  rcases htransop with rfl | rfl
  · have hrun : EdgeTransop.rev (.keyed (.cc20 cipher)) b' pktBufSize (n + 16) =
        (((n + 16 - 16 : ℕ) : ℤ), ⟨((b'.inbuf.read 0 16).2.read 16 (n + 16)).2,
          b'.outbuf.write 0 (cipher (b'.inbuf.slice 0 16) (b'.inbuf.slice 16 (n + 16))),
          b'.assembly⟩) := by
      show transopDecodeCc20 cipher b' (n + 16) = _
      rw [transopDecodeCc20, if_pos hguard]
      rfl
    rw [hrun, hread.1]
    exact ⟨hsub, hwritten (n + 16) (by omega)⟩
  · have hrun : EdgeTransop.rev (.keyed (.speck cipher)) b' pktBufSize (n + 16) =
        (((n + 16 - 16 : ℕ) : ℤ), ⟨((b'.inbuf.read 0 16).2.read 16 (n + 16 - 16)).2,
          b'.outbuf.write 0 (cipher (b'.inbuf.slice 0 16) (b'.inbuf.slice 16 (n + 16 - 16))),
          b'.assembly⟩) := by
      show transopDecodeSpeck cipher b' (n + 16) = _
      rw [transopDecodeSpeck, if_pos hguard]
      rfl
    rw [hrun, hread.1]
    exact ⟨hsub, hwritten (n + 16 - 16) (by omega)⟩

/-- **What fits comes back through the transform**, whatever the key, the preamble and the buffers
hold. -/
theorem EdgeTransop.rev_fwd (hlawful : transop.Lawful) (h : transop.Fits outLen n)
    (hout : outLen ≤ pktBufSize) (rand₁ rand₂ : UInt64) :
    PassesThrough transop b n (transop.fwd b outLen n rand₁ rand₂) := by
  match transop, hlawful, h with
  | .null, _, h => exact nullCopy_passesThrough h hout
  | .keyed (.aes cipher), ⟨enc, dec, himpl⟩, h =>
    obtain ⟨hret, hback⟩ := cts_roundTrips himpl b outLen n rand₁ rand₂ h.2 hout
    exact ⟨hret, hback⟩
  | .keyed (.tf cipher), ⟨enc, dec, himpl⟩, h =>
    obtain ⟨hret, hback⟩ := cts_roundTrips himpl b outLen n rand₁ rand₂ h.2 hout
    exact ⟨hret, hback⟩
  | .keyed (.cc20 cipher), ⟨stream, himpl⟩, h =>
    exact stream_passesThrough himpl (.inl rfl) h.1 h.2 rand₁ rand₂
  | .keyed (.speck cipher), ⟨stream, himpl⟩, h =>
    exact stream_passesThrough himpl (.inr rfl) h.1 h.2 rand₁ rand₂

end

/-! ### Compression -/

/-- `N2N_COMPRESSION_ID_NONE`. -/
def compressionIdNone : UInt8 := 1

/-- `N2N_COMPRESSION_ID_LZO`. -/
def compressionIdLzo : UInt8 := 2

/-- `N2N_COMPRESSION_ID_ZSTD`. -/
def compressionIdZstd : UInt8 := 3

/-- `lzo1x_1_compress` and `lzo1x_decompress`, `ZSTD_compress` and `ZSTD_decompress`, with `none`
for an error.  Those of Zstandard are given the size of the output.  The result of
`lzo1x_decompress` is not looked at; what it has written counts. -/
structure Compressors where
  lzoCompress : List UInt8 → Option (List UInt8)
  lzoDecompress : List UInt8 → List UInt8
  zstdCompress : ℕ → List UInt8 → Option (List UInt8)
  zstdDecompress : ℕ → List UInt8 → Option (List UInt8)

/-- The result of a compression or decompression: its length, or `0` for an error. -/
def TransopBuffers.putResult (b : TransopBuffers) (inLen : ℕ) :
    Option (List UInt8) → ℤ × TransopBuffers
  | some q => (q.length, ⟨(b.inbuf.read 0 inLen).2, b.outbuf.write 0 q, b.assembly⟩)
  | none => (0, ⟨(b.inbuf.read 0 inLen).2, b.outbuf, b.assembly⟩)

/-- `transop_encode_lzo` and `transop_encode_zstd`: `room` bytes are wanted for the output. -/
def compressInto (compress : List UInt8 → Option (List UInt8)) (room : ℕ) (b : TransopBuffers)
    (outLen inLen : ℕ) : ℤ × TransopBuffers :=
  if pktBufSize < inLen then (0, b)
  else if outLen < room then (0, b)
  else b.putResult inLen (compress (b.inbuf.slice 0 inLen))

/-- `transop_decode_lzo` and `transop_decode_zstd`. -/
def decompressInto (decompress : List UInt8 → Option (List UInt8)) (b : TransopBuffers)
    (inLen : ℕ) : ℤ × TransopBuffers :=
  if pktBufSize < inLen then (0, b)
  else
    let r := b.putResult inLen (decompress (b.inbuf.slice 0 inLen))
    if pktBufSize < r.1 then (0, r.2) else r

/-- A value of type `int` where a `size_t` is expected. -/
def toSize (r : ℤ) : ℕ := (r % 2 ^ 64).toNat

namespace Compressors

variable (c : Compressors)

/-- `transop_encode_lzo`. -/
def transopEncodeLzo (b : TransopBuffers) (outLen inLen : ℕ) : ℤ × TransopBuffers :=
  compressInto c.lzoCompress (inLen + inLen / 16 + 64 + 3) b outLen inLen

/-- `transop_decode_lzo`. -/
def transopDecodeLzo (b : TransopBuffers) (inLen : ℕ) : ℤ × TransopBuffers :=
  decompressInto (some ∘ c.lzoDecompress) b inLen

/-- `transop_encode_zstd`. -/
def transopEncodeZstd (b : TransopBuffers) (outLen inLen : ℕ) : ℤ × TransopBuffers :=
  compressInto (c.zstdCompress outLen) (inLen + 128) b outLen inLen

/-- `transop_decode_zstd`. -/
def transopDecodeZstd (b : TransopBuffers) (outLen inLen : ℕ) : ℤ × TransopBuffers :=
  decompressInto (c.zstdDecompress outLen) b inLen

/-- The `switch` of `edge_send_packet2net`: the compression that is tried. -/
def tried (compression : UInt8) (b : TransopBuffers) (len : ℕ) : Option (ℤ × TransopBuffers) :=
  if compression = compressionIdLzo then some (c.transopEncodeLzo b pktBufSize len)
  else if compression = compressionIdZstd then some (c.transopEncodeZstd b pktBufSize len)
  else none

/-- `pkt.compression`, `enc_src` and `enc_len`: only what gets shorter is compressed.  The input is
the frame, the output `compression_buf`. -/
def pack (compression : UInt8) (b : TransopBuffers) (len : ℕ) : UInt8 × Memory × ℕ :=
  match c.tried compression b len with
  | some (compressionLen, b') =>
    if 0 < compressionLen ∧ compressionLen < len then
      (compression, b'.outbuf, compressionLen.toNat)
    else (compressionIdNone, b'.inbuf, len)
  | none => (compressionIdNone, b.inbuf, len)

/-- The `switch` of `handle_PACKET`: `eth_payload` and `eth_size`, if the compression is known.  The
input is `decode_buf`, the output `deflate_buf`. -/
def unpack (compression : UInt8) (b : TransopBuffers) (ethSize : ℕ) : Option (Memory × ℕ) :=
  if compression = compressionIdNone then some (b.inbuf, ethSize)
  else if compression = compressionIdLzo then
    let (deflateLen, b) := c.transopDecodeLzo b ethSize
    some (b.outbuf, toSize deflateLen)
  else if compression = compressionIdZstd then
    let (deflateLen, b) := c.transopDecodeZstd b pktBufSize ethSize
    some (b.outbuf, toSize deflateLen)
  else none

/-- What is compressed is decompressed, if there is room for it. -/
structure Lawful : Prop where
  lzo : ∀ p q, c.lzoCompress p = some q → c.lzoDecompress q = p
  zstd : ∀ capacity capacity' p q, c.zstdCompress capacity p = some q → p.length ≤ capacity' →
    c.zstdDecompress capacity' q = some p

end Compressors

theorem toSize_natCast {n : ℕ} (h : n ≤ pktBufSize) : toSize n = n := by
  have hbuf : pktBufSize = 4096 := rfl
  unfold toSize
  omega

section

variable {c : Compressors} {b : TransopBuffers} {len : ℕ}

/-- What is packed: the frame itself, or something shorter of which the frame is the original. -/
inductive Compressors.Packs (c : Compressors) (b : TransopBuffers) (len : ℕ) :
    UInt8 × Memory × ℕ → Prop
  | asIs (src : Memory) (hsrc : src.slice 0 len = b.inbuf.slice 0 len) :
    Packs c b len (compressionIdNone, src, len)
  | lzo (q : List UInt8) (src : Memory) (hlen : q.length < len) (hsrc : src.slice 0 q.length = q)
      (hback : c.lzoDecompress q = b.inbuf.slice 0 len) :
    Packs c b len (compressionIdLzo, src, q.length)
  | zstd (q : List UInt8) (src : Memory) (hlen : q.length < len) (hsrc : src.slice 0 q.length = q)
      (hback : c.zstdDecompress pktBufSize q = some (b.inbuf.slice 0 len)) :
    Packs c b len (compressionIdZstd, src, q.length)

/-- A compression leaves the input as it is, and a result that counts comes from the library. -/
theorem compressInto_result (compress : List UInt8 → Option (List UInt8)) (room : ℕ)
    (b : TransopBuffers) (outLen inLen : ℕ) :
    (compressInto compress room b outLen inLen).2.inbuf.slice = b.inbuf.slice ∧
      (0 < (compressInto compress room b outLen inLen).1 →
        ∃ q, compress (b.inbuf.slice 0 inLen) = some q ∧
          (compressInto compress room b outLen inLen).1 = q.length ∧
          (compressInto compress room b outLen inLen).2.outbuf.slice 0 q.length = q) := by
  unfold compressInto
  split_ifs
  · exact ⟨rfl, fun h => absurd h (lt_irrefl 0)⟩
  · exact ⟨rfl, fun h => absurd h (lt_irrefl 0)⟩
  · cases compress (b.inbuf.slice 0 inLen) with
    | none => exact ⟨rfl, fun h => absurd h (lt_irrefl 0)⟩
    | some q => exact ⟨rfl, fun _ => ⟨q, rfl, rfl, b.outbuf.slice_write_self 0 q⟩⟩

/-- A decompression of something that fits, to something that fits. -/
theorem decompressInto_eq (decompress : List UInt8 → Option (List UInt8)) {inLen : ℕ}
    (hin : inLen ≤ pktBufSize) {p : List UInt8} (hp : p.length ≤ pktBufSize)
    (h : decompress (b.inbuf.slice 0 inLen) = some p) :
    decompressInto decompress b inLen =
      ((p.length : ℤ), ⟨(b.inbuf.read 0 inLen).2, b.outbuf.write 0 p, b.assembly⟩) := by
  unfold decompressInto
  rw [if_neg (by omega), h]
  exact if_neg (show ¬ (pktBufSize : ℤ) < p.length by omega)

theorem Compressors.unpack_lzo (c : Compressors) (b : TransopBuffers) (n : ℕ) :
    c.unpack compressionIdLzo b n =
      some ((c.transopDecodeLzo b n).2.outbuf, toSize (c.transopDecodeLzo b n).1) := by
  unfold unpack
  rw [if_neg (by decide), if_pos rfl]

theorem Compressors.unpack_zstd (c : Compressors) (b : TransopBuffers) (n : ℕ) :
    c.unpack compressionIdZstd b n =
      some ((c.transopDecodeZstd b pktBufSize n).2.outbuf,
        toSize (c.transopDecodeZstd b pktBufSize n).1) := by
  unfold unpack
  rw [if_neg (by decide), if_neg (by decide), if_pos rfl]

/-- **What is packed stands for the frame**, whichever compression is configured. -/
theorem Compressors.packs_pack (hlawful : c.Lawful) (hlen : len ≤ pktBufSize)
    (compression : UInt8) : c.Packs b len (c.pack compression b len) := by
  have hslice : (b.inbuf.slice 0 len).length = len := b.inbuf.length_slice 0 len
  unfold pack tried
  by_cases hlzo : compression = compressionIdLzo
  · obtain ⟨hin, hresult⟩ := compressInto_result c.lzoCompress (len + len / 16 + 64 + 3) b
      pktBufSize len
    rw [if_pos hlzo]
    dsimp only [transopEncodeLzo]
    split_ifs with hless
    · obtain ⟨q, hq, hret, hout⟩ := hresult hless.1
      rw [hret] at hless
      rw [hret, Int.toNat_natCast, hlzo]
      exact .lzo q _ (by omega) hout (hlawful.lzo _ _ hq)
    · exact .asIs _ (by rw [hin])
  rw [if_neg hlzo]
  by_cases hzstd : compression = compressionIdZstd
  · obtain ⟨hin, hresult⟩ := compressInto_result (c.zstdCompress pktBufSize) (len + 128) b
      pktBufSize len
    rw [if_pos hzstd]
    dsimp only [transopEncodeZstd]
    split_ifs with hless
    · obtain ⟨q, hq, hret, hout⟩ := hresult hless.1
      rw [hret] at hless
      rw [hret, Int.toNat_natCast, hzstd]
      exact .zstd q _ (by omega) hout (hlawful.zstd _ _ _ _ hq (by omega))
    · exact .asIs _ (by rw [hin])
  · rw [if_neg hzstd]
    exact .asIs _ rfl

/-- **What is packed is unpacked**, by an edge with the same libraries. -/
theorem Compressors.unpack_pack {packed : UInt8 × Memory × ℕ} (h : c.Packs b len packed)
    (hlen : len ≤ pktBufSize) {b' : TransopBuffers}
    (hin : b'.inbuf.slice 0 packed.2.2 = packed.2.1.slice 0 packed.2.2) :
    packed.2.2 ≤ len ∧ ∃ eth, c.unpack packed.1 b' packed.2.2 = some (eth, len) ∧
      eth.slice 0 len = b.inbuf.slice 0 len := by
  have hslice : (b.inbuf.slice 0 len).length = len := b.inbuf.length_slice 0 len
  have hself := b'.outbuf.slice_write_self 0 (b.inbuf.slice 0 len)
  rw [hslice] at hself
  cases h with
  | asIs src hsrc => exact ⟨le_rfl, b'.inbuf, rfl, hin.trans hsrc⟩
  | lzo q src hless hsrc hback =>
    have hrun := decompressInto_eq (some ∘ c.lzoDecompress) (b := b')
      (hless.le.trans hlen) (hslice.le.trans hlen) (by
        rw [Function.comp_apply, show b'.inbuf.slice 0 q.length = q from hin.trans hsrc, hback])
    refine ⟨hless.le, _, ?_, hself⟩
    rw [c.unpack_lzo, transopDecodeLzo, hrun, hslice, toSize_natCast hlen]
  | zstd q src hless hsrc hback =>
    have hrun := decompressInto_eq (c.zstdDecompress pktBufSize) (b := b')
      (hless.le.trans hlen) (hslice.le.trans hlen) (by
        rw [show b'.inbuf.slice 0 q.length = q from hin.trans hsrc, hback])
    refine ⟨hless.le, _, ?_, hself⟩
    rw [c.unpack_zstd, transopDecodeZstd, hrun, hslice, toSize_natCast hlen]

end

end N2n
