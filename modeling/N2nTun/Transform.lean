import N2nTun.Define
import N2nTun.Crypto
import N2nTun.Lib.Access
import N2nTun.Lib.Cbc
import Mathlib.Data.Vector.Basic

/-!
# The transforms

A transform encrypts the payload of a PACKET behind a random preamble of 16 bytes.  With AES and
Twofish preamble and payload are encrypted together, in CBC mode with cipher text stealing; with
ChaCha20 and Speck the preamble is the nonce of a stream cipher and stays as it is.

The ciphers are arguments.  The memories record what is read and written, and a call of a cipher
reads and writes as many bytes as the length that it is given.

## Main definitions

* `CtsCipher`, `StreamCipher` — what is called of the cipher libraries, with a key.
* `TransopBuffers` — the two buffers of a transform and its assembly buffer.
* `transopEncodeAes`, `transopDecodeAes`, `transopEncodeTf`, `transopDecodeTf` — with cipher text
  stealing.
* `transopDecodeCc20`, `transopDecodeSpeck` — the decoders of the stream ciphers.
* `CtsCipher.Implements` — the library runs a block cipher in CBC mode.
-/

namespace N2n

open Bytes

/-! ### The ciphers -/

/-- `AES_BLOCK_SIZE`, `TF_BLOCK_SIZE`, and the size of the preamble of every transform. -/
def transopBlockSize : ℕ := 16

/-- `aes_null_iv`, `tf_null_iv`. -/
def nullIv : List UInt8 := List.replicate 16 0

/-- `aes_ecb_decrypt`, `aes_cbc_encrypt` and `aes_cbc_decrypt`, or those of Twofish, with a key.
The calls for the CBC mode are given the initial block and the bytes. -/
structure CtsCipher where
  ecbDecrypt : List UInt8 → List UInt8
  cbcEncrypt : List UInt8 → List UInt8 → List UInt8
  cbcDecrypt : List UInt8 → List UInt8 → List UInt8

/-- `cc20_crypt` or `speck_ctr` with a key: of the initial value and the bytes. -/
def StreamCipher : Type := List UInt8 → List UInt8 → List UInt8

/-! ### The functions -/

/-- The parameter `inbuf`, the parameter `outbuf` and the local array `assembly`. -/
structure TransopBuffers where
  inbuf : Memory
  outbuf : Memory
  assembly : Memory

/-- The difference of two values of type `size_t`. -/
def sizeSub (a b : ℕ) : ℕ := (UInt64.ofNat a - UInt64.ofNat b).toNat

/-- The last two of `paddedLen` bytes in blocks are exchanged. -/
def ctsExchange (outbuf : Memory) (paddedLen : ℕ) : Memory :=
  let (buf, outbuf) := outbuf.read (paddedLen - transopBlockSize) transopBlockSize
  let (c, outbuf) := outbuf.read (paddedLen - 2 * transopBlockSize) transopBlockSize
  let outbuf := outbuf.write (paddedLen - transopBlockSize) c
  outbuf.write (paddedLen - 2 * transopBlockSize) buf

/-- `transop_encode_aes` and `transop_encode_tf` with two random values, and what they return. -/
def ctsEncode (cipher : CtsCipher) (b : TransopBuffers) (outLen inLen : ℕ)
    (rand₁ rand₂ : UInt64) : ℤ × TransopBuffers :=
  if inLen ≤ pktBufSize then
    if inLen + transopBlockSize + transopBlockSize ≤ outLen then
      let assembly := (b.assembly.write 0 (bytes64 rand₁)).write 8 (bytes64 rand₂)
      let (plain, inbuf) := b.inbuf.read 0 inLen
      let assembly := assembly.write transopBlockSize plain
      let idx := transopBlockSize + inLen
      -- round up to whole blocks
      let paddedLen := ((idx - 1) / transopBlockSize + 1) * transopBlockSize
      let padding := paddedLen - idx
      let assembly := assembly.write idx nullIv
      let (p, assembly) := assembly.read 0 paddedLen
      let outbuf := b.outbuf.write 0 (cipher.cbcEncrypt nullIv p)
      let outbuf := if padding ≠ 0 then ctsExchange outbuf paddedLen else outbuf
      (idx, ⟨inbuf, outbuf, assembly⟩)
    else (0, b)
  else (0, b)

/-- The end of `transop_decode_aes` and `transop_decode_tf`: what is behind the preamble is copied
to `outbuf`. -/
def ctsCopy (b : TransopBuffers) (inLen : ℕ) : ℤ × TransopBuffers :=
  let len := inLen - transopBlockSize
  let (p, assembly) := b.assembly.read transopBlockSize len
  (len, ⟨b.inbuf, b.outbuf.write 0 p, assembly⟩)

/-- Both with cipher text stealing: `rest` bytes are behind the whole blocks. -/
def ctsSteal (cipher : CtsCipher) (b : TransopBuffers) (inLen rest : ℕ) : ℤ × TransopBuffers :=
  let penultimateBlock := (inLen / transopBlockSize - 1) * transopBlockSize
  -- everything normal up to the penultimate block
  let (p, inbuf) := b.inbuf.read 0 penultimateBlock
  let assembly := b.assembly.write 0 p
  -- the new penultimate block
  let (c, inbuf) := inbuf.read penultimateBlock transopBlockSize
  let (q, inbuf) := inbuf.read (inLen - rest) rest
  let buf := overwrite (cipher.ecbDecrypt c) 0 q
  -- the former penultimate block becomes the ultimate one
  let (c, inbuf) := inbuf.read penultimateBlock transopBlockSize
  let assembly := assembly.write (penultimateBlock + transopBlockSize) c
  let assembly := assembly.write penultimateBlock buf
  let (p, assembly) := assembly.read 0 (inLen + transopBlockSize - rest)
  let assembly := assembly.write 0 (cipher.cbcDecrypt nullIv p)
  -- the padding has to be zero
  let (padding, assembly) := assembly.read inLen (transopBlockSize - rest)
  if padding ≠ nullIv.take (transopBlockSize - rest) then (-1, ⟨inbuf, b.outbuf, assembly⟩)
  else ctsCopy ⟨inbuf, b.outbuf, assembly⟩ inLen

/-- `transop_decode_aes` and `transop_decode_tf`, with what they return; `out_len` is not looked
at. -/
def ctsDecode (cipher : CtsCipher) (b : TransopBuffers) (inLen : ℕ) : ℤ × TransopBuffers :=
  if sizeSub inLen transopBlockSize ≤ pktBufSize ∧ transopBlockSize ≤ inLen then
    let rest := inLen % transopBlockSize
    if rest ≠ 0 then ctsSteal cipher b inLen rest
    else
      let (p, inbuf) := b.inbuf.read 0 inLen
      ctsCopy ⟨inbuf, b.outbuf, b.assembly.write 0 (cipher.cbcDecrypt nullIv p)⟩ inLen
  else (-1, b)

/-- `transop_encode_aes`. -/
def transopEncodeAes (aes : CtsCipher) (b : TransopBuffers) (outLen inLen : ℕ)
    (rand₁ rand₂ : UInt64) : ℤ × TransopBuffers := ctsEncode aes b outLen inLen rand₁ rand₂

/-- `transop_decode_aes`. -/
def transopDecodeAes (aes : CtsCipher) (b : TransopBuffers) (inLen : ℕ) : ℤ × TransopBuffers :=
  ctsDecode aes b inLen

/-- `transop_encode_tf`. -/
def transopEncodeTf (tf : CtsCipher) (b : TransopBuffers) (outLen inLen : ℕ)
    (rand₁ rand₂ : UInt64) : ℤ × TransopBuffers := ctsEncode tf b outLen inLen rand₁ rand₂

/-- `transop_decode_tf`. -/
def transopDecodeTf (tf : CtsCipher) (b : TransopBuffers) (inLen : ℕ) : ℤ × TransopBuffers :=
  ctsDecode tf b inLen

/-- `transop_decode_cc20`: the cipher is given the length of the whole input. -/
def transopDecodeCc20 (cc20 : StreamCipher) (b : TransopBuffers) (inLen : ℕ) :
    ℤ × TransopBuffers :=
  if sizeSub inLen transopBlockSize ≤ pktBufSize ∧ transopBlockSize ≤ inLen then
    let len := inLen - transopBlockSize
    let (iv, inbuf) := b.inbuf.read 0 transopBlockSize
    let (c, inbuf) := inbuf.read transopBlockSize inLen
    (len, ⟨inbuf, b.outbuf.write 0 (cc20 iv c), b.assembly⟩)
  else (0, b)

/-- `transop_decode_speck`. -/
def transopDecodeSpeck (speck : StreamCipher) (b : TransopBuffers) (inLen : ℕ) :
    ℤ × TransopBuffers :=
  if sizeSub inLen transopBlockSize ≤ pktBufSize ∧ transopBlockSize ≤ inLen then
    let len := inLen - transopBlockSize
    let (iv, inbuf) := b.inbuf.read 0 transopBlockSize
    let (c, inbuf) := inbuf.read transopBlockSize len
    (len, ⟨inbuf, b.outbuf.write 0 (speck iv c), b.assembly⟩)
  else (0, b)

theorem sizeSub_eq {a b : ℕ} (hb : b ≤ a) (ha : a < 2 ^ 64) : sizeSub a b = a - b := by
  have hb' : b < 2 ^ 64 := by omega
  have hle : UInt64.ofNat b ≤ UInt64.ofNat a := by
    rw [UInt64.le_iff_toNat_le, UInt64.toNat_ofNat_of_lt' hb', UInt64.toNat_ofNat_of_lt' ha]
    exact hb
  rw [sizeSub, UInt64.toNat_sub_of_le _ _ hle, UInt64.toNat_ofNat_of_lt' hb',
    UInt64.toNat_ofNat_of_lt' ha]

/-- What the decoders check, for inputs whose length is a `size_t`. -/
theorem transopGuard_iff {inLen : ℕ} (h : inLen < 2 ^ 64) :
    (sizeSub inLen transopBlockSize ≤ pktBufSize ∧ transopBlockSize ≤ inLen) ↔
      16 ≤ inLen ∧ inLen ≤ pktBufSize + 16 := by
  have hblock : transopBlockSize = 16 := rfl
  constructor
  · rintro ⟨hle, hmin⟩
    rw [sizeSub_eq hmin h] at hle
    omega
  · rintro ⟨hmin, hmax⟩
    rw [sizeSub_eq (by omega) h]
    omega

/-! ### Block ciphers -/

/-- A block of 16 bytes. -/
abbrev Block : Type := List.Vector UInt8 16

/-- Two blocks are added. -/
def blockXor (a b : Block) : Block := List.Vector.map₂ (· ^^^ ·) a b

/-- The library runs the block cipher in CBC mode. -/
structure CtsCipher.Implements (cipher : CtsCipher) (enc dec : Block → Block) : Prop where
  dec_enc : ∀ b, dec (enc b) = b
  ecbDecrypt : ∀ b, cipher.ecbDecrypt b.toList = (dec b).toList
  cbcEncrypt : ∀ iv bs, cipher.cbcEncrypt iv.toList (Cbc.flat bs) =
    Cbc.flat (Cbc.encrypt blockXor enc iv bs)
  cbcDecrypt : ∀ iv bs, cipher.cbcDecrypt iv.toList (Cbc.flat bs) =
    Cbc.flat (Cbc.decrypt blockXor dec iv bs)

theorem toList_blockXor (a b : Block) :
    (blockXor a b).toList = List.zipWith (· ^^^ ·) a.toList b.toList := rfl

theorem blockXor_blockXor (a b : Block) : blockXor (blockXor a b) b = a := by
  apply List.Vector.ext
  intro i
  simp only [blockXor, List.Vector.get_map₂]
  rw [UInt8.xor_assoc, UInt8.xor_self, UInt8.xor_zero]

/-- Where the one block is zero, the sum is the other. -/
theorem blockXor_drop {q c : Block} {n : ℕ} (hq : q.toList.drop n = List.replicate (16 - n) 0) :
    (blockXor q c).toList.drop n = c.toList.drop n := by
  rw [toList_blockXor, List.drop_zipWith, hq]
  apply List.ext_getElem
  · simp
  · intro i h₁ h₂
    simp

end N2n
