import Mathlib.Data.UInt
import N2nTun.TransformRoundTrip

/-!
# The bounds of the transforms

`handle_PACKET` decodes the payload of a datagram of at most `N2N_PKT_BUF_SIZE` bytes into a buffer
of `N2N_PKT_BUF_SIZE` bytes; the decoders do not look at the size of it.  They are to read the
payload and nothing behind it.

The decoder of ChaCha20 gives its cipher the length of the whole payload for what is behind the
initial value.

## Main definitions

* `Transop`, `Transop.rev` — the four transforms and their decoders.
* `StaysInside` — what is read, what is written and what is returned.

## Main results

* `ctsDecode_staysInside` — cipher text stealing needs one block more in the assembly buffer, and
  there is room for it.
* `transopDecodeCc20_touched` — what ChaCha20 reads.
* `transopRev_staysInside_iff` — **which decoders stay inside, and on which payloads.**
-/

namespace N2n

open Bytes

/-! ### The four transforms -/

/-- The transforms with encryption, with cipher and key. -/
inductive Transop where
  | aes (cipher : CtsCipher)
  | tf (cipher : CtsCipher)
  | cc20 (cipher : StreamCipher)
  | speck (cipher : StreamCipher)

/-- The member `rev`, as the four modules set it. -/
def Transop.rev : Transop → TransopBuffers → ℕ → ℤ × TransopBuffers
  | .aes cipher => transopDecodeAes cipher
  | .tf cipher => transopDecodeTf cipher
  | .cc20 cipher => transopDecodeCc20 cipher
  | .speck cipher => transopDecodeSpeck cipher

/-- The calls for whole blocks make as many bytes as they are given. -/
structure CtsCipher.KeepsLength (cipher : CtsCipher) : Prop where
  ecbDecrypt : ∀ c, c.length = 16 → (cipher.ecbDecrypt c).length = 16
  cbcDecrypt : ∀ iv p, p.length % 16 = 0 → (cipher.cbcDecrypt iv p).length = p.length

/-- Each cipher makes as many bytes as it is given. -/
def Transop.KeepsLength : Transop → Prop
  | .aes cipher => cipher.KeepsLength
  | .tf cipher => cipher.KeepsLength
  | .cc20 cipher => ∀ iv p, (cipher iv p).length = p.length
  | .speck cipher => ∀ iv p, (cipher iv p).length = p.length

/-- The transform is the one with ChaCha20. -/
def Transop.IsCc20 : Transop → Prop
  | .cc20 _ => True
  | _ => False

/-! ### Staying inside -/

/-- A decoder that was given `inLen` bytes and a buffer of `N2N_PKT_BUF_SIZE` bytes has accessed the
bytes of its input, of that buffer and of its assembly buffer only, and what it returns is -1 or a
length that fits. -/
structure StaysInside (inLen : ℕ) (run : ℤ × TransopBuffers) : Prop where
  inbuf : run.2.inbuf.Within inLen
  outbuf : run.2.outbuf.Within pktBufSize
  assembly : run.2.assembly.Within pktBufSize
  least : -1 ≤ run.1
  most : run.1 ≤ pktBufSize

/-- The buffers before anything is read or written. -/
def TransopBuffers.of (inbuf outbuf assembly : ℕ → UInt8) : TransopBuffers :=
  ⟨.of inbuf, .of outbuf, .of assembly⟩

/-- Both ways of a condition. -/
theorem StaysInside.ite {inLen : ℕ} {c : Prop} [Decidable c] {run run' : ℤ × TransopBuffers}
    (h : StaysInside inLen run) (h' : StaysInside inLen run') :
    StaysInside inLen (if c then run else run') := by
  split
  · exact h
  · exact h'

/-- Buffers that are accessed inside their bounds. -/
structure TransopBuffers.Inside (inLen : ℕ) (b : TransopBuffers) : Prop where
  inbuf : b.inbuf.Within inLen
  outbuf : b.outbuf.Within pktBufSize
  assembly : b.assembly.Within pktBufSize

theorem TransopBuffers.inside_of (inLen : ℕ) (inbuf outbuf assembly : ℕ → UInt8) :
    (TransopBuffers.of inbuf outbuf assembly).Inside inLen :=
  ⟨Memory.within_of _ _, Memory.within_of _ _, Memory.within_of _ _⟩

/-- A length that is returned. -/
theorem TransopBuffers.Inside.returns {inLen n : ℕ} {b : TransopBuffers} (h : b.Inside inLen)
    (hn : n ≤ pktBufSize) : StaysInside inLen (n, b) where
  inbuf := h.inbuf
  outbuf := h.outbuf
  assembly := h.assembly
  least := by
    show (-1 : ℤ) ≤ n
    omega
  most := by
    show (n : ℤ) ≤ pktBufSize
    omega

/-- The decoder gives up. -/
theorem TransopBuffers.Inside.fails {inLen : ℕ} {b : TransopBuffers} (h : b.Inside inLen) :
    StaysInside inLen (-1, b) where
  inbuf := h.inbuf
  outbuf := h.outbuf
  assembly := h.assembly
  least := le_refl _
  most := by
    show (-1 : ℤ) ≤ pktBufSize
    omega

/-! ### Cipher text stealing -/

section

variable {cipher : CtsCipher} {b : TransopBuffers} {inLen : ℕ}

theorem ctsCopy_staysInside (hb : b.Inside inLen) (hmin : 16 ≤ inLen) (hin : inLen ≤ pktBufSize) :
    StaysInside inLen (ctsCopy b inLen) := by
  have hpkt : pktBufSize = 4096 := rfl
  unfold ctsCopy
  dsimp only [transopBlockSize, Memory.read_fst]
  refine TransopBuffers.Inside.returns ⟨hb.inbuf, ?_, ?_⟩ (by omega)
  · apply hb.outbuf.write
    rw [Memory.length_slice]
    omega
  · exact hb.assembly.read (by omega)

/-- With a block that is cut, the assembly buffer takes the input up to the next whole block. -/
theorem ctsSteal_staysInside (hcipher : cipher.KeepsLength) (hb : b.Inside inLen)
    (hmin : 16 ≤ inLen) (hin : inLen ≤ pktBufSize) (hrest : inLen % 16 ≠ 0) :
    StaysInside inLen (ctsSteal cipher b inLen (inLen % 16)) := by
  have hpkt : pktBufSize = 4096 := rfl
  obtain ⟨k, hk⟩ : ∃ k, inLen / 16 = k + 1 := ⟨inLen / 16 - 1, by omega⟩
  have hpen : (inLen / 16 - 1) * 16 = 16 * k := by omega
  have hsplit : inLen = 16 * k + 16 + inLen % 16 := by omega
  have hlt : inLen % 16 < 16 := Nat.mod_lt _ (by omega)
  unfold ctsSteal
  dsimp only [transopBlockSize, Memory.read_fst, Memory.read_slice]
  rw [hpen]
  generalize inLen % 16 = rest at hrest hsplit hlt
  -- what is read of the input
  have hinbuf : (((((b.inbuf.read 0 (16 * k)).2.read (16 * k) 16).2.read (inLen - rest)
      rest).2).read (16 * k) 16).2.Within inLen :=
    (((hb.inbuf.read (by omega)).read (by omega)).read (by omega)).read (by omega)
  -- the block that is put together
  have hbuf : (overwrite (cipher.ecbDecrypt (b.inbuf.slice (16 * k) 16)) 0
      (b.inbuf.slice (inLen - rest) rest)).length = 16 := by
    have hecb := hcipher.ecbDecrypt (b.inbuf.slice (16 * k) 16) (Memory.length_slice _ _ _)
    rw [length_overwrite (by rw [Memory.length_slice, hecb]; omega), hecb]
  -- what is put into the assembly buffer
  have hassembly : (((b.assembly.write 0 (b.inbuf.slice 0 (16 * k))).write (16 * k + 16)
      (b.inbuf.slice (16 * k) 16)).write (16 * k) (overwrite (cipher.ecbDecrypt
        (b.inbuf.slice (16 * k) 16)) 0 (b.inbuf.slice (inLen - rest) rest))).Within pktBufSize := by
    refine Memory.Within.write (Memory.Within.write (Memory.Within.write hb.assembly ?_) ?_) ?_
    · rw [Memory.length_slice]
      omega
    · rw [Memory.length_slice]
      omega
    · rw [hbuf]
      omega
  -- whatever it is, it is deciphered in place
  have hend : ∀ m : Memory, m.Within pktBufSize →
      (((m.read 0 (inLen + 16 - rest)).2.write 0 (cipher.cbcDecrypt nullIv
        (m.slice 0 (inLen + 16 - rest)))).read inLen (16 - rest)).2.Within pktBufSize := by
    intro m hm
    have hcbc : (cipher.cbcDecrypt nullIv (m.slice 0 (inLen + 16 - rest))).length =
        inLen + 16 - rest := by
      rw [hcipher.cbcDecrypt nullIv _ (by rw [Memory.length_slice]; omega), Memory.length_slice]
    refine Memory.Within.read (Memory.Within.write (hm.read (by omega)) ?_) (by omega)
    rw [hcbc]
    omega
  apply StaysInside.ite
  · apply TransopBuffers.Inside.fails
    exact ⟨hinbuf, hb.outbuf, hend _ hassembly⟩
  · refine ctsCopy_staysInside ?_ hmin hin
    exact ⟨hinbuf, hb.outbuf, hend _ hassembly⟩

/-- **The decoders of AES and Twofish stay inside.** -/
theorem ctsDecode_staysInside (hcipher : cipher.KeepsLength) (hb : b.Inside inLen)
    (hin : inLen ≤ pktBufSize) : StaysInside inLen (ctsDecode cipher b inLen) := by
  have hpkt : pktBufSize = 4096 := rfl
  unfold ctsDecode
  dsimp only
  split_ifs with hguard hrest
  · exact ctsSteal_staysInside hcipher hb hguard.2 hin hrest
  · obtain ⟨-, hmin⟩ := hguard
    have hwhole : inLen % 16 = 0 := not_not.mp hrest
    refine ctsCopy_staysInside ⟨hb.inbuf.read (by omega), hb.outbuf, hb.assembly.write ?_⟩ hmin hin
    rw [hcipher.cbcDecrypt nullIv _ (by rw [Memory.read_fst, Memory.length_slice, hwhole]),
      Memory.read_fst, Memory.length_slice]
    omega
  · exact hb.fails

end

/-! ### The stream ciphers -/

section

variable {cipher : StreamCipher} {b : TransopBuffers} {inLen : ℕ}

/-- **The decoder of Speck stays inside.** -/
theorem transopDecodeSpeck_staysInside (hcipher : ∀ iv p, (cipher iv p).length = p.length)
    (hb : b.Inside inLen) (hin : inLen ≤ pktBufSize) :
    StaysInside inLen (transopDecodeSpeck cipher b inLen) := by
  unfold transopDecodeSpeck
  split_ifs with hguard
  · obtain ⟨-, hmin⟩ := hguard
    dsimp only [transopBlockSize, Memory.read_fst, Memory.read_slice] at hmin ⊢
    refine TransopBuffers.Inside.returns ⟨(hb.inbuf.read (by omega)).read (by omega), ?_,
      hb.assembly⟩ (by omega)
    apply hb.outbuf.write
    rw [hcipher, Memory.length_slice]
    omega
  · exact hb.returns (Nat.zero_le _)

/-- What the decoder of ChaCha20 reads of its input. -/
theorem transopDecodeCc20_touched (hmin : 16 ≤ inLen) (hin : inLen ≤ pktBufSize) :
    (transopDecodeCc20 cipher b inLen).2.inbuf.touched =
      b.inbuf.touched ++ [(0, 16), (16, inLen)] := by
  have hpkt : pktBufSize = 4096 := rfl
  unfold transopDecodeCc20
  rw [if_pos ((transopGuard_iff (by omega)).mpr ⟨hmin, by omega⟩)]
  simp [transopBlockSize]

/-- The 16 bytes behind the input are read. -/
theorem transopDecodeCc20_overreads (hmin : 16 ≤ inLen) (hin : inLen ≤ pktBufSize) :
    ¬ StaysInside inLen (transopDecodeCc20 cipher b inLen) := by
  intro hinside
  have hlast := hinside.inbuf (16, inLen) (by
    rw [transopDecodeCc20_touched hmin hin]
    simp)
  dsimp only at hlast
  omega

/-- What is too short for the initial value is not touched. -/
theorem transopDecodeCc20_short (hb : b.Inside inLen) (hshort : inLen < 16) :
    StaysInside inLen (transopDecodeCc20 cipher b inLen) := by
  unfold transopDecodeCc20
  rw [if_neg (fun hguard => absurd hguard.2 (by simp only [transopBlockSize]; omega))]
  exact hb.returns (Nat.zero_le _)

end

/-- **Which decoders stay inside**, and on which payloads: those of AES, Twofish and Speck on all,
that of ChaCha20 on what it refuses only. -/
theorem transopRev_staysInside_iff {transop : Transop} (hcipher : transop.KeepsLength)
    (inbuf outbuf assembly : ℕ → UInt8) {inLen : ℕ} (hin : inLen ≤ pktBufSize) :
    StaysInside inLen (transop.rev (.of inbuf outbuf assembly) inLen) ↔
      ¬ transop.IsCc20 ∨ inLen < 16 := by
  have hb := TransopBuffers.inside_of inLen inbuf outbuf assembly
  cases transop with
  | aes cipher => exact iff_of_true (ctsDecode_staysInside hcipher hb hin) (.inl id)
  | tf cipher => exact iff_of_true (ctsDecode_staysInside hcipher hb hin) (.inl id)
  | speck cipher => exact iff_of_true (transopDecodeSpeck_staysInside hcipher hb hin) (.inl id)
  | cc20 cipher =>
    constructor
    · intro hinside
      by_contra hlong
      exact transopDecodeCc20_overreads (by omega) hin hinside
    · rintro (hnot | hshort)
      · exact absurd trivial hnot
      · exact transopDecodeCc20_short hb hshort

/-! ### A payload of 17 bytes -/

/-- The stream cipher of the header, with the null key. -/
def speckStream : StreamCipher := fun iv p => speckCtr p iv (speckInit nullIv)

theorem transopRev_staysInside_speck :
    StaysInside 17 ((Transop.speck speckStream).rev (.of 0 0 0) 17) :=
  (@transopRev_staysInside_iff (.speck speckStream) (fun _ _ => length_speckCtr _ _ _) 0 0 0 17
    (by decide)).mpr (.inl id)

/-- The decoder of ChaCha20 reads 33 bytes of 17. -/
theorem not_staysInside_cc20 :
    ¬ StaysInside 17 ((Transop.cc20 speckStream).rev (.of 0 0 0) 17) :=
  transopDecodeCc20_overreads (by decide) (by decide)

end N2n
