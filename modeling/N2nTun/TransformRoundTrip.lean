import N2nTun.Transform

/-!
# Cipher text stealing, there and back

`transop_encode_aes` pads what it encrypts to whole blocks, exchanges the last two blocks and leaves
the bytes of the padding out; `transop_decode_aes` finds the padding again by decrypting the block
that was the last one.

## Main results

* `slice_ctsEncode` — what the encoder sends, in blocks.
* `ctsDecode_whole`, `ctsDecode_stolen` — the decoder on whole blocks, and on blocks of which the
  last was cut.
* `transopRoundTrip` — **the decoders restore what the encoders were given**, for every length.
-/

namespace N2n

open Bytes

variable {cipher : CtsCipher} {enc dec : Block → Block}

/-- The null block. -/
def nullBlock : Block := ⟨nullIv, rfl⟩

/-! ### The encoder -/

/-- What is encrypted. -/
def ctsPlain (rand₁ rand₂ : UInt64) (plain : List UInt8) (padding : ℕ) : List UInt8 :=
  bytes64 rand₁ ++ bytes64 rand₂ ++ plain ++ List.replicate padding 0

theorem length_ctsPlain (rand₁ rand₂ : UInt64) (plain : List UInt8) (padding : ℕ) :
    (ctsPlain rand₁ rand₂ plain padding).length = 16 + plain.length + padding := by
  rw [ctsPlain, List.length_append, List.length_append, List.length_replicate]
  rfl

/-- The assembly buffer of the encoder. -/
theorem slice_assembly (m : Memory) (rand₁ rand₂ : UInt64) (plain : List UInt8) {padding : ℕ}
    (h : padding ≤ 16) :
    ((((m.write 0 (bytes64 rand₁)).write 8 (bytes64 rand₂)).write 16 plain).write
      (16 + plain.length) nullIv).slice 0 (16 + plain.length + padding) =
      ctsPlain rand₁ rand₂ plain padding := by
  have h₁ : (bytes64 rand₁).length = 8 := rfl
  have h₂ : (bytes64 rand₂).length = 8 := rfl
  rw [Memory.slice_add, Memory.slice_add, show 16 = 8 + 8 from rfl, Memory.slice_add,
    ctsPlain]
  congr 1
  · congr 1
    · congr 1
      · rw [Memory.slice_write_before _ _ (by omega), Memory.slice_write_before _ _ (by omega),
          Memory.slice_write_before _ _ (by omega)]
        have hself := m.slice_write_self 0 (bytes64 rand₁)
        rwa [h₁] at hself
      · rw [Memory.slice_write_before _ _ (by omega), Memory.slice_write_before _ _ (by omega)]
        have hself := (m.write 0 (bytes64 rand₁)).slice_write_self 8 (bytes64 rand₂)
        rwa [h₂] at hself
    · rw [Memory.slice_write_before _ _ (by omega)]
      exact Memory.slice_write_self _ _ _
  · have hinside := (((m.write 0 (bytes64 rand₁)).write 8 (bytes64 rand₂)).write 16
      plain).slice_write_inside (i := 16 + plain.length) (a := 0) (n := padding) nullIv
        (by simpa [nullIv] using h)
    rw [Nat.add_zero, List.drop_zero] at hinside
    rw [Nat.zero_add]
    refine hinside.trans ?_
    rw [nullIv, List.take_replicate, Nat.min_eq_left h]

/-- The exchange of the last two blocks. -/
theorem slice_ctsExchange (m : Memory) {x c d : List UInt8} (hc : c.length = 16)
    (hd : d.length = 16) (h : m.slice 0 (x.length + 16 + 16) = x ++ c ++ d) :
    (ctsExchange m (x.length + 16 + 16)).slice 0 (x.length + 16 + 16) = x ++ d ++ c := by
  rw [Memory.slice_add, Memory.slice_add, Nat.zero_add, Nat.zero_add] at h
  obtain ⟨h, hd₁⟩ := List.append_inj h (by simp [hc])
  obtain ⟨hx, hc₁⟩ := List.append_inj h (by simp)
  have hexchange : ctsExchange m (x.length + 16 + 16) = ((m.after
      [(x.length + 16, 16), (x.length, 16)]).write (x.length + 16) c).write x.length d := by
    unfold ctsExchange
    dsimp only [transopBlockSize, Memory.read_fst, Memory.read_slice]
    rw [show x.length + 16 + 16 - 16 = x.length + 16 by omega,
      show x.length + 16 + 16 - 2 * 16 = x.length by omega, hd₁, hc₁]
    simp [Memory.read, Memory.after]
  have hafter : ∀ rs i n, (m.after rs).slice i n = m.slice i n := fun _ _ _ => rfl
  rw [hexchange, Memory.slice_add, Memory.slice_add, Nat.zero_add, Nat.zero_add]
  congr 1
  · congr 1
    · rw [Memory.slice_write_before _ _ (by omega), Memory.slice_write_before _ _ (by omega),
        hafter, hx]
    · rw [← hd, Memory.slice_write_self]
  · rw [Memory.slice_write_after _ _ (by omega), ← hc, Memory.slice_write_self]

/-- A message of two blocks or more, encrypted. -/
theorem encrypt_two {bs : List Block} (h : 2 ≤ bs.length) (iv : Block) :
    ∃ ps p q, bs = ps ++ [p, q] ∧ ∃ cs c, cs.length = ps.length ∧
      Cbc.encrypt blockXor enc iv bs = cs ++ [c, enc (blockXor q c)] := by
  obtain ⟨ps, tail, rfl, htail⟩ : ∃ ps tail, bs = ps ++ tail ∧ tail.length = 2 :=
    ⟨bs.take (bs.length - 2), bs.drop (bs.length - 2), (List.take_append_drop _ _).symm, by
      rw [List.length_drop]; omega⟩
  obtain ⟨p, q, rfl⟩ := List.length_eq_two.mp htail
  refine ⟨ps, p, q, rfl, Cbc.encrypt blockXor enc iv ps,
    enc (blockXor p (Cbc.chained blockXor enc iv ps)), by simp, ?_⟩
  rw [Cbc.encrypt_append]
  rfl

/-- The encoder in terms of what it encrypts. -/
theorem ctsEncode_eq {b : TransopBuffers} {outLen inLen padding : ℕ}
    (hout : inLen + 32 ≤ outLen) (hsize : outLen ≤ pktBufSize) (rand₁ rand₂ : UInt64)
    (hpadded : ((16 + inLen - 1) / 16 + 1) * 16 = 16 + inLen + padding) (hpadding : padding < 16) :
    (ctsEncode cipher b outLen inLen rand₁ rand₂).1 = (16 + inLen : ℕ) ∧
      (ctsEncode cipher b outLen inLen rand₁ rand₂).2.outbuf =
        (let outbuf := b.outbuf.write 0 (cipher.cbcEncrypt nullIv
            (ctsPlain rand₁ rand₂ (b.inbuf.slice 0 inLen) padding))
          if padding ≠ 0 then ctsExchange outbuf (16 + inLen + padding) else outbuf) := by
  have hassembly := slice_assembly b.assembly rand₁ rand₂ (b.inbuf.slice 0 inLen)
    (by omega : padding ≤ 16)
  rw [Memory.length_slice] at hassembly
  have hsub : 16 + inLen + padding - (16 + inLen) = padding := by omega
  unfold ctsEncode
  rw [if_pos (by omega), if_pos (by simpa [transopBlockSize] using hout)]
  dsimp only [transopBlockSize, Memory.read_fst]
  rw [hpadded, hassembly, hsub]
  exact ⟨rfl, rfl⟩

/-- **What the encoder sends**: the blocks of the plain text encrypted, and if the last of them was
filled up, the last two exchanged. -/
theorem slice_ctsEncode (himpl : cipher.Implements enc dec) {b : TransopBuffers} {outLen inLen : ℕ}
    (hout : inLen + 32 ≤ outLen) (hsize : outLen ≤ pktBufSize) (rand₁ rand₂ : UInt64) :
    ∃ padding bs, (16 + inLen + padding) % 16 = 0 ∧ padding < 16 ∧
      Cbc.flat bs = ctsPlain rand₁ rand₂ (b.inbuf.slice 0 inLen) padding ∧
      (ctsEncode cipher b outLen inLen rand₁ rand₂).1 = (16 + inLen : ℕ) ∧
      (padding = 0 → (ctsEncode cipher b outLen inLen rand₁ rand₂).2.outbuf.slice 0 (16 + inLen) =
        Cbc.flat (Cbc.encrypt blockXor enc nullBlock bs)) ∧
      (padding ≠ 0 → ∀ cs c d, Cbc.encrypt blockXor enc nullBlock bs = cs ++ [c, d] →
        (ctsEncode cipher b outLen inLen rand₁ rand₂).2.outbuf.slice 0 (16 + inLen + padding) =
          Cbc.flat cs ++ d.toList ++ c.toList) := by
  -- the padding fills the last block up
  obtain ⟨padding, hpadded⟩ : ∃ padding,
      ((16 + inLen - 1) / 16 + 1) * 16 = 16 + inLen + padding :=
    ⟨((16 + inLen - 1) / 16 + 1) * 16 - (16 + inLen), by omega⟩
  have hpadding : padding < 16 := by omega
  have hlength := length_ctsPlain rand₁ rand₂ (b.inbuf.slice 0 inLen) padding
  rw [Memory.length_slice] at hlength
  obtain ⟨bs, hbs, hflat⟩ := Cbc.exists_flat (n := 16) (k := (16 + inLen + padding) / 16)
    (p := ctsPlain rand₁ rand₂ (b.inbuf.slice 0 inLen) padding) (by rw [hlength]; omega)
  obtain ⟨hret, houtbuf⟩ := @ctsEncode_eq cipher b _ _ _ hout hsize rand₁ rand₂ hpadded hpadding
  rw [← hflat, show nullIv = nullBlock.toList from rfl, himpl.cbcEncrypt] at houtbuf
  have hclen : (Cbc.flat (Cbc.encrypt blockXor enc nullBlock bs)).length =
      16 + inLen + padding := by
    rw [Cbc.length_flat, Cbc.length_encrypt, hbs]
    omega
  refine ⟨padding, bs, by omega, hpadding, hflat, hret, fun hzero => ?_, fun hne cs c d hcs => ?_⟩
  · rw [houtbuf]
    dsimp only
    rw [if_neg (not_not.mpr hzero)]
    rw [hzero, Nat.add_zero] at hclen
    rw [← hclen, Memory.slice_write_self]
  · rw [houtbuf]
    dsimp only
    rw [if_pos hne]
    rw [hcs, Cbc.flat_append] at hclen ⊢
    have hx : 16 + inLen + padding = (Cbc.flat cs).length + 16 + 16 := by
      have htwo : (Cbc.flat [c, d]).length = 32 := by simp
      rw [← hclen, List.length_append, htwo]
    rw [hx]
    refine slice_ctsExchange _ c.toList_length d.toList_length ?_
    rw [← hx, ← hclen, Memory.slice_write_self]
    simp [List.append_assoc]

/-! ### The decoder -/

/-- The last step. -/
theorem slice_ctsCopy (b : TransopBuffers) (inLen : ℕ) :
    (ctsCopy b inLen).1 = (inLen - 16 : ℕ) ∧
      (ctsCopy b inLen).2.outbuf.slice 0 (inLen - 16) = b.assembly.slice 16 (inLen - 16) := by
  refine ⟨rfl, ?_⟩
  have hself := b.outbuf.slice_write_self 0 (b.assembly.slice 16 (inLen - 16))
  rwa [Memory.length_slice] at hself

/-- Whole blocks. -/
theorem ctsDecode_whole (himpl : cipher.Implements enc dec) {b : TransopBuffers} {n : ℕ}
    {bs : List Block} (hn : n ≤ pktBufSize) (hrest : (16 + n) % 16 = 0)
    (hlen : (Cbc.flat bs).length = 16 + n)
    (hin : b.inbuf.slice 0 (16 + n) = Cbc.flat (Cbc.encrypt blockXor enc nullBlock bs)) :
    (ctsDecode cipher b (16 + n)).1 = n ∧
      (ctsDecode cipher b (16 + n)).2.outbuf.slice 0 n = (Cbc.flat bs).drop 16 := by
  have hsize : pktBufSize = 4096 := rfl
  have hdecrypt : cipher.cbcDecrypt nullIv (b.inbuf.slice 0 (16 + n)) = Cbc.flat bs := by
    rw [hin, show nullIv = nullBlock.toList from rfl, himpl.cbcDecrypt,
      Cbc.decrypt_encrypt himpl.dec_enc blockXor_blockXor]
  have hdecode : ctsDecode cipher b (16 + n) = ctsCopy ⟨(b.inbuf.read 0 (16 + n)).2, b.outbuf,
      b.assembly.write 0 (Cbc.flat bs)⟩ (16 + n) := by
    unfold ctsDecode
    rw [if_pos ((transopGuard_iff (by omega)).mpr ⟨by omega, by omega⟩)]
    dsimp only [transopBlockSize]
    rw [hrest, if_neg (not_not.mpr rfl), Memory.read_fst, hdecrypt]
  obtain ⟨hret, hslice⟩ := slice_ctsCopy
    ⟨(b.inbuf.read 0 (16 + n)).2, b.outbuf, b.assembly.write 0 (Cbc.flat bs)⟩ (16 + n)
  rw [← hdecode, show 16 + n - 16 = n by omega] at hret hslice
  refine ⟨hret, hslice.trans ?_⟩
  have hinside := b.assembly.slice_write_inside (i := 0) (a := 16) (n := n) (Cbc.flat bs)
    (by omega)
  rw [Nat.zero_add] at hinside
  refine hinside.trans (List.take_of_length_le ?_)
  rw [List.length_drop]
  omega

/-- The assembly buffer before it is decrypted: the blocks in their order. -/
theorem slice_reassembled (m : Memory) {x c d : List UInt8} (hc : c.length = 16)
    (hd : d.length = 16) :
    (((m.write 0 x).write (x.length + 16) d).write x.length c).slice 0 (x.length + 16 + 16) =
      x ++ c ++ d := by
  rw [Memory.slice_add, Memory.slice_add, Nat.zero_add, Nat.zero_add]
  congr 1
  · congr 1
    · rw [Memory.slice_write_before _ _ (by omega), Memory.slice_write_before _ _ (by omega),
        Memory.slice_write_self]
    · rw [← hc, Memory.slice_write_self]
  · rw [Memory.slice_write_after _ _ (by omega), ← hd, Memory.slice_write_self]

/-- What the last block was: the bytes that were left out are those of the block before it, since
the plain text is zero there. -/
theorem stolen_block {dec : Block → Block} {q c d : Block} {rest : ℕ} (hrest : rest ≤ 16)
    (hd : dec d = blockXor q c) (hq : q.toList.drop rest = List.replicate (16 - rest) 0) :
    overwrite (dec d).toList 0 (c.toList.take rest) = c.toList := by
  have hlen : (c.toList.take rest).length = rest := by
    rw [List.length_take, c.toList_length, Nat.min_eq_left hrest]
  rw [overwrite, hlen, List.take_zero, List.nil_append, Nat.zero_add, hd, blockXor_drop hq,
    List.take_append_drop]

/-- The decoder with the parts of its input: `x` and `d` are blocks, and `y` is behind them. -/
theorem ctsSteal_eq {b : TransopBuffers} {k rest : ℕ} {x d y : List UInt8} (hrest : rest < 16)
    (hx : b.inbuf.slice 0 (16 * k) = x) (hd : b.inbuf.slice (16 * k) 16 = d)
    (hy : b.inbuf.slice (16 * k + 16) rest = y) :
    ∃ inbuf assembly : Memory,
      assembly.bytes = (((b.assembly.write 0 x).write (16 * k + 16) d).write (16 * k)
        (overwrite (cipher.ecbDecrypt d) 0 y)).bytes ∧
      ctsSteal cipher b (16 * k + 16 + rest) rest =
        (let assembly := assembly.write 0 (cipher.cbcDecrypt nullIv
            (assembly.slice 0 (16 * k + 16 + 16)))
          let b := ⟨inbuf, b.outbuf, (assembly.read (16 * k + 16 + rest) (16 - rest)).2⟩
          if assembly.slice (16 * k + 16 + rest) (16 - rest) ≠ nullIv.take (16 - rest) then (-1, b)
          else ctsCopy b (16 * k + 16 + rest)) := by
  subst hx hd hy
  refine ⟨((((b.inbuf.read 0 (16 * k)).2.read (16 * k) 16).2.read (16 * k + 16) rest).2.read
    (16 * k) 16).2, ((((b.assembly.write 0 _).write (16 * k + 16) _).write (16 * k) _).read 0
      (16 * k + 16 + 16)).2, rfl, ?_⟩
  unfold ctsSteal
  dsimp only [transopBlockSize, Memory.read_fst, Memory.read_slice]
  rw [show ((16 * k + 16 + rest) / 16 - 1) * 16 = 16 * k by omega,
    show 16 * k + 16 + rest - rest = 16 * k + 16 by omega,
    show 16 * k + 16 + rest + 16 - rest = 16 * k + 16 + 16 by omega]
  rfl

/-- Blocks of which the last one was filled up with zeros, then exchanged with the one before it and
cut. -/
theorem ctsDecode_stolen (himpl : cipher.Implements enc dec) {b : TransopBuffers} {rest : ℕ}
    {ps : List Block} {p q : Block} {cs : List Block} {c d : Block} (hrest : 0 < rest)
    (hlt : rest < 16) (hsize : 16 * cs.length + 16 + rest ≤ pktBufSize)
    (hcs : Cbc.encrypt blockXor enc nullBlock (ps ++ [p, q]) = cs ++ [c, d])
    (hd : d = enc (blockXor q c)) (hq : q.toList.drop rest = List.replicate (16 - rest) 0)
    (hin : b.inbuf.slice 0 (16 * cs.length + 16 + rest) =
      Cbc.flat cs ++ d.toList ++ c.toList.take rest) :
    (ctsDecode cipher b (16 * cs.length + 16 + rest)).1 = (16 * cs.length + rest : ℕ) ∧
      (ctsDecode cipher b (16 * cs.length + 16 + rest)).2.outbuf.slice 0 (16 * cs.length + rest) =
        ((Cbc.flat (ps ++ [p, q])).drop 16).take (16 * cs.length + rest) := by
  have hlen : (Cbc.flat cs).length = 16 * cs.length := Cbc.length_flat cs
  have hpkt : pktBufSize = 4096 := rfl
  have hps : ps.length = cs.length := by
    have hlength := congrArg List.length hcs
    simpa using hlength
  -- the three parts of the input
  rw [Memory.slice_add, Memory.slice_add, Nat.zero_add, Nat.zero_add] at hin
  obtain ⟨hfirst, hy⟩ := List.append_inj hin (by simp)
  obtain ⟨hx, hdin⟩ := List.append_inj hfirst (by simp)
  obtain ⟨inbuf, assembly, hbytes, hsteal⟩ := @ctsSteal_eq cipher _ _ _ _ _ _ hlt hx hdin hy
  -- the new penultimate block is the old one, and so the blocks are in order again
  have hdec : dec d = blockXor q c := by rw [hd, himpl.dec_enc]
  rw [himpl.ecbDecrypt, stolen_block (by omega) hdec hq] at hbytes
  have hblocks : assembly.slice 0 (16 * cs.length + 16 + 16) =
      Cbc.flat (Cbc.encrypt blockXor enc nullBlock (ps ++ [p, q])) := by
    have hre := slice_reassembled b.assembly (x := Cbc.flat cs) c.toList_length d.toList_length
    rw [hlen] at hre
    rw [Memory.slice, hbytes, hcs, Cbc.flat_append]
    refine hre.trans ?_
    simp [List.append_assoc]
  have hdecrypt : cipher.cbcDecrypt nullIv (assembly.slice 0 (16 * cs.length + 16 + 16)) =
      Cbc.flat (ps ++ [p, q]) := by
    rw [hblocks, show nullIv = nullBlock.toList from rfl, himpl.cbcDecrypt,
      Cbc.decrypt_encrypt himpl.dec_enc blockXor_blockXor]
  have hplen : (Cbc.flat (ps ++ [p, q])).length = 16 * cs.length + 16 + 16 := by
    rw [Cbc.length_flat, List.length_append, hps]
    simp only [List.length_cons, List.length_nil]
    omega
  have hslice : ∀ a n, a + n ≤ 16 * cs.length + 16 + 16 →
      (assembly.write 0 (Cbc.flat (ps ++ [p, q]))).slice a n =
        ((Cbc.flat (ps ++ [p, q])).drop a).take n := by
    intro a n han
    have hinside := assembly.slice_write_inside (i := 0) (a := a) (n := n)
      (Cbc.flat (ps ++ [p, q])) (by rw [hplen]; exact han)
    rwa [Nat.zero_add] at hinside
  -- behind the plain text there are the zeros of the padding
  have hzeros : (Cbc.flat (ps ++ [p, q])).drop (16 * cs.length + 16 + rest) =
      List.replicate (16 - rest) 0 := by
    have hhead : (Cbc.flat ps ++ p.toList).length = 16 * cs.length + 16 := by
      rw [List.length_append, Cbc.length_flat, hps, p.toList_length]
    have hparts : Cbc.flat (ps ++ [p, q]) = (Cbc.flat ps ++ p.toList) ++ q.toList := by
      simp [List.append_assoc]
    rw [hparts, ← List.drop_drop, List.drop_left' hhead, hq]
  have hdecode : ctsDecode cipher b (16 * cs.length + 16 + rest) =
      ctsCopy ⟨inbuf, b.outbuf, ((assembly.write 0 (Cbc.flat (ps ++ [p, q]))).read
        (16 * cs.length + 16 + rest) (16 - rest)).2⟩ (16 * cs.length + 16 + rest) := by
    unfold ctsDecode
    rw [if_pos ((transopGuard_iff (by omega)).mpr ⟨by omega, by omega⟩)]
    dsimp only [transopBlockSize]
    rw [show (16 * cs.length + 16 + rest) % 16 = rest by omega, if_pos (by omega), hsteal,
      hdecrypt]
    dsimp only
    rw [hslice _ _ (by omega), hzeros, if_neg]
    rw [nullIv, List.take_replicate, List.take_replicate, not_not]
    congr 1
    omega
  obtain ⟨hret, hcopy⟩ := slice_ctsCopy ⟨inbuf, b.outbuf,
    ((assembly.write 0 (Cbc.flat (ps ++ [p, q]))).read (16 * cs.length + 16 + rest)
      (16 - rest)).2⟩ (16 * cs.length + 16 + rest)
  rw [← hdecode, show 16 * cs.length + 16 + rest - 16 = 16 * cs.length + rest by omega]
    at hret hcopy
  refine ⟨hret, hcopy.trans ?_⟩
  rw [Memory.read_slice]
  exact hslice _ _ (by omega)

/-! ### There and back -/

/-- The encoder makes `n + 16` bytes of `n` bytes that fit with 32 more, and the decoder makes the
same `n` bytes of these. -/
def RoundTrips (encode : TransopBuffers → ℕ → ℕ → UInt64 → UInt64 → ℤ × TransopBuffers)
    (decode : TransopBuffers → ℕ → ℤ × TransopBuffers) : Prop :=
  ∀ b outLen n rand₁ rand₂, n + 32 ≤ outLen → outLen ≤ pktBufSize →
    (encode b outLen n rand₁ rand₂).1 = (n + 16 : ℕ) ∧
      ∀ b', b'.inbuf.slice 0 (n + 16) =
          (encode b outLen n rand₁ rand₂).2.outbuf.slice 0 (n + 16) →
        (decode b' (n + 16)).1 = n ∧
          (decode b' (n + 16)).2.outbuf.slice 0 n = b.inbuf.slice 0 n

/-- The plain text behind the preamble. -/
theorem drop_ctsPlain (rand₁ rand₂ : UInt64) (plain : List UInt8) (padding : ℕ) :
    (ctsPlain rand₁ rand₂ plain padding).drop 16 = plain ++ List.replicate padding 0 := by
  have hpreamble : (bytes64 rand₁ ++ bytes64 rand₂).length = 16 := rfl
  rw [ctsPlain, List.append_assoc (bytes64 rand₁ ++ bytes64 rand₂), List.drop_left' hpreamble]

/-- **Cipher text stealing, there and back**, with any block cipher. -/
theorem cts_roundTrips (himpl : cipher.Implements enc dec) :
    RoundTrips (ctsEncode cipher) (ctsDecode cipher) := by
  intro b outLen n rand₁ rand₂ hout hsize
  obtain ⟨padding, bs, hwhole, hpadding, hflat, hret, hnone, hsome⟩ :=
    slice_ctsEncode himpl (b := b) hout hsize rand₁ rand₂
  have hplain : (b.inbuf.slice 0 n).length = n := Memory.length_slice _ _ _
  have hlength : (Cbc.flat bs).length = 16 + n + padding := by
    rw [hflat, length_ctsPlain, hplain]
  have hdrop : (Cbc.flat bs).drop 16 = b.inbuf.slice 0 n ++ List.replicate padding 0 := by
    rw [hflat, drop_ctsPlain]
  rw [Nat.add_comm n 16]
  refine ⟨hret, fun b' hin => ?_⟩
  by_cases hzero : padding = 0
  · -- whole blocks
    rw [hzero, Nat.add_zero] at hlength hwhole
    rw [hnone hzero] at hin
    obtain ⟨hlen, hslice⟩ := ctsDecode_whole himpl (by omega) hwhole hlength hin
    refine ⟨hlen, hslice.trans ?_⟩
    rw [hdrop, hzero, List.replicate_zero, List.append_nil]
  · -- the last block was filled up
    have hblocks : 16 * bs.length = 16 + n + padding := by rw [← Cbc.length_flat, hlength]
    obtain ⟨ps, p, q, rfl, cs, c, hcs, henc⟩ := @encrypt_two enc bs (by omega)
      nullBlock
    have hcount : (ps ++ [p, q]).length = cs.length + 2 := by
      rw [List.length_append, hcs]
      rfl
    rw [hcount] at hblocks
    obtain ⟨rest, hn⟩ : ∃ rest, n = 16 * cs.length + rest := ⟨n - 16 * cs.length, by omega⟩
    have hrest : 16 - rest = padding := by omega
    have hout' := hsome hzero cs c _ henc
    -- of the last block of the plain text, the end is padding
    have hq : q.toList.drop rest = List.replicate (16 - rest) 0 := by
      have hhead : (Cbc.flat ps ++ p.toList).length = 16 + 16 * cs.length := by
        rw [List.length_append, Cbc.length_flat, ← hcs, p.toList_length, Nat.add_comm]
      have hparts : Cbc.flat (ps ++ [p, q]) = (Cbc.flat ps ++ p.toList) ++ q.toList := by
        simp [List.append_assoc]
      have hend : (Cbc.flat (ps ++ [p, q])).drop (16 + n) = List.replicate padding 0 := by
        rw [← List.drop_drop, hdrop, List.drop_left' hplain]
      rw [hparts, hn, ← Nat.add_assoc, ← List.drop_drop, List.drop_left' hhead] at hend
      rw [hend, hrest]
    -- the bytes that are sent
    have hsent : b'.inbuf.slice 0 (16 * cs.length + 16 + rest) =
        Cbc.flat cs ++ (enc (blockXor q c)).toList ++ c.toList.take rest := by
      rw [show 16 * cs.length + 16 + rest = 16 + n by omega, hin]
      have htake := congrArg (List.take (16 + n)) hout'
      rw [Memory.slice_add, List.take_left' (by simp)] at htake
      rw [htake]
      have hhead : (Cbc.flat cs ++ (enc (blockXor q c)).toList).length = 16 * cs.length + 16 := by
        rw [List.length_append, Cbc.length_flat, (enc (blockXor q c)).toList_length]
      rw [List.take_append, hhead, List.take_of_length_le (by omega),
        show 16 + n - (16 * cs.length + 16) = rest by omega]
    have hn' : 16 + n = 16 * cs.length + 16 + rest := by omega
    obtain ⟨hlen, hslice⟩ := ctsDecode_stolen himpl (by omega) (by omega) (by omega) henc rfl hq
      hsent
    rw [hn', hn]
    refine ⟨hlen, hslice.trans ?_⟩
    rw [hdrop, ← hn, List.take_left' hplain]

/-- **The decoders of AES and Twofish restore what the encoders were given**, for every length of
the plain text, every key and every preamble. -/
theorem transopRoundTrip {aes tf : CtsCipher} {aesEnc aesDec tfEnc tfDec : Block → Block}
    (haes : aes.Implements aesEnc aesDec) (htf : tf.Implements tfEnc tfDec) :
    RoundTrips (transopEncodeAes aes) (transopDecodeAes aes) ∧
      RoundTrips (transopEncodeTf tf) (transopDecodeTf tf) :=
  ⟨cts_roundTrips haes, cts_roundTrips htf⟩

/-! ### A block cipher at hand -/

/-- The bytes in blocks. -/
def toBlocks : ℕ → List UInt8 → List Block
  | 0, _ => []
  | k + 1, p => sliceVec p 0 16 :: toBlocks k (p.drop 16)

/-- A block with the cipher of the header in one of its directions. -/
def speckBlock (crypt : List UInt8 → SpeckContext → List UInt8) (ctx : SpeckContext) (b : Block) :
    Block := sliceVec (crypt b.toList ctx) 0 16

/-- The cipher of the header in CBC mode. -/
def speckCts (ctx : SpeckContext) : CtsCipher where
  ecbDecrypt b := speck128Decrypt b ctx
  cbcEncrypt iv p := Cbc.flat (Cbc.encrypt blockXor (speckBlock speck128Encrypt ctx)
    (sliceVec iv 0 16) (toBlocks (p.length / 16) p))
  cbcDecrypt iv p := Cbc.flat (Cbc.decrypt blockXor (speckBlock speck128Decrypt ctx)
    (sliceVec iv 0 16) (toBlocks (p.length / 16) p))

theorem sliceVec_toList (b : Block) (rest : List UInt8) : sliceVec (b.toList ++ rest) 0 16 = b := by
  apply List.Vector.toList_injective
  have hleft := slice_left b.toList rest
  rwa [b.toList_length] at hleft

theorem toBlocks_flat (bs : List Block) :
    toBlocks ((Cbc.flat bs).length / 16) (Cbc.flat bs) = bs := by
  rw [Cbc.length_flat, Nat.mul_div_cancel_left _ (by omega)]
  induction bs with
  | nil => rfl
  | cons b bs ih =>
    rw [List.length_cons, toBlocks, Cbc.flat_cons, sliceVec_toList, List.drop_left' b.toList_length,
      ih]

theorem speckCts_implements (ctx : SpeckContext) :
    (speckCts ctx).Implements
      (speckBlock speck128Encrypt ctx) (speckBlock speck128Decrypt ctx) := by
  have hself : ∀ p : List UInt8, p.length = 16 → (sliceVec p 0 16).toList = p := by
    intro p hp
    have hleft := slice_left p []
    rwa [List.append_nil, hp] at hleft
  have hiv : ∀ iv : Block, sliceVec iv.toList 0 16 = iv := by
    intro iv
    have h := sliceVec_toList iv []
    rwa [List.append_nil] at h
  refine ⟨fun b => ?_, fun b => ?_, fun iv bs => ?_, fun iv bs => ?_⟩
  · apply List.Vector.toList_injective
    have hlen : 16 ≤ b.toList.length := by rw [b.toList_length]
    have henc : (speck128Encrypt b.toList ctx).length = 16 := by
      rw [length_speck128Encrypt hlen, b.toList_length]
    rw [speckBlock, speckBlock, hself (speck128Encrypt b.toList ctx) henc,
      speck128Decrypt_encrypt hlen, hself b.toList b.toList_length]
  · have hlen : 16 ≤ b.toList.length := by rw [b.toList_length]
    have hdec : (speck128Decrypt b.toList ctx).length = 16 := by
      rw [length_speck128Decrypt hlen, b.toList_length]
    exact (hself (speck128Decrypt b.toList ctx) hdec).symm
  · show Cbc.flat (Cbc.encrypt _ _ (sliceVec iv.toList 0 16) (toBlocks _ _)) = _
    rw [hiv, toBlocks_flat]
  · show Cbc.flat (Cbc.decrypt _ _ (sliceVec iv.toList 0 16) (toBlocks _ _)) = _
    rw [hiv, toBlocks_flat]

/-- Buffers with zeros. -/
def zeroBuffers : TransopBuffers := ⟨.of fun _ => 0, .of fun _ => 0, .of fun _ => 0⟩

theorem transopRoundTrip_byte :
    (transopEncodeAes (speckCts (speckInit nullIv)) zeroBuffers 33 1 7 8).1 = 17 :=
  ((transopRoundTrip (speckCts_implements (speckInit nullIv))
    (speckCts_implements (speckInit nullIv))).1 zeroBuffers 33 1 7 8 (by decide) (by decide)).1

end N2n
