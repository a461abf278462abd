import N2nTun.Lib.Bytes

/-!
# Pearson hashes and the Speck cipher

The hashes of `pearson.c` and the plain C routines of `speck.c` for keys of 128 bits,
on a little-endian machine.

## Main definitions

* `pearsonHash32`, `pearsonHash64`, `pearsonHash128` — the hashes in use.
* `SpeckContext`, `speckInit` — the round keys of a key.
* `speck128Encrypt`, `speck128Decrypt` — one block.
* `speckCtr` — counter mode.

## Main results

* `speck128Decrypt_encrypt`, `speck128Encrypt_decrypt` — **the block cipher and its inverse.**
* `speckCtr_eq` — counter mode adds a stream of bytes that does not depend on the input.
-/

namespace N2n

open Bytes

/-! ### `pearson.c` -/

/-- `permute64`. -/
def permute64 (x : UInt64) : UInt64 :=
  let x := x ^^^ (x >>> 30)
  let x := x * 0xbf58476d1ce4e5b9
  let x := x ^^^ (x >>> 27)
  let x := x * 0x94d049bb133111eb
  x ^^^ (x >>> 31)

/-- `hash_round` of the lane `part`, which takes `part` off before it permutes. -/
def hashRound (part hash x : UInt64) : UInt64 := permute64 ((hash ^^^ x) - part)

/-- The loop over words of eight bytes, and the bytes that are left. -/
def digestWords (part : UInt64) : UInt64 → List UInt8 → UInt64 × List UInt8
  | hash, b₀ :: b₁ :: b₂ :: b₃ :: b₄ :: b₅ :: b₆ :: b₇ :: rest =>
    let word := (le32 b₀ b₁ b₂ b₃).toUInt64 ||| ((le32 b₄ b₅ b₆ b₇).toUInt64 <<< 32)
    digestWords part (hashRound part hash word) rest
  | hash, rest => (hash, rest)

/-- One lane: the words, the bytes that are left, the length. -/
def pearsonLane (part : UInt64) (inp : List UInt8) : UInt64 :=
  let words := digestWords part 0 inp
  let hash := words.2.foldl (fun hash b => hashRound part hash b.toUInt64) (~~~ words.1)
  hashRound part (~~~ hash) (UInt64.ofNat inp.length)

/-- `pearson_hash_64`. -/
def pearsonHash64 (inp : List UInt8) : UInt64 := pearsonLane 1 inp

/-- `pearson_hash_32`. -/
def pearsonHash32 (inp : List UInt8) : UInt32 := (pearsonHash64 inp).toUInt32

/-- `pearson_hash_128`. -/
def pearsonHash128 (inp : List UInt8) : List UInt8 :=
  bytes64 (pearsonLane 2 inp) ++ bytes64 (pearsonLane 1 inp)

/-! ### `speck.c` -/

/-- `speck_context_t`: the round keys. -/
structure SpeckContext where
  key : List UInt64
  deriving DecidableEq

/-- `ROR`, `ROTR64`. -/
def ror (x r : UInt64) : UInt64 := (x >>> r) ||| (x <<< (64 - r))

/-- `ROL`, `ROTL64`. -/
def rol (x r : UInt64) : UInt64 := (x <<< r) ||| (x >>> (64 - r))

/-- `R`, `ER128`: one round on `(x, y)`. -/
def speckRound (b : UInt64 × UInt64) (k : UInt64) : UInt64 × UInt64 :=
  let x := (ror b.1 8 + b.2) ^^^ k
  (x, rol b.2 3 ^^^ x)

/-- `DR128`: one round back. -/
def speckRoundBack (b : UInt64 × UInt64) (k : UInt64) : UInt64 × UInt64 :=
  let y := ror (b.2 ^^^ b.1) 3
  (rol ((b.1 ^^^ k) - y) 8, y)

/-- The loop of `speck_expand_key` from round `i` on, with `n` rounds to go, on the
words `K[1]`, `K[0]`. -/
def speckExpandLoop : ℕ → UInt64 → UInt64 × UInt64 → List UInt64
  | 0, _, K => [K.2]
  | n + 1, i, K => K.2 :: speckExpandLoop n (i + 1) (speckRound K i)

/-- `speck_init` for a key of 128 bits. -/
def speckInit (k : List UInt8) : SpeckContext :=
  ⟨speckExpandLoop 33 0 (le64At k 8, le64At k 0)⟩

/-- The bytes of the block `(x, y)`. -/
def speckBytes (b : UInt64 × UInt64) : List UInt8 := leBytes64 b.2 ++ leBytes64 b.1

/-- `speck_128_encrypt`, on the first 16 bytes. -/
def speck128Encrypt (inout : List UInt8) (ctx : SpeckContext) : List UInt8 :=
  overwrite inout 0
    (speckBytes ((ctx.key.take 32).foldl speckRound (le64At inout 8, le64At inout 0)))

/-- `speck_128_decrypt`, on the first 16 bytes. -/
def speck128Decrypt (inout : List UInt8) (ctx : SpeckContext) : List UInt8 :=
  overwrite inout 0
    (speckBytes ((ctx.key.take 32).reverse.foldl speckRoundBack (le64At inout 8, le64At inout 0)))

/-- The block of the key stream with number `i` for the nonce `n`. -/
def speckStreamBlock (ctx : SpeckContext) (n : List UInt8) (i : ℕ) : List UInt8 :=
  speckBytes ((ctx.key.take 32).foldl speckRound (le64At n 8, le64At n 0 + UInt64.ofNat i))

/-- `speck_ctr` over the input `inp`. -/
def speckCtr (inp n : List UInt8) (ctx : SpeckContext) : List UInt8 :=
  xorBytes inp ((List.range ((inp.length + 15) / 16)).flatMap (speckStreamBlock ctx n))

/-! ### Rotations -/

section

variable {r : UInt64}

theorem toNat_sixtyFour_sub (h : r.toNat < 64) : (64 - r).toNat = 64 - r.toNat := by
  rw [UInt64.toNat_sub_of_le _ _ (by rw [UInt64.le_iff_toNat_le]; exact h.le)]
  rfl

theorem sixtyFour_sub_sub (r : UInt64) : 64 - (64 - r) = r := by grind

/-- The bits that stay are fewer than 64. -/
theorem div_two_pow_lt (h : r.toNat < 64) (x : UInt64) :
    x.toNat / 2 ^ r.toNat < 2 ^ (64 - r.toNat) := by
  rw [Nat.div_lt_iff_lt_mul (Nat.two_pow_pos _), ← Nat.pow_add, Nat.sub_add_cancel h.le]
  exact x.toNat_lt

/-- A rotation to the right, read as arithmetic. -/
theorem toNat_ror (h : 0 < r.toNat) (h' : r.toNat < 64) (x : UInt64) :
    (ror x r).toNat = x.toNat % 2 ^ r.toNat * 2 ^ (64 - r.toNat) + x.toNat / 2 ^ r.toNat := by
  have hpow : 2 ^ r.toNat * 2 ^ (64 - r.toNat) = 2 ^ 64 := by
    rw [← Nat.pow_add, Nat.add_sub_cancel' h'.le]
  have hhigh : x.toNat <<< (64 - r.toNat) % 2 ^ 64 =
      (x.toNat % 2 ^ r.toNat) <<< (64 - r.toNat) := by
    rw [Nat.shiftLeft_eq, Nat.shiftLeft_eq, ← hpow, Nat.mul_mod_mul_right]
  rw [ror, UInt64.or_comm, UInt64.toNat_or, UInt64.toNat_shiftLeft, UInt64.toNat_shiftRight,
    toNat_sixtyFour_sub h', Nat.mod_eq_of_lt h', Nat.mod_eq_of_lt (by omega : 64 - r.toNat < 64),
    hhigh, Nat.shiftRight_eq_div_pow, shiftLeft_or (div_two_pow_lt h' x)]

/-- All the way round. -/
theorem ror_ror (h : 0 < r.toNat) (h' : r.toNat < 64) (x : UInt64) :
    ror (ror x r) (64 - r) = x := by
  have hsub := toNat_sixtyFour_sub h'
  have hlow := div_two_pow_lt h' x
  apply UInt64.toNat_inj.mp
  rw [toNat_ror (by omega) (by omega), hsub, toNat_ror h h',
    show 64 - (64 - r.toNat) = r.toNat by omega, Nat.mul_add_mod', Nat.mod_eq_of_lt hlow,
    Nat.mul_comm (x.toNat % _), Nat.mul_add_div (Nat.two_pow_pos _), Nat.div_eq_of_lt hlow,
    Nat.add_zero]
  exact Nat.div_add_mod' _ _

theorem rol_eq_ror (x : UInt64) : rol x r = ror x (64 - r) := by
  rw [rol, ror, UInt64.or_comm, sixtyFour_sub_sub]

theorem rol_ror (h : 0 < r.toNat) (h' : r.toNat < 64) (x : UInt64) : rol (ror x r) r = x := by
  rw [rol_eq_ror, ror_ror h h']

theorem ror_rol (h : 0 < r.toNat) (h' : r.toNat < 64) (x : UInt64) : ror (rol x r) r = x := by
  have hsub := toNat_sixtyFour_sub h'
  have hround := ror_ror (r := 64 - r) (by omega) (by omega) x
  rwa [sixtyFour_sub_sub, ← rol_eq_ror] at hround

end

/-! ### One block back and forth -/

theorem xor_cancel_right (x y : UInt64) : (x ^^^ y) ^^^ y = x := by
  rw [UInt64.xor_assoc, UInt64.xor_self, UInt64.xor_zero]

theorem speckRoundBack_speckRound (b : UInt64 × UInt64) (k : UInt64) :
    speckRoundBack (speckRound b k) k = b := by
  simp only [speckRound, speckRoundBack]
  rw [xor_cancel_right, xor_cancel_right, ror_rol (by decide) (by decide), UInt64.add_sub_cancel,
    rol_ror (by decide) (by decide)]

theorem speckRound_speckRoundBack (b : UInt64 × UInt64) (k : UInt64) :
    speckRound (speckRoundBack b k) k = b := by
  simp only [speckRound, speckRoundBack]
  rw [ror_rol (by decide) (by decide), UInt64.sub_add_cancel, rol_ror (by decide) (by decide),
    xor_cancel_right, xor_cancel_right]

/-- The rounds are undone in the reverse order. -/
theorem foldl_speckRoundBack (ks : List UInt64) (b : UInt64 × UInt64) :
    ks.reverse.foldl speckRoundBack (ks.foldl speckRound b) = b := by
  induction ks generalizing b with
  | nil => rfl
  | cons k ks ih =>
    rw [List.reverse_cons, List.foldl_append, List.foldl_cons (f := speckRound), ih]
    exact speckRoundBack_speckRound b k

theorem foldl_speckRound (ks : List UInt64) (b : UInt64 × UInt64) :
    ks.foldl speckRound (ks.reverse.foldl speckRoundBack b) = b := by
  induction ks generalizing b with
  | nil => rfl
  | cons k ks ih =>
    rw [List.reverse_cons, List.foldl_append, List.foldl_cons, List.foldl_cons, List.foldl_nil,
      speckRound_speckRoundBack, ih]

@[simp] theorem length_speckBytes (b : UInt64 × UInt64) : (speckBytes b).length = 16 := rfl

/-- The two words of a block. -/
theorem words_speckBytes (b : UInt64 × UInt64) (rest : List UInt8) :
    (le64At (speckBytes b ++ rest) 8, le64At (speckBytes b ++ rest) 0) = b := by
  have hhi := le64At_append (leBytes64 b.2) (leBytes64 b.1 ++ rest) 0
  rw [speckBytes, List.append_assoc, le64At_leBytes64,
    show 8 = (leBytes64 b.2).length + 0 from rfl, hhi, le64At_leBytes64]

theorem speckBytes_words {blk : List UInt8} (h : blk.length = 16) (rest : List UInt8) :
    speckBytes (le64At (blk ++ rest) 8, le64At (blk ++ rest) 0) = blk := by
  obtain ⟨lo, hi, rfl, hlo⟩ : ∃ lo hi, blk = lo ++ hi ∧ lo.length = 8 :=
    ⟨blk.take 8, blk.drop 8, (List.take_append_drop 8 blk).symm, by simp [h]⟩
  have hhi : hi.length = 8 := by
    rw [List.length_append] at h
    omega
  have hword := le64At_append lo (hi ++ rest) 0
  rw [hlo] at hword
  rw [speckBytes, List.append_assoc, hword, leBytes64_le64At hlo, leBytes64_le64At hhi]

/-- The cipher replaces the first 16 bytes. -/
theorem overwrite_block {blk : List UInt8} (h : blk.length = 16) (rest : List UInt8)
    (b : UInt64 × UInt64) : overwrite (blk ++ rest) 0 (speckBytes b) = speckBytes b ++ rest :=
  overwrite_append (x := []) h

/-- The first 16 bytes and the rest. -/
theorem exists_block {p : List UInt8} (h : 16 ≤ p.length) :
    ∃ blk rest, p = blk ++ rest ∧ blk.length = 16 :=
  ⟨p.take 16, p.drop 16, (List.take_append_drop 16 p).symm, by simp [h]⟩

/-- **Decryption undoes encryption.** -/
theorem speck128Decrypt_encrypt {p : List UInt8} (h : 16 ≤ p.length) (ctx : SpeckContext) :
    speck128Decrypt (speck128Encrypt p ctx) ctx = p := by
  obtain ⟨blk, rest, rfl, hblk⟩ := exists_block h
  rw [speck128Encrypt, overwrite_block hblk, speck128Decrypt, words_speckBytes,
    foldl_speckRoundBack, speckBytes_words hblk]
  exact overwrite_append (x := []) hblk.symm

/-- **Encryption undoes decryption.** -/
theorem speck128Encrypt_decrypt {p : List UInt8} (h : 16 ≤ p.length) (ctx : SpeckContext) :
    speck128Encrypt (speck128Decrypt p ctx) ctx = p := by
  obtain ⟨blk, rest, rfl, hblk⟩ := exists_block h
  rw [speck128Decrypt, overwrite_block hblk, speck128Encrypt, words_speckBytes, foldl_speckRound,
    speckBytes_words hblk]
  exact overwrite_append (x := []) hblk.symm

theorem length_speck128Encrypt {p : List UInt8} (h : 16 ≤ p.length) (ctx : SpeckContext) :
    (speck128Encrypt p ctx).length = p.length :=
  length_overwrite (by simpa using h)

theorem length_speck128Decrypt {p : List UInt8} (h : 16 ≤ p.length) (ctx : SpeckContext) :
    (speck128Decrypt p ctx).length = p.length :=
  length_overwrite (by simpa using h)

/-- What comes after the block does not matter. -/
theorem speck128Encrypt_append {blk : List UInt8} (h : blk.length = 16) (rest : List UInt8)
    (ctx : SpeckContext) : speck128Encrypt (blk ++ rest) ctx = speck128Encrypt blk ctx ++ rest := by
  have hself := overwrite_block h []
    ((ctx.key.take 32).foldl speckRound (le64At blk 8, le64At blk 0))
  rw [List.append_nil, List.append_nil] at hself
  rw [speck128Encrypt, overwrite_block h, le64At_left (by omega), le64At_left (by omega),
    speck128Encrypt, hself]

theorem speck128Decrypt_append {blk : List UInt8} (h : blk.length = 16) (rest : List UInt8)
    (ctx : SpeckContext) : speck128Decrypt (blk ++ rest) ctx = speck128Decrypt blk ctx ++ rest := by
  have hself := overwrite_block h []
    ((ctx.key.take 32).reverse.foldl speckRoundBack (le64At blk 8, le64At blk 0))
  rw [List.append_nil, List.append_nil] at hself
  rw [speck128Decrypt, overwrite_block h, le64At_left (by omega), le64At_left (by omega),
    speck128Decrypt, hself]

/-! ### Counter mode -/

/-- The byte of the key stream with number `i`. -/
def speckStreamByte (ctx : SpeckContext) (n : List UInt8) (i : ℕ) : UInt8 :=
  (speckStreamBlock ctx n (i / 16)).getD (i % 16) 0

theorem length_speckStream (ctx : SpeckContext) (n : List UInt8) (m : ℕ) :
    ((List.range m).flatMap (speckStreamBlock ctx n)).length = 16 * m := by
  induction m with
  | zero => rfl
  | succ m ih =>
    rw [List.range_succ, List.flatMap_append, List.length_append, ih, List.flatMap_singleton,
      speckStreamBlock, length_speckBytes, Nat.mul_succ]

/-- The stream is made of blocks. -/
theorem getD_speckStream (ctx : SpeckContext) (n : List UInt8) {m i : ℕ} (h : i < 16 * m) :
    ((List.range m).flatMap (speckStreamBlock ctx n)).getD i 0 = speckStreamByte ctx n i := by
  induction m with
  | zero => omega
  | succ m ih =>
    have hlen := length_speckStream ctx n m
    rw [List.range_succ, List.flatMap_append, List.flatMap_singleton]
    by_cases hi : i < 16 * m
    · rw [List.getD_append _ _ _ _ (by omega), ih hi]
    · -- the byte is in the last block
      rw [List.getD_append_right _ _ _ _ (by omega), hlen, speckStreamByte,
        show i / 16 = m by omega, show i - 16 * m = i % 16 by omega]

/-- **Counter mode adds a stream of bytes** that only depends on the key and the nonce. -/
theorem speckCtr_eq (inp n : List UInt8) (ctx : SpeckContext) :
    speckCtr inp n ctx = inp.mapIdx fun i b => b ^^^ speckStreamByte ctx n i := by
  have hlen := length_speckStream ctx n ((inp.length + 15) / 16)
  apply List.ext_getElem
  · rw [speckCtr, xorBytes, List.length_zipWith, hlen, List.length_mapIdx]
    omega
  · intro i h₁ h₂
    rw [List.length_mapIdx] at h₂
    have hbyte := getD_speckStream ctx n (m := (inp.length + 15) / 16) (i := i) (by omega)
    rw [List.getD_eq_getElem _ _ (by omega)] at hbyte
    simp only [speckCtr, xorBytes, List.getElem_zipWith, List.getElem_mapIdx, hbyte]

@[simp] theorem length_speckCtr (inp n : List UInt8) (ctx : SpeckContext) :
    (speckCtr inp n ctx).length = inp.length := by
  rw [speckCtr_eq, List.length_mapIdx]

theorem speckCtr_speckCtr (inp n : List UInt8) (ctx : SpeckContext) :
    speckCtr (speckCtr inp n ctx) n ctx = inp := by
  rw [speckCtr_eq, speckCtr_eq]
  apply List.ext_getElem
  · simp
  · intro i h₁ h₂
    simp only [List.getElem_mapIdx, UInt8.xor_assoc, UInt8.xor_self, UInt8.xor_zero]

/-- The stream is added from the start, whatever follows. -/
theorem speckCtr_append (p q n : List UInt8) (ctx : SpeckContext) :
    (speckCtr (p ++ q) n ctx).take p.length = speckCtr p n ctx := by
  rw [speckCtr_eq, speckCtr_eq, List.mapIdx_append]
  exact List.take_left' (List.length_mapIdx)

/-- Only the first 16 bytes of the nonce are used. -/
theorem speckCtr_nonce (inp : List UInt8) {blk : List UInt8} (h : blk.length = 16)
    (rest rest' : List UInt8) (ctx : SpeckContext) :
    speckCtr inp (blk ++ rest) ctx = speckCtr inp (blk ++ rest') ctx := by
  have hblock : speckStreamBlock ctx (blk ++ rest) = speckStreamBlock ctx (blk ++ rest') := by
    funext i
    unfold speckStreamBlock
    rw [le64At_left (by omega), le64At_left (by omega), le64At_left (by omega),
      le64At_left (by omega)]
  rw [speckCtr, speckCtr, hblock]

end N2n
