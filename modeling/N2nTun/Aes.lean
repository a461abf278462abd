import N2nTun.AesTables
import N2nTun.CipherModes

/-!
# AES in plain C

`aes.c` as it is built without OpenSSL and without the instructions of the processor: the expanded
key, the rounds with tables, and the modes.

## Main definitions

* `aesInternalKeySetupEnc`, `aesInternalKeySetupDec` — the expanded key in both directions.
* `aesInternalEncrypt`, `aesInternalDecrypt` — a block.
* `aesCbcEncrypt`, `aesCbcDecrypt`, `aesInit` — the modes and the context.

## Main results

* `keySetupEnc_eq`, `keySetupDec_eq` — the expanded key is that of the standard, for decryption with
  mixed columns.
* `aesInternalEncrypt_eq`, `aesInternalDecrypt_eq` — a block, with any expanded key.
* `aesEcb_standard` — **the tables do what the standard says**, with the key that a context is made
  from.
* `aes_implements` — it is a block cipher in CBC mode.
* `aes_cbc_undone` — **what the one side encrypts the other side decrypts.**
-/

namespace N2n.Aes

open Bytes Rijndael

/-! ### The expanded key -/

/-- The four entries of `Te4` that are added to a word, each masked for its place. -/
def te4Masked (a b c d : UInt8) : UInt32 :=
  (look te4 a &&& 0xff000000) ^^^ (look te4 b &&& 0x00ff0000) ^^^ (look te4 c &&& 0x0000ff00) ^^^
    (look te4 d &&& 0x000000ff)

/-- The first word of the next ones. -/
def firstWord (rk0 temp : UInt32) (i : ℕ) : UInt32 :=
  rk0 ^^^ te4Masked (b2 temp) (b1 temp) (b0 temp) (b3 temp) ^^^ rcon.getD i 0

/-- The loop for 128 bits: `rk` points to the word with the number `4 * i`. -/
def expand128 (rk : List UInt32) (i : ℕ) : List UInt32 :=
  let w (j : ℕ) := rk.getD (4 * i + j) 0
  let rk4 := firstWord (w 0) (w 3) i
  let rk5 := w 1 ^^^ rk4
  let rk6 := w 2 ^^^ rk5
  let rk7 := w 3 ^^^ rk6
  rk ++ [rk4, rk5, rk6, rk7]

/-- The loop for 192 bits, up to the place where it may be left. -/
def expand192 (rk : List UInt32) (i : ℕ) : List UInt32 :=
  let w (j : ℕ) := rk.getD (6 * i + j) 0
  let rk6 := firstWord (w 0) (w 5) i
  let rk7 := w 1 ^^^ rk6
  let rk8 := w 2 ^^^ rk7
  let rk9 := w 3 ^^^ rk8
  rk ++ [rk6, rk7, rk8, rk9]

/-- The rest of the loop for 192 bits. -/
def expand192' (rk : List UInt32) (i : ℕ) : List UInt32 :=
  let w (j : ℕ) := rk.getD (6 * i + j) 0
  let rk10 := w 4 ^^^ w 9
  let rk11 := w 5 ^^^ rk10
  rk ++ [rk10, rk11]

/-- The loop for 256 bits, up to the place where it may be left. -/
def expand256 (rk : List UInt32) (i : ℕ) : List UInt32 :=
  let w (j : ℕ) := rk.getD (8 * i + j) 0
  let rk8 := firstWord (w 0) (w 7) i
  let rk9 := w 1 ^^^ rk8
  let rk10 := w 2 ^^^ rk9
  let rk11 := w 3 ^^^ rk10
  rk ++ [rk8, rk9, rk10, rk11]

/-- The rest of the loop for 256 bits. -/
def expand256' (rk : List UInt32) (i : ℕ) : List UInt32 :=
  let w (j : ℕ) := rk.getD (8 * i + j) 0
  let temp := w 11
  let rk12 := w 4 ^^^ te4Masked (b3 temp) (b2 temp) (b1 temp) (b0 temp)
  let rk13 := w 5 ^^^ rk12
  let rk14 := w 6 ^^^ rk13
  let rk15 := w 7 ^^^ rk14
  rk ++ [rk12, rk13, rk14, rk15]

/-- `n` words of the key, the highest byte first. -/
def keyWords (cipherKey : List UInt8) (n : ℕ) : List UInt32 :=
  (List.range n).map fun i => be32At cipherKey (4 * i)

/-- `aes_internal_key_setup_enc`: `rk`, and the number of rounds. -/
def aesInternalKeySetupEnc (cipherKey : List UInt8) (keyBits : ℕ) : List UInt32 × ℕ :=
  if keyBits = 128 then ((List.range 10).foldl expand128 (keyWords cipherKey 4), 10)
  else if keyBits = 192 then
    let rk := (List.range 7).foldl (fun rk i => expand192' (expand192 rk i) i)
      (keyWords cipherKey 6)
    (expand192 rk 7, 12)
  else if keyBits = 256 then
    let rk := (List.range 6).foldl (fun rk i => expand256' (expand256 rk i) i)
      (keyWords cipherKey 8)
    (expand256 rk 6, 14)
  else (keyWords cipherKey 8, 0)

/-- Two round keys change their places. -/
def swapKeys (rk : List UInt32) (i j : ℕ) : List UInt32 :=
  (List.range 4).foldl (fun rk k =>
    let temp := rk.getD (i + k) 0
    (rk.set (i + k) (rk.getD (j + k) 0)).set (j + k) temp) rk

/-- The loop that inverts the order of the round keys, while `i < j`. -/
def invertOrder : ℕ → List UInt32 → ℕ → ℕ → List UInt32
  | 0, rk, _, _ => rk
  | n + 1, rk, i, j => if i < j then invertOrder n (swapKeys rk i j) (i + 4) (j - 4) else rk

/-- `INVMIXCOLRK`. -/
def invMixColRk (w : UInt32) : UInt32 :=
  look td0 (b0 (look te4 (b3 w))) ^^^ look td1 (b0 (look te4 (b2 w))) ^^^
    look td2 (b0 (look te4 (b1 w))) ^^^ look td3 (b0 (look te4 (b0 w)))

/-- The words of a round key are mixed. -/
def mixKey (rk : List UInt32) (i : ℕ) : List UInt32 :=
  (List.range 4).foldl (fun rk n =>
    rk.set (4 * i + n) (invMixColRk (rk.getD (4 * i + n) 0))) rk

/-- `aes_internal_key_setup_dec`. -/
def aesInternalKeySetupDec (cipherKey : List UInt8) (keyBits : ℕ) : List UInt32 × ℕ :=
  let (rk, nr) := aesInternalKeySetupEnc cipherKey keyBits
  -- invert the order of the round keys
  let rk := invertOrder (4 * nr) rk 0 (4 * nr)
  -- apply the inverse MixColumn transform to all round keys but the first and the last
  ((List.range' 1 (nr - 1)).foldl mixKey rk, nr)

/-! ### A block -/

/-- The round key with a number. -/
def keyAt (rk : List UInt32) (round : ℕ) : State :=
  ⟨rk.getD (4 * round) 0, rk.getD (4 * round + 1) 0, rk.getD (4 * round + 2) 0,
    rk.getD (4 * round + 3) 0⟩

/-- The words of a block, the highest byte first. -/
def loadState (p : List UInt8) : State := ⟨be32At p 0, be32At p 4, be32At p 8, be32At p 12⟩

/-- The bytes of a block. -/
def storeState (s : State) : List UInt8 :=
  bytes32 s.c0 ++ (bytes32 s.c1 ++ (bytes32 s.c2 ++ bytes32 s.c3))

/-- A line of `AES_ENC_ROUND`. -/
def encLine (a b c d : UInt32) : UInt32 :=
  look te0 (b3 a) ^^^ look te1 (b2 b) ^^^ look te2 (b1 c) ^^^ look te3 (b0 d)

/-- `AES_ENC_ROUND`. -/
def aesEncRound (rk : List UInt32) (round : ℕ) (s : State) : State :=
  State.add ⟨encLine s.c0 s.c1 s.c2 s.c3, encLine s.c1 s.c2 s.c3 s.c0, encLine s.c2 s.c3 s.c0 s.c1,
    encLine s.c3 s.c0 s.c1 s.c2⟩ (keyAt rk round)

/-- A line of `AES_DEC_ROUND`. -/
def decLine (a b c d : UInt32) : UInt32 :=
  look td0 (b3 a) ^^^ look td1 (b2 b) ^^^ look td2 (b1 c) ^^^ look td3 (b0 d)

/-- `AES_DEC_ROUND`. -/
def aesDecRound (rk : List UInt32) (round : ℕ) (s : State) : State :=
  State.add ⟨decLine s.c0 s.c3 s.c2 s.c1, decLine s.c1 s.c0 s.c3 s.c2, decLine s.c2 s.c1 s.c0 s.c3,
    decLine s.c3 s.c2 s.c1 s.c0⟩ (keyAt rk round)

/-- The numbers of the rounds with tables. -/
def tableRounds (nr : ℕ) : List ℕ :=
  [1, 2, 3, 4, 5, 6, 7, 8, 9] ++
    if 10 < nr then [10, 11] ++ if 12 < nr then [12, 13] else [] else []

/-- A line of the last round, with the table `t`. -/
def lastLine (t : List UInt32) (a b c d : UInt32) : UInt32 :=
  (look t (b3 a) &&& 0xff000000) ^^^ (look t (b2 b) &&& 0x00ff0000) ^^^
    (look t (b1 c) &&& 0x0000ff00) ^^^ (look t (b0 d) &&& 0x000000ff)

/-- `aes_internal_encrypt`. -/
def aesInternalEncrypt (rk : List UInt32) (nr : ℕ) (pt : List UInt8) : List UInt8 :=
  let t := Rounds.run (aesEncRound rk) (tableRounds nr) ((loadState pt).add (keyAt rk 0))
  -- apply last round and map cipher state to byte array block
  storeState (State.add ⟨lastLine te4 t.c0 t.c1 t.c2 t.c3, lastLine te4 t.c1 t.c2 t.c3 t.c0,
    lastLine te4 t.c2 t.c3 t.c0 t.c1, lastLine te4 t.c3 t.c0 t.c1 t.c2⟩ (keyAt rk nr))

/-- `aes_internal_decrypt`. -/
def aesInternalDecrypt (rk : List UInt32) (nr : ℕ) (ct : List UInt8) : List UInt8 :=
  let t := Rounds.run (aesDecRound rk) (tableRounds nr) ((loadState ct).add (keyAt rk 0))
  -- apply last round and map cipher state to byte array block
  storeState (State.add ⟨lastLine td4 t.c0 t.c3 t.c2 t.c1, lastLine td4 t.c1 t.c0 t.c3 t.c2,
    lastLine td4 t.c2 t.c1 t.c0 t.c3, lastLine td4 t.c3 t.c2 t.c1 t.c0⟩ (keyAt rk nr))

/-! ### Modes -/

/-- `aes_context_t`. -/
structure Context where
  encRk : List UInt32
  decRk : List UInt32
  nr : ℕ

/-- `aes_init`, for a key of `keySize` bytes. -/
def aesInit (key : List UInt8) (keySize : ℕ) : Option Context :=
  if keySize = 16 ∨ keySize = 24 ∨ keySize = 32 then
    let (encRk, nr) := aesInternalKeySetupEnc key (8 * keySize)
    some ⟨encRk, (aesInternalKeySetupDec key (8 * keySize)).1, nr⟩
  else none

/-- `aes_ecb_decrypt`. -/
def aesEcbDecrypt (ctx : Context) (inp : List UInt8) : List UInt8 :=
  aesInternalDecrypt ctx.decRk ctx.nr inp

/-- `aes_ecb_encrypt`. -/
def aesEcbEncrypt (ctx : Context) (inp : List UInt8) : List UInt8 :=
  aesInternalEncrypt ctx.encRk ctx.nr inp

/-- `aes_cbc_encrypt`. -/
def aesCbcEncrypt (ctx : Context) (iv inp : List UInt8) : List UInt8 :=
  cbcEncryptLoop (aesInternalEncrypt ctx.encRk ctx.nr) (inp.length / 16) iv inp

/-- The loop of `aes_cbc_decrypt` over `n` blocks from the offset `i` on. -/
def cbcDecryptLoop (ctx : Context) : ℕ → ℕ → List UInt8 → InOut → InOut
  | 0, _, _, b => b
  | n + 1, i, tmp, b =>
    let old := b.get i 16
    let b := b.put i (aesInternalDecrypt ctx.decRk ctx.nr (b.get i 16))
    let b := b.put i (xorBytes (slice b.out i 16) tmp)
    cbcDecryptLoop ctx n (i + 16) old b

/-- `aes_cbc_decrypt`: what it returns, and the buffers. -/
def aesCbcDecrypt (ctx : Context) (inLen : ℕ) (iv : List UInt8) (b : InOut) : ℕ × InOut :=
  (inLen / 16 * 16, cbcDecryptLoop ctx (inLen / 16) 0 iv b)

/-! ### Rounds -/

/-- The masked entries of a table that repeats a byte. -/
theorem masked_eq {t : List UInt32} {f : UInt8 → UInt8}
    (ht : ∀ x, look t x = be32 (f x) (f x) (f x) (f x)) (a b c d : UInt8) :
    (look t a &&& 0xff000000) ^^^ (look t b &&& 0x00ff0000) ^^^ (look t c &&& 0x0000ff00) ^^^
      (look t d &&& 0x000000ff) = be32 (f a) (f b) (f c) (f d) := by
  rw [(and_mask _).1, (and_mask _).2.1, (and_mask _).2.2.1, (and_mask _).2.2.2]
  simp [ht, be32_xor]

theorem te4Masked_eq (a b c d : UInt8) :
    te4Masked a b c d = be32 (sbox.sub a) (sbox.sub b) (sbox.sub c) (sbox.sub d) :=
  masked_eq (fun x => (te_eq x).2.2) a b c d

theorem lastLine_te4 (a b c d : UInt32) : lastLine te4 a b c d =
    be32 (sbox.sub (b3 a)) (sbox.sub (b2 b)) (sbox.sub (b1 c)) (sbox.sub (b0 d)) :=
  masked_eq (fun x => (te_eq x).2.2) ..

theorem lastLine_td4 (a b c d : UInt32) : lastLine td4 a b c d =
    be32 (sbox.invSub (b3 a)) (sbox.invSub (b2 b)) (sbox.invSub (b1 c)) (sbox.invSub (b0 d)) :=
  masked_eq (fun x => (td_eq x).2.2) ..

/-- **A line is a mixed column of substituted bytes.** -/
theorem encLine_eq (a b c d : UInt32) : encLine a b c d =
    mixColumn (be32 (sbox.sub (b3 a)) (sbox.sub (b2 b)) (sbox.sub (b1 c)) (sbox.sub (b0 d))) := by
  rw [linear_be32 mixColumn_xor, encLine, (te_eq _).1.1, (te_eq _).1.2, (te_eq _).2.1.1,
    (te_eq _).2.1.2, UInt32.xor_assoc]

theorem decLine_eq (a b c d : UInt32) : decLine a b c d = invMixColumn
    (be32 (sbox.invSub (b3 a)) (sbox.invSub (b2 b)) (sbox.invSub (b1 c)) (sbox.invSub (b0 d))) := by
  rw [linear_be32 invMixColumn_xor, decLine, (td_eq _).1.1, (td_eq _).1.2, (td_eq _).2.1.1,
    (td_eq _).2.1.2, UInt32.xor_assoc]

/-- **A round with tables is a round of the standard.** -/
theorem aesEncRound_eq (rk : List UInt32) : aesEncRound rk = Rijndael.round sbox (keyAt rk) := by
  funext r s
  simp [aesEncRound, Rijndael.round, encLine_eq, State.mix, State.map, State.shift, State.sub,
    onBytes]

theorem aesDecRound_eq (rk : List UInt32) : aesDecRound rk = eqInvRound sbox (keyAt rk) := by
  funext r s
  simp [aesDecRound, eqInvRound, decLine_eq, State.invMix, State.map, State.invShift, State.sub,
    onBytes]

theorem tableRounds_eq {nr : ℕ} (h : nr = 10 ∨ nr = 12 ∨ nr = 14) : tableRounds nr = middle nr := by
  rcases h with rfl | rfl | rfl <;> rfl

/-- **The tables encrypt as the standard says.** -/
theorem aesInternalEncrypt_eq (rk : List UInt32) {nr : ℕ} (h : nr = 10 ∨ nr = 12 ∨ nr = 14)
    (p : List UInt8) :
    aesInternalEncrypt rk nr p = storeState (cipher sbox nr (keyAt rk) (loadState p)) := by
  rw [aesInternalEncrypt, cipher, tableRounds_eq h, aesEncRound_eq]
  simp [lastLine_te4, State.shift, State.sub, State.map, onBytes]

/-- **The tables decrypt as the standard says**, with the keys mixed beforehand. -/
theorem aesInternalDecrypt_eq (rk : List UInt32) {nr : ℕ} (h : nr = 10 ∨ nr = 12 ∨ nr = 14)
    (c : List UInt8) :
    aesInternalDecrypt rk nr c = storeState (eqInvCipher sbox nr (keyAt rk) (loadState c)) := by
  rw [aesInternalDecrypt, eqInvCipher, tableRounds_eq h, aesDecRound_eq]
  simp [lastLine_td4, State.invShift, State.sub, State.map, onBytes]

@[simp] theorem loadState_storeState (s : State) : loadState (storeState s) = s := by
  have h0 := be32At_bytes32 s.c0 (bytes32 s.c1 ++ (bytes32 s.c2 ++ bytes32 s.c3))
  have h1 := be32At_bytes32 s.c1 (bytes32 s.c2 ++ bytes32 s.c3)
  have h2 := be32At_bytes32 s.c2 (bytes32 s.c3)
  have h3 := be32At_bytes32 s.c3 []
  rw [List.append_nil] at h3
  rw [loadState, show be32At (storeState s) 0 = s.c0 from h0,
    show be32At (storeState s) 4 = s.c1 from h1, show be32At (storeState s) 8 = s.c2 from h2,
    show be32At (storeState s) 12 = s.c3 from h3]

theorem storeState_loadState {p : List UInt8} (hp : p.length = 16) :
    storeState (loadState p) = p := by
  simp only [storeState, loadState, bytes32_be32At]
  rw [← slice_add, ← slice_add, ← slice_add]
  exact slice_all hp

/-! ### The expanded key -/

section

variable (key : List UInt8) (nk : ℕ)

/-- A word of the expanded key of the standard. -/
def word (i : ℕ) : UInt32 := keyWord sbox (fun i => be32At key (4 * i)) nk i

/-- The first `n` words. -/
def words (n : ℕ) : List UInt32 := (List.range n).map (word key nk)

variable {key nk} {i j n : ℕ}

theorem getD_words (h : i < n) : (words key nk n).getD i 0 = word key nk i := by
  simp [words, h]

@[simp] theorem length_words (n : ℕ) : (words key nk n).length = n := by simp [words]

theorem words_succ (n : ℕ) : words key nk (n + 1) = words key nk n ++ [word key nk n] := by
  simp [words, List.range_succ]

/-- The words of the key come first. -/
theorem keyWords_eq : keyWords key nk = words key nk nk := by
  apply List.map_congr_left
  intro i hi
  exact (keyWord_of_lt sbox (fun i => be32At key (4 * i)) (List.mem_range.mp hi)).symm

theorem word_of_le (key : List UInt8) {nk : ℕ} (hnk : 0 < nk) (i j : ℕ) :
    word key nk (nk * i + nk + j) = word key nk (nk * i + j) ^^^
      keyTemp sbox nk (nk * i + nk + j) (word key nk (nk * i + nk + j - 1)) := by
  rw [word, keyWord_of_le sbox _ hnk (by omega), Nat.add_right_comm, Nat.add_sub_cancel]
  rfl

theorem mod_of_lt (i : ℕ) (h : j < nk) : (nk * i + nk + j) % nk = j := by
  rw [← Nat.mul_succ, Nat.mul_add_mod, Nat.mod_eq_of_lt h]

/-- A word that is only added to the one before. -/
theorem word_add (key : List UInt8) (nk i j : ℕ) (hj : 0 < j) (hj' : j < nk) (h : nk ≤ 6 ∨ j ≠ 4) :
    word key nk (nk * i + j) ^^^ word key nk (nk * i + nk + j - 1) =
      word key nk (nk * i + nk + j) := by
  rw [word_of_le key (by omega), keyTemp, mod_of_lt i hj', if_neg (by omega), if_neg (by omega)]

/-- The constants are the powers of `x`. -/
theorem rcon_eq {i : ℕ} (h : i < 10) : rcon.getD i 0 = rconWord (i + 1) := by
  interval_cases i <;> rfl

/-- The first word of the next ones. -/
theorem word_first (key : List UInt8) (nk i : ℕ) (hnk : 0 < nk) :
    word key nk (nk * i) ^^^ (onBytes sbox.sub (rotWord (word key nk (nk * i + nk - 1))) ^^^
      rconWord (i + 1)) = word key nk (nk * i + nk) := by
  have hword := word_of_le key hnk i 0
  have hmod := mod_of_lt (j := 0) i hnk
  have hdiv : (nk * i + nk) / nk = i + 1 := by
    rw [← Nat.mul_succ, Nat.mul_div_cancel_left _ hnk]
  simp only [Nat.add_zero] at hword hmod
  rw [hword, keyTemp, if_pos hmod, hdiv]

/-- **The first word of the next ones is that of the standard.** -/
theorem firstWord_eq (key : List UInt8) (nk : ℕ) (hnk : 0 < nk) (hi : i < 10) :
    firstWord (word key nk (nk * i)) (word key nk (nk * i + nk - 1)) i =
      word key nk (nk * i + nk) := by
  rw [← word_first key nk i hnk, firstWord, te4Masked_eq, rcon_eq hi, UInt32.xor_assoc]
  simp [onBytes, rotWord]

/-- The fifth of eight words is substituted once more. -/
theorem word_sub (key : List UInt8) (nk i : ℕ) (h : 6 < nk) :
    word key nk (nk * i + 4) ^^^ onBytes sbox.sub (word key nk (nk * i + nk + 3)) =
      word key nk (nk * i + nk + 4) := by
  rw [word_of_le key (by omega) i 4, keyTemp, mod_of_lt i (by omega), if_neg (by omega),
    if_pos ⟨h, rfl⟩]
  rfl

/-- **Four more words** of a key of four. -/
theorem expand128_words (hi : i < 10) :
    expand128 (words key 4 (4 * i + 4)) i = words key 4 (4 * (i + 1) + 4) := by
  have h4 := firstWord_eq key 4 (by decide) hi
  have h5 := word_add key 4 i 1 (by decide) (by decide) (by decide)
  have h6 := word_add key 4 i 2 (by decide) (by decide) (by decide)
  have h7 := word_add key 4 i 3 (by decide) (by decide) (by decide)
  simp only [Nat.add_assoc, Nat.reduceAdd, Nat.add_sub_assoc, Nat.reduceSub, Nat.reduceLeDiff]
    at h4 h5 h6 h7
  simp (disch := omega) only [expand128, getD_words, Nat.add_zero, h4, h5, h6, h7]
  simp only [Nat.mul_succ, words_succ, List.append_assoc, List.cons_append, List.nil_append]

/-- **Six more words** of a key of six, of which the last ones may be left out. -/
theorem expand192_words (hi : i < 10) :
    expand192 (words key 6 (6 * i + 6)) i = words key 6 (6 * i + 10) := by
  have h6 := firstWord_eq key 6 (by decide) hi
  have h7 := word_add key 6 i 1 (by decide) (by decide) (by decide)
  have h8 := word_add key 6 i 2 (by decide) (by decide) (by decide)
  have h9 := word_add key 6 i 3 (by decide) (by decide) (by decide)
  simp only [Nat.add_assoc, Nat.reduceAdd, Nat.add_sub_assoc, Nat.reduceSub, Nat.reduceLeDiff]
    at h6 h7 h8 h9
  simp (disch := omega) only [expand192, getD_words, Nat.add_zero, h6, h7, h8, h9]
  simp only [words_succ, List.append_assoc, List.cons_append, List.nil_append]

theorem expand192'_words (i : ℕ) :
    expand192' (words key 6 (6 * i + 10)) i = words key 6 (6 * (i + 1) + 6) := by
  have h10 := word_add key 6 i 4 (by decide) (by decide) (by decide)
  have h11 := word_add key 6 i 5 (by decide) (by decide) (by decide)
  simp only [Nat.add_assoc, Nat.reduceAdd, Nat.add_sub_assoc, Nat.reduceSub, Nat.reduceLeDiff]
    at h10 h11
  simp (disch := omega) only [expand192', getD_words, h10, h11]
  simp only [Nat.mul_succ, words_succ, List.append_assoc, List.cons_append, List.nil_append]

/-- **Eight more words** of a key of eight, of which the last ones may be left out. -/
theorem expand256_words (hi : i < 10) :
    expand256 (words key 8 (8 * i + 8)) i = words key 8 (8 * i + 12) := by
  have h8 := firstWord_eq key 8 (by decide) hi
  have h9 := word_add key 8 i 1 (by decide) (by decide) (by decide)
  have h10 := word_add key 8 i 2 (by decide) (by decide) (by decide)
  have h11 := word_add key 8 i 3 (by decide) (by decide) (by decide)
  simp only [Nat.add_assoc, Nat.reduceAdd, Nat.add_sub_assoc, Nat.reduceSub, Nat.reduceLeDiff]
    at h8 h9 h10 h11
  simp (disch := omega) only [expand256, getD_words, Nat.add_zero, h8, h9, h10, h11]
  simp only [words_succ, List.append_assoc, List.cons_append, List.nil_append]

theorem expand256'_words (i : ℕ) :
    expand256' (words key 8 (8 * i + 12)) i = words key 8 (8 * (i + 1) + 8) := by
  have h12 := word_sub key 8 i (by decide)
  have h13 := word_add key 8 i 5 (by decide) (by decide) (by decide)
  have h14 := word_add key 8 i 6 (by decide) (by decide) (by decide)
  have h15 := word_add key 8 i 7 (by decide) (by decide) (by decide)
  have hsub : ∀ t, te4Masked (b3 t) (b2 t) (b1 t) (b0 t) = onBytes sbox.sub t := fun t =>
    te4Masked_eq ..
  simp only [Nat.add_assoc, Nat.reduceAdd, Nat.add_sub_assoc, Nat.reduceSub, Nat.reduceLeDiff]
    at h12 h13 h14 h15
  simp (disch := omega) only [expand256', getD_words, hsub, h12, h13, h14, h15]
  simp only [Nat.mul_succ, words_succ, List.append_assoc, List.cons_append, List.nil_append]

end

/-- A loop whose turns go from one state of a sequence to the next one. -/
theorem foldl_range {α : Type} {f : α → ℕ → α} {g : ℕ → α} {n : ℕ}
    (h : ∀ i < n, f (g i) i = g (i + 1)) : (List.range n).foldl f (g 0) = g n := by
  induction n with
  | zero => rfl
  | succ n ih =>
    rw [List.range_succ, List.foldl_append, ih fun i hi => h i (by omega)]
    exact h n (by omega)

/-- The number of words of a key, of a number of bits. -/
theorem keySetupEnc_eq (key : List UInt8) {nk : ℕ} (h : nk = 4 ∨ nk = 6 ∨ nk = 8) :
    aesInternalKeySetupEnc key (32 * nk) = (words key nk (4 * (nk + 7)), nk + 6) := by
  rcases h with rfl | rfl | rfl
  · have hloop := foldl_range (g := fun i => words key 4 (4 * i + 4)) (f := expand128) (n := 10)
      fun i hi => expand128_words hi
    rw [aesInternalKeySetupEnc, if_pos rfl, keyWords_eq]
    exact congrArg (·, 10) hloop
  · have hloop := foldl_range (g := fun i => words key 6 (6 * i + 6)) (n := 7)
      (f := fun rk i => expand192' (expand192 rk i) i)
      fun i hi => by rw [expand192_words (by omega), expand192'_words]
    rw [aesInternalKeySetupEnc, if_neg (by decide), if_pos rfl, keyWords_eq]
    exact congrArg (·, 12) ((congrArg (expand192 · 7) hloop).trans (expand192_words (by decide)))
  · have hloop := foldl_range (g := fun i => words key 8 (8 * i + 8)) (n := 6)
      (f := fun rk i => expand256' (expand256 rk i) i)
      fun i hi => by rw [expand256_words (by omega), expand256'_words]
    rw [aesInternalKeySetupEnc, if_neg (by decide), if_neg (by decide), if_pos rfl, keyWords_eq]
    exact congrArg (·, 14) ((congrArg (expand256 · 6) hloop).trans (expand256_words (by decide)))

/-! ### The expanded key for decryption -/

section

variable {rk : List UInt32} {i j k n : ℕ}

theorem getD_set (h : i < rk.length) (v : UInt32) :
    (rk.set i v).getD k 0 = if k = i then v else rk.getD k 0 := by
  rcases eq_or_ne k i with rfl | hk
  · simp [List.getD_eq_getElem?_getD, h]
  · simp [List.getD_eq_getElem?_getD, hk, hk.symm]

theorem keyAt_congr {rk' : List UInt32} {r r' : ℕ}
    (h : ∀ t < 4, rk.getD (4 * r + t) 0 = rk'.getD (4 * r' + t) 0) : keyAt rk r = keyAt rk' r' := by
  have h0 := h 0 (by decide)
  have h1 := h 1 (by decide)
  have h2 := h 2 (by decide)
  have h3 := h 3 (by decide)
  rw [Nat.add_zero, Nat.add_zero] at h0
  rw [keyAt, h0, h1, h2, h3, keyAt]

/-- Where a word was before `m` words from `i` and from `j` on change their places. -/
def swapped (m i j k : ℕ) : ℕ :=
  if i ≤ k ∧ k < i + m then k + j - i else if j ≤ k ∧ k < j + m then k + i - j else k

/-- The words of two round keys have changed their places. -/
theorem swapKeys_spec (hij : i + 4 ≤ j) (hj : j + 4 ≤ rk.length) :
    (swapKeys rk i j).length = rk.length ∧
      ∀ k, (swapKeys rk i j).getD k 0 = rk.getD (swapped 4 i j k) 0 := by
  let step (rk : List UInt32) (k : ℕ) :=
    (rk.set (i + k) (rk.getD (j + k) 0)).set (j + k) (rk.getD (i + k) 0)
  have hloop : ∀ m ≤ 4, ((List.range m).foldl step rk).length = rk.length ∧
      ∀ k, ((List.range m).foldl step rk).getD k 0 = rk.getD (swapped m i j k) 0 := by
    intro m hm
    induction m with
    | zero =>
      refine ⟨rfl, fun k => ?_⟩
      rw [swapped, if_neg (by omega), if_neg (by omega)]
      rfl
    | succ m ih =>
      obtain ⟨hlen, hget⟩ := ih (by omega)
      rw [List.range_succ, List.foldl_append, List.foldl_cons, List.foldl_nil]
      generalize (List.range m).foldl step rk = rk' at hlen hget
      refine ⟨by simp [step, hlen], fun k => ?_⟩
      have hj' : j + m < (rk'.set (i + m) (rk'.getD (j + m) 0)).length := by
        rw [List.length_set]
        omega
      rw [getD_set hj', getD_set (by omega), hget, hget, hget]
      unfold swapped
      split_ifs <;> first | rfl | omega | exact congrArg (rk.getD · 0) (by omega)
  exact hloop 4 le_rfl

/-- Two round keys have changed their places. -/
theorem keyAt_swapKeys {a b : ℕ} (hab : a < b) (hb : 4 * b + 4 ≤ rk.length) (r : ℕ) :
    keyAt (swapKeys rk (4 * a) (4 * b)) r =
      keyAt rk (if r = a then b else if r = b then a else r) := by
  obtain ⟨-, hget⟩ := swapKeys_spec (by omega : 4 * a + 4 ≤ 4 * b) hb
  apply keyAt_congr
  intro t ht
  rw [hget]
  apply congrArg (rk.getD · 0)
  unfold swapped
  split_ifs <;> omega

/-- **The order of the round keys is inverted.** -/
theorem invertOrder_spec (rk : List UInt32) {a b n : ℕ} (hn : b < a + n)
    (hb : 4 * b + 4 ≤ rk.length) :
    (invertOrder n rk (4 * a) (4 * b)).length = rk.length ∧
      ∀ r, keyAt (invertOrder n rk (4 * a) (4 * b)) r =
        keyAt rk (if a ≤ r ∧ r ≤ b then a + b - r else r) := by
  induction n generalizing rk a b with
  | zero =>
    refine ⟨rfl, fun r => ?_⟩
    rw [if_neg (by omega)]
    rfl
  | succ n ih =>
    by_cases hab : a < b
    · have hlen := (swapKeys_spec (by omega : 4 * a + 4 ≤ 4 * b) hb).1
      obtain ⟨hlen', hkeys⟩ := ih (swapKeys rk (4 * a) (4 * b)) (a := a + 1) (b := b - 1)
        (by omega) (by omega)
      rw [invertOrder, if_pos (by omega), ← Nat.mul_succ, ← Nat.mul_sub_one]
      refine ⟨hlen'.trans hlen, fun r => ?_⟩
      rw [hkeys, keyAt_swapKeys hab hb]
      grind
    · rw [invertOrder, if_neg (by omega)]
      refine ⟨rfl, fun r => ?_⟩
      split_ifs with hr
      · rw [show a + b - r = r by omega]
      · rfl

/-- **A word of a round key is mixed.** -/
theorem invMixColRk_eq (w : UInt32) : invMixColRk w = invMixColumn w := by
  have hsub : ∀ x, sbox.invSub (b0 (look te4 x)) = x := sbox.invSub_sub
  rw [invMixColRk, (td_eq _).1.1, (td_eq _).1.2, (td_eq _).2.1.1, (td_eq _).2.1.2, hsub, hsub, hsub,
    hsub, UInt32.xor_assoc, ← linear_be32 invMixColumn_xor, be32_b]

/-- Words one after the other are exchanged for others that depend on them. -/
theorem foldl_set_spec (f : UInt32 → UInt32) (hi : i + n ≤ rk.length) :
    ((List.range n).foldl (fun rk n => rk.set (i + n) (f (rk.getD (i + n) 0))) rk).length =
        rk.length ∧
      ∀ k, ((List.range n).foldl (fun rk n => rk.set (i + n) (f (rk.getD (i + n) 0))) rk).getD k 0 =
        if i ≤ k ∧ k < i + n then f (rk.getD k 0) else rk.getD k 0 := by
  induction n with
  | zero => exact ⟨rfl, fun k => by rw [if_neg (by omega)]; rfl⟩
  | succ n ih =>
    obtain ⟨hlen, hget⟩ := ih (by omega)
    rw [List.range_succ, List.foldl_append, List.foldl_cons, List.foldl_nil]
    generalize (List.range n).foldl _ rk = rk' at hlen hget
    refine ⟨by rw [List.length_set, hlen], fun k => ?_⟩
    rw [getD_set (by omega), hget, hget]
    grind

end

/-! ### The context -/

section

variable {rk : List UInt32} {i nk : ℕ} {key : List UInt8}

/-- A round key is mixed. -/
theorem mixKey_spec (h : 4 * i + 4 ≤ rk.length) : (mixKey rk i).length = rk.length ∧
    ∀ r, keyAt (mixKey rk i) r = if r = i then (keyAt rk i).invMix else keyAt rk r := by
  obtain ⟨hlen, hget⟩ := foldl_set_spec invMixColRk h
  refine ⟨hlen, fun r => ?_⟩
  rcases eq_or_ne r i with rfl | hr
  · have hmixed : ∀ t < 4, (mixKey rk r).getD (4 * r + t) 0 =
        invMixColumn (rk.getD (4 * r + t) 0) := by
      intro t ht
      rw [mixKey, hget, if_pos (by omega), invMixColRk_eq]
    have hfirst := hmixed 0 (by decide)
    rw [Nat.add_zero] at hfirst
    rw [if_pos rfl, keyAt, hfirst, hmixed 1 (by decide), hmixed 2 (by decide),
      hmixed 3 (by decide)]
    rfl
  · rw [if_neg hr]
    apply keyAt_congr
    intro t ht
    rw [mixKey, hget, if_neg (by omega)]

/-- **Round keys are mixed one after the other.** -/
theorem mixKeys_spec {rs : List ℕ} (hrs : rs.Nodup) (h : ∀ r ∈ rs, 4 * r + 4 ≤ rk.length) (r : ℕ) :
    keyAt (rs.foldl mixKey rk) r = if r ∈ rs then (keyAt rk r).invMix else keyAt rk r := by
  induction rs generalizing rk with
  | nil => rfl
  | cons i rs ih =>
    obtain ⟨hi, hrs⟩ := List.nodup_cons.mp hrs
    obtain ⟨hlen, hkeys⟩ := mixKey_spec (h i List.mem_cons_self)
    rw [List.foldl_cons, ih hrs fun r hr => hlen ▸ h r (List.mem_cons_of_mem _ hr), hkeys]
    rcases eq_or_ne r i with rfl | hr
    · simp [hi]
    · simp [hr]

/-- The key of a round, as the standard has it. -/
def keyOf (key : List UInt8) (nk : ℕ) : ℕ → State := roundKey sbox (fun i => be32At key (4 * i)) nk

theorem keyAt_words {r : ℕ} (h : r ≤ nk + 6) :
    keyAt (words key nk (4 * (nk + 7))) r = keyOf key nk r := by
  rw [keyAt, getD_words (by omega), getD_words (by omega), getD_words (by omega),
    getD_words (by omega)]
  rfl

/-- **The expanded key for decryption**: in the opposite order, and mixed but for the first and the
last one. -/
theorem keySetupDec_eq (h : nk = 4 ∨ nk = 6 ∨ nk = 8) {r : ℕ} (hr : r ≤ nk + 6) :
    keyAt (aesInternalKeySetupDec key (32 * nk)).1 r =
      if 0 < r ∧ r < nk + 6 then (keyOf key nk (nk + 6 - r)).invMix
      else keyOf key nk (nk + 6 - r) := by
  obtain ⟨hlen, hkeys⟩ := invertOrder_spec (words key nk (4 * (nk + 7))) (a := 0) (b := nk + 6)
    (n := 4 * (nk + 6)) (by omega) (by rw [length_words]; omega)
  rw [length_words] at hlen
  have hrange : ∀ r ∈ List.range' 1 (nk + 6 - 1), 1 ≤ r ∧ r < nk + 6 := fun r hr => by
    rw [List.mem_range'_1] at hr
    omega
  rw [aesInternalKeySetupDec, keySetupEnc_eq key h]
  dsimp only
  rw [mixKeys_spec List.nodup_range' fun r hr => by
    rw [hlen]
    have := hrange r hr
    omega]
  have hback : keyAt (invertOrder (4 * (nk + 6)) (words key nk (4 * (nk + 7))) 0 (4 * (nk + 6))) r =
      keyOf key nk (nk + 6 - r) := by
    rw [← Nat.mul_zero 4, hkeys, if_pos ⟨Nat.zero_le _, hr⟩, Nat.zero_add, keyAt_words (by omega)]
  rw [hback]
  refine if_congr ?_ rfl rfl
  rw [List.mem_range'_1]
  omega

/-- A context has the expanded keys of a key of `nk` words. -/
structure Context.Keyed (ctx : Context) (key : List UInt8) (nk : ℕ) : Prop where
  size : nk = 4 ∨ nk = 6 ∨ nk = 8
  rounds : ctx.nr = nk + 6
  encKeys : ∀ r ≤ ctx.nr, keyAt ctx.encRk r = keyOf key nk r
  decKeys : ∀ r ≤ ctx.nr, keyAt ctx.decRk r =
    if 0 < r ∧ r < ctx.nr then (keyOf key nk (ctx.nr - r)).invMix else keyOf key nk (ctx.nr - r)

/-- A context is made from every key of one of the lengths. -/
theorem exists_aesInit (key : List UInt8) {keySize : ℕ}
    (h : keySize = 16 ∨ keySize = 24 ∨ keySize = 32) : ∃ ctx, aesInit key keySize = some ctx :=
  ⟨_, if_pos h⟩

/-- **A context that has been made is keyed.** -/
theorem keyed_aesInit {keySize : ℕ} {ctx : Context} (h : aesInit key keySize = some ctx) :
    ctx.Keyed key (keySize / 4) := by
  rw [aesInit] at h
  split_ifs at h with hsize
  obtain ⟨nk, hnk, rfl⟩ : ∃ nk, (nk = 4 ∨ nk = 6 ∨ nk = 8) ∧ keySize = 4 * nk :=
    ⟨keySize / 4, by omega, by omega⟩
  rw [show 8 * (4 * nk) = 32 * nk by omega, keySetupEnc_eq key hnk] at h
  obtain rfl := Option.some.inj h
  rw [Nat.mul_div_cancel_left nk (by decide)]
  exact ⟨hnk, rfl, fun r hr => keyAt_words hr, fun r hr => keySetupDec_eq hnk hr⟩

variable {ctx : Context}

theorem Context.Keyed.tables (h : ctx.Keyed key nk) : ctx.nr = 10 ∨ ctx.nr = 12 ∨ ctx.nr = 14 := by
  have hrounds := h.rounds
  have hsize := h.size
  omega

/-- The cipher of the standard, on the bytes of a block. -/
def standard (key : List UInt8) (nk : ℕ) (p : List UInt8) : List UInt8 :=
  storeState (cipher sbox (nk + 6) (keyOf key nk) (loadState p))

/-- Its inverse. -/
def invStandard (key : List UInt8) (nk : ℕ) (c : List UInt8) : List UInt8 :=
  storeState (invCipher sbox (nk + 6) (keyOf key nk) (loadState c))

theorem Context.Keyed.encrypt (h : ctx.Keyed key nk) (p : List UInt8) :
    aesEcbEncrypt ctx p = standard key nk p := by
  rw [aesEcbEncrypt, aesInternalEncrypt_eq _ h.tables, cipher_congr sbox h.encKeys, h.rounds]
  rfl

theorem Context.Keyed.decrypt (h : ctx.Keyed key nk) (c : List UInt8) :
    aesEcbDecrypt ctx c = invStandard key nk c := by
  have hpos : 0 < ctx.nr := by
    have hrounds := h.rounds
    omega
  have hfirst : keyAt ctx.decRk 0 = keyOf key nk ctx.nr := by
    rw [h.decKeys 0 (Nat.zero_le _), if_neg (by omega), Nat.sub_zero]
  have hlast : keyAt ctx.decRk ctx.nr = keyOf key nk 0 := by
    rw [h.decKeys _ le_rfl, if_neg (by omega), Nat.sub_self]
  have hmid : ∀ r, 0 < r → r < ctx.nr → keyAt ctx.decRk r = (keyOf key nk (ctx.nr - r)).invMix :=
    fun r hr hr' => by rw [h.decKeys r hr'.le, if_pos ⟨hr, hr'⟩]
  rw [aesEcbDecrypt, aesInternalDecrypt_eq _ h.tables,
    eqInvCipher_eq sbox (keyOf key nk) hpos hfirst hlast hmid, h.rounds]
  rfl

theorem invStandard_standard (key : List UInt8) (nk : ℕ) {p : List UInt8} (hp : p.length = 16) :
    invStandard key nk (standard key nk p) = p := by
  rw [invStandard, standard, loadState_storeState, invCipher_cipher, storeState_loadState hp]

/-- **The tables do what the standard says**, with the key that the context was made from. -/
theorem aesEcb_standard {keySize : ℕ} (h : aesInit key keySize = some ctx) (p : List UInt8) :
    aesEcbEncrypt ctx p = standard key (keySize / 4) p ∧
      aesEcbDecrypt ctx p = invStandard key (keySize / 4) p :=
  ⟨(keyed_aesInit h).encrypt p, (keyed_aesInit h).decrypt p⟩

theorem aesEcb_standard_zero : ∃ ctx, aesInit (List.replicate 24 0) 24 = some ctx ∧
    aesEcbEncrypt ctx (List.replicate 16 0) =
      standard (List.replicate 24 0) (24 / 4) (List.replicate 16 0) ∧
    aesEcbDecrypt ctx (List.replicate 16 0) =
      invStandard (List.replicate 24 0) (24 / 4) (List.replicate 16 0) := by
  obtain ⟨ctx, hctx⟩ := exists_aesInit (List.replicate 24 0) (Or.inr (Or.inl rfl))
  exact ⟨ctx, hctx, aesEcb_standard hctx _⟩

end

/-! ### The CBC mode -/

/-- A block is encrypted. -/
def enc (ctx : Context) (p : Block) : Block :=
  ⟨aesInternalEncrypt ctx.encRk ctx.nr p.toList, rfl⟩

/-- A block is decrypted. -/
def dec (ctx : Context) (c : Block) : Block :=
  ⟨aesInternalDecrypt ctx.decRk ctx.nr c.toList, rfl⟩

/-- **Decryption undoes encryption.** -/
theorem Context.Keyed.dec_enc {ctx : Context} {key : List UInt8} {nk : ℕ} (h : ctx.Keyed key nk)
    (p : Block) : dec ctx (enc ctx p) = p := by
  have hback : aesEcbDecrypt ctx (aesEcbEncrypt ctx p.toList) = p.toList := by
    rw [h.encrypt, h.decrypt, invStandard_standard key nk p.toList_length]
  exact List.Vector.eq _ _ hback

theorem aesCbcEncrypt_eq (ctx : Context) (iv : Block) (ps : List Block) :
    aesCbcEncrypt ctx iv.toList (Cbc.flat ps) = Cbc.flat (Cbc.encrypt blockXor (enc ctx) iv ps) :=
  cbcEncryptLoop_eq (fun _ => rfl) iv ps

/-- **One block after the other is decrypted.** -/
theorem cbcDecryptLoop_stored (ctx : Context) {b : InOut} {n i : ℕ} {cs : List Block}
    (hb : b.Holds n) (hi : i + 16 * cs.length ≤ n)
    (hget : b.get i (16 * cs.length) = Cbc.flat cs) (iv : Block) :
    InOut.Stored b (cbcDecryptLoop ctx cs.length i iv.toList b) n i
      (Cbc.flat (Cbc.decrypt blockXor (dec ctx) iv cs)) := by
  induction cs generalizing b i iv with
  | nil => exact InOut.stored_nil hb i
  | cons c cs ih =>
    rw [List.length_cons] at hi
    obtain ⟨hfirst, hrest⟩ := get_flat hget
    have hlen : ∀ x : Block, x.toList.length = 16 := fun x => x.toList_length
    -- the block is stored, and once more with the one before it
    have h1 := InOut.stored_put (i := i) (p := (dec ctx c).toList) hb (by rw [hlen]; omega)
    have hwritten := h1.written
    rw [hlen] at hwritten
    have h2 := InOut.stored_put (i := i) (p := (blockXor (dec ctx c) iv).toList) h1.holds
      (by rw [hlen]; omega)
    have hstep := h1.over h2 (by rw [hlen, hlen])
    have hrun := ih hstep.holds (by omega) ((hstep.kept (by rw [hlen]; omega)).trans hrest) c
    rw [List.length_cons, cbcDecryptLoop, hfirst]
    show InOut.Stored b (cbcDecryptLoop ctx cs.length (i + 16) c.toList
      ((b.put i (dec ctx c).toList).put i (xorBytes (slice (b.put i (dec ctx c).toList).out i 16)
        iv.toList))) n i _
    rw [hwritten]
    exact hstep.behind hrun (by rw [hlen])

theorem aesCbcDecrypt_decrypts (ctx : Context) :
    CbcDecrypts (dec ctx) fun n iv b => (aesCbcDecrypt ctx n iv b).2 := by
  intro iv cs b hb hget
  have hdiv : 16 * cs.length / 16 = cs.length := by omega
  show InOut.Stored b (cbcDecryptLoop ctx (16 * cs.length / 16) 0 iv.toList b) _ 0 _
  rw [hdiv]
  exact cbcDecryptLoop_stored ctx hb (by rw [Nat.zero_add]) hget iv

/-- The library as the transform calls it, with one buffer where it decrypts. -/
def aes (ctx : Context) : CtsCipher where
  ecbDecrypt := aesEcbDecrypt ctx
  cbcEncrypt := aesCbcEncrypt ctx
  cbcDecrypt := fun iv p => (aesCbcDecrypt ctx p.length iv (.same p)).2.out

/-- **AES is a block cipher in CBC mode**, for every key that a context is made from. -/
theorem aes_implements {ctx : Context} {key : List UInt8} {keySize : ℕ}
    (h : aesInit key keySize = some ctx) : (aes ctx).Implements (enc ctx) (dec ctx) where
  dec_enc := (keyed_aesInit h).dec_enc
  ecbDecrypt := fun _ => rfl
  cbcEncrypt := aesCbcEncrypt_eq ctx
  cbcDecrypt := (aesCbcDecrypt_decrypts ctx).same

/-- **What the one side encrypts the other side decrypts**, in another buffer or in its place. -/
theorem aes_cbc_undone {ctx : Context} {key : List UInt8} {keySize : ℕ}
    (h : aesInit key keySize = some ctx) (iv : Block) (ps : List Block) {b : InOut}
    (hb : b.Holds (16 * ps.length))
    (hget : b.get 0 (16 * ps.length) = aesCbcEncrypt ctx iv.toList (Cbc.flat ps)) :
    slice (aesCbcDecrypt ctx (16 * ps.length) iv.toList b).2.out 0 (16 * ps.length) =
      Cbc.flat ps := by
  rw [aesCbcEncrypt_eq] at hget
  exact (aesCbcDecrypt_decrypts ctx).undone (keyed_aesInit h).dec_enc iv ps hb hget

theorem aes_cbc_undone_zero : ∃ ctx, aesInit (List.replicate 32 0) 32 = some ctx ∧
    let p : Block := List.Vector.replicate 16 0
    let c := aesCbcEncrypt ctx p.toList (Cbc.flat [p, p, p])
    slice (aesCbcDecrypt ctx 48 p.toList (.same c)).2.out 0 48 = Cbc.flat [p, p, p] := by
  obtain ⟨ctx, hctx⟩ := exists_aesInit (List.replicate 32 0) (Or.inr (Or.inr rfl))
  refine ⟨ctx, hctx, ?_⟩
  intro p c
  have hlen : c.length = 48 := by
    rw [show c = _ from aesCbcEncrypt_eq _ p [p, p, p], Cbc.length_flat, Cbc.length_encrypt]
    rfl
  exact aes_cbc_undone hctx p [p, p, p] ⟨hlen.ge, hlen.ge⟩ (InOut.get_same hlen)

end N2n.Aes
