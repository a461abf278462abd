import N2nTun.Aes

/-!
# AES with the instructions of the processor

`aes.c` as it is built for processors that have rounds of AES as instructions.  The expanded key is
made in registers, a register for each round key, and the decryption in CBC mode works on four
blocks at once, then on two, then on one.

A register is a state: four words, the highest byte first.  The instructions that are used move
whole words, or work on bytes.

## Main definitions

* `aesenc`, `aesdec`, `aesimc`, `aeskeygenassist` — the instructions.
* `aesInternalKeySetup` — the expanded key.
* `encryptNi`, `decryptNi` — a block.
* `cbcDecryptNi` — the rails.

## Main results

* `rkEnc_eq` — the expanded key is that of the standard, whatever is loaded from behind the key.
* `ecbNi_eq` — **the instructions do the same as plain C.**
* `cbcDecryptNi_decrypts` — the rails do what one does, with two buffers or with one.
* `cbcNi_undone` — **what an edge of either build encrypts, an edge of either build decrypts.**
-/

namespace N2n.Aes

open Bytes Rijndael

/-! ### Instructions -/

/-- `_mm_aesenc_si128`. -/
def aesenc (x k : State) : State := (x.shift.sub sbox.sub).mix.add k

/-- `_mm_aesenclast_si128`. -/
def aesenclast (x k : State) : State := (x.shift.sub sbox.sub).add k

/-- `_mm_aesdec_si128`. -/
def aesdec (x k : State) : State := (x.invShift.sub sbox.invSub).invMix.add k

/-- `_mm_aesdeclast_si128`. -/
def aesdeclast (x k : State) : State := (x.invShift.sub sbox.invSub).add k

/-- `_mm_aesimc_si128`. -/
def aesimc (x : State) : State := x.invMix

/-- `_mm_aeskeygenassist_si128`. -/
def aeskeygenassist (x : State) (rc : UInt8) : State :=
  let x1 := onBytes sbox.sub x.c1
  let x3 := onBytes sbox.sub x.c3
  ⟨x1, rotWord x1 ^^^ be32 rc 0 0 0, x3, rotWord x3 ^^^ be32 rc 0 0 0⟩

/-- `_mm_slli_si128` by four bytes. -/
def slli4 (x : State) : State := ⟨0, x.c0, x.c1, x.c2⟩

/-- `_mm_shuffle_epi32` with `0x55`, `0xaa` or `0xff`: one word four times. -/
def broadcast (x : State) (shuf : UInt8) : State :=
  if shuf = 0x55 then ⟨x.c1, x.c1, x.c1, x.c1⟩
  else if shuf = 0xaa then ⟨x.c2, x.c2, x.c2, x.c2⟩
  else if shuf = 0xff then ⟨x.c3, x.c3, x.c3, x.c3⟩
  else x

/-- `_mm_shuffle_pd` with `0`: the lower halves. -/
def lowLow (x y : State) : State := ⟨x.c0, x.c1, y.c0, y.c1⟩

/-- `_mm_shuffle_pd` with `1`: the upper half, and the lower one. -/
def highLow (x y : State) : State := ⟨x.c2, x.c3, y.c0, y.c1⟩

/-! ### The expanded key -/

/-- `aes128_keyexpand`. -/
def aes128Keyexpand (key keygened : State) (shuf : UInt8) : State :=
  let key := key.add (slli4 key)
  let key := key.add (slli4 key)
  let key := key.add (slli4 key)
  key.add (broadcast keygened shuf)

/-- `aes192_keyexpand_2`, `KEYEXP192_2`. -/
def aes192Keyexpand2 (key key2 : State) : State :=
  let key := broadcast key 0xff
  let key2 := key2.add (slli4 key2)
  key.add key2

/-- `KEYEXP128`. -/
def keyexp128 (k : State) (i : UInt8) : State := aes128Keyexpand k (aeskeygenassist k i) 0xff

/-- `KEYEXP192`. -/
def keyexp192 (k1 k2 : State) (i : UInt8) : State :=
  aes128Keyexpand k1 (aeskeygenassist k2 i) 0x55

/-- `KEYEXP256`. -/
def keyexp256 (k1 k2 : State) (i : UInt8) : State :=
  aes128Keyexpand k1 (aeskeygenassist k2 i) 0xff

/-- `KEYEXP256_2`. -/
def keyexp256' (k1 k2 : State) : State := aes128Keyexpand k1 (aeskeygenassist k2 0x00) 0xaa

/-- The lines for 128 bits, with the constants that are left. -/
def keys128 : List UInt8 → State → List State
  | [], k => [k]
  | rc :: rcs, k => k :: keys128 rcs (keyexp128 k rc)

/-- The lines for 192 bits, three round keys at a time; `b` has two words of the key in its lower
half. -/
def keys192 : List (UInt8 × UInt8) → State → State → List State
  | [], a, _ => [a]
  | (rc, rc') :: rcs, a, b =>
    let temp0 := keyexp192 a b rc
    let temp1 := aes192Keyexpand2 temp0 b
    let next := keyexp192 temp0 temp1 rc'
    a :: lowLow b temp0 :: highLow temp0 temp1 :: keys192 rcs next (aes192Keyexpand2 next temp1)

/-- The lines for 256 bits, two round keys at a time. -/
def keys256 : List UInt8 → State → State → List State
  | [], _, _ => []
  | [rc], a, b => [a, b, keyexp256 a b rc]
  | rc :: rcs, a, b =>
    let next := keyexp256 a b rc
    a :: b :: keys256 rcs next (keyexp256' b next)

/-- `_mm_loadu_si128`. -/
def loadAt (p : List UInt8) (i : ℕ) : State :=
  ⟨be32At p i, be32At p (i + 4), be32At p (i + 8), be32At p (i + 12)⟩

/-- `aes_context_t`. -/
structure NiContext where
  rkEnc : List State
  rkDec : List State
  nr : ℕ

/-- The state that is read where there is none. -/
instance : Inhabited State := ⟨⟨0, 0, 0, 0⟩⟩

/-- The member `rk_enc`, for a key of `keyBits` bits.  With 192 bits, `beyond` are the eight bytes
behind the key, which are loaded with it. -/
def rkEnc (key beyond : List UInt8) (keyBits : ℕ) : List State :=
  if keyBits = 128 then
    keys128 [0x01, 0x02, 0x04, 0x08, 0x10, 0x20, 0x40, 0x80, 0x1b, 0x36] (loadAt key 0)
  else if keyBits = 192 then
    keys192 [(0x01, 0x02), (0x04, 0x08), (0x10, 0x20), (0x40, 0x80)] (loadAt key 0)
      (loadAt (key ++ beyond) 16)
  else if keyBits = 256 then
    keys256 [0x01, 0x02, 0x04, 0x08, 0x10, 0x20, 0x40] (loadAt key 0) (loadAt key 16)
  else []

/-- `aes_internal_key_setup`: the keys for decryption are derived in the opposite order, but for the
last one, which is not used. -/
def aesInternalKeySetup (key beyond : List UInt8) (keyBits : ℕ) : NiContext :=
  let nr := 6 + keyBits / 32
  let enc := rkEnc key beyond keyBits
  ⟨enc, enc.getD nr default ::
    (List.range' 1 (nr - 1)).map fun i => aesimc (enc.getD (nr - i) default), nr⟩

/-- `aes_init`. -/
def aesInitNi (key beyond : List UInt8) (keySize : ℕ) : Option NiContext :=
  if keySize = 16 ∨ keySize = 24 ∨ keySize = 32 then
    some (aesInternalKeySetup key beyond (8 * keySize))
  else none

/-! ### A block -/

/-- The rounds of `aes_internal_encrypt`, on a register. -/
def NiContext.encrypt (ctx : NiContext) (x : State) : State :=
  let tmp := x.add (ctx.rkEnc.getD 0 default)
  let tmp := Rounds.run (fun r tmp => aesenc tmp (ctx.rkEnc.getD r default))
    (tableRounds ctx.nr) tmp
  aesenclast tmp (ctx.rkEnc.getD ctx.nr default)

/-- The rounds of `aes_internal_decrypt`, on a register. -/
def NiContext.decrypt (ctx : NiContext) (x : State) : State :=
  let tmp := x.add (ctx.rkDec.getD 0 default)
  let tmp := Rounds.run (fun r tmp => aesdec tmp (ctx.rkDec.getD r default))
    (tableRounds ctx.nr) tmp
  aesdeclast tmp (ctx.rkEnc.getD 0 default)

/-- `aes_internal_encrypt`. -/
def encryptNi (ctx : NiContext) (pt : List UInt8) : List UInt8 :=
  storeState (ctx.encrypt (loadState pt))

/-- `aes_internal_decrypt`. -/
def decryptNi (ctx : NiContext) (ct : List UInt8) : List UInt8 :=
  storeState (ctx.decrypt (loadState ct))

/-! ### Modes -/

/-- The loop of `aes_cbc_encrypt`, with `ivec` in a register: what is written for `n` blocks. -/
def cbcEncryptNiLoop (ctx : NiContext) : ℕ → State → List UInt8 → List UInt8
  | 0, _, _ => []
  | n + 1, ivec, inp =>
    let tmp := ctx.encrypt ((loadState (inp.take 16)).add ivec)
    storeState tmp ++ cbcEncryptNiLoop ctx n tmp (inp.drop 16)

/-- `aes_cbc_encrypt`. -/
def cbcEncryptNi (ctx : NiContext) (iv inp : List UInt8) : List UInt8 :=
  cbcEncryptNiLoop ctx (inp.length / 16) (loadState iv) inp

/-- A block of the input in a register. -/
def loadBlock (b : InOut) (i : ℕ) : State := loadState (b.get i 16)

/-- Four blocks at once, while there are more than three: how many are left, where the next one is,
`ivec` and the buffers. -/
def fourRails (ctx : NiContext) : ℕ → ℕ → State → InOut → ℕ × ℕ × State × InOut
  | n + 4, i, ivec, b =>
    let tmp1 := loadBlock b i
    let tmp2 := loadBlock b (i + 16)
    let tmp3 := loadBlock b (i + 32)
    let tmp4 := loadBlock b (i + 48)
    let b := b.put i (storeState ((ctx.decrypt tmp1).add ivec))
    let b := b.put (i + 16) (storeState ((ctx.decrypt tmp2).add tmp1))
    let b := b.put (i + 32) (storeState ((ctx.decrypt tmp3).add tmp2))
    let b := b.put (i + 48) (storeState ((ctx.decrypt tmp4).add tmp3))
    fourRails ctx n (i + 64) tmp4 b
  | n, i, ivec, b => (n, i, ivec, b)

/-- Two blocks at once, if there are two or three. -/
def twoRails (ctx : NiContext) (n i : ℕ) (ivec : State) (b : InOut) : ℕ × ℕ × State × InOut :=
  if 1 < n then
    let tmp1 := loadBlock b i
    let tmp2 := loadBlock b (i + 16)
    let b := b.put i (storeState ((ctx.decrypt tmp1).add ivec))
    let b := b.put (i + 16) (storeState ((ctx.decrypt tmp2).add tmp1))
    (n - 2, i + 32, tmp2, b)
  else (n, i, ivec, b)

/-- The block that remains. -/
def oneRail (ctx : NiContext) (n i : ℕ) (ivec : State) (b : InOut) : InOut :=
  if n ≠ 0 then b.put i (storeState ((ctx.decrypt (loadBlock b i)).add ivec)) else b

/-- `aes_cbc_decrypt`: the buffers. -/
def cbcDecryptNi (ctx : NiContext) (inLen : ℕ) (iv : List UInt8) (b : InOut) : InOut :=
  let (n, i, ivec, b) := fourRails ctx (inLen / 16) 0 (loadState iv) b
  let (n, i, ivec, b) := twoRails ctx n i ivec b
  oneRail ctx n i ivec b

/-! ### The expanded key -/

/-- The words go through the lanes one after the other. -/
theorem aes128Keyexpand_eq (k g : State) {shuf : UInt8} {x : UInt32}
    (h : broadcast g shuf = ⟨x, x, x, x⟩) : aes128Keyexpand k g shuf =
      ⟨k.c0 ^^^ x, k.c1 ^^^ (k.c0 ^^^ x), k.c2 ^^^ (k.c1 ^^^ (k.c0 ^^^ x)),
        k.c3 ^^^ (k.c2 ^^^ (k.c1 ^^^ (k.c0 ^^^ x)))⟩ := by
  have hleft : ∀ a b c : UInt32, a ^^^ (b ^^^ c) = b ^^^ (a ^^^ c) := fun a b c => by
    rw [← UInt32.xor_assoc, UInt32.xor_comm a, UInt32.xor_assoc]
  have hself : ∀ a b : UInt32, a ^^^ (a ^^^ b) = b := fun a b => by
    rw [← UInt32.xor_assoc, UInt32.xor_self, UInt32.zero_xor]
  unfold aes128Keyexpand
  rw [h]
  simp [State.add, slli4, UInt32.xor_comm, hleft, hself]

theorem onBytes_rotWord (f : UInt8 → UInt8) (c : UInt32) :
    onBytes f (rotWord c) = rotWord (onBytes f c) := by
  simp [onBytes, rotWord]

section

variable (key : List UInt8) (nk : ℕ)

/-- Four words of the expanded key. -/
def quad (i : ℕ) : State := ⟨word key nk i, word key nk (i + 1), word key nk (i + 2),
  word key nk (i + 3)⟩

theorem keyOf_eq (r : ℕ) : keyOf key nk r = quad key nk (4 * r) := rfl

/-- Four words from the four before them, of which the first one is known. -/
theorem quad_of_first {i : ℕ} (hnk : 4 ≤ nk) {k : State} {x : UInt32}
    (hk : k = quad key nk (nk * i)) (hx : word key nk (nk * i) ^^^ x = word key nk (nk * i + nk)) :
    (⟨k.c0 ^^^ x, k.c1 ^^^ (k.c0 ^^^ x), k.c2 ^^^ (k.c1 ^^^ (k.c0 ^^^ x)),
      k.c3 ^^^ (k.c2 ^^^ (k.c1 ^^^ (k.c0 ^^^ x)))⟩ : State) = quad key nk (nk * i + nk) := by
  have h1 := word_add key nk i 1 (by decide) (by omega) (by omega)
  have h2 := word_add key nk i 2 (by decide) (by omega) (by omega)
  have h3 := word_add key nk i 3 (by decide) (by omega) (by omega)
  rw [Nat.add_sub_cancel] at h1
  rw [show nk * i + nk + 2 - 1 = nk * i + nk + 1 by omega] at h2
  rw [show nk * i + nk + 3 - 1 = nk * i + nk + 2 by omega] at h3
  subst hk
  simp only [quad, hx, h1, h2, h3]

variable {key nk}

/-- **A line for 128 bits.** -/
theorem keyexp128_quad {rc : UInt8} {i : ℕ} (hrc : be32 rc 0 0 0 = rconWord (i + 1)) :
    keyexp128 (quad key 4 (4 * i)) rc = quad key 4 (4 * i + 4) := by
  have hfirst := word_first key 4 i (by decide)
  rw [← hrc] at hfirst
  rw [keyexp128, aes128Keyexpand_eq _ _ (x := _ ^^^ _) rfl]
  refine quad_of_first key 4 (by decide) rfl ?_
  rw [← onBytes_rotWord]
  exact hfirst

/-- **The lines for 192 bits**: the first one and the third one, and the one between them. -/
theorem keyexp192_quad {b : State} {rc : UInt8} {i : ℕ} (hrc : be32 rc 0 0 0 = rconWord (i + 1))
    (hb : b.c1 = word key 6 (6 * i + 5)) :
    keyexp192 (quad key 6 (6 * i)) b rc = quad key 6 (6 * i + 6) := by
  have hfirst := word_first key 6 i (by decide)
  rw [← hrc, show 6 * i + 6 - 1 = 6 * i + 5 by omega, ← hb] at hfirst
  rw [keyexp192, aes128Keyexpand_eq _ _ (x := _ ^^^ _) rfl]
  refine quad_of_first key 6 (by decide) rfl ?_
  rw [← onBytes_rotWord]
  exact hfirst

theorem aes192Keyexpand2_words {a b : State} {i : ℕ} (ha : a = quad key 6 (6 * i + 6))
    (h0 : b.c0 = word key 6 (6 * i + 4)) (h1 : b.c1 = word key 6 (6 * i + 5)) :
    (aes192Keyexpand2 a b).c0 = word key 6 (6 * i + 10) ∧
      (aes192Keyexpand2 a b).c1 = word key 6 (6 * i + 11) := by
  have h10 := word_add key 6 i 4 (by decide) (by decide) (by decide)
  have h11 := word_add key 6 i 5 (by decide) (by decide) (by decide)
  simp only [Nat.add_assoc, Nat.reduceAdd, Nat.add_sub_assoc, Nat.reduceSub, Nat.reduceLeDiff]
    at h10 h11
  subst ha
  have hfirst : (aes192Keyexpand2 (quad key 6 (6 * i + 6)) b).c0 = word key 6 (6 * i + 10) := by
    rw [← h10, ← h0, UInt32.xor_comm]
    simp [aes192Keyexpand2, broadcast, State.add, slli4, quad]
  refine ⟨hfirst, ?_⟩
  rw [← h11, ← hfirst, ← h1, UInt32.xor_comm]
  simp [aes192Keyexpand2, broadcast, State.add, slli4, UInt32.xor_assoc, UInt32.xor_comm b.c0]

/-- **The lines for 256 bits**: the even ones and the odd ones. -/
theorem keyexp256_quad {rc : UInt8} {i : ℕ} (hrc : be32 rc 0 0 0 = rconWord (i + 1)) :
    keyexp256 (quad key 8 (8 * i)) (quad key 8 (8 * i + 4)) rc = quad key 8 (8 * i + 8) := by
  have hfirst := word_first key 8 i (by decide)
  rw [← hrc] at hfirst
  rw [keyexp256, aes128Keyexpand_eq _ _ (x := _ ^^^ _) rfl]
  refine quad_of_first key 8 (by decide) rfl ?_
  rw [← onBytes_rotWord]
  exact hfirst

theorem keyexp256'_quad (i : ℕ) :
    keyexp256' (quad key 8 (8 * i + 4)) (quad key 8 (8 * i + 8)) = quad key 8 (8 * i + 12) := by
  have h12 := word_sub key 8 i (by decide)
  have h13 := word_add key 8 i 5 (by decide) (by decide) (by decide)
  have h14 := word_add key 8 i 6 (by decide) (by decide) (by decide)
  have h15 := word_add key 8 i 7 (by decide) (by decide) (by decide)
  simp only [Nat.add_assoc, Nat.reduceAdd, Nat.add_sub_assoc, Nat.reduceSub, Nat.reduceLeDiff]
    at h12 h13 h14 h15
  rw [keyexp256', aes128Keyexpand_eq _ _ (x := onBytes sbox.sub (word key 8 (8 * i + 11))) rfl]
  simp only [quad, Nat.add_assoc, Nat.reduceAdd, h12, h13, h14, h15]

/-! ### All lines -/

/-- The constants are the powers of `x`. -/
def power (j : ℕ) : UInt8 := xtime^[j] 1

/-- **All lines for 128 bits.** -/
theorem keys128_eq (key : List UInt8) (i n : ℕ) :
    keys128 ((List.range' i n).map power) (quad key 4 (4 * i)) =
      (List.range' i (n + 1)).map (keyOf key 4) := by
  induction n generalizing i with
  | zero => rfl
  | succ n ih =>
    have hnext := @keyexp128_quad key (power i) i rfl
    rw [List.range'_succ, List.map_cons, keys128, hnext, ← Nat.mul_succ, ih, List.range'_succ,
      List.map_cons]
    rfl

/-- **All lines for 192 bits.** -/
theorem keys192_eq {b : State} (key : List UInt8) (i n : ℕ)
    (h0 : b.c0 = word key 6 (6 * (2 * i) + 4))
    (h1 : b.c1 = word key 6 (6 * (2 * i) + 5)) :
    keys192 ((List.range' i n).map fun j => (power (2 * j), power (2 * j + 1)))
        (quad key 6 (6 * (2 * i))) b =
      (List.range' (3 * i) (3 * n + 1)).map (keyOf key 6) := by
  have hkey : ∀ i, quad key 6 (6 * (2 * i)) = keyOf key 6 (3 * i) := fun i => by
    rw [keyOf_eq, show 6 * (2 * i) = 4 * (3 * i) by omega]
  induction n generalizing i b with
  | zero => exact congrArg (fun k => [k]) (hkey i)
  | succ n ih =>
    have htemp0 := @keyexp192_quad key b (power (2 * i)) (2 * i) rfl h1
    obtain ⟨hlow, hhigh⟩ := aes192Keyexpand2_words htemp0 h0 h1
    rw [List.range'_succ, List.map_cons, keys192]
    rw [htemp0] at hlow hhigh ⊢
    set temp1 := aes192Keyexpand2 (quad key 6 (6 * (2 * i) + 6)) b with htemp1
    have hnext := @keyexp192_quad key temp1 (power (2 * i + 1)) (2 * i + 1) rfl hhigh
    obtain ⟨hlow', hhigh'⟩ := aes192Keyexpand2_words (i := 2 * i + 1) hnext hlow hhigh
    rw [Nat.mul_succ] at hnext hlow' hhigh'
    rw [hnext] at hlow' hhigh'
    have hsecond : lowLow b (quad key 6 (6 * (2 * i) + 6)) = keyOf key 6 (3 * i + 1) := by
      rw [lowLow, h0, h1, keyOf_eq, show 4 * (3 * i + 1) = 6 * (2 * i) + 4 by omega]
      rfl
    have hthird : highLow (quad key 6 (6 * (2 * i) + 6)) temp1 = keyOf key 6 (3 * i + 1 + 1) := by
      rw [highLow, hlow, hhigh, keyOf_eq, show 4 * (3 * i + 1 + 1) = 6 * (2 * i) + 8 by omega]
      rfl
    have hwhole : 6 * (2 * i) + 6 + 6 = 6 * (2 * (i + 1)) := by omega
    have hrest := ih (i + 1) (hlow'.trans (congrArg (word key 6) (by omega)))
      (hhigh'.trans (congrArg (word key 6) (by omega)))
    rw [hwhole] at hnext hrest
    rw [hsecond, hthird, hkey, hnext, hrest, show 3 * (n + 1) + 1 = 3 * n + 1 + 3 by omega,
      List.range'_succ, List.range'_succ, List.range'_succ]
    rfl

/-- **All lines for 256 bits.** -/
theorem keys256_eq (key : List UInt8) (i n : ℕ) :
    keys256 ((List.range' i (n + 1)).map power) (quad key 8 (8 * i)) (quad key 8 (8 * i + 4)) =
      (List.range' (2 * i) (2 * n + 3)).map (keyOf key 8) := by
  have hkey : ∀ i, quad key 8 (8 * i) = keyOf key 8 (2 * i) := fun i => by
    rw [keyOf_eq, show 8 * i = 4 * (2 * i) by omega]
  have hkey' : ∀ i, quad key 8 (8 * i + 4) = keyOf key 8 (2 * i + 1) := fun i => by
    rw [keyOf_eq, show 8 * i + 4 = 4 * (2 * i + 1) by omega]
  have hnext : ∀ i, keyexp256 (quad key 8 (8 * i)) (quad key 8 (8 * i + 4)) (power i) =
      quad key 8 (8 * (i + 1)) := fun i => keyexp256_quad rfl
  have hodd : ∀ i, keyexp256' (quad key 8 (8 * i + 4)) (quad key 8 (8 * (i + 1))) =
      quad key 8 (8 * (i + 1) + 4) := fun i => keyexp256'_quad i
  induction n generalizing i with
  | zero =>
    show [_, _, _] = [_, _, _]
    rw [hnext, hkey, hkey', hkey]
    rfl
  | succ n ih =>
    have hrest := ih (i + 1)
    rw [List.range'_succ, List.map_cons] at hrest
    rw [List.range'_succ, List.map_cons, List.range'_succ, List.map_cons, keys256, hnext,
      hodd, hrest, hkey, hkey', show 2 * (n + 1) + 3 = 2 * n + 3 + 2 by omega,
      List.range'_succ, List.range'_succ]
    · rfl
    · exact List.cons_ne_nil _ _

end

/-- **The member `rk_enc` holds the keys of the standard**, whatever lies behind the key. -/
theorem rkEnc_eq {key : List UInt8} (beyond : List UInt8) {nk : ℕ} (h : nk = 4 ∨ nk = 6 ∨ nk = 8)
    (hlen : key.length = 4 * nk) :
    rkEnc key beyond (32 * nk) = (List.range' 0 (nk + 7)).map (keyOf key nk) := by
  have hword : ∀ {i}, i < nk → be32At key (4 * i) = word key nk i := fun hi =>
    (keyWord_of_lt sbox (fun i => be32At key (4 * i)) hi).symm
  have hquad : ∀ {i}, i + 4 ≤ nk → loadAt key (4 * i) = quad key nk i := by
    intro i hi
    rw [loadAt, quad, ← hword (by omega), ← hword (by omega), ← hword (by omega),
      ← hword (by omega)]
    rfl
  rcases h with rfl | rfl | rfl
  · have hall := keys128_eq key 0 10
    rw [← hquad (by decide)] at hall
    exact hall
  · have hbefore : ∀ i, i + 4 ≤ 24 → be32At (key ++ beyond) i = be32At key i := by
      intro i hi
      simp only [be32At]
      rw [List.getD_append _ _ _ _ (by omega), List.getD_append _ _ _ _ (by omega),
        List.getD_append _ _ _ _ (by omega), List.getD_append _ _ _ _ (by omega)]
    have hall := keys192_eq (b := loadAt (key ++ beyond) 16) key 0 4
      ((hbefore 16 (by decide)).trans (hword (i := 4) (by decide)))
      ((hbefore 20 (by decide)).trans (hword (i := 5) (by decide)))
    rw [← hquad (by decide)] at hall
    exact hall
  · have hall := keys256_eq key 0 6
    rw [← hquad (by decide), ← hquad (by decide)] at hall
    exact hall

/-! ### A block -/

/-- A context has the expanded keys of a key of `nk` words. -/
structure NiContext.Keyed (ctx : NiContext) (key : List UInt8) (nk : ℕ) : Prop where
  size : nk = 4 ∨ nk = 6 ∨ nk = 8
  rounds : ctx.nr = nk + 6
  encKeys : ∀ r ≤ ctx.nr, ctx.rkEnc.getD r default = keyOf key nk r
  decFirst : ctx.rkDec.getD 0 default = keyOf key nk ctx.nr
  decKeys : ∀ r, 0 < r → r < ctx.nr →
    ctx.rkDec.getD r default = (keyOf key nk (ctx.nr - r)).invMix

/-- A context is made from every key of one of the lengths. -/
theorem exists_aesInitNi (key beyond : List UInt8) {keySize : ℕ}
    (h : keySize = 16 ∨ keySize = 24 ∨ keySize = 32) :
    ∃ ctx, aesInitNi key beyond keySize = some ctx := ⟨_, if_pos h⟩

/-- **A context that has been made is keyed.** -/
theorem keyed_aesInitNi {key beyond : List UInt8} {keySize : ℕ} {ctx : NiContext}
    (h : aesInitNi key beyond keySize = some ctx) (hlen : key.length = keySize) :
    ctx.Keyed key (keySize / 4) := by
  rw [aesInitNi] at h
  split_ifs at h with hsize
  obtain ⟨nk, hnk, rfl⟩ : ∃ nk, (nk = 4 ∨ nk = 6 ∨ nk = 8) ∧ keySize = 4 * nk :=
    ⟨keySize / 4, by omega, by omega⟩
  have hnr : 6 + 32 * nk / 32 = nk + 6 := by omega
  rw [show 8 * (4 * nk) = 32 * nk by omega, aesInternalKeySetup, hnr, rkEnc_eq beyond hnk hlen] at h
  have hget : ∀ r ≤ nk + 6,
      ((List.range' 0 (nk + 7)).map (keyOf key nk)).getD r default = keyOf key nk r := by
    intro r hr
    have hr' : r < nk + 7 := by omega
    simp [List.getD_eq_getElem?_getD, hr']
  obtain rfl := Option.some.inj h
  rw [Nat.mul_div_cancel_left nk (by decide)]
  refine ⟨hnk, rfl, hget, hget _ le_rfl, fun r hr hr' => ?_⟩
  obtain ⟨r, rfl⟩ := Nat.exists_eq_add_of_lt hr
  dsimp only at hr' ⊢
  have hr'' : r < nk + 6 - 1 := by omega
  rw [Nat.zero_add, List.getD_cons_succ, List.getD_eq_getElem?_getD, List.getElem?_map,
    List.getElem?_range' hr'', Option.map_some, Option.getD_some, hget _ (by omega), Nat.one_mul,
    Nat.add_comm 1 r]
  rfl

section

variable {ctx : NiContext} {key : List UInt8} {nk : ℕ}

theorem NiContext.Keyed.tables (h : ctx.Keyed key nk) : tableRounds ctx.nr = middle ctx.nr := by
  have hrounds := h.rounds
  have hsize := h.size
  exact tableRounds_eq (by omega)

/-- **The instructions encrypt as the standard says.** -/
theorem NiContext.Keyed.encrypt_eq (h : ctx.Keyed key nk) (x : State) :
    ctx.encrypt x = cipher sbox ctx.nr (keyOf key nk) x := by
  have hround : ∀ r ∈ middle ctx.nr, (fun tmp => aesenc tmp (ctx.rkEnc.getD r default)) =
      Rijndael.round sbox (keyOf key nk) r := by
    intro r hr
    rw [middle, List.mem_range'_1] at hr
    funext x
    rw [aesenc, State.sub_shift, h.encKeys r (by omega)]
    rfl
  rw [NiContext.encrypt, h.tables]
  rw [Rounds.run_congr (f := fun r tmp => aesenc tmp (ctx.rkEnc.getD r default)) hround,
    h.encKeys 0 (Nat.zero_le _), h.encKeys _ le_rfl, aesenclast, State.sub_shift]
  rfl

/-- **The instructions decrypt as the standard says.** -/
theorem NiContext.Keyed.decrypt_eq (h : ctx.Keyed key nk) (x : State) :
    ctx.decrypt x = invCipher sbox ctx.nr (keyOf key nk) x := by
  have hrounds := h.rounds
  -- the last key is the first one for encryption
  let dw (r : ℕ) : State := if r < ctx.nr then ctx.rkDec.getD r default else keyOf key nk 0
  have hpos : 0 < ctx.nr := by omega
  have hround : ∀ r ∈ middle ctx.nr, (fun tmp => aesdec tmp (ctx.rkDec.getD r default)) =
      eqInvRound sbox dw r := by
    intro r hr
    rw [middle, List.mem_range'_1] at hr
    funext x
    rw [aesdec, State.sub_invShift, eqInvRound, show dw r = _ from if_pos (by omega)]
  have hfirst : dw 0 = keyOf key nk ctx.nr := (if_pos hpos).trans h.decFirst
  have hlast : dw ctx.nr = keyOf key nk 0 := if_neg (lt_irrefl _)
  have hmid : ∀ r, 0 < r → r < ctx.nr → dw r = (keyOf key nk (ctx.nr - r)).invMix :=
    fun r hr hr' => (if_pos hr').trans (h.decKeys r hr hr')
  rw [← eqInvCipher_eq sbox (keyOf key nk) hpos hfirst hlast hmid, eqInvCipher, NiContext.decrypt,
    h.tables]
  rw [Rounds.run_congr (f := fun r tmp => aesdec tmp (ctx.rkDec.getD r default)) hround,
    h.encKeys 0 (Nat.zero_le _), hlast, aesdeclast, State.sub_invShift, hfirst, h.decFirst]

theorem NiContext.Keyed.encryptNi_eq (h : ctx.Keyed key nk) (p : List UInt8) :
    encryptNi ctx p = standard key nk p := by
  rw [encryptNi, h.encrypt_eq, h.rounds]
  rfl

theorem NiContext.Keyed.decryptNi_eq (h : ctx.Keyed key nk) (c : List UInt8) :
    decryptNi ctx c = invStandard key nk c := by
  rw [decryptNi, h.decrypt_eq, h.rounds]
  rfl

end

/-! ### The modes -/

theorem storeState_add (x y : State) :
    storeState (x.add y) = xorBytes (storeState x) (storeState y) := by
  have hlen : ∀ v w : UInt32, (bytes32 v).length = (bytes32 w).length := fun _ _ => rfl
  simp only [storeState, State.add, bytes32_xor]
  rw [xorBytes_append (hlen x.c0 y.c0), xorBytes_append (hlen x.c1 y.c1),
    xorBytes_append (hlen x.c2 y.c2)]

theorem storeState_loadState_toList (p : Block) : storeState (loadState p.toList) = p.toList :=
  storeState_loadState p.toList_length

/-- A block is encrypted. -/
def encNi (ctx : NiContext) (p : Block) : Block := ⟨encryptNi ctx p.toList, rfl⟩

/-- A block is decrypted. -/
def decNi (ctx : NiContext) (c : Block) : Block := ⟨decryptNi ctx c.toList, rfl⟩

/-- What is stored for a decrypted block, with the one before it. -/
theorem storeState_decrypt (ctx : NiContext) (c iv : Block) :
    storeState ((ctx.decrypt (loadState c.toList)).add (loadState iv.toList)) =
      (blockXor (decNi ctx c) iv).toList := by
  rw [storeState_add, storeState_loadState_toList]
  rfl

/-- **The loop with registers is the loop over bytes.** -/
theorem cbcEncryptNiLoop_eq (ctx : NiContext) (n : ℕ) (ivec : State) {inp : List UInt8}
    (h : 16 * n ≤ inp.length) : cbcEncryptNiLoop ctx n ivec inp =
      cbcEncryptLoop (encryptNi ctx) n (storeState ivec) inp := by
  induction n generalizing ivec inp with
  | zero => rfl
  | succ n ih =>
    have htake : (inp.take 16).length = 16 := by
      rw [List.length_take]
      omega
    have hload : (loadState (inp.take 16)).add ivec =
        loadState (xorBytes (storeState ivec) (inp.take 16)) := by
      have hadd := congrArg loadState (storeState_add (loadState (inp.take 16)) ivec)
      rwa [loadState_storeState, storeState_loadState htake, xorBytes_comm] at hadd
    rw [cbcEncryptNiLoop, cbcEncryptLoop, hload, ih _ (by rw [List.length_drop]; omega)]
    rfl

theorem cbcEncryptNi_eq (ctx : NiContext) (iv : Block) (ps : List Block) :
    cbcEncryptNi ctx iv.toList (Cbc.flat ps) =
      Cbc.flat (Cbc.encrypt blockXor (encNi ctx) iv ps) := by
  rw [cbcEncryptNi, cbcEncryptNiLoop_eq _ _ _ (Nat.mul_div_le _ _), storeState_loadState_toList]
  exact cbcEncryptLoop_eq (fun _ => rfl) iv ps

section

variable (ctx : NiContext) {b : InOut} {n i : ℕ}

/-- A block is decrypted and stored. -/
theorem stored_block (hb : b.Holds n) (hi : i + 16 ≤ n) (iv c : Block) :
    InOut.Stored b (b.put i (storeState ((ctx.decrypt (loadState c.toList)).add
      (loadState iv.toList)))) n i (blockXor (decNi ctx c) iv).toList := by
  rw [storeState_decrypt]
  exact InOut.stored_put hb (by rw [List.Vector.toList_length]; exact hi)

/-- The block that remains, if there is one. -/
theorem oneRail_stored (cs : List Block) (hcs : cs.length < 2) (hb : b.Holds n)
    (hi : i + 16 * cs.length ≤ n) (hget : b.get i (16 * cs.length) = Cbc.flat cs) (iv : Block) :
    InOut.Stored b (oneRail ctx cs.length i (loadState iv.toList) b) n i
      (Cbc.flat (Cbc.decrypt blockXor (decNi ctx) iv cs)) := by
  match cs, hcs with
  | [], _ => exact InOut.stored_nil hb i
  | [c], _ =>
    obtain ⟨hc, -⟩ := get_flat hget
    have hone := stored_block ctx hb hi iv c
    have hflat : Cbc.flat (Cbc.decrypt blockXor (decNi ctx) iv [c]) =
        (blockXor (decNi ctx c) iv).toList := by
      simp [Cbc.decrypt]
    rw [hflat, oneRail, if_pos (by simp), loadBlock, hc]
    exact hone

/-- **Two blocks at once are decrypted as one after the other.** -/
theorem stored_pair (hb : b.Holds n) (hi : i + 32 ≤ n) (c₁ c₂ iv : Block) :
    InOut.Stored b ((b.put i (storeState ((ctx.decrypt (loadState c₁.toList)).add
      (loadState iv.toList)))).put (i + 16) (storeState ((ctx.decrypt (loadState c₂.toList)).add
        (loadState c₁.toList)))) n i
      (Cbc.flat (Cbc.decrypt blockXor (decNi ctx) iv [c₁, c₂])) := by
  have h1 := stored_block ctx hb (by omega : i + 16 ≤ n) iv c₁
  have h2 := stored_block ctx h1.holds (by omega : i + 16 + 16 ≤ n) c₁ c₂
  have hall := h1.behind h2 (by rw [List.Vector.toList_length])
  have hflat : Cbc.flat (Cbc.decrypt blockXor (decNi ctx) iv [c₁, c₂]) =
      (blockXor (decNi ctx c₁) iv).toList ++ (blockXor (decNi ctx c₂) c₁).toList := by
    simp [Cbc.decrypt]
  rw [hflat]
  exact hall

/-- Blocks that have been decrypted, and what follows them. -/
theorem stored_behind {b' b'' : InOut} (cs : List Block) {ds : List Block} {iv : Block}
    (h : InOut.Stored b b' n i (Cbc.flat (Cbc.decrypt blockXor (decNi ctx) iv cs)))
    (h' : InOut.Stored b' b'' n (i + 16 * cs.length)
      (Cbc.flat (Cbc.decrypt blockXor (decNi ctx) (cs.getLastD iv) ds))) :
    InOut.Stored b b'' n i (Cbc.flat (Cbc.decrypt blockXor (decNi ctx) iv (cs ++ ds))) := by
  rw [Cbc.decrypt_append, Cbc.flat_append]
  exact h.behind h' (by rw [Cbc.length_flat, Cbc.length_decrypt])

/-- What lies behind the blocks that have been decrypted is as it was. -/
theorem get_behind {b' : InOut} {cs ds : List Block} {iv : Block}
    (h : InOut.Stored b b' n i (Cbc.flat (Cbc.decrypt blockXor (decNi ctx) iv cs)))
    (hget : b.get (i + 16 * cs.length) (16 * ds.length) = Cbc.flat ds) :
    b'.get (i + 16 * cs.length) (16 * ds.length) = Cbc.flat ds := by
  rw [h.kept (Or.inr (by rw [Cbc.length_flat, Cbc.length_decrypt]))]
  exact hget

/-- **Three blocks or less**: two at once, and one. -/
theorem lastRails_stored (cs : List Block) (hcs : cs.length < 4) (hb : b.Holds n)
    (hi : i + 16 * cs.length ≤ n) (hget : b.get i (16 * cs.length) = Cbc.flat cs) (iv : Block) :
    let (m, j, ivec, b₁) := twoRails ctx cs.length i (loadState iv.toList) b
    InOut.Stored b (oneRail ctx m j ivec b₁) n i
      (Cbc.flat (Cbc.decrypt blockXor (decNi ctx) iv cs)) := by
  match cs, hcs with
  | [], _ => exact oneRail_stored ctx [] (by decide) hb hi hget iv
  | [c], _ => exact oneRail_stored ctx [c] (by simp) hb hi hget iv
  | c₁ :: c₂ :: cs, hcs =>
    obtain ⟨hc₁, hrest⟩ := get_flat hget
    obtain ⟨hc₂, hrest⟩ := get_flat hrest
    simp only [List.length_cons] at hcs hi
    have hpair := stored_pair ctx hb (by omega : i + 32 ≤ n) c₁ c₂ iv
    have hlast := oneRail_stored ctx cs (by omega) hpair.holds
      (by omega : i + 32 + 16 * cs.length ≤ n) (get_behind ctx hpair hrest) c₂
    rw [List.length_cons, List.length_cons, twoRails, if_pos (by omega)]
    simp only [loadBlock, hc₁, hc₂]
    exact stored_behind ctx [c₁, c₂] hpair hlast

/-- **Four blocks at once are decrypted as one after the other.** -/
theorem stored_four (hb : b.Holds n) (hi : i + 64 ≤ n) (c₁ c₂ c₃ c₄ iv : Block) :
    InOut.Stored b ((((b.put i (storeState ((ctx.decrypt (loadState c₁.toList)).add
      (loadState iv.toList)))).put (i + 16) (storeState ((ctx.decrypt (loadState c₂.toList)).add
        (loadState c₁.toList)))).put (i + 32) (storeState ((ctx.decrypt (loadState c₃.toList)).add
          (loadState c₂.toList)))).put (i + 48)
            (storeState ((ctx.decrypt (loadState c₄.toList)).add (loadState c₃.toList)))) n i
      (Cbc.flat (Cbc.decrypt blockXor (decNi ctx) iv [c₁, c₂, c₃, c₄])) := by
  have h12 := stored_pair ctx hb (by omega : i + 32 ≤ n) c₁ c₂ iv
  have h34 := stored_pair ctx h12.holds (by omega : i + 32 + 32 ≤ n) c₃ c₄ c₂
  exact stored_behind ctx [c₁, c₂] h12 h34

end

/-- **The rails, four, then two, then one, decrypt one block after the other.** -/
theorem niRails_stored (ctx : NiContext) {b : InOut} {n i : ℕ} {cs : List Block} (hb : b.Holds n)
    (hi : i + 16 * cs.length ≤ n) (hget : b.get i (16 * cs.length) = Cbc.flat cs) (iv : Block) :
    let (m, j, ivec, b₁) := fourRails ctx cs.length i (loadState iv.toList) b
    let (m, j, ivec, b₁) := twoRails ctx m j ivec b₁
    InOut.Stored b (oneRail ctx m j ivec b₁) n i
      (Cbc.flat (Cbc.decrypt blockXor (decNi ctx) iv cs)) := by
  match cs with
  | [] => exact lastRails_stored ctx [] (by simp) hb hi hget iv
  | [c] => exact lastRails_stored ctx [c] (by simp) hb hi hget iv
  | [c₁, c₂] => exact lastRails_stored ctx [c₁, c₂] (by simp) hb hi hget iv
  | [c₁, c₂, c₃] => exact lastRails_stored ctx [c₁, c₂, c₃] (by simp) hb hi hget iv
  | c₁ :: c₂ :: c₃ :: c₄ :: cs =>
    obtain ⟨hc₁, hrest⟩ := get_flat hget
    obtain ⟨hc₂, hrest⟩ := get_flat hrest
    obtain ⟨hc₃, hrest⟩ := get_flat hrest
    obtain ⟨hc₄, hrest⟩ := get_flat hrest
    simp only [List.length_cons] at hi
    have hfour := stored_four ctx hb (by omega : i + 64 ≤ n) c₁ c₂ c₃ c₄ iv
    have hrun := niRails_stored ctx hfour.holds (by omega : i + 64 + 16 * cs.length ≤ n)
      (get_behind ctx hfour hrest) c₄
    simp only [List.length_cons]
    rw [fourRails]
    simp only [loadBlock, hc₁, hc₂, show b.get (i + 32) 16 = c₃.toList from hc₃,
      show b.get (i + 48) 16 = c₄.toList from hc₄]
    exact stored_behind ctx [c₁, c₂, c₃, c₄] hfour hrun

/-- **The rails do what one does**, with two buffers or with one. -/
theorem cbcDecryptNi_decrypts (ctx : NiContext) : CbcDecrypts (decNi ctx) (cbcDecryptNi ctx) := by
  intro iv cs b hb hget
  have hrails := niRails_stored ctx hb (by rw [Nat.zero_add]) hget iv
  have hdiv : 16 * cs.length / 16 = cs.length := by omega
  rw [cbcDecryptNi, hdiv]
  exact hrails

/-! ### The two builds -/

section

variable {key beyond : List UInt8} {keySize : ℕ} {ctx : Context} {ctx' : NiContext}

/-- Both builds have the same blocks. -/
theorem blocksNi_eq (h : aesInit key keySize = some ctx)
    (h' : aesInitNi key beyond keySize = some ctx') (hlen : key.length = keySize) :
    encNi ctx' = enc ctx ∧ decNi ctx' = dec ctx := by
  have hkeyed := keyed_aesInit h
  have hkeyed' := keyed_aesInitNi h' hlen
  refine ⟨funext fun p => List.Vector.eq _ _ ?_, funext fun c => List.Vector.eq _ _ ?_⟩
  · exact (hkeyed'.encryptNi_eq p.toList).trans (hkeyed.encrypt p.toList).symm
  · exact (hkeyed'.decryptNi_eq c.toList).trans (hkeyed.decrypt c.toList).symm

/-- **The instructions do the same as plain C**, for keys of every length and whatever lies behind
the key. -/
theorem ecbNi_eq (h : aesInit key keySize = some ctx)
    (h' : aesInitNi key beyond keySize = some ctx') (hlen : key.length = keySize)
    (p : List UInt8) :
    encryptNi ctx' p = aesEcbEncrypt ctx p ∧ decryptNi ctx' p = aesEcbDecrypt ctx p := by
  have hkeyed := keyed_aesInit h
  have hkeyed' := keyed_aesInitNi h' hlen
  rw [hkeyed.encrypt, hkeyed.decrypt]
  exact ⟨hkeyed'.encryptNi_eq p, hkeyed'.decryptNi_eq p⟩

theorem ecbNi_eq_zero : ∃ ctx ctx', aesInit (List.replicate 24 0) 24 = some ctx ∧
    aesInitNi (List.replicate 24 0) (List.replicate 8 1) 24 = some ctx' ∧
    encryptNi ctx' (List.replicate 16 0) = aesEcbEncrypt ctx (List.replicate 16 0) ∧
    decryptNi ctx' (List.replicate 16 0) = aesEcbDecrypt ctx (List.replicate 16 0) := by
  have hsize : 24 = 16 ∨ 24 = 24 ∨ 24 = 32 := Or.inr (Or.inl rfl)
  obtain ⟨ctx, hctx⟩ := exists_aesInit (List.replicate 24 0) hsize
  obtain ⟨ctx', hctx'⟩ := exists_aesInitNi (List.replicate 24 0) (List.replicate 8 1) hsize
  exact ⟨ctx, ctx', hctx, hctx', ecbNi_eq hctx hctx' rfl _⟩

/-- **What an edge of either build encrypts, an edge of either build decrypts**, with four rails or
with one, in another buffer or in its place. -/
theorem cbcNi_undone (h : aesInit key keySize = some ctx)
    (h' : aesInitNi key beyond keySize = some ctx') (hlen : key.length = keySize) (iv : Block)
    (ps : List Block) :
    cbcEncryptNi ctx' iv.toList (Cbc.flat ps) = aesCbcEncrypt ctx iv.toList (Cbc.flat ps) ∧
      ∀ b : InOut, b.Holds (16 * ps.length) →
        b.get 0 (16 * ps.length) = aesCbcEncrypt ctx iv.toList (Cbc.flat ps) →
        slice (cbcDecryptNi ctx' (16 * ps.length) iv.toList b).out 0 (16 * ps.length) =
            Cbc.flat ps ∧
          slice (aesCbcDecrypt ctx (16 * ps.length) iv.toList b).2.out 0 (16 * ps.length) =
            Cbc.flat ps := by
  obtain ⟨henc, hdec⟩ := blocksNi_eq h h' hlen
  have hback := (keyed_aesInit h).dec_enc
  refine ⟨by rw [cbcEncryptNi_eq, aesCbcEncrypt_eq, henc], fun b hb hget => ?_⟩
  rw [aesCbcEncrypt_eq] at hget
  have hni := cbcDecryptNi_decrypts ctx'
  rw [hdec] at hni
  exact ⟨hni.undone hback iv ps hb hget, (aesCbcDecrypt_decrypts ctx).undone hback iv ps hb hget⟩

theorem cbcNi_undone_zero : ∃ ctx ctx', aesInit (List.replicate 32 0) 32 = some ctx ∧
    aesInitNi (List.replicate 32 0) [] 32 = some ctx' ∧
    let p : Block := List.Vector.replicate 16 0
    let c := aesCbcEncrypt ctx p.toList (Cbc.flat [p, p, p, p, p])
    cbcEncryptNi ctx' p.toList (Cbc.flat [p, p, p, p, p]) = c ∧
      slice (cbcDecryptNi ctx' 80 p.toList (.same c)).out 0 80 = Cbc.flat [p, p, p, p, p] := by
  have hsize : 32 = 16 ∨ 32 = 24 ∨ 32 = 32 := Or.inr (Or.inr rfl)
  obtain ⟨ctx, hctx⟩ := exists_aesInit (List.replicate 32 0) hsize
  obtain ⟨ctx', hctx'⟩ := exists_aesInitNi (List.replicate 32 0) [] hsize
  refine ⟨ctx, ctx', hctx, hctx', ?_⟩
  intro p c
  have hlen : c.length = 80 := by
    rw [show c = _ from aesCbcEncrypt_eq _ p [p, p, p, p, p], Cbc.length_flat, Cbc.length_encrypt]
    rfl
  obtain ⟨hsame, hboth⟩ := cbcNi_undone hctx hctx' rfl p [p, p, p, p, p]
  exact ⟨hsame, (hboth (.same c) ⟨hlen.ge, hlen.ge⟩ (InOut.get_same hlen)).1⟩

end

end N2n.Aes
