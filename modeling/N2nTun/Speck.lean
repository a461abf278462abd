import N2nTun.Lib.KeyStream
import N2nTun.Payload

/-!
# SPECK in counter mode

`speck.c` in plain C on a little-endian machine, with keys of 128 and of 256 bits.  The transform
has keys of 256 bits; the headers have keys of 128 bits.

## Main definitions

* `speckExpandKey` — the round keys.
* `internalSpeckCtr` — the loop over the blocks, and the rest.

## Main results

* `internalSpeckCtr_eq` — the bytes of the blocks are added one after the other.
* `internalSpeckCtr_128` — **with 128 bits it is the counter mode of the headers.**
* `internalSpeckCtr_implements` — it is a stream cipher.
-/

namespace N2n

open Bytes KeyStream

/-- `speck_context_t`, with the length of the key. -/
structure SpeckKeyed where
  ctx : SpeckContext
  keysize : ℕ

/-- The loop of `speck_expand_key` for 256 bits, three rounds at a time from `i` on, on the words
`K[0]` to `K[3]`. -/
def speckExpandLoop256 : ℕ → UInt64 → UInt64 → UInt64 → UInt64 → UInt64 → List UInt64
  | 0, _, k0, _, _, _ => [k0]
  | n + 1, i, k0, k1, k2, k3 =>
    let (k1, k0') := speckRound (k1, k0) i
    let (k2, k0'') := speckRound (k2, k0') (i + 1)
    let (k3, k0''') := speckRound (k3, k0'') (i + 2)
    k0 :: k0' :: k0'' :: speckExpandLoop256 n (i + 3) k0''' k1 k2 k3

/-- `speck_expand_key`, as `speck_init` calls it. -/
def speckExpandKey (k : List UInt8) (keysize : ℕ) : SpeckKeyed :=
  if keysize = 256 then
    ⟨⟨speckExpandLoop256 11 0 (le64At k 0) (le64At k 8) (le64At k 16) (le64At k 24)⟩, keysize⟩
  else ⟨speckInit k, keysize⟩

namespace SpeckKeyed

/-- The variable `numrounds`. -/
def numrounds (s : SpeckKeyed) : ℕ := if s.keysize = 256 then 34 else 32

/-- `speck_encrypt`, on `(x, y)`. -/
def encrypt (s : SpeckKeyed) (b : UInt64 × UInt64) : UInt64 × UInt64 :=
  (List.range s.numrounds).foldl (fun b i => speckRound b (s.ctx.key.getD i 0)) b

end SpeckKeyed

/-- The loop of `internal_speck_ctr` over whole blocks: what is written, and `nonce[0]`. -/
def speckBlocks (s : SpeckKeyed) (nonce1 : UInt64) : ℕ → UInt64 → List UInt8 → List UInt8 × UInt64
  | 0, nonce0, _ => ([], nonce0)
  | n + 1, nonce0, inp =>
    let b := s.encrypt (nonce1, nonce0)
    let (out, nonce0) := speckBlocks s nonce1 n (nonce0 + 1) (inp.drop 16)
    (xorBytes (inp.take 16) (speckBytes b) ++ out, nonce0)

/-- `internal_speck_ctr`. -/
def internalSpeckCtr (s : SpeckKeyed) (n inp : List UInt8) : List UInt8 :=
  let (out, nonce0) := speckBlocks s (le64At n 8) (inp.length / 16) (le64At n 0) inp
  let rest := inp.drop (16 * (inp.length / 16))
  if 0 < rest.length then out ++ xorBytes rest (speckBytes (s.encrypt (le64At n 8, nonce0)))
  else out

/-! ### The stream -/

/-- The bytes of the block with the number `i`. -/
def speckKeyBlock (s : SpeckKeyed) (nonce1 nonce0 : UInt64) (i : ℕ) : List UInt8 :=
  speckBytes (s.encrypt (nonce1, nonce0 + UInt64.ofNat i))

/-- A piece of at most one block. -/
theorem crypt_speckKeyBlock (s : SpeckKeyed) (nonce1 nonce0 : UInt64) (i : ℕ) {p : List UInt8}
    (h : p.length ≤ 16) : crypt 16 (speckKeyBlock s nonce1 nonce0) i p =
      xorBytes p (speckBytes (s.encrypt (nonce1, nonce0 + UInt64.ofNat i))) :=
  crypt_block (length_speckBytes _) h

/-- **The whole blocks.** -/
theorem speckBlocks_eq (s : SpeckKeyed) (nonce1 nonce0 : UInt64) {n : ℕ} (i : ℕ) {inp : List UInt8}
    (h : 16 * n ≤ inp.length) :
    speckBlocks s nonce1 n (nonce0 + UInt64.ofNat i) inp =
      (crypt 16 (speckKeyBlock s nonce1 nonce0) i (inp.take (16 * n)),
        nonce0 + UInt64.ofNat (i + n)) := by
  induction n generalizing i inp with
  | zero => simp [speckBlocks]
  | succ n ih =>
    have hdrop : 16 * n ≤ (inp.drop 16).length := by
      rw [List.length_drop]
      omega
    have hfirst := crypt_speckKeyBlock s nonce1 nonce0 i (inp.length_take_le 16)
    have htake : inp.take (16 * (n + 1)) = inp.take 16 ++ (inp.drop 16).take (16 * n) := by
      rw [Nat.mul_succ, Nat.add_comm, List.take_add]
    have hlen : (inp.take 16).length = 16 * 1 := by
      rw [List.length_take]
      omega
    have hnext : nonce0 + UInt64.ofNat i + 1 = nonce0 + UInt64.ofNat (i + 1) := by
      rw [UInt64.ofNat_add, ← UInt64.add_assoc]
      rfl
    rw [speckBlocks, hnext, ih (i + 1) hdrop, htake, crypt_append (by omega) hlen, hfirst,
      Nat.add_right_comm, Nat.add_assoc i n 1]

/-- **The blocks are added one after the other.** -/
theorem internalSpeckCtr_eq (s : SpeckKeyed) (n inp : List UInt8) :
    internalSpeckCtr s n inp = crypt 16 (speckKeyBlock s (le64At n 8) (le64At n 0)) 0 inp := by
  have hle : 16 * (inp.length / 16) ≤ inp.length := Nat.mul_div_le _ _
  have hblocks := speckBlocks_eq s (le64At n 8) (le64At n 0) 0 hle
  rw [show UInt64.ofNat 0 = 0 from rfl, UInt64.add_zero] at hblocks
  have hrest := @crypt_speckKeyBlock s (le64At n 8) (le64At n 0) (0 + inp.length / 16)
    (inp.drop (16 * (inp.length / 16))) (by rw [List.length_drop]; omega)
  rw [crypt_split (by omega) hle, hrest, internalSpeckCtr, hblocks]
  dsimp only
  split_ifs with hpos
  · rfl
  · rw [List.length_eq_zero_iff.mp (by omega : (inp.drop (16 * (inp.length / 16))).length = 0)]
    simp [xorBytes]

/-- The transform calls a stream cipher, with the nonce before the input. -/
theorem internalSpeckCtr_implements (s : SpeckKeyed) : StreamCipher.Implements (internalSpeckCtr s)
    fun iv i => (speckKeyBlock s (le64At iv 8) (le64At iv 0) (i / 16)).getD (i % 16) 0 := by
  intro iv p
  simp only [internalSpeckCtr_eq, crypt, Nat.zero_add]

/-! ### The headers -/

/-- The rounds by number are those over the list of the round keys. -/
theorem foldl_range_getD {ks : List UInt64} {n : ℕ} (h : n ≤ ks.length) (b : UInt64 × UInt64) :
    (List.range n).foldl (fun b i => speckRound b (ks.getD i 0)) b =
      (ks.take n).foldl speckRound b := by
  induction n with
  | zero => rfl
  | succ n ih =>
    have hlt : n < ks.length := by omega
    rw [List.range_succ, List.foldl_append, ih (by omega), List.foldl_cons, List.foldl_nil,
      ← List.take_concat_get' ks n hlt, List.foldl_append, List.foldl_cons, List.foldl_nil,
      List.getD_eq_getElem _ _ hlt]

@[simp] theorem length_speckExpandLoop (n : ℕ) (i : UInt64) (K : UInt64 × UInt64) :
    (speckExpandLoop n i K).length = n + 1 := by
  induction n generalizing i K with
  | zero => rfl
  | succ n ih => rw [speckExpandLoop, List.length_cons, ih]

/-- **With a key of 128 bits it is the counter mode of the headers.** -/
theorem internalSpeckCtr_128 (k n inp : List UInt8) :
    internalSpeckCtr (speckExpandKey k 128) n inp = speckCtr inp n (speckInit k) := by
  have hlen : (speckExpandKey k 128).ctx.key.length = 34 := length_speckExpandLoop 33 0 _
  have hblock : ∀ i, speckKeyBlock (speckExpandKey k 128) (le64At n 8) (le64At n 0) i =
      speckStreamBlock (speckInit k) n i := fun i =>
    congrArg speckBytes (foldl_range_getD (n := 32) (by rw [hlen]; decide) _)
  simp only [internalSpeckCtr_eq, speckCtr_eq, crypt, hblock, Nat.zero_add]
  rfl

end N2n
